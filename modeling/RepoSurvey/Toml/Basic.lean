import RepoSurvey.Text.Place

/-!
Values of the format of configuration files. Each value knows the stretch of the text that wrote
it, so that a reader can point at it, and each table knows how it came to be, which decides what
may still be added to it.
-/

namespace RepoSurvey.Toml

/-- A stretch of a text: how many characters are left before it and after it. -/
structure Span where
  start : Nat
  stop : Nat
  deriving Repr, DecidableEq

/-- A thing and the stretch that wrote it. -/
structure Spanned (α : Type) where
  span : Span
  value : α
  deriving Repr

/-- How a table came to be. -/
inductive Origin where
  | header
  | implied
  | dotted
  | braces
  deriving Repr, DecidableEq

/-- A value. -/
inductive Value where
  | text (s : String)
  | integer (n : Int)
  | real (x : Float)
  | excessive (kind : String)
  | bool (b : Bool)
  /-- A date, a time of day or both, as it is written. -/
  | time (written : String)
  /-- A list; one that headers build, a table each, is `growing`. -/
  | list (growing : Bool) (items : List (Spanned Value))
  | table (origin : Origin) (entries : List (String × Spanned Value))
  deriving Repr

/-- Why a text cannot be read, and what of it was not yet read. -/
structure Fault where
  message : String
  rest : List Char
  deriving Repr

/-- A reader takes something off the head of a text. -/
abbrev Reader (α : Type) := List Char → Except Fault (α × List Char)

end RepoSurvey.Toml
