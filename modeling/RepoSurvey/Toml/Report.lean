import RepoSurvey.Toml.Document

/-!
Pointing at faults: the line of a text in which a fault lies, with the faulty stretch marked below
it.
-/

namespace RepoSurvey.Toml

/-- Where a character of a text stands. -/
structure Spot where
  line : Nat
  column : Nat
  /-- The line, without its line feed. -/
  content : List Char
  deriving Repr

/-- Where the character after `before` stands, when `after` follows. -/
def Spot.between (before after : List Char) : Spot :=
  let head := (before.reverse.takeWhile (· != '\n')).reverse
  { line := before.count '\n'
    column := head.length
    content := head ++ after.takeWhile (· != '\n') }

/-- What is said of a stretch of a text. At least one mark is set, and none beyond the line. -/
def pointAt (input : String) (span : Span) (message : String) : String :=
  let cs := input.toList
  let start := cs.length - span.start
  let spot := Spot.between (cs.take start) (cs.drop start)
  let stretch := Json.byteCount ((cs.drop start).take (span.start - span.stop))
  let marks := max 1 (min stretch (Json.byteCount spot.content - spot.column))
  let number := toString (spot.line + 1)
  let margin := String.ofList (List.replicate (number.length + 1) ' ')
  let indent := String.ofList (List.replicate (spot.column + 1) ' ')
  let under := String.ofList (List.replicate marks '^')
  let line := String.ofList spot.content
  "\n".intercalate
    [s!"TOML parse error at line {number}, column {spot.column + 1}", s!"{margin}|",
      s!"{number} | {line}", s!"{margin}|{indent}{under}", message, ""]

def Fault.inText (input : String) (f : Fault) : String :=
  pointAt input ⟨f.rest.length, f.rest.length⟩ f.message

end RepoSurvey.Toml
