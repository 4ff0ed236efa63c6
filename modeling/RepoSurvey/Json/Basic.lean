import RepoSurvey.Text.Shortest

/-!
Values of the data format in which results are kept, and the two ways of writing them: on one line
without blanks, and with one item or field a line, two blanks of indentation a level.
-/

namespace RepoSurvey

/-- A value of the data format. A record keeps the order of its fields. -/
inductive Json where
  | null
  | bool (b : Bool)
  | integer (n : Int)
  | real (x : Float)
  | text (s : String)
  | list (items : List Json)
  | record (fields : List (String × Json))
  deriving Repr, Inhabited

namespace Json

def natural (n : Nat) : Json := integer n

def texts (ss : List String) : Json := list (ss.map text)

def text? : Option String → Json
  | some s => text s
  | none => null

/-- The value of a field of a record, if it has the field. -/
def field? (name : String) : Json → Option Json
  | record fields => fields.lookup name
  | _ => none

/-- How a character stands between quotation marks. Quotation marks and backslashes follow a
backslash, and control characters are written by letter or number. -/
def escape (c : Char) : List Char :=
  match c with
  | '"' => ['\\', '"']
  | '\\' => ['\\', '\\']
  | '\x08' => ['\\', 'b']
  | '\t' => ['\\', 't']
  | '\n' => ['\\', 'n']
  | '\x0c' => ['\\', 'f']
  | '\r' => ['\\', 'r']
  | c =>
    if c.toNat < 0x20 then
      ['\\', 'u', '0', '0', (c.toNat / 16).digitChar, (c.toNat % 16).digitChar]
    else [c]

def quoted (s : String) : List Char :=
  '"' :: s.toList.flatMap escape ++ ['"']

/-- How the parts of a list or record are set apart. -/
structure Style where
  /-- What stands before each part and before the closing bracket, by depth. -/
  newLine : Nat → List Char
  colon : List Char

def compact : Style := ⟨fun _ => [], [':']⟩

def pretty : Style := ⟨fun depth => '\n' :: List.replicate (2 * depth) ' ', [':', ' ']⟩

mutual

def write (style : Style) (depth : Nat) : Json → List Char
  | null => ['n', 'u', 'l', 'l']
  | bool true => ['t', 'r', 'u', 'e']
  | bool false => ['f', 'a', 'l', 's', 'e']
  | integer n => (toString n).toList
  | real x => (Shortest.text true x).toList
  | text s => quoted s
  | list [] => ['[', ']']
  | list (item :: items) =>
    '[' :: style.newLine (depth + 1) ++ write style (depth + 1) item
      ++ writeItems style (depth + 1) items ++ style.newLine depth ++ [']']
  | record [] => ['{', '}']
  | record ((name, value) :: fields) =>
    '{' :: style.newLine (depth + 1) ++ quoted name ++ style.colon
      ++ write style (depth + 1) value ++ writeFields style (depth + 1) fields
      ++ style.newLine depth ++ ['}']

def writeItems (style : Style) (depth : Nat) : List Json → List Char
  | [] => []
  | item :: items =>
    ',' :: style.newLine depth ++ write style depth item ++ writeItems style depth items

def writeFields (style : Style) (depth : Nat) : List (String × Json) → List Char
  | [] => []
  | (name, value) :: fields =>
    ',' :: style.newLine depth ++ quoted name ++ style.colon ++ write style depth value
      ++ writeFields style depth fields

end

def compactText (v : Json) : String := String.ofList (v.write compact 0)

def prettyText (v : Json) : String := String.ofList (v.write pretty 0)

end Json

end RepoSurvey
