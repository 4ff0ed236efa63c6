/-!
White space: the characters that separate words and end a line's text, and cutting them off the
ends of a text.
-/

namespace RepoSurvey

/-- The characters of the property `White_Space`. -/
def blankRanges : List (Nat × Nat) :=
  [(0x09, 0x0D), (0x20, 0x20), (0x85, 0x85), (0xA0, 0xA0), (0x1680, 0x1680), (0x2000, 0x200A),
    (0x2028, 0x2029), (0x202F, 0x202F), (0x205F, 0x205F), (0x3000, 0x3000)]

def isBlank (c : Char) : Bool :=
  blankRanges.any fun (low, high) => low ≤ c.toNat && c.toNat ≤ high

/-- A text without the white space at its end. -/
def trimEnd (s : String) : String :=
  String.ofList (s.toList.reverse.dropWhile isBlank).reverse

/-- A text without the white space at its start. -/
def trimStart (s : String) : String :=
  String.ofList (s.toList.dropWhile isBlank)

def isBlankText (s : String) : Bool :=
  s.toList.all isBlank

/-- The lines of a text, of which `line` is the open one, backwards. A line feed ends a line and
takes one carriage return before it along; at the very end of the text it begins no further line,
and a carriage return there belongs to its line. -/
def linesFrom (line : List Char) : List Char → List String
  | [] => if line.isEmpty then [] else [String.ofList line.reverse]
  | '\n' :: rest =>
    String.ofList (if line.head? = some '\r' then line.tail else line).reverse :: linesFrom [] rest
  | c :: rest => linesFrom (c :: line) rest

def textLines (s : String) : List String :=
  linesFrom [] s.toList

end RepoSurvey
