/-!
Places in a text, counted in characters, bytes, lines and columns.
-/

namespace RepoSurvey

/-- A place in a text: the number of characters and of bytes before it, its line, and its column in
bytes from the start of the line. Lines and columns count from zero. -/
structure Place where
  index : Nat
  byte : Nat
  line : Nat
  column : Nat
  deriving DecidableEq, Repr, Inhabited

namespace Place

def start : Place := ⟨0, 0, 0, 0⟩

/-- The number of bytes of a character in UTF-8. -/
def width (c : Char) : Nat := c.utf8Size

/-- The place after a character. Only a line feed starts a new line. -/
def next (p : Place) (c : Char) : Place :=
  if c = '\n' then ⟨p.index + 1, p.byte + 1, p.line + 1, 0⟩
  else ⟨p.index + 1, p.byte + width c, p.line, p.column + width c⟩

end Place

end RepoSurvey
