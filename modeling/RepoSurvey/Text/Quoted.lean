import RepoSurvey.Text.Printable

/-!
Texts between quotation marks, as messages show them.
-/

namespace RepoSurvey.Text

/-- The digits of a number in base 16. -/
def hexDigits (n : Nat) : List Char := Nat.toDigits 16 n

/-- How a character stands in a quoted text: signs that would be misread follow a backslash, and
characters that do not show by themselves are written by their number. -/
def quotedChar (c : Char) : List Char :=
  match c with
  | '"' => ['\\', '"']
  | '\\' => ['\\', '\\']
  | '\t' => ['\\', 't']
  | '\n' => ['\\', 'n']
  | '\r' => ['\\', 'r']
  | '\x00' => ['\\', '0']
  | c =>
    if isPrintable c then [c]
    else '\\' :: 'u' :: '\x7b' :: hexDigits c.toNat ++ ['\x7d']

def quoted (s : String) : String :=
  String.ofList ('"' :: s.toList.flatMap quotedChar ++ ['"'])

end RepoSurvey.Text
