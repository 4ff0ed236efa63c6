import RepoSurvey.Json.Token
import RepoSurvey.Toml.Basic

/-!
Texts between marks: on one line or on several, with escapes or as they stand. A text on several
lines stands between threefold marks and may end in two of them itself.
-/

namespace RepoSurvey.Toml

def isPlain (c : Char) : Bool := c == '\t' || (0x20 ≤ c.toNat && c.toNat != 0x7F)

/-- The character of a number, unless it is no character's. -/
def charOfNumber? (n : Nat) : Option Char :=
  if h : n.isValidChar then some (Char.ofNatAux n h) else none

def hexNumber? (ds : List Char) : Option Nat :=
  ds.foldlM (fun n c => (Json.hexDigit? c).map (n * 16 + ·)) 0

/-- The character that a letter after a backslash stands for. -/
def letterEscape? : Char → Option Char
  | 'b' => some '\x08'
  | 't' => some '\t'
  | 'n' => some '\n'
  | 'f' => some '\x0c'
  | 'r' => some '\r'
  | 'e' => some '\x1b'
  | '"' => some '"'
  | '\\' => some '\\'
  | _ => none

/-- How many digits follow a letter that announces the number of a character. -/
def escapeSize? : Char → Option Nat
  | 'x' => some 2
  | 'u' => some 4
  | 'U' => some 8
  | _ => none

/-- The character that is written by a letter and `n` digits at the head of `rest`. -/
def escaped? (letter : Char) (rest : List Char) : Option (Char × Nat) :=
  match letterEscape? letter, escapeSize? letter with
  | some c, _ => some (c, 0)
  | none, some n =>
    if n ≤ rest.length then
      ((hexNumber? (rest.take n)).bind charOfNumber?).map fun c => (c, n)
    else none
  | none, none => none

/-- A text on one line after its opening mark. Where `escapes` is set, a backslash escapes. -/
def readLine (escapes : Bool) (mark : Char) (cs : List Char) :
    Except Fault (List Char × List Char) :=
  match cs with
  | [] => .error ⟨"the text is not closed", []⟩
  | c :: rest =>
    if c = mark then .ok ([], rest)
    else if escapes ∧ c = '\\' then
      match rest with
      | [] => .error ⟨"the text is not closed", []⟩
      | letter :: more =>
        match escaped? letter more with
        | none => .error ⟨"no such escape", rest⟩
        | some (c, n) =>
          (readLine escapes mark (more.drop n)).map fun (s, rest) => (c :: s, rest)
    else if isPlain c then (readLine escapes mark rest).map fun (s, rest) => (c :: s, rest)
    else .error ⟨"no such character in a text", c :: rest⟩
termination_by cs.length
decreasing_by all_goals simp only [List.length_cons, List.length_drop]; omega

/-- A text without the line end at its head. -/
def afterLineEnd? : List Char → Option (List Char)
  | '\n' :: rest => some rest
  | '\r' :: '\n' :: rest => some rest
  | _ => none

def isSpace (c : Char) : Bool := c == ' ' || c == '\t'

/-- What follows a backslash at the end of a line: the text without the blanks and line ends at its
head, of which there is a line end before anything but blanks. -/
def afterFold? (cs : List Char) : Option (List Char) :=
  (afterLineEnd? (cs.dropWhile isSpace)).map
    (List.dropWhile fun c => isSpace c || c == '\n' || c == '\r')

def readLines (escapes : Bool) (mark : Char) (cs : List Char) :
    Except Fault (List Char × List Char) :=
  match cs with
  | [] => .error ⟨"the text is not closed", []⟩
  | c :: rest =>
    let marks := (c :: rest).takeWhile (· == mark)
    if 3 ≤ marks.length then
      let extra := min (marks.length - 3) 2
      .ok (marks.take extra, (c :: rest).drop (extra + 3))
    else if escapes ∧ c = '\\' then
      match afterFold? rest with
      | some more =>
        if more.length < rest.length then readLines escapes mark more
        else .error ⟨"no such escape", rest⟩
      | none =>
        match rest with
        | [] => .error ⟨"the text is not closed", []⟩
        | letter :: more =>
          match escaped? letter more with
          | none => .error ⟨"no such escape", rest⟩
          | some (c, n) =>
            (readLines escapes mark (more.drop n)).map fun (s, rest) => (c :: s, rest)
    else if isPlain c ∨ (afterLineEnd? (c :: rest)).isSome then
      (readLines escapes mark rest).map fun (s, rest) => (c :: s, rest)
    else .error ⟨"no such character in a text", c :: rest⟩
termination_by cs.length
decreasing_by all_goals simp only [List.length_cons, List.length_drop]; omega

/-- A text with its marks. A line end right after threefold marks is no part of it. -/
def readText (cs : List Char) : Except Fault (List Char × List Char) :=
  let several (escapes : Bool) (mark : Char) (rest : List Char) :=
    readLines escapes mark ((afterLineEnd? rest).getD rest)
  match cs with
  | '"' :: '"' :: '"' :: rest => several true '"' rest
  | '\'' :: '\'' :: '\'' :: rest => several false '\'' rest
  | '"' :: rest => readLine true '"' rest
  | '\'' :: rest => readLine false '\'' rest
  | _ => .error ⟨"a text is expected", cs⟩

end RepoSurvey.Toml
