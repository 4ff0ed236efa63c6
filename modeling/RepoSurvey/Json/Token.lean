import RepoSurvey.Json.Basic
import RepoSurvey.Text.Power
import RepoSurvey.Text.Utf8

/-!
The tokens of the data format: blanks, quoted texts, numbers and words, each read off the head of a
text. A reader that fails tells what is wrong and where, the place counted in lines and bytes.
-/

namespace RepoSurvey.Json

/-- Why a text cannot be read, and what of it was not yet read. The place of the fault lies `ahead`
bytes beyond what was read. -/
structure Fault where
  message : String
  rest : List Char
  ahead : Nat
  deriving Repr

def Fault.here (message : String) (rest : List Char) : Fault := ⟨message, rest, 0⟩

def Fault.next (message : String) (rest : List Char) : Fault := ⟨message, rest, 1⟩

/-- How many bytes some characters take. -/
def byteCount (cs : List Char) : Nat := cs.foldl (fun n c => n + c.utf8Size) 0

/-- The line and column at which the first bytes of a text end. -/
def placeAfter (bytes : List UInt8) : Nat × Nat :=
  (1 + bytes.count 0x0A, (bytes.reverse.takeWhile (· != 0x0A)).length)

def Fault.inText (input : String) (f : Fault) : String :=
  let bytes := Utf8.encode input
  let (line, column) := placeAfter (bytes.take (bytes.length - byteCount f.rest + f.ahead))
  s!"{f.message} at line {line} column {column}"

/-- A reader takes something off the head of a text. -/
abbrev Reader (α : Type) := List Char → Except Fault (α × List Char)

def isGap (c : Char) : Bool := c == ' ' || c == '\n' || c == '\t' || c == '\r'

/-- A text without the blanks at its head. -/
def skipGap (cs : List Char) : List Char := cs.dropWhile isGap

def readWord : (word : List Char) → List Char → Except Fault (List Char)
  | [], rest => .ok rest
  | _ :: _, [] => .error (.here "EOF while parsing a value" [])
  | w :: word, c :: rest =>
    if w = c then readWord word rest else .error (.next "expected ident" (c :: rest))

def hexDigit? (c : Char) : Option Nat :=
  if c.isDigit then some (c.toNat - '0'.toNat)
  else if 'a' ≤ c ∧ c ≤ 'f' then some (c.toNat - 'a'.toNat + 10)
  else if 'A' ≤ c ∧ c ≤ 'F' then some (c.toNat - 'A'.toNat + 10)
  else none

def hexValue? (a b c d : Char) : Option Nat := do
  return ((← hexDigit? a) * 16 + (← hexDigit? b)) * 256 + (← hexDigit? c) * 16 + (← hexDigit? d)

/-- The fault of four bytes that should be hexadecimal digits. -/
def hexFault (cs : List Char) : Fault :=
  if 4 ≤ byteCount cs then ⟨"invalid escape", cs, 4⟩ else .here "EOF while parsing a string" []

/-- The character that a letter after a backslash stands for. -/
def unescape? (c : Char) : Option Char :=
  match c with
  | '"' => some '"'
  | '\\' => some '\\'
  | '/' => some '/'
  | 'b' => some '\x08'
  | 'f' => some '\x0c'
  | 'n' => some '\n'
  | 'r' => some '\r'
  | 't' => some '\t'
  | _ => none

def consText (c : Char) (r : List Char × List Char) : List Char × List Char := (c :: r.1, r.2)

/-- A quoted text after its opening quotation mark, through the closing one. A character beyond the
first plane may be written as two numbers, the halves of a surrogate pair. -/
def readQuoted : Reader (List Char)
  | [] => .error (.here "EOF while parsing a string" [])
  | '"' :: rest => .ok ([], rest)
  | '\\' :: rest =>
    match rest with
    | [] => .error (.here "EOF while parsing a string" [])
    | 'u' :: a :: b :: c :: d :: rest =>
      match hexValue? a b c d with
      | none => .error (hexFault (a :: b :: c :: d :: rest))
      | some n =>
        if 0xDC00 ≤ n ∧ n < 0xE000 then
          .error (.here "lone leading surrogate in hex escape" rest)
        else if n < 0xD800 ∨ 0xE000 ≤ n then (readQuoted rest).map (consText (Char.ofNat n))
        else
          match rest with
          | [] => .error (.here "EOF while parsing a string" [])
          | ['\\'] => .error (.here "EOF while parsing a string" [])
          | '\\' :: 'u' :: e :: f :: g :: h :: rest =>
            match hexValue? e f g h with
            | none => .error (hexFault (e :: f :: g :: h :: rest))
            | some m =>
              if 0xDC00 ≤ m ∧ m < 0xE000 then
                (readQuoted rest).map
                  (consText (Char.ofNat (0x10000 + (n - 0xD800) * 0x400 + (m - 0xDC00))))
              else .error (.here "lone leading surrogate in hex escape" rest)
          | '\\' :: 'u' :: rest => .error (hexFault rest)
          | '\\' :: rest => .error (.next "unexpected end of hex escape" rest)
          | rest => .error (.next "unexpected end of hex escape" rest)
    | 'u' :: rest => .error (hexFault rest)
    | c :: rest =>
      match unescape? c with
      | some c => (readQuoted rest).map (consText c)
      | none => .error (.next "invalid escape" (c :: rest))
  | c :: rest =>
    if c.toNat < 0x20 then
      .error (.here "control character (\\u0000-\\u001F) found while parsing a string" rest)
    else (readQuoted rest).map (consText c)

/-- Passes over a quoted text after its opening quotation mark, whatever numbers it writes. -/
def skipQuoted : List Char → Except Fault (List Char)
  | [] => .error (.here "EOF while parsing a string" [])
  | '"' :: rest => .ok rest
  | '\\' :: rest =>
    match rest with
    | [] => .error (.here "EOF while parsing a string" [])
    | 'u' :: a :: b :: c :: d :: rest =>
      if (hexValue? a b c d).isSome then skipQuoted rest
      else .error (hexFault (a :: b :: c :: d :: rest))
    | 'u' :: rest => .error (hexFault rest)
    | c :: rest =>
      if (unescape? c).isSome then skipQuoted rest else .error (.next "invalid escape" (c :: rest))
  | c :: rest =>
    if c.toNat < 0x20 then
      .error (.here "control character (\\u0000-\\u001F) found while parsing a string" (c :: rest))
    else skipQuoted rest

/-! ### Numbers -/

/-- The bound of the whole numbers that are kept exactly. -/
def wordBound : Nat := twoTo 64

/-- Appends decimal digits to a number as long as it stays below the bound of a word. The rest of
the digits is left over. -/
def absorb (n : Nat) : List Char → Nat × List Char
  | [] => (n, [])
  | c :: rest =>
    let next := n * 10 + (c.toNat - '0'.toNat)
    if next < wordBound then absorb next rest else (n, c :: rest)

/-- Ten to a power, as a floating-point value. -/
def powerOfTen (n : Nat) : Float := Float.ofScientific 1 false n

/-- `x` times ten to `exponent`, unless that is too large. Scaling beyond the smallest power goes in
steps, at most `steps` of them. -/
def scaled? (x : Float) (exponent : Int) : (steps : Nat) → Option Float
  | 0 => some x
  | steps + 1 =>
    if exponent.natAbs ≤ 308 then
      if 0 ≤ exponent then
        let y := x * powerOfTen exponent.natAbs
        if y.isInf then none else some y
      else some (x / powerOfTen exponent.natAbs)
    else if x == 0 then some x
    else if 0 ≤ exponent then none
    else scaled? (x / powerOfTen 308) (exponent + 308) steps

/-- A number with a fraction or a power of ten, as a value. -/
def realValue (negative : Bool) (significand : Nat) (exponent : Int) : Reader Json := fun rest =>
  match scaled? significand.toUInt64.toFloat exponent 1000 with
  | some x => .ok (.real (if negative then -x else x), rest)
  | none => .error (.here "number out of range" rest)

/-- The decimal digits at the head of a text, and what follows them. -/
def digitsOf (cs : List Char) : List Char × List Char :=
  (cs.takeWhile Char.isDigit, cs.dropWhile Char.isDigit)

/-- The bound of the powers of ten that are counted. -/
def exponentBound : Nat := twoTo 31

/-- The digits of a power of ten, or how far they were read when it left its bounds. -/
def readExponentDigits (n : Nat) : List Char → Except (List Char) (Nat × List Char)
  | [] => .ok (n, [])
  | c :: rest =>
    if c.isDigit then
      let next := n * 10 + (c.toNat - '0'.toNat)
      if next < exponentBound then readExponentDigits next rest else .error rest
    else .ok (n, c :: rest)

/-- The power of ten of a number, after the letter that announces it. -/
def readExponent (negative : Bool) (significand : Nat) (exponent : Int) : Reader Json := fun cs =>
  let (down, cs) :=
    match cs with
    | '+' :: rest => (false, rest)
    | '-' :: rest => (true, rest)
    | cs => (false, cs)
  match cs with
  | [] => .error (.here "EOF while parsing a value" [])
  | c :: rest =>
    if c.isDigit then
      match readExponentDigits (c.toNat - '0'.toNat) rest with
      | .ok (n, rest) =>
        realValue negative significand (if down then exponent - n else exponent + n) rest
      | .error rest =>
        if significand ≠ 0 ∧ ¬ down then .error (.here "number out of range" rest)
        else .ok (.real (if negative then -0.0 else 0.0), (digitsOf rest).2)
    else .error (.next "invalid number" (c :: rest))

/-- The fraction of a number, after its point. -/
def readFraction (negative : Bool) (significand : Nat) (exponent : Int) : Reader Json := fun cs =>
  match digitsOf cs with
  | ([], []) => .error (.next "EOF while parsing a value" [])
  | ([], rest) => .error (.next "invalid number" rest)
  | (ds, rest) =>
    let (significand, left) := absorb significand ds
    let exponent := exponent - (ds.length - left.length : Nat)
    match rest with
    | 'e' :: rest | 'E' :: rest => readExponent negative significand exponent rest
    | rest => realValue negative significand exponent rest

/-- A number after its sign. A whole number that fits a word is kept exactly. -/
def readNumber (negative : Bool) : Reader Json := fun cs =>
  match digitsOf cs with
  | ([], []) => .error (.here "EOF while parsing a value" [])
  | ([], rest) => .error (.next "invalid number" rest)
  | ('0' :: d :: ds, rest) => .error (.next "invalid number" (d :: ds ++ rest))
  | (ds, rest) =>
    let (significand, left) := absorb 0 ds
    match rest with
    | '.' :: rest => readFraction negative significand left.length rest
    | 'e' :: rest | 'E' :: rest => readExponent negative significand left.length rest
    | rest =>
      if left ≠ [] then realValue negative significand left.length rest
      else if negative then
        if significand = 0 ∨ twoTo 63 < significand then
          .ok (.real (-significand.toUInt64.toFloat), rest)
        else .ok (.integer (-significand), rest)
      else .ok (.integer significand, rest)

/-- Passes over the power of ten of a number, after the letter that announces it. -/
def skipExponent (cs : List Char) : Except Fault (List Char) :=
  let cs :=
    match cs with
    | '+' :: rest | '-' :: rest => rest
    | cs => cs
  match digitsOf cs with
  | ([], []) => .error (.here "invalid number" [])
  | ([], rest) => .error (.next "invalid number" rest)
  | (_, rest) => .ok rest

/-- Passes over a number after its sign, however large. -/
def skipNumber (cs : List Char) : Except Fault (List Char) :=
  match digitsOf cs with
  | ([], []) => .error (.here "invalid number" [])
  | ([], rest) => .error (.next "invalid number" rest)
  | ('0' :: d :: ds, rest) => .error (.next "invalid number" (d :: ds ++ rest))
  | (_, '.' :: rest) =>
    match digitsOf rest with
    | ([], rest) => .error (.next "invalid number" rest)
    | (_, 'e' :: rest) | (_, 'E' :: rest) => skipExponent rest
    | (_, rest) => .ok rest
  | (_, 'e' :: rest) | (_, 'E' :: rest) => skipExponent rest
  | (_, rest) => .ok rest

end RepoSurvey.Json
