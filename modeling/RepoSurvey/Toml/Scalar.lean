import RepoSurvey.Json.Token
import RepoSurvey.Moment
import RepoSurvey.Text.Power
import RepoSurvey.Toml.Basic

/-!
Values without parts: words, numbers, dates and times. Each of them is written without blanks, but
for the one that may part a date from a time, and a run of characters is taken for what its form
says.
-/

namespace RepoSurvey.Toml

/-- A run of digits in which single underscores may stand between two digits. The underscores are
left out. -/
def digits? (isDigit : Char → Bool) : List Char → Option (List Char)
  | [] => none
  | [c] => if isDigit c then some [c] else none
  | c :: '_' :: rest => if isDigit c then (digits? isDigit rest).map (c :: ·) else none
  | c :: rest => if isDigit c then (digits? isDigit rest).map (c :: ·) else none

/-- The number that digits to a base write. -/
def numberOf (base : Nat) (ds : List Char) : Nat :=
  ds.foldl (fun n c => n * base + (Json.hexDigit? c).getD 0) 0

/-- Whether a character is a digit to a base of at most sixteen. -/
def isDigitOf (base : Nat) (c : Char) : Bool :=
  match Json.hexDigit? c with
  | some n => n < base
  | none => false

def integerValue (n : Int) : Value :=
  if -(twoTo 127 : Int) ≤ n ∧ n < twoTo 128 then .integer n else .excessive "integer number"

/-- The digits of a number to the base ten, which begin with a zero only if they are no more. -/
def decimalDigits? (cs : List Char) : Option (List Char) :=
  match digits? Char.isDigit cs with
  | some ('0' :: _ :: _) => none
  | ds => ds

/-- A sign at the head of a run: whether the run is negative, whether there was a sign, and the
rest. -/
def signOf : List Char → Bool × Bool × List Char
  | '-' :: rest => (true, true, rest)
  | '+' :: rest => (false, true, rest)
  | cs => (false, false, cs)

/-- An integer to the base ten. -/
def decimal? (cs : List Char) : Option Value :=
  let (negative, _, cs) := signOf cs
  (decimalDigits? cs).map fun ds =>
    let n : Int := numberOf 10 ds
    integerValue (if negative then -n else n)

/-- An integer to a base that the first characters announce. -/
def based? (cs : List Char) : Option Value :=
  let read (base : Nat) (cs : List Char) : Option Value :=
    (digits? (isDigitOf base) cs).map fun ds => integerValue (numberOf base ds)
  match cs with
  | '0' :: 'x' :: cs => read 16 cs
  | '0' :: 'o' :: cs => read 8 cs
  | '0' :: 'b' :: cs => read 2 cs
  | _ => none

def isPowerMark (c : Char) : Bool := c == 'e' || c == 'E'

/-- The power of ten of a number, which has a sign or none. -/
def power? (cs : List Char) : Option Int :=
  let (negative, _, cs) := signOf cs
  (digits? Char.isDigit cs).map fun ds =>
    let n : Int := numberOf 10 ds
    if negative then -n else n

/-- The power of ten beyond which every number is zero or infinite. -/
def powerBound : Int := 5000

/-- The floating-point value nearest to `n * 10 ^ power`, where `n` has so many digits. -/
def nearestFloat (n : Nat) (size : Nat) (power : Int) : Float :=
  if n = 0 then 0
  else if power + size < -powerBound then 0
  else if powerBound < power + size then 1 / 0
  else if power < 0 then Float.ofScientific n true power.natAbs
  else Float.ofScientific n false power.natAbs

/-- A number with a fraction, a power of ten or both. -/
def real? (cs : List Char) : Option Value := do
  let (negative, _, cs) := signOf cs
  let mantissa := cs.takeWhile fun c => !isPowerMark c
  let power ←
    match cs.dropWhile fun c => !isPowerMark c with
    | [] => some 0
    | _ :: rest => power? rest
  let whole ← decimalDigits? (mantissa.takeWhile (· != '.'))
  let fraction ←
    match mantissa.dropWhile (· != '.') with
    | [] => if cs.any isPowerMark then some [] else none
    | _ :: rest => digits? Char.isDigit rest
  let ds := whole ++ fraction
  let x := nearestFloat (numberOf 10 ds) ds.length (power - fraction.length)
  return if x.isInf then .excessive "floating-point number" else .real (if negative then -x else x)

def special? (cs : List Char) : Option Value :=
  let (negative, _, cs) := signOf cs
  let signed (x : Float) : Value := .real (if negative then -x else x)
  match cs with
  | ['i', 'n', 'f'] => some (signed (1 / 0))
  | ['n', 'a', 'n'] => some (signed (0 / 0))
  | _ => none

/-! ### Dates and times -/

/-- Two digits below a bound. -/
def twoDigits? (bound : Nat) (a b : Char) : Option Nat :=
  if a.isDigit ∧ b.isDigit ∧ numberOf 10 [a, b] < bound then some (numberOf 10 [a, b]) else none

def afterDate? : List Char → Option (List Char)
  | y :: e :: a :: r :: '-' :: m :: n :: '-' :: d :: f :: rest => do
    let month ← twoDigits? 13 m n
    let day ← twoDigits? 32 d f
    if [y, e, a, r].all Char.isDigit ∧ 1 ≤ month ∧ 1 ≤ day
        ∧ day ≤ Moment.monthLength (numberOf 10 [y, e, a, r]) month then
      some rest
    else none
  | _ => none

/-- What follows the fraction of a second, if there is one. -/
def afterFraction? : List Char → Option (List Char)
  | '.' :: rest =>
    match Json.digitsOf rest with
    | ([], _) => none
    | (_, rest) => some rest
  | cs => some cs

/-- What follows the seconds of a time of day, if there are any. -/
def afterSeconds? : List Char → Option (List Char)
  | ':' :: s :: t :: rest => do
    let _ ← twoDigits? 61 s t
    afterFraction? rest
  | ':' :: _ => none
  | cs => some cs

def afterTime? : List Char → Option (List Char)
  | h :: o :: ':' :: m :: i :: rest => do
    let _ ← twoDigits? 24 h o
    let _ ← twoDigits? 60 m i
    afterSeconds? rest
  | _ => none

/-- Whether a run is the offset of a time of day, or nothing. -/
def isOffset : List Char → Bool
  | [] | ['Z'] | ['z'] => true
  | [sign, h, o, ':', m, i] =>
    (sign == '+' || sign == '-') && (twoDigits? 24 h o).isSome && (twoDigits? 60 m i).isSome
  | _ => false

/-- Whether a character stands between a date and a time of day. -/
def isDateMark (c : Char) : Bool := c == 'T' || c == 't' || c == ' '

/-- Whether a run is a date, a time of day or both. -/
def isTime (cs : List Char) : Bool :=
  match afterDate? cs with
  | some [] => true
  | some (mark :: rest) => isDateMark mark && ((afterTime? rest).map isOffset).getD false
  | none => afterTime? cs == some []

/-- A date, a time of day or both. -/
def time? (cs : List Char) : Option Value :=
  if isTime cs then some (.time (String.ofList cs)) else none

def scalar? (cs : List Char) : Option Value :=
  match cs with
  | ['t', 'r', 'u', 'e'] => some (.bool true)
  | ['f', 'a', 'l', 's', 'e'] => some (.bool false)
  | cs => decimal? cs <|> based? cs <|> real? cs <|> special? cs <|> time? cs

/-! ### Runs -/

def endsRun (c : Char) : Bool :=
  [' ', '\t', '\n', '\r', '#', ',', '=', '[', ']', '\x7b', '\x7d', '"', '\''].contains c

/-- The run at the head of a text and what follows it. A date takes a time of day along that is
parted from it by one blank. -/
def runOf (cs : List Char) : List Char × List Char :=
  let run := cs.takeWhile (!endsRun ·)
  let rest := cs.dropWhile (!endsRun ·)
  match afterDate? run, rest with
  | some [], ' ' :: c :: more =>
    if c.isDigit then
      (run ++ ' ' :: (c :: more).takeWhile (!endsRun ·), (c :: more).dropWhile (!endsRun ·))
    else (run, rest)
  | _, _ => (run, rest)

end RepoSurvey.Toml
