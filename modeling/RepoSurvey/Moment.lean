import RepoSurvey.Text.Blank
import RepoSurvey.Text.Power

/-!
Moments: a day and a time of day, read from and written as text in the Internet's date format. A
moment is written in universal time; one that is read may state another offset.
-/

namespace RepoSurvey

/-- A moment in universal time. -/
structure Moment where
  day : Int
  second : Nat
  /-- Billionths of a second; a leap second holds another thousand million of them. -/
  nanosecond : Nat
  deriving Repr, DecidableEq, Inhabited

namespace Moment

def epoch : Moment := ⟨0, 0, 0⟩

/-! ### Calendar -/

/-- The number of the day of a date, years beginning in March. -/
def dayNumber (year : Int) (month day : Nat) : Int :=
  let y := if month ≤ 2 then year - 1 else year
  let era := y.fdiv 400
  let yearOfEra := y.fmod 400
  let shifted : Int := if month ≤ 2 then month + 9 else month - 3
  let dayOfYear := (153 * shifted + 2) / 5 + day - 1
  let dayOfEra := yearOfEra * 365 + yearOfEra / 4 - yearOfEra / 100 + dayOfYear
  era * 146097 + dayOfEra - 719468

/-- The year, month and day of a day's number. -/
def dateOf (n : Int) : Int × Nat × Nat :=
  let z := n + 719468
  let era := z.fdiv 146097
  let dayOfEra := z.fmod 146097
  let yearOfEra :=
    (dayOfEra - dayOfEra / 1460 + dayOfEra / 36524 - dayOfEra / 146096) / 365
  let dayOfYear := dayOfEra - (365 * yearOfEra + yearOfEra / 4 - yearOfEra / 100)
  let shifted := (5 * dayOfYear + 2) / 153
  let day := dayOfYear - (153 * shifted + 2) / 5 + 1
  let month := if shifted < 10 then shifted + 3 else shifted - 9
  let year := yearOfEra + era * 400 + if month ≤ 2 then 1 else 0
  (year, month.toNat, day.toNat)

def isLeapYear (year : Int) : Bool :=
  year % 4 == 0 && (year % 100 != 0 || year % 400 == 0)

/-- How many days a month has. -/
def monthLength (year : Int) (month : Nat) : Nat :=
  if month = 2 then (if isLeapYear year then 29 else 28)
  else if month = 4 ∨ month = 6 ∨ month = 9 ∨ month = 11 then 30
  else 31

/-! ### Writing -/

def padded (width n : Nat) : String :=
  let ds := Nat.toDigits 10 n
  String.ofList (List.replicate (width - ds.length) '0' ++ ds)

/-- A year in four digits; one beyond them has a sign. -/
def yearText (year : Int) : String :=
  if 0 ≤ year ∧ year ≤ 9999 then padded 4 year.toNat
  else (if year < 0 then "-" else "+") ++ padded 4 year.natAbs

/-- A fraction of a second in thousandths, millionths or billionths, whichever is enough. -/
def fractionText (nanosecond : Nat) : String :=
  if nanosecond = 0 then ""
  else if nanosecond % 1000000 = 0 then "." ++ padded 3 (nanosecond / 1000000)
  else if nanosecond % 1000 = 0 then "." ++ padded 6 (nanosecond / 1000)
  else "." ++ padded 9 nanosecond

def text (m : Moment) : String :=
  let (year, month, day) := dateOf m.day
  let leap := m.nanosecond / 1000000000
  s!"{yearText year}-{padded 2 month}-{padded 2 day}T{padded 2 (m.second / 3600)}:" ++
    s!"{padded 2 (m.second / 60 % 60)}:{padded 2 (m.second % 60 + leap)}" ++
    s!"{fractionText (m.nanosecond % 1000000000)}Z"

/-! ### Reading -/

/-- Why a text is no moment. -/
inductive Refusal where
  | invalid | tooShort | tooLong | outOfRange
  deriving Repr, DecidableEq

/-- What is said of a text that is no moment. -/
def Refusal.message : Refusal → String
  | invalid => "input contains invalid characters"
  | tooShort => "premature end of input"
  | tooLong => "trailing input"
  | outOfRange => "input is out of range"

/-- A reader of a part of a moment. -/
abbrev Part (α : Type) := List Char → Except Refusal (α × List Char)

/-- The text without the white space at its head. -/
def skipBlanks (cs : List Char) : List Char := cs.dropWhile isBlank

def digitsValue (ds : List Char) : Nat := ds.foldl (fun n c => n * 10 + (c.toNat - '0'.toNat)) 0

/-- A number of at least one and at most `width` digits. -/
def readDigits (width : Nat) : Part Nat := fun cs =>
  match (cs.take width).takeWhile Char.isDigit with
  | [] => .error (if cs.isEmpty then .tooShort else .invalid)
  | ds =>
    if digitsValue ds < twoTo 63 then .ok (digitsValue ds, cs.drop ds.length)
    else .error .outOfRange

/-- A number of two digits within bounds, white space allowed before it. -/
def readTwo (low high : Nat) : Part Nat := fun cs => do
  let (n, rest) ← readDigits 2 (skipBlanks cs)
  if low ≤ n ∧ n ≤ high then .ok (n, rest) else .error .outOfRange

/-- A year of at most four digits, or of any number of them after a sign. -/
def readYear : Part Int := fun cs => do
  let (n, rest) ←
    match skipBlanks cs with
    | '-' :: rest => do
      let (n, rest) ← readDigits rest.length rest
      pure (-(n : Int), rest)
    | '+' :: rest => do
      let (n, rest) ← readDigits rest.length rest
      pure ((n : Int), rest)
    | rest => do
      let (n, rest) ← readDigits 4 rest
      pure ((n : Int), rest)
  if -2147483648 ≤ n ∧ n < 2147483648 then .ok (n, rest) else .error .outOfRange

/-- A sign between two parts, white space allowed before it. -/
def readSign (c : Char) (cs : List Char) : Except Refusal (List Char) :=
  match skipBlanks cs with
  | [] => .error .tooShort
  | d :: rest => if c = d then .ok rest else .error .invalid

/-- A fraction of a second, if a point announces one. Digits beyond the ninth are dropped. -/
def readFraction : Part Nat
  | '.' :: cs => do
    let (n, rest) ← readDigits 9 cs
    let count := cs.length - rest.length
    .ok (n * tenTo (9 - count), rest.dropWhile Char.isDigit)
  | cs => .ok (0, cs)

/-- Two digits of which each lies within bounds that the caller checks. -/
def twoDigits : Part (Char × Char)
  | a :: b :: rest => .ok ((a, b), rest)
  | [a] => if a.utf8Size < 2 then .error .tooShort else .error .invalid
  | [] => .error .tooShort

def readOffset : Part Int := fun cs =>
  match cs with
  | [] => .error .tooShort
  | 'Z' :: rest | 'z' :: rest => .ok (0, rest)
  | sign :: rest =>
    if sign = '+' ∨ sign = '-' ∨ sign = '−' then do
      let ((a, b), rest) ← twoDigits rest
      if ¬ (a.isDigit ∧ b.isDigit) then .error .invalid
      let rest := rest.dropWhile fun c => c == ':' || isBlank c
      let ((c, d), rest) ← twoDigits rest
      if ¬ (c.isDigit ∧ d.isDigit) then .error .invalid
      if '6' ≤ c then .error .outOfRange
      let seconds : Int := digitsValue [a, b] * 3600 + digitsValue [c, d] * 60
      .ok (if sign = '+' then seconds else -seconds, rest)
    else .error .invalid

/-- The offset from universal time, which may also be written in letters. -/
def readZone : Part Int
  | a :: b :: c :: rest =>
    if [a, b, c].map Char.toUpper = ['U', 'T', 'C'] then .ok (0, rest)
    else readOffset (a :: b :: c :: rest)
  | cs => readOffset cs

def readDivider : List Char → Except Refusal (List Char)
  | [] => .error .tooShort
  | c :: rest => if c = 't' ∨ c = 'T' ∨ c = ' ' then .ok rest else .error .invalid

def read (s : String) : Except Refusal Moment := do
  let (year, cs) ← readYear s.toList
  let (month, cs) ← readTwo 1 12 (← readSign '-' cs)
  let (day, cs) ← readTwo 1 31 (← readSign '-' cs)
  let (hour, cs) ← readTwo 0 23 (← readDivider cs)
  let (minute, cs) ← readTwo 0 59 (← readSign ':' cs)
  let (second, cs) ← readTwo 0 60 (← readSign ':' cs)
  let (nanosecond, cs) ← readFraction cs
  let (offset, cs) ← readZone (skipBlanks cs)
  if ¬ (skipBlanks cs).isEmpty then .error .tooLong
  if year < -262143 ∨ 262142 < year ∨ monthLength year month < day then .error .outOfRange
  if 86400 ≤ offset.natAbs then .error .outOfRange
  let leap := if second = 60 then 1 else 0
  let seconds : Int := hour * 3600 + minute * 60 + (second - leap : Nat) - offset
  .ok {
    day := dayNumber year month day + seconds.fdiv 86400
    second := (seconds.fmod 86400).toNat
    nanosecond := nanosecond + leap * 1000000000 }

end Moment

end RepoSurvey
