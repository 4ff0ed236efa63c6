import RepoSurvey.Text.Fixed

/-!
The shortest decimal text of a binary floating-point value: the fewest digits that read back to the
value, of those the nearest, and the two ways of setting them out.
-/

namespace RepoSurvey.Shortest

/-- A positive value between its two neighbours, all in the same unit `1 / den`: every number from
`low` to `high` rounds to `value`, the ends themselves if `closed`. -/
structure Interval where
  low : Nat
  value : Nat
  high : Nat
  den : Nat
  closed : Bool
  deriving Repr

/-- The numbers that round to a positive finite floating-point value. -/
def Interval.ofFloat (x : Float) : Interval :=
  let bits := x.toBits.toNat % twoTo 63
  let exponent := bits / twoTo 52
  let fraction := bits % twoTo 52
  let m := if exponent = 0 then fraction else fraction + twoTo 52
  let scale := if exponent = 0 then 1 else exponent
  let below := if fraction = 0 ∧ 1 < exponent then 1 else 2
  let unit := if scale < 1077 then 1 else twoTo (scale - 1077)
  { low := (4 * m - below) * unit
    value := 4 * m * unit
    high := (4 * m + 2) * unit
    den := if scale < 1077 then twoTo (1077 - scale) else 1
    closed := m % 2 == 0 }

/-- Whether the number `n / d` rounds to the value. -/
def Interval.contains (i : Interval) (n d : Nat) : Bool :=
  let x := n * i.den
  if i.closed then i.low * d ≤ x && x ≤ i.high * d else i.low * d < x && x < i.high * d

/-- The least `k`, up to a bound, for which `num * 10 ^ k` reaches `den`. -/
def scaleUp (num den : Nat) : (bound : Nat) → Nat
  | 0 => 0
  | bound + 1 => if den ≤ num then 0 else scaleUp (num * 10) den bound + 1

/-- The place of the first digit of a value: 0 for ones, 1 for tens, -1 for tenths. -/
def Interval.firstPlace (i : Interval) : Int :=
  if i.den ≤ i.value then ((Nat.toDigits 10 (i.value / i.den)).length : Int) - 1
  else - (scaleUp i.value i.den 400 : Int)

/-- The fraction `n * 10 ^ place` as numerator and denominator. -/
def atPlace (n : Nat) (place : Int) : Nat × Nat :=
  if 0 ≤ place then (n * tenTo place.toNat, 1) else (n, tenTo (-place).toNat)

/-- The number with its last digit at `place` that rounds to the value and lies nearest to it. -/
def Interval.nearest? (i : Interval) (place : Int) : Option Nat :=
  let (num, den) :=
    if 0 ≤ place then (i.value, i.den * tenTo place.toNat)
    else (i.value * tenTo (-place).toNat, i.den)
  let below := num / den
  let fits (n : Nat) : Bool := let (a, b) := atPlace n place; i.contains a b
  let preferred := roundDiv num den
  if fits preferred then some preferred
  else if fits below then some below
  else if fits (below + 1) then some (below + 1)
  else none

def Interval.search (i : Interval) (place : Int) : (tries : Nat) → Nat × Int
  | 0 => (0, 0)
  | tries + 1 =>
    match i.nearest? place with
    | some n => (n, place)
    | none => i.search (place - 1) tries

/-- The shortest digits of a positive finite value and the place of the last one. -/
def digits (x : Float) : List Char × Int :=
  let i := Interval.ofFloat x
  let (n, place) := i.search i.firstPlace 20
  let ds := Nat.toDigits 10 n
  let zeros := (ds.reverse.takeWhile (· == '0')).length
  (ds.take (ds.length - zeros), place + zeros)

/-- Digits with a point among them, after them or before them. `whole` is the number of digits
before the point. -/
def positional (ds : List Char) (whole : Int) : List Char :=
  if whole ≤ 0 then '0' :: '.' :: List.replicate (-whole).toNat '0' ++ ds
  else
    let n := whole.toNat
    if n < ds.length then ds.take n ++ '.' :: ds.drop n
    else ds ++ List.replicate (n - ds.length) '0' ++ ['.', '0']

/-- Digits with a point after the first and a power of ten behind them. -/
def scientific (ds : List Char) (whole : Int) : List Char :=
  let mantissa := if ds.length ≤ 1 then ds else ds.take 1 ++ '.' :: ds.drop 1
  mantissa ++ 'e' :: (toString (whole - 1)).toList

/-- The text of a floating-point value. Where `powers` is set, a value is written with a power of
ten unless its point falls among the first sixteen digits or at most four zeros after the point
come before them. -/
def text (powers : Bool) (x : Float) : String :=
  let minus := if x.toBits.toNat < twoTo 63 then "" else "-"
  if x.isNaN then "NaN"
  else if x.isInf then minus ++ "inf"
  else if x == 0 then minus ++ "0.0"
  else
    let (ds, place) := digits x
    let whole := ds.length + place
    if powers && !(-5 < whole && whole ≤ 16) then minus ++ String.ofList (scientific ds whole)
    else minus ++ String.ofList (positional ds whole)

end RepoSurvey.Shortest
