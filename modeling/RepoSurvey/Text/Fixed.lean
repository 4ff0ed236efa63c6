import RepoSurvey.Text.Power

/-!
Decimal text with a fixed number of places: a quotient rounded to the nearest whole number, a tie
going to the even one, and the digits of a binary floating-point value rounded in this way.
-/

namespace RepoSurvey

/-- The whole number nearest to `num / den`; of two equally near, the even one. -/
def roundDiv (num den : Nat) : Nat :=
  let q := num / den
  let twice := 2 * (num % den)
  if twice < den ∨ (twice = den ∧ q % 2 = 0) then q else q + 1

/-- A count of hundredths, written with a point before its last two digits. -/
def hundredthsText (n : Nat) : String :=
  let cents := n % 100
  s!"{n / 100}.{cents / 10}{cents % 10}"

/-- A finite value that is not negative, as a fraction of whole numbers. -/
def fractionOf (x : Float) : Nat × Nat :=
  let bits := x.toBits.toNat
  let exponent := bits / twoTo 52 % twoTo 11
  let fraction := bits % twoTo 52
  let significand := if exponent = 0 then fraction else fraction + twoTo 52
  let scale := if exponent = 0 then 1 else exponent
  if scale < 1075 then (significand, twoTo (1075 - scale)) else (significand * twoTo (scale - 1075), 1)

/-- A finite value that is not negative, rounded to two decimal places. -/
def twoPlaces (x : Float) : String :=
  let (num, den) := fractionOf x
  hundredthsText (roundDiv (num * 100) den)

end RepoSurvey
