/-!
Tables of characters: sets of numbers, kept as closed ranges in order.
-/

namespace RepoSurvey.Text

/-- Whether a number lies in one of the given ranges, which are in order. -/
def inRanges (ranges : Array (Nat × Nat)) (n : Nat) : Bool :=
  go 0 ranges.size (Nat.le_refl _)
where
  /-- Looks among the ranges from `lo` up to `hi` by halving. -/
  go (lo hi : Nat) (fits : hi ≤ ranges.size) : Bool :=
    if _open : lo < hi then
      let mid := lo + (hi - lo) / 2
      have : mid < ranges.size := by omega
      if n < ranges[mid].1 then go lo mid (by omega)
      else if ranges[mid].2 < n then go (mid + 1) hi fits
      else true
    else false
  termination_by hi - lo

end RepoSurvey.Text
