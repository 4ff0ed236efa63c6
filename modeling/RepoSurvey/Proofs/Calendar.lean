import RepoSurvey.Moment

/-!
The calendar: every day has a date of a month of the year and a day of the month, and the number of
the day is found again from its date. Years and months are counted from March, so that the day that
only leap years have comes last.
-/

namespace RepoSurvey.Moment

/-! ### Years -/

/-- The year of a day of an era of four hundred years. -/
def yearOfEra (day : Int) : Int := (day - day / 1460 + day / 36524 - day / 146096) / 365

/-- The day of an era with which a year begins. -/
def firstDay (year : Int) : Int := 365 * year + year / 4 - year / 100

/-- A day lies in a century `c`, there in a cycle `q` of four years, and there in a year `t`. -/
theorem yearOfEra_eq {c q s t : Int} (hc : 0 ≤ c ∧ c ≤ 3) (hq : 0 ≤ q ∧ q ≤ 24)
    (hlast : 1461 * q + s < 36524) (ht : 0 ≤ t ∧ t ≤ 3)
    (hst : 365 * t ≤ s ∧ (s < 365 * t + 365 ∨ t = 3 ∧ s = 1460)) :
    yearOfEra (36524 * c + 1461 * q + s) = 100 * c + 4 * q + t := by
  have hcycle : (36524 * c + 1461 * q + s) / 1460 = 25 * c + q + (24 * c + q + s) / 1460 := by
    omega
  have hcentury : (36524 * c + 1461 * q + s) / 36524 = c := by omega
  have hera : (36524 * c + 1461 * q + s) / 146096 = 0 := by omega
  rw [yearOfEra, hcycle, hcentury, hera]
  omega

/-- No year has more than a day beyond three hundred and sixty-five, and only a leap year has it. -/
theorem yearOfEra_spec {day : Int} (h0 : 0 ≤ day) (h : day < 146097) :
    (0 ≤ yearOfEra day ∧ yearOfEra day < 400) ∧
      (firstDay (yearOfEra day) ≤ day ∧ day ≤ firstDay (yearOfEra day) + 365) ∧
      (day = firstDay (yearOfEra day) + 365 → isLeapYear (yearOfEra day + 1)) := by
  by_cases hlast : day = 146096
  · subst hlast
    decide
  · obtain ⟨c, q, s, hc, hq, hs, hlt, rfl⟩ : ∃ c q s : Int, (0 ≤ c ∧ c ≤ 3) ∧ (0 ≤ q ∧ q ≤ 24) ∧
        (0 ≤ s ∧ s ≤ 1460) ∧ 1461 * q + s < 36524 ∧ day = 36524 * c + 1461 * q + s := by
      refine ⟨day / 36524, day % 36524 / 1461, day % 36524 % 1461, ?_, ?_, ?_, ?_, ?_⟩
      all_goals omega
    obtain ⟨t, ht, hst⟩ : ∃ t : Int, (0 ≤ t ∧ t ≤ 3) ∧
        365 * t ≤ s ∧ (s < 365 * t + 365 ∨ t = 3 ∧ s = 1460) := by
      by_cases hs : s = 1460
      · exact ⟨3, by omega, by omega⟩
      · exact ⟨s / 365, by omega, by omega⟩
    rw [yearOfEra_eq hc hq hlt ht hst, firstDay]
    have hfour : (100 * c + 4 * q + t) / 4 = 25 * c + q := by omega
    have hhundred : (100 * c + 4 * q + t) / 100 = c := by omega
    rw [hfour, hhundred]
    refine ⟨by omega, by omega, fun hleap => ?_⟩
    have h4 : (100 * c + 4 * q + t + 1) % 4 = 0 := by omega
    have h100 : (100 * c + 4 * q + t + 1) % 100 ≠ 0 := by omega
    simp [isLeapYear, h4, h100]

/-! ### Months -/

/-- The month of a day of a year, months counted from March. -/
def shiftedMonth (day : Int) : Int := (5 * day + 2) / 153

/-- The day of a year with which a month begins. -/
def monthStart (month : Int) : Int := (153 * month + 2) / 5

theorem shiftedMonth_spec {day : Int} (h0 : 0 ≤ day) (h : day ≤ 365) :
    (0 ≤ shiftedMonth day ∧ shiftedMonth day ≤ 11) ∧ monthStart (shiftedMonth day) ≤ day ∧
      day < monthStart (shiftedMonth day + 1) := by
  unfold shiftedMonth monthStart
  omega

/-! ### Days and dates -/

/-- The date of the `k`-th day of a month `m` of a year of an era, both counted from March. -/
def dateFromMarch (era y m k : Int) : Int × Nat × Nat :=
  let month := if m < 10 then m + 3 else m - 9
  (y + era * 400 + if month ≤ 2 then 1 else 0, month.toNat, k.toNat)

variable {era y m k : Int}

theorem dateFromMarch_of_lt (h0 : 0 ≤ m) (h : m < 10) :
    dateFromMarch era y m k = (y + era * 400, (m + 3).toNat, k.toNat) := by
  have hmonth : ¬ m + 3 ≤ 2 := by omega
  simp only [dateFromMarch, if_pos h, if_neg hmonth, Int.add_zero]

theorem dateFromMarch_of_le (h : 10 ≤ m) (hlast : m ≤ 11) :
    dateFromMarch era y m k = (y + era * 400 + 1, (m - 9).toNat, k.toNat) := by
  have hlate : ¬ m < 10 := by omega
  have hmonth : m - 9 ≤ 2 := by omega
  simp only [dateFromMarch, if_neg hlate, if_pos hmonth]

theorem dateOf_eq {day : Int} (h0 : 0 ≤ day) (h : day < 146097) :
    dateOf (era * 146097 + day - 719468) =
      dateFromMarch era (yearOfEra day) (shiftedMonth (day - firstDay (yearOfEra day)))
        (day - firstDay (yearOfEra day) -
          monthStart (shiftedMonth (day - firstDay (yearOfEra day))) + 1) := by
  have hera : (era * 146097 + day - 719468 + 719468).fdiv 146097 = era := by
    rw [Int.fdiv_eq_ediv_of_nonneg _ (by decide)]
    omega
  have hday : (era * 146097 + day - 719468 + 719468).fmod 146097 = day := by
    rw [Int.fmod_eq_emod_of_nonneg _ (by decide)]
    omega
  simp only [dateOf, hera, hday]
  rfl

theorem dayNumber_dateFromMarch (hy : 0 ≤ y ∧ y < 400) (hm : 0 ≤ m ∧ m ≤ 11) (hk : 0 ≤ k) :
    let date := dateFromMarch era y m k
    dayNumber date.1 date.2.1 date.2.2 =
      era * 146097 + (firstDay y + monthStart m + k - 1) - 719468 := by
  have hyear : (y + era * 400).fdiv 400 = era ∧ (y + era * 400).fmod 400 = y := by
    rw [Int.fdiv_eq_ediv_of_nonneg _ (by decide), Int.fmod_eq_emod_of_nonneg _ (by decide)]
    omega
  by_cases hlate : m < 10
  · have hmonth : ¬ (m + 3).toNat ≤ 2 := by omega
    rw [dateFromMarch_of_lt hm.1 hlate]
    simp only [dayNumber, if_neg hmonth, hyear]
    unfold firstDay monthStart
    omega
  · have hmonth : (m - 9).toNat ≤ 2 := by omega
    rw [dateFromMarch_of_le (by omega) hm.2]
    simp only [dayNumber, if_pos hmonth, Int.add_sub_cancel, hyear]
    unfold firstDay monthStart
    omega

theorem isLeapYear_add_era (h : isLeapYear y) (era : Int) : isLeapYear (y + era * 400) := by
  simp only [isLeapYear, Bool.and_eq_true, Bool.or_eq_true, beq_iff_eq, bne_iff_ne] at h ⊢
  omega

theorem le_monthLength (hm : 0 ≤ m ∧ m ≤ 11) (hlast : monthStart m + k - 1 < monthStart (m + 1))
    (hyear : monthStart m + k - 1 ≤ 365)
    (hleap : monthStart m + k - 1 = 365 → isLeapYear (y + 1)) :
    let date := dateFromMarch era y m k
    date.2.2 ≤ monthLength date.1 date.2.1 := by
  unfold monthStart at hlast hyear hleap
  by_cases hearly : m < 10
  · rw [dateFromMarch_of_lt hm.1 hearly]
    dsimp only [monthLength]
    split
    · omega
    · split <;> omega
  · rw [dateFromMarch_of_le (by omega) hm.2]
    dsimp only [monthLength]
    split
    · split
      · omega
      · -- A twenty-ninth day would be the last one of a leap year.
        rename_i hcommon
        have hday : monthStart m + k - 1 ≠ 365 := by
          intro hlast
          have hyear := isLeapYear_add_era (hleap hlast) era
          rw [Int.add_right_comm] at hyear
          exact hcommon hyear
        unfold monthStart at hday
        omega
    · split <;> omega

theorem exists_dateFromMarch (n : Int) :
    ∃ era y m k, dateOf n = dateFromMarch era y m k ∧ (0 ≤ y ∧ y < 400) ∧ (0 ≤ m ∧ m ≤ 11) ∧
      1 ≤ k ∧ n = era * 146097 + (firstDay y + monthStart m + k - 1) - 719468 ∧
      monthStart m + k - 1 < monthStart (m + 1) ∧ monthStart m + k - 1 ≤ 365 ∧
      (monthStart m + k - 1 = 365 → isLeapYear (y + 1)) := by
  obtain ⟨era, day, hn, h0, hlt⟩ :
      ∃ era day : Int, n = era * 146097 + day - 719468 ∧ 0 ≤ day ∧ day < 146097 :=
    ⟨(n + 719468) / 146097, (n + 719468) % 146097, by omega, by omega, by omega⟩
  subst hn
  obtain ⟨hy, hfirst, hleap⟩ := yearOfEra_spec h0 hlt
  rw [dateOf_eq h0 hlt]
  generalize yearOfEra day = y at *
  obtain ⟨d, rfl⟩ : ∃ d, day = firstDay y + d := ⟨day - firstDay y, by omega⟩
  have hd0 : 0 ≤ d := by omega
  obtain ⟨hm, hstart, hend⟩ := shiftedMonth_spec hd0 (by omega)
  have hd : firstDay y + d - firstDay y = d := by omega
  rw [hd]
  generalize shiftedMonth d = m at *
  exact ⟨era, y, m, d - monthStart m + 1, rfl, hy, hm, by omega, by omega, by omega, by omega,
    fun h => hleap (by omega)⟩

/-- The number of a day is found again from its date. -/
theorem dayNumber_dateOf (n : Int) : dayNumber (dateOf n).1 (dateOf n).2.1 (dateOf n).2.2 = n := by
  obtain ⟨era, y, m, k, hdate, hy, hm, hk, hn, -⟩ := exists_dateFromMarch n
  rw [hdate, dayNumber_dateFromMarch hy hm (by omega), ← hn]

/-- A date has a month of the year and a day of this month. -/
theorem dateOf_valid (n : Int) :
    (1 ≤ (dateOf n).2.1 ∧ (dateOf n).2.1 ≤ 12) ∧ 1 ≤ (dateOf n).2.2 ∧
      (dateOf n).2.2 ≤ monthLength (dateOf n).1 (dateOf n).2.1 := by
  obtain ⟨era, y, m, k, hdate, -, hm, hk, -, hlast, hyear, hleap⟩ := exists_dateFromMarch n
  rw [hdate]
  refine ⟨?_, ?_, le_monthLength hm hlast hyear hleap⟩
  · by_cases hearly : m < 10
    · rw [dateFromMarch_of_lt hm.1 hearly]
      dsimp only
      omega
    · rw [dateFromMarch_of_le (by omega) hm.2]
      dsimp only
      omega
  · unfold dateFromMarch
    dsimp only
    omega

end RepoSurvey.Moment
