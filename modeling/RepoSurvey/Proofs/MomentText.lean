import Mathlib
import RepoSurvey.Proofs.Calendar

/-!
The text of a moment is read as the moment, if its year has four digits and its second is no leap
second.
-/

namespace RepoSurvey.Moment

/-! ### Numbers of a fixed width -/

variable {k n : Nat} {rest : List Char}

theorem digitsValue_eq (ds : List Char) : digitsValue ds = Nat.ofDigitChars 10 ds 0 := by
  have hstep : (fun (n : Nat) (c : Char) => n * 10 + (c.toNat - '0'.toNat)) =
      fun n c => 10 * n + (c.toNat - '0'.toNat) := by
    funext n c
    rw [Nat.mul_comm]
  rw [digitsValue, hstep]
  rfl

theorem toList_padded (k n : Nat) : (padded k n).toList =
    List.replicate (k - (Nat.toDigits 10 n).length) '0' ++ Nat.toDigits 10 n := by
  rw [padded, String.toList_ofList]

theorem length_padded (hk : 0 < k) (hn : n < 10 ^ k) : (padded k n).toList.length = k := by
  have hle := (Nat.length_toDigits_le_iff (by decide) hk).mpr hn
  rw [toList_padded, List.length_append, List.length_replicate]
  omega

theorem isDigit_padded {c : Char} (hc : c ∈ (padded k n).toList) : c.isDigit := by
  rw [toList_padded, List.mem_append] at hc
  rcases hc with hc | hc
  · rw [List.eq_of_mem_replicate hc]
    decide
  · exact Nat.isDigit_of_mem_toDigits (by decide) (by decide) hc

theorem digitsValue_padded (k n : Nat) : digitsValue (padded k n).toList = n := by
  rw [digitsValue_eq, toList_padded, Nat.ofDigitChars_append, Nat.ofDigitChars_replicate_zero,
    Nat.mul_zero, Nat.ofDigitChars_ten_toDigits]

theorem isBlank_of_isDigit {c : Char} (h : c.isDigit) : isBlank c = false := by
  have hbounds : 48 ≤ c.toNat ∧ c.toNat ≤ 57 := by
    simpa [Char.isDigit, UInt32.le_iff_toNat_le] using h
  simp only [isBlank, blankRanges, List.any_cons, List.any_nil, Bool.or_false, Bool.or_eq_false_iff,
    Bool.and_eq_false_iff, decide_eq_false_iff_not]
  omega

theorem exists_padded_cons (hk : 0 < k) (hn : n < 10 ^ k) :
    ∃ c cs, (padded k n).toList = c :: cs ∧ c.isDigit := by
  obtain ⟨c, cs, hcs⟩ := List.exists_cons_of_length_pos
    (l := (padded k n).toList) (by rwa [length_padded hk hn])
  exact ⟨c, cs, hcs, isDigit_padded (hcs ▸ List.mem_cons_self ..)⟩

theorem skipBlanks_padded (hk : 0 < k) (hn : n < 10 ^ k) :
    skipBlanks ((padded k n).toList ++ rest) = (padded k n).toList ++ rest := by
  obtain ⟨c, cs, hcs, hc⟩ := exists_padded_cons hk hn
  rw [hcs, List.cons_append, skipBlanks, List.dropWhile_cons_of_neg]
  simp [isBlank_of_isDigit hc]

/-- A number is read as it was written if the reader stops at its end. -/
theorem readDigits_padded {width : Nat} (hk : 0 < k) (hwidth : k ≤ width) (hn : n < 10 ^ k)
    (hbound : n < twoTo 63) (rest : List Char)
    (hend : k = width ∨ ∀ c ∈ rest.head?, c.isDigit = false) :
    readDigits width ((padded k n).toList ++ rest) = .ok (n, rest) := by
  have hlength := length_padded hk hn
  have htake : (((padded k n).toList ++ rest).take width).takeWhile Char.isDigit =
      (padded k n).toList := by
    rw [List.take_append, hlength, List.take_of_length_le (by omega),
      List.takeWhile_append_of_pos fun c hc => isDigit_padded hc]
    have hrest : (rest.take (width - k)).takeWhile Char.isDigit = [] := by
      rcases hend with rfl | hend
      · rw [Nat.sub_self]
        rfl
      · cases rest with
        | nil => rw [List.take_nil]; rfl
        | cons c rest =>
          cases width - k with
          | zero => rfl
          | succ _ =>
            rw [List.take_succ_cons, List.takeWhile_cons_of_neg]
            simp [hend c rfl]
    rw [hrest, List.append_nil]
  obtain ⟨c, cs, hcs, -⟩ := exists_padded_cons hk hn
  have hdrop : ((padded k n).toList ++ rest).drop k = rest := by
    rw [List.drop_append, hlength, Nat.sub_self, List.drop_of_length_le (by omega)]
    rfl
  rw [readDigits, htake]
  split
  case h_1 heq => rw [hcs] at heq; cases heq
  case h_2 =>
    rw [digitsValue_padded, if_pos hbound, hlength, hdrop]

/-- Each reader goes on where the one before it ended. -/
theorem ok_bind {ε α β : Type} (a : α) (f : α → Except ε β) :
    ((Except.ok a : Except ε α) >>= f) = f a := rfl

theorem readTwo_padded {low high : Nat} (hlow : low ≤ n) (hhigh : n ≤ high) (hn : n < 100) :
    readTwo low high ((padded 2 n).toList ++ rest) = .ok (n, rest) := by
  have hbound : n < twoTo 63 := Nat.lt_trans hn (by decide)
  have hread := readDigits_padded (by decide) (Nat.le_refl 2) hn hbound rest (.inl rfl)
  rw [readTwo, skipBlanks_padded (by decide) hn, hread]
  exact if_pos ⟨hlow, hhigh⟩

theorem readYear_yearText {year : Int} (h0 : 0 ≤ year) (h : year ≤ 9999) :
    readYear ((yearText year).toList ++ rest) = .ok (year, rest) := by
  obtain ⟨n, rfl⟩ := Int.eq_ofNat_of_zero_le h0
  have hn : n < 10 ^ 4 := by omega
  have hbound : n < twoTo 63 := Nat.lt_trans hn (by decide)
  have hread := readDigits_padded (by decide) (Nat.le_refl 4) hn hbound rest (.inl rfl)
  obtain ⟨c, cs, hcs, hc⟩ := exists_padded_cons (by decide) hn
  rw [yearText, if_pos ⟨h0, h⟩, Int.toNat_natCast, readYear, skipBlanks_padded (by decide) hn]
  split
  case h_1 heq =>
    rw [hcs] at heq
    obtain ⟨rfl, -⟩ := List.cons.inj heq
    exact absurd hc (by decide)
  case h_2 heq =>
    rw [hcs] at heq
    obtain ⟨rfl, -⟩ := List.cons.inj heq
    exact absurd hc (by decide)
  case h_3 =>
    have hbounds : -2147483648 ≤ (n : Int) ∧ (n : Int) < 2147483648 := by omega
    rw [hread, ok_bind]
    dsimp only
    rw [pure_bind]
    dsimp only
    rw [if_pos hbounds]

/-! ### Fractions of a second -/

theorem readFraction_padded (hk : 0 < k) (hwidth : k ≤ 9) (hn : n < 10 ^ k) :
    readFraction ('.' :: ((padded k n).toList ++ ['Z'])) = .ok (n * 10 ^ (9 - k), ['Z']) := by
  have hbound : n < twoTo 63 := by
    have hlt : n < 10 ^ 9 := Nat.lt_of_lt_of_le hn (Nat.pow_le_pow_right (by decide) hwidth)
    exact Nat.lt_trans hlt (by decide)
  have hread := readDigits_padded hk hwidth hn hbound ['Z']
    (.inr fun c hc => by obtain rfl : 'Z' = c := Option.some.inj hc; decide)
  rw [readFraction, hread]
  dsimp only [bind, Except.bind]
  rw [List.length_append, length_padded hk hn, Nat.add_sub_cancel]
  rfl

theorem readFraction_fractionText (hn : n < 1000000000) :
    readFraction ((fractionText n).toList ++ ['Z']) = .ok (n, ['Z']) := by
  have hpoint (s : String) : ("." ++ s).toList ++ ['Z'] = '.' :: (s.toList ++ ['Z']) := by
    rw [String.toList_append]
    rfl
  unfold fractionText
  split
  · rename_i hzero
    subst hzero
    rfl
  · split
    · rw [hpoint, readFraction_padded (by decide) (by decide) (by omega)]
      congr 2
      omega
    · split
      · rw [hpoint, readFraction_padded (by decide) (by decide) (by omega)]
        congr 2
        omega
      · rw [hpoint, readFraction_padded (by decide) (by decide) (by omega)]
        congr 2
        omega

/-! ### Moments -/

/-- A moment of a year of four digits, in a second that is no leap second. -/
structure Plain (m : Moment) : Prop where
  year : 0 ≤ (dateOf m.day).1 ∧ (dateOf m.day).1 ≤ 9999
  second : m.second < 86400
  nanosecond : m.nanosecond < 1000000000

theorem toList_text {m : Moment} (h : m.Plain) :
    m.text.toList = (yearText (dateOf m.day).1).toList ++
      '-' :: ((padded 2 (dateOf m.day).2.1).toList ++
      '-' :: ((padded 2 (dateOf m.day).2.2).toList ++
      'T' :: ((padded 2 (m.second / 3600)).toList ++
      ':' :: ((padded 2 (m.second / 60 % 60)).toList ++
      ':' :: ((padded 2 (m.second % 60)).toList ++
      ((fractionText m.nanosecond).toList ++ ['Z'])))))) := by
  have hleap : m.nanosecond / 1000000000 = 0 := Nat.div_eq_of_lt h.nanosecond
  have hfraction : m.nanosecond % 1000000000 = m.nanosecond := Nat.mod_eq_of_lt h.nanosecond
  simp only [text, hleap, hfraction, Nat.add_zero]
  simp [toString]

theorem readSign_cons {c : Char} (hc : isBlank c = false) (cs : List Char) :
    readSign c (c :: cs) = .ok cs := by
  simp [readSign, skipBlanks, hc]

theorem monthLength_le (year : Int) (month : Nat) : monthLength year month ≤ 31 := by
  unfold monthLength
  split
  · split <;> decide
  · split <;> decide

/-- A plain moment is read from its text. -/
theorem Plain.read_text {m : Moment} (h : m.Plain) : read m.text = .ok m := by
  obtain ⟨⟨hmonth, hmonth'⟩, hday, hlength⟩ := dateOf_valid m.day
  obtain ⟨hyear, hyear'⟩ := h.year
  have hsecond := h.second
  have hday' := Nat.le_trans hlength (monthLength_le ..)
  have hhour : m.second / 3600 ≤ 23 := by omega
  have hminute : m.second / 60 % 60 ≤ 59 := by omega
  have hsixty : m.second % 60 ≤ 60 := by omega
  rw [read, toList_text h, readYear_yearText hyear hyear', ok_bind]
  dsimp only
  rw [readSign_cons (by decide), ok_bind, readTwo_padded hmonth hmonth' (by omega), ok_bind]
  dsimp only
  rw [readSign_cons (by decide), ok_bind, readTwo_padded hday hday' (by omega), ok_bind]
  dsimp only
  rw [readDivider, if_pos (.inr (.inl rfl)), ok_bind,
    readTwo_padded (Nat.zero_le _) hhour (by omega), ok_bind]
  dsimp only
  rw [readSign_cons (by decide), ok_bind, readTwo_padded (Nat.zero_le _) hminute (by omega), ok_bind]
  dsimp only
  rw [readSign_cons (by decide), ok_bind, readTwo_padded (Nat.zero_le _) hsixty (by omega), ok_bind]
  dsimp only
  have hzone : readZone (skipBlanks ['Z']) = .ok (0, []) := rfl
  rw [readFraction_fractionText h.nanosecond, ok_bind]
  dsimp only
  rw [hzone, ok_bind]
  dsimp only
  have hempty : ¬ ¬ (skipBlanks []).isEmpty = true := not_not_intro rfl
  have hdate : ¬ ((dateOf m.day).1 < -262143 ∨ 262142 < (dateOf m.day).1 ∨
      monthLength (dateOf m.day).1 (dateOf m.day).2.1 < (dateOf m.day).2.2) := by omega
  have hoffset : ¬ 86400 ≤ (0 : Int).natAbs := by decide
  have hleap : ¬ m.second % 60 = 60 := by omega
  -- Nothing is left over, so the moment lies on the day of its date.
  have hseconds : ((m.second / 3600 : Nat) : Int) * 3600 + (m.second / 60 % 60 : Nat) * 60 +
      (m.second % 60 - 0 : Nat) - 0 = m.second := by omega
  rw [if_neg hempty, if_neg hdate, if_neg hoffset, if_neg hleap, dayNumber_dateOf, hseconds,
    Int.fdiv_eq_ediv_of_nonneg _ (by decide), Int.fmod_eq_emod_of_nonneg _ (by decide)]
  have hwhole : (m.second : Int) / 86400 = 0 ∧ ((m.second : Int) % 86400).toNat = m.second := by omega
  rw [hwhole.1, hwhole.2, Int.add_zero, Nat.zero_mul, Nat.add_zero]

end RepoSurvey.Moment
