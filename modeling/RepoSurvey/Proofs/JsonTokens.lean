import RepoSurvey.Json.Token

/-!
Tokens are read as they were written: a quoted text gives back its characters, and the digits of a
number that fits a word give back the number.
-/

namespace RepoSurvey.Json

/-! ### Blanks -/

/-- Some characters that are blanks. -/
def Gap (cs : List Char) : Prop := ∀ c ∈ cs, isGap c

variable {c : Char} {cs gap rest : List Char}

theorem skipGap_append (h : Gap gap) (cs : List Char) : skipGap (gap ++ cs) = skipGap cs :=
  List.dropWhile_append_of_pos h

theorem skipGap_cons (h : isGap c = false) (cs : List Char) : skipGap (c :: cs) = c :: cs :=
  List.dropWhile_cons_of_neg (by simp [h])

/-! ### Quoted texts -/

theorem hexValue?_of_lt {n : Nat} (h : n < 0x20) :
    hexValue? '0' '0' (n / 16).digitChar (n % 16).digitChar = some n := by
  decide +revert

/-- A character is read as it was written. -/
theorem readQuoted_escape (c : Char) (cs : List Char) :
    readQuoted (escape c ++ cs) = (readQuoted cs).map (consText c) := by
  unfold escape
  split
  case h_8 hquote hslash _ _ _ _ _ =>
    split
    case isTrue hcontrol =>
      rw [List.cons_append, List.cons_append, List.cons_append, List.cons_append, List.cons_append,
        List.cons_append, List.nil_append, readQuoted, hexValue?_of_lt hcontrol]
      have hplain : ¬ (0xDC00 ≤ c.toNat ∧ c.toNat < 0xE000) := by omega
      have hplane : c.toNat < 0xD800 ∨ 0xE000 ≤ c.toNat := by omega
      simp only [if_neg hplain, if_pos hplane, Char.ofNat_toNat]
    case isFalse hcontrol =>
      rw [List.cons_append, List.nil_append, readQuoted]
      · rw [if_neg hcontrol]
      · exact hquote
      · exact hslash
  all_goals rfl

theorem readQuoted_flatMap_escape (cs rest : List Char) :
    readQuoted (cs.flatMap escape ++ '"' :: rest) = .ok (cs, rest) := by
  induction cs with
  | nil => rfl
  | cons c cs ih =>
    rw [List.flatMap_cons, List.append_assoc, readQuoted_escape, ih]
    rfl

/-! ### Numbers -/

/-- A text that does not go on with a number before it. -/
def EndsNumber (rest : List Char) : Prop :=
  ∀ c ∈ rest.head?, c.isDigit = false ∧ c ≠ '.' ∧ c ≠ 'e' ∧ c ≠ 'E'

theorem le_ofDigitChars (n : Nat) (cs : List Char) : n ≤ Nat.ofDigitChars 10 cs n := by
  induction cs generalizing n with
  | nil => exact Nat.le_of_eq Nat.ofDigitChars_nil.symm
  | cons c cs ih =>
    rw [Nat.ofDigitChars_cons]
    have hmore := ih (10 * n + (c.toNat - '0'.toNat))
    omega

/-- Digits of a number that fits a word are all taken. -/
theorem absorb_eq (n : Nat) (cs : List Char) (h : Nat.ofDigitChars 10 cs n < wordBound) :
    absorb n cs = (Nat.ofDigitChars 10 cs n, []) := by
  induction cs generalizing n with
  | nil => rw [absorb, Nat.ofDigitChars_nil]
  | cons c cs ih =>
    rw [Nat.ofDigitChars_cons, Nat.mul_comm] at h ⊢
    have hle := le_ofDigitChars (n * 10 + (c.toNat - '0'.toNat)) cs
    rw [absorb, if_pos (Nat.lt_of_le_of_lt hle h), ih _ h]

theorem digitsOf_append {ds : List Char} (hds : ∀ c ∈ ds, c.isDigit) (h : EndsNumber rest) :
    digitsOf (ds ++ rest) = (ds, rest) := by
  have hrest : rest.takeWhile Char.isDigit = [] ∧ rest.dropWhile Char.isDigit = rest := by
    cases rest with
    | nil => exact ⟨rfl, rfl⟩
    | cons c rest =>
      have hc := (h c rfl).1
      simp [hc]
  rw [digitsOf, List.takeWhile_append_of_pos hds, List.dropWhile_append_of_pos hds, hrest.1,
    hrest.2, List.append_nil]

/-- The digits of a number begin with a zero only if they are this one digit. -/
theorem eq_zero_of_toDigits {n : Nat} {ds : List Char} (h : Nat.toDigits 10 n = '0' :: ds) :
    n = 0 := by
  induction n using Nat.strongRecOn generalizing ds with
  | _ n ih =>
    by_cases hone : n < 10
    · rw [Nat.toDigits_of_lt_base hone] at h
      exact Nat.digitChar_eq_zero.mp (List.cons.inj h).1
    · rw [Nat.toDigits_of_base_le (by decide) (Nat.le_of_not_lt hone)] at h
      cases htens : Nat.toDigits 10 (n / 10) with
      | nil => exact absurd htens Nat.toDigits_ne_nil
      | cons d ds' =>
        rw [htens, List.cons_append] at h
        have hhead := (List.cons.inj h).1
        have hzero := ih (n / 10) (by omega) (hhead ▸ htens)
        omega

theorem readNumber_toDigits {n : Nat} (hn : n < wordBound) (h : EndsNumber rest) :
    readNumber false (Nat.toDigits 10 n ++ rest) = .ok (.integer n, rest) := by
  have hdigits : ∀ c ∈ Nat.toDigits 10 n, c.isDigit := fun c hc =>
    Nat.isDigit_of_mem_toDigits (by decide) (by decide) hc
  have habsorb : absorb 0 (Nat.toDigits 10 n) = (n, []) := by
    rw [absorb_eq, Nat.ofDigitChars_ten_toDigits]
    rwa [Nat.ofDigitChars_ten_toDigits]
  rw [readNumber, digitsOf_append hdigits h]
  split
  case h_1 heq => exact absurd (Prod.mk.inj heq).1 Nat.toDigits_ne_nil
  case h_2 heq => exact absurd (Prod.mk.inj heq).1 Nat.toDigits_ne_nil
  case h_3 heq =>
    have hzero := eq_zero_of_toDigits (Prod.mk.inj heq).1
    subst hzero
    simp at heq
  case h_4 ds' rest' _ _ _ heq =>
    obtain ⟨rfl, rfl⟩ := Prod.mk.inj heq
    rw [habsorb]
    dsimp only
    split
    case h_1 => exact absurd rfl (h _ rfl).2.1
    case h_2 => exact absurd rfl (h _ rfl).2.2.1
    case h_3 => exact absurd rfl (h _ rfl).2.2.2
    case h_4 => rfl

end RepoSurvey.Json
