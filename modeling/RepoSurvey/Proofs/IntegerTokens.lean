import Mathlib
import RepoSurvey.Proofs.LongestText

/-!
The integers of the grammar: digits to a base that a letter after a zero tells, or decimal digits, with
single underscores among them and perhaps a letter behind them. What is read as an integer at a place is the
longest of them that stands there.
-/

namespace RepoSurvey.Python

open Computability

/-! ### Groups in a Kleene algebra -/

section KleeneAlgebra

variable {K : Type*} [KleeneAlgebra K] {a b d u : K}

/-- A repetition may start between its two parts. -/
theorem mul_kstar_slide (a b : K) : a * (b * a)∗ = (a * b)∗ * a := by
  apply le_antisymm
  · apply mul_kstar_le
    · exact le_mul_of_one_le_left' one_le_kstar
    · calc (a * b)∗ * a * (b * a) = (a * b)∗ * (a * b) * a := by simp only [mul_assoc]
        _ ≤ (a * b)∗ * a := mul_le_mul_left kstar_mul_le_kstar a
  · apply kstar_mul_le
    · exact le_mul_of_one_le_right' one_le_kstar
    · calc a * b * (a * (b * a)∗) = a * (b * a * (b * a)∗) := by simp only [mul_assoc]
        _ ≤ a * (b * a)∗ := mul_le_mul_right mul_kstar_le_kstar a

theorem mul_kstar_comm (a : K) : a * a∗ = a∗ * a := by
  simpa only [one_mul, mul_one] using mul_kstar_slide a 1

/-- Two repetitions are the same if the parts of each are made of those of the other. -/
theorem mul_kstar_eq_of_le (hba : b ≤ a) (hab : a ≤ b * b∗) : a * a∗ = b * b∗ := by
  apply le_antisymm
  · apply mul_kstar_le hab
    calc b * b∗ * a ≤ b * b∗ * (b * b∗) := mul_le_mul_right hab _
      _ ≤ b∗ * (b * b∗) := mul_le_mul_left mul_kstar_le_kstar _
      _ = b * (b∗ * b∗) := by rw [← mul_assoc, ← mul_kstar_comm, mul_assoc]
      _ = b * b∗ := by rw [kstar_mul_kstar]
  · exact mul_le_mul' hba (kstar_mono hba)

/-- Groups of digits with marks before them are digits with marks before them. -/
theorem groups_before_eq (hu : 1 ≤ u) : u * (d * d∗) * (u * (d * d∗))∗ = u * d * (u * d)∗ := by
  have hd : d ≤ u * d := le_mul_of_one_le_left' hu
  apply mul_kstar_eq_of_le
  · exact mul_le_mul_right (le_mul_of_one_le_right' one_le_kstar) u
  · calc u * (d * d∗) = u * d * d∗ := (mul_assoc u d d∗).symm
      _ ≤ u * d * (u * d)∗ := mul_le_mul_right (kstar_mono hd) _

/-- Groups of digits with marks behind them are digits with marks behind them. -/
theorem groups_behind_eq (hu : 1 ≤ u) : d * d∗ * u * (d * d∗ * u)∗ = d * u * (d * u)∗ := by
  have hd : d ≤ d * u := le_mul_of_one_le_right' hu
  apply mul_kstar_eq_of_le
  · exact mul_le_mul_left (le_mul_of_one_le_right' one_le_kstar) u
  · calc d * d∗ * u = d∗ * (d * u) := by rw [mul_kstar_comm, mul_assoc]
      _ ≤ (d * u)∗ * (d * u) := mul_le_mul_left (kstar_mono hd) _
      _ = d * u * (d * u)∗ := (mul_kstar_comm _).symm

end KleeneAlgebra

/-! ### The integers of the grammar -/

def underscore : RegularExpression Char := .char '_'

def decimalDigits : List Char := ['0', '1', '2', '3', '4', '5', '6', '7', '8', '9']

/-- A base that a letter after a zero tells. -/
inductive Base where
  | hexadecimal
  | octal
  | binary

namespace Base

def letters : Base → List Char
  | hexadecimal => ['x', 'X']
  | octal => ['o', 'O']
  | binary => ['b', 'B']

def digits : Base → List Char
  | hexadecimal => decimalDigits ++ ['a', 'b', 'c', 'd', 'e', 'f', 'A', 'B', 'C', 'D', 'E', 'F']
  | octal => ['0', '1', '2', '3', '4', '5', '6', '7']
  | binary => ['0', '1']

/-- The zero and the letter that tell a base. -/
def start (b : Base) : RegularExpression Char := .char '0' * oneOf b.letters

/-- Groups of digits, each perhaps with an underscore before it. -/
def groups (b : Base) : RegularExpression Char :=
  repeated (maybe underscore * repeated (oneOf b.digits))

/-- An integer to a base, perhaps long. -/
def token (b : Base) : RegularExpression Char := b.start * b.groups * maybe (oneOf ['l', 'L'])

end Base

/-- Groups of decimal digits, each perhaps with an underscore behind it. -/
def decimalGroups : RegularExpression Char :=
  repeated (repeated (oneOf decimalDigits) * maybe underscore)

/-- A decimal integer, perhaps long or imaginary. -/
def decimalToken : RegularExpression Char :=
  decimalGroups * (maybe (oneOf ['l', 'L']) + maybe (oneOf ['j', 'J']))

def integerToken : RegularExpression Char :=
  Base.hexadecimal.token + Base.octal.token + Base.binary.token + decimalToken

variable {cs v w rest : List Char} {c : Char} {s : Source} {here : Place} {b : Base}

theorem mem_integerToken : w ∈ integerToken.matches' ↔
    (∃ b : Base, w ∈ b.token.matches') ∨ w ∈ decimalToken.matches' := by
  simp only [integerToken, RegularExpression.matches'_add, Language.mem_add]
  constructor
  · rintro (((h | h) | h) | h)
    exacts [.inl ⟨_, h⟩, .inl ⟨_, h⟩, .inl ⟨_, h⟩, .inr h]
  · rintro (⟨b, h⟩ | h)
    · cases b with
      | hexadecimal => exact .inl (.inl (.inl h))
      | octal => exact .inl (.inl (.inr h))
      | binary => exact .inl (.inr h)
    · exact .inr h

theorem Base.mem_start : w ∈ b.start.matches' ↔ ∃ c ∈ b.letters, w = ['0', c] := by
  rw [start, mem_mul]
  constructor
  · rintro ⟨_, rfl, v, hv, rfl⟩
    obtain ⟨c, hc, rfl⟩ := mem_oneOf.mp hv
    exact ⟨c, hc, rfl⟩
  · rintro ⟨c, hc, rfl⟩
    exact ⟨['0'], rfl, [c], singleton_mem_oneOf hc, rfl⟩

/-- Grouped or not, decimal digits are digits with underscores behind them. -/
theorem matches'_decimalGroups :
    decimalGroups.matches' = (repeated (oneOf decimalDigits * maybe underscore)).matches' :=
  groups_behind_eq (one_le_maybe underscore)

/-- Decimal groups are a digit, perhaps an underscore, and perhaps more groups. -/
theorem mem_decimalGroups : w ∈ decimalGroups.matches' ↔
    ∃ c ∈ decimalDigits, ∃ gap, (gap = [] ∨ gap = ['_']) ∧
      ∃ rest, (rest = [] ∨ rest ∈ decimalGroups.matches') ∧ w = c :: (gap ++ rest) := by
  conv_lhs => rw [matches'_decimalGroups, matches'_repeated, mem_mul]
  simp only [mem_maybe, ← matches'_decimalGroups, mem_mul, mem_oneOf]
  constructor
  · rintro ⟨_, ⟨_, ⟨c, hc, rfl⟩, gap, hgap, rfl⟩, rest, hrest, rfl⟩
    exact ⟨c, hc, gap, hgap, rest, hrest, rfl⟩
  · rintro ⟨c, hc, gap, hgap, rest, hrest, rfl⟩
    exact ⟨_, ⟨[c], ⟨c, hc, rfl⟩, gap, hgap, rfl⟩, rest, hrest, rfl⟩

namespace Base

/-- Grouped or not, digits to a base are digits with underscores before them. -/
theorem matches'_groups (b : Base) :
    b.groups.matches' = (repeated (maybe underscore * oneOf b.digits)).matches' :=
  groups_before_eq (one_le_maybe underscore)

/-- Groups to a base are perhaps an underscore, a digit, and perhaps more groups. -/
theorem mem_groups : w ∈ b.groups.matches' ↔ ∃ gap, (gap = [] ∨ gap = ['_']) ∧
    ∃ c ∈ b.digits, ∃ rest, (rest = [] ∨ rest ∈ b.groups.matches') ∧ w = gap ++ c :: rest := by
  conv_lhs => rw [matches'_groups, matches'_repeated, mem_mul]
  simp only [mem_maybe, ← matches'_groups, mem_mul, mem_oneOf]
  constructor
  · rintro ⟨_, ⟨gap, hgap, _, ⟨c, hc, rfl⟩, rfl⟩, rest, hrest, rfl⟩
    exact ⟨gap, hgap, c, hc, rest, hrest, List.append_assoc gap [c] rest⟩
  · rintro ⟨gap, hgap, c, hc, rest, hrest, rfl⟩
    exact ⟨_, ⟨gap, hgap, [c], ⟨c, hc, rfl⟩, rfl⟩, rest, hrest, List.append_assoc gap [c] rest⟩

end Base

/-! ### The classes of digits -/

/-- A class of characters below 128 is told by a list of them. -/
theorem mem_iff_of_table {isOne : Char → Bool} (hbound : ∀ c, isOne c = true → c.toNat < 128)
    (hcs : cs.all isOne = true)
    (htable : ((List.range 128).all fun n => !isOne (Char.ofNat n) || cs.contains (Char.ofNat n)) = true)
    (c : Char) : isOne c = true ↔ c ∈ cs := by
  constructor
  · intro h
    have hmem := List.all_eq_true.mp htable c.toNat (List.mem_range.mpr (hbound c h))
    rwa [Char.ofNat_toNat, h, Bool.not_true, Bool.false_or, List.contains_iff_mem] at hmem
  · exact List.all_eq_true.mp hcs c

theorem isDigit_iff (c : Char) : c.isDigit = true ↔ c ∈ decimalDigits := by
  refine mem_iff_of_table (fun c h => ?_) (by decide) (by decide) c
  simp only [Char.isDigit, Bool.and_eq_true, decide_eq_true_eq, ge_iff_le, UInt32.le_iff_toNat_le] at h
  exact Nat.lt_of_le_of_lt h.2 (by decide)

namespace Base

/-- The digits to a base as the reader tells them. -/
def isDigit : Base → Char → Bool
  | hexadecimal => Lexer.isHex
  | octal => fun c => '0' ≤ c && c ≤ '7'
  | binary => fun c => c == '0' || c == '1'

theorem isDigit_iff (b : Base) (c : Char) : b.isDigit c = true ↔ c ∈ b.digits := by
  cases b with
  | hexadecimal =>
    refine mem_iff_of_table (fun c h => ?_) (by decide) (by decide) c
    simp only [isDigit, Lexer.isHex, Char.isDigit, Bool.or_eq_true, Bool.and_eq_true, decide_eq_true_eq,
      ge_iff_le, Char.le_def, UInt32.le_iff_toNat_le] at h
    rcases h with (⟨-, h⟩ | ⟨-, h⟩) | ⟨-, h⟩ <;> exact Nat.lt_of_le_of_lt h (by decide)
  | octal =>
    refine mem_iff_of_table (fun c h => ?_) (by decide) (by decide) c
    simp only [isDigit, Bool.and_eq_true, decide_eq_true_eq, Char.le_def, UInt32.le_iff_toNat_le] at h
    exact Nat.lt_of_le_of_lt h.2 (by decide)
  | binary => simp [isDigit, digits]

theorem underscore_not_mem_digits (b : Base) : '_' ∉ b.digits := by cases b <;> decide

end Base

/-! ### Runs of digits and underscores -/

theorem passes_skipWhile (isOne : Char → Bool) (fuel : Nat) (here : Place)
    (hfuel : (s.ahead here).length ≤ fuel) :
    Passes s here ((s.ahead here).takeWhile isOne) (Lexer.skipWhile s isOne fuel here) := by
  induction fuel generalizing here with
  | zero =>
    rw [List.length_eq_zero_iff.mp (Nat.le_zero.mp hfuel)]
    exact .refl s here
  | succ fuel ih =>
    rw [Lexer.skipWhile, Source.getElem?_index]
    cases hahead : s.ahead here with
    | nil => exact .refl s here
    | cons c text =>
      rw [List.head?_cons, List.takeWhile_cons]
      dsimp only
      split
      · have hnext : Passes s here [c] (here.next c) := by
          refine .next ?_
          rw [Source.getElem?_index, hahead, List.head?_cons]
        have htext := hnext.ahead_of_cons hahead
        rw [hahead, List.length_cons, Nat.add_le_add_iff_right] at hfuel
        rw [← htext]
        exact hnext.trans (ih (here.next c) (by rwa [htext]))
      · exact .refl s here

/-- A run of digits ends where none stands. -/
theorem exists_run {isOne : Char → Bool} (hone : ∀ c, isOne c = true ↔ c ∈ cs) (s : Source) (here : Place) :
    ∃ run, Passes s here run (Lexer.skipWhile s isOne s.size here) ∧ (∀ c ∈ run, c ∈ cs) ∧
      ∀ c ∈ cs, ∀ rest, ¬ c :: rest <+: s.ahead (Lexer.skipWhile s isOne s.size here) := by
  have hpasses := passes_skipWhile isOne s.size here (s.length_ahead_le here)
  refine ⟨_, hpasses, fun c hc => (hone c).mp (List.mem_takeWhile_imp hc), ?_⟩
  rintro c hc rest ⟨later, hlater⟩
  have hrest : s.ahead (Lexer.skipWhile s isOne s.size here) = (s.ahead here).dropWhile isOne := by
    have heq := hpasses.ahead_eq
    nth_rewrite 1 [← List.takeWhile_append_dropWhile (p := isOne) (l := s.ahead here)] at heq
    exact (List.append_cancel_left heq).symm
  have hnot := List.head?_dropWhile_not isOne (s.ahead here)
  rw [← hrest, ← hlater, List.cons_append, List.head?_cons] at hnot
  exact Bool.false_ne_true (hnot.symm.trans ((hone c).mpr hc))

/-- An underscore is passed where one stands. -/
theorem exists_gap (s : Source) (p : Place) : ∃ gap, (gap = [] ∨ gap = ['_']) ∧
    Passes s p gap (if s.peek p == '_' then s.skip p else p) ∧
      ∀ rest, '_' :: rest <+: s.ahead p → gap = ['_'] := by
  rw [Source.peek_eq]
  cases hahead : s.ahead p with
  | nil => exact ⟨[], .inl rfl, .refl s p, fun rest hrest => absurd hrest (by simp)⟩
  | cons c text =>
    rw [List.head?_cons, Option.getD_some]
    by_cases hc : c = '_'
    · subst hc
      exact ⟨['_'], .inr rfl, .skip hahead, fun _ _ => rfl⟩
    · rw [if_neg (by simpa using hc)]
      exact ⟨[], .inl rfl, .refl s p, fun rest hrest => absurd (List.cons_prefix_cons.mp hrest).1.symm hc⟩

/-! ### Reading decimal groups -/

/-- Behind a run of digits, groups go on with an underscore. -/
theorem length_le_or_of_decimalGroups {run : List Char} (hrun : ∀ c ∈ run, c ∈ decimalDigits)
    (hstop : ∀ c ∈ decimalDigits, ∀ later, ¬ c :: later <+: rest) (hw : w ∈ decimalGroups.matches')
    (hbegins : w <+: run ++ rest) : w.length ≤ run.length ∨
      ∃ v, (v = [] ∨ v ∈ decimalGroups.matches') ∧ w = run ++ '_' :: v := by
  -- By induction on the run: groups that outlast it would need a digit where it ends.
  induction run generalizing w with
  | nil =>
    obtain ⟨c, hc, gap, -, later, -, rfl⟩ := mem_decimalGroups.mp hw
    exact absurd hbegins (hstop c hc _)
  | cons d run ih =>
    rw [List.forall_mem_cons] at hrun
    obtain ⟨c, -, gap, hgap, v, hv, rfl⟩ := mem_decimalGroups.mp hw
    obtain ⟨rfl, hlater⟩ := List.cons_prefix_cons.mp hbegins
    rcases hgap with rfl | rfl
    · rcases hv with rfl | hv
      · exact .inl (by simp)
      · rcases ih hrun.2 hv hlater with hle | ⟨later, hmore, rfl⟩
        · exact .inl (Nat.succ_le_succ hle)
        · exact .inr ⟨later, hmore, rfl⟩
    · cases run with
      | nil => exact .inr ⟨v, hv, rfl⟩
      | cons d run =>
        obtain ⟨rfl, -⟩ := List.cons_prefix_cons.mp hlater
        exact absurd (hrun.2 '_' List.mem_cons_self) (by decide)

/-- A run of digits, perhaps an underscore, and perhaps groups are groups. -/
theorem append_mem_decimalGroups {run gap : List Char} (hne : run ≠ [])
    (hrun : ∀ c ∈ run, c ∈ decimalDigits) (hgap : gap = [] ∨ gap = ['_'])
    (hrest : rest = [] ∨ rest ∈ decimalGroups.matches') :
    run ++ gap ++ rest ∈ decimalGroups.matches' := by
  induction run with
  | nil => exact absurd rfl hne
  | cons c run ih =>
    rw [List.forall_mem_cons] at hrun
    cases run with
    | nil => exact mem_decimalGroups.mpr ⟨c, hrun.1, gap, hgap, rest, hrest, rfl⟩
    | cons d run =>
      exact mem_decimalGroups.mpr
        ⟨c, hrun.1, [], .inl rfl, _, .inr (ih (List.cons_ne_nil d run) hrun.2), rfl⟩

/-- Decimal groups are read as far as they go. -/
theorem reads_skipDigits (fuel : Nat) (here : Place) (hfuel : (s.ahead here).length < fuel) :
    Reads s decimalGroups here (Lexer.skipDigits s fuel here) := by
  induction fuel generalizing here with
  | zero => exact absurd hfuel (Nat.not_lt_zero _)
  | succ fuel ih =>
    obtain ⟨run, hpasses, hrun, hstop⟩ := exists_run isDigit_iff s here
    rw [Lexer.skipDigits]
    dsimp only
    generalize Lexer.skipWhile s Char.isDigit s.size here = p at hpasses hstop ⊢
    obtain ⟨gap, hgap, hskip, hunderscore⟩ := exists_gap s p
    generalize (if s.peek p == '_' then s.skip p else p) = q at hskip ⊢
    -- Groups end within the run, or go on behind the underscore that stands at its end.
    have hlonger : ∀ w ∈ decimalGroups.matches', w <+: s.ahead here →
        w.length ≤ run.length ∨ ∃ v, (v = [] ∨ v ∈ decimalGroups.matches') ∧ w = run ++ '_' :: v := by
      intro w hw hbegins
      rw [hpasses.ahead_eq] at hbegins
      exact length_le_or_of_decimalGroups hrun hstop hw hbegins
    split
    · next hnone =>
      obtain rfl := hpasses.index_beq_iff.mp hnone
      refine .nothing fun w hw hbegins => ?_
      obtain ⟨c, hc, _, -, _, -, rfl⟩ := mem_decimalGroups.mp hw
      rw [hpasses.ahead_eq, List.nil_append] at hbegins
      exact hstop c hc _ hbegins
    · next hsome =>
      have hne : run ≠ [] := fun hempty => hsome (hpasses.index_beq_iff.mpr hempty)
      have hboth := hpasses.trans hskip
      refine .again hboth ?_ (fun v hv => append_mem_decimalGroups hne hrun hgap (.inr hv)) ?_ (ih q ?_)
      · simpa using append_mem_decimalGroups hne hrun hgap (.inl rfl)
      · intro w hw hbegins
        rcases hlonger w hw hbegins with hle | ⟨v, hv, rfl⟩
        · exact .inl (hle.trans (by simp))
        · rw [hpasses.ahead_eq, List.prefix_append_right_inj] at hbegins
          obtain rfl := hunderscore v hbegins
          rcases hv with rfl | hv
          · exact .inl (Nat.le_refl _)
          · exact .inr ⟨v, hv, by rw [List.append_assoc]; rfl⟩
      · have hpos : 0 < run.length := List.length_pos_iff.mpr hne
        rw [hboth.ahead_eq, List.length_append, List.length_append] at hfuel
        omega

/-! ### Reading groups to a base -/

namespace Base

/-- Behind a run of digits, groups go on with more groups. -/
theorem length_le_or_of_groups {run : List Char} (hrun : ∀ c ∈ run, c ∈ b.digits)
    (hv : v = [] ∨ v ∈ b.groups.matches') (hbegins : v <+: run ++ rest) :
    v.length ≤ run.length ∨ ∃ later ∈ b.groups.matches', v = run ++ later := by
  induction run generalizing v with
  | nil =>
    rcases hv with rfl | hv
    · exact .inl (Nat.le_refl 0)
    · exact .inr ⟨v, hv, rfl⟩
  | cons d run ih =>
    rw [List.forall_mem_cons] at hrun
    rcases hv with rfl | hv
    · exact .inl (Nat.zero_le _)
    · obtain ⟨gap, rfl | rfl, c, -, later, hlater, rfl⟩ := mem_groups.mp hv
      · obtain ⟨rfl, hrest⟩ := List.cons_prefix_cons.mp hbegins
        refine (ih hrun.2 hlater hrest).imp Nat.succ_le_succ ?_
        rintro ⟨last, hlast, rfl⟩
        exact ⟨last, hlast, rfl⟩
      · obtain ⟨rfl, -⟩ := List.cons_prefix_cons.mp hbegins
        exact absurd hrun.1 b.underscore_not_mem_digits

/-- Perhaps an underscore, a run of digits, and perhaps groups are groups. -/
theorem append_mem_groups {gap run : List Char} (hgap : gap = [] ∨ gap = ['_']) (hne : run ≠ [])
    (hrun : ∀ c ∈ run, c ∈ b.digits) (hrest : rest = [] ∨ rest ∈ b.groups.matches') :
    gap ++ (run ++ rest) ∈ b.groups.matches' := by
  induction run generalizing gap with
  | nil => exact absurd rfl hne
  | cons c run ih =>
    rw [List.forall_mem_cons] at hrun
    refine mem_groups.mpr ⟨gap, hgap, c, hrun.1, run ++ rest, ?_, rfl⟩
    cases run with
    | nil => exact hrest
    | cons d run => exact .inr (ih (.inl rfl) (List.cons_ne_nil d run) hrun.2)

/-- Groups to a base are read as far as they go. -/
theorem reads_skipBased (b : Base) (fuel : Nat) (here : Place) (hfuel : (s.ahead here).length < fuel) :
    Reads s b.groups here (Lexer.skipBased s b.isDigit fuel here) := by
  induction fuel generalizing here with
  | zero => exact absurd hfuel (Nat.not_lt_zero _)
  | succ fuel ih =>
    obtain ⟨gap, hgap, hskip, hunderscore⟩ := exists_gap s here
    rw [Lexer.skipBased]
    generalize (if s.peek here == '_' then s.skip here else here) = p at hskip ⊢
    obtain ⟨run, hpasses, hrun, hstop⟩ := exists_run b.isDigit_iff s p
    generalize Lexer.skipWhile s b.isDigit s.size p = q at hpasses hstop ⊢
    -- Groups at this place start with the underscore if there is one.
    have hstart : ∀ w ∈ b.groups.matches', w <+: s.ahead here → ∃ c ∈ b.digits, ∃ v,
        (v = [] ∨ v ∈ b.groups.matches') ∧ w = gap ++ c :: v ∧ c :: v <+: s.ahead p := by
      intro w hw hbegins
      obtain ⟨gap', hgap', c, hc, v, hv, rfl⟩ := mem_groups.mp hw
      have hsame : gap' = gap := by
        rcases hgap' with rfl | rfl
        · rcases hgap with rfl | rfl
          · rfl
          · rw [hskip.ahead_eq] at hbegins
            obtain ⟨rfl, -⟩ := List.cons_prefix_cons.mp hbegins
            exact absurd hc b.underscore_not_mem_digits
        · exact (hunderscore _ hbegins).symm
      subst hsame
      rw [hskip.ahead_eq, List.prefix_append_right_inj] at hbegins
      exact ⟨c, hc, v, hv, rfl, hbegins⟩
    split
    · next hnone =>
      obtain rfl := hpasses.index_beq_iff.mp hnone
      refine .nothing fun w hw hbegins => ?_
      obtain ⟨c, hc, v, -, rfl, hrest⟩ := hstart w hw hbegins
      rw [hpasses.ahead_eq, List.nil_append] at hrest
      exact hstop c hc v hrest
    · next hsome =>
      have hne : run ≠ [] := fun hempty => hsome (hpasses.index_beq_iff.mpr hempty)
      have hboth := hskip.trans hpasses
      refine .again hboth ?_ (fun v hv => ?_) ?_ (ih q ?_)
      · simpa using append_mem_groups hgap hne hrun (.inl rfl)
      · rw [List.append_assoc]
        exact append_mem_groups hgap hne hrun (.inr hv)
      · intro w hw hbegins
        obtain ⟨c, hc, v, hv, rfl, hrest⟩ := hstart w hw hbegins
        rw [hpasses.ahead_eq] at hrest
        have hmem : c :: v ∈ b.groups.matches' := mem_groups.mpr ⟨[], .inl rfl, c, hc, v, hv, rfl⟩
        rcases length_le_or_of_groups hrun (.inr hmem) hrest with hle | ⟨later, hlater, heq⟩
        · exact .inl (by rw [List.length_append, List.length_append]; omega)
        · exact .inr ⟨later, hlater, by rw [heq, List.append_assoc]⟩
      · have hpos : 0 < run.length := List.length_pos_iff.mpr hne
        rw [hboth.ahead_eq, List.length_append, List.length_append] at hfuel
        omega

end Base

/-! ### Reading integers -/

namespace Base

def ofLetter? (c : Char) : Option Base :=
  match c with
  | 'x' | 'X' => some hexadecimal
  | 'o' | 'O' => some octal
  | 'b' | 'B' => some binary
  | _ => none

theorem ofLetter?_eq_some_iff : ofLetter? c = some b ↔ c ∈ b.letters := by
  constructor
  · intro h
    unfold ofLetter? at h
    split at h <;> cases h <;> decide
  · intro h
    cases b <;> fin_cases h <;> rfl

/-- The base that is told at a place. -/
def at? (s : Source) (here : Place) : Option Base :=
  if s.peek here == '0' then ofLetter? (s.peek (s.skip here)) else none

theorem at?_eq_some_iff : at? s here = some b ↔ ∃ c ∈ b.letters, ['0', c] <+: s.ahead here := by
  have hnul : ofLetter? '\x00' = none := rfl
  rw [at?]
  cases hahead : s.ahead here with
  | nil => simp [Source.peek_eq, hahead]
  | cons d text =>
    have hnext : s.ahead (s.skip here) = text := (Passes.skip hahead).ahead_of_cons hahead
    rw [Source.peek_eq, Source.peek_eq, hnext, hahead, List.head?_cons, Option.getD_some]
    cases text with
    | nil => simp [hnul]
    | cons c text =>
      rw [List.head?_cons, Option.getD_some]
      by_cases hd : d = '0'
      · subst hd
        simp [ofLetter?_eq_some_iff]
      · simp [hd, Ne.symm hd]

theorem exists_start_of_token (hw : w ∈ b.token.matches') : ∃ c ∈ b.letters, ['0', c] <+: w := by
  obtain ⟨_, ⟨_, hstart, v, -, rfl⟩, suffix, -, rfl⟩ := hw
  obtain ⟨c, hc, rfl⟩ := mem_start.mp hstart
  exact ⟨c, hc, v ++ suffix, (List.append_assoc _ v suffix).symm⟩

theorem at?_of_token (hw : w ∈ b.token.matches') (hbegins : w <+: s.ahead here) : at? s here = some b := by
  obtain ⟨c, hc, hstart⟩ := exists_start_of_token hw
  exact at?_eq_some_iff.mpr ⟨c, hc, hstart.trans hbegins⟩

/-- Decimal integers have no letter that tells a base. -/
theorem not_mem_characters_decimalToken (hc : c ∈ b.letters) : c ∉ characters decimalToken := by
  cases b <;> fin_cases hc <;> decide

end Base

/-- What is read if the digits of a class may stand behind two characters. -/
def readWith (s : Source) (here : Place) (digit : Option (Char → Bool)) : Option Place :=
  match digit.bind fun d => Lexer.skipBased s d (s.size + 1) (s.skip (s.skip here)) with
  | some p => some (Lexer.skipOne s (fun c => c == 'l' || c == 'L') p)
  | none => (Lexer.skipDigits s (s.size + 1) here).map
      (Lexer.skipOne s fun c => c == 'l' || c == 'L' || c == 'j' || c == 'J')

theorem integerEnd_eq (s : Source) (here : Place) :
    Lexer.integerEnd s here = readWith s here ((Base.at? s here).map Base.isDigit) := by
  have hdigit : (if s.peek here == '0' then
      match s.peek (s.skip here) with
      | 'x' | 'X' => some Lexer.isHex
      | 'o' | 'O' => some fun c => '0' ≤ c && c ≤ '7'
      | 'b' | 'B' => some fun c => c == '0' || c == '1'
      | _ => none
    else none) = (Base.at? s here).map Base.isDigit := by
    unfold Base.at? Base.ofLetter?
    split
    · split <;> rfl
    · rfl
  rw [← hdigit]
  rfl

theorem reads_decimal (s : Source) (here : Place) :
    Reads s decimalToken here ((Lexer.skipDigits s (s.size + 1) here).map
      (Lexer.skipOne s fun c => c == 'l' || c == 'L' || c == 'j' || c == 'J')) := by
  have hdigits := reads_skipDigits (s.size + 1) here (Nat.lt_succ_of_le (s.length_ahead_le here))
  have hread := hdigits.skipOne ['l', 'L', 'j', 'J']
    (fun c => c == 'l' || c == 'L' || c == 'j' || c == 'J') (by simp [or_assoc]) (by decide)
  have hletters : (maybe (oneOf ['l', 'L', 'j', 'J'])).matches' =
      (maybe (oneOf ['l', 'L']) + maybe (oneOf ['j', 'J'])).matches' := by
    ext w
    simp only [RegularExpression.matches'_add, Language.mem_add, mem_maybe, mem_oneOf, List.mem_cons,
      List.not_mem_nil, or_false, exists_eq_or_imp, exists_eq_left]
    tauto
  have heq : (decimalGroups * maybe (oneOf ['l', 'L', 'j', 'J'])).matches' = decimalToken.matches' :=
    congrArg (decimalGroups.matches' * ·) hletters
  exact hread.extend (fun w hw => heq ▸ hw) fun w hw hbegins => ⟨w, heq ▸ hw, hbegins, Nat.le_refl _⟩

theorem reads_based (h : Base.at? s here = some b) :
    Reads s b.token here ((Lexer.skipBased s b.isDigit (s.size + 1) (s.skip (s.skip here))).map
      (Lexer.skipOne s fun c => c == 'l' || c == 'L')) := by
  obtain ⟨c, hc, rest, hrest⟩ := Base.at?_eq_some_iff.mp h
  have hzero : Passes s here ['0'] (s.skip here) := .skip hrest.symm
  have hletter : Passes s (s.skip here) [c] (s.skip (s.skip here)) :=
    .skip (hzero.ahead_of_cons hrest.symm)
  have hlength : ∀ w ∈ b.start.matches', w.length = 2 := by
    intro w hw
    obtain ⟨d, -, rfl⟩ := Base.mem_start.mp hw
    rfl
  have hgroups := b.reads_skipBased (s.size + 1) (s.skip (s.skip here))
    (Nat.lt_succ_of_le (s.length_ahead_le _))
  have hread := Reads.after (hzero.trans hletter) (Base.mem_start.mpr ⟨c, hc, rfl⟩) hlength hgroups
  exact hread.skipOne ['l', 'L'] (fun c => c == 'l' || c == 'L') (by simp) (by decide)

/-- What is read as an integer at a place is the longest integer of the grammar that stands there. -/
theorem reads_integerEnd (s : Source) (here : Place) :
    Reads s integerToken here (Lexer.integerEnd s here) := by
  have hdecimal := reads_decimal s here
  rw [integerEnd_eq]
  cases hbase : Base.at? s here with
  | none =>
    -- Only decimal integers stand where no base is told.
    refine hdecimal.extend (fun w hw => mem_integerToken.mpr (.inr hw)) fun w hw hbegins => ?_
    rcases mem_integerToken.mp hw with ⟨b, hw⟩ | hw
    · rw [Base.at?_of_token hw hbegins] at hbase
      cases hbase
    · exact ⟨w, hw, hbegins, Nat.le_refl _⟩
  | some b =>
    have hbased := reads_based hbase
    have hsame {b' : Base} {w : List Char} (hw : w ∈ b'.token.matches') (hbegins : w <+: s.ahead here) :
        w ∈ b.token.matches' := by
      obtain rfl : b = b' := Option.some.inj (hbase.symm.trans (Base.at?_of_token hw hbegins))
      exact hw
    rw [Option.map_some, readWith, Option.bind_some]
    generalize Lexer.skipBased s b.isDigit (s.size + 1) (s.skip (s.skip here)) = based at hbased ⊢
    cases based with
    | none =>
      -- No digit to the base follows its letter, so the zero is read by itself.
      refine hdecimal.extend (fun w hw => mem_integerToken.mpr (.inr hw)) fun w hw hbegins => ?_
      rcases mem_integerToken.mp hw with ⟨b', hw⟩ | hw
      · cases hbased with
        | nothing h => exact absurd hbegins (h w (hsame hw hbegins))
      · exact ⟨w, hw, hbegins, Nat.le_refl _⟩
    | some p =>
      refine hbased.extend (fun w hw => mem_integerToken.mpr (.inl ⟨b, hw⟩)) fun w hw hbegins => ?_
      rcases mem_integerToken.mp hw with ⟨b', hw⟩ | hw
      · exact ⟨w, hsame hw hbegins, hbegins, Nat.le_refl _⟩
      · cases hbased with
        | @longest taken _ _ hlongest =>
          refine ⟨taken, hlongest.mem, hlongest.begins, ?_⟩
          by_contra hlt
          -- A longer decimal integer would hold the letter that tells the base.
          obtain ⟨c, hc, hstart⟩ := Base.exists_start_of_token hlongest.mem
          have hlater : ['0', c] <+: w := List.prefix_of_prefix_length_le
            (hstart.trans hlongest.begins) hbegins (hstart.length_le.trans (Nat.le_of_not_le hlt))
          exact Base.not_mem_characters_decimalToken hc (mem_characters hw (hlater.subset (by simp)))

/-- What follows the digits of the base is left. -/
example : (Lexer.integerEnd "0b1_012".toList.toArray .start).map (·.index) = some 6 := by decide

end RepoSurvey.Python
