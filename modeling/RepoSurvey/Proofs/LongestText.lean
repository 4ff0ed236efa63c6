import Mathlib
import RepoSurvey.Python.Lexer

/-!
Texts that regular expressions match, and the longest of them at a place of a source. What is read piece by
piece is still the longest text: a fixed piece and what follows it, a piece again and again, and a piece with
a letter that may stand behind it.
-/

namespace RepoSurvey.Python

/-! ### Expressions -/

/-- One of some characters. -/
def oneOf (cs : List Char) : RegularExpression Char := (cs.map .char).sum

def maybe (e : RegularExpression Char) : RegularExpression Char := 1 + e

/-- Once or more often. -/
def repeated (e : RegularExpression Char) : RegularExpression Char := e * e.star

/-- The characters that an expression mentions. -/
def characters : RegularExpression Char → List Char
  | .zero | .epsilon => []
  | .char c => [c]
  | .plus e f | .comp e f => characters e ++ characters f
  | .star e => characters e

variable {e f : RegularExpression Char} {cs u v w text taken rest : List Char} {c : Char}

theorem mem_mul : w ∈ (e * f).matches' ↔ ∃ u ∈ e.matches', ∃ v ∈ f.matches', u ++ v = w :=
  Language.mem_mul

theorem mem_maybe : w ∈ (maybe e).matches' ↔ w = [] ∨ w ∈ e.matches' := Iff.rfl

theorem mem_oneOf : w ∈ (oneOf cs).matches' ↔ ∃ c ∈ cs, w = [c] := by
  rw [oneOf]
  induction cs with
  | nil => simp
  | cons d cs ih =>
    rw [List.map_cons, List.sum_cons, RegularExpression.matches'_add, Language.mem_add, ih]
    simp only [List.mem_cons, exists_eq_or_imp]
    rfl

theorem singleton_mem_oneOf (hc : c ∈ cs) : [c] ∈ (oneOf cs).matches' := mem_oneOf.mpr ⟨c, hc, rfl⟩

theorem one_le_maybe (e : RegularExpression Char) : 1 ≤ (maybe e).matches' := le_self_add

/-- Once or more often is once, and perhaps again. -/
theorem matches'_repeated (e : RegularExpression Char) :
    (repeated e).matches' = (e * maybe (repeated e)).matches' :=
  congrArg (e.matches' * ·) (one_add_mul_kstar (a := e.matches')).symm

/-- A text has no other characters than the expression that matches it. -/
theorem mem_characters (h : w ∈ e.matches') (hc : c ∈ w) : c ∈ characters e := by
  induction e generalizing w with
  | zero => cases h
  | epsilon =>
    rw [show w = [] from h] at hc
    cases hc
  | char d =>
    rw [show w = [d] from h] at hc
    exact hc
  | plus e f he hf =>
    rcases h with h | h
    · exact List.mem_append_left _ (he h hc)
    · exact List.mem_append_right _ (hf h hc)
  | comp e f he hf =>
    obtain ⟨u, hu, v, hv, rfl⟩ := mem_mul.mp h
    rcases List.mem_append.mp hc with hc | hc
    · exact List.mem_append_left _ (he hu hc)
    · exact List.mem_append_right _ (hf hv hc)
  | star e he =>
    obtain ⟨parts, rfl, hparts⟩ := h
    obtain ⟨part, hpart, hc⟩ := List.mem_flatten.mp hc
    exact he (hparts part hpart) hc

/-! ### What lies ahead of a place -/

/-- The text from a place on. -/
def Source.ahead (s : Source) (p : Place) : List Char := s.toList.drop p.index

/-- From one place to another some text is passed. -/
structure Passes (s : Source) (here : Place) (taken : List Char) (stop : Place) : Prop where
  index_eq : stop.index = here.index + taken.length
  ahead_eq : s.ahead here = taken ++ s.ahead stop

variable {s : Source} {here stop p q : Place} {r : Option Place}

namespace Source

theorem getElem?_index (s : Source) (p : Place) : s[p.index]? = (s.ahead p).head? := by
  rw [ahead, List.head?_drop, Array.getElem?_toList]

theorem peek_eq (s : Source) (p : Place) : s.peek p = (s.ahead p).head?.getD '\x00' := by
  rw [peek, getElem?_index]

theorem length_ahead_le (s : Source) (p : Place) : (s.ahead p).length ≤ s.size := by
  rw [ahead, List.length_drop, Array.length_toList]
  exact Nat.sub_le _ _

end Source

namespace Passes

theorem refl (s : Source) (p : Place) : Passes s p [] p := ⟨rfl, rfl⟩

theorem trans (h : Passes s here v p) (h' : Passes s p w stop) : Passes s here (v ++ w) stop where
  index_eq := by rw [h'.index_eq, h.index_eq, List.length_append, Nat.add_assoc]
  ahead_eq := by rw [h.ahead_eq, h'.ahead_eq, List.append_assoc]

theorem next (h : s[here.index]? = some c) : Passes s here [c] (here.next c) := by
  have hindex : (here.next c).index = here.index + 1 := by
    rw [Place.next]
    split <;> rfl
  obtain ⟨hlt, rfl⟩ := Array.getElem?_eq_some_iff.mp h
  refine ⟨hindex, ?_⟩
  rw [Source.ahead, Source.ahead, hindex, List.drop_eq_getElem_cons (by simpa using hlt)]
  rfl

theorem skip (h : s.ahead here = c :: text) : Passes s here [c] (s.skip here) := by
  have hc : s[here.index]? = some c := by rw [Source.getElem?_index, h, List.head?_cons]
  rw [Source.skip, hc]
  exact next hc

theorem begins (h : Passes s here taken stop) : taken <+: s.ahead here := ⟨_, h.ahead_eq.symm⟩

theorem ahead_of_cons (h : Passes s here [c] stop) (hahead : s.ahead here = c :: text) :
    s.ahead stop = text := by
  have heq := h.ahead_eq
  rw [hahead] at heq
  exact (List.cons.inj heq).2.symm

theorem index_beq_iff (h : Passes s here taken stop) : (stop.index == here.index) = true ↔ taken = [] := by
  rw [beq_iff_eq, h.index_eq, Nat.add_eq_left, List.length_eq_zero_iff]

end Passes

/-! ### The longest text -/

/-- The longest text that an expression matches at the head of a text. -/
structure IsLongest (e : RegularExpression Char) (text taken : List Char) : Prop where
  mem : taken ∈ e.matches'
  begins : taken <+: text
  length_le : ∀ w ∈ e.matches', w <+: text → w.length ≤ taken.length

/-- What is read at a place is the longest text that an expression matches there. -/
inductive Reads (s : Source) (e : RegularExpression Char) (here : Place) : Option Place → Prop
  | nothing (h : ∀ w ∈ e.matches', ¬ w <+: s.ahead here) : Reads s e here none
  | longest {taken : List Char} {stop : Place} (hpasses : Passes s here taken stop)
      (hlongest : IsLongest e (s.ahead here) taken) : Reads s e here (some stop)

theorem eq_and_prefix_of_length_eq (hlength : u.length = taken.length) (h : u ++ v <+: taken ++ rest) :
    u = taken ∧ v <+: rest := by
  obtain ⟨later, hlater⟩ := h
  rw [List.append_assoc] at hlater
  obtain ⟨hsame, hrest⟩ := List.append_inj hlater hlength
  exact ⟨hsame, later, hrest⟩

/-- What an expression matches at the head of a text is shorter than the longest such text, or is that text. -/
theorem IsLongest.length_lt_or (h : IsLongest e (taken ++ rest) taken) (hu : u ∈ e.matches')
    (hbegins : u ++ v <+: taken ++ rest) : u.length < taken.length ∨ u = taken ∧ v <+: rest := by
  have hle := h.length_le u hu ((List.prefix_append u v).trans hbegins)
  exact hle.lt_or_eq.imp id fun hlength => eq_and_prefix_of_length_eq hlength hbegins

namespace Reads

/-- What one expression matches is also the longest text of another one, unless a text of that one goes
further. -/
theorem extend (h : Reads s e here r) (hsub : ∀ w ∈ e.matches', w ∈ f.matches')
    (hle : ∀ w ∈ f.matches', w <+: s.ahead here →
      ∃ v ∈ e.matches', v <+: s.ahead here ∧ w.length ≤ v.length) : Reads s f here r := by
  cases h with
  | nothing h =>
    refine .nothing fun w hw hbegins => ?_
    obtain ⟨v, hv, hbegins, -⟩ := hle w hw hbegins
    exact h v hv hbegins
  | longest hpasses hlongest =>
    refine .longest hpasses ⟨hsub _ hlongest.mem, hlongest.begins, fun w hw hbegins => ?_⟩
    obtain ⟨v, hv, hbegins, hlength⟩ := hle w hw hbegins
    exact hlength.trans (hlongest.length_le v hv hbegins)

/-- Behind a text all alternatives to which are of its length, the rest is read. -/
theorem after (hpasses : Passes s here taken p) (htaken : taken ∈ f.matches')
    (hlength : ∀ w ∈ f.matches', w.length = taken.length) (h : Reads s e p r) :
    Reads s (f * e) here r := by
  -- Of one length there is only one text at a place, so every text starts with what is taken.
  have hsplit : ∀ w ∈ (f * e).matches', w <+: s.ahead here →
      ∃ v ∈ e.matches', w = taken ++ v ∧ v <+: s.ahead p := by
    intro w hw hbegins
    obtain ⟨u, hu, v, hv, rfl⟩ := mem_mul.mp hw
    rw [hpasses.ahead_eq] at hbegins
    obtain ⟨rfl, hrest⟩ := eq_and_prefix_of_length_eq (hlength u hu) hbegins
    exact ⟨v, hv, rfl, hrest⟩
  cases h with
  | nothing h =>
    refine .nothing fun w hw hbegins => ?_
    obtain ⟨v, hv, -, hrest⟩ := hsplit w hw hbegins
    exact h v hv hrest
  | @longest later stop hlater hlongest =>
    have hboth := hpasses.trans hlater
    refine .longest hboth
      ⟨mem_mul.mpr ⟨taken, htaken, later, hlongest.mem, rfl⟩, hboth.begins, fun w hw hbegins => ?_⟩
    obtain ⟨v, hv, rfl, hrest⟩ := hsplit w hw hbegins
    rw [List.length_append, List.length_append]
    exact Nat.add_le_add_left (hlongest.length_le v hv hrest) _

/-- What may come again is read once, and then again as far as it goes. -/
theorem again (hpasses : Passes s here taken q) (hmem : taken ∈ e.matches')
    (happend : ∀ v ∈ e.matches', taken ++ v ∈ e.matches')
    (hlonger : ∀ w ∈ e.matches', w <+: s.ahead here →
      w.length ≤ taken.length ∨ ∃ v ∈ e.matches', w = taken ++ v)
    (h : Reads s e q r) : Reads s e here (some (r.getD q)) := by
  -- A longer text goes on at the place where what is taken ends, and there the reader goes on too.
  have hsplit : ∀ w ∈ e.matches', w <+: s.ahead here →
      w.length ≤ taken.length ∨ ∃ v ∈ e.matches', w = taken ++ v ∧ v <+: s.ahead q := by
    intro w hw hbegins
    refine (hlonger w hw hbegins).imp id ?_
    rintro ⟨v, hv, rfl⟩
    rw [hpasses.ahead_eq, List.prefix_append_right_inj] at hbegins
    exact ⟨v, hv, rfl, hbegins⟩
  cases h with
  | nothing h =>
    refine .longest hpasses ⟨hmem, hpasses.begins, fun w hw hbegins => ?_⟩
    rcases hsplit w hw hbegins with hle | ⟨v, hv, -, hrest⟩
    · exact hle
    · exact absurd hrest (h v hv)
  | @longest later stop hlater hlongest =>
    have hboth := hpasses.trans hlater
    refine .longest hboth ⟨happend later hlongest.mem, hboth.begins, fun w hw hbegins => ?_⟩
    rw [List.length_append]
    rcases hsplit w hw hbegins with hle | ⟨v, hv, rfl, hrest⟩
    · exact Nat.le_add_right_of_le hle
    · rw [List.length_append]
      exact Nat.add_le_add_left (hlongest.length_le v hv hrest) _

/-- A letter behind the longest text is read if it is one of those that may stand there. -/
theorem skipOne (cs : List Char) (isLetter : Char → Bool) (hletter : ∀ c, isLetter c = true ↔ c ∈ cs)
    (hnul : '\x00' ∉ cs) (h : Reads s e here r) :
    Reads s (e * maybe (oneOf cs)) here (r.map (Lexer.skipOne s isLetter)) := by
  cases h with
  | nothing h =>
    refine .nothing fun w hw hbegins => ?_
    obtain ⟨u, hu, v, -, rfl⟩ := mem_mul.mp hw
    exact h u hu ((List.prefix_append u v).trans hbegins)
  | @longest taken stop hpasses hlongest =>
    rw [hpasses.ahead_eq] at hlongest
    -- Behind the longest text or a shorter one stands at most one letter.
    have hlength : ∀ w ∈ (e * maybe (oneOf cs)).matches', w <+: s.ahead here →
        w.length ≤ taken.length ∨ w.length ≤ taken.length + 1 ∧ ∃ c ∈ cs, [c] <+: s.ahead stop := by
      intro w hw hbegins
      obtain ⟨u, hu, v, hv, rfl⟩ := mem_mul.mp hw
      rw [hpasses.ahead_eq] at hbegins
      rcases mem_maybe.mp hv with rfl | hv
      · rw [List.append_nil] at hbegins ⊢
        exact .inl (hlongest.length_le u hu hbegins)
      · obtain ⟨c, hc, rfl⟩ := mem_oneOf.mp hv
        rcases hlongest.length_lt_or hu hbegins with hlt | ⟨rfl, hrest⟩
        · exact .inl (by rw [List.length_append]; exact hlt)
        · exact .inr ⟨by rw [List.length_append, List.length_singleton], c, hc, hrest⟩
    rw [Option.map_some, Lexer.skipOne]
    by_cases hnext : ∃ c ∈ cs, [c] <+: s.ahead stop
    · obtain ⟨c, hc, later, hlater⟩ := hnext
      have hpeek : s.peek stop = c := by rw [Source.peek_eq, ← hlater]; rfl
      have hboth := hpasses.trans (.skip hlater.symm)
      rw [hpeek, if_pos ((hletter c).mpr hc)]
      refine .longest hboth
        ⟨mem_mul.mpr ⟨taken, hlongest.mem, [c], .inr (singleton_mem_oneOf hc), rfl⟩, hboth.begins, ?_⟩
      intro w hw hbegins
      rw [List.length_append, List.length_singleton]
      rcases hlength w hw hbegins with hle | ⟨hle, -⟩
      · exact Nat.le_succ_of_le hle
      · exact hle
    · have hpeek : ¬ isLetter (s.peek stop) = true := by
        rw [hletter, Source.peek_eq]
        cases hahead : s.ahead stop with
        | nil => exact hnul
        | cons c later => exact fun hc => hnext ⟨c, hc, hahead ▸ ⟨later, rfl⟩⟩
      rw [if_neg hpeek]
      refine .longest hpasses
        ⟨mem_mul.mpr ⟨taken, hlongest.mem, [], .inl rfl, List.append_nil taken⟩, hpasses.begins, ?_⟩
      intro w hw hbegins
      exact (hlength w hw hbegins).resolve_right fun hletter => hnext hletter.2

end Reads

/-- The text read is the longest one. -/
theorem Reads.isLongest_textBetween (h : Reads s e here (some stop)) :
    IsLongest e (s.ahead here) (Lexer.textBetween s here stop).toList := by
  cases h with
  | @longest taken _ hpasses hlongest =>
    have hdrop : s.toList.drop here.index = taken ++ s.toList.drop stop.index := hpasses.ahead_eq
    rwa [Lexer.textBetween, String.toList_ofList, Array.toList_extract, List.extract_eq_take_drop, hdrop,
      hpasses.index_eq, Nat.add_sub_cancel_left, List.take_left]

end RepoSurvey.Python
