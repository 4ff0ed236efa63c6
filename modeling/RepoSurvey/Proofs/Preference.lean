import Mathlib.Data.List.Lex
import RepoSurvey.Text.Pattern

/-!
Which of all ways to match a pattern is the preferred one. On its way a matcher chooses how often each
repetition takes a character. One way is preferred to another if it makes the better choice at the first
place where they differ. The match that the library finds is the one of the preferred way.
-/

namespace RepoSurvey.Pattern

/-- A choice on the way through a pattern: a number of which the largest is preferred, or one of which
the smallest is. -/
inductive Choice where
  | most (n : Nat)
  | fewest (n : Nat)
  deriving Repr, DecidableEq

namespace Choice

/-- One choice is preferred to another. -/
inductive Before : Choice → Choice → Prop where
  | most {m n : Nat} (h : n < m) : Before (most m) (most n)
  | fewest {m n : Nat} (h : m < n) : Before (fewest m) (fewest n)

instance : Std.Asymm Before where
  asymm := by
    rintro _ _ (⟨h⟩ | ⟨h⟩) (⟨h'⟩ | ⟨h'⟩)
    all_goals exact Nat.lt_asymm h h'

/-- How often a repetition takes a character. -/
def count (greedy : Bool) (n : Nat) : Choice := if greedy then most n else fewest n

/-- The choice of one more. -/
def more : Choice → Choice
  | most n => most (n + 1)
  | fewest n => fewest (n + 1)

@[simp] theorem more_count (greedy : Bool) (n : Nat) :
    (count greedy n).more = count greedy (n + 1) := by
  cases greedy <;> rfl

theorem Before.more {a b : Choice} (h : Before a b) : Before a.more b.more := by
  cases h with
  | most h => exact .most (Nat.succ_lt_succ h)
  | fewest h => exact .fewest (Nat.succ_lt_succ h)

end Choice

/-- An earlier choice dominates the later ones. -/
abbrev Earlier : List Choice → List Choice → Prop := List.Lex Choice.Before

theorem Earlier.modifyHead_more {xs ys : List Choice} (h : Earlier xs ys) :
    Earlier (xs.modifyHead Choice.more) (ys.modifyHead Choice.more) := by
  cases h with
  | nil => exact .nil
  | rel h => exact .rel h.more
  | cons h => exact .cons h

/-! ### The preferred of some ways -/

variable {α β : Type} {ways ways' : List Choice → α → Prop} {best best' : Option α}

/-- What the way leads to that is preferred to all others; there is nothing if there is no way. -/
def IsPreferred (ways : List Choice → α → Prop) : Option α → Prop
  | some a => ∃ xs, ways xs a ∧ ∀ ys b, ways ys b → ys ≠ xs → Earlier xs ys
  | none => ∀ xs a, ¬ ways xs a

theorem IsPreferred.of_iff (h : IsPreferred ways best) (hiff : ∀ xs a, ways xs a ↔ ways' xs a) :
    IsPreferred ways' best := by
  have heq : ways = ways' := by
    funext xs a
    exact propext (hiff xs a)
  exact heq ▸ h

/-- All ways of one kind are preferred to all of another. -/
theorem IsPreferred.or (h : IsPreferred ways best) (h' : IsPreferred ways' best')
    (hbefore : ∀ xs a ys b, ways xs a → ways' ys b → Earlier xs ys) :
    IsPreferred (fun xs a => ways xs a ∨ ways' xs a) (best.or best') := by
  match best, best', h, h' with
  | some a, _, ⟨xs, hxs, hfirst⟩, _ =>
    refine ⟨xs, .inl hxs, fun ys b hys hne => ?_⟩
    rcases hys with hys | hys
    · exact hfirst ys b hys hne
    · exact hbefore xs a ys b hxs hys
  | none, some a, hnone, ⟨xs, hxs, hfirst⟩ =>
    refine ⟨xs, .inr hxs, fun ys b hys hne => ?_⟩
    exact hfirst ys b (hys.resolve_left (hnone ys b)) hne
  | none, none, hnone, hnone' =>
    rintro xs a (h | h)
    · exact hnone xs a h
    · exact hnone' xs a h

/-- Changing all ways alike keeps their order. -/
theorem IsPreferred.map (h : IsPreferred ways best) {f : List Choice → List Choice} (g : α → β)
    (hf : ∀ xs ys, Earlier xs ys → Earlier (f xs) (f ys)) :
    IsPreferred (fun xs b => ∃ ys a, xs = f ys ∧ b = g a ∧ ways ys a) (best.map g) := by
  match best, h with
  | some a, ⟨xs, hxs, hfirst⟩ =>
    refine ⟨f xs, ⟨xs, a, rfl, rfl, hxs⟩, ?_⟩
    rintro _ _ ⟨ys, b, rfl, rfl, hys⟩ hne
    exact hf xs ys (hfirst ys b hys fun heq => hne (heq ▸ rfl))
  | none, hnone =>
    rintro _ _ ⟨ys, a, rfl, rfl, hys⟩
    exact hnone ys a hys

theorem IsPreferred.cons (h : IsPreferred ways best) (x : Choice) :
    IsPreferred (fun xs a => ∃ ys, xs = x :: ys ∧ ways ys a) best := by
  have hmap := h.map (f := (x :: ·)) id fun xs ys hxs => .cons hxs
  rw [Option.map_id] at hmap
  exact hmap.of_iff fun xs a => by simp

/-- If each way leads to one thing, nothing else is preferred. -/
theorem IsPreferred.unique (h : IsPreferred ways best) (h' : IsPreferred ways best')
    (hways : ∀ xs a b, ways xs a → ways xs b → a = b) : best = best' := by
  match best, best', h, h' with
  | none, none, _, _ => rfl
  | some a, none, ⟨xs, hxs, _⟩, hnone => exact absurd hxs (hnone xs a)
  | none, some b, hnone, ⟨ys, hys, _⟩ => exact absurd hys (hnone ys b)
  | some a, some b, ⟨xs, hxs, hfirst⟩, ⟨ys, hys, hfirst'⟩ =>
    have heq : ys = xs := by
      by_contra hne
      exact Std.Asymm.asymm _ _ (hfirst ys b hys hne) (hfirst' xs a hxs (Ne.symm hne))
    subst heq
    rw [hways ys a b hxs hys]

/-! ### Ways through pieces -/

/-- Pieces go through the head of a text with some choices to a match. -/
def Goes : List Piece → List Char → List Choice → Match → Prop
  | [], cs, xs, m => xs = [] ∧ m = ⟨[], cs.length⟩
  | .mark :: ps, cs, xs, m => ∃ m', Goes ps cs xs m' ∧ m = m'.withMark cs.length
  | .one p :: ps, cs, xs, m => ∃ c rest, cs = c :: rest ∧ p c ∧ Goes ps rest xs m
  | .many greedy p :: ps, cs, xs, m => ∃ taken rest ys, cs = taken ++ rest ∧ (∀ c ∈ taken, p c) ∧
      xs = .count greedy taken.length :: ys ∧ Goes ps rest ys m

variable {greedy : Bool} {p : Char → Bool} {ps : List Piece} {c : Char} {cs : List Char}
  {xs : List Choice} {m : Match}

theorem goes_many_nil : Goes (.many greedy p :: ps) [] xs m ↔
    ∃ ys, xs = .count greedy 0 :: ys ∧ Goes ps [] ys m := by
  simp [Goes, and_assoc]

/-- A repetition takes no character, or one and then some more. -/
theorem goes_many_cons : Goes (.many greedy p :: ps) (c :: cs) xs m ↔
    (∃ ys, xs = .count greedy 0 :: ys ∧ Goes ps (c :: cs) ys m) ∨
      (p c ∧ ∃ ys, xs = ys.modifyHead Choice.more ∧ Goes (.many greedy p :: ps) cs ys m) := by
  constructor
  · rintro ⟨taken, rest, ys, heq, hall, rfl, hrest⟩
    match taken, heq with
    | [], heq => exact .inl ⟨ys, rfl, heq ▸ hrest⟩
    | _ :: taken, heq =>
      obtain ⟨rfl, rfl⟩ := List.cons.inj heq
      obtain ⟨hc, hall⟩ := List.forall_mem_cons.mp hall
      refine .inr ⟨hc, .count greedy taken.length :: ys, ?_, taken, rest, ys, rfl, hall, rfl, hrest⟩
      simp
  · rintro (⟨ys, rfl, hrest⟩ | ⟨hc, _, rfl, taken, rest, ys, rfl, hall, rfl, hrest⟩)
    · exact ⟨[], c :: cs, ys, rfl, by simp, rfl, hrest⟩
    · exact ⟨c :: taken, rest, ys, rfl, List.forall_mem_cons.mpr ⟨hc, hall⟩, by simp, hrest⟩

/-- The ways of a repetition that takes one character at least. -/
theorem isPreferred_more {best : Option Match}
    (h : IsPreferred (Goes (.many greedy p :: ps) cs) best) :
    IsPreferred (fun xs m => p c ∧ ∃ ys, xs = ys.modifyHead Choice.more ∧
      Goes (.many greedy p :: ps) cs ys m) (if p c then best else none) := by
  split
  · next hc =>
    have hmap := h.map id fun _ _ => Earlier.modifyHead_more
    rw [Option.map_id] at hmap
    exact hmap.of_iff fun xs a => by simp [hc]
  · next hc => exact fun xs a hway => hc hway.1

/-- Of a greedy repetition the ways that take a character come first, and of another one those that take
none. -/
theorem isPreferred_many {long short : Option Match}
    (hlong : IsPreferred (Goes (.many greedy p :: ps) cs) long)
    (hshort : IsPreferred (Goes ps (c :: cs)) short) :
    IsPreferred (Goes (.many greedy p :: ps) (c :: cs))
      (if greedy then (if p c then long else none).or short
        else short.or (if p c then long else none)) := by
  have hmore := isPreferred_more (c := c) hlong
  have hnone := hshort.cons (.count greedy 0)
  cases greedy with
  | true =>
    refine (hmore.or hnone ?_).of_iff fun xs m => by rw [goes_many_cons, or_comm]
    rintro _ _ _ _ ⟨-, _, rfl, taken, -, ys, -, -, rfl, -⟩ ⟨zs, rfl, -⟩
    exact .rel (.most (Nat.zero_lt_succ _))
  | false =>
    refine (hnone.or hmore ?_).of_iff fun xs m => by rw [goes_many_cons]
    rintro _ _ _ _ ⟨zs, rfl, -⟩ ⟨-, _, rfl, taken, -, ys, -, -, rfl, -⟩
    exact .rel (.fewest (Nat.zero_lt_succ _))

/-- The match that is found is the one of the preferred way. -/
theorem isPreferred_first? (ps : List Piece) (cs : List Char) :
    IsPreferred (Goes ps cs) (first? ps cs) := by
  fun_induction first? ps cs with
  | case1 cs => exact ⟨[], ⟨rfl, rfl⟩, fun ys b hys hne => absurd hys.1 hne⟩
  | case2 ps cs ih =>
    have hmap := ih.map (Match.withMark cs.length) fun _ _ => id
    exact hmap.of_iff fun xs m => by simp [Goes, and_comm]
  | case3 p ps =>
    rintro xs m ⟨c, rest, heq, -⟩
    cases heq
  | case4 p ps c cs hc ih => exact ih.of_iff fun xs m => by simp [Goes, hc]
  | case5 p ps c cs hc =>
    rintro xs m ⟨d, rest, heq, hd, -⟩
    obtain ⟨rfl, -⟩ := List.cons.inj heq
    exact hc hd
  | case6 greedy p ps ih => exact (ih.cons (.count greedy 0)).of_iff fun xs m => goes_many_nil.symm
  | case7 p ps c cs ihlong ihshort => exact isPreferred_many ihlong ihshort
  | case8 p ps c cs ihshort ihlong => exact isPreferred_many ihlong ihshort

end RepoSurvey.Pattern
