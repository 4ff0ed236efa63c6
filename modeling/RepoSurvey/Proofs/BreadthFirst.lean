import Mathlib

/-!
Visiting from a queue, level by level. What waits behind a node is visited before what lies below it,
so a visit is one row after the other, and two visits with the same rows are the same.
-/

namespace RepoSurvey

section

variable {α α' β : Type} {own : α → List β} {next : α → List α} {own' : α' → List β}
  {next' : α' → List α'} {size : α → Nat} {size' : α' → Nat}

/-- What the nodes at a depth below some nodes have of their own, in order. -/
def rowBelow (own : α → List β) (next : α → List α) : Nat → List α → List β
  | 0, queue => queue.flatMap own
  | depth + 1, queue => rowBelow own next depth (queue.flatMap next)

/-- A visit of the nodes in a queue: each in its turn, and what lies next to it after all that wait. -/
structure IsVisit (own : α → List β) (next : α → List α) (size : α → Nat) (visit : List α → List β) :
    Prop where
  nil : visit [] = []
  cons : ∀ a queue, visit (a :: queue) = own a ++ visit (queue ++ next a)
  smaller : ∀ a, ((next a).map size).sum < size a

namespace IsVisit

variable {visit : List α → List β} {visit' : List α' → List β}

theorem append (h : IsVisit own next size visit) (queue waiting : List α) :
    visit (queue ++ waiting) = queue.flatMap own ++ visit (waiting ++ queue.flatMap next) := by
  -- What lies next to `a` waits behind `waiting`, and so does what lies next to the rest.
  induction queue generalizing waiting with
  | nil => simp
  | cons a queue ih =>
    calc visit (a :: queue ++ waiting)
        = own a ++ visit (queue ++ (waiting ++ next a)) := by
          rw [List.cons_append, h.cons, List.append_assoc]
      _ = own a ++ (queue.flatMap own ++ visit ((waiting ++ next a) ++ queue.flatMap next)) := by
          rw [ih]
      _ = (a :: queue).flatMap own ++ visit (waiting ++ (a :: queue).flatMap next) := by
          rw [List.flatMap_cons, List.flatMap_cons, List.append_assoc, List.append_assoc]

/-- First the nodes of the queue are visited, then those one level below them. -/
theorem eq_append (h : IsVisit own next size visit) (queue : List α) :
    visit queue = queue.flatMap own ++ visit (queue.flatMap next) := by
  simpa using h.append queue []

theorem sum_flatMap_lt (h : IsVisit own next size visit) {queue : List α} (hqueue : queue ≠ []) :
    ((queue.flatMap next).map size).sum < (queue.map size).sum := by
  induction queue with
  | nil => exact absurd rfl hqueue
  | cons a queue ih =>
    have ha := h.smaller a
    have hrest : ((queue.flatMap next).map size).sum ≤ (queue.map size).sum := by
      rcases List.eq_nil_or_concat queue with rfl | ⟨_, _, rfl⟩
      · exact Nat.le_refl _
      · exact Nat.le_of_lt (ih (by simp))
    rw [List.flatMap_cons, List.map_append, List.sum_append, List.map_cons, List.sum_cons]
    omega

/-- Whatever can be reached from a node of the queue is visited. -/
theorem exists_append (h : IsVisit own next size visit) {queue : List α} {a b : α} (ha : a ∈ queue)
    (hab : Relation.ReflTransGen (fun a b => b ∈ next a) a b) :
    ∃ before after, visit queue = before ++ own b ++ after := by
  -- Each step on the way to `b` is one from a row to the next.
  induction hab using Relation.ReflTransGen.head_induction_on generalizing queue with
  | refl =>
    obtain ⟨front, back, rfl⟩ := List.append_of_mem ha
    rw [h.eq_append, List.flatMap_append, List.flatMap_cons]
    exact ⟨front.flatMap own, back.flatMap own ++ visit ((front ++ b :: back).flatMap next), by simp⟩
  | @head a c hac _ ih =>
    have hc : c ∈ queue.flatMap next := List.mem_flatMap.mpr ⟨a, ha, hac⟩
    obtain ⟨before, after, hrows⟩ := ih hc
    refine ⟨queue.flatMap own ++ before, after, ?_⟩
    rw [h.eq_append, hrows]
    simp only [List.append_assoc]

/-- A visit is made of the rows, down to any depth that is large enough. -/
theorem eq_rows (h : IsVisit own next size visit) {queue : List α} {depth : Nat}
    (hdepth : (queue.map size).sum ≤ depth) :
    visit queue = (List.range depth).flatMap fun k => rowBelow own next k queue := by
  -- Each row down lowers the size of the queue, so `depth` rows use it up.
  induction depth generalizing queue with
  | zero =>
    cases queue with
    | nil => simpa using h.nil
    | cons a queue =>
      have hpos := h.smaller a
      rw [List.map_cons, List.sum_cons] at hdepth
      omega
  | succ depth ih =>
    rw [h.eq_append, List.range_succ_eq_map, List.flatMap_cons, List.flatMap_map]
    by_cases hqueue : queue = []
    · subst hqueue
      have hnil := @ih [] (by simp)
      simpa [rowBelow] using hnil
    · have hlt := h.sum_flatMap_lt hqueue
      rw [ih (by omega)]
      rfl

/-- Two visits with the same rows are the same. -/
theorem eq_of_rows (h : IsVisit own next size visit) (h' : IsVisit own' next' size' visit')
    {queue : List α} {queue' : List α'}
    (hrows : ∀ k, rowBelow own next k queue = rowBelow own' next' k queue') :
    visit queue = visit' queue' := by
  have hleft := h.eq_rows (Nat.le_add_right (queue.map size).sum (queue'.map size').sum)
  have hright := h'.eq_rows (Nat.le_add_left (queue'.map size').sum (queue.map size).sum)
  rw [hleft, hright]
  simp only [hrows]

end IsVisit

end

end RepoSurvey
