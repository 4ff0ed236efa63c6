import Mathlib
import RepoSurvey.Python.Imports

/-!
Positions in syntax trees: which child to go to at each node on the way down. As lists they are ordered
like words in a dictionary, which is the order of a node before those below it and of siblings as they
stand. The nodes of a tree are listed in this order, each of them once.
-/

namespace RepoSurvey.Python.SyntaxTree

/-- The node at a position. -/
def subtree? : SyntaxTree → List Nat → Option SyntaxTree
  | t, [] => some t
  | t, i :: p => t.children[i]?.bind fun c => subtree? c p

/-- The nodes of a tree with their positions, each before those below it. -/
def located : SyntaxTree → List (List Nat × SyntaxTree)
  | t@(node _ _ _ _ _ _ c) => ([], t) :: locatedFrom 0 c
where
  /-- The nodes of siblings, the first of which has the given number. -/
  locatedFrom : Nat → List SyntaxTree → List (List Nat × SyntaxTree)
    | _, [] => []
    | i, t :: ts => (located t).map (fun n => (i :: n.1, n.2)) ++ locatedFrom (i + 1) ts

/-- The nodes of a tree, each before those below it and siblings in their order. -/
def nodes (t : SyntaxTree) : List SyntaxTree := t.located.map Prod.snd

/-- Something holds of all nodes of a tree. -/
def Throughout (t : SyntaxTree) (P : SyntaxTree → Prop) : Prop := ∀ p u, t.subtree? p = some u → P u

open located

variable {t u : SyntaxTree} {ts : List SyntaxTree} {p : List Nat} {i : Nat}

theorem size_le_sizes_of_mem (h : u ∈ ts) : u.size ≤ size.sizes ts := by
  induction ts with
  | nil => cases h
  | cons t ts ih =>
    rw [sizes_cons]
    rcases List.mem_cons.mp h with rfl | h
    · exact Nat.le_add_right _ _
    · have hu := ih h
      omega

/-- What holds of a tree if it holds of its children holds of every tree. -/
theorem of_children {P : SyntaxTree → Prop} (h : ∀ t, (∀ c ∈ t.children, P c) → P t) (t : SyntaxTree) :
    P t := by
  induction hn : t.size using Nat.strongRecOn generalizing t with
  | _ n ih =>
    apply h
    intro c hc
    have hsize := size_eq t
    have hle := size_le_sizes_of_mem hc
    exact ih c.size (by omega) c rfl

theorem located_eq (t : SyntaxTree) : t.located = ([], t) :: locatedFrom 0 t.children := by
  cases t
  rfl

theorem mem_locatedFrom : (p, u) ∈ locatedFrom i ts ↔
    ∃ k c q, ts[k]? = some c ∧ p = (i + k) :: q ∧ (q, u) ∈ c.located := by
  induction ts generalizing i with
  | nil => simp [locatedFrom]
  | cons t ts ih =>
    rw [locatedFrom, List.mem_append, ih]
    constructor
    · rintro (hhead | ⟨k, c, q, hc, rfl, hq⟩)
      · obtain ⟨⟨q, v⟩, hq, heq⟩ := List.mem_map.mp hhead
        obtain ⟨rfl, rfl⟩ := Prod.mk.inj heq
        exact ⟨0, t, q, rfl, rfl, hq⟩
      · exact ⟨k + 1, c, q, hc, by rw [Nat.add_right_comm, Nat.add_assoc], hq⟩
    · rintro ⟨k, c, q, hc, rfl, hq⟩
      cases k with
      | zero =>
        obtain rfl : t = c := Option.some.inj hc
        exact .inl (List.mem_map.mpr ⟨(q, u), hq, rfl⟩)
      | succ k => exact .inr ⟨k, c, q, hc, by rw [Nat.add_right_comm, Nat.add_assoc], hq⟩

/-- A node is listed with a position exactly if it stands there. -/
theorem mem_located : (p, u) ∈ t.located ↔ t.subtree? p = some u := by
  induction p generalizing t with
  | nil =>
    rw [located_eq, subtree?, List.mem_cons, Option.some_inj]
    constructor
    · rintro (heq | hbelow)
      · exact (Prod.mk.inj heq).2.symm
      · obtain ⟨k, c, q, -, hnil, -⟩ := mem_locatedFrom.mp hbelow
        cases hnil
    · rintro rfl
      exact .inl rfl
  | cons i p ih =>
    rw [located_eq, subtree?, List.mem_cons, mem_locatedFrom, Option.bind_eq_some_iff]
    constructor
    · rintro (heq | ⟨k, c, q, hc, heq, hq⟩)
      · cases heq
      · obtain ⟨rfl, rfl⟩ := List.cons.inj heq
        rw [Nat.zero_add]
        exact ⟨c, hc, ih.mp hq⟩
    · rintro ⟨c, hc, hu⟩
      exact .inr ⟨i, c, p, hc, by rw [Nat.zero_add], ih.mpr hu⟩

theorem mem_nodes : u ∈ t.nodes ↔ ∃ p, t.subtree? p = some u := by
  rw [nodes, List.mem_map]
  constructor
  · rintro ⟨⟨p, v⟩, hp, rfl⟩
    exact ⟨p, mem_located.mp hp⟩
  · rintro ⟨p, hp⟩
    exact ⟨(p, u), mem_located.mpr hp, rfl⟩

/-- The positions are listed in their order, so none is listed twice. -/
theorem pairwise_located (t : SyntaxTree) : (t.located.map Prod.fst).Pairwise (· < ·) := by
  induction t using of_children with
  | h t ih =>
    have hsiblings (i : Nat) (ts : List SyntaxTree)
        (hts : ∀ c ∈ ts, (c.located.map Prod.fst).Pairwise (· < ·)) :
        ((locatedFrom i ts).map Prod.fst).Pairwise (· < ·) := by
      induction ts generalizing i with
      | nil => exact .nil
      | cons c ts ihts =>
        rw [List.forall_mem_cons] at hts
        rw [locatedFrom, List.map_append, List.map_map, List.pairwise_append]
        refine ⟨?_, ihts (i + 1) hts.2, ?_⟩
        · have hfirst : (c.located.map (Prod.fst ∘ fun n => (i :: n.1, n.2))) =
              (c.located.map Prod.fst).map (i :: ·) := by
            rw [List.map_map]
            rfl
          rw [hfirst, List.pairwise_map]
          exact hts.1.imp fun h => List.cons_lt_cons_iff.mpr (.inr ⟨rfl, h⟩)
        · -- The positions in a later sibling begin with a larger number.
          intro p hp q hq
          obtain ⟨m, -, rfl⟩ := List.mem_map.mp hp
          obtain ⟨⟨q, v⟩, hv, rfl⟩ := List.mem_map.mp hq
          obtain ⟨k, d, q, -, rfl, -⟩ := mem_locatedFrom.mp hv
          exact List.cons_lt_cons_iff.mpr (.inl (by omega))
    rw [located_eq, List.map_cons, List.pairwise_cons]
    refine ⟨?_, hsiblings 0 t.children ih⟩
    intro q hq
    obtain ⟨⟨q, v⟩, hv, rfl⟩ := List.mem_map.mp hq
    obtain ⟨k, d, q, -, rfl, -⟩ := mem_locatedFrom.mp hv
    exact List.nil_lt_cons _ _

/-- A tree is listed before what is listed of its children. -/
theorem nodes_eq (t : SyntaxTree) : t.nodes = t :: t.children.flatMap nodes := by
  have hsiblings (i : Nat) (ts : List SyntaxTree) :
      (locatedFrom i ts).map Prod.snd = ts.flatMap nodes := by
    induction ts generalizing i with
    | nil => rfl
    | cons c ts ih =>
      rw [locatedFrom, List.map_append, List.map_map, ih]
      rfl
  rw [nodes, located_eq, List.map_cons, hsiblings]

theorem length_nodes (t : SyntaxTree) : t.nodes.length = t.size := by
  induction t using of_children with
  | h t ih =>
    have hsiblings (ts : List SyntaxTree) (hts : ∀ c ∈ ts, c.nodes.length = c.size) :
        (ts.flatMap nodes).length = size.sizes ts := by
      induction ts with
      | nil => rfl
      | cons c ts ihts =>
        rw [List.forall_mem_cons] at hts
        rw [List.flatMap_cons, List.length_append, hts.1, ihts hts.2, sizes_cons]
    rw [nodes_eq, List.length_cons, hsiblings _ ih, size_eq, Nat.add_comm]

theorem subtree?_cons_iff : t.subtree? (i :: p) = some u ↔
    ∃ c, t.children[i]? = some c ∧ c.subtree? p = some u := by
  rw [subtree?, Option.bind_eq_some_iff]

theorem throughout_iff {P : SyntaxTree → Prop} : t.Throughout P ↔ ∀ u ∈ t.nodes, P u := by
  constructor
  · intro h u hu
    obtain ⟨p, hp⟩ := mem_nodes.mp hu
    exact h p u hp
  · intro h p u hp
    exact h u (mem_nodes.mpr ⟨p, hp⟩)

theorem Throughout.here {P : SyntaxTree → Prop} (h : t.Throughout P) : P t := h [] t rfl

theorem Throughout.child {P : SyntaxTree → Prop} (h : t.Throughout P) {c : SyntaxTree}
    (hc : t.children[i]? = some c) : c.Throughout P := by
  intro p u hu
  exact h (i :: p) u (subtree?_cons_iff.mpr ⟨c, hc, hu⟩)

end RepoSurvey.Python.SyntaxTree
