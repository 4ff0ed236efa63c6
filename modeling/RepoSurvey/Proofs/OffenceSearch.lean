import RepoSurvey.Proofs.SyntaxPositions

/-!
The search for an offending node. It takes nodes off a stack and puts their children in their place, so
it goes through the nodes of a tree in the order of their positions, and stops at the first one that
offends.
-/

namespace RepoSurvey.Python.SyntaxTree

variable {t : SyntaxTree}

/-- The first offending node is the first one in the list of the nodes. -/
theorem firstOffence_eq_find (t : SyntaxTree) : t.firstOffence = t.nodes.find? isOffence := by
  induction t using of_children with
  | h t ih =>
    have hamong (ts : List SyntaxTree) (hts : ∀ c ∈ ts, c.firstOffence = c.nodes.find? isOffence) :
        firstOffence.firstOffenceAmong ts = (ts.flatMap nodes).find? isOffence := by
      induction ts with
      | nil => rfl
      | cons c ts ihts =>
        rw [List.forall_mem_cons] at hts
        rw [firstOffence.firstOffenceAmong, List.flatMap_cons, List.find?_append, hts.1, ihts hts.2]
    have hunfold : t.firstOffence =
        if t.isOffence then some t else firstOffence.firstOffenceAmong t.children := by
      cases t
      rfl
    rw [hunfold, nodes_eq, List.find?_cons, hamong _ ih]
    split
    · next h => rw [h]
    · next h => rw [Bool.eq_false_iff.mpr h]

/-! ### One step -/

/-- With the children of a node in its place, all that is still to come but the node itself is there. -/
theorem flatMap_nodes_cons (t : SyntaxTree) (stack : List SyntaxTree) :
    (t :: stack).flatMap nodes = t :: (pushAll stack t.children).flatMap nodes := by
  rw [pushAll_eq, List.flatMap_append, List.flatMap_cons, nodes_eq, List.cons_append]

theorem search_of_isOffence (h : t.isOffence = true) (stack : List SyntaxTree) :
    search (t :: stack) = some t := by
  rw [search, if_pos h]

theorem search_of_not_isOffence (h : ¬ t.isOffence = true) (stack : List SyntaxTree) :
    search (t :: stack) = search (pushAll stack t.children) := by
  rw [search, if_neg h]

/-! ### A whole search -/

theorem search_eq_find (stack : List SyntaxTree) :
    search stack = (stack.flatMap nodes).find? isOffence := by
  -- A step takes off the first node that is still to come and leaves the others in their order.
  induction stack using search.induct with
  | case1 => rw [search, List.flatMap_nil, List.find?_nil]
  | case2 t stack h => rw [search_of_isOffence h, flatMap_nodes_cons, List.find?_cons_of_pos h]
  | case3 t stack h ih =>
    rw [search_of_not_isOffence h, flatMap_nodes_cons, List.find?_cons_of_neg h, ih]

theorem search_singleton (t : SyntaxTree) : search [t] = t.firstOffence := by
  rw [search_eq_find, firstOffence_eq_find, List.flatMap_singleton]

/-- The nodes that a search takes off the stack, one after the other. -/
def inspected : List SyntaxTree → List SyntaxTree
  | [] => []
  | t :: stack => t :: if t.isOffence then [] else inspected (pushAll stack t.children)
termination_by stack => size.sizes stack
decreasing_by
  have h := size_eq t
  rw [pushAll_eq, sizes_append, sizes_cons]
  omega

/-- A search finds what offends among the nodes that it takes off. -/
theorem search_eq_find_inspected (stack : List SyntaxTree) :
    search stack = (inspected stack).find? isOffence := by
  induction stack using search.induct with
  | case1 => rw [search, inspected, List.find?_nil]
  | case2 t stack h => rw [search_of_isOffence h, inspected, List.find?_cons_of_pos h]
  | case3 t stack h ih =>
    rw [search_of_not_isOffence h, inspected, if_neg h, List.find?_cons_of_neg h, ih]

/-- What a search takes off is the beginning of what was to come. -/
theorem exists_inspected_append (stack : List SyntaxTree) :
    ∃ rest, stack.flatMap nodes = inspected stack ++ rest := by
  induction stack using search.induct with
  | case1 => exact ⟨[], by rw [inspected, List.flatMap_nil, List.append_nil]⟩
  | case2 t stack h =>
    refine ⟨(pushAll stack t.children).flatMap nodes, ?_⟩
    rw [inspected, if_pos h, flatMap_nodes_cons, List.singleton_append]
  | case3 t stack h ih =>
    obtain ⟨rest, hrest⟩ := ih
    refine ⟨rest, ?_⟩
    rw [inspected, if_neg h, flatMap_nodes_cons, hrest, List.cons_append]

/-- A search ends after at most as many steps as there are nodes. -/
theorem length_inspected_le (t : SyntaxTree) : (inspected [t]).length ≤ t.size := by
  obtain ⟨rest, hrest⟩ := exists_inspected_append [t]
  rw [List.flatMap_singleton] at hrest
  rw [← length_nodes, hrest, List.length_append]
  exact Nat.le_add_right _ _

/-- No node is taken off twice: the positions only grow. -/
theorem exists_positions_inspected (t : SyntaxTree) : ∃ ps : List (List Nat), ps.Pairwise (· < ·) ∧
    List.Forall₂ (fun p u => t.subtree? p = some u) ps (inspected [t]) := by
  obtain ⟨rest, hrest⟩ := exists_inspected_append [t]
  rw [List.flatMap_singleton] at hrest
  let taken := t.located.take (inspected [t]).length
  have hinspected : inspected [t] = taken.map Prod.snd := by
    rw [List.map_take, ← nodes, hrest, List.take_left]
  refine ⟨taken.map Prod.fst, ?_, ?_⟩
  · rw [List.map_take]
    exact (pairwise_located t).take
  · rw [hinspected, List.forall₂_map_left_iff, List.forall₂_map_right_iff, List.forall₂_same]
    intro n hn
    exact mem_located.mp (List.mem_of_mem_take hn)

end RepoSurvey.Python.SyntaxTree
