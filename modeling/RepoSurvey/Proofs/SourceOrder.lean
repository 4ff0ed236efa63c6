import RepoSurvey.Proofs.Python2Forms

/-!
Nodes in the order of the source. Where a node begins before it ends, holds its children, and each child
ends before the next one begins, the order of positions is the order of places, so that what is found
first in a tree stands first in the source.
-/

namespace RepoSurvey

/-- A place as it is reported, in the order of lines and within a line in that of columns. -/
def Place.lineColumn (p : Place) : Nat ×ₗ Nat := toLex (p.line, p.column)

namespace Python

namespace SyntaxTree

/-- A node begins before it ends, its children stand within it, and none reaches into the next. -/
@[mk_iff]
structure Fits (t : SyntaxTree) : Prop where
  range : t.start.lineColumn ≤ t.stop.lineColumn
  inside : ∀ c ∈ t.children,
    t.start.lineColumn ≤ c.start.lineColumn ∧ c.stop.lineColumn ≤ t.stop.lineColumn
  apart : t.children.Pairwise fun c d => c.stop.lineColumn ≤ d.start.lineColumn

instance (t : SyntaxTree) : Decidable t.Fits := decidable_of_iff _ (fits_iff t).symm

variable {t u v : SyntaxTree} {p q : List Nat}

/-- Whatever stands in a tree stands within its range. -/
theorem within (h : t.Throughout Fits) (hu : t.subtree? p = some u) :
    t.start.lineColumn ≤ u.start.lineColumn ∧ u.stop.lineColumn ≤ t.stop.lineColumn := by
  induction p generalizing t with
  | nil =>
    obtain rfl : t = u := Option.some.inj hu
    exact ⟨le_rfl, le_rfl⟩
  | cons i p ih =>
    obtain ⟨c, hc, hu⟩ := subtree?_cons_iff.mp hu
    have hinside := h.here.inside c (List.mem_of_getElem? hc)
    have hbelow := ih (h.child hc) hu
    exact ⟨hinside.1.trans hbelow.1, hbelow.2.trans hinside.2⟩

/-- What stands at an earlier position does not begin later. -/
theorem start_le_start (h : t.Throughout Fits) (hu : t.subtree? p = some u) (hv : t.subtree? q = some v)
    (hpq : p < q) : u.start.lineColumn ≤ v.start.lineColumn := by
  induction p generalizing t q with
  | nil =>
    obtain rfl : t = u := Option.some.inj hu
    exact (within h hv).1
  | cons i p ih =>
    cases q with
    | nil => cases hpq
    | cons j q =>
      obtain ⟨c, hc, hu⟩ := subtree?_cons_iff.mp hu
      obtain ⟨d, hd, hv⟩ := subtree?_cons_iff.mp hv
      rcases List.cons_lt_cons_iff.mp hpq with hij | ⟨rfl, hbelow⟩
      · -- The first node lies in an earlier child, which ends before that of the other begins.
        have hfirst : u.start.lineColumn ≤ u.stop.lineColumn := ((h.child hc) p u hu).range
        have hends : u.stop.lineColumn ≤ c.stop.lineColumn := (within (h.child hc) hu).2
        have hapart : c.stop.lineColumn ≤ d.start.lineColumn := by
          obtain ⟨hi, rfl⟩ := List.getElem?_eq_some_iff.mp hc
          obtain ⟨hj, rfl⟩ := List.getElem?_eq_some_iff.mp hd
          exact List.pairwise_iff_getElem.mp h.here.apart i j hi hj hij
        have hbegins : d.start.lineColumn ≤ v.start.lineColumn := (within (h.child hd) hv).1
        calc u.start.lineColumn ≤ u.stop.lineColumn := hfirst
          _ ≤ c.stop.lineColumn := hends
          _ ≤ d.start.lineColumn := hapart
          _ ≤ v.start.lineColumn := hbegins
      · obtain rfl : c = d := Option.some.inj (hc.symm.trans hd)
        exact ih (h.child hc) hu hv hbelow

/-- What a search finds offends, and everything else that offends stands at a later position. -/
theorem exists_first_of_search (h : search [t] = some u) : ∃ p, t.subtree? p = some u ∧ u.Offends ∧
    ∀ q v, t.subtree? q = some v → v.Offends → q ≠ p → p < q := by
  -- Nothing before the node that is found offends, and what is listed after it has a later position.
  rw [search_eq_find, List.flatMap_singleton, nodes, List.find?_map, Option.map_eq_some_iff] at h
  obtain ⟨⟨p, u⟩, hfind, rfl⟩ := h
  obtain ⟨hoffence, before, after, hlocated, hbefore⟩ := List.find?_eq_some_iff_append.mp hfind
  have hp : (p, u) ∈ t.located := by
    rw [hlocated]
    exact List.mem_append_right _ List.mem_cons_self
  refine ⟨p, mem_located.mp hp, isOffence_iff.mp hoffence, ?_⟩
  intro q v hv hoffends hne
  have hq : (q, v) ∈ t.located := mem_located.mpr hv
  have hsorted := pairwise_located t
  rw [hlocated] at hq hsorted
  rw [List.map_append, List.map_cons] at hsorted
  rcases List.mem_append.mp hq with hq | hq
  · have hclean := hbefore (q, v) hq
    exact absurd (isOffence_iff.mpr hoffends) (by simpa using hclean)
  · rcases List.mem_cons.mp hq with heq | hq
    · exact absurd (Prod.mk.inj heq).1 hne
    · have hlater := (List.pairwise_append.mp hsorted).2.1
      exact List.rel_of_pairwise_cons hlater (List.mem_map_of_mem hq)

/-- Either a tree gives its imports, and no node of it offends, or it gives the place of the first
offending node, before which no other begins. The search for this node takes each node off its stack at
most once. -/
theorem imports_all_or_first_offence (h : t.Throughout Fits) :
    ((∃ names, t.imports = .ok names) ↔ ∀ p u, t.subtree? p = some u → ¬ u.Offends) ∧
      (∀ p u, t.subtree? p = some u → u.Offends → ∃ q v, t.subtree? q = some v ∧ v.Offends ∧
        t.imports = .error ⟨v.start.line + 1, v.start.column + 1⟩ ∧
        ∀ r w, t.subtree? r = some w → w.Offends →
          (r ≠ q → q < r) ∧ v.start.lineColumn ≤ w.start.lineColumn) ∧
      search [t] = (inspected [t]).find? isOffence ∧ (inspected [t]).length ≤ t.size ∧
      ∃ ps : List (List Nat), ps.Pairwise (· < ·) ∧
        List.Forall₂ (fun p u => t.subtree? p = some u) ps (inspected [t]) := by
  refine ⟨imports_ok_iff, ?_, search_eq_find_inspected [t], length_inspected_le t,
    exists_positions_inspected t⟩
  intro p u hu hoffends
  obtain ⟨v, hv⟩ : ∃ v, search [t] = some v := by
    rw [← Option.ne_none_iff_exists', search_singleton]
    intro hclean
    exact firstOffence_eq_none_iff.mp hclean p u hu hoffends
  obtain ⟨q, hq, hfirst, hlater⟩ := exists_first_of_search hv
  refine ⟨q, v, hq, hfirst, by rw [imports, hv], ?_⟩
  intro r w hr hw
  refine ⟨hlater r w hr hw, ?_⟩
  by_cases hrq : r = q
  · subst hrq
    obtain rfl : v = w := Option.some.inj (hq.symm.trans hr)
    exact le_rfl
  · exact start_le_start h hq hr (hlater r w hr hw hrq)

end SyntaxTree

/-- A node of the source `import os`, `print x`, `y = 0777`, on the line with a number. -/
def onLine (line first last : Nat) (kind : NodeKind) (text : String) (children : List SyntaxTree) :
    SyntaxTree :=
  let offset := [0, 10, 18].getD line 0
  .node kind .other false ⟨offset + first, offset + first, line, first⟩
    ⟨offset + last, offset + last, line, last⟩ text children

/-- The tree of `import os`, `print x`, `y = 0777` on three lines. -/
def earlyPrint : SyntaxTree :=
  .node .module .other false .start ⟨27, 27, 3, 0⟩ ""
    [onLine 0 0 9 .importStatement ""
      [onLine 0 0 6 (.token "import") "import" [],
        (onLine 0 7 9 .dottedName "" [onLine 0 7 9 .identifier "os" []]).withRole .name],
      onLine 1 0 7 .printStatement ""
        [onLine 1 0 5 (.token "print") "print" [], onLine 1 6 7 .identifier "x" []],
      onLine 2 0 8 (.other "expression_statement") ""
        [onLine 2 0 8 (.other "assignment") ""
          [onLine 2 0 1 .identifier "y" [], onLine 2 2 3 (.token "=") "=" [],
            onLine 2 4 8 .integer "0777" []]]]

theorem fits_earlyPrint : earlyPrint.Throughout SyntaxTree.Fits :=
  SyntaxTree.throughout_iff.mpr (by decide)

/-- The number on the third line offends as well, but the second line is reported. -/
theorem imports_of_earlyPrint : earlyPrint.Throughout SyntaxTree.Fits ∧
    (∃ u, earlyPrint.subtree? [2, 0, 2] = some u ∧ u.Offends) ∧
    earlyPrint.imports = .error ⟨2, 1⟩ ∧
    ∀ r w, earlyPrint.subtree? r = some w → w.Offends → toLex (1, 0) ≤ w.start.lineColumn := by
  have hnumber : SyntaxTree.Offends (onLine 2 4 8 .integer "0777" []) :=
    SyntaxTree.isOffence_iff.mp (by decide)
  obtain ⟨q, v, -, -, hreported, hfirst⟩ :=
    (SyntaxTree.imports_all_or_first_offence fits_earlyPrint).2.1 [2, 0, 2] _ rfl hnumber
  have himports : earlyPrint.imports = .error ⟨2, 1⟩ := by
    rw [SyntaxTree.imports, SyntaxTree.search_singleton]
    rfl
  refine ⟨fits_earlyPrint, ⟨_, rfl, hnumber⟩, himports, ?_⟩
  intro r w hr hw
  have hplace : v.start.lineColumn = toLex (1, 0) := by
    rw [himports, Except.error.injEq, SyntaxError.mk.injEq] at hreported
    obtain ⟨hline, hcolumn⟩ := hreported
    rw [Place.lineColumn, ← Nat.succ.inj hline, ← Nat.succ.inj hcolumn]
  rw [← hplace]
  exact (hfirst r w hr hw).2

end Python

end RepoSurvey
