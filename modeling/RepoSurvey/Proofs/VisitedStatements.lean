import RepoSurvey.Proofs.PythonLevels
import RepoSurvey.Proofs.SyntaxPositions

/-!
Every statement that imports is visited, however deep it stands. Nothing is left out on the way down
where tokens hold nothing and the chain of an `if` ends with its `else`.
-/

namespace RepoSurvey.Python

open SyntaxTree

variable {t c s : SyntaxTree} {ts clauses : List SyntaxTree} {l m : Level} {p : List Nat}

/-- A token holds no other nodes, and an alternative of an `if` that another one follows is an `elif`. -/
@[mk_iff]
structure SyntaxTree.Regular (t : SyntaxTree) : Prop where
  token : t.isNamed = false → t.children = []
  chain : t.kind = .ifStatement →
    (t.children.filter isAlternative).Pairwise fun c _ => c.kind = .elifClause

instance (t : SyntaxTree) : Decidable t.Regular := decidable_of_iff _ (regular_iff t).symm

/-- A visit that begins at a level comes to a node. -/
def Level.LeadsTo (l : Level) (s : SyntaxTree) : Prop :=
  ∃ m, Relation.ReflTransGen (fun l m => m ∈ l.below) l m ∧ m.node = s

namespace Level.LeadsTo

theorem here : l.LeadsTo l.node := ⟨l, .refl, rfl⟩

theorem of_below (hm : m ∈ l.below) (h : m.LeadsTo s) : l.LeadsTo s := by
  obtain ⟨n, hn, rfl⟩ := h
  exact ⟨n, .head hm hn, rfl⟩

theorem exists_below (h : l.LeadsTo s) (hne : l.node ≠ s) : ∃ m ∈ l.below, m.LeadsTo s := by
  obtain ⟨n, hn, rfl⟩ := h
  rcases hn.cases_head with rfl | ⟨m, hm, hmn⟩
  · exact absurd rfl hne
  · exact ⟨m, hm, n, hmn, rfl⟩

end Level.LeadsTo

theorem levelsOf_subset (hc : c ∈ ts) : levelsOf [c] ⊆ levelsOf ts := by
  obtain ⟨front, back, rfl⟩ := List.append_of_mem hc
  rw [levelsOf_append, levelsOf_cons c back]
  intro l hl
  exact List.mem_append_right _ (List.mem_append_left _ hl)

section

variable (himports : s.kind.importsModules = true)

include himports

theorem kind_of_importsModules : s.kind = .importStatement ∨ s.kind = .importFromStatement ∨
    s.kind = .futureImportStatement := by
  unfold NodeKind.importsModules at himports
  split at himports
  · next hkind => exact .inl hkind
  · next hkind => exact .inr (.inl hkind)
  · next hkind => exact .inr (.inr hkind)
  · cases himports

/-- A statement that imports is a level of its own and no clause of an `if`. -/
theorem stands_of_importsModules :
    s.isNamed = true ∧ s.isTransparent = false ∧ s.isAlternative = false := by
  unfold isNamed isTransparent isAlternative
  rcases kind_of_importsModules himports with hkind | hkind | hkind
  all_goals
    rw [hkind]
    exact ⟨rfl, rfl, rfl⟩

/-- Along the chain of an `if` each clause leads on to the rest, so what any of its clauses leads to is
reached. -/
theorem exists_leadsTo_ofChain (hclauses : ∀ c ∈ clauses, c.isAlternative = true)
    (hchain : clauses.Pairwise fun c _ => c.kind = .elifClause) (hc : c ∈ clauses) (hl : l ∈ levelsOf [c])
    (hls : l.LeadsTo s) : ∃ m ∈ Level.ofChain clauses, m.LeadsTo s := by
  induction clauses with
  | nil => cases hc
  | cons d rest ih =>
    rw [List.forall_mem_cons] at hclauses
    rw [List.pairwise_cons] at hchain
    have hnamed := isNamed_of_isAlternative hclauses.1
    by_cases helif : d.kind = .elifClause
    · have hbelow : (Level.mk d rest).below = levelsOf d.children ++ Level.ofChain rest :=
        below_of_elif helif
      have hsolid : d.isTransparent = false := by simp [isTransparent, helif]
      rw [ofChain_of_elif helif]
      refine ⟨⟨d, rest⟩, List.mem_singleton_self _, ?_⟩
      rcases List.mem_cons.mp hc with rfl | hc
      · -- What lies below the clause alone lies below it with the rest as well.
        have hne : c ≠ s := by
          rintro rfl
          rw [(stands_of_importsModules himports).2.2] at hclauses
          cases hclauses.1
        rw [levelsOf_of_not_transparent hnamed hsolid] at hl
        obtain rfl := List.mem_singleton.mp hl
        obtain ⟨m, hm, hms⟩ := hls.exists_below hne
        rw [below_of_ne_if (by simp [helif])] at hm
        exact .of_below (hbelow ▸ List.mem_append_left _ hm) hms
      · obtain ⟨m, hm, hms⟩ := ih hclauses.2 hchain.2 hc
        exact .of_below (hbelow ▸ List.mem_append_right _ hm) hms
    · rcases List.mem_cons.mp hc with rfl | hc
      · have hfirst : Level.ofChain (c :: rest) = levelsOf [c] := by
          simp [Level.ofChain, levelsOf, flattened.flattenedAll, helif, hnamed]
        rw [hfirst]
        exact ⟨l, hl, hls⟩
      · exact absurd (hchain.1 c hc) helif

/-- A node leads to what its children lead to. -/
theorem leadsTo_of_child (hregular : t.Regular) (hc : c ∈ t.children) (hl : l ∈ levelsOf [c])
    (hls : l.LeadsTo s) : (Level.ofNode t).LeadsTo s := by
  by_cases hif : t.kind = .ifStatement
  · have hbelow := below_of_if hif
    rw [filter_isAlternative_namedChildren] at hbelow
    -- The clauses of an `if` are visited as a chain, its other children as they stand.
    by_cases halternative : c.isAlternative = true
    · have hclause : c ∈ t.children.filter isAlternative := List.mem_filter.mpr ⟨hc, halternative⟩
      obtain ⟨m, hm, hms⟩ := exists_leadsTo_ofChain himports (fun d hd => (List.mem_filter.mp hd).2)
        (hregular.chain hif) hclause hl hls
      exact .of_below (hbelow ▸ List.mem_append_right _ hm) hms
    · have hinner : c ∈ t.children.filter (!·.isAlternative) :=
        List.mem_filter.mpr ⟨hc, by simpa using halternative⟩
      exact .of_below (hbelow ▸ List.mem_append_left _ (levelsOf_subset hinner hl)) hls
  · have hbelow := below_of_ne_if hif
    exact .of_below (hbelow ▸ levelsOf_subset hc hl) hls

/-- The levels of a tree lead to each statement in it that imports. -/
theorem exists_leadsTo (hregular : t.Throughout Regular) (hs : t.subtree? p = some s) :
    ∃ l ∈ levelsOf [t], l.LeadsTo s := by
  -- A transparent node gives its place to its children; any other has them below it.
  induction p generalizing t with
  | nil =>
    obtain rfl : t = s := Option.some.inj hs
    have hstands := stands_of_importsModules himports
    rw [levelsOf_of_not_transparent hstands.1 hstands.2.1]
    exact ⟨_, List.mem_singleton_self _, .here⟩
  | cons i p ih =>
    obtain ⟨c, hchild, hs⟩ := subtree?_cons_iff.mp hs
    have hc : c ∈ t.children := List.mem_of_getElem? hchild
    obtain ⟨l, hl, hls⟩ := ih (hregular.child hchild) hs
    have hnamed : t.isNamed = true := by
      by_contra hunnamed
      rw [hregular.here.token (by simpa using hunnamed)] at hc
      cases hc
    by_cases htransparent : t.isTransparent = true
    · rw [levelsOf_transparent htransparent]
      exact ⟨l, levelsOf_subset hc hl, hls⟩
    · rw [levelsOf_of_not_transparent hnamed (by simpa using htransparent)]
      exact ⟨_, List.mem_singleton_self _, leadsTo_of_child himports hregular.here hc hl hls⟩

/-- A visit of a tree comes to each statement in it that imports. -/
theorem leadsTo_of_subtree? (hregular : t.Throughout Regular) (hs : t.subtree? p = some s) :
    (Level.ofNode t).LeadsTo s := by
  cases p with
  | nil =>
    obtain rfl : t = s := Option.some.inj hs
    exact .here
  | cons i p =>
    obtain ⟨c, hchild, hs⟩ := subtree?_cons_iff.mp hs
    obtain ⟨l, hl, hls⟩ := exists_leadsTo himports (hregular.child hchild) hs
    exact leadsTo_of_child himports hregular.here (List.mem_of_getElem? hchild) hl hls

/-- What a statement imports is among the imports of the tree, in one piece. -/
theorem exists_visit_append (hregular : t.Throughout Regular) (hs : t.subtree? p = some s) :
    ∃ before after, visit [.ofNode t] = before ++ s.ownImports ++ after := by
  obtain ⟨m, hm, rfl⟩ := leadsTo_of_subtree? himports hregular hs
  exact isVisit_visit.exists_append (List.mem_singleton_self _) hm

end

end RepoSurvey.Python
