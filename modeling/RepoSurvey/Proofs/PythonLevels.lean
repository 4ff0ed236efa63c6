import RepoSurvey.Proofs.BreadthFirst
import RepoSurvey.Proofs.PythonSyntax

/-!
The levels of a syntax tree are those of the abstract syntax that it shows. Wherever the tree has a node
more than the abstract syntax, a comment, an expression or a decorator, nothing is imported below it.
-/

namespace RepoSurvey.Python

open SyntaxTree

section names

variable {t : SyntaxTree} {n : DottedName}

theorem text_of_showsPart {p : NamePart} (h : ShowsPart t p) : t.text = p.text := by
  cases h <;> rfl

theorem texts_of_showsParts {ts : List SyntaxTree} (h : List.Forall₂ ShowsPart ts n) :
    ts.map SyntaxTree.text = n.map NamePart.text := by
  induction h with
  | nil => rfl
  | cons hp _ ih => rw [List.map_cons, List.map_cons, text_of_showsPart hp, ih]

theorem dottedText_of_showsName (h : ShowsName t n) : t.dottedText = some n.joined := by
  have htexts := texts_of_showsParts h.parts
  unfold dottedText
  rw [h.kind]
  dsimp only
  split
  · next hnil =>
    rw [hnil] at htexts
    exact absurd (List.map_eq_nil_iff.mp htexts.symm) h.ne_nil
  · rw [htexts]
    rfl

theorem imported_of_showsImported (h : ShowsImported t n) :
    (match t.kind with
      | .aliasedImport => (t.children.find? (·.role == .name)).bind dottedText
      | _ => t.dottedText) = some n.joined := by
  cases h with
  | plain h =>
    rw [h.kind]
    exact dottedText_of_showsName h
  | aliased hkind hname h =>
    rw [hkind]
    dsimp only
    rw [hname]
    exact dottedText_of_showsName h

theorem filterMap_eq_map_of_forall₂ {α β γ : Type} {R : α → β → Prop} {f : α → Option γ} {g : β → γ}
    {l : List α} {m : List β} (hR : ∀ a b, R a b → f a = some (g b)) (h : List.Forall₂ R l m) :
    l.filterMap f = m.map g := by
  induction h with
  | nil => rfl
  | cons hab _ ih => rw [List.filterMap_cons_some (hR _ _ hab), List.map_cons, ih]

/-- The names that an `import` brings are those that its tree shows. -/
theorem importedNames_eq {names : List DottedName}
    (h : List.Forall₂ ShowsImported (t.children.filter (·.role == .name)) names) :
    t.importedNames = names.map DottedName.joined := by
  unfold importedNames
  exact filterMap_eq_map_of_forall₂ (fun _ _ => imported_of_showsImported) h

theorem fromModule_eq {m : SyntaxTree} {source : Option DottedName}
    (hmodule : t.children.find? (·.role == .moduleName) = some m) (h : ShowsSource m source) :
    t.fromModule = source.map DottedName.joined := by
  unfold fromModule
  rw [hmodule]
  cases h with
  | absolute h =>
    rw [Option.bind_some, h.kind]
    exact dottedText_of_showsName h
  | relative hkind hname h =>
    rw [Option.bind_some, hkind]
    dsimp only
    rw [hname]
    exact dottedText_of_showsName h
  | bare hkind hname =>
    rw [Option.bind_some, hkind]
    dsimp only
    rw [hname]
    rfl

end names

section free

variable {t : SyntaxTree} {ts : List SyntaxTree}

theorem areImportFree_iff : isImportFree.areImportFree ts = true ↔ ∀ t ∈ ts, t.isImportFree = true := by
  induction ts with
  | nil => simp [isImportFree.areImportFree]
  | cons t ts ih => simp [isImportFree.areImportFree, ih]

theorem isImportFree_iff : t.isImportFree = true ↔
    t.kind.importsModules = false ∧ ∀ c ∈ t.children, c.isImportFree = true := by
  obtain ⟨kind, role, missing, start, stop, text, children⟩ := t
  rw [isImportFree, Bool.and_eq_true, areImportFree_iff, Bool.not_eq_true']
  rfl

theorem ownImports_eq_nil (h : t.kind.importsModules = false) : t.ownImports = [] := by
  unfold ownImports
  cases hkind : t.kind <;> first | rfl | (rw [hkind] at h; cases h)

mutual

theorem isImportFree_flattened (t : SyntaxTree) (h : t.isImportFree = true) :
    ∀ u ∈ t.flattened, u.isImportFree = true := by
  match t with
  | .node kind role missing start stop text children =>
    rw [flattened]
    split
    · exact isImportFree_flattenedAll children fun c hc => (isImportFree_iff.mp h).2 c hc
    · intro u hu
      obtain rfl := List.mem_singleton.mp hu
      exact h

theorem isImportFree_flattenedAll (ts : List SyntaxTree) (h : ∀ t ∈ ts, t.isImportFree = true) :
    ∀ u ∈ flattened.flattenedAll ts, u.isImportFree = true := by
  match ts with
  | [] => simp [flattened.flattenedAll]
  | t :: ts =>
    intro u hu
    rw [flattened.flattenedAll, List.mem_append] at hu
    rcases hu with hu | hu
    · split at hu
      · exact isImportFree_flattened t (h t List.mem_cons_self) u hu
      · cases hu
    · exact isImportFree_flattenedAll ts (fun t ht => h t (List.mem_cons_of_mem _ ht)) u hu

end

end free

/-- Nothing is imported in a level or below it. -/
def Level.IsImportFree (l : Level) : Prop :=
  l.node.isImportFree = true ∧ ∀ t ∈ l.alternatives, t.isImportFree = true

theorem Level.isImportFree_ofNode {t : SyntaxTree} (h : t.isImportFree = true) :
    (ofNode t).IsImportFree := ⟨h, by simp [ofNode]⟩

theorem Level.isImportFree_ofChain {clauses : List SyntaxTree}
    (h : ∀ t ∈ clauses, t.isImportFree = true) : ∀ l ∈ ofChain clauses, l.IsImportFree := by
  cases clauses with
  | nil => simp [ofChain]
  | cons t ts =>
    have ht := h t List.mem_cons_self
    intro l hl
    rw [ofChain] at hl
    split at hl
    · obtain rfl := List.mem_singleton.mp hl
      exact ⟨ht, fun u hu => h u (List.mem_cons_of_mem t hu)⟩
    · obtain ⟨u, hu, rfl⟩ := List.mem_map.mp hl
      exact isImportFree_ofNode (isImportFree_flattened t ht u hu)

theorem Level.IsImportFree.below {l : Level} (h : l.IsImportFree) :
    ∀ m ∈ l.below, m.IsImportFree := by
  have hchildren : ∀ c ∈ l.node.namedChildren, c.isImportFree = true := fun c hc =>
    (isImportFree_iff.mp h.1).2 c (List.mem_filter.mp hc).1
  intro m hm
  unfold Level.below at hm
  rcases List.mem_append.mp hm with hm | hm
  · obtain ⟨t, ht, rfl⟩ := List.mem_map.mp hm
    refine isImportFree_ofNode (isImportFree_flattenedAll _ ?_ t ht)
    intro c hc
    split at hc
    · exact hchildren c (List.mem_filter.mp hc).1
    · exact hchildren c hc
  · refine isImportFree_ofChain ?_ m hm
    intro c hc
    split at hc
    · exact h.2 c hc
    · split at hc
      · exact hchildren c (List.mem_filter.mp hc).1
      · cases hc

/-- Levels show nodes of the abstract syntax: a level imports what its node imports, and what lies below
it shows what lies in the fields of the node. Levels without imports may stand among the others, and
simple statements may go without a level. -/
inductive Matches : List Level → List Ast → Prop where
  | nil : Matches [] []
  | free {l : Level} {ls : List Level} {nodes : List Ast} (hfree : l.IsImportFree)
      (h : Matches ls nodes) : Matches (l :: ls) nodes
  | simple {ls : List Level} {nodes : List Ast} (h : Matches ls nodes) : Matches ls (.simple :: nodes)
  | node {l : Level} {ls : List Level} {a : Ast} {nodes : List Ast}
      (hown : l.node.ownImports = a.names.map DottedName.joined)
      (hbelow : Matches l.below a.children) (h : Matches ls nodes) : Matches (l :: ls) (a :: nodes)

namespace Matches

variable {ls ms : List Level} {nodes more : List Ast}

theorem of_free (hfree : ∀ l ∈ ls, l.IsImportFree) : Matches ls [] := by
  induction ls with
  | nil => exact .nil
  | cons l ls ih =>
    exact .free (hfree l List.mem_cons_self) (ih fun m hm => hfree m (List.mem_cons_of_mem l hm))

theorem append (h : Matches ls nodes) (h' : Matches ms more) :
    Matches (ls ++ ms) (nodes ++ more) := by
  induction h with
  | nil => exact h'
  | free hfree _ ih => exact .free hfree ih
  | simple _ ih => exact .simple ih
  | node hown hbelow _ _ ih => exact .node hown hbelow ih

theorem exists_split (h : Matches (ls ++ ms) nodes) :
    ∃ before after, nodes = before ++ after ∧ Matches ls before ∧ Matches ms after := by
  generalize hq : ls ++ ms = queue at h
  induction h generalizing ls with
  | nil =>
    obtain ⟨rfl, rfl⟩ := List.append_eq_nil_iff.mp hq
    exact ⟨[], [], rfl, .nil, .nil⟩
  | @free l queue nodes hfree h ih =>
    cases ls with
    | nil =>
      obtain rfl : ms = l :: queue := hq
      exact ⟨[], nodes, rfl, .nil, .free hfree h⟩
    | cons l' ls =>
      obtain ⟨rfl, hrest⟩ := List.cons.inj hq
      obtain ⟨before, after, rfl, hbefore, hafter⟩ := ih hrest
      exact ⟨before, after, rfl, .free hfree hbefore, hafter⟩
  | simple _ ih =>
    obtain ⟨before, after, rfl, hbefore, hafter⟩ := ih hq
    exact ⟨.simple :: before, after, rfl, .simple hbefore, hafter⟩
  | @node l queue a nodes hown hbelow h _ ih =>
    cases ls with
    | nil =>
      obtain rfl : ms = l :: queue := hq
      exact ⟨[], a :: nodes, rfl, .nil, .node hown hbelow h⟩
    | cons l' ls =>
      obtain ⟨rfl, hrest⟩ := List.cons.inj hq
      obtain ⟨before, after, rfl, hbefore, hafter⟩ := ih hrest
      exact ⟨a :: before, after, rfl, .node hown hbelow hbefore, hafter⟩

/-- The levels import what the nodes import. -/
theorem flatMap_own (h : Matches ls nodes) :
    ls.flatMap (fun l => l.node.ownImports) =
      nodes.flatMap fun a => a.names.map DottedName.joined := by
  induction h with
  | nil => rfl
  | free hfree _ ih =>
    rw [List.flatMap_cons, ownImports_eq_nil (isImportFree_iff.mp hfree.1).1, List.nil_append, ih]
  | simple _ ih => exact ih
  | node hown _ _ _ ih => rw [List.flatMap_cons, List.flatMap_cons, hown, ih]

/-- One level below, the levels show the nodes one level below. -/
theorem flatMap_below (h : Matches ls nodes) :
    Matches (ls.flatMap Level.below) (nodes.flatMap Ast.children) := by
  induction h with
  | nil => exact .nil
  | free hfree _ ih =>
    rw [List.flatMap_cons]
    exact (of_free hfree.below).append ih
  | simple _ ih => exact ih
  | node _ hbelow _ _ ih =>
    rw [List.flatMap_cons, List.flatMap_cons]
    exact hbelow.append ih

theorem rowBelow_eq (h : Matches ls nodes) (depth : Nat) :
    rowBelow (fun l => l.node.ownImports) Level.below depth ls =
      rowBelow (fun a => a.names.map DottedName.joined) Ast.children depth nodes := by
  induction depth generalizing ls nodes with
  | zero => exact h.flatMap_own
  | succ depth ih => exact ih h.flatMap_below

end Matches

theorem Level.sizes_eq_sum (ls : List Level) : sizes ls = (ls.map size).sum := by
  induction ls with
  | nil => rfl
  | cons l ls ih => rw [sizes, ih, List.map_cons, List.sum_cons]

theorem isVisit_visit : IsVisit (fun l => l.node.ownImports) Level.below Level.size visit where
  nil := by rw [visit]
  cons l queue := by rw [visit]
  smaller l := by
    rw [← Level.sizes_eq_sum]
    exact Level.sizes_below_lt l

theorem isVisit_walk : IsVisit (fun a : Ast => a.names.map DottedName.joined) Ast.children sizeOf
    fun nodes => (Ast.walk nodes).map DottedName.joined where
  nil := by rw [Ast.walk, List.map_nil]
  cons a queue := by rw [Ast.walk, List.map_append]
  smaller := Ast.sum_sizeOf_children_lt

/-- A visit of levels finds the names that a walk through the nodes finds. -/
theorem Matches.visit_eq {ls : List Level} {nodes : List Ast} (h : Matches ls nodes) :
    visit ls = (Ast.walk nodes).map DottedName.joined :=
  isVisit_visit.eq_of_rows isVisit_walk h.rowBelow_eq

/-- Trees as part of a level. -/
def levelsOf (ts : List SyntaxTree) : List Level := (flattened.flattenedAll ts).map .ofNode

section levelsOf

variable {t : SyntaxTree} {ts parts : List SyntaxTree} {nodes : List Ast}

theorem levelsOf_cons (t : SyntaxTree) (ts : List SyntaxTree) :
    levelsOf (t :: ts) = levelsOf [t] ++ levelsOf ts := by
  simp [levelsOf, flattened.flattenedAll]

theorem levelsOf_append (ts us : List SyntaxTree) :
    levelsOf (ts ++ us) = levelsOf ts ++ levelsOf us := by
  induction ts with
  | nil => rfl
  | cons t ts ih => rw [List.cons_append, levelsOf_cons, ih, levelsOf_cons t ts, List.append_assoc]

/-- Nodes without a name are no part of a level. -/
theorem levelsOf_filter_isNamed (p : SyntaxTree → Bool) (ts : List SyntaxTree) :
    levelsOf ((ts.filter isNamed).filter p) = levelsOf (ts.filter p) := by
  induction ts with
  | nil => rfl
  | cons t ts ih =>
    by_cases hnamed : t.isNamed = true
    · rw [List.filter_cons_of_pos hnamed]
      by_cases hp : p t = true
      · rw [List.filter_cons_of_pos hp, List.filter_cons_of_pos hp, levelsOf_cons, ih,
          levelsOf_cons t (ts.filter p)]
      · rw [List.filter_cons_of_neg hp, List.filter_cons_of_neg hp, ih]
    · have hnone : levelsOf [t] = [] := by simp [levelsOf, flattened.flattenedAll, hnamed]
      rw [List.filter_cons_of_neg hnamed, ih]
      by_cases hp : p t = true
      · rw [List.filter_cons_of_pos hp, levelsOf_cons, hnone, List.nil_append]
      · rw [List.filter_cons_of_neg hp]

theorem levelsOf_namedChildren (t : SyntaxTree) : levelsOf t.namedChildren = levelsOf t.children := by
  simpa [namedChildren] using levelsOf_filter_isNamed (fun _ => true) t.children

theorem levelsOf_transparent (h : t.isTransparent = true) : levelsOf [t] = levelsOf t.children := by
  obtain ⟨kind, role, missing, start, stop, text, children⟩ := t
  have hnamed : (node kind role missing start stop text children).isNamed = true := by
    cases kind <;> first | rfl | cases h
  simp [levelsOf, flattened.flattenedAll, flattened, hnamed, h, SyntaxTree.children]

theorem levelsOf_of_not_transparent (hnamed : t.isNamed = true) (h : t.isTransparent = false) :
    levelsOf [t] = [.ofNode t] := by
  obtain ⟨kind, role, missing, start, stop, text, children⟩ := t
  simp [levelsOf, flattened.flattenedAll, flattened, hnamed, h]

theorem isImportFree_levelsOf (h : ∀ t ∈ ts, t.isImportFree = true) :
    ∀ l ∈ levelsOf ts, l.IsImportFree := by
  intro l hl
  obtain ⟨u, hu, rfl⟩ := List.mem_map.mp hl
  exact Level.isImportFree_ofNode (isImportFree_flattenedAll ts h u hu)

/-- What the parts show, the children of which they are parts show as well. -/
theorem SyntaxTree.Amid.matches (h : Amid parts ts) (hparts : Matches (levelsOf parts) nodes) :
    Matches (levelsOf ts) nodes := by
  induction h generalizing nodes with
  | nil => exact hparts
  | other hfree _ _ ih =>
    rw [levelsOf_cons]
    exact (Matches.of_free (isImportFree_levelsOf (by simpa using hfree))).append (ih hparts)
  | part _ ih =>
    rw [levelsOf_cons] at hparts ⊢
    obtain ⟨before, after, rfl, hbefore, hafter⟩ := hparts.exists_split
    exact hbefore.append (ih hafter)

theorem SyntaxTree.Amid.filter_not_isAlternative (h : Amid parts ts) :
    Amid (parts.filter (!·.isAlternative)) (ts.filter (!·.isAlternative)) := by
  induction h with
  | nil => exact .nil
  | @other t parts ts hfree hkind _ ih =>
    rw [List.filter_cons]
    split
    · exact .other hfree hkind ih
    · exact ih
  | @part t parts ts _ ih =>
    rw [List.filter_cons, List.filter_cons]
    split
    · exact .part ih
    · exact ih

theorem SyntaxTree.Amid.filter_isAlternative (h : Amid parts ts) :
    ts.filter isAlternative = parts.filter isAlternative := by
  induction h with
  | nil => rfl
  | @other t parts ts _ hkind _ ih =>
    have hnot : ¬ t.isAlternative = true := by
      unfold isAlternative
      split
      · next heq => simp [heq, NodeKind.isClause] at hkind
      · next heq => simp [heq, NodeKind.isClause] at hkind
      · simp
    rw [List.filter_cons_of_neg hnot, ih]
  | @part t parts ts _ ih => rw [List.filter_cons, List.filter_cons, ih]

end levelsOf

section below

variable {t : SyntaxTree} {rest : List SyntaxTree} {body otherwise : List Ast}

/-- Whether nodes of a kind are levels of their own with nothing but their children below. -/
def NodeKind.standsAlone : NodeKind → Bool
  | module | importStatement | importFromStatement | futureImportStatement | exceptClause | caseClause
  | other _ => true
  | _ => false

/-- Below a node that is no `if` there are its children. -/
theorem below_of_ne_if (h : t.kind ≠ .ifStatement) : (Level.ofNode t).below = levelsOf t.children := by
  rw [← levelsOf_namedChildren]
  simp [Level.below, Level.ofNode, h, Level.ofChain, levelsOf]

/-- A tree that stands alone shows a node if its children show the fields of the node. -/
theorem matches_of_standsAlone {a : Ast} (h : t.kind.standsAlone = true)
    (hown : t.ownImports = a.names.map DottedName.joined)
    (hchildren : Matches (levelsOf t.children) a.children) : Matches (levelsOf [t]) [a] := by
  have hnamed : t.isNamed = true := by
    unfold isNamed
    cases hkind : t.kind <;> first | rfl | (rw [hkind] at h; cases h)
  have hsolid : t.isTransparent = false := by
    unfold isTransparent
    cases hkind : t.kind <;> first | rfl | (rw [hkind] at h; cases h)
  have hif : t.kind ≠ .ifStatement := by
    intro hkind
    rw [hkind] at h
    cases h
  rw [levelsOf_of_not_transparent hnamed hsolid]
  refine .node hown ?_ .nil
  rw [below_of_ne_if hif]
  exact hchildren

theorem below_of_if (h : t.kind = .ifStatement) :
    (Level.ofNode t).below = levelsOf (t.children.filter (!·.isAlternative)) ++
      Level.ofChain (t.namedChildren.filter isAlternative) := by
  rw [← levelsOf_filter_isNamed]
  simp [Level.below, Level.ofNode, h, levelsOf, namedChildren]

theorem below_of_elif (h : t.kind = .elifClause) :
    (Level.mk t rest).below = levelsOf t.children ++ Level.ofChain rest := by
  rw [← levelsOf_namedChildren]
  simp [Level.below, h, levelsOf]

/-- A clause or a block that is no level of its own shows what its one part shows. -/
theorem matches_of_transparent {b : SyntaxTree} (h : t.isTransparent = true)
    (hparts : Amid [b] t.children) (hb : Matches (levelsOf [b]) body) :
    Matches (levelsOf [t]) body := by
  rw [levelsOf_transparent h]
  exact hparts.matches hb

theorem isNamed_of_isAlternative (h : t.isAlternative = true) : t.isNamed = true := by
  unfold isAlternative at h
  unfold isNamed
  split at h
  · next heq => rw [heq]; rfl
  · next heq => rw [heq]; rfl
  · cases h

/-- All alternatives are among the named children. -/
theorem filter_isAlternative_namedChildren (t : SyntaxTree) :
    t.namedChildren.filter isAlternative = t.children.filter isAlternative := by
  rw [namedChildren, List.filter_comm, List.filter_eq_self]
  intro c hc
  exact isNamed_of_isAlternative (List.mem_filter.mp hc).2

/-- The clauses of an `if` are those among its children, and its body is what remains. -/
theorem matches_of_if {b : SyntaxTree} {clauses : List SyntaxTree} (hkind : t.kind = .ifStatement)
    (hparts : Amid (b :: clauses) t.children) (hb : b.isAlternative = false)
    (hclauses : ∀ c ∈ clauses, c.isAlternative = true)
    (hbody : Matches (levelsOf [b]) body) (hrest : Matches (Level.ofChain clauses) otherwise) :
    Matches (levelsOf [t]) [.branch body otherwise] := by
  have hnamed : t.isNamed = true := by simp [isNamed, hkind, NodeKind.isNamed]
  have hsolid : t.isTransparent = false := by simp [isTransparent, hkind]
  have hinner : (b :: clauses).filter (!·.isAlternative) = [b] := by
    rw [List.filter_cons_of_pos (by simp [hb]), List.filter_eq_nil_iff.mpr]
    intro c hc
    simp [hclauses c hc]
  have hchain : t.namedChildren.filter isAlternative = clauses := by
    rw [filter_isAlternative_namedChildren, hparts.filter_isAlternative,
      List.filter_cons_of_neg (by simp [hb]), List.filter_eq_self.mpr hclauses]
  rw [levelsOf_of_not_transparent hnamed hsolid]
  refine .node ?_ ?_ .nil
  · refine ownImports_eq_nil ?_
    show t.kind.importsModules = false
    rw [hkind]
    rfl
  · rw [below_of_if hkind, hchain]
    have hamid := hparts.filter_not_isAlternative
    rw [hinner] at hamid
    exact (hamid.matches hbody).append hrest

theorem ofChain_of_elif (h : t.kind = .elifClause) : Level.ofChain (t :: rest) = [⟨t, rest⟩] := by
  simp [Level.ofChain, h]

theorem ofChain_of_else (h : t.kind = .elseClause) : Level.ofChain [t] = levelsOf [t] := by
  have hnamed : t.isNamed = true := by simp [isNamed, h, NodeKind.isNamed]
  simp [Level.ofChain, levelsOf, flattened.flattenedAll, h, hnamed]

theorem isAlternative_of_showsBlock {b : SyntaxTree} (h : ShowsBlock b body) :
    b.isAlternative = false := by
  match h with
  | .intro hkind _ _ => simp [isAlternative, hkind]

end below

theorem isAlternative_of_showsAlternatives {clauses : List SyntaxTree} {otherwise : List Ast}
    (h : ShowsAlternatives clauses otherwise) : ∀ c ∈ clauses, c.isAlternative = true := by
  match h with
  | .absent => simp
  | .otherwise hkind _ _ => simp [isAlternative, hkind]
  | .elif hkind _ _ hs =>
    have hrest := isAlternative_of_showsAlternatives hs
    rw [List.forall_mem_cons]
    exact ⟨by simp [isAlternative, hkind], hrest⟩
termination_by structural h

namespace SyntaxTree

mutual

/-- A tree and the node that it shows match. -/
theorem Shows.matches {t : SyntaxTree} {a : Ast} (h : Shows t a) : Matches (levelsOf [t]) [a] := by
  match h with
  | .module hkind hparts hbody =>
    exact matches_of_standsAlone (by rw [hkind]; rfl) (by simp [ownImports, hkind, Ast.names])
      (hparts.matches (ShowsEach.matches hbody))
  | .simple hfree =>
    exact .simple (.of_free (isImportFree_levelsOf (by simpa using hfree)))
  | .imports hkind hnames hfree =>
    refine matches_of_standsAlone (by rw [hkind]; rfl) ?_
      (.of_free (isImportFree_levelsOf (areImportFree_iff.mp hfree)))
    rw [ownImports, hkind]
    exact importedNames_eq hnames
  | @Shows.importsFrom _ _ source hkind hmodule hsource hfree =>
    refine matches_of_standsAlone (by rw [hkind]; rfl) ?_
      (.of_free (isImportFree_levelsOf (areImportFree_iff.mp hfree)))
    rw [ownImports, hkind]
    dsimp only
    rw [fromModule_eq hmodule hsource]
    cases source <;> rfl
  | .importsFuture hkind hfree =>
    refine matches_of_standsAlone (by rw [hkind]; rfl) ?_
      (.of_free (isImportFree_levelsOf (areImportFree_iff.mp hfree)))
    rw [ownImports, hkind]
    rfl
  | .branch hkind hparts hbody hclauses =>
    refine matches_of_if hkind hparts ?_ (isAlternative_of_showsAlternatives hclauses)
      (ShowsBlock.matches hbody) (ShowsAlternatives.matches hclauses)
    exact isAlternative_of_showsBlock hbody
  | .loop (k := k) hkind hparts hbody hclauses =>
    refine matches_of_standsAlone (by rw [hkind]; cases k <;> rfl)
      (by cases k <;> simp [ownImports, hkind, LoopKind.kind, Ast.names]) (hparts.matches ?_)
    rw [levelsOf_cons]
    exact (ShowsBlock.matches hbody).append (ShowsOptional.matches hclauses (.inl rfl))
  | .within hkind hparts hbody =>
    exact matches_of_standsAlone (by rw [hkind]; rfl) (by simp [ownImports, hkind, Ast.names])
      (hparts.matches (ShowsBlock.matches hbody))
  | .attempt hkind hparts hbody _ hhandlers helse hfinal =>
    refine matches_of_standsAlone (by rw [hkind]; rfl) (by simp [ownImports, hkind, Ast.names])
      (hparts.matches ?_)
    rw [levelsOf_append, levelsOf_append, levelsOf_cons]
    exact (((ShowsBlock.matches hbody).append (ShowsClauses.matches hhandlers)).append
      (ShowsOptional.matches helse (.inl rfl))).append (ShowsOptional.matches hfinal (.inr rfl))
  | .definition (k := k) hkind hparts hbody =>
    exact matches_of_standsAlone (by rw [hkind]; cases k <;> rfl)
      (by cases k <;> simp [ownImports, hkind, DefinitionKind.kind, Ast.names])
      (hparts.matches (ShowsBlock.matches hbody))
  | .decorated hkind hparts h =>
    exact matches_of_transparent (by simp [isTransparent, hkind]) hparts (Shows.matches h)
  | .choice hkind hparts hblock hclauses hcases =>
    refine matches_of_standsAlone (by rw [hkind]; rfl) (by simp [ownImports, hkind, Ast.names])
      (hparts.matches ?_)
    rw [levelsOf_transparent (by simp [isTransparent, hblock])]
    exact hclauses.matches (ShowsClauses.matches hcases)
termination_by structural h

theorem ShowsEach.matches {ts : List SyntaxTree} {nodes : List Ast} (h : ShowsEach ts nodes) :
    Matches (levelsOf ts) nodes := by
  match h with
  | .nil => exact .nil
  | .cons h hs =>
    rw [levelsOf_cons]
    exact (Shows.matches h).append (ShowsEach.matches hs)
termination_by structural h

theorem ShowsBlock.matches {b : SyntaxTree} {body : List Ast} (h : ShowsBlock b body) :
    Matches (levelsOf [b]) body := by
  match h with
  | .intro hkind hparts hbody =>
    rw [levelsOf_transparent (by simp [isTransparent, hkind])]
    exact hparts.matches (ShowsEach.matches hbody)
termination_by structural h

theorem ShowsOptional.matches {kind : NodeKind} {ts : List SyntaxTree} {body : List Ast}
    (h : ShowsOptional kind ts body) (hclause : kind = .elseClause ∨ kind = .finallyClause) :
    Matches (levelsOf ts) body := by
  match h with
  | .absent => exact .nil
  | .clause hkind hparts hbody =>
    refine matches_of_transparent ?_ hparts (ShowsBlock.matches hbody)
    rcases hclause with rfl | rfl <;> simp [isTransparent, hkind]
termination_by structural h

theorem ShowsClauses.matches {k : ClauseKind} {ts : List SyntaxTree} {clauses : List Ast}
    (h : ShowsClauses k ts clauses) : Matches (levelsOf ts) clauses := by
  match h with
  | .nil => exact .nil
  | @ShowsClauses.cons _ t _ _ body _ hkind hparts hbody hs =>
    have hfirst : Matches (levelsOf [t]) [.clause k body] :=
      matches_of_standsAlone (by rw [hkind]; cases k <;> rfl)
        (by cases k <;> simp [ownImports, hkind, ClauseKind.kind, Ast.names])
        (hparts.matches (ShowsBlock.matches hbody))
    rw [levelsOf_cons]
    exact hfirst.append (ShowsClauses.matches hs)
termination_by structural h

/-- A chain of clauses takes along what remains of it. -/
theorem ShowsAlternatives.matches {clauses : List SyntaxTree} {otherwise : List Ast}
    (h : ShowsAlternatives clauses otherwise) : Matches (Level.ofChain clauses) otherwise := by
  match h with
  | .absent => exact .nil
  | .otherwise hkind hparts hbody =>
    rw [ofChain_of_else hkind]
    exact matches_of_transparent (by simp [isTransparent, hkind]) hparts (ShowsBlock.matches hbody)
  | .elif hkind hparts hbody hs =>
    rw [ofChain_of_elif hkind]
    refine .node ?_ ?_ .nil
    · exact ownImports_eq_nil (by rw [hkind]; rfl)
    · rw [below_of_elif hkind]
      exact (hparts.matches (ShowsBlock.matches hbody)).append (ShowsAlternatives.matches hs)
termination_by structural h

end

end SyntaxTree

end RepoSurvey.Python
