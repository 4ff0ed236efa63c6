import RepoSurvey.Proofs.ChartOrder
import RepoSurvey.Proofs.Positions
import RepoSurvey.Proofs.Pruning
import RepoSurvey.Proofs.Relisting
import RepoSurvey.Tree.Outline

/-!
The folder tree and the order in which directories list what they hold. Names that look alike stay in the
order of their directory, so the tree depends on it exactly where nodes of one name that stand beside each
other differ.
-/

namespace RepoSurvey

namespace Node

/-- In each folder of a tree, nodes of the same name are the same. -/
inductive LookalikesAgree : Node → Prop where
  | leaf {name : String} {kind : NodeKind} : LookalikesAgree (mk name kind none)
  | inner {name : String} {kind : NodeKind} {ns : List Node}
      (h : ∀ a ∈ ns, ∀ b ∈ ns, a.name = b.name → a = b) (hinner : ∀ a ∈ ns, LookalikesAgree a) :
      LookalikesAgree (mk name kind (some ns))

theorem lookalikesAgree_folder {name : String} {ns : List Node} :
    (folder name ns).LookalikesAgree ↔
      (∀ a ∈ ns, ∀ b ∈ ns, a.name = b.name → a = b) ∧ ∀ a ∈ ns, a.LookalikesAgree := by
  rw [folder]
  constructor
  · intro h
    cases h with
    | inner h hinner =>
      exact ⟨fun a ha b hb => h a (List.mem_mergeSort.mpr ha) b (List.mem_mergeSort.mpr hb),
        fun a ha => hinner a (List.mem_mergeSort.mpr ha)⟩
  · rintro ⟨h, hinner⟩
    exact .inner (fun a ha b hb => h a (List.mem_mergeSort.mp ha) b (List.mem_mergeSort.mp hb))
      fun a ha => hinner a (List.mem_mergeSort.mp ha)

/-- Nodes of which those with the same name are the same have one order only. -/
theorem folder_eq_of_perm {name : String} {ns ns' : List Node} (hperm : ns'.Perm ns)
    (h : ∀ a ∈ ns, ∀ b ∈ ns, a.name = b.name → a = b) : folder name ns' = folder name ns := by
  have hsorted : ns'.mergeSort byName = ns.mergeSort byName :=
    mergeSort_key_eq_of_perm Node.name hperm h
  rw [folder, folder, hsorted]

end Node

/-- Charts that are the same but for orders look the same where lookalikes agree. -/
theorem Chart.Reordered.node_eq {c c' : Chart} (h : c.Reordered c') {name : String}
    (hagree : (c.node name).LookalikesAgree) : c'.node name = c.node name := by
  induction h generalizing name with
  | file => rfl
  | @folder real items items' distinct names charts ih =>
    rw [node, Node.lookalikesAgree_folder] at hagree
    obtain ⟨hsame, hinner⟩ := hagree
    rw [node, node]
    apply Node.folder_eq_of_perm _ hsame
    -- Both lists of nodes are made from the names, in the same way.
    have hitem : ∀ n ∈ items.map Prod.fst, ∃ c, (n, c) ∈ items := by simp
    have : Nonempty Chart := ⟨.file⟩
    choose! f hf using hitem
    have hnodes : nodes items = (items.map Prod.fst).map fun n => (f n).node (Utf8.decodeLossy n) := by
      rw [nodes_eq_map, List.map_map]
      refine List.map_congr_left fun i hi => ?_
      have heq := List.inj_on_of_nodup_map distinct hi (hf i.1 (List.mem_map_of_mem hi)) rfl
      exact congrArg (fun c => node (Utf8.decodeLossy i.1) c) (congrArg Prod.snd heq)
    have hnodes' : nodes items' =
        (items'.map Prod.fst).map fun n => (f n).node (Utf8.decodeLossy n) := by
      rw [nodes_eq_map, List.map_map]
      refine List.map_congr_left fun i hi => ?_
      have hn := hf i.1 (names.mem_iff.mpr (List.mem_map_of_mem hi))
      exact ih i.1 (f i.1) i.2 hn hi (hinner _ (mem_nodes.mpr ⟨i.1, f i.1, hn, rfl⟩))
    rw [hnodes, hnodes']
    exact (names.map _).symm

namespace FileSystem

/-- The chart of what stands under a name in the directory at a path, if it is shown. -/
def chartUnder (fs : FileSystem) (scope : Scope) (fresh : List RealPath) (path : Path) (n : FileName) :
    Option Chart :=
  if scope.excludes n then none
  else
    match fs.chartAt scope fresh (path.join n) with
    | .ok c? => c?
    | .error _ => none

/-- The node of what stands under a name in the directory at a path, if it is shown. -/
def nodeUnder (fs : FileSystem) (scope : Scope) (fresh : List RealPath) (path : Path) (n : FileName) :
    Option Node :=
  (fs.chartUnder scope fresh path n).map (Chart.node (Utf8.decodeLossy n))

variable {fs fs' : FileSystem} {scope : Scope} {fresh fresh' : List RealPath} {path root : Path}
  {names : List FileName} {items : List (FileName × Chart)} {n : FileName} {name : String}

theorem chartUnder_eq_some {c : Chart} :
    fs.chartUnder scope fresh path n = some c ↔
      scope.excludes n = false ∧ fs.chartAt scope fresh (path.join n) = .ok (some c) := by
  unfold chartUnder
  cases scope.excludes n with
  | true => simp
  | false => cases fs.chartAt scope fresh (path.join n) <;> simp

/-- The nodes of some names, name by name. -/
theorem nodes_eq_filterMap (h : fs.chartsAt scope fresh path names = .ok items) :
    Chart.nodes items = names.filterMap (fs.nodeUnder scope fresh path) := by
  induction names generalizing items with
  | nil =>
    rw [chartsAt] at h
    obtain rfl := Except.ok.inj h
    rw [Chart.nodes]
    rfl
  | cons n names ih =>
    rw [chartsAt] at h
    rw [List.filterMap_cons, nodeUnder, chartUnder]
    by_cases hn : scope.excludes n = true
    · rw [if_pos hn] at h ⊢
      exact ih h
    · rw [if_neg hn] at h ⊢
      cases hchart : fs.chartAt scope fresh (path.join n) with
      | error e => simp [hchart] at h
      | ok c? =>
        cases hrest : fs.chartsAt scope fresh path names with
        | error e => simp [hchart, hrest, Except.map] at h
        | ok rest =>
          obtain rfl : (c?.map fun c => (n, c)).toList ++ rest = items := by
            simpa [hchart, hrest, Except.map] using h
          cases c? with
          | none => exact ih hrest
          | some c =>
            rw [Option.map_some, Option.toList_some, List.singleton_append, Chart.nodes, ih hrest]
            rfl

/-- The children of a folder stand in the order of the names that they are shown for. -/
theorem node_folder (real : RealPath) {l : Listing}
    (h : fs.chartsAt scope fresh path (shownOrder l) = .ok items) :
    (Chart.folder real items).node name = .mk name .folder (some (Chart.nodes items)) := by
  have hnames : (Chart.nodes items).map Node.name = (items.map Prod.fst).map Utf8.decodeLossy := by
    simp [Chart.nodes_eq_map, Function.comp_def]
  rw [Chart.node]
  apply Node.folder_of_pairwise
  rw [hnames]
  exact (pairwise_shownOrder l).sublist ((map_fst_chartsAt_sublist h).map Utf8.decodeLossy)

/-- The first of the children with a name is that of the first of the names that look so, if it is shown. -/
theorem head_nodes {l : Listing} {rest : List FileName} {node : Node}
    (h : fs.chartsAt scope fresh path (shownOrder l) = .ok items)
    (hfirst : l.map Prod.fst = n :: rest) (hnode : fs.nodeUnder scope fresh path n = some node) :
    ((Chart.nodes items).filter fun a => a.name = Utf8.decodeLossy n).head? = some node := by
  have hname : ∀ m, (fs.nodeUnder scope fresh path m).filter
      (fun a => a.name = Utf8.decodeLossy n) =
        if Utf8.decodeLossy m = Utf8.decodeLossy n then fs.nodeUnder scope fresh path m else none := by
    intro m
    unfold nodeUnder
    cases fs.chartUnder scope fresh path m with
    | none => simp
    | some c => simp [Option.filter_some]
  have hnodes : (Chart.nodes items).filter (fun a => a.name = Utf8.decodeLossy n) =
      (n :: rest.filter fun m => Utf8.decodeLossy m = Utf8.decodeLossy n).filterMap
        (fs.nodeUnder scope fresh path) := by
    calc (Chart.nodes items).filter (fun a => a.name = Utf8.decodeLossy n)
        = (shownOrder l).filterMap fun m =>
            if Utf8.decodeLossy m = Utf8.decodeLossy n then fs.nodeUnder scope fresh path m else none := by
          rw [nodes_eq_filterMap h, List.filter_filterMap]
          exact List.filterMap_congr fun m _ => hname m
      _ = ((shownOrder l).filter fun m => Utf8.decodeLossy m = Utf8.decodeLossy n).filterMap
            (fs.nodeUnder scope fresh path) := by
          rw [List.filterMap_filter]
          simp
      _ = _ := by
          rw [shownOrder, Node.filter_mergeSort_key, hfirst, List.filter_cons, if_pos (by simp)]
  rw [hnodes, List.filterMap_cons, hnode]
  rfl

/-- What is shown under a name in both snapshots is shown as long as it is shown in one of them. -/
theorem Reordered.isSome_nodeUnder (h : fs.Reordered fs') (hfresh : fresh.Perm fresh') (path : Path)
    (n : FileName) :
    (fs.nodeUnder scope fresh path n).isSome = (fs'.nodeUnder scope fresh' path n).isSome := by
  have hchart := h.chartAt (h.chartOf scope hfresh (path.join n))
  unfold nodeUnder
  rw [Option.isSome_map, Option.isSome_map, Bool.eq_iff_iff, Option.isSome_iff_exists,
    Option.isSome_iff_exists]
  simp only [chartUnder_eq_some, exists_and_left, hchart.exists_some_iff]

/-- Functions that select the same items of a list and make the same list of them agree on it. -/
theorem eq_of_filterMap_eq {α β : Type} {f g : α → Option β} {l : List α}
    (hsome : ∀ a ∈ l, (f a).isSome = (g a).isSome) (h : l.filterMap f = l.filterMap g) :
    ∀ a ∈ l, f a = g a := by
  induction l with
  | nil => simp
  | cons b l ih =>
    obtain ⟨hb, hsome⟩ := List.forall_mem_cons.mp hsome
    rw [List.filterMap_cons, List.filterMap_cons] at h
    rw [List.forall_mem_cons]
    cases hf : f b with
    | none =>
      have hg : g b = none := by simpa [hf] using hb.symm
      rw [hf, hg] at h
      exact ⟨hg.symm, ih hsome h⟩
    | some x =>
      obtain ⟨y, hg⟩ : ∃ y, g b = some y := Option.isSome_iff_exists.mp (by rw [← hb, hf]; rfl)
      rw [hf, hg] at h
      obtain ⟨rfl, hrest⟩ := List.cons.inj h
      exact ⟨hg.symm, ih hsome hrest⟩

/-- What is shown of the directory at a path stays the same whatever name is put first in whatever
directory. -/
def Settled (fs : FileSystem) (scope : Scope) (fresh : List RealPath) (path : Path) (name : String)
    (node : Node) : Prop :=
  ∀ d q, ∃ fresh' c, fresh.Perm fresh' ∧ (fs.relist d q).chartOf scope fresh' path = .ok (some c) ∧
    c.node name = node

theorem showsAlike_relist (hfs : fs.WellFormed) {p d : RealPath} (hne : p ≠ d) (q : FileName) :
    fs.ShowsAlike (fs.relist d q) p := by
  intro s s' l l' hs hs' hreal hreal' hdir hdir'
  have hnames := (names_relist hfs hs hdir hs' hdir' (hreal.trans hreal'.symm)).2 (hreal ▸ hne)
  rw [shownOrder, shownOrder, hnames]

section

variable {s : Standing} {l : Listing} (hfs : fs.WellFormed) (hs : fs.stat path = .ok s)
  (hdir : s.entry = .directory l none)
  (hitems : fs.chartsAt scope (fresh.erase s.realPath) path (shownOrder l) = .ok items)
  (hsettled : fs.Settled scope fresh path name ((Chart.folder s.realPath items).node name))

include hfs hs hdir hitems hsettled

/-- The children of a folder that is settled stay the same. -/
theorem exists_nodes_relist (d : RealPath) (q : FileName) : ∃ fresh' l' items',
    (fresh.erase s.realPath).Perm fresh' ∧ (s.realPath = d → l' = l.putFirst q) ∧
      (s.realPath ≠ d → shownOrder l' = shownOrder l) ∧
      (fs.relist d q).chartsAt scope fresh' path (shownOrder l') = .ok items' ∧
      Chart.nodes items' = Chart.nodes items := by
  obtain ⟨fresh', c, hfresh, hc, hnode⟩ := hsettled d q
  obtain ⟨s', l', items', hs', hdir', -, hitems', rfl⟩ := eq_folder_of_chartOf hc
  have hreal : s.realPath = s'.realPath := by
    have hstat := (hfs.reordered_relist d q).stat path
    rw [hs, hs'] at hstat
    cases hstat with
    | ok h => exact h.realPath_eq
  obtain ⟨hhere, helsewhere⟩ := names_relist hfs (.of_stat hs) hdir (.of_stat hs') hdir' hreal
  refine ⟨_, l', items', hfresh.erase s.realPath, hhere, fun hne => ?_, hreal ▸ hitems', ?_⟩
  · rw [shownOrder, shownOrder, helsewhere hne]
  · rw [node_folder _ hitems', node_folder _ hitems] at hnode
    exact Option.some.inj (Node.mk.inj hnode).2.2

/-- In a folder that is settled the first of the nodes of a name is any of them. -/
theorem head_nodes_of_settled (hnodup : fresh.Nodup) (hn : n ∈ l.map Prod.fst) {node : Node}
    (hnode : fs.nodeUnder scope (fresh.erase s.realPath) path n = some node) :
    ((Chart.nodes items).filter fun a => a.name = Utf8.decodeLossy n).head? = some node := by
  obtain ⟨fresh', l', items', hfresh, hhere, -, hitems', hnodes⟩ :=
    exists_nodes_relist hfs hs hdir hitems hsettled s.realPath n
  obtain ⟨rest, hfirst⟩ := Listing.exists_map_fst_putFirst hn
  rw [← hhere rfl] at hfirst
  -- The way has passed the directory, so what is below it does not depend on its order.
  have hchart : fs.chartAt scope (fresh.erase s.realPath) (path.join n) =
      (fs.relist s.realPath n).chartAt scope fresh' (path.join n) := by
    have hreordered := hfs.reordered_relist s.realPath n
    refine hreordered.chartAt_eq (hreordered.chartOf_eq scope hfresh (fun p hp => ?_) (path.join n))
    exact showsAlike_relist hfs (hnodup.mem_erase_iff.mp hp).1 n
  rw [nodeUnder, chartUnder, hchart] at hnode
  rw [← hnodes]
  exact head_nodes hitems' hfirst hnode

/-- What is shown of a directory below a folder that is settled is settled too. -/
theorem settled_below (hnodup : fresh.Nodup) (hn : n ∈ l.map Prod.fst)
    (hfolder : fs.shownAt scope (path.join n) = some .folder) {node : Node}
    (hnode : fs.nodeUnder scope (fresh.erase s.realPath) path n = some node) :
    fs.Settled scope (fresh.erase s.realPath) (path.join n) (Utf8.decodeLossy n) node := by
  intro d q
  have hreordered := hfs.reordered_relist d q
  -- Wherever the name is put first, the same is shown under this one.
  obtain ⟨fresh', hfresh, hsame⟩ : ∃ fresh', (fresh.erase s.realPath).Perm fresh' ∧
      (fs.relist d q).nodeUnder scope fresh' path n = some node := by
    by_cases hd : s.realPath = d
    · refine ⟨_, .refl _, ?_⟩
      have hchart := hreordered.chartAt_eq (hreordered.chartOf_eq scope (.refl _)
        (fun p hp => showsAlike_relist hfs (hd ▸ (hnodup.mem_erase_iff.mp hp).1) q) (path.join n))
      rw [← hnode, nodeUnder, chartUnder, nodeUnder, chartUnder, hchart]
    · obtain ⟨fresh', l', items', hfresh, -, helsewhere, hitems', hnodes⟩ :=
        exists_nodes_relist hfs hs hdir hitems hsettled d q
      rw [helsewhere hd] at hitems'
      rw [nodes_eq_filterMap hitems', nodes_eq_filterMap hitems] at hnodes
      refine ⟨fresh', hfresh, ?_⟩
      rw [eq_of_filterMap_eq (fun m _ => (hreordered.isSome_nodeUnder hfresh path m).symm) hnodes n
        (mem_shownOrder.mpr hn), hnode]
  obtain ⟨c, hc, rfl⟩ := Option.map_eq_some_iff.mp hsame
  have hchart := (chartUnder_eq_some.mp hc).2
  rw [chartAt_eq_shownAt, ← hreordered.shownAt, hfolder] at hchart
  exact ⟨fresh', c, hfresh, hchart, rfl⟩

end

/-- In a tree that is settled, lookalikes agree. -/
theorem lookalikesAgree_of_settled (hfs : fs.WellFormed) {fresh : List RealPath} (hnodup : fresh.Nodup)
    {path : Path} {name : String} {c : Chart} (hc : fs.chartOf scope fresh path = .ok (some c))
    (hsettled : fs.Settled scope fresh path name (c.node name)) : (c.node name).LookalikesAgree := by
  obtain ⟨s, l, items, hs, hdir, hmem, hitems, rfl⟩ := eq_folder_of_chartOf hc
  have hshown : ∀ a ∈ Chart.nodes items, ∃ n ∈ l.map Prod.fst, a.name = Utf8.decodeLossy n ∧
      fs.nodeUnder scope (fresh.erase s.realPath) path n = some a := by
    intro a ha
    rw [nodes_eq_filterMap hitems] at ha
    obtain ⟨n, hn, hnode⟩ := List.mem_filterMap.mp ha
    obtain ⟨c, -, hc⟩ := Option.map_eq_some_iff.mp hnode
    exact ⟨n, mem_shownOrder.mp hn, hc ▸ c.name_node _, hnode⟩
  have hhead {n : FileName} {a : Node} (hn : n ∈ l.map Prod.fst)
      (hnode : fs.nodeUnder scope (fresh.erase s.realPath) path n = some a) :=
    head_nodes_of_settled hfs hs hdir hitems hsettled hnodup hn hnode
  rw [node_folder _ hitems]
  refine .inner (fun a ha b hb hab => ?_) fun a ha => ?_
  · -- Both are the first node of their name, once the name of either is put first.
    obtain ⟨n, hn, hna, hnode⟩ := hshown a ha
    obtain ⟨m, hm, hmb, hnode'⟩ := hshown b hb
    have htext : Utf8.decodeLossy n = Utf8.decodeLossy m := hna.symm.trans (hab.trans hmb)
    exact Option.some.inj ((hhead hn hnode).symm.trans (htext ▸ hhead hm hnode'))
  · -- By induction on the directories that the way down has not passed.
    obtain ⟨n, hn, -, hnode⟩ := hshown a ha
    obtain ⟨c, hc, rfl⟩ := Option.map_eq_some_iff.mp hnode
    have hchart := (chartUnder_eq_some.mp hc).2
    rw [chartAt_eq_shownAt] at hchart
    cases hkind : fs.shownAt scope (path.join n) with
    | none => simp [hkind] at hchart
    | some kind =>
      rw [hkind] at hchart
      cases kind with
      | file =>
        obtain rfl : Chart.file = c := by simpa using hchart
        rw [Chart.node]
        exact .leaf
      | folder =>
        have hbelow := settled_below hfs hs hdir hitems hsettled hnodup hn hkind hnode
        exact lookalikesAgree_of_settled hfs (hnodup.erase s.realPath) hchart hbelow
termination_by fresh.length
decreasing_by exact FileSystem.length_erase_lt hmem

end FileSystem

/-- No two names in a directory look alike. -/
def Listing.NamesApart (l : Listing) : Prop := (l.map fun i => Utf8.decodeLossy i.1).Nodup

instance (l : Listing) : Decidable l.NamesApart := inferInstanceAs (Decidable (List.Nodup _))

namespace FileSystem

variable {fs fs' : FileSystem} {scope : Scope} {root : Path}

/-- Names that are told apart have one order only. -/
theorem shownOrder_eq_of_perm {l l' : Listing} (h : l.NamesApart)
    (hperm : (l.map Prod.fst).Perm (l'.map Prod.fst)) : shownOrder l = shownOrder l' := by
  have hnodup : ((l.map Prod.fst).map Utf8.decodeLossy).Nodup := by
    rw [List.map_map]
    exact h
  refine (Node.mergeSort_key_eq_of_perm Utf8.decodeLossy hperm.symm fun a ha b hb hab => ?_).symm
  exact List.inj_on_of_nodup_map hnodup ha hb hab

theorem Reordered.showsAlike (h : fs.Reordered fs')
    (hapart : Listing.Throughout Listing.NamesApart fs.entries) (p : RealPath) : fs.ShowsAlike fs' p := by
  intro s s' l l' hs hs' hreal hreal' hdir hdir'
  have hdescend := h.entries.descend (hs.descend hdir)
  rw [hreal.trans hreal'.symm, hs'.descend hdir'] at hdescend
  obtain ⟨k, hk, hnames⟩ := hdescend
  obtain rfl := Option.some.inj hk
  exact shownOrder_eq_of_perm (hs.throughout hapart hdir).here hnames

theorem folderTree_eq_ok {tree : Node} (h : fs.folderTree scope root = .ok tree) :
    ∃ c, fs.chartOf scope fs.directories root = .ok (some c) ∧ c.node (rootName root) = tree := by
  rw [folderTree_eq_chart, chart] at h
  split at h
  · cases hc : fs.chartOf scope fs.directories root with
    | error e => simp [hc, Except.map] at h
    | ok c? =>
      cases c? with
      | none => simp [hc, Except.map] at h
      | some c => exact ⟨c, rfl, by simpa [hc, Except.map] using h⟩
  · cases h

/-- The folder trees of both snapshots are shown charts of both. -/
theorem Reordered.chart (h : fs.Reordered fs') (scope : Scope) (root : Path) :
    BothFailOr Chart.Reordered (fs.chart scope root) (fs'.chart scope root) := by
  have hchart := h.chartOf scope h.perm_directories root
  unfold FileSystem.chart
  rw [h.isDirectory root]
  split
  · generalize fs.chartOf scope fs.directories root = x at hchart
    generalize fs'.chartOf scope fs'.directories root = x' at hchart
    cases hchart with
    | failed e e' => exact .failed e e'
    | ok hc =>
      cases hc with
      | none => exact .failed _ _
      | some hc => exact .ok hc
  · exact .failed _ _

/-- Two snapshots have the same folder tree of a repository, or fail alike, and the tree is drawn alike. -/
def SameTree (fs fs' : FileSystem) (scope : Scope) (root : Path) : Prop :=
  fs'.folderTree scope root = fs.folderTree scope root ∧
    (fs'.folderTree scope root).map Node.outline = (fs.folderTree scope root).map Node.outline

theorem sameTree_of_eq (h : fs'.folderTree scope root = fs.folderTree scope root) :
    fs.SameTree fs' scope root :=
  ⟨h, congrArg (Except.map Node.outline) h⟩

/-- The order in which directories list what they hold does not decide whether there is a folder tree. Where
no two names in a directory look alike, it decides nothing at all, and a tree is the same for all orders
exactly if nodes of the same name that stand beside each other in it are the same. -/
theorem folderTree_reordered (hfs : fs.WellFormed) (scope : Scope) (root : Path) :
    (∀ fs', fs.Reordered fs' → ((∃ tree, fs.folderTree scope root = .ok tree) ↔
      ∃ tree, fs'.folderTree scope root = .ok tree)) ∧
    (Listing.Throughout Listing.NamesApart fs.entries → ∀ fs', fs.Reordered fs' →
      fs.SameTree fs' scope root) ∧
    ∀ tree, fs.folderTree scope root = .ok tree →
      ((∀ fs', fs.Reordered fs' → fs.SameTree fs' scope root) ↔ tree.LookalikesAgree) := by
  refine ⟨fun fs' h => ?_, fun hapart fs' h => sameTree_of_eq ?_, fun tree htree => ⟨fun hsame => ?_, ?_⟩⟩
  · have hchart := h.chart scope root
    rw [folderTree_eq_chart, folderTree_eq_chart]
    generalize fs.chart scope root = x at hchart
    generalize fs'.chart scope root = x' at hchart
    cases hchart with
    | failed e e' => simp [Except.map]
    | ok hc => simp [Except.map]
  · have hchart : fs.chartOf scope fs.directories root = fs'.chartOf scope fs'.directories root :=
      h.chartOf_eq scope h.perm_directories (fun p _ => h.showsAlike hapart p) root
    rw [folderTree_eq_chart, folderTree_eq_chart, FileSystem.chart, FileSystem.chart, ← hchart,
      h.isDirectory root]
  · -- Of all the orders it is enough to try those in which one name is put first.
    obtain ⟨c, hc, rfl⟩ := folderTree_eq_ok htree
    refine lookalikesAgree_of_settled hfs hfs.nodup_directories hc fun d q => ?_
    have h := hfs.reordered_relist d q
    obtain ⟨c', hc', hnode⟩ := folderTree_eq_ok ((hsame _ h).1.trans htree)
    exact ⟨_, c', h.perm_directories, hc', hnode⟩
  · intro hagree fs' h
    apply sameTree_of_eq
    have hchart := h.chart scope root
    rw [folderTree_eq_chart] at htree ⊢
    rw [folderTree_eq_chart]
    generalize fs.chart scope root = x at hchart htree
    generalize fs'.chart scope root = x' at hchart
    cases hchart with
    | failed e e' => cases htree
    | ok hc =>
      obtain rfl := Except.ok.inj htree
      exact congrArg Except.ok (hc.node_eq hagree)

section

/-- A directory with a directory and a file whose names look alike, the directory listed first. -/
def folderFirstTwins : FileSystem where
  entries := [([0xFF], .directory []), ([0xFE], .file (.ok []))]
  current := []

/-- The same, with the file listed first. -/
def fileFirstTwins : FileSystem where
  entries := [([0xFE], .file (.ok [])), ([0xFF], .directory [])]
  current := []

theorem reordered_twins : folderFirstTwins.Reordered fileFirstTwins := by
  have hself := Listing.Throughout.reordered_self (l := folderFirstTwins.entries) (by decide) none
  cases hself with
  | directory distinct _ entries =>
    refine ⟨.directory distinct (.swap _ _ []) fun n e e' he he' => entries n e e' he ?_, rfl⟩
    exact (List.Perm.swap _ _ []).mem_iff.mp he'

theorem folderTree_folderFirstTwins : folderFirstTwins.folderTree ⟨[], true⟩ [solidus] =
    .ok (.mk "/" .folder (some [.mk "\uFFFD" .folder (some []), .mk "\uFFFD" .file none])) := by
  cbv

/-- The tree has the twins in the order in which the directory lists them. -/
theorem folderTree_twins_differ : folderFirstTwins.WellFormed ∧
    folderFirstTwins.Reordered fileFirstTwins ∧
    folderFirstTwins.folderTree ⟨[], true⟩ [solidus] =
      .ok (.mk "/" .folder (some [.mk "\uFFFD" .folder (some []), .mk "\uFFFD" .file none])) ∧
    fileFirstTwins.folderTree ⟨[], true⟩ [solidus] =
      .ok (.mk "/" .folder (some [.mk "\uFFFD" .file none, .mk "\uFFFD" .folder (some [])])) ∧
    ¬ folderFirstTwins.SameTree fileFirstTwins ⟨[], true⟩ [solidus] := by
  have hfile : fileFirstTwins.folderTree ⟨[], true⟩ [solidus] =
      .ok (.mk "/" .folder (some [.mk "\uFFFD" .file none, .mk "\uFFFD" .folder (some [])])) := by
    cbv
  refine ⟨by decide, reordered_twins, folderTree_folderFirstTwins, hfile, fun hsame => ?_⟩
  have heq := hsame.1
  rw [hfile, folderTree_folderFirstTwins] at heq
  simp at heq

theorem folderTree_reordered_twins : folderFirstTwins.WellFormed ∧ ∃ tree,
    folderFirstTwins.folderTree ⟨[], true⟩ [solidus] = .ok tree ∧
    (∀ fs', folderFirstTwins.Reordered fs' →
      ((∃ tree, folderFirstTwins.folderTree ⟨[], true⟩ [solidus] = .ok tree) ↔
        ∃ tree, fs'.folderTree ⟨[], true⟩ [solidus] = .ok tree)) ∧
    ((∀ fs', folderFirstTwins.Reordered fs' → folderFirstTwins.SameTree fs' ⟨[], true⟩ [solidus]) ↔
      tree.LookalikesAgree) := by
  have hfs : folderFirstTwins.WellFormed := by decide
  obtain ⟨hsucceeds, -, hsame⟩ := folderTree_reordered hfs ⟨[], true⟩ [solidus]
  exact ⟨hfs, _, folderTree_folderFirstTwins, hsucceeds, hsame _ folderTree_folderFirstTwins⟩

end

end FileSystem

end RepoSurvey
