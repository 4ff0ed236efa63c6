import RepoSurvey.Proofs.TreeAndWalk
import RepoSurvey.Proofs.WalkPruning

/-!
Leaving names out on the way down and leaving them out afterwards. The reports of a walk with some names
left out are those of the walk without, less the ones with such a name in their path, and the folder tree
is the tree without, less the nodes of such a name and what lies below them.
-/

namespace RepoSurvey

namespace Node

mutual

/-- A tree less the nodes below its root that have one of some names, and what lies below them. -/
def without (names : List String) : Node → Node
  | mk name kind none => mk name kind none
  | mk name kind (some ns) => mk name kind (some (withoutAll names ns))

def withoutAll (names : List String) : List Node → List Node
  | [] => []
  | n :: ns => if n.name ∈ names then withoutAll names ns else without names n :: withoutAll names ns

end

@[simp]
theorem name_without (names : List String) (n : Node) : (n.without names).name = n.name := by
  obtain ⟨name, kind, ns?⟩ := n
  cases ns? with
  | none => rw [without]
  | some ns => rfl

theorem map_name_withoutAll_sublist (names : List String) (ns : List Node) :
    ((withoutAll names ns).map name).Sublist (ns.map name) := by
  induction ns with
  | nil => rw [withoutAll]
  | cons n ns ih =>
    rw [withoutAll, List.map_cons]
    split
    · exact ih.cons n.name
    · rw [List.map_cons, name_without]
      exact ih.cons_cons n.name

/-- Children that are given in order stay as they are. -/
theorem folder_of_pairwise {name : String} {ns : List Node}
    (h : (ns.map Node.name).Pairwise fun a b => a ≤ b) : folder name ns = mk name .folder (some ns) := by
  have hsorted : ns.Pairwise fun a b => byName a b = true := by
    apply (List.pairwise_map.mp h).imp
    intro a b hab
    exact decide_eq_true hab
  rw [folder, List.mergeSort_of_pairwise hsorted]

/-- Leaving names out of a folder whose children are given in order. -/
theorem without_folder {ns : List Node} (names : List String) (name : String)
    (h : (ns.map Node.name).Pairwise fun a b => a ≤ b) :
    (folder name ns).without names = folder name (withoutAll names ns) := by
  have hsublist := h.sublist (map_name_withoutAll_sublist names ns)
  rw [folder_of_pairwise h, folder_of_pairwise hsublist, without]

end Node

namespace FileSystem

variable {fs : FileSystem} {scope : Scope} {fresh : List RealPath} {path root : Path}
  {name : String} {names : List FileName}

theorem name_of_nodeAt {n : Node} (h : fs.nodeAt scope fresh path name = .ok (some n)) :
    n.name = name := by
  rw [nodeAt_eq_chartAt] at h
  cases hchart : fs.chartAt scope fresh path with
  | error e => simp [hchart, Except.map] at h
  | ok c? =>
    cases c? with
    | none => simp [hchart, Except.map] at h
    | some c =>
      obtain rfl : c.node name = n := by simpa [hchart, Except.map] using h
      exact c.name_node name

/-- The nodes of some names have these names, in the same order. -/
theorem map_name_nodesAt_sublist {nodes : List Node}
    (h : fs.nodesAt scope fresh path names = .ok nodes) :
    (nodes.map Node.name).Sublist (names.map Utf8.decodeLossy) := by
  rw [nodesAt_eq_chartsAt] at h
  cases hitems : fs.chartsAt scope fresh path names with
  | error e => simp [hitems, Except.map] at h
  | ok items =>
    obtain rfl : Chart.nodes items = nodes := by simpa [hitems, Except.map] using h
    have hnames : (Chart.nodes items).map Node.name =
        (items.map Prod.fst).map Utf8.decodeLossy := by
      simp [Chart.nodes_eq_map, Function.comp_def]
    rw [hnames]
    exact (map_fst_chartsAt_sublist hitems).map Utf8.decodeLossy

mutual

/-- Where a folder is built with no name left out, it is built with some left out. -/
theorem folderAt_without (scope : Scope) {fresh : List RealPath} {path : Path} {name : String}
    {n? : Option Node} (h : fs.folderAt scope.unpruned fresh path name = .ok n?) :
    fs.folderAt scope fresh path name = .ok (n?.map (Node.without scope.excludedNames)) := by
  rw [folderAt] at h ⊢
  cases hreal : fs.resolve path with
  | error e => simp [hreal] at h
  | ok real =>
    simp only [hreal] at h ⊢
    by_cases hfresh : real.realPath ∈ fresh
    · rw [dif_pos hfresh] at h ⊢
      cases hlist : fs.list path with
      | error e => simp [hlist] at h
      | ok entries =>
        simp only [hlist] at h ⊢
        cases hnodes : fs.nodesAt scope.unpruned (fresh.erase real.realPath) path
            (shownOrder entries) with
        | error e => simp [hnodes, Except.map] at h
        | ok nodes =>
          obtain rfl : some (.folder name nodes) = n? := by simpa [hnodes, Except.map] using h
          -- The nodes are made in the order of their names, so none moves when its neighbours go.
          have hsorted := (pairwise_shownOrder entries).sublist (map_name_nodesAt_sublist hnodes)
          rw [nodesAt_without scope hnodes, Option.map_some, Node.without_folder _ _ hsorted]
          rfl
    · rw [dif_neg hfresh] at h ⊢
      obtain rfl : none = n? := by simpa using h
      rfl
termination_by (fresh.length, 0)
decreasing_by
  have := FileSystem.length_erase_lt hfresh
  omega

theorem nodesAt_without (scope : Scope) {fresh : List RealPath} {path : Path}
    {names : List FileName} {nodes : List Node}
    (h : fs.nodesAt scope.unpruned fresh path names = .ok nodes) :
    fs.nodesAt scope fresh path names = .ok (Node.withoutAll scope.excludedNames nodes) := by
  cases names with
  | nil =>
    rw [nodesAt] at h ⊢
    obtain rfl : [] = nodes := by simpa using h
    rw [Node.withoutAll]
  | cons m names =>
    rw [nodesAt, Scope.excludes_unpruned, if_neg Bool.false_ne_true] at h
    rw [nodesAt]
    cases hnode : fs.nodeAt scope.unpruned fresh (path.join m) (Utf8.decodeLossy m) with
    | error e => simp [hnode] at h
    | ok n? =>
      cases hrest : fs.nodesAt scope.unpruned fresh path names with
      | error e => simp [hnode, hrest, Except.map] at h
      | ok rest =>
        obtain rfl : n?.toList ++ rest = nodes := by simpa [hnode, hrest, Except.map] using h
        rw [nodeAt_without scope hnode, nodesAt_without scope hrest]
        -- A node that is made has the name by which it is left out.
        have hexcludes : scope.excludes m = true ↔ Utf8.decodeLossy m ∈ scope.excludedNames := by
          simp [Scope.excludes, Scope.excludesName]
        cases n? with
        | none =>
          split <;> rfl
        | some n =>
          have hname := name_of_nodeAt hnode
          rw [Option.toList_some, List.singleton_append, Node.withoutAll, hname]
          by_cases hm : scope.excludes m = true
          · rw [if_pos hm, if_pos (hexcludes.mp hm)]
          · rw [if_neg hm, if_neg (hexcludes.not.mp hm)]
            rfl
termination_by (fresh.length, names.length + 1)

theorem nodeAt_without (scope : Scope) {fresh : List RealPath} {path : Path} {name : String}
    {n? : Option Node} (h : fs.nodeAt scope.unpruned fresh path name = .ok n?) :
    fs.nodeAt scope fresh path name = .ok (n?.map (Node.without scope.excludedNames)) := by
  -- As what an entry is shown does not depend on which names are left out.
  have hshown : fs.shownAt scope.unpruned path = fs.shownAt scope path := rfl
  rw [nodeAt_eq_shownAt, hshown] at h
  rw [nodeAt_eq_shownAt]
  cases hkind : fs.shownAt scope path with
  | none =>
    rw [hkind] at h
    obtain rfl := Except.ok.inj h
    rfl
  | some kind =>
    rw [hkind] at h
    cases kind with
    | file =>
      obtain rfl := Except.ok.inj h
      dsimp only
      rw [Option.map_some, Node.file, Node.without]
    | folder => exact folderAt_without scope h
termination_by (fresh.length, 1)

end

theorem folderTree_without (scope : Scope) {tree : Node}
    (h : fs.folderTree scope.unpruned root = .ok tree) :
    fs.folderTree scope root = .ok (tree.without scope.excludedNames) := by
  unfold folderTree at h ⊢
  by_cases hdir : fs.isDirectory root = true
  · rw [if_pos hdir] at h ⊢
    cases hfolder : fs.folderAt scope.unpruned fs.directories root (rootName root) with
    | error e => simp [hfolder] at h
    | ok n? =>
      rw [hfolder] at h
      rw [folderAt_without scope hfolder]
      cases n? with
      | none => simp at h
      | some n =>
        obtain rfl := Except.ok.inj h
        rfl
  · rw [if_neg hdir] at h
    cases h

/-- The report on the file at the end of a way, if it is a source file that can be read. -/
def reportOn (fs : FileSystem) (narrator : Narrator) (root : Path) (way : List FileName) :
    Option FileReport :=
  ((Discovery.file (root.below way)).candidate? root).bind fun c => (c.process narrator fs).report?

theorem path_of_reportOn {narrator : Narrator} {way : List FileName} {r : FileReport}
    (h : fs.reportOn narrator root way = some r) : r.path = root.relative (root.below way) := by
  obtain ⟨c, hc, hr⟩ := Option.bind_eq_some_iff.mp h
  rw [Candidate.path_of_report? hr]
  rw [Discovery.candidate?] at hc
  split at hc
  · obtain rfl := Option.some.inj hc
    rfl
  · cases hc

/-- The reports of a walk, way by way. -/
theorem files_collect_eq_filterMap (narrator : Narrator) (sight : Sight) :
    (WalkOutcome.collect root (sight.discoveries root)
        (fs.outcomesOf narrator root (sight.discoveries root))).files =
      sight.ways.filterMap (fs.reportOn narrator root) := by
  unfold WalkOutcome.collect outcomesOf
  dsimp only
  rw [candidatesOf_discoveries, List.filterMap_map, List.filterMap_filterMap]
  rfl

end FileSystem

/-- No component of the path of a report is among some names. -/
def FileReport.IsClearOf (names : List String) (r : FileReport) : Prop :=
  ∀ c ∈ Path.components r.path, c ∉ names

instance (names : List String) (r : FileReport) : Decidable (r.IsClearOf names) :=
  inferInstanceAs (Decidable (∀ c ∈ Path.components r.path, c ∉ names))

/-- What a walk brings home is what another one does, less what concerns files with one of some names in
their path. Batches stand beside the reports that they come from. -/
structure WalkOutcome.Filters (names : List String) (whole pruned : WalkOutcome) : Prop where
  length_batches : whole.batches.length = whole.files.length
  files : pruned.files = whole.files.filter fun r => r.IsClearOf names
  batches : pruned.batches =
    ((whole.files.zip whole.batches).filter fun (r, _) => r.IsClearOf names).map Prod.snd

namespace FileSystem

variable {fs : FileSystem} {scope : Scope} {root : Path} {way : List FileName}

/-- The batches that come of candidates are those of the reports, so it is enough to compare these. -/
theorem filters_collect {names : List String} {narrator : Narrator} {ds ds' : List Discovery}
    (hfiles : (WalkOutcome.collect root ds' (fs.outcomesOf narrator root ds')).files =
      (WalkOutcome.collect root ds (fs.outcomesOf narrator root ds)).files.filter fun r =>
        r.IsClearOf names) :
    WalkOutcome.Filters names (.collect root ds (fs.outcomesOf narrator root ds))
      (.collect root ds' (fs.outcomesOf narrator root ds')) := by
  refine ⟨?_, hfiles, ?_⟩
  · rw [batches_collect, List.length_map]
  · rw [batches_collect, batches_collect, hfiles, ← List.map_prod_left_eq_zip, List.filter_map,
      List.map_map]
    rfl

theorem isClearOf_iff_admits (scope : Scope) {narrator : Narrator} {r : FileReport} (hne : way ≠ [])
    (hproper : ∀ n ∈ way, n.IsProper) (h : fs.reportOn narrator root way = some r) :
    r.IsClearOf scope.excludedNames ↔ scope.admits way = true := by
  rw [FileReport.IsClearOf, path_of_reportOn h, Path.relative_below root hproper]
  exact Path.clearOf_wayText_iff scope hne hproper

/-- The reports of a walk with names left out are those without, less the ones with such a name in their
path. -/
theorem files_prune (hfs : fs.WellFormed) (scope : Scope) (narrator : Narrator) {s : Standing}
    {entries : Listing} {fault : Option IoError} (hs : fs.stat root = .ok s)
    (hdir : s.entry = .directory entries fault) (fresh : List RealPath) :
    (waysIn (fs.sightsIn scope fresh root entries)).filterMap (fs.reportOn narrator root) =
      ((waysIn (fs.sightsIn scope.unpruned fresh root entries)).filterMap
        (fs.reportOn narrator root)).filter fun r => r.IsClearOf scope.excludedNames := by
  have hl := (Placed.of_stat hs).throughout hfs hdir
  rw [waysIn_sightsIn_prune hfs scope fresh root hl, List.filterMap_filter, List.filter_filterMap]
  -- On the left a way is kept for its names, on the right for the text of the path of its report.
  apply List.filterMap_congr
  intro way hway
  have hmeets : (Sight.folder (fs.sightsIn scope.unpruned fresh root entries)).FileAt way :=
    Sight.mem_ways.mp (by rwa [Sight.ways])
  have hproper := (fileAt_sightsIn hfs hs hdir hmeets).1
  have hne : way ≠ [] := by
    obtain ⟨n, sight, rest, -, -, rfl⟩ := mem_waysIn.mp hway
    exact List.cons_ne_nil n rest
  cases hr : fs.reportOn narrator root way with
  | none => simp
  | some r =>
    have hclear := isClearOf_iff_admits scope hne hproper hr
    rw [Option.filter_some]
    by_cases hadmits : scope.admits way = true
    · rw [if_pos hadmits, if_pos (decide_eq_true (hclear.mpr hadmits))]
    · rw [if_neg hadmits, decide_eq_false (hclear.not.mpr hadmits), if_neg Bool.false_ne_true]

/-- Where a walk has a root, it has the same with names left out, and the reports are as said. -/
theorem exists_rootSight_prune (hfs : fs.WellFormed) (scope : Scope) (narrator : Narrator)
    {whole : Sight} (h : fs.rootSight scope.unpruned root = .ok whole) :
    ∃ pruned, fs.rootSight scope root = .ok pruned ∧
      pruned.ways.filterMap (fs.reportOn narrator root) =
        (whole.ways.filterMap (fs.reportOn narrator root)).filter fun r =>
          r.IsClearOf scope.excludedNames := by
  obtain ⟨s, entries, fault, hs, hdir⟩ := exists_directory_of_rootSight h
  cases fault with
  | none =>
    obtain rfl := Except.ok.inj ((rootSight_of_directory hs hdir).symm.trans h)
    exact ⟨_, rootSight_of_directory hs hdir, files_prune hfs scope narrator hs hdir _⟩
  | some e =>
    obtain ⟨whole', hwhole, hnone⟩ := exists_rootSight_of_fault scope.unpruned hs hdir
    obtain rfl := Except.ok.inj (hwhole.symm.trans h)
    obtain ⟨pruned, hpruned, hnone'⟩ := exists_rootSight_of_fault scope hs hdir
    refine ⟨pruned, hpruned, ?_⟩
    rw [hnone, hnone']
    rfl

theorem rootSight_error_iff (scope scope' : Scope) (e : Failure) :
    fs.rootSight scope root = .error e ↔ fs.rootSight scope' root = .error e := by
  have hnot (scope : Scope) {s : Standing} {entries : Listing} {fault : Option IoError}
      (hs : fs.stat root = .ok s) (hdir : s.entry = .directory entries fault) :
      ¬ fs.rootSight scope root = .error e := by
    obtain ⟨sight, hsight⟩ := exists_rootSight_of_directory scope hs hdir
    rw [hsight]
    exact nofun
  cases hs : fs.stat root with
  | error err => simp [rootSight, hs]
  | ok s =>
    cases hentry : s.entry with
    | directory entries fault => exact iff_of_false (hnot scope hs hentry) (hnot scope' hs hentry)
    | file content => simp [rootSight, hs, hentry]
    | special => simp [rootSight, hs, hentry]
    | link target => simp [rootSight, hs, hentry]

/-- To leave names out on the way down is to leave them out afterwards: of the reports and batches of the
walk without, those stay in whose path none of the names is a component, and of the folder tree without, all
but the nodes of these names and what lies below them. What the root itself is called does not matter. -/
theorem prune_eq_filter (hfs : fs.WellFormed) (names : List String) (follow : Bool)
    (narrator : Narrator) (mode : Mode) (root : Path) :
    (∀ e, fs.walk ⟨names, follow⟩ narrator mode root = .error e ↔
      fs.walk ⟨[], follow⟩ narrator mode root = .error e) ∧
    (∀ whole updates, fs.walk ⟨[], follow⟩ narrator mode root = .ok (whole, updates) →
      ∃ pruned updates', fs.walk ⟨names, follow⟩ narrator mode root = .ok (pruned, updates') ∧
        whole.Filters names pruned) ∧
    ∀ tree, fs.folderTree ⟨[], follow⟩ root = .ok tree →
      fs.folderTree ⟨names, follow⟩ root = .ok (tree.without names) ∧
        (tree.without names).name = rootName root := by
  refine ⟨?_, ?_, ?_⟩
  · intro e
    rw [walk_eq_error_iff, walk_eq_error_iff]
    exact rootSight_error_iff _ _ e
  · intro whole updates hwhole
    obtain ⟨sight, hsight, rfl⟩ := walk_eq_ok hwhole
    obtain ⟨s, entries, fault, hs, hdir⟩ := exists_directory_of_rootSight hsight
    obtain ⟨⟨pruned, updates'⟩, hpruned⟩ := exists_walk_of_directory hs hdir narrator mode
    refine ⟨pruned, updates', hpruned, ?_⟩
    obtain ⟨sight', hsight', rfl⟩ := walk_eq_ok hpruned
    obtain ⟨sight'', hsame, hreports⟩ := exists_rootSight_prune hfs ⟨names, follow⟩ narrator hsight
    obtain rfl := Except.ok.inj (hsame.symm.trans hsight')
    apply filters_collect
    rw [files_collect_eq_filterMap, files_collect_eq_filterMap]
    exact hreports
  · intro tree htree
    refine ⟨folderTree_without ⟨names, follow⟩ htree, ?_⟩
    rw [folderTree_eq_chart] at htree
    cases hchart : fs.chart ⟨[], follow⟩ root with
    | error e => simp [hchart, Except.map] at htree
    | ok c =>
      obtain rfl : c.node (rootName root) = tree := by simpa [hchart, Except.map] using htree
      rw [Node.name_without, Chart.name_node]

theorem prune_eq_filter_climbing :
    climbing.WellFormed ∧
      climbing.folderTree ⟨["r", "up"], true⟩ [0x72] = .ok (.folder "r" [.file "a.py"]) ∧
      ∃ whole updates pruned updates',
        climbing.walk ⟨[], true⟩ .silent .sequential [0x72] = .ok (whole, updates) ∧
        whole.files.map FileReport.path = ["a.py", "up/r/a.py"] ∧
        climbing.walk ⟨["r", "up"], true⟩ .silent .sequential [0x72] = .ok (pruned, updates') ∧
        whole.Filters ["r", "up"] pruned ∧ pruned.files.map FileReport.path = ["a.py"] := by
  have hfs : climbing.WellFormed := by decide
  obtain ⟨-, hwalk, htree⟩ := prune_eq_filter hfs ["r", "up"] true .silent .sequential [0x72]
  refine ⟨hfs, ?_, ?_⟩
  · rw [(htree _ folderTree_climbing).1]
    cbv
  · obtain ⟨⟨whole, updates⟩, hwhole⟩ := exists_walk_of_chart chart_climbing .silent .sequential
    obtain ⟨pruned, updates', hpruned, hfilters⟩ := hwalk whole updates hwhole
    have hpaths : whole.files.map FileReport.path = ["a.py", "up/r/a.py"] := by
      have hsight : climbing.rootSight ⟨[], true⟩ [0x72] = .ok
          (.folder [([0x61, dot, 0x70, 0x79], .file), ([0x75, 0x70], .folder
            [([0x72], .folder [([0x61, dot, 0x70, 0x79], .file)])])]) := by cbv
      obtain ⟨sight, hroot, rfl⟩ := walk_eq_ok hwhole
      obtain rfl := Except.ok.inj (hsight.symm.trans hroot)
      rw [map_path_files]
      cbv
    refine ⟨whole, updates, pruned, updates', hwhole, hpaths, hpruned, hfilters, ?_⟩
    -- Whether a report stays depends on its path alone.
    have hfilter : pruned.files.map FileReport.path = (whole.files.map FileReport.path).filter
        fun text => ∀ c ∈ Path.components text, c ∉ ["r", "up"] := by
      rw [hfilters.files, List.filter_map]
      rfl
    rw [hfilter, hpaths]
    decide

end FileSystem

end RepoSurvey
