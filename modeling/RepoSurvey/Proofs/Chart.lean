import RepoSurvey.Proofs.Snapshot
import RepoSurvey.Tree.Build

/-!
Charts: folder trees that still know the real names of their entries and the real directories of
their folders. The folder tree of a repository is its chart as it is shown, and a chart tells which
entry each of its files stands for.
-/

namespace RepoSurvey

section

variable {α : Type} (key : α → String)

theorem Node.key_trans (a b c : α) (hab : decide (key a ≤ key b) = true)
    (hbc : decide (key b ≤ key c) = true) : decide (key a ≤ key c) = true :=
  decide_eq_true (String.le_trans (of_decide_eq_true hab) (of_decide_eq_true hbc))

theorem Node.key_total (a b : α) : (decide (key a ≤ key b) || decide (key b ≤ key a)) = true := by
  simpa using String.le_total (key a) (key b)

/-- What is put in the order of some texts has these in order. -/
theorem Node.pairwise_mergeSort_key (l : List α) :
    ((l.mergeSort fun a b => decide (key a ≤ key b)).map key).Pairwise fun a b => a ≤ b := by
  have hsorted := List.pairwise_mergeSort (key_trans key) (key_total key) l
  apply List.pairwise_map.mpr
  exact hsorted.imp fun hab => of_decide_eq_true hab

/-- The order of some texts leaves elements of the same text as they come. -/
theorem Node.filter_mergeSort_key (l : List α) (text : String) :
    (l.mergeSort fun a b => decide (key a ≤ key b)).filter (fun a => key a = text) =
      l.filter fun a => key a = text := by
  -- All these elements are alike, so the sort, which is stable, leaves them as they come.
  let alike := l.filter fun a => key a = text
  have hperm : (l.mergeSort fun a b => decide (key a ≤ key b)).Perm l := List.mergeSort_perm _ _
  have hordered : alike.Pairwise fun a b => decide (key a ≤ key b) = true := by
    apply List.pairwise_of_forall_mem_list
    intro a ha b hb
    rw [of_decide_eq_true (List.mem_filter.mp ha).2, of_decide_eq_true (List.mem_filter.mp hb).2]
    exact decide_eq_true (String.le_refl text)
  have hsublist : alike.Sublist (l.mergeSort fun a b => decide (key a ≤ key b)) :=
    List.sublist_mergeSort (key_trans key) (key_total key) hordered List.filter_sublist
  have hkept : alike.Sublist
      ((l.mergeSort fun a b => decide (key a ≤ key b)).filter fun a => key a = text) := by
    have hfilter := hsublist.filter fun a => key a = text
    simpa only [alike, List.filter_filter, Bool.and_self] using hfilter
  exact (hkept.eq_of_length (hperm.filter _).length_eq.symm).symm

/-- Where elements of the same text are the same, a list and its rearrangements have one order only. -/
theorem Node.mergeSort_key_eq_of_perm {l l' : List α} (hperm : l'.Perm l)
    (h : ∀ a ∈ l, ∀ b ∈ l, key a = key b → a = b) :
    (l'.mergeSort fun a b => decide (key a ≤ key b)) =
      l.mergeSort fun a b => decide (key a ≤ key b) := by
  have hsorted (k : List α) : (k.mergeSort fun a b => decide (key a ≤ key b)).Pairwise fun a b =>
      key a ≤ key b :=
    List.pairwise_map.mp (pairwise_mergeSort_key key k)
  have hsame : (l'.mergeSort fun a b => decide (key a ≤ key b)).Perm
      (l.mergeSort fun a b => decide (key a ≤ key b)) :=
    (List.mergeSort_perm l' _).trans (hperm.trans (List.mergeSort_perm l _).symm)
  apply hsame.eq_of_pairwise _ (hsorted l') (hsorted l)
  intro a b ha hb hab hba
  have ha := hperm.mem_iff.mp (List.mem_mergeSort.mp ha)
  exact h a ha b (List.mem_mergeSort.mp hb) (String.le_antisymm hab hba)

end

/-- A folder tree whose entries have their real names and whose folders have their real paths. -/
inductive Chart where
  | file
  | folder (real : RealPath) (items : List (FileName × Chart))

namespace Chart

mutual

/-- A chart as it is shown, under a name. -/
def node (name : String) : Chart → Node
  | file => .file name
  | folder _ items => .folder name (nodes items)

/-- The items of a folder as they are shown. -/
def nodes : List (FileName × Chart) → List Node
  | [] => []
  | (n, c) :: rest => node (Utf8.decodeLossy n) c :: nodes rest

end

@[simp]
theorem name_node (name : String) (c : Chart) : (c.node name).name = name := by
  cases c <;> rw [node] <;> rfl

theorem nodes_eq_map (items : List (FileName × Chart)) :
    nodes items = items.map fun (n, c) => c.node (Utf8.decodeLossy n) := by
  induction items with
  | nil => rw [nodes, List.map_nil]
  | cons i rest ih => rw [nodes, List.map_cons, ih]

/-- A way through the folders of a chart to one of its files. -/
inductive FileAt : Chart → List FileName → Prop where
  | here : FileAt file []
  | inside {real : RealPath} {items : List (FileName × Chart)} {n : FileName} {c : Chart}
      {way : List FileName} (hn : (n, c) ∈ items) (h : FileAt c way) :
      FileAt (folder real items) (n :: way)

theorem fileAt_nil {c : Chart} : c.FileAt [] ↔ c = file := by
  constructor
  · intro h
    cases h
    rfl
  · rintro rfl
    exact .here

theorem fileAt_cons {real : RealPath} {items : List (FileName × Chart)} {n : FileName}
    {way : List FileName} :
    (folder real items).FileAt (n :: way) ↔ ∃ c, (n, c) ∈ items ∧ c.FileAt way := by
  constructor
  · intro h
    cases h with
    | inside hn h => exact ⟨_, hn, h⟩
  · rintro ⟨c, hn, h⟩
    exact .inside hn h

end Chart

namespace FileSystem

/-- As what an entry at a path is shown. A link to a directory is shown only if links are followed, and
whatever leads to no directory is shown as a file. -/
def shownAs (fs : FileSystem) (scope : Scope) (path : Path) : Entry → Option NodeKind
  | .directory _ _ => some .folder
  | .link _ =>
    if fs.isDirectory path then if scope.followLinks then some .folder else none
    else some .file
  | .file _ | .special => some .file

/-- As what is shown that stands at a path. Where nothing can be looked up, that is a file. -/
def shownAt (fs : FileSystem) (scope : Scope) (path : Path) : Option NodeKind :=
  match fs.lstat path with
  | .error _ => some .file
  | .ok s => fs.shownAs scope path s.entry

theorem match_shownAs {β : Type} (fs : FileSystem) (scope : Scope) (path : Path) (e : Entry)
    (hidden file folder : β) :
    (match e with
      | .directory _ _ => folder
      | .link _ =>
        if fs.isDirectory path then if scope.followLinks then folder else hidden else file
      | _ => file) =
      match fs.shownAs scope path e with
      | none => hidden
      | some .file => file
      | some .folder => folder := by
  cases e with
  | directory inner fault => rfl
  | file content => rfl
  | special => rfl
  | link target =>
    rw [shownAs]
    by_cases hdir : fs.isDirectory path = true
    · by_cases hfollow : scope.followLinks = true
      · simp [hdir, hfollow]
      · simp [hdir, hfollow]
    · simp [hdir]

theorem nodeAt_eq_shownAt (fs : FileSystem) (scope : Scope) (fresh : List RealPath) (path : Path)
    (name : String) :
    fs.nodeAt scope fresh path name =
      match fs.shownAt scope path with
      | none => .ok none
      | some .file => .ok (some (.file name))
      | some .folder => fs.folderAt scope fresh path name := by
  rw [nodeAt, shownAt]
  cases fs.lstat path with
  | error e => rfl
  | ok s => exact match_shownAs fs scope path s.entry _ _ _

mutual

/-- The chart of the directory at a path, unless the way down has passed it. -/
def chartOf (fs : FileSystem) (scope : Scope) (fresh : List RealPath) (path : Path) :
    Except Failure (Option Chart) :=
  match fs.resolve path with
  | .error e => .error (.directoryRead path.shown e)
  | .ok real =>
    if _entered : real.realPath ∈ fresh then
      match fs.list path with
      | .error e => .error (.directoryRead path.shown e)
      | .ok entries =>
        (chartsAt fs scope (fresh.erase real.realPath) path (shownOrder entries)).map
          fun items => some (.folder real.realPath items)
    else .ok none
termination_by (fresh.length, 0)
decreasing_by
  have := FileSystem.length_erase_lt _entered
  omega

/-- The charts of some names in the directory at a path. -/
def chartsAt (fs : FileSystem) (scope : Scope) (fresh : List RealPath) (path : Path)
    (names : List FileName) : Except Failure (List (FileName × Chart)) :=
  match names with
  | [] => .ok []
  | n :: names =>
    if scope.excludes n then chartsAt fs scope fresh path names
    else
      match chartAt fs scope fresh (path.join n) with
      | .error e => .error e
      | .ok chart =>
        (chartsAt fs scope fresh path names).map fun items =>
          (chart.map fun c => (n, c)).toList ++ items
termination_by (fresh.length, names.length + 1)

/-- The chart of the entry at a path, unless it is a directory that is not entered. -/
def chartAt (fs : FileSystem) (scope : Scope) (fresh : List RealPath) (path : Path) :
    Except Failure (Option Chart) :=
  match fs.lstat path with
  | .error _ => .ok (some .file)
  | .ok s =>
    match s.entry with
    | .directory _ _ => chartOf fs scope fresh path
    | .link _ =>
      if fs.isDirectory path then
        if scope.followLinks then chartOf fs scope fresh path else .ok none
      else .ok (some .file)
    | _ => .ok (some .file)
termination_by (fresh.length, 1)

end

/-- The chart of the repository at a root. -/
def chart (fs : FileSystem) (scope : Scope) (root : Path) : Except Failure Chart :=
  if fs.isDirectory root then
    match fs.chartOf scope fs.directories root with
    | .error e => .error e
    | .ok none => .error (.invalidPath root.shown)
    | .ok (some chart) => .ok chart
  else .error (.invalidPath root.shown)

theorem chartAt_eq_shownAt (fs : FileSystem) (scope : Scope) (fresh : List RealPath) (path : Path) :
    fs.chartAt scope fresh path =
      match fs.shownAt scope path with
      | none => .ok none
      | some .file => .ok (some .file)
      | some .folder => fs.chartOf scope fresh path := by
  rw [chartAt, shownAt]
  cases fs.lstat path with
  | error e => rfl
  | ok s => exact match_shownAs fs scope path s.entry _ _ _

mutual

theorem folderAt_eq_chartOf (fs : FileSystem) (scope : Scope) (fresh : List RealPath) (path : Path)
    (name : String) :
    fs.folderAt scope fresh path name =
      (fs.chartOf scope fresh path).map (Option.map (Chart.node name)) := by
  rw [folderAt, chartOf]
  cases fs.resolve path with
  | error e => rfl
  | ok real =>
    dsimp only
    by_cases hfresh : real.realPath ∈ fresh
    · rw [dif_pos hfresh, dif_pos hfresh]
      cases fs.list path with
      | error e => rfl
      | ok entries =>
        dsimp only
        rw [nodesAt_eq_chartsAt]
        cases fs.chartsAt scope (fresh.erase real.realPath) path (shownOrder entries) with
        | error e => rfl
        | ok items => rfl
    · rw [dif_neg hfresh, dif_neg hfresh]
      rfl
termination_by (fresh.length, 0)
decreasing_by
  have := FileSystem.length_erase_lt hfresh
  omega

theorem nodesAt_eq_chartsAt (fs : FileSystem) (scope : Scope) (fresh : List RealPath) (path : Path)
    (names : List FileName) :
    fs.nodesAt scope fresh path names = (fs.chartsAt scope fresh path names).map Chart.nodes := by
  cases names with
  | nil =>
    rw [nodesAt, chartsAt]
    rfl
  | cons n names =>
    rw [nodesAt, chartsAt]
    by_cases hn : scope.excludes n
    · rw [if_pos hn, if_pos hn, nodesAt_eq_chartsAt]
    · rw [if_neg hn, if_neg hn, nodeAt_eq_chartAt, nodesAt_eq_chartsAt]
      cases fs.chartAt scope fresh (path.join n) with
      | error e => rfl
      | ok chart =>
        cases fs.chartsAt scope fresh path names with
        | error e => rfl
        | ok items => cases chart <;> rfl
termination_by (fresh.length, names.length + 1)

theorem nodeAt_eq_chartAt (fs : FileSystem) (scope : Scope) (fresh : List RealPath) (path : Path)
    (name : String) :
    fs.nodeAt scope fresh path name =
      (fs.chartAt scope fresh path).map (Option.map (Chart.node name)) := by
  rw [nodeAt_eq_shownAt, chartAt_eq_shownAt]
  cases fs.shownAt scope path with
  | none => rfl
  | some kind =>
    cases kind with
    | file => rfl
    | folder => exact folderAt_eq_chartOf fs scope fresh path name
termination_by (fresh.length, 1)

end

/-- The folder tree of a repository is its chart as it is shown. -/
theorem folderTree_eq_chart (fs : FileSystem) (scope : Scope) (root : Path) :
    fs.folderTree scope root = (fs.chart scope root).map (Chart.node (rootName root)) := by
  unfold folderTree chart
  split
  · rw [folderAt_eq_chartOf]
    cases fs.chartOf scope fs.directories root with
    | error e => rfl
    | ok chart => cases chart <;> rfl
  · rfl

section

variable {fs : FileSystem} {scope : Scope} {fresh : List RealPath} {path root : Path} {c : Chart}

/-! ### What the chart of a directory is -/

theorem chartOf_of_unresolved {e : IoError} (hreal : fs.resolve path = .error e) :
    fs.chartOf scope fresh path = .error (.directoryRead path.shown e) := by
  rw [chartOf, hreal]

theorem chartOf_of_not_mem {real : Standing} (hreal : fs.resolve path = .ok real)
    (hfresh : real.realPath ∉ fresh) : fs.chartOf scope fresh path = .ok none := by
  rw [chartOf, hreal]
  simp only [hfresh, ↓reduceDIte]

/-- A directory that cannot be listed has no chart, whatever is in it. -/
theorem chartOf_of_unlisted {real : Standing} {e : IoError} (hreal : fs.resolve path = .ok real)
    (hfresh : real.realPath ∈ fresh) (hlist : fs.list path = .error e) :
    fs.chartOf scope fresh path = .error (.directoryRead path.shown e) := by
  rw [chartOf, hreal]
  simp only [hfresh, ↓reduceDIte, hlist]

theorem chartOf_of_mem {real : Standing} {entries : Listing} (hreal : fs.resolve path = .ok real)
    (hlist : fs.list path = .ok entries) (hfresh : real.realPath ∈ fresh) :
    fs.chartOf scope fresh path =
      (fs.chartsAt scope (fresh.erase real.realPath) path (shownOrder entries)).map
        fun items => some (.folder real.realPath items) := by
  rw [chartOf, hreal]
  simp only [hfresh, ↓reduceDIte, hlist]

/-- The folder tree of a root is made of the nodes of what the root lists. -/
theorem folderTree_of_list {entries : Listing} {real : Standing} {nodes : List Node}
    (hdir : fs.isDirectory root = true) (hreal : fs.resolve root = .ok real)
    (hfresh : real.realPath ∈ fs.directories) (hlist : fs.list root = .ok entries)
    (hnodes : fs.nodesAt scope (fs.directories.erase real.realPath) root (shownOrder entries) =
      .ok nodes) : fs.folderTree scope root = .ok (.folder (rootName root) nodes) := by
  have hfolder : fs.folderAt scope fs.directories root (rootName root) =
      .ok (some (.folder (rootName root) nodes)) := by
    rw [folderAt, hreal]
    dsimp only
    rw [dif_pos hfresh, hlist]
    dsimp only
    rw [hnodes]
    rfl
  rw [folderTree, if_pos hdir, hfolder]

/-- What the chart of a directory consists of. -/
theorem eq_folder_of_chartOf (h : fs.chartOf scope fresh path = .ok (some c)) :
    ∃ s entries items, fs.stat path = .ok s ∧ s.entry = .directory entries none ∧ s.realPath ∈ fresh ∧
      fs.chartsAt scope (fresh.erase s.realPath) path (shownOrder entries) = .ok items ∧
      c = .folder s.realPath items := by
  cases hreal : fs.resolve path with
  | error e => simp [chartOf_of_unresolved hreal] at h
  | ok real =>
    by_cases hfresh : real.realPath ∈ fresh
    · cases hlist : fs.list path with
      | error e => simp [chartOf_of_unlisted hreal hfresh hlist] at h
      | ok entries =>
        obtain ⟨s, hs, hentries⟩ := exists_stat_of_list hlist
        obtain rfl := resolve_eq_stat hreal hs
        rw [chartOf_of_mem hreal hlist hfresh] at h
        cases hitems : fs.chartsAt scope (fresh.erase real.realPath) path (shownOrder entries) with
        | error e => simp [hitems, Except.map] at h
        | ok items =>
          simp only [hitems, Except.map, Except.ok.injEq, Option.some.injEq] at h
          exact ⟨real, entries, items, hs, hentries, hfresh, hitems, h.symm⟩
    · simp [chartOf_of_not_mem hreal hfresh] at h

theorem mem_of_chartOf_eq_none {s : Standing} (h : fs.chartOf scope fresh path = .ok none)
    (hs : fs.stat path = .ok s) : s.realPath ∉ fresh := by
  intro hmem
  cases hreal : fs.resolve path with
  | error e => simp [chartOf_of_unresolved hreal] at h
  | ok real =>
    obtain rfl := resolve_eq_stat hreal hs
    cases hlist : fs.list path with
    | error e => simp [chartOf_of_unlisted hreal hmem hlist] at h
    | ok entries =>
      rw [chartOf_of_mem hreal hlist hmem] at h
      cases hitems : fs.chartsAt scope (fresh.erase real.realPath) path (shownOrder entries) with
      | error e => simp [hitems, Except.map] at h
      | ok items => simp [hitems, Except.map] at h

/-- In the chart of a directory stand the charts of the names that are not left out. -/
theorem chartsAt_eq_ok {names : List FileName} {items : List (FileName × Chart)}
    (h : fs.chartsAt scope fresh path names = .ok items) :
    (∀ n ∈ names, scope.excludes n = false → ∃ c?, fs.chartAt scope fresh (path.join n) = .ok c?) ∧
      ∀ n c, (n, c) ∈ items ↔ n ∈ names ∧ scope.excludes n = false ∧
        fs.chartAt scope fresh (path.join n) = .ok (some c) := by
  -- A name that is left out adds nothing; any other must have a chart for the rest to have one.
  induction names generalizing items with
  | nil =>
    rw [chartsAt] at h
    obtain rfl : [] = items := by simpa using h
    simp
  | cons m names ih =>
    rw [chartsAt] at h
    by_cases hm : scope.excludes m = true
    · rw [if_pos hm] at h
      obtain ⟨hall, hmem⟩ := ih h
      constructor
      · intro n hn hex
        rcases List.mem_cons.mp hn with rfl | hn
        · simp [hm] at hex
        · exact hall n hn hex
      · intro n c
        rw [hmem, List.mem_cons]
        constructor
        · rintro ⟨hn, hrest⟩
          exact ⟨Or.inr hn, hrest⟩
        · rintro ⟨rfl | hn, hex, hc⟩
          · simp [hm] at hex
          · exact ⟨hn, hex, hc⟩
    · rw [if_neg hm] at h
      cases hchart : fs.chartAt scope fresh (path.join m) with
      | error e => simp [hchart] at h
      | ok c? =>
        cases hitems : fs.chartsAt scope fresh path names with
        | error e => simp [hchart, hitems, Except.map] at h
        | ok rest =>
          obtain ⟨hall, hmem⟩ := ih hitems
          obtain rfl : (c?.map fun c => (m, c)).toList ++ rest = items := by
            simpa [hchart, hitems, Except.map] using h
          constructor
          · intro n hn hex
            rcases List.mem_cons.mp hn with rfl | hn
            · exact ⟨c?, hchart⟩
            · exact hall n hn hex
          · intro n c
            rw [List.mem_append, hmem, List.mem_cons]
            constructor
            · rintro (hhead | ⟨hn, hrest⟩)
              · obtain ⟨c', rfl, he⟩ := Option.map_eq_some_iff.mp (Option.mem_toList.mp hhead)
                obtain ⟨rfl, rfl⟩ := Prod.mk.inj he
                exact ⟨Or.inl rfl, by simpa using hm, hchart⟩
              · exact ⟨Or.inr hn, hrest⟩
            · rintro ⟨rfl | hn, hex, hc⟩
              · obtain rfl : c? = some c := by simpa [hchart] using hc
                exact Or.inl (by simp)
              · exact Or.inr ⟨hn, hex, hc⟩

/-- Charts can be made of some names exactly if one can be made of each. -/
theorem exists_chartsAt_iff {names : List FileName} :
    (∃ items, fs.chartsAt scope fresh path names = .ok items) ↔
      ∀ n ∈ names, scope.excludes n = false → ∃ c?, fs.chartAt scope fresh (path.join n) = .ok c? := by
  constructor
  · rintro ⟨items, h⟩
    exact (chartsAt_eq_ok h).1
  · intro h
    induction names with
    | nil =>
      rw [chartsAt]
      exact ⟨[], rfl⟩
    | cons m names ih =>
      obtain ⟨items, hitems⟩ := ih fun k hk => h k (List.mem_cons_of_mem m hk)
      rw [chartsAt, hitems]
      by_cases hm : scope.excludes m = true
      · rw [if_pos hm]
        exact ⟨items, rfl⟩
      · obtain ⟨c?, hc⟩ := h m List.mem_cons_self (by simpa using hm)
        rw [if_neg hm, hc]
        exact ⟨_, rfl⟩

/-- The charts of some names stand in the order of the names. -/
theorem map_fst_chartsAt_sublist {names : List FileName} {items : List (FileName × Chart)}
    (h : fs.chartsAt scope fresh path names = .ok items) : (items.map Prod.fst).Sublist names := by
  induction names generalizing items with
  | nil =>
    rw [chartsAt] at h
    obtain rfl : [] = items := by simpa using h
    exact List.Sublist.refl []
  | cons m names ih =>
    rw [chartsAt] at h
    split at h
    · exact (ih h).cons m
    · cases hchart : fs.chartAt scope fresh (path.join m) with
      | error e => simp [hchart] at h
      | ok c? =>
        cases hitems : fs.chartsAt scope fresh path names with
        | error e => simp [hchart, hitems, Except.map] at h
        | ok rest =>
          obtain rfl : (c?.map fun c => (m, c)).toList ++ rest = items := by
            simpa [hchart, hitems, Except.map] using h
          cases c? with
          | none => exact (ih hitems).cons m
          | some c => exact (ih hitems).cons_cons m

theorem pairwise_shownOrder (entries : Listing) :
    ((shownOrder entries).map Utf8.decodeLossy).Pairwise fun a b => a ≤ b :=
  Node.pairwise_mergeSort_key Utf8.decodeLossy (entries.map Prod.fst)

theorem mem_shownOrder {entries : Listing} {n : FileName} :
    n ∈ shownOrder entries ↔ n ∈ entries.map Prod.fst := by
  unfold shownOrder
  exact List.mem_mergeSort

/-! ### Charts that fail -/

theorem exists_chartAt_of_chartsAt_eq_error {names : List FileName} {f : Failure}
    (h : fs.chartsAt scope fresh path names = .error f) :
    ∃ n ∈ names, scope.excludes n = false ∧ fs.chartAt scope fresh (path.join n) = .error f := by
  induction names with
  | nil =>
    rw [chartsAt] at h
    cases h
  | cons n names ih =>
    rw [chartsAt] at h
    by_cases hex : scope.excludes n = true
    · rw [if_pos hex] at h
      obtain ⟨m, hm, hrest⟩ := ih h
      exact ⟨m, List.mem_cons_of_mem n hm, hrest⟩
    · rw [if_neg hex] at h
      cases hchart : fs.chartAt scope fresh (path.join n) with
      | error f' =>
        rw [hchart] at h
        obtain rfl := Except.error.inj h
        exact ⟨n, List.mem_cons_self, by simpa using hex, hchart⟩
      | ok c? =>
        cases hitems : fs.chartsAt scope fresh path names with
        | error f' =>
          rw [hchart, hitems] at h
          obtain rfl := Except.error.inj h
          obtain ⟨m, hm, hrest⟩ := ih hitems
          exact ⟨m, List.mem_cons_of_mem n hm, hrest⟩
        | ok items => simp [hchart, hitems, Except.map] at h

/-- Why the chart of a directory fails: the directory cannot be resolved or listed, or something in it that is
shown as a folder fails. -/
theorem exists_of_chartOf_eq_error {f : Failure} (h : fs.chartOf scope fresh path = .error f) :
    (∃ e, fs.resolve path = .error e ∧ f = .directoryRead path.shown e) ∨
      ∃ real, fs.resolve path = .ok real ∧ real.realPath ∈ fresh ∧
        ((∃ e, fs.list path = .error e ∧ f = .directoryRead path.shown e) ∨
          ∃ entries n, fs.list path = .ok entries ∧ n ∈ entries.map Prod.fst ∧
            scope.excludes n = false ∧ fs.shownAt scope (path.join n) = some .folder ∧
            fs.chartOf scope (fresh.erase real.realPath) (path.join n) = .error f) := by
  cases hreal : fs.resolve path with
  | error e =>
    rw [chartOf_of_unresolved hreal] at h
    exact Or.inl ⟨e, rfl, (Except.error.inj h).symm⟩
  | ok real =>
    by_cases hfresh : real.realPath ∈ fresh
    · refine Or.inr ⟨real, rfl, hfresh, ?_⟩
      cases hlist : fs.list path with
      | error e =>
        rw [chartOf_of_unlisted hreal hfresh hlist] at h
        exact Or.inl ⟨e, rfl, (Except.error.inj h).symm⟩
      | ok entries =>
        rw [chartOf_of_mem hreal hlist hfresh] at h
        cases hitems : fs.chartsAt scope (fresh.erase real.realPath) path (shownOrder entries) with
        | ok items => simp [hitems, Except.map] at h
        | error f' =>
          rw [hitems] at h
          obtain rfl := Except.error.inj h
          obtain ⟨n, hn, hex, hchart⟩ := exists_chartAt_of_chartsAt_eq_error hitems
          rw [chartAt_eq_shownAt] at hchart
          split at hchart
          · cases hchart
          · cases hchart
          · next hshown => exact Or.inr ⟨entries, n, rfl, mem_shownOrder.mp hn, hex, hshown, hchart⟩
    · simp [chartOf_of_not_mem hreal hfresh] at h

/-- Where something in a directory fails, so does the directory. -/
theorem exists_failure_of_chartAt {real : Standing} {entries : Listing} {n : FileName} {f : Failure}
    (hreal : fs.resolve path = .ok real) (hlist : fs.list path = .ok entries)
    (hfresh : real.realPath ∈ fresh) (hn : n ∈ entries.map Prod.fst) (hex : scope.excludes n = false)
    (hchart : fs.chartAt scope (fresh.erase real.realPath) (path.join n) = .error f) :
    ∃ f', fs.chartOf scope fresh path = .error f' := by
  rw [chartOf_of_mem hreal hlist hfresh]
  cases hitems : fs.chartsAt scope (fresh.erase real.realPath) path (shownOrder entries) with
  | error f' => exact ⟨f', rfl⟩
  | ok items =>
    -- Where all names have charts, this one has too.
    obtain ⟨c?, hc⟩ := (chartsAt_eq_ok hitems).1 n (mem_shownOrder.mpr hn) hex
    rw [hchart] at hc
    cases hc

/-- Where a chart fails, some directory could not be read. -/
theorem exists_directoryRead_of_chartOf {fresh : List RealPath} {path : Path} {f : Failure}
    (h : fs.chartOf scope fresh path = .error f) : ∃ text e, f = .directoryRead text e := by
  obtain ⟨e, -, hf⟩ | ⟨real, -, hfresh, ⟨e, -, hf⟩ | ⟨entries, n, -, -, -, -, hchart⟩⟩ :=
    exists_of_chartOf_eq_error h
  · exact ⟨_, e, hf⟩
  · exact ⟨_, e, hf⟩
  · exact exists_directoryRead_of_chartOf hchart
termination_by fresh.length
decreasing_by exact length_erase_lt hfresh

theorem folderTree_failure {f : Failure} (h : fs.folderTree scope root = .error f) :
    (∃ text, f = .invalidPath text) ∨ ∃ text e, f = .directoryRead text e := by
  rw [folderTree_eq_chart] at h
  unfold chart at h
  split at h
  · cases hchart : fs.chartOf scope fs.directories root with
    | error f' =>
      rw [hchart] at h
      obtain rfl := Except.error.inj h
      exact Or.inr (exists_directoryRead_of_chartOf hchart)
    | ok c? =>
      rw [hchart] at h
      cases c? with
      | none => exact Or.inl ⟨_, (Except.error.inj h).symm⟩
      | some c => cases h
  · exact Or.inl ⟨_, (Except.error.inj h).symm⟩

end

end FileSystem

end RepoSurvey
