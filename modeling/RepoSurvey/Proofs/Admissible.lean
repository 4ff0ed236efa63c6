import RepoSurvey.Proofs.Positions
import RepoSurvey.Proofs.TreeAndWalk

/-!
The folder tree of a repository, way by way. A name stands in the tree exactly where it can be reached
through directories that are shown as folders and of which none has been entered before on the way.
-/

namespace RepoSurvey

namespace FileSystem

/-- The directory at a path has an entry of a name that is not left out and is shown as a node of a
kind. -/
def Offers (fs : FileSystem) (scope : Scope) (path : Path) (n : FileName) (kind : NodeKind) : Prop :=
  ∃ l e, fs.list path = .ok l ∧ (n, e) ∈ l ∧ scope.excludes n = false ∧
    fs.shownAs scope (path.join n) e = some kind

/-- Some names lead down from the directory at a path to what is shown as a node of a kind. Each name but
the last is that of a directory, each is that of an entry of the directory before, and no directory, be it the
last, is one that has been passed. -/
inductive Admissible (fs : FileSystem) (scope : Scope) :
    (passed : List RealPath) → Path → List FileName → NodeKind → Prop where
  | file {passed : List RealPath} {path : Path} {n : FileName} (hn : fs.Offers scope path n .file) :
      Admissible fs scope passed path [n] .file
  | folder {passed : List RealPath} {path : Path} {n : FileName} {t : Standing}
      (hn : fs.Offers scope path n .folder) (ht : fs.resolve (path.join n) = .ok t)
      (hnew : t.realPath ∉ passed) : Admissible fs scope passed path [n] .folder
  | inside {passed : List RealPath} {path : Path} {n : FileName} {way : List FileName}
      {kind : NodeKind} {t : Standing} (hn : fs.Offers scope path n .folder)
      (ht : fs.resolve (path.join n) = .ok t) (hnew : t.realPath ∉ passed)
      (h : Admissible fs scope (t.realPath :: passed) (path.join n) way kind) :
      Admissible fs scope passed path (n :: way) kind

/-- Every directory that stands in a directory on an admissible way can be resolved and listed. -/
def Accessible (fs : FileSystem) (scope : Scope) (passed : List RealPath) (path : Path) : Prop :=
  ∀ way n, (way = [] ∨ fs.Admissible scope passed path way .folder) →
    fs.Offers scope (path.below way) n .folder →
    ∃ t l, fs.resolve ((path.below way).join n) = .ok t ∧ fs.list ((path.below way).join n) = .ok l

/-- `fresh` has those directories of a snapshot that have not been passed. -/
structure Splits (fs : FileSystem) (fresh passed : List RealPath) : Prop where
  nodup : fresh.Nodup
  mem_iff : ∀ q ∈ fs.directories, q ∈ fresh ↔ q ∉ passed

variable {fs : FileSystem} {scope : Scope} {fresh passed : List RealPath} {path root : Path}
  {entries : Listing} {fault : Option IoError} {s t : Standing} {n m : FileName} {e : Entry}
  {way : List FileName} {kind : NodeKind}

theorem splits_directories (hfs : fs.WellFormed) : fs.Splits fs.directories [] where
  nodup := hfs.nodup_directories
  mem_iff _ hq := by simpa using hq

/-- To enter a directory is to pass it. -/
theorem Splits.erase (h : fs.Splits fresh passed) (real : RealPath) :
    fs.Splits (fresh.erase real) (real :: passed) where
  nodup := h.nodup.erase real
  mem_iff q hq := by
    rw [h.nodup.mem_erase_iff, h.mem_iff q hq, List.mem_cons, not_or]

theorem Accessible.here (h : fs.Accessible scope passed path) (hn : fs.Offers scope path n .folder) :
    ∃ t l, fs.resolve (path.join n) = .ok t ∧ fs.list (path.join n) = .ok l :=
  h [] n (Or.inl rfl) hn

theorem Accessible.step (h : fs.Accessible scope passed path) (hn : fs.Offers scope path n .folder)
    (ht : fs.resolve (path.join n) = .ok t) (hnew : t.realPath ∉ passed) :
    fs.Accessible scope (t.realPath :: passed) (path.join n) := by
  intro way m hway
  apply h (n :: way) m
  right
  rcases hway with rfl | hway
  · exact .folder hn ht hnew
  · exact .inside hn ht hnew hway

theorem not_admissible_nil : ¬ fs.Admissible scope passed path [] kind := by
  intro h
  cases h

theorem Admissible.exists_offers (h : fs.Admissible scope passed path (n :: way) kind) :
    ∃ kind', fs.Offers scope path n kind' := by
  cases h with
  | file hn => exact ⟨_, hn⟩
  | folder hn _ _ => exact ⟨_, hn⟩
  | inside hn _ _ _ => exact ⟨_, hn⟩

/-- Behind a name that is no folder's there is nothing. -/
theorem admissible_cons_of_not_folder (hnot : ¬ fs.Offers scope path n .folder) :
    fs.Admissible scope passed path (n :: way) kind ↔
      fs.Offers scope path n .file ∧ way = [] ∧ kind = .file := by
  constructor
  · intro hway
    cases hway with
    | file hn => exact ⟨hn, rfl, rfl⟩
    | folder hn _ _ => exact absurd hn hnot
    | inside hn _ _ _ => exact absurd hn hnot
  · rintro ⟨hn, rfl, rfl⟩
    exact .file hn

/-- Through the name of a folder a way leads on if its directory has not been passed. -/
theorem admissible_cons_of_folder (hn : fs.Offers scope path n .folder)
    (hnot : ¬ fs.Offers scope path n .file) (ht : fs.resolve (path.join n) = .ok t) :
    fs.Admissible scope passed path (n :: way) kind ↔ t.realPath ∉ passed ∧
      (way = [] ∧ kind = .folder ∨
        fs.Admissible scope (t.realPath :: passed) (path.join n) way kind) := by
  constructor
  · intro hway
    cases hway with
    | file hfile => exact absurd hfile hnot
    | folder _ ht' hnew =>
      obtain rfl := Except.ok.inj (ht.symm.trans ht')
      exact ⟨hnew, Or.inl ⟨rfl, rfl⟩⟩
    | inside _ ht' hnew h =>
      obtain rfl := Except.ok.inj (ht.symm.trans ht')
      exact ⟨hnew, Or.inr h⟩
  · rintro ⟨hnew, ⟨rfl, rfl⟩ | h⟩
    · exact .folder hn ht hnew
    · exact .inside hn ht hnew h

theorem offers_of_mem (hlist : fs.list path = .ok entries) (hl : entries.IsProper)
    (he : (n, e) ∈ entries) (hex : scope.excludes n = false) (kind : NodeKind) :
    fs.Offers scope path n kind ↔ fs.shownAs scope (path.join n) e = some kind := by
  constructor
  · rintro ⟨l, e', hl', he', -, hkind⟩
    obtain rfl := Except.ok.inj (hlist.symm.trans hl')
    have hsame := (Listing.lookup_of_mem hl.nodup he).symm.trans (Listing.lookup_of_mem hl.nodup he')
    obtain rfl := Option.some.inj hsame
    exact hkind
  · intro hkind
    exact ⟨entries, e, hlist, he, hex, hkind⟩

/-- Under its name an entry is shown as its directory says, unless it is a directory whose path is too long
to be looked up. -/
theorem shownAt_join (hs : fs.stat path = .ok s) (hdir : s.entry = .directory entries fault)
    (hl : entries.IsProper) (he : (n, e) ∈ entries)
    (h : fs.shownAs scope (path.join n) e = some .folder → ∃ t, fs.stat (path.join n) = .ok t) :
    fs.shownAt scope (path.join n) = fs.shownAs scope (path.join n) e := by
  have hn := hl.proper n (List.mem_map.mpr ⟨(n, e), he, rfl⟩)
  have hlook := Listing.lookup_of_mem hl.nodup he
  rw [shownAt]
  by_cases hlink : ∃ target, e = .link target
  · obtain ⟨target, rfl⟩ := hlink
    rcases lstat_join_of_link hs hdir hn hlook with hlstat | ⟨hlstat, hstat⟩
    · rw [hlstat]
      rfl
    · have hnot : fs.isDirectory (path.join n) = false := by
        rw [isDirectory, hstat]
      rw [hlstat, shownAs, hnot]
      rfl
  · obtain ⟨hlstat, hstat⟩ := stat_join_of_not_link hs hdir hn hlook fun target he => hlink ⟨target, he⟩
    rcases hstat with hstat | hstat
    · rw [hlstat, hstat]
      cases e with
      | directory inner fault =>
        obtain ⟨t, ht⟩ := h rfl
        rw [hstat] at ht
        cases ht
      | link target => exact absurd ⟨target, rfl⟩ hlink
      | file content => rfl
      | special => rfl
    · rw [hlstat, hstat]
      rfl

mutual

/-- The chart of a directory has the admissible ways below it. -/
theorem chartsAt_admissible (hfs : fs.WellFormed) {fresh passed : List RealPath} {path : Path}
    {s : Standing} {entries : Listing} (hs : fs.stat path = .ok s)
    (hdir : s.entry = .directory entries none) (hsplits : fs.Splits fresh passed)
    (hacc : fs.Accessible scope passed path) (real : RealPath) :
    ∃ items, fs.chartsAt scope fresh path (shownOrder entries) = .ok items ∧
      (Chart.folder real items).Distinct ∧ ∀ n way kind,
        (Chart.folder real items).At (n :: way) kind ↔
          fs.Admissible scope passed path (n :: way) kind := by
  have hl : entries.IsProper := ((Placed.of_stat hs).throughout hfs hdir).here
  have hlist := list_of_directory hs hdir
  have hentry (n : FileName) (e : Entry) (he : (n, e) ∈ entries) (hex : scope.excludes n = false) :=
    chartAt_admissible hfs hs hdir hsplits hacc he hex
  have hsome : ∀ n ∈ shownOrder entries, scope.excludes n = false →
      ∃ c?, fs.chartAt scope fresh (path.join n) = .ok c? := by
    intro n hn hex
    obtain ⟨e, he, -⟩ := exists_entry hl (mem_shownOrder.mp hn)
    obtain ⟨c?, hc, -⟩ := hentry n e he hex
    exact ⟨c?, hc⟩
  obtain ⟨items, hitems⟩ := exists_chartsAt_iff.mpr hsome
  obtain ⟨-, hmem⟩ := chartsAt_eq_ok hitems
  refine ⟨items, hitems, .folder ?_ ?_, ?_⟩
  · have hnames : (shownOrder entries).Nodup :=
      (List.mergeSort_perm _ _).nodup_iff.mpr hl.nodup
    exact hnames.sublist (map_fst_chartsAt_sublist hitems)
  · rintro ⟨n, c⟩ hn
    obtain ⟨hn, hex, hc⟩ := (hmem n c).mp hn
    obtain ⟨e, he, -⟩ := exists_entry hl (mem_shownOrder.mp hn)
    obtain ⟨c?, hc', hdistinct, -⟩ := hentry n e he hex
    obtain rfl := Except.ok.inj (hc.symm.trans hc')
    exact hdistinct c rfl
  · intro n way kind
    rw [Chart.at_folder_cons]
    constructor
    · rintro ⟨c, hn, hat⟩
      obtain ⟨hn, hex, hc⟩ := (hmem n c).mp hn
      obtain ⟨e, he, -⟩ := exists_entry hl (mem_shownOrder.mp hn)
      obtain ⟨c?, hc', -, hway⟩ := hentry n e he hex
      obtain rfl := Except.ok.inj (hc.symm.trans hc')
      exact (hway way kind).mp ⟨c, rfl, hat⟩
    · -- Whatever its first name leads to, an admissible way begins with an entry of the directory.
      intro hway
      obtain ⟨kind', l, e, hl', he, hex, -⟩ := hway.exists_offers
      obtain rfl := Except.ok.inj (hlist.symm.trans hl')
      obtain ⟨c?, hc, -, hiff⟩ := hentry n e he hex
      obtain ⟨c, rfl, hat⟩ := (hiff way kind).mpr hway
      have hn : n ∈ shownOrder entries := mem_shownOrder.mpr (List.mem_map.mpr ⟨(n, e), he, rfl⟩)
      exact ⟨c, (hmem n c).mpr ⟨hn, hex, hc⟩, hat⟩
termination_by (fresh.length, 1)

/-- The chart of an entry has the admissible ways through it. -/
theorem chartAt_admissible (hfs : fs.WellFormed) {fresh passed : List RealPath} {path : Path}
    {s : Standing} {entries : Listing} {n : FileName} {e : Entry} (hs : fs.stat path = .ok s)
    (hdir : s.entry = .directory entries none) (hsplits : fs.Splits fresh passed)
    (hacc : fs.Accessible scope passed path) (he : (n, e) ∈ entries)
    (hex : scope.excludes n = false) :
    ∃ c?, fs.chartAt scope fresh (path.join n) = .ok c? ∧ (∀ c, c? = some c → c.Distinct) ∧
      ∀ way kind, (∃ c, c? = some c ∧ c.At way kind) ↔
        fs.Admissible scope passed path (n :: way) kind := by
  have hl : entries.IsProper := ((Placed.of_stat hs).throughout hfs hdir).here
  have hoffers := offers_of_mem (list_of_directory hs hdir) hl he hex
  -- What is shown as a folder can be listed, so its path is not too long to be looked up.
  have hshownAt := shownAt_join hs hdir hl he fun hshown => by
    obtain ⟨t, l, -, hlist⟩ := hacc.here ((hoffers .folder).mpr hshown)
    obtain ⟨t', hstat, -⟩ := exists_stat_of_list hlist
    exact ⟨t', hstat⟩
  rw [chartAt_eq_shownAt, hshownAt]
  cases hshown : fs.shownAs scope (path.join n) e with
  | none =>
    have hnot (kind : NodeKind) : ¬ fs.Offers scope path n kind := by
      rw [hoffers, hshown]
      simp
    refine ⟨none, rfl, by simp, fun way kind => ?_⟩
    rw [admissible_cons_of_not_folder (hnot .folder)]
    simp [hnot .file]
  | some kind' =>
    cases kind' with
    | file =>
      have hn : fs.Offers scope path n .file := (hoffers .file).mpr hshown
      have hnot : ¬ fs.Offers scope path n .folder := by
        rw [hoffers, hshown]
        simp
      refine ⟨some .file, rfl, ?_, fun way kind => ?_⟩
      · intro c hc
        obtain rfl := Option.some.inj hc
        exact .file
      · rw [admissible_cons_of_not_folder hnot]
        simp [Chart.at_file_iff, hn]
    | folder =>
      have hn : fs.Offers scope path n .folder := (hoffers .folder).mpr hshown
      have hnot : ¬ fs.Offers scope path n .file := by
        rw [hoffers, hshown]
        simp
      obtain ⟨t, l, ht, hlist⟩ := hacc.here hn
      obtain ⟨t', hstat, hl'⟩ := exists_stat_of_list hlist
      obtain rfl := resolve_eq_stat ht hstat
      have hreal := ((Placed.of_stat hstat).mem_directories hl').1
      by_cases hfresh : t.realPath ∈ fresh
      · -- The directory is entered, and is passed for all that lies below it.
        have hnew : t.realPath ∉ passed := (hsplits.mem_iff _ hreal).mp hfresh
        obtain ⟨items, hitems, hdistinct, hbelow⟩ := chartsAt_admissible hfs hstat hl'
          (hsplits.erase t.realPath) (hacc.step hn ht hnew) t.realPath
        refine ⟨some (.folder t.realPath items), ?_, ?_, fun way kind => ?_⟩
        · dsimp only
          rw [chartOf_of_mem ht hlist hfresh, hitems]
          rfl
        · intro c hc
          obtain rfl := Option.some.inj hc
          exact hdistinct
        · rw [admissible_cons_of_folder hn hnot ht]
          cases way with
          | nil => simp [Chart.at_folder_nil, hnew, not_admissible_nil]
          | cons m way => simp [hbelow, hnew]
      · -- The directory has been passed, so no way leads through its name.
        have hpassed : ¬ t.realPath ∉ passed := (hsplits.mem_iff _ hreal).not.mp hfresh
        refine ⟨none, chartOf_of_not_mem ht hfresh, by simp, fun way kind => ?_⟩
        rw [admissible_cons_of_folder hn hnot ht]
        simp [hpassed]
termination_by (fresh.length, 0)
decreasing_by exact Prod.Lex.left _ _ (length_erase_lt hfresh)

end

/-- Where the root and every directory on an admissible way can be resolved and listed, the folder tree of a
repository has exactly the admissible ways, each entry once in its folder and the children of every folder
in order. -/
theorem folderTree_eq_admissible (hfs : fs.WellFormed) (hlist : fs.list root = .ok entries)
    (hreal : fs.resolve root = .ok s) (hacc : fs.Accessible scope [s.realPath] root) :
    ∃ c : Chart, fs.folderTree scope root = .ok (c.node (rootName root)) ∧ c.Distinct ∧
      (∀ n way kind, c.At (n :: way) kind ↔
        fs.Admissible scope [s.realPath] root (n :: way) kind) ∧
      (∀ text texts kind, (c.node (rootName root)).At (text :: texts) kind ↔
        ∃ way, way.map Utf8.decodeLossy = text :: texts ∧
          fs.Admissible scope [s.realPath] root way kind) ∧
      (c.node (rootName root)).Ordered := by
  obtain ⟨t, hs, hdir⟩ := exists_stat_of_list hlist
  obtain rfl := resolve_eq_stat hreal hs
  have hroot : fs.isDirectory root = true := isDirectory_iff.mpr ⟨s, entries, none, hs, hdir⟩
  have hmem := ((Placed.of_stat hs).mem_directories hdir).1
  obtain ⟨items, hitems, hdistinct, hbelow⟩ := chartsAt_admissible hfs hs hdir
    ((splits_directories hfs).erase s.realPath) hacc s.realPath
  have hchart : fs.chart scope root = .ok (.folder s.realPath items) := by
    unfold chart
    rw [if_pos hroot, chartOf_of_mem hreal hlist hmem, hitems]
    rfl
  refine ⟨.folder s.realPath items, ?_, hdistinct, hbelow, ?_, Chart.ordered_node _ _⟩
  · rw [folderTree_eq_chart, hchart]
    rfl
  · intro text texts kind
    rw [Chart.at_node_iff]
    -- A way that is shown as at least one name has at least one name.
    apply exists_congr
    intro way
    apply and_congr_right
    intro htexts
    cases way with
    | nil => cases htexts
    | cons n way => exact hbelow n way kind

section

theorem offers_climbing_root (h : climbing.Offers ⟨[], true⟩ [0x72] n .folder) : n = [0x75, 0x70] := by
  obtain ⟨l, e, hl, he, -, hshown⟩ := h
  have hlist : climbing.list [0x72] = .ok
    [([0x61, dot, 0x70, 0x79], .file (.ok [])), ([0x75, 0x70], .link [dot, dot])] := by cbv
  obtain rfl := Except.ok.inj (hlist.symm.trans hl)
  simp only [List.mem_cons, Prod.mk.injEq, List.not_mem_nil, or_false] at he
  rcases he with ⟨rfl, rfl⟩ | ⟨rfl, rfl⟩
  · simp [shownAs] at hshown
  · rfl

theorem offers_climbing_up {p : Path} (hp : p = Path.join [0x72] [0x75, 0x70])
    (h : climbing.Offers ⟨[], true⟩ p n .folder) : n = [0x72] := by
  obtain ⟨l, e, hl, he, -, -⟩ := h
  have hlist : climbing.list p = .ok climbing.entries := by
    rw [hp]
    cbv
  obtain rfl := Except.ok.inj (hlist.symm.trans hl)
  simp only [climbing, List.mem_cons, Prod.mk.injEq, List.not_mem_nil, or_false] at he
  exact he.1

theorem not_admissible_climbing_up {passed : List RealPath} (hpassed : [[0x72]] ∈ passed) :
    ¬ climbing.Admissible ⟨[], true⟩ passed (Path.join [0x72] [0x75, 0x70]) way .folder := by
  have hreal : climbing.resolve ((Path.join [0x72] [0x75, 0x70]).join [0x72]) = .ok
      (climbing.top.child [0x72] (.directory
        [([0x61, dot, 0x70, 0x79], .file (.ok [])), ([0x75, 0x70], .link [dot, dot])])) := by cbv
  -- What the link leads to holds nothing but the directory from which the way has come.
  intro hway
  cases hway with
  | folder hn ht hnew =>
    obtain rfl := offers_climbing_up rfl hn
    obtain rfl := Except.ok.inj (hreal.symm.trans ht)
    exact hnew hpassed
  | inside hn ht hnew _ =>
    obtain rfl := offers_climbing_up rfl hn
    obtain rfl := Except.ok.inj (hreal.symm.trans ht)
    exact hnew hpassed

theorem accessible_climbing : climbing.Accessible ⟨[], true⟩ [[[0x72]]] [0x72] := by
  intro way n hway hn
  rcases hway with rfl | hway
  · obtain rfl := offers_climbing_root hn
    exact ⟨_, _, by cbv, by cbv⟩
  · cases hway with
    | folder hm ht hnew =>
      obtain rfl := offers_climbing_root hm
      obtain rfl := offers_climbing_up rfl hn
      exact ⟨_, _, by cbv, by cbv⟩
    | inside hm _ _ h =>
      obtain rfl := offers_climbing_root hm
      exact absurd h (not_admissible_climbing_up (by simp))

theorem folderTree_eq_admissible_climbing :
    climbing.WellFormed ∧ (climbing.list [0x72]).toBool = true ∧
      ∃ s, climbing.resolve [0x72] = .ok s ∧ climbing.Accessible ⟨[], true⟩ [s.realPath] [0x72] ∧
      ∃ c : Chart, climbing.folderTree ⟨[], true⟩ [0x72] = .ok (c.node (rootName [0x72])) ∧
        c.Distinct ∧
        (∀ n way kind, c.At (n :: way) kind ↔
          climbing.Admissible ⟨[], true⟩ [s.realPath] [0x72] (n :: way) kind) ∧
        (∀ text texts kind, (c.node (rootName [0x72])).At (text :: texts) kind ↔
          ∃ way, way.map Utf8.decodeLossy = text :: texts ∧
            climbing.Admissible ⟨[], true⟩ [s.realPath] [0x72] way kind) ∧
        (c.node (rootName [0x72])).Ordered := by
  have hfs : climbing.WellFormed := by decide
  have hlist : climbing.list [0x72] = .ok
    [([0x61, dot, 0x70, 0x79], .file (.ok [])), ([0x75, 0x70], .link [dot, dot])] := by cbv
  have hreal : climbing.resolve [0x72] = .ok (climbing.top.child [0x72] (.directory
      [([0x61, dot, 0x70, 0x79], .file (.ok [])), ([0x75, 0x70], .link [dot, dot])])) := by cbv
  exact ⟨hfs, by rw [hlist]; rfl, _, hreal, accessible_climbing,
    folderTree_eq_admissible hfs hlist hreal accessible_climbing⟩

end

end FileSystem

end RepoSurvey
