import RepoSurvey.Proofs.Sight

/-!
The ways to the files that a walk meets, in its order. No way is met twice, so two reports of a walk
have the same path only if the texts of two ways are the same.
-/

namespace RepoSurvey

mutual

/-- The ways through what is met to regular files, in order. -/
def Sight.ways : Sight → List (List FileName)
  | .file => [[]]
  | .broken _ => []
  | .folder items => waysIn items

/-- The ways through the items of a directory to regular files, in order. -/
def waysIn : List (FileName × Sight) → List (List FileName)
  | [] => []
  | (n, sight) :: rest => sight.ways.map (n :: ·) ++ waysIn rest

end

theorem mem_waysIn {items : List (FileName × Sight)} {way : List FileName} :
    way ∈ waysIn items ↔ ∃ n sight rest, (n, sight) ∈ items ∧ rest ∈ sight.ways ∧ way = n :: rest := by
  induction items with
  | nil => simp [waysIn]
  | cons i items ih =>
    obtain ⟨m, s⟩ := i
    rw [waysIn, List.mem_append, ih, List.mem_map]
    constructor
    · rintro (⟨rest, hrest, rfl⟩ | ⟨n, sight, rest, hn, hrest⟩)
      · exact ⟨m, s, rest, List.mem_cons_self, hrest, rfl⟩
      · exact ⟨n, sight, rest, List.mem_cons_of_mem _ hn, hrest⟩
    · rintro ⟨n, sight, rest, hn, hrest, rfl⟩
      rcases List.mem_cons.mp hn with heq | hn
      · obtain ⟨rfl, rfl⟩ := Prod.mk.inj heq
        exact Or.inl ⟨rest, hrest, rfl⟩
      · exact Or.inr ⟨n, sight, rest, hn, hrest, rfl⟩

theorem Sight.mem_ways {sight : Sight} {way : List FileName} :
    way ∈ sight.ways ↔ sight.FileAt way := by
  induction way generalizing sight with
  | nil =>
    rw [fileAt_nil]
    cases sight with
    | file => simp [ways]
    | broken message => simp [ways]
    | folder items => simp [ways, mem_waysIn]
  | cons n way ih =>
    cases sight with
    | file =>
      rw [ways]
      exact ⟨fun h => by simp at h, fun h => by cases h⟩
    | broken message =>
      rw [ways]
      exact ⟨fun h => by simp at h, fun h => by cases h⟩
    | folder items =>
      rw [ways, mem_waysIn, fileAt_cons]
      constructor
      · rintro ⟨_, sight, _, hn, hrest, heq⟩
        obtain ⟨rfl, rfl⟩ := List.cons.inj heq
        exact ⟨sight, hn, ih.mp hrest⟩
      · rintro ⟨sight, hn, hway⟩
        exact ⟨n, sight, way, hn, ih.mpr hway, rfl⟩

/-- Where no directory is met with a name twice, no way is met twice. -/
theorem nodup_waysIn {items : List (FileName × Sight)} (hnames : (items.map Prod.fst).Nodup)
    (hinner : ∀ i ∈ items, i.2.ways.Nodup) : (waysIn items).Nodup := by
  induction items with
  | nil => simp [waysIn]
  | cons i items ih =>
    obtain ⟨n, sight⟩ := i
    obtain ⟨hn, hnames⟩ := List.nodup_cons.mp hnames
    rw [waysIn, List.nodup_append']
    refine ⟨?_, ?_, ?_⟩
    · exact (hinner _ List.mem_cons_self).map (List.cons_injective)
    · exact ih hnames fun j hj => hinner j (List.mem_cons_of_mem _ hj)
    · intro way hway hrest
      obtain ⟨rest, -, rfl⟩ := List.mem_map.mp hway
      obtain ⟨m, s, rest', hm, -, heq⟩ := mem_waysIn.mp hrest
      obtain ⟨rfl, -⟩ := List.cons.inj heq
      exact hn (List.mem_map.mpr ⟨(n, s), hm, rfl⟩)

mutual

/-- What is made of the files among the discoveries is made of the ways to them. -/
theorem Sight.filterMap_discoveries {α : Type} (g : Discovery → Option α)
    (hg : ∀ p message, g (.broken p message) = none) (p : Path) (sight : Sight) :
    (sight.discoveries p).filterMap g = sight.ways.filterMap fun way => g (.file (p.below way)) := by
  cases sight with
  | file =>
    rw [Sight.discoveries, Sight.ways]
    rfl
  | broken message => simp [Sight.discoveries, Sight.ways, hg]
  | folder items =>
    rw [Sight.discoveries, Sight.ways]
    exact filterMap_discoveriesIn g hg p items

theorem filterMap_discoveriesIn {α : Type} (g : Discovery → Option α)
    (hg : ∀ p message, g (.broken p message) = none) (p : Path) (items : List (FileName × Sight)) :
    (discoveriesIn p items).filterMap g = (waysIn items).filterMap fun way =>
      g (.file (p.below way)) := by
  cases items with
  | nil => simp [discoveriesIn, waysIn]
  | cons i rest =>
    obtain ⟨n, sight⟩ := i
    rw [discoveriesIn, waysIn, List.filterMap_append, List.filterMap_append, List.filterMap_map,
      sight.filterMap_discoveries g hg (p.join n), filterMap_discoveriesIn g hg p rest]
    rfl

end

/-- The candidates among what is discovered at a root, way by way. -/
theorem candidatesOf_discoveries (root : Path) (sight : Sight) :
    candidatesOf root (sight.discoveries root) =
      sight.ways.filterMap fun way => (Discovery.file (root.below way)).candidate? root :=
  sight.filterMap_discoveries (Discovery.candidate? root) (fun _ _ => rfl) root

namespace FileSystem

variable {fs : FileSystem} {scope : Scope} {fresh : List RealPath} {path root : Path}
  {entries : Listing} {fault : Option IoError} {s : Standing} {sight : Sight}

/-- No directory is met with a name twice. -/
theorem nodup_map_fst_sightsIn (hdistinct : (entries.map Prod.fst).Nodup) :
    ((fs.sightsIn scope fresh path entries).map Prod.fst).Nodup := by
  rw [sightsIn, Meeting.inOrder, List.map_map]
  have hperm := (List.mergeSort_perm (fs.meetings scope fresh path entries) Meeting.before).map
    Meeting.name
  exact hperm.nodup_iff.mpr (nodup_meetings hdistinct path)

/-- A walk meets no way twice. -/
theorem nodup_waysIn_sightsIn {fresh : List RealPath} {path : Path} {entries : Listing}
    {fault : Option IoError} {s : Standing} {items : List (FileName × Sight)} (hfs : fs.WellFormed)
    (hs : fs.stat path = .ok s) (hdir : s.entry = .directory entries fault)
    (hitems : fs.sightsIn scope fresh path entries = items) : (waysIn items).Nodup := by
  have hl : entries.IsProper := ((Placed.of_stat hs).throughout hfs hdir).here
  refine nodup_waysIn (hitems ▸ nodup_map_fst_sightsIn hl.nodup) ?_
  rintro ⟨n, sight⟩ hn
  cases sight with
  | file => simp [Sight.ways]
  | broken message => simp [Sight.ways]
  | folder inner =>
    obtain ⟨-, e, t, l, -, ht, htl, hinner, -⟩ := folder_mem_sightsIn hl hs hdir (hitems ▸ hn)
    rw [Sight.ways]
    exact nodup_waysIn_sightsIn hfs ht htl hinner.symm
termination_by sizeOf items
decreasing_by
  have := List.sizeOf_lt_of_mem hn
  simp only [Prod.mk.sizeOf_spec, Sight.folder.sizeOf_spec] at this
  omega

/-- A way leads from a root to a source file that can be read. -/
def ReadsSource (fs : FileSystem) (root : Path) (way : List FileName) : Prop :=
  (fs.read (root.below way)).toBool = true ∧
    Language.isSourceExtension (root.below way).extension = true

instance (fs : FileSystem) (root : Path) (way : List FileName) : Decidable (fs.ReadsSource root way) :=
  inferInstanceAs (Decidable (_ ∧ _))

/-- The paths of the reports are those of the ways to source files that can be read, in order. -/
theorem map_path_files_eq (narrator : Narrator) (sight : Sight) :
    (WalkOutcome.collect root (sight.discoveries root)
        (fs.outcomesOf narrator root (sight.discoveries root))).files.map FileReport.path =
      (sight.ways.filter fun way => fs.ReadsSource root way).map fun way =>
        root.relative (root.below way) := by
  rw [map_path_files, candidatesOf_discoveries]
  induction sight.ways with
  | nil => rfl
  | cons way ways ih =>
    rw [List.filterMap_cons, List.filter_cons]
    by_cases hext : Language.isSourceExtension (root.below way).extension = true
    · rw [Discovery.candidate?, if_pos hext]
      dsimp only
      rw [List.filter_cons]
      by_cases hread : (fs.read (root.below way)).toBool = true
      · rw [if_pos hread, if_pos (decide_eq_true ⟨hread, hext⟩), List.map_cons, List.map_cons, ih]
      · rw [if_neg hread, if_neg (by simp [ReadsSource, hread]), ih]
    · rw [Discovery.candidate?, if_neg hext, if_neg (by simp [ReadsSource, hext])]
      exact ih

/-- A walk through the repository at a root meets a regular file on a way. -/
def Meets (fs : FileSystem) (scope : Scope) (root : Path) (way : List FileName) : Prop :=
  ∃ sight, fs.rootSight scope root = .ok sight ∧ sight.FileAt way

theorem mem_ways_iff_meets (h : fs.rootSight scope root = .ok sight) {way : List FileName} :
    way ∈ sight.ways ↔ fs.Meets scope root way := by
  unfold Meets
  rw [h]
  constructor
  · intro hway
    exact ⟨sight, rfl, Sight.mem_ways.mp hway⟩
  · rintro ⟨sight', heq, hway⟩
    obtain rfl := Except.ok.inj heq
    exact Sight.mem_ways.mpr hway

/-- Only a directory is taken for anything at the root. -/
theorem exists_directory_of_rootSight (h : fs.rootSight scope root = .ok sight) :
    ∃ s entries fault, fs.stat root = .ok s ∧ s.entry = .directory entries fault := by
  unfold rootSight at h
  cases hs : fs.stat root with
  | error e => simp [hs] at h
  | ok s =>
    rw [hs] at h
    cases hentry : s.entry with
    | directory entries fault => exact ⟨s, entries, fault, rfl, hentry⟩
    | file content => simp [hentry] at h
    | special => simp [hentry] at h
    | link target => simp [hentry] at h

theorem rootSight_of_directory (hs : fs.stat root = .ok s) (hdir : s.entry = .directory entries none) :
    fs.rootSight scope root =
      .ok (.folder (fs.sightsIn scope (fs.directories.erase s.realPath) root entries)) := by
  simp only [rootSight, hs, hdir]

theorem rootSight_of_fault {e : IoError} (scope : Scope) (hs : fs.stat root = .ok s)
    (hdir : s.entry = .directory entries (some e)) :
    fs.rootSight scope root = .ok (.folder []) ∨
      ∃ message, fs.rootSight scope root = .ok (.broken message) := by
  simp only [rootSight, hs, hdir]
  split
  · exact Or.inl rfl
  · exact Or.inr ⟨_, rfl⟩

/-- What the root of a walk is taken for: what is met in its directory, or nothing with a file in it. -/
theorem rootSight_eq_ok (h : fs.rootSight scope root = .ok sight) :
    (∃ s entries, fs.stat root = .ok s ∧ s.entry = .directory entries none ∧
        sight = .folder (fs.sightsIn scope (fs.directories.erase s.realPath) root entries)) ∨
      sight = .folder [] ∨ ∃ message, sight = .broken message := by
  obtain ⟨s, entries, fault, hs, hdir⟩ := exists_directory_of_rootSight h
  cases fault with
  | none =>
    exact Or.inl ⟨s, entries, hs, hdir, Except.ok.inj (h.symm.trans (rootSight_of_directory hs hdir))⟩
  | some e =>
    right
    rcases rootSight_of_fault scope hs hdir with hnone | ⟨message, hbroken⟩
    · exact Or.inl (Except.ok.inj (h.symm.trans hnone))
    · exact Or.inr ⟨message, Except.ok.inj (h.symm.trans hbroken)⟩

/-- Where the root cannot be listed, nothing is met on any way. -/
theorem exists_rootSight_of_fault {e : IoError} (scope : Scope) (hs : fs.stat root = .ok s)
    (hdir : s.entry = .directory entries (some e)) :
    ∃ sight, fs.rootSight scope root = .ok sight ∧ sight.ways = [] := by
  rcases rootSight_of_fault scope hs hdir with hnone | ⟨message, hbroken⟩
  · exact ⟨_, hnone, rfl⟩
  · exact ⟨_, hbroken, rfl⟩

theorem exists_rootSight_of_directory (scope : Scope) (hs : fs.stat root = .ok s)
    (hdir : s.entry = .directory entries fault) : ∃ sight, fs.rootSight scope root = .ok sight := by
  cases fault with
  | none => exact ⟨_, rootSight_of_directory hs hdir⟩
  | some e =>
    obtain ⟨sight, hsight, -⟩ := exists_rootSight_of_fault scope hs hdir
    exact ⟨sight, hsight⟩

theorem exists_walk_of_directory (hs : fs.stat root = .ok s)
    (hdir : s.entry = .directory entries fault) (narrator : Narrator) (mode : Mode) :
    ∃ result, fs.walk scope narrator mode root = .ok result := by
  obtain ⟨sight, hsight⟩ := exists_rootSight_of_directory scope hs hdir
  unfold walk discoveries
  rw [hsight]
  exact ⟨_, rfl⟩

/-- Where a walk meets a file, its root is a directory that can be listed. -/
theorem Meets.exists_directory {way : List FileName} (h : fs.Meets scope root way) :
    ∃ s entries, fs.stat root = .ok s ∧ s.entry = .directory entries none ∧
      (Sight.folder (fs.sightsIn scope (fs.directories.erase s.realPath) root entries)).FileAt way := by
  obtain ⟨sight, hsight, hfile⟩ := h
  rcases rootSight_eq_ok hsight with ⟨s, entries, hs, hdir, rfl⟩ | rfl | ⟨message, rfl⟩
  · exact ⟨s, entries, hs, hdir, hfile⟩
  · cases hfile with
    | inside hn => cases hn
  · cases hfile

/-- The names on a way to a file are such as entries can have. -/
theorem proper_of_meets (hfs : fs.WellFormed) {way : List FileName} (h : fs.Meets scope root way) :
    ∀ n ∈ way, n.IsProper := by
  obtain ⟨s, entries, hs, hdir, hfile⟩ := h.exists_directory
  exact (fileAt_sightsIn hfs hs hdir hfile).1

/-- A walk meets no way from its root twice. -/
theorem nodup_ways_of_rootSight (hfs : fs.WellFormed) (h : fs.rootSight scope root = .ok sight) :
    sight.ways.Nodup := by
  rcases rootSight_eq_ok h with ⟨s, entries, hs, hdir, rfl⟩ | rfl | ⟨message, rfl⟩
  · rw [Sight.ways]
    exact nodup_waysIn_sightsIn hfs hs hdir rfl
  · exact List.nodup_nil
  · exact List.nodup_nil

/-- The files of a walk are those on some ways, in order: the ways that it meets to source files that
can be read, each once. -/
theorem exists_ways_of_walk {narrator : Narrator} {mode : Mode} {outcome : WalkOutcome}
    {updates : List Update} (hfs : fs.WellFormed)
    (h : fs.walk scope narrator mode root = .ok (outcome, updates)) :
    ∃ ways : List (List FileName), ways.Nodup ∧
      (∀ way, way ∈ ways ↔ fs.Meets scope root way ∧ fs.ReadsSource root way) ∧
      outcome.files.map FileReport.path = ways.map Path.wayText := by
  obtain ⟨sight, hsight, rfl⟩ := walk_eq_ok h
  refine ⟨sight.ways.filter fun way => fs.ReadsSource root way, ?_, fun way => ?_, ?_⟩
  · exact (nodup_ways_of_rootSight hfs hsight).filter _
  · rw [List.mem_filter, decide_eq_true_iff, mem_ways_iff_meets hsight]
  · rw [map_path_files_eq]
    refine List.map_congr_left fun way hway => Path.relative_below root ?_
    exact proper_of_meets hfs ((mem_ways_iff_meets hsight).mp (List.mem_filter.mp hway).1)

end FileSystem

end RepoSurvey
