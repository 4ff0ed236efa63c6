import RepoSurvey.Proofs.Chart
import RepoSurvey.Proofs.Ways

/-!
The folder tree and the walk side by side. Both go down the same directories, but the tree enters none
that its way has passed, while the walk checks that only where it follows a link. So they agree on the
files of a repository, but for files on ways that come back into a directory by its own name.
-/

namespace RepoSurvey

/-- Whether an entry can be read if it is a regular file. -/
def Entry.isReadable : Entry → Bool
  | file content => content.toBool
  | _ => true

namespace FileSystem

/-- The real path of the entry at a path, if there is one. -/
def realPathAt (fs : FileSystem) (path : Path) : List RealPath :=
  match fs.stat path with
  | .ok s => [s.realPath]
  | .error _ => []

/-- The real directories that a way enters below the one at a path, in order. -/
def entered (fs : FileSystem) (path : Path) : List FileName → List RealPath
  | n :: m :: way => fs.realPathAt (path.join n) ++ fs.entered (path.join n) (m :: way)
  | _ => []

/-- Whether a way below a root comes back into a directory that it has passed. -/
def ComesBack (fs : FileSystem) (root : Path) (way : List FileName) : Prop :=
  ¬ (fs.realPathAt root ++ fs.entered root way).Nodup

variable {fs : FileSystem} {scope : Scope} {fresh : List RealPath} {path root : Path}
  {entries : Listing} {fault : Option IoError} {s t : Standing} {n : FileName} {e : Entry} {c : Chart}
  {way : List FileName}

theorem isFile_iff : fs.isFile path = true ↔ ∃ t content, fs.stat path = .ok t ∧ t.entry = .file content := by
  unfold isFile
  cases fs.stat path with
  | error err => simp
  | ok t => cases h : t.entry <;> simp [Entry.isFile, h]

theorem isDirectory_iff :
    fs.isDirectory path = true ↔ ∃ t l fault, fs.stat path = .ok t ∧ t.entry = .directory l fault := by
  unfold isDirectory
  cases fs.stat path with
  | error err => simp
  | ok t => cases h : t.entry <;> simp [Entry.isDirectory, h]

/-- The entry that a well-formed directory has under one of its names. -/
theorem exists_entry (hl : entries.IsProper) (hn : n ∈ entries.map Prod.fst) :
    ∃ e, (n, e) ∈ entries ∧ entries.lookup n = some e := by
  obtain ⟨⟨m, e⟩, he, rfl⟩ := List.mem_map.mp hn
  exact ⟨e, he, Listing.lookup_of_mem hl.nodup he⟩

section

variable (hl : entries.IsProper) (hs : fs.stat path = .ok s) (hdir : s.entry = .directory entries fault)

include hl hs hdir

/-- Whatever resolves to a regular file is met under its own name, be it a link or not. -/
theorem file_mem_sightsIn (hfile : fs.isFile (path.join n) = true) (hmem : n ∈ entries.map Prod.fst)
    (hex : scope.excludes n = false) : (n, Sight.file) ∈ fs.sightsIn scope fresh path entries := by
  obtain ⟨t, content, ht, hcontent⟩ := isFile_iff.mp hfile
  obtain ⟨e, he, hlook⟩ := exists_entry hl hmem
  refine mem_sightsIn.mpr ⟨e, he, sightOf_eq_file.mpr ⟨hex, ?_⟩⟩
  by_cases hlink : ∃ target, e = .link target
  · obtain ⟨target, rfl⟩ := hlink
    exact Or.inr ⟨target, t, content, rfl, ht, hcontent⟩
  · obtain rfl := eq_child_of_stat_join hs hdir (hl.proper n hmem) hlook
      (fun target he => hlink ⟨target, he⟩) ht
    exact Or.inl ⟨content, hcontent⟩

/-- At the end of a way to a regular file, the tree and the walk take the same entries. -/
theorem file_mem_sightsIn_iff (hfile : fs.isFile (path.join n) = true) :
    (n, Sight.file) ∈ fs.sightsIn scope fresh path entries ↔
      n ∈ entries.map Prod.fst ∧ scope.excludes n = false ∧
        fs.chartAt scope fresh (path.join n) = .ok (some .file) := by
  obtain ⟨t, content, ht, hcontent⟩ := isFile_iff.mp hfile
  constructor
  · rw [mem_sightsIn]
    rintro ⟨e, he, hsight⟩
    have hmem : n ∈ entries.map Prod.fst := List.mem_map.mpr ⟨(n, e), he, rfl⟩
    have hlook := Listing.lookup_of_mem hl.nodup he
    obtain ⟨hex, ⟨c, rfl⟩ | ⟨target, t', c, rfl, -, -⟩⟩ := sightOf_eq_file.mp hsight
    · obtain ⟨hlstat, hstat⟩ := stat_join_of_not_link hs hdir (hl.proper n hmem) hlook (by simp)
      refine ⟨hmem, hex, ?_⟩
      rw [chartAt, hlstat]
      rcases hstat with hstat | hstat
      · rw [hstat]
      · rw [hstat]
        rfl
    · refine ⟨hmem, hex, ?_⟩
      rw [chartAt]
      rcases lstat_join_of_link hs hdir (hl.proper n hmem) hlook with hlstat | ⟨hlstat, -⟩
      · have hnot : ¬ fs.isDirectory (path.join n) = true := by
          rw [isDirectory_iff]
          rintro ⟨t'', l, fault', ht'', hl'⟩
          obtain rfl := Except.ok.inj (ht.symm.trans ht'')
          rw [hcontent] at hl'
          cases hl'
        rw [hlstat]
        exact if_neg hnot
      · rw [hlstat]
  · rintro ⟨hmem, hex, -⟩
    exact file_mem_sightsIn hl hs hdir hfile hmem hex

/-- A directory that the walk enters is a folder of the chart if the way has not passed it. -/
theorem chartAt_of_folder_mem {inner : List (FileName × Sight)}
    (h : (n, Sight.folder inner) ∈ fs.sightsIn scope fresh path entries)
    (hsucc : ∃ c?, fs.chartAt scope fresh (path.join n) = .ok c?) :
    n ∈ entries.map Prod.fst ∧ scope.excludes n = false ∧ ∃ t l,
      fs.stat (path.join n) = .ok t ∧ t.entry = .directory l none ∧
      inner = fs.sightsIn scope (fresh.erase t.realPath) (path.join n) l ∧
      (t.realPath ∈ fresh → ∃ c, fs.chartOf scope fresh (path.join n) = .ok (some c) ∧
        fs.chartAt scope fresh (path.join n) = .ok (some c)) := by
  obtain ⟨hex, e, t, l, he, ht, htl, rfl, hkind⟩ := folder_mem_sightsIn hl hs hdir h
  have hmem : n ∈ entries.map Prod.fst := List.mem_map.mpr ⟨(n, e), he, rfl⟩
  have hlook := Listing.lookup_of_mem hl.nodup he
  -- Either way the chart of the entry is that of the directory it leads to.
  have hchart : fs.chartAt scope fresh (path.join n) = fs.chartOf scope fresh (path.join n) := by
    rw [chartAt]
    rcases hkind with ⟨rfl, rfl⟩ | ⟨⟨target, rfl⟩, -, hfollow⟩
    · rw [(stat_join_of_not_link hs hdir (hl.proper n hmem) hlook (by simp)).1, ht]
      rfl
    · rcases lstat_join_of_link hs hdir (hl.proper n hmem) hlook with hlstat | ⟨-, hstat⟩
      · rw [hlstat]
        exact (if_pos (isDirectory_iff.mpr ⟨t, l, none, ht, htl⟩)).trans (if_pos hfollow)
      · rw [ht] at hstat
        cases hstat
  refine ⟨hmem, hex, t, l, ht, htl, rfl, fun hfresh => ?_⟩
  obtain ⟨c?, hc⟩ := hsucc
  rw [hchart] at hc
  cases c? with
  | none => exact absurd hfresh (mem_of_chartOf_eq_none hc ht)
  | some c => exact ⟨c, hc, hchart.trans hc⟩

/-- A folder of the chart is a directory that the walk enters, and one that the way has not passed. -/
theorem folder_mem_of_chartAt {real : RealPath} {items : List (FileName × Chart)}
    (hmem : n ∈ entries.map Prod.fst) (hex : scope.excludes n = false)
    (h : fs.chartAt scope fresh (path.join n) = .ok (some (.folder real items))) :
    ∃ t l, fs.stat (path.join n) = .ok t ∧ t.entry = .directory l none ∧ t.realPath ∈ fresh ∧
      fs.chartsAt scope (fresh.erase t.realPath) (path.join n) (shownOrder l) = .ok items ∧
      (n, Sight.folder (fs.sightsIn scope (fresh.erase t.realPath) (path.join n) l)) ∈
        fs.sightsIn scope fresh path entries := by
  obtain ⟨e, he, hlook⟩ := exists_entry hl hmem
  have hproper := hl.proper n hmem
  have hof (hc : fs.chartOf scope fresh (path.join n) = .ok (some (.folder real items)))
      (hkind : ∀ t l, fs.stat (path.join n) = .ok t → t.entry = .directory l none →
        e = .directory l none ∨
          (∃ target, e = .link target) ∧ t.entry = .directory l none ∧ scope.followLinks = true) :
      ∃ t l, fs.stat (path.join n) = .ok t ∧ t.entry = .directory l none ∧ t.realPath ∈ fresh ∧
        fs.chartsAt scope (fresh.erase t.realPath) (path.join n) (shownOrder l) = .ok items ∧
        (n, Sight.folder (fs.sightsIn scope (fresh.erase t.realPath) (path.join n) l)) ∈
          fs.sightsIn scope fresh path entries := by
    obtain ⟨t, l, items', ht, htl, hfresh, hitems, heq⟩ := eq_folder_of_chartOf hc
    obtain ⟨-, rfl⟩ := Chart.folder.inj heq
    refine ⟨t, l, ht, htl, hfresh, hitems, mem_sightsIn.mpr ⟨e, he, ?_⟩⟩
    refine sightOf_eq_folder.mpr ⟨hex, t, l, ht, rfl, ?_⟩
    exact (hkind t l ht htl).imp_right fun ⟨hlink, htl, hfollow⟩ => ⟨hlink, htl, hfresh, hfollow⟩
  rw [chartAt] at h
  by_cases hlink : ∃ target, e = .link target
  · obtain ⟨target, rfl⟩ := hlink
    rcases lstat_join_of_link hs hdir hproper hlook with hlstat | ⟨hlstat, -⟩
    · rw [hlstat] at h
      dsimp only [Standing.child] at h
      split at h
      · split at h
        · exact hof h fun t l _ htl => Or.inr ⟨⟨target, rfl⟩, htl, ‹_›⟩
        · cases h
      · cases h
    · rw [hlstat] at h
      cases h
  · obtain ⟨hlstat, hstat⟩ := stat_join_of_not_link hs hdir hproper hlook
      fun target he => hlink ⟨target, he⟩
    rcases hstat with hstat | hstat
    · rw [hlstat, hstat] at h
      cases h
    · rw [hlstat, hstat] at h
      cases e with
      | directory l fault' =>
        refine hof h fun t l' ht htl => Or.inl ?_
        obtain rfl := Except.ok.inj (ht.symm.trans hstat)
        exact htl
      | link target => exact absurd ⟨target, rfl⟩ hlink
      | file content => cases h
      | special => cases h

end

/-- Below a directory whose chart is made, the tree has those files of the walk whose ways do not come
back. -/
theorem fileAt_chart_iff {items : List (FileName × Chart)} {real : RealPath} (hfs : fs.WellFormed)
    (hs : fs.stat path = .ok s) (hdir : s.entry = .directory entries fault) (hfresh : fresh.Nodup)
    (hitems : fs.chartsAt scope fresh path (shownOrder entries) = .ok items)
    (hfile : fs.isFile (path.below way) = true) :
    (Chart.folder real items).FileAt way ↔
      (Sight.folder (fs.sightsIn scope fresh path entries)).FileAt way ∧
        (fs.entered path way).Nodup ∧ ∀ q ∈ fs.entered path way, q ∈ fresh := by
  induction way generalizing path s entries fault fresh items real with
  | nil =>
    constructor
    · intro h
      cases h
    · rintro ⟨h, -⟩
      cases h
  | cons n way ih =>
    -- A folder of the chart takes its directory out of `fresh`, so what is entered behind it stays
    -- within `fresh` exactly if the directory is not entered again.
    have hl : entries.IsProper := ((Placed.of_stat hs).throughout hfs hdir).here
    obtain ⟨hsucc, hmemitems⟩ := chartsAt_eq_ok hitems
    cases way with
    | nil =>
      have hlast : (n, Sight.file) ∈ fs.sightsIn scope fresh path entries ↔ _ :=
        file_mem_sightsIn_iff hl hs hdir hfile
      simp only [Chart.fileAt_cons, Chart.fileAt_nil, exists_eq_right, Sight.fileAt_cons,
        Sight.fileAt_nil, hlast, hmemitems, mem_shownOrder, entered]
      simp
    | cons m way =>
      rw [Chart.fileAt_cons, Sight.fileAt_cons]
      constructor
      · rintro ⟨c, hc, hway⟩
        obtain ⟨hn, hex, hchart⟩ := (hmemitems n c).mp hc
        cases hway with
        | @inside real' items' _ _ _ hm hway =>
          obtain ⟨t, l, ht, htl, htfresh, hinner, hsight⟩ :=
            folder_mem_of_chartAt hl hs hdir (mem_shownOrder.mp hn) hex hchart
          obtain ⟨hsees, hnodup, hsub⟩ := (ih ht htl (hfresh.erase _) hinner hfile).mp
            (.inside hm hway : (Chart.folder real' items').FileAt _)
          have hreal : fs.realPathAt (path.join n) = [t.realPath] := by simp [realPathAt, ht]
          refine ⟨⟨_, hsight, hsees⟩, ?_, ?_⟩
          · rw [entered, hreal, List.singleton_append, List.nodup_cons]
            exact ⟨fun hmem => (hfresh.mem_erase_iff.mp (hsub _ hmem)).1 rfl, hnodup⟩
          · intro q hq
            rw [entered, hreal, List.singleton_append] at hq
            rcases List.mem_cons.mp hq with rfl | hq
            · exact htfresh
            · exact List.mem_of_mem_erase (hsub q hq)
      · rintro ⟨⟨sight, hsight, hway⟩, hnodup, hsub⟩
        cases hway with
        | @inside inner _ _ _ hm hway =>
          have hn : n ∈ entries.map Prod.fst := by
            obtain ⟨e, he, -⟩ := mem_sightsIn.mp hsight
            exact List.mem_map.mpr ⟨(n, e), he, rfl⟩
          have hex : scope.excludes n = false := by
            obtain ⟨e, he, hof⟩ := mem_sightsIn.mp hsight
            exact (sightOf_eq_folder.mp hof).1
          obtain ⟨-, -, t, l, ht, htl, rfl, hchart⟩ := chartAt_of_folder_mem hl hs hdir hsight
            (hsucc n (mem_shownOrder.mpr hn) hex)
          have hreal : fs.realPathAt (path.join n) = [t.realPath] := by simp [realPathAt, ht]
          rw [entered, hreal, List.singleton_append] at hnodup hsub
          obtain ⟨hnot, hnodup⟩ := List.nodup_cons.mp hnodup
          obtain ⟨c, hof, hat⟩ := hchart (hsub _ List.mem_cons_self)
          obtain ⟨t', l', items', ht', htl', -, hinner, rfl⟩ := eq_folder_of_chartOf hof
          obtain rfl := Except.ok.inj (ht.symm.trans ht')
          obtain ⟨rfl, -⟩ := Entry.directory.inj (htl.symm.trans htl')
          refine ⟨_, (hmemitems n _).mpr ⟨mem_shownOrder.mpr hn, hex, hat⟩, ?_⟩
          refine (ih ht htl (hfresh.erase _) hinner hfile).mpr ⟨.inside hm hway, hnodup, ?_⟩
          intro q hq
          refine hfresh.mem_erase_iff.mpr ⟨?_, hsub q (List.mem_cons_of_mem _ hq)⟩
          rintro rfl
          exact hnot hq

/-- What a walk enters stands in the snapshot. -/
theorem mem_directories_of_entered (hfs : fs.WellFormed) (hs : fs.stat path = .ok s)
    (hdir : s.entry = .directory entries fault)
    (h : (Sight.folder (fs.sightsIn scope fresh path entries)).FileAt way) :
    ∀ q ∈ fs.entered path way, q ∈ fs.directories := by
  induction way generalizing path s entries fault fresh with
  | nil => cases h
  | cons n way ih =>
    have hl : entries.IsProper := ((Placed.of_stat hs).throughout hfs hdir).here
    obtain ⟨sight, hsight, hway⟩ := Sight.fileAt_cons.mp h
    cases hway with
    | here => simp [entered]
    | inside hm hrest =>
      obtain ⟨-, e, t, l, -, ht, htl, rfl, -⟩ := folder_mem_sightsIn hl hs hdir hsight
      intro q hq
      rw [entered, realPathAt, ht] at hq
      rcases List.mem_cons.mp hq with rfl | hq
      · exact ((Placed.of_stat ht).mem_directories htl).1
      · exact ih ht htl (.inside hm hrest) q hq

/-- Where no links are followed, each directory on a way lies below the one before. -/
theorem nodup_entered_of_not_followLinks (hfs : fs.WellFormed) (hfollow : scope.followLinks = false)
    (hs : fs.stat path = .ok s) (hdir : s.entry = .directory entries fault)
    (h : (Sight.folder (fs.sightsIn scope fresh path entries)).FileAt way) :
    (s.realPath :: fs.entered path way).Nodup ∧
      ∀ q ∈ fs.entered path way, ∃ m more, q = s.realPath ++ m :: more := by
  induction way generalizing path s entries fault fresh with
  | nil => cases h
  | cons n way ih =>
    have hl : entries.IsProper := ((Placed.of_stat hs).throughout hfs hdir).here
    obtain ⟨sight, hsight, hway⟩ := Sight.fileAt_cons.mp h
    cases hway with
    | here => simp [entered]
    | @inside inner m _ rest hm hrest =>
      obtain ⟨-, e, t, l, -, ht, htl, rfl, ⟨-, hchild⟩ | ⟨-, -, hf⟩⟩ :=
        folder_mem_sightsIn hl hs hdir hsight
      · obtain ⟨hnodup, hbelow⟩ := ih ht htl (.inside hm hrest)
        have hreal : t.realPath = s.realPath ++ [n] := hchild ▸ realPath_child s n e
        have hall : ∀ q ∈ t.realPath :: fs.entered (path.join n) (m :: rest),
            ∃ m more, q = s.realPath ++ m :: more := by
          intro q hq
          rcases List.mem_cons.mp hq with rfl | hq
          · exact ⟨n, [], hreal⟩
          · obtain ⟨m, more, rfl⟩ := hbelow q hq
            exact ⟨n, m :: more, by simp [hreal]⟩
        rw [entered, realPathAt, ht]
        refine ⟨List.nodup_cons.mpr ⟨?_, hnodup⟩, hall⟩
        intro hself
        obtain ⟨m, more, he⟩ := hall _ hself
        simpa using congrArg List.length he
      · rw [hfollow] at hf
        cases hf

/-- Every regular file of a snapshot can be read. -/
def Readable (fs : FileSystem) : Prop :=
  Listing.Throughout (fun l => ∀ i ∈ l, i.2.isReadable = true) fs.entries

instance (fs : FileSystem) : Decidable fs.Readable :=
  inferInstanceAs (Decidable (Listing.Throughout _ fs.entries))

/-- Where all regular files can be read, a path to one can be read exactly if it can be looked up. -/
theorem toBool_read_eq_isFile (hread : fs.Readable)
    (hend : ∀ t, fs.stat path = .ok t → ∃ content, t.entry = .file content) :
    (fs.read path).toBool = fs.isFile path := by
  unfold read isFile
  cases hstat : fs.stat path with
  | error e => rfl
  | ok t =>
    obtain ⟨content, hcontent⟩ := hend t hstat
    have hplaced := Placed.of_stat hstat
    have hok : content.toBool = true := by
      cases hplaced with
      | top => cases hcontent
      | @child s n e entries fault hplaced hdir hn =>
        obtain rfl : e = .file content := hcontent
        exact (hplaced.throughout hread hdir).here _ (Listing.mem_of_lookup hn)
    simp only [bind, Except.bind, hcontent, hok, Entry.isFile]

/-- A way leads from a root to a regular file of one of the languages. -/
def LeadsToSource (fs : FileSystem) (root : Path) (way : List FileName) : Prop :=
  fs.isFile (root.below way) = true ∧
    Language.isSourceExtension (root.below way).extension = true

/-- A text is that of the way to a file of a chart that stands for a source file. -/
def ShowsSource (fs : FileSystem) (root : Path) (c : Chart) (text : String) : Prop :=
  ∃ way, c.FileAt way ∧ fs.LeadsToSource root way ∧ Path.wayText way = text

theorem eq_folder_of_chart (h : fs.chart scope root = .ok c) :
    ∃ s entries items, fs.stat root = .ok s ∧ s.entry = .directory entries none ∧
      fs.chartsAt scope (fs.directories.erase s.realPath) root (shownOrder entries) = .ok items ∧
      c = .folder s.realPath items := by
  unfold chart at h
  split at h
  · split at h
    · cases h
    · cases h
    · next c' hc =>
      obtain rfl := Except.ok.inj h
      obtain ⟨s, entries, items, hs, hdir, -, hitems, heq⟩ := eq_folder_of_chartOf hc
      exact ⟨s, entries, items, hs, hdir, hitems, heq⟩
  · cases h

/-- Where there is a chart, there is a walk. -/
theorem exists_walk_of_chart (h : fs.chart scope root = .ok c) (narrator : Narrator) (mode : Mode) :
    ∃ result, fs.walk scope narrator mode root = .ok result := by
  obtain ⟨s, entries, items, hs, hdir, -, -⟩ := eq_folder_of_chart h
  exact exists_walk_of_directory hs hdir narrator mode

/-- The files of a walk are the source files on the ways that it meets. -/
theorem mem_files_iff {narrator : Narrator} {mode : Mode} {outcome : WalkOutcome}
    {updates : List Update} {text : String} (hfs : fs.WellFormed) (hread : fs.Readable)
    (h : fs.walk scope narrator mode root = .ok (outcome, updates)) :
    text ∈ outcome.files.map FileReport.path ↔
      ∃ way, fs.Meets scope root way ∧ fs.LeadsToSource root way ∧ Path.wayText way = text := by
  obtain ⟨ways, -, hways, hfiles⟩ := exists_ways_of_walk hfs h
  have hsource : ∀ way, fs.Meets scope root way →
      (fs.ReadsSource root way ↔ fs.LeadsToSource root way) := by
    intro way hmeets
    obtain ⟨s, entries, hs, hdir, hway⟩ := hmeets.exists_directory
    have hend := (fileAt_sightsIn hfs hs hdir hway).2
    rw [ReadsSource, LeadsToSource, toBool_read_eq_isFile hread hend]
  rw [hfiles, List.mem_map]
  constructor
  · rintro ⟨way, hway, htext⟩
    obtain ⟨hmeets, hreads⟩ := (hways way).mp hway
    exact ⟨way, hmeets, (hsource way hmeets).mp hreads, htext⟩
  · rintro ⟨way, hmeets, hleads, htext⟩
    exact ⟨way, (hways way).mpr ⟨hmeets, (hsource way hmeets).mpr hleads⟩, htext⟩

/-- The files of a walk are the source files that a chart shows. -/
def Agree (fs : FileSystem) (root : Path) (c : Chart) (outcome : WalkOutcome) : Prop :=
  ∀ text, text ∈ outcome.files.map FileReport.path ↔ fs.ShowsSource root c text

/-- The chart of a repository has those files of the walk through it whose ways do not come back. -/
theorem fileAt_iff_meets (hfs : fs.WellFormed) (hc : fs.chart scope root = .ok c)
    (hfile : fs.isFile (root.below way) = true) :
    c.FileAt way ↔ fs.Meets scope root way ∧ ¬ fs.ComesBack root way := by
  obtain ⟨s, entries, items, hs, hdir, hitems, rfl⟩ := eq_folder_of_chart hc
  have hsight : fs.rootSight scope root = _ := rootSight_of_directory hs hdir
  have hmeets : fs.Meets scope root way ↔ (Sight.folder
      (fs.sightsIn scope (fs.directories.erase s.realPath) root entries)).FileAt way := by
    unfold Meets
    rw [hsight]
    constructor
    · rintro ⟨sight, heq, hway⟩
      obtain rfl := Except.ok.inj heq
      exact hway
    · exact fun hway => ⟨_, rfl, hway⟩
  have hreal : fs.realPathAt root = [s.realPath] := by simp [realPathAt, hs]
  have hnodup := hfs.nodup_directories
  rw [fileAt_chart_iff hfs hs hdir (hnodup.erase _) hitems hfile, hmeets, ComesBack, not_not, hreal,
    List.singleton_append, List.nodup_cons]
  refine and_congr_right fun hway => ?_
  constructor
  · rintro ⟨hentered, hfresh⟩
    exact ⟨fun hself => (hnodup.mem_erase_iff.mp (hfresh _ hself)).1 rfl, hentered⟩
  · rintro ⟨hself, hentered⟩
    refine ⟨hentered, fun q hq => hnodup.mem_erase_iff.mpr ⟨?_, ?_⟩⟩
    · rintro rfl
      exact hself hq
    · exact mem_directories_of_entered hfs hs hdir hway q hq

/-- Without following links no walk comes back. -/
theorem not_comesBack_of_not_followLinks (hfs : fs.WellFormed) (hfollow : scope.followLinks = false)
    (h : fs.Meets scope root way) : ¬ fs.ComesBack root way := by
  obtain ⟨s, entries, hs, hdir, hway⟩ := h.exists_directory
  have hreal : fs.realPathAt root = [s.realPath] := by simp [realPathAt, hs]
  rw [ComesBack, not_not, hreal]
  exact (nodup_entered_of_not_followLinks hfs hfollow hs hdir hway).1

/-- The folder tree of a repository and the walk through it have the same source files, unless a
followed link makes the walk come back into a directory to a source file that the tree shows nowhere
under that text. -/
theorem walk_agrees_with_folderTree_iff {tree : Node} (hfs : fs.WellFormed) (hread : fs.Readable)
    (htree : fs.folderTree scope root = .ok tree) (narrator : Narrator) (mode : Mode) :
    ∃ c outcome updates, fs.chart scope root = .ok c ∧ tree = c.node (rootName root) ∧
      fs.walk scope narrator mode root = .ok (outcome, updates) ∧
      (∀ way, fs.isFile (root.below way) = true →
        (c.FileAt way ↔ fs.Meets scope root way ∧ ¬ fs.ComesBack root way)) ∧
      (fs.Agree root c outcome ↔ ∀ way, fs.Meets scope root way → fs.LeadsToSource root way →
        fs.ComesBack root way → fs.ShowsSource root c (Path.wayText way)) ∧
      (scope.followLinks = false → fs.Agree root c outcome) := by
  rw [folderTree_eq_chart] at htree
  obtain ⟨c, hc, rfl⟩ : ∃ c, fs.chart scope root = .ok c ∧ tree = c.node (rootName root) := by
    cases hc : fs.chart scope root with
    | error e => simp [hc, Except.map] at htree
    | ok c =>
      rw [hc] at htree
      exact ⟨c, rfl, (Except.ok.inj htree).symm⟩
  obtain ⟨⟨outcome, updates⟩, hwalk⟩ := exists_walk_of_chart hc narrator mode
  have hway (way : List FileName) (hfile : fs.isFile (root.below way) = true) :=
    fileAt_iff_meets hfs hc hfile
  have hiff : fs.Agree root c outcome ↔ ∀ way, fs.Meets scope root way → fs.LeadsToSource root way →
      fs.ComesBack root way → fs.ShowsSource root c (Path.wayText way) := by
    constructor
    · intro hagree way hmeets hsource _
      exact (hagree _).mp ((mem_files_iff hfs hread hwalk).mpr ⟨way, hmeets, hsource, rfl⟩)
    · intro hback text
      rw [mem_files_iff hfs hread hwalk]
      constructor
      · rintro ⟨way, hmeets, hsource, rfl⟩
        by_cases h : fs.ComesBack root way
        · exact hback way hmeets hsource h
        · exact ⟨way, (hway way hsource.1).mpr ⟨hmeets, h⟩, hsource, rfl⟩
      · rintro ⟨way, hshown, hsource, htext⟩
        exact ⟨way, ((hway way hsource.1).mp hshown).1, hsource, htext⟩
  refine ⟨c, outcome, updates, hc, rfl, hwalk, hway, hiff, ?_⟩
  intro hfollow
  refine hiff.mpr fun way hmeets _ hback => ?_
  exact absurd hback (not_comesBack_of_not_followLinks hfs hfollow hmeets)

section

/-- A repository `r` of one source file `a.py`, and a link `up` to the directory above it. -/
def climbing : FileSystem where
  entries := [([0x72], .directory
    [([0x61, dot, 0x70, 0x79], .file (.ok [])), ([0x75, 0x70], .link [dot, dot])])]
  current := []

theorem chart_climbing : climbing.chart ⟨[], true⟩ [0x72] = .ok (.folder [[0x72]]
    [([0x61, dot, 0x70, 0x79], .file), ([0x75, 0x70], .folder [] [])]) := by
  have hnames : shownOrder [([0x61, dot, 0x70, 0x79], .file (.ok [])), ([0x75, 0x70], .link [dot, dot])]
      = [[0x61, dot, 0x70, 0x79], [0x75, 0x70]] := List.mergeSort_of_pairwise (by decide +kernel)
  have hlist : climbing.list [0x72] = .ok
    [([0x61, dot, 0x70, 0x79], .file (.ok [])), ([0x75, 0x70], .link [dot, dot])] := by cbv
  have hreal : climbing.resolve [0x72] = .ok (climbing.top.child [0x72] (.directory
    [([0x61, dot, 0x70, 0x79], .file (.ok [])), ([0x75, 0x70], .link [dot, dot])])) := by cbv
  have hdir : climbing.isDirectory [0x72] = true := by cbv
  have hdirs : climbing.directories = [[], [[0x72]]] := by cbv
  rw [chart, if_pos hdir, chartOf_of_mem hreal hlist (by rw [hdirs]; decide), hnames]
  cbv

theorem folderTree_climbing : climbing.folderTree ⟨[], true⟩ [0x72] =
    .ok (.folder "r" [.file "a.py", .folder "up" []]) := by
  rw [folderTree_eq_chart, chart_climbing]
  cbv

/-- The walk through `climbing` meets its source file a second time through the link. -/
theorem climbing_walk_disagrees : climbing.WellFormed ∧ climbing.Readable ∧ ∃ c,
    climbing.chart ⟨[], true⟩ [0x72] = .ok c ∧
    climbing.folderTree ⟨[], true⟩ [0x72] = .ok (c.node "r") ∧
    ∀ narrator mode outcome updates,
      climbing.walk ⟨[], true⟩ narrator mode [0x72] = .ok (outcome, updates) →
      outcome.files.map FileReport.path = ["a.py", "up/r/a.py"] ∧
        ¬ climbing.Agree [0x72] c outcome := by
  refine ⟨by decide, by decide, _, chart_climbing, ?_, ?_⟩
  · rw [folderTree_climbing]
    cbv
  · intro narrator mode outcome updates hwalk
    have hsight : climbing.rootSight ⟨[], true⟩ [0x72] = .ok
        (.folder [([0x61, dot, 0x70, 0x79], .file), ([0x75, 0x70], .folder
          [([0x72], .folder [([0x61, dot, 0x70, 0x79], .file)])])]) := by cbv
    have hfiles : outcome.files.map FileReport.path = ["a.py", "up/r/a.py"] := by
      obtain ⟨sight, hroot, rfl⟩ := walk_eq_ok hwalk
      obtain rfl := Except.ok.inj (hsight.symm.trans hroot)
      rw [map_path_files]
      cbv
    refine ⟨hfiles, fun hagree => ?_⟩
    obtain ⟨way, hway, -, htext⟩ := (hagree "up/r/a.py").mp (by rw [hfiles]; decide)
    -- The tree shows `a.py` only, and nothing in `up`.
    cases hway with
    | @inside _ _ n c way hn hway =>
      simp only [List.mem_cons, Prod.mk.injEq, List.not_mem_nil, or_false] at hn
      rcases hn with ⟨rfl, rfl⟩ | ⟨rfl, rfl⟩
      · cases hway
        exact absurd htext (by cbv; decide)
      · cases hway with
        | inside hn _ => cases hn

theorem walk_and_folderTree_of_climbing :
    climbing.WellFormed ∧ climbing.Readable ∧
      climbing.folderTree ⟨[], true⟩ [0x72] = .ok (.folder "r" [.file "a.py", .folder "up" []]) ∧
      ∃ c outcome updates, climbing.chart ⟨[], true⟩ [0x72] = .ok c ∧
        .folder "r" [.file "a.py", .folder "up" []] = c.node (rootName [0x72]) ∧
        climbing.walk ⟨[], true⟩ .silent .sequential [0x72] = .ok (outcome, updates) ∧
        (∀ way, climbing.isFile (Path.below [0x72] way) = true →
          (c.FileAt way ↔ climbing.Meets ⟨[], true⟩ [0x72] way ∧ ¬ climbing.ComesBack [0x72] way)) ∧
        (climbing.Agree [0x72] c outcome ↔ ∀ way, climbing.Meets ⟨[], true⟩ [0x72] way →
          climbing.LeadsToSource [0x72] way → climbing.ComesBack [0x72] way →
          climbing.ShowsSource [0x72] c (Path.wayText way)) ∧
        (true = false → climbing.Agree [0x72] c outcome) := by
  have hfs : climbing.WellFormed := by decide
  have hread : climbing.Readable := by decide
  exact ⟨hfs, hread, folderTree_climbing,
    walk_agrees_with_folderTree_iff hfs hread folderTree_climbing .silent .sequential⟩

end

end FileSystem

end RepoSurvey
