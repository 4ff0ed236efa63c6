import RepoSurvey.Proofs.Findings
import RepoSurvey.Proofs.Pruning

/-!
The order in which a walk meets files. Two ways share some names and then part, and how they stand to each
other is settled in the directory where they part. There directories come last, but an entry counts as a
directory only if it is one itself: what lies behind a link stands among the files of its directory.
-/

namespace RepoSurvey

/-- The order of two files that part in a directory, as it should be: a file that lies directly in the
directory comes before one that lies deeper, and otherwise the names decide. -/
def FilesFirst (a b : FileName × List FileName) : Prop :=
  (a.2 = [] ∧ b.2 ≠ []) ∨ ((a.2 = [] ↔ b.2 = []) ∧ a.1 < b.1)

namespace FileSystem

/-- Whether a directory stands at a path, and no link to one. -/
def isDirectoryItself (fs : FileSystem) (p : Path) : Bool :=
  match fs.lstat p with
  | .ok s => s.entry.isDirectory
  | .error _ => false

/-- The order of two files that part in a directory, as a walk has it: an entry that is no directory itself
comes before one that is, and otherwise the names decide. -/
def LinksAsFiles (fs : FileSystem) (root : Path) (shared : List FileName)
    (a b : FileName × List FileName) : Prop :=
  (fs.isDirectoryItself (root.below (shared ++ [a.1])) = false ∧
      fs.isDirectoryItself (root.below (shared ++ [b.1])) = true) ∨
    (fs.isDirectoryItself (root.below (shared ++ [a.1])) =
      fs.isDirectoryItself (root.below (shared ++ [b.1])) ∧ a.1 < b.1)

variable {fs : FileSystem} {scope : Scope} {fresh : List RealPath} {path root : Path}
  {entries : Listing} {s : Standing} {n : FileName} {way : List FileName} {e : Entry} {sight : Sight}

section

variable {fault : Option IoError} (hs : fs.stat path = .ok s) (hdir : s.entry = .directory entries fault)

include hs hdir

/-- Where a way leads through an entry, the entry can be looked up for what it is. -/
theorem isDirectoryItself_join (hl : entries.IsProper) (he : (n, e) ∈ entries)
    {excluded : Bool} (hsight : fs.sightOf scope fresh (path.join n) excluded e = some sight)
    (hway : way ∈ sight.ways) : fs.isDirectoryItself (path.join n) = e.isDirectory := by
  have hn : n.IsProper := hl.proper n (List.mem_map_of_mem he)
  have hlook := Listing.lookup_of_mem hl.nodup he
  unfold isDirectoryItself
  cases e with
  | file content =>
    obtain ⟨hlstat, hstat⟩ := stat_join_of_not_link hs hdir hn hlook (by simp)
    rw [hlstat]
    rcases hstat with hstat | hstat <;> rw [hstat] <;> rfl
  | special =>
    obtain ⟨hlstat, hstat⟩ := stat_join_of_not_link hs hdir hn hlook (by simp)
    rw [hlstat]
    rcases hstat with hstat | hstat <;> rw [hstat] <;> rfl
  | link target =>
    rcases lstat_join_of_link hs hdir hn hlook with hlstat | ⟨hlstat, -⟩ <;> rw [hlstat] <;> rfl
  | directory l _ =>
    obtain ⟨hlstat, hstat⟩ := stat_join_of_not_link hs hdir hn hlook (by simp)
    rw [hlstat]
    rcases hstat with hstat | hstat
    · -- No way leads through a directory that cannot be looked up.
      rw [sightOf, hstat] at hsight
      cases excluded with
      | true => cases hsight
      | false =>
        obtain rfl := Option.some.inj hsight
        simp [Sight.ways] at hway
    · rw [hstat]
      rfl

end

/-- Where a way leads through an entry, what it is can be told by looking it up as well as by listing its
directory. -/
theorem isDirectoryItself_eq_listsDirectory {shared way : List FileName} (hfs : fs.WellFormed)
    (hs : fs.stat path = .ok s) (hdir : s.entry = .directory entries none)
    (h : (Sight.folder (fs.sightsIn scope fresh path entries)).FileAt (shared ++ n :: way)) :
    fs.isDirectoryItself (path.below (shared ++ [n])) = fs.listsDirectory (path.below shared) n := by
  rw [List.append_cons] at h
  obtain ⟨mid, hway, hend⟩ := Sight.at_append.mp (Sight.fileAt_iff_at.mp h)
  obtain ⟨-, -, t, l, e, fresh', ht, htl, hl, he, hsight⟩ := exists_sightOf_of_at hfs hs hdir hway
  rw [listsDirectory_eq ht htl hl he, Path.below_concat]
  exact isDirectoryItself_join ht htl hl he (Path.below_concat path shared n ▸ hsight)
    (Sight.mem_ways.mpr (Sight.fileAt_iff_at.mpr hend))

/-- A walk meets the files of a repository in its own order. -/
theorem pairwise_ways_of_rootSight (hfs : fs.WellFormed) (hroot : fs.rootSight scope root = .ok sight) :
    sight.ways.Pairwise (Parted (fs.LinksAsFiles root)) := by
  have hfound := pairwise_finds_of_rootSight hfs hroot
  have hways : sight.ways.Pairwise (Parted (fs.DirectoriesLast root)) := by
    rw [sight.ways_eq_map_fst_finds root]
    exact hfound.sublist (List.filter_sublist.map Prod.fst)
  refine hways.imp_of_mem ?_
  intro a b ha hb hab
  obtain ⟨s, entries, hs, hdir, hfile⟩ := ((mem_ways_iff_meets hroot).mp ha).exists_directory
  obtain ⟨s', entries', hs', hdir', hfile'⟩ := ((mem_ways_iff_meets hroot).mp hb).exists_directory
  cases hab with
  | apart hne h =>
    refine .apart hne ?_
    unfold LinksAsFiles
    rw [isDirectoryItself_eq_listsDirectory hfs hs hdir hfile,
      isDirectoryItself_eq_listsDirectory hfs hs' hdir' hfile']
    exact h

/-- What stands at the end of a way to a file is no directory. -/
theorem not_isDirectoryItself_of_meets (hfs : fs.WellFormed)
    (h : fs.Meets scope root (way ++ [n])) :
    fs.isDirectoryItself (root.below (way ++ [n])) = false := by
  obtain ⟨s, entries, hs, hdir, hfile⟩ := h.exists_directory
  obtain ⟨-, -, t, l, e, fresh, ht, htl, hl, he, hsight⟩ :=
    exists_sightOf_of_at hfs hs hdir (Sight.fileAt_iff_at.mp hfile)
  have hown := isDirectoryItself_join ht htl hl he (Path.below_concat root way n ▸ hsight)
    (List.mem_singleton_self [])
  rw [Path.below_concat, hown]
  obtain ⟨-, ⟨content, rfl⟩ | ⟨target, -, -, rfl, -⟩⟩ := sightOf_eq_file.mp hsight
  · rfl
  · rfl

/-- Where links are not followed, ways go on through directories only. -/
theorem isDirectoryItself_of_meets (hfs : fs.WellFormed) (hfollow : scope.followLinks = false)
    {more : List FileName} (hmore : more ≠ []) (h : fs.Meets scope root (way ++ n :: more)) :
    fs.isDirectoryItself (root.below (way ++ [n])) = true := by
  obtain ⟨s, entries, hs, hdir, hfile⟩ := h.exists_directory
  rw [List.append_cons] at hfile
  obtain ⟨mid, hway, hend⟩ := Sight.at_append.mp (Sight.fileAt_iff_at.mp hfile)
  obtain ⟨-, -, t, l, e, fresh, ht, htl, hl, he, hsight⟩ := exists_sightOf_of_at hfs hs hdir hway
  have hown := isDirectoryItself_join ht htl hl he (Path.below_concat root way n ▸ hsight)
    (Sight.mem_ways.mpr (Sight.fileAt_iff_at.mpr hend))
  rw [Path.below_concat, hown]
  cases hend with
  | here => exact absurd rfl hmore
  | inside hm hend =>
    obtain ⟨-, -, -, -, -, rfl | ⟨-, -, -, hlinks⟩⟩ := sightOf_eq_folder.mp hsight
    · rfl
    · rw [hfollow] at hlinks
      cases hlinks

theorem isSome_reportOn (narrator : Narrator) :
    (fs.reportOn narrator root way).isSome = decide (fs.ReadsSource root way) := by
  unfold reportOn Discovery.candidate?
  by_cases hext : Language.isSourceExtension (root.below way).extension = true
  · simp [hext, ReadsSource, Candidate.isSome_report?]
  · simp [hext, ReadsSource]

/-- A walk reports on the ways to source files that can be read, in their order. -/
theorem map_some_files_eq (narrator : Narrator) (sight : Sight) :
    (WalkOutcome.collect root (sight.discoveries root)
        (fs.outcomesOf narrator root (sight.discoveries root))).files.map some =
      (sight.ways.filter fun way => fs.ReadsSource root way).map (fs.reportOn narrator root) := by
  rw [files_collect_eq_filterMap, List.map_filterMap_some_eq_filter_map_isSome, List.filter_map]
  congr 1
  apply List.filter_congr
  intro way _
  exact isSome_reportOn narrator

/-- Where files lie behind a link, its name comes after those of all files directly beside it, and before
those of all directories beside it in which files lie. -/
structure LinksInPlace (fs : FileSystem) (root : Path) (ways : List (List FileName)) : Prop where
  afterFiles : ∀ p n way m, p ++ n :: way ∈ ways → way ≠ [] →
    fs.isDirectoryItself (root.below (p ++ [n])) = false → p ++ [m] ∈ ways → m < n
  beforeDirectories : ∀ p n way m way', p ++ n :: way ∈ ways → way ≠ [] →
    fs.isDirectoryItself (root.below (p ++ [n])) = false → p ++ m :: way' ∈ ways → way' ≠ [] →
    fs.isDirectoryItself (root.below (p ++ [m])) = true → n < m

/-- The order of a walk is that of files first exactly if its links are in place. -/
theorem pairwise_filesFirst_iff {ways : List (List FileName)}
    (hown : ways.Pairwise (Parted (fs.LinksAsFiles root)))
    (hfile : ∀ p m, p ++ [m] ∈ ways → fs.isDirectoryItself (root.below (p ++ [m])) = false) :
    ways.Pairwise (Parted fun _ => FilesFirst) ↔ fs.LinksInPlace root ways := by
  constructor
  · intro hdocumented
    have hboth := hown.and hdocumented
    refine ⟨?_, ?_⟩
    · intro p n way m hway hmore hlink hm
      have hne : n ≠ m := by
        rintro rfl
        have heither := either_of_pairwise hown hm hway (by simpa using Ne.symm hmore)
        rw [List.append_cons p n way] at heither
        exact Parted.not_append heither
      rcases either_of_pairwise hboth hm hway (by simp [hne.symm]) with ⟨h, -⟩ | ⟨-, h⟩
      · rw [Parted.append_iff hne.symm] at h
        rcases h with ⟨-, hdir⟩ | ⟨-, hlt⟩
        · exact absurd (hlink.symm.trans hdir) (by simp)
        · exact hlt
      · -- The file would come second, and so would not be first.
        rw [Parted.append_iff hne] at h
        rcases h with ⟨hnil, -⟩ | ⟨hnil, -⟩
        · exact absurd hnil hmore
        · exact absurd (hnil.mpr rfl) hmore
    · intro p n way m way' hway hmore hlink hway' hmore' hdir
      have hne : n ≠ m := by
        rintro rfl
        exact absurd (hlink.symm.trans hdir) (by simp)
      rcases either_of_pairwise hboth hway hway' (by simp [hne]) with ⟨-, h⟩ | ⟨h, -⟩
      · rw [Parted.append_iff hne] at h
        rcases h with ⟨hnil, -⟩ | ⟨-, hlt⟩
        · exact absurd hnil hmore
        · exact hlt
      · rw [Parted.append_iff hne.symm] at h
        rcases h with ⟨hnot, -⟩ | ⟨hsame, -⟩
        · exact absurd (hdir.symm.trans hnot) (by simp)
        · exact absurd (hdir.symm.trans (hsame.trans hlink)) (by simp)
  · intro hlinks
    refine hown.imp_of_mem ?_
    intro a b ha hb hab
    cases hab with
    | @apart p n m way way' hne h =>
      refine .apart hne ?_
      by_cases hmore : way = []
      · subst hmore
        by_cases hmore' : way' = []
        · -- Both lie directly in the directory, so neither is one itself.
          subst hmore'
          rcases h with ⟨-, hdir⟩ | ⟨-, hlt⟩
          · exact absurd ((hfile p m hb).symm.trans hdir) (by simp)
          · exact Or.inr ⟨Iff.rfl, hlt⟩
        · exact Or.inl ⟨rfl, hmore'⟩
      · by_cases hmore' : way' = []
        · -- Only a link can bring a file deeper down before one that lies directly here.
          subst hmore'
          have hlast := hfile p m hb
          rcases h with ⟨-, hdir⟩ | ⟨hsame, hlt⟩
          · exact absurd (hlast.symm.trans hdir) (by simp)
          · have hbefore := hlinks.afterFiles p n way m ha hmore (hsame.trans hlast) hb
            exact absurd hlt (List.lt_asymm hbefore)
        · refine Or.inr ⟨by simp [hmore, hmore'], ?_⟩
          rcases h with ⟨hlink, hdir⟩ | ⟨-, hlt⟩
          · exact hlinks.beforeDirectories p n way m way' ha hmore hlink hb hmore' hdir
          · exact hlt

end FileSystem

/-- The files of a walk, way by way, and the orders that the ways are in. -/
structure WalkOutcome.Traverses (w : WalkOutcome) (fs : FileSystem) (scope : Scope)
    (narrator : Narrator) (root : Path) (ways : List (List FileName)) : Prop where
  met : ∀ way, way ∈ ways ↔ fs.Meets scope root way ∧ fs.ReadsSource root way
  reported : ways.map (fs.reportOn narrator root) = w.files.map some
  linksAsFiles : ways.Pairwise (Parted (fs.LinksAsFiles root))
  filesFirst_iff : ways.Pairwise (Parted fun _ => FilesFirst) ↔ fs.LinksInPlace root ways
  filesFirst : scope.followLinks = false → ways.Pairwise (Parted fun _ => FilesFirst)

namespace FileSystem

variable {fs : FileSystem} {scope : Scope} {root : Path}

/-- The files of a walk are in its own order. Where links are followed, that is the order of files first
exactly if the links are in place, and where they are not, it always is. -/
theorem walk_traverses {narrator : Narrator} {mode : Mode} {w : WalkOutcome} {updates : List Update}
    (hfs : fs.WellFormed) (h : fs.walk scope narrator mode root = .ok (w, updates)) :
    ∃ ways, w.Traverses fs scope narrator root ways := by
  obtain ⟨sight, hroot, rfl⟩ := walk_eq_ok h
  have hmet (way : List FileName) : way ∈ sight.ways.filter (fun way => fs.ReadsSource root way) ↔
      fs.Meets scope root way ∧ fs.ReadsSource root way := by
    rw [List.mem_filter, decide_eq_true_iff, mem_ways_iff_meets hroot]
  have hown : (sight.ways.filter fun way => fs.ReadsSource root way).Pairwise
      (Parted (fs.LinksAsFiles root)) := (pairwise_ways_of_rootSight hfs hroot).filter _
  have hiff := pairwise_filesFirst_iff hown fun p m hm =>
    not_isDirectoryItself_of_meets hfs ((hmet _).mp hm).1
  refine ⟨_, hmet, (map_some_files_eq narrator sight).symm, hown, hiff, ?_⟩
  -- Without links all that lies deeper down lies in directories.
  intro hfollow
  have hdirectory : ∀ p n way, p ++ n :: way ∈ sight.ways.filter (fun way => fs.ReadsSource root way) →
      way ≠ [] → fs.isDirectoryItself (root.below (p ++ [n])) ≠ false := by
    intro p n way hway hmore hlink
    rw [isDirectoryItself_of_meets hfs hfollow hmore ((hmet _).mp hway).1] at hlink
    cases hlink
  exact hiff.mpr ⟨fun p n way _ hway hmore hlink => absurd hlink (hdirectory p n way hway hmore),
    fun p n way _ _ hway hmore hlink => absurd hlink (hdirectory p n way hway hmore)⟩

section

/-- A directory `r` with a file `b.js` and a link `a` to a directory in which a file `x.js` lies. -/
def linkBeforeFile : FileSystem where
  entries := [([0x64], .directory [([0x78, dot, 0x6A, 0x73], .file (.ok []))]),
    ([0x72], .directory [([0x61], .link [dot, dot, solidus, 0x64]),
      ([0x62, dot, 0x6A, 0x73], .file (.ok []))])]
  current := []

theorem stat_linkBeforeFile : linkBeforeFile.stat [0x72] =
    .ok ⟨.directory [([0x61], .link [dot, dot, solidus, 0x64]), ([0x62, dot, 0x6A, 0x73], .file (.ok []))],
      [([0x72], .directory linkBeforeFile.entries)]⟩ := by
  cbv

theorem paths_linkBeforeFile :
    (linkBeforeFile.walk ⟨[], true⟩ .silent .sequential [0x72]).map
        (fun r => r.1.files.map FileReport.path) =
      .ok [Path.wayText [[0x61], [0x78, dot, 0x6A, 0x73]], Path.wayText [[0x62, dot, 0x6A, 0x73]]] := by
  cbv

/-- The file behind the link comes before the one that lies directly in the directory, so the walk is not in
the order of files first. -/
theorem linkBeforeFile_order : linkBeforeFile.WellFormed ∧
    (linkBeforeFile.walk ⟨[], true⟩ .silent .sequential [0x72]).map
        (fun r => r.1.files.map FileReport.path) =
      .ok [Path.wayText [[0x61], [0x78, dot, 0x6A, 0x73]], Path.wayText [[0x62, dot, 0x6A, 0x73]]] ∧
    ¬ Parted (fun _ => FilesFirst) [[0x61], [0x78, dot, 0x6A, 0x73]] [[0x62, dot, 0x6A, 0x73]] := by
  refine ⟨by decide, paths_linkBeforeFile, ?_⟩
  rw [Parted.cons_cons_iff (by decide)]
  rintro (⟨hnil, -⟩ | ⟨hnil, -⟩)
  · cases hnil
  · cases hnil.mpr rfl

theorem walk_traverses_linkBeforeFile : linkBeforeFile.WellFormed ∧ ∃ w updates,
    linkBeforeFile.walk ⟨[], true⟩ .silent .sequential [0x72] = .ok (w, updates) ∧
      ∃ ways, w.Traverses linkBeforeFile ⟨[], true⟩ .silent [0x72] ways := by
  have hfs : linkBeforeFile.WellFormed := by decide
  obtain ⟨⟨w, updates⟩, hwalk⟩ : ∃ result,
      linkBeforeFile.walk ⟨[], true⟩ .silent .sequential [0x72] = .ok result :=
    exists_walk_of_directory stat_linkBeforeFile rfl .silent .sequential
  exact ⟨hfs, w, updates, hwalk, walk_traverses hfs hwalk⟩

end

end FileSystem

end RepoSurvey
