import RepoSurvey.Proofs.Traversal

/-!
Walks that follow no links. Beside the walk that follows them, they leave out the files behind links to
directories and nothing else: all other files are met on the same ways and in the same order.
-/

namespace RepoSurvey

namespace FileSystem

/-- Whether a link to a directory stands at a path. -/
def isLinkToDirectory (fs : FileSystem) (p : Path) : Bool :=
  match fs.lstat p with
  | .ok ⟨.link _, _⟩ => fs.isDirectory p
  | _ => false

/-- Whether some step of a way below a path is a link to a directory. -/
def passesLink (fs : FileSystem) (p : Path) : List FileName → Bool
  | [] => false
  | n :: way => fs.isLinkToDirectory (p.join n) || fs.passesLink (p.join n) way

/-- A walk enters the directory at the end of a way. -/
def Enters (fs : FileSystem) (scope : Scope) (root : Path) (way : List FileName) : Prop :=
  ∃ sight inner, fs.rootSight scope root = .ok sight ∧ sight.At way (.folder inner)

variable {fs : FileSystem} {scope : Scope} {fresh : List RealPath} {path root : Path}
  {entries : Listing} {fault : Option IoError} {s : Standing} {n : FileName} {way : List FileName}
  {e : Entry} {sight : Sight}

theorem isLinkToDirectory_eq_false (h : fs.isDirectory path = false) :
    fs.isLinkToDirectory path = false := by
  unfold isLinkToDirectory
  split
  · exact h
  · rfl

section

variable (hs : fs.stat path = .ok s) (hdir : s.entry = .directory entries fault) (hn : n.IsProper)

include hs hdir hn

/-- What is no link is not taken for one. -/
theorem isLinkToDirectory_join_of_not_link (he : entries.lookup n = some e)
    (hlink : ∀ target, e ≠ .link target) : fs.isLinkToDirectory (path.join n) = false := by
  obtain ⟨hlstat, hstat⟩ := stat_join_of_not_link hs hdir hn he hlink
  unfold isLinkToDirectory
  rw [hlstat]
  rcases hstat with hstat | hstat
  · rw [hstat]
  · rw [hstat]
    split
    · next heq => exact absurd (congrArg Standing.entry (Except.ok.inj heq)) (hlink _)
    · rfl

theorem isLinkToDirectory_join_of_link {target : Path} {t : Standing} {l : Listing}
    {fault' : Option IoError} (he : entries.lookup n = some (.link target))
    (ht : fs.stat (path.join n) = .ok t) (hl : t.entry = .directory l fault') :
    fs.isLinkToDirectory (path.join n) = true := by
  unfold isLinkToDirectory
  rcases lstat_join_of_link hs hdir hn he with hlstat | ⟨-, hstat⟩
  · rw [hlstat]
    exact isDirectory_iff.mpr ⟨t, l, fault', ht, hl⟩
  · rw [hstat] at ht
    cases ht

end

/-- Where a name leads over no link to a directory, what follows it decides. -/
theorem passesLink_cons_of_not_link (h : fs.isLinkToDirectory (path.join n) = false) (way : List FileName) :
    fs.passesLink path (n :: way) = fs.passesLink (path.join n) way := by
  rw [passesLink, h, Bool.false_or]

/-- A link that is not followed is met as what it leads to, but no way goes through it. -/
theorem waysThrough_link_unfollowed (names : List String) (fresh : List RealPath)
    (hs : fs.stat path = .ok s) (hdir : s.entry = .directory entries fault) (hn : n.IsProper)
    {target : Path} (he : entries.lookup n = some (.link target)) :
    waysThrough (fs.sightOf ⟨names, false⟩ fresh (path.join n) false (.link target)) =
      (waysThrough (fs.sightOf ⟨names, true⟩ fresh (path.join n) false (.link target))).filter
        ((fun way => !fs.passesLink path way) ∘ (n :: ·)) := by
  rw [sightOf, sightOf]
  cases ht : fs.stat (path.join n) with
  | error err => simp [waysThrough, Sight.ways]
  | ok t =>
    -- A link to a file has the empty way in both walks, as long as it is no link to a directory.
    have hnot (h : t.entry.isDirectory = false) : fs.passesLink path [n] = false := by
      have hplain : fs.isDirectory (path.join n) = false := by
        unfold isDirectory
        rw [ht]
        exact h
      rw [passesLink_cons_of_not_link (isLinkToDirectory_eq_false hplain)]
      rfl
    dsimp only
    cases hentry : t.entry with
    | file content =>
      have hkept := hnot (by rw [hentry]; rfl)
      simp [waysThrough, Sight.ways, hkept]
    | special => rfl
    | link target => rfl
    | directory l fault' =>
      cases fault' with
      | some err => rfl
      | none =>
        -- Whatever the walk that follows the link meets behind it, the way there passes the link.
        have hlink := isLinkToDirectory_join_of_link hs hdir hn he ht hentry
        by_cases hfresh : t.realPath ∈ fresh <;> simp [waysThrough, passesLink, hfresh, hlink]

/-- Without following links, exactly the ways through links to directories are not met. -/
theorem waysIn_sightsIn_unfollowed (hfs : fs.WellFormed) (names : List String) (fresh : List RealPath)
    {path : Path} {s : Standing} {entries : Listing} {fault : Option IoError}
    (hs : fs.stat path = .ok s) (hdir : s.entry = .directory entries fault) :
    waysIn (fs.sightsIn ⟨names, false⟩ fresh path entries) =
      (waysIn (fs.sightsIn ⟨names, true⟩ fresh path entries)).filter
        fun way => !fs.passesLink path way := by
  have hl : entries.IsProper := ((Placed.of_stat hs).throughout hfs hdir).here
  rw [waysIn_sightsIn_eq_flatMap hl.nodup, waysIn_sightsIn_eq_flatMap hl.nodup, List.filter_flatMap]
  apply List.flatMap_congr
  rintro ⟨n, e⟩ hi
  have hmem : (n, e) ∈ entries := List.mem_mergeSort.mp hi
  have hn : n.IsProper := hl.proper n (List.mem_map_of_mem hmem)
  have hlook := Listing.lookup_of_mem hl.nodup hmem
  have hexcludes : Scope.excludes ⟨names, false⟩ n = Scope.excludes ⟨names, true⟩ n := rfl
  dsimp only
  rw [List.filter_map, hexcludes]
  apply congrArg (List.map (n :: ·))
  cases Scope.excludes ⟨names, true⟩ n with
  | true => rw [waysThrough_sightOf_excluded, waysThrough_sightOf_excluded, List.filter_nil]
  | false =>
    cases e with
    | file content =>
      have hnot := isLinkToDirectory_join_of_not_link hs hdir hn hlook (by simp)
      rw [sightOf, sightOf]
      simp [waysThrough, Sight.ways, passesLink, hnot]
    | special =>
      rw [sightOf, sightOf]
      rfl
    | directory l fault' =>
      -- A directory itself is entered in both walks, with the same directories left to pass.
      have hnot := isLinkToDirectory_join_of_not_link hs hdir hn hlook (by simp)
      have hpast : (fun way => !fs.passesLink path way) ∘ (n :: ·) =
          fun way => !fs.passesLink (path.join n) way := by
        funext way
        exact congrArg not (passesLink_cons_of_not_link hnot way)
      rw [sightOf, sightOf, hpast]
      cases ht : fs.stat (path.join n) with
      | error err => rfl
      | ok t =>
        obtain rfl := eq_child_of_stat_join hs hdir hn hlook (by simp) ht
        cases fault' with
        | some err => rfl
        | none =>
          exact waysIn_sightsIn_unfollowed hfs names
            (fresh.erase (s.child n (.directory l none)).realPath) ht rfl
    | link target => exact waysThrough_link_unfollowed names fresh hs hdir hn hlook
termination_by sizeOf entries
decreasing_by
  have := List.sizeOf_lt_of_mem hmem
  simp only [Prod.mk.sizeOf_spec, Entry.directory.sizeOf_spec] at this
  omega

/-- In every directory that a walk enters, whatever resolves to a regular file is met under its own name. -/
theorem meets_of_enters (hfs : fs.WellFormed) (h : fs.Enters scope root way) {l : Listing}
    (hl : fs.list (root.below way) = .ok l) (hmem : n ∈ l.map Prod.fst) (hex : scope.excludes n = false)
    (hfile : fs.isFile (root.below (way ++ [n])) = true) : fs.Meets scope root (way ++ [n]) := by
  obtain ⟨sight, inner, hroot, hway⟩ := h
  obtain ⟨s, entries, hs, hdir, rfl⟩ := exists_directory_of_at_folder hroot hway hl
  obtain ⟨-, t, l', fresh, ht, htl, rfl⟩ := folderAt_sightsIn hfs hs hdir hway
  obtain rfl : l' = l := Except.ok.inj ((list_of_directory ht htl).symm.trans hl)
  have hproper : Listing.IsProper l' := ((Placed.of_stat ht).throughout hfs htl).here
  rw [Path.below_concat] at hfile
  have hmet : (n, Sight.file) ∈ fs.sightsIn scope fresh (root.below way) l' :=
    file_mem_sightsIn hproper ht htl hfile hmem hex
  exact ⟨_, hroot, Sight.fileAt_iff_at.mpr (Sight.at_concat.mpr ⟨_, hway, hmet⟩)⟩

theorem enters_root (h : fs.list root = .ok entries) : fs.Enters scope root [] := by
  obtain ⟨s, hs, hdir⟩ := exists_stat_of_list h
  exact ⟨_, _, rootSight_of_directory hs hdir, .here⟩

/-- A walk that follows links and one that does not start at the same directory, so their ways can be
compared. -/
theorem exists_rootSight_unfollowed (hfs : fs.WellFormed) {names : List String}
    (h : fs.rootSight ⟨names, true⟩ root = .ok sight) :
    ∃ sight', fs.rootSight ⟨names, false⟩ root = .ok sight' ∧
      sight'.ways = sight.ways.filter fun way => !fs.passesLink root way := by
  obtain ⟨s, entries, fault, hs, hdir⟩ := exists_directory_of_rootSight h
  cases fault with
  | none =>
    obtain rfl := Except.ok.inj ((rootSight_of_directory hs hdir).symm.trans h)
    exact ⟨_, rootSight_of_directory hs hdir, waysIn_sightsIn_unfollowed hfs names _ hs hdir⟩
  | some e =>
    obtain ⟨followed, hfollowed, hnone⟩ := exists_rootSight_of_fault ⟨names, true⟩ hs hdir
    obtain rfl := Except.ok.inj (hfollowed.symm.trans h)
    obtain ⟨unfollowed, hunfollowed, hnone'⟩ := exists_rootSight_of_fault ⟨names, false⟩ hs hdir
    refine ⟨unfollowed, hunfollowed, ?_⟩
    rw [hnone, hnone', List.filter_nil]

end FileSystem

/-- Where each item may give a value and those that are kept do, dropping items drops their values. -/
theorem filterMap_filter_eq_of_map_some {α β : Type} {g : α → Option β} {as : List α} {bs : List β}
    (h : as.map g = bs.map some) (keep : α → Bool) :
    (as.filter keep).filterMap g = ((as.zip bs).filter fun (a, _) => keep a).map Prod.snd := by
  induction as generalizing bs with
  | nil => rfl
  | cons a as ih =>
    cases bs with
    | nil => cases h
    | cons b bs =>
      obtain ⟨ha, has⟩ := List.cons.inj h
      rw [List.zip_cons_cons, List.filter_cons, List.filter_cons]
      by_cases hkeep : keep a = true
      · simp [hkeep, ha, ih has]
      · simp [hkeep, ih has]

/-- What a walk brings home is what another one does, less what concerns files behind links to directories.
The ways are those of the reports of the other walk, in order. -/
structure WalkOutcome.LeavesLinks (followed unfollowed : WalkOutcome) (fs : FileSystem)
    (narrator : Narrator) (root : Path) (ways : List (List FileName)) : Prop where
  reported : ways.map (fs.reportOn narrator root) = followed.files.map some
  length_batches : followed.batches.length = followed.files.length
  files : unfollowed.files =
    ((ways.zip followed.files).filter fun (way, _) => !fs.passesLink root way).map Prod.snd
  batches : unfollowed.batches =
    ((ways.zip followed.batches).filter fun (way, _) => !fs.passesLink root way).map Prod.snd

namespace FileSystem

variable {fs : FileSystem} {root : Path}

/-- The batches that come of candidates are those of the reports, so it is enough to compare these. -/
theorem leavesLinks_collect {narrator : Narrator} {ds ds' : List Discovery}
    {ways : List (List FileName)}
    (hways : ways.map (fs.reportOn narrator root) =
      (WalkOutcome.collect root ds (fs.outcomesOf narrator root ds)).files.map some)
    (hfiles : (WalkOutcome.collect root ds' (fs.outcomesOf narrator root ds')).files =
      (ways.filter fun way => !fs.passesLink root way).filterMap (fs.reportOn narrator root)) :
    WalkOutcome.LeavesLinks (.collect root ds (fs.outcomesOf narrator root ds))
      (.collect root ds' (fs.outcomesOf narrator root ds')) fs narrator root ways := by
  rw [filterMap_filter_eq_of_map_some hways] at hfiles
  refine ⟨hways, ?_, hfiles, ?_⟩
  · rw [batches_collect, List.length_map]
  · rw [batches_collect, batches_collect, hfiles, List.zip_map_right, List.filter_map, List.map_map,
      List.map_map]
    rfl

/-- Only ways to source files that can be read have a report. -/
theorem filterMap_reportOn_filter (narrator : Narrator) (keep : List FileName → Bool)
    (ways : List (List FileName)) :
    (ways.filter keep).filterMap (fs.reportOn narrator root) =
      ((ways.filter fun way => fs.ReadsSource root way).filter keep).filterMap
        (fs.reportOn narrator root) := by
  rw [List.filter_comm, List.filterMap_filter (p := fun way => decide (fs.ReadsSource root way))]
  apply List.filterMap_congr
  intro way _
  split
  · rfl
  · next hreads =>
    have hsome : (fs.reportOn narrator root way).isSome = decide (fs.ReadsSource root way) :=
      isSome_reportOn narrator
    simpa [hreads] using hsome

/-- Not to follow links is to leave out what lies behind links to directories, and nothing else: of the walk
that follows them, the reports and batches of the files on all other ways stay, in their order. In both
walks, a file in a directory that is entered is reported under its own name even if it is a link to a
file, and a root that is a link to a directory is entered, unless the directory cannot be listed. -/
theorem walk_unfollowed (hfs : fs.WellFormed) (names : List String) (narrator : Narrator) (mode : Mode)
    (root : Path) :
    (∀ e, fs.walk ⟨names, false⟩ narrator mode root = .error e ↔
      fs.walk ⟨names, true⟩ narrator mode root = .error e) ∧
    (∀ followed updates, fs.walk ⟨names, true⟩ narrator mode root = .ok (followed, updates) →
      ∃ unfollowed updates' ways,
        fs.walk ⟨names, false⟩ narrator mode root = .ok (unfollowed, updates') ∧ ways.Nodup ∧
        (∀ way, way ∈ ways ↔ fs.Meets ⟨names, true⟩ root way ∧ fs.ReadsSource root way) ∧
        followed.LeavesLinks unfollowed fs narrator root ways) ∧
    (∀ follow w updates, fs.walk ⟨names, follow⟩ narrator mode root = .ok (w, updates) →
      ∀ way n l, fs.Enters ⟨names, follow⟩ root way → fs.list (root.below way) = .ok l →
        n ∈ l.map Prod.fst → Scope.excludes ⟨names, follow⟩ n = false →
        fs.isFile (root.below (way ++ [n])) = true → fs.ReadsSource root (way ++ [n]) →
        ∃ r ∈ w.files, fs.reportOn narrator root (way ++ [n]) = some r ∧
          r.path = Path.wayText (way ++ [n])) ∧
    (fs.isDirectory root = true → ∀ follow,
      (∃ result, fs.walk ⟨names, follow⟩ narrator mode root = .ok result) ∧
        ∀ l, fs.list root = .ok l → fs.Enters ⟨names, follow⟩ root []) := by
  refine ⟨?_, ?_, ?_, ?_⟩
  · intro e
    rw [walk_eq_error_iff, walk_eq_error_iff]
    exact rootSight_error_iff _ _ e
  · intro followed updates hfollowed
    obtain ⟨sight, hsight, rfl⟩ := walk_eq_ok hfollowed
    obtain ⟨sight', hsight', hways⟩ := exists_rootSight_unfollowed hfs hsight
    obtain ⟨s, entries, fault, hs, hdir⟩ := exists_directory_of_rootSight hsight
    obtain ⟨⟨unfollowed, updates'⟩, hunfollowed⟩ := exists_walk_of_directory hs hdir narrator mode
    obtain ⟨sight'', hsight'', rfl⟩ := walk_eq_ok hunfollowed
    obtain rfl := Except.ok.inj (hsight'.symm.trans hsight'')
    refine ⟨_, updates', _, hunfollowed, ?_, ?_, leavesLinks_collect
      (map_some_files_eq narrator _).symm ?_⟩
    · exact (nodup_ways_of_rootSight hfs hsight).filter _
    · intro way
      rw [List.mem_filter, decide_eq_true_iff, mem_ways_iff_meets hsight]
    · rw [files_collect_eq_filterMap, hways, filterMap_reportOn_filter]
  · intro follow w updates hw way n l henters hl hmem hex hfile hreads
    obtain ⟨sight, hsight, rfl⟩ := walk_eq_ok hw
    have hmeets := meets_of_enters hfs henters hl hmem hex hfile
    obtain ⟨r, hr⟩ : ∃ r, fs.reportOn narrator root (way ++ [n]) = some r := by
      rw [← Option.isSome_iff_exists, isSome_reportOn, decide_eq_true hreads]
    refine ⟨r, ?_, hr, ?_⟩
    · rw [files_collect_eq_filterMap]
      exact List.mem_filterMap.mpr ⟨_, (mem_ways_iff_meets hsight).mpr hmeets, hr⟩
    · rw [path_of_reportOn hr, Path.relative_below root (proper_of_meets hfs hmeets)]
  · intro hdir follow
    obtain ⟨s, entries, fault, hs, hentry⟩ := isDirectory_iff.mp hdir
    exact ⟨exists_walk_of_directory hs hentry narrator mode, fun l hl => enters_root hl⟩

section

/-- A directory `s` with a link `a` to a directory in which a file `x.js` lies and a link `b.js` to that file,
and a link `r` to this directory. -/
def aliases : FileSystem where
  entries := [([0x64], .directory [([0x78, dot, 0x6A, 0x73], .file (.ok []))]),
    ([0x72], .link [0x73]),
    ([0x73], .directory [([0x61], .link [dot, dot, solidus, 0x64]),
      ([0x62, dot, 0x6A, 0x73], .link [dot, dot, solidus, 0x64, solidus, 0x78, dot, 0x6A, 0x73])])]
  current := []

/-- Of the two files that the walk through `aliases` reports, the one behind the link to a directory is left
out where links are not followed. -/
theorem walk_unfollowed_aliases : aliases.WellFormed ∧ aliases.isDirectory [0x72] = true ∧
    ∃ followed updates unfollowed updates' ways,
      aliases.walk ⟨[], true⟩ .silent .sequential [0x72] = .ok (followed, updates) ∧
      aliases.walk ⟨[], false⟩ .silent .sequential [0x72] = .ok (unfollowed, updates') ∧
      followed.LeavesLinks unfollowed aliases .silent [0x72] ways ∧
      followed.files.map FileReport.path = ["a/x.js", "b.js"] ∧
      unfollowed.files.map FileReport.path = ["b.js"] := by
  have hfs : aliases.WellFormed := by decide
  have hdir : aliases.isDirectory [0x72] = true := by cbv
  obtain ⟨-, hleaves, -, hroot⟩ := walk_unfollowed hfs [] .silent .sequential [0x72]
  obtain ⟨⟨⟨followed, updates⟩, hfollowed⟩, -⟩ := hroot hdir true
  obtain ⟨unfollowed, updates', ways, hunfollowed, -, -, hlinks⟩ := hleaves followed updates hfollowed
  refine ⟨hfs, hdir, followed, updates, unfollowed, updates', ways, hfollowed, hunfollowed, hlinks, ?_, ?_⟩
  · have hpaths : (aliases.walk ⟨[], true⟩ .silent .sequential [0x72]).map
        (fun r => r.1.files.map FileReport.path) = .ok ["a/x.js", "b.js"] := by cbv
    rw [hfollowed] at hpaths
    exact Except.ok.inj hpaths
  · have hpaths : (aliases.walk ⟨[], false⟩ .silent .sequential [0x72]).map
        (fun r => r.1.files.map FileReport.path) = .ok ["b.js"] := by cbv
    rw [hunfollowed] at hpaths
    exact Except.ok.inj hpaths

end

end FileSystem

end RepoSurvey
