import RepoSurvey.Proofs.Contribution
import RepoSurvey.Proofs.WalkPruning
import RepoSurvey.Proofs.WayEnds

/-!
Where names that are left out show up. No report and no edge has such a name in its path. A failure has
one only where a link of such a name is to be followed and leads nowhere, as a walk meets these links
before it looks at their names.
-/

namespace RepoSurvey

namespace FileSystem

/-- A walk enters the directory at the end of a way, and finds a link in it whose name is left out and would
be that of a source file. The link leads nowhere. -/
structure LostLink (fs : FileSystem) (scope : Scope) (root : Path) (way : List FileName)
    (n : FileName) : Prop where
  entered : ∃ sight inner, fs.rootSight scope root = .ok sight ∧ sight.At way (.folder inner)
  listed : ∃ l target, fs.list (root.below way) = .ok l ∧ (n, .link target) ∈ l
  lost : ∃ e, fs.stat (root.below (way ++ [n])) = .error e
  excluded : scope.excludes n = true
  source : Language.isSourceExtension (root.below (way ++ [n])).extension = true

variable {fs : FileSystem} {scope : Scope} {fresh : List RealPath} {path root : Path}
  {entries : Listing} {s : Standing} {n : FileName} {way : List FileName} {e : Entry} {sight : Sight}

/-- Under a name that is left out nothing is met but a link that is to be followed and leads nowhere. -/
theorem sightOf_excluded :
    fs.sightOf scope fresh path true e = some sight ↔
      scope.followLinks = true ∧ (∃ target, e = .link target) ∧
        ∃ err, fs.stat path = .error err ∧ sight = .broken (visitFault path err) := by
  cases e with
  | file content => simp [sightOf]
  | special => simp [sightOf]
  | directory l fault => simp [sightOf]
  | link target =>
    rw [sightOf]
    cases hstat : fs.stat path with
    | ok t => simp
    | error err => cases scope.followLinks <;> simp [eq_comm]

/-- Where only the last name on a way may be left out, it alone settles whether the path is clear. -/
theorem clearOf_relative_concat_iff
    (hnames : ∀ m ∈ way, FileName.IsProper m ∧ scope.excludes m = false) (hn : n.IsProper) :
    Path.ClearOf scope.excludedNames (root.relative (root.below (way ++ [n]))) ↔
      scope.excludes n = false := by
  have hproper : ∀ m ∈ way ++ [n], FileName.IsProper m := by
    simpa [or_imp, forall_and] using ⟨fun m hm => (hnames m hm).1, hn⟩
  rw [Path.relative_below root hproper, Path.clearOf_wayText_iff scope (by simp) hproper,
    Scope.admits, List.all_append]
  have hway : (way.all fun m => !scope.excludes m) = true :=
    List.all_eq_true.mpr fun m hm => by rw [(hnames m hm).2, Bool.not_false]
  simp [hway]

theorem clearOf_relative_self (names : List String) (root : Path) :
    Path.ClearOf names (root.relative (root.below [])) := by
  rw [Path.relative_below root (by simp)]
  exact Path.clearOf_empty names

/-- No name on the way to a file that is met is left out. -/
theorem clearOf_of_at_file (hfs : fs.WellFormed) (hs : fs.stat root = .ok s)
    (hdir : s.entry = .directory entries none)
    (h : (Sight.folder (fs.sightsIn scope fresh root entries)).At way .file) :
    Path.ClearOf scope.excludedNames (root.relative (root.below way)) := by
  rcases List.eq_nil_or_concat way with rfl | ⟨way, n, rfl⟩
  · cases h
  · rw [List.concat_eq_append] at h ⊢
    obtain ⟨hnames, hn, t, l, e, fresh', -, -, -, -, hsight⟩ := exists_sightOf_of_at hfs hs hdir h
    exact (clearOf_relative_concat_iff hnames hn).mpr (sightOf_eq_file.mp hsight).1

theorem clearOf_of_mem_candidatesOf (hfs : fs.WellFormed) (hsight : fs.rootSight scope root = .ok sight)
    {c : Candidate} (h : c ∈ candidatesOf root (sight.discoveries root)) :
    Path.ClearOf scope.excludedNames c.relative := by
  rw [candidatesOf_discoveries] at h
  obtain ⟨way, hway, hc⟩ := List.mem_filterMap.mp h
  obtain ⟨s, entries, hs, hdir, hfile⟩ := ((mem_ways_iff_meets hsight).mp hway).exists_directory
  rw [Discovery.candidate?] at hc
  split at hc
  · obtain rfl := Option.some.inj hc
    exact clearOf_of_at_file hfs hs hdir (Sight.fileAt_iff_at.mp hfile)
  · cases hc

/-- Where a walk takes note of what it cannot visit, no name that is left out stands on the way but that of a
lost link. -/
theorem clearOf_or_exists_lostLink (hfs : fs.WellFormed) (hroot : fs.rootSight scope root = .ok sight)
    {f : String × Failure} (h : f ∈ (sight.discoveries root).filterMap (Discovery.failure? root)) :
    Path.ClearOf scope.excludedNames f.1 ∨
      scope.followLinks = true ∧ ∃ way n, fs.LostLink scope root way n := by
  obtain ⟨d, hd, hf⟩ := List.mem_filterMap.mp h
  obtain ⟨way, last, hway, hfound⟩ := Sight.mem_discoveries.mp hd
  cases last with
  | file =>
    obtain rfl := Option.some.inj hfound
    cases hf
  | folder inner => cases hfound
  | broken message =>
    obtain rfl := Option.some.inj hfound
    rw [Discovery.failure?] at hf
    split at hf
    case isFalse => cases hf
    case isTrue hsource =>
      obtain rfl := Option.some.inj hf
      rcases List.eq_nil_or_concat way with rfl | ⟨way, n, rfl⟩
      · exact Or.inl (clearOf_relative_self _ root)
      · rw [List.concat_eq_append] at hway hsource ⊢
        obtain ⟨s, entries, hs, hdir, rfl⟩ := exists_directory_of_at hroot hway
        obtain ⟨hnames, hn, t, l, e, fresh', ht, htl, hl, he, hsight⟩ :=
          exists_sightOf_of_at hfs hs hdir hway
        cases hex : scope.excludes n with
        | false => exact Or.inl ((clearOf_relative_concat_iff hnames hn).mpr hex)
        | true =>
          right
          rw [hex] at hsight
          obtain ⟨hfollow, ⟨target, rfl⟩, err, herr, -⟩ := sightOf_excluded.mp hsight
          obtain ⟨inner, hinner, -⟩ := Sight.at_concat.mp hway
          exact ⟨hfollow, way, n, ⟨_, inner, hroot, hinner⟩,
            ⟨l, target, list_of_directory ht htl, he⟩, ⟨err, herr⟩, hex, hsource⟩

/-- A lost link is noted under its path. -/
theorem LostLink.exists_failure (h : fs.LostLink scope root way n) (hfs : fs.WellFormed)
    (hfollow : scope.followLinks = true) (hroot : fs.rootSight scope root = .ok sight) :
    ∃ f ∈ (sight.discoveries root).filterMap (Discovery.failure? root),
      ¬ Path.ClearOf scope.excludedNames f.1 := by
  obtain ⟨sight', inner, hroot', hinner⟩ := h.entered
  obtain rfl := Except.ok.inj (hroot.symm.trans hroot')
  obtain ⟨l', target, hl', he⟩ := h.listed
  obtain ⟨s, entries, hs, hdir, rfl⟩ := exists_directory_of_at_folder hroot hinner hl'
  obtain ⟨hnames, t, l, fresh', ht, htl, rfl⟩ := folderAt_sightsIn hfs hs hdir hinner
  obtain rfl : l = l' := Except.ok.inj ((list_of_directory ht htl).symm.trans hl')
  obtain ⟨err, herr⟩ := h.lost
  have hl : Listing.IsProper l := ((Placed.of_stat ht).throughout hfs htl).here
  -- The link is met, and what is said of it is found at the end of its way.
  have hmet : (Sight.folder (fs.sightsIn scope (fs.directories.erase s.realPath) root entries)).At
      (way ++ [n]) (.broken (visitFault (root.below (way ++ [n])) err)) := by
    refine Sight.at_concat.mpr ⟨_, hinner, mem_sightsIn.mpr ⟨_, he, ?_⟩⟩
    rw [h.excluded, ← Path.below_concat]
    exact sightOf_excluded.mpr ⟨hfollow, ⟨target, rfl⟩, err, herr, rfl⟩
  have hfound : Discovery.broken (root.below (way ++ [n])) (visitFault (root.below (way ++ [n])) err) ∈
      (Sight.folder (fs.sightsIn scope (fs.directories.erase s.realPath) root entries)).discoveries
        root :=
    Sight.mem_discoveries.mpr ⟨_, _, hmet, rfl⟩
  refine ⟨_, List.mem_filterMap.mpr ⟨_, hfound, if_pos h.source⟩, ?_⟩
  have hn : n.IsProper := hl.proper n (List.mem_map_of_mem he)
  rw [clearOf_relative_concat_iff hnames hn, h.excluded]
  exact Bool.noConfusion

/-- No report and no edge of a walk has a name in its path that is left out, and no failure has one exactly
if no link is followed that is lost. -/
theorem walk_clearOf_iff {narrator : Narrator} {mode : Mode} {w : WalkOutcome}
    {updates : List Update} (hfs : fs.WellFormed)
    (h : fs.walk scope narrator mode root = .ok (w, updates)) :
    (∀ f ∈ w.files, Path.ClearOf scope.excludedNames f.path) ∧
      (∀ e ∈ w.edges, Path.ClearOf scope.excludedNames e.source) ∧
      ((∀ f ∈ w.failures, Path.ClearOf scope.excludedNames f.1) ↔
        ¬ (scope.followLinks = true ∧ ∃ way n, fs.LostLink scope root way n)) := by
  obtain ⟨sight, hroot, rfl⟩ := walk_eq_ok h
  have hmade := fs.collect_madeOf narrator root (sight.discoveries root)
  have hcandidate : ∀ c ∈ (fs.traceOf narrator root (sight.discoveries root)).map Prod.fst,
      Path.ClearOf scope.excludedNames c.relative := by
    intro c hc
    rw [map_fst_traceOf] at hc
    exact clearOf_of_mem_candidatesOf hfs hroot hc
  generalize WalkOutcome.collect root (sight.discoveries root)
    (fs.outcomesOf narrator root (sight.discoveries root)) = w at hmade
  have hfiles : ∀ f ∈ w.files, Path.ClearOf scope.excludedNames f.path := by
    intro f hf
    obtain ⟨c, hc, hpath⟩ := hmade.exists_candidate_of_mem_files hf
    exact hpath ▸ hcandidate c hc
  refine ⟨hfiles, ?_, ?_, ?_⟩
  · intro e he
    obtain ⟨f, hf, hpath⟩ := hmade.exists_file_of_mem_edges he
    exact hpath ▸ hfiles f hf
  · rintro hclear ⟨hfollow, way, n, hlost⟩
    obtain ⟨f, hf, hnot⟩ := hlost.exists_failure hfs hfollow hroot
    refine hnot (hclear f ?_)
    rw [hmade.failures]
    exact List.mem_append_left _ hf
  · intro hnone f hf
    rcases hmade.mem_unvisited_or_exists_candidate hf with hf | ⟨c, hc, hpath⟩
    · exact (clearOf_or_exists_lostLink hfs hroot hf).resolve_right hnone
    · exact hpath ▸ hcandidate c hc

section

/-- A directory `r` with a link `x.py` that leads nowhere. -/
def lostScript : FileSystem where
  entries := [([0x72], .directory [([0x78, dot, 0x70, 0x79], .link [0x71])])]
  current := []

/-- The path of the link. -/
def scriptPath : Path := [0x72, solidus, 0x78, dot, 0x70, 0x79]

theorem stat_lostScript : lostScript.stat [0x72] =
    .ok ⟨.directory [([0x78, dot, 0x70, 0x79], .link [0x71])],
      [([0x72], .directory lostScript.entries)]⟩ := by
  cbv

theorem rootSight_lostScript : lostScript.rootSight ⟨["x.py"], true⟩ [0x72] =
    .ok (.folder [([0x78, dot, 0x70, 0x79], .broken (visitFault scriptPath .noEntry))]) := by
  have hlost : lostScript.stat scriptPath = .error .noEntry := by cbv
  have hexcluded : Scope.excludes ⟨["x.py"], true⟩ [0x78, dot, 0x70, 0x79] = true := by cbv
  have hsight (fresh : List RealPath) :
      lostScript.sightOf ⟨["x.py"], true⟩ fresh scriptPath true (.link [0x71]) =
        some (.broken (visitFault scriptPath .noEntry)) :=
    sightOf_excluded.mpr ⟨rfl, ⟨[0x71], rfl⟩, .noEntry, hlost, rfl⟩
  rw [rootSight_of_directory stat_lostScript rfl, sightsIn, meetings, meetings, hexcluded,
    show Path.join [0x72] [0x78, dot, 0x70, 0x79] = scriptPath from rfl, hsight]
  simp [Meeting.inOrder]

theorem failures_lostScript :
    (lostScript.walk ⟨["x.py"], true⟩ .silent .sequential [0x72]).map (fun r => r.1.failures) =
      .ok [("x.py", .fileRead "x.py" (visitFault scriptPath .noEntry))] := by
  rw [walk, discoveries, rootSight_lostScript]
  -- What is said of the link does not matter from here on.
  generalize visitFault scriptPath .noEntry = message
  cbv

/-- The name of the script is left out, and still a failure bears it where links are followed. Where they
are not, nothing is told of it. -/
theorem lostScript_surfaces :
    (lostScript.walk ⟨["x.py"], true⟩ .silent .sequential [0x72]).map (fun r => r.1.failures) =
        .ok [("x.py", .fileRead "x.py" (visitFault scriptPath .noEntry))] ∧
      ¬ Path.ClearOf ["x.py"] "x.py" ∧
      (lostScript.walk ⟨["x.py"], false⟩ .silent .sequential [0x72]).map (fun r => r.1.failures) =
        .ok [] := by
  refine ⟨failures_lostScript, fun hclear => ?_, by cbv⟩
  have hmem : "x.py" ∈ Path.components "x.py" := by
    rw [show Path.components "x.py" = ["x.py"] by cbv]
    exact List.mem_singleton_self _
  exact hclear "x.py" hmem (List.mem_singleton_self _)

theorem walk_clearOf_iff_lostScript : lostScript.WellFormed ∧ ∃ w updates,
    lostScript.walk ⟨["x.py"], true⟩ .silent .sequential [0x72] = .ok (w, updates) ∧
      (∀ f ∈ w.files, Path.ClearOf ["x.py"] f.path) ∧
      (∀ e ∈ w.edges, Path.ClearOf ["x.py"] e.source) ∧
      ((∀ f ∈ w.failures, Path.ClearOf ["x.py"] f.1) ↔
        ¬ (true = true ∧ ∃ way n, lostScript.LostLink ⟨["x.py"], true⟩ [0x72] way n)) := by
  have hfs : lostScript.WellFormed := by decide
  obtain ⟨⟨w, updates⟩, hwalk⟩ : ∃ result,
      lostScript.walk ⟨["x.py"], true⟩ .silent .sequential [0x72] = .ok result :=
    exists_walk_of_directory stat_lostScript rfl .silent .sequential
  exact ⟨hfs, w, updates, hwalk, walk_clearOf_iff hfs hwalk⟩

end

end FileSystem

end RepoSurvey
