import RepoSurvey.Proofs.Exclusion
import RepoSurvey.Proofs.FailureOrder
import RepoSurvey.Proofs.Traversal

/-!
The counts of a summary. Every regular file that a walk meets is scanned, and of these the source files that
can be read are reported and the others are skipped. But what could not be visited is skipped as well if it has
the extension of a source file, and it is never scanned.
-/

namespace RepoSurvey

namespace Analysis

/-- The skipped files are counted over the failures that are entered. -/
theorem filesSkipped_performAll (a : Analysis) (ops : List Operation) :
    (a.performAll ops).summary.filesSkipped =
      a.summary.filesSkipped + ((ops.filterMap Operation.failure?).map fun f => skipCount f.2).sum := by
  induction ops generalizing a with
  | nil => rfl
  | cons op ops ih =>
    change ((a.perform op).performAll ops).summary.filesSkipped = _
    rw [ih (a.perform op)]
    -- Only the entering of a failure counts, and it counts before the rest.
    cases op with
    | addFailure path e => simp [perform, addFailure, Operation.failure?, Nat.add_assoc]
    | _ => rfl

theorem skipCount_ofFile (text : String) (e : IoError) : skipCount (.ofFile text e) = 1 := by
  unfold Failure.ofFile
  split <;> rfl

end Analysis

/-- A candidate counts as skipped exactly if it cannot be read. -/
theorem Candidate.skipCount_process (c : Candidate) (narrator : Narrator) (fs : FileSystem) :
    ((c.process narrator fs).failure?.map Analysis.skipCount).getD 0 =
      if (fs.read c.path).toBool then 0 else 1 := by
  unfold process
  cases fs.read c.path with
  | error e => exact Analysis.skipCount_ofFile c.relative e
  | ok bytes =>
    dsimp only
    unfold examine
    split <;> rfl

/-- Counting ones. -/
theorem sum_filterMap_eq_countP {α β : Type} {g : α → Option β} {k : β → Nat} {p : α → Bool}
    (h : ∀ a, ((g a).map k).getD 0 = if p a then 1 else 0) (l : List α) :
    ((l.filterMap g).map k).sum = l.countP p := by
  induction l with
  | nil => rfl
  | cons a l ih =>
    have ha := h a
    rw [List.filterMap_cons, List.countP_cons, ← ih, ← ha]
    cases g a with
    | none => simp
    | some b => simp [Nat.add_comm]

/-- Of two properties, one of which implies the other, each item has both, the weaker one only, or none. -/
theorem length_eq_countP_add {α : Type} {p q : α → Prop} [DecidablePred p] [DecidablePred q]
    (h : ∀ a, p a → q a) (l : List α) :
    l.length = l.countP (fun a => p a) + l.countP (fun a => q a ∧ ¬ p a) + l.countP fun a => ¬ q a := by
  induction l with
  | nil => rfl
  | cons a l ih =>
    rw [List.length_cons, ih, List.countP_cons, List.countP_cons, List.countP_cons]
    by_cases hp : p a
    · simp [hp, h a hp]
      omega
    · by_cases hq : q a
      · simp [hp, hq]
        omega
      · simp [hp, hq]
        omega

namespace FileSystem

variable {fs : FileSystem} {scope : Scope} {narrator : Narrator} {root : Path} {sight : Sight}

/-- A way leads from a root to what has the extension of a source file. -/
def NamesSource (root : Path) (way : List FileName) : Prop :=
  Language.isSourceExtension (root.below way).extension = true

instance (root : Path) (way : List FileName) : Decidable (NamesSource root way) :=
  inferInstanceAs (Decidable (_ = true))

/-- A walk meets something with the extension of a source file on a way, and cannot visit it. -/
def Misses (fs : FileSystem) (scope : Scope) (root : Path) (way : List FileName) : Prop :=
  NamesSource root way ∧ ∃ sight message, fs.rootSight scope root = .ok sight ∧
    sight.At way (.broken message)

/-- What could not be visited counts as skipped if it has the extension of a source file. -/
theorem skipCount_failure? (root : Path) (d : Discovery) :
    ((d.failure? root).map fun f => Analysis.skipCount f.2).getD 0 =
      if (d.failure? root).isSome then 1 else 0 := by
  cases d with
  | file path => rfl
  | broken path message =>
    rw [Discovery.failure?]
    split <;> rfl

/-- A source file counts as skipped exactly if it cannot be read. -/
theorem skipCount_failureOf (way : List FileName) :
    ((fs.failureOf narrator root (.file (root.below way))).map fun f => Analysis.skipCount f.2).getD 0 =
      if NamesSource root way ∧ ¬ fs.ReadsSource root way then 1 else 0 := by
  unfold failureOf Discovery.candidate? NamesSource ReadsSource
  by_cases hsource : Language.isSourceExtension (root.below way).extension = true
  · have hskip := Candidate.skipCount_process
      ⟨root.below way, root.relative (root.below way), .ofExtension (root.below way).extension⟩ narrator fs
    simp only [hsource, ↓reduceIte, Option.bind_some, Option.map_map, Function.comp_def, true_and, and_true]
    rw [hskip]
    cases (fs.read (root.below way)).toBool <;> rfl
  · simp [hsource]

/-- The ways to what has the extension of a source file and could not be visited, in order. -/
def missedIn (root : Path) (sight : Sight) : List (List FileName) :=
  ((sight.finds root).filter fun f => (f.2.failure? root).isSome).map Prod.fst

theorem length_missedIn (root : Path) (sight : Sight) :
    (missedIn root sight).length = (sight.discoveries root).countP fun d => (d.failure? root).isSome := by
  rw [missedIn, List.length_map, ← Sight.map_snd_finds, List.countP_map, List.countP_eq_length_filter]
  rfl

theorem mem_missedIn {way : List FileName} :
    way ∈ missedIn root sight ↔ NamesSource root way ∧ ∃ message, sight.At way (.broken message) := by
  rw [missedIn, List.mem_map]
  constructor
  · rintro ⟨⟨way, d⟩, hd, rfl⟩
    obtain ⟨hd, hsome⟩ := List.mem_filter.mp hd
    obtain ⟨last, hlast, hfound⟩ := Sight.mem_finds.mp hd
    cases last with
    | file =>
      obtain rfl := Option.some.inj hfound
      cases hsome
    | folder inner => cases hfound
    | broken message =>
      obtain rfl := Option.some.inj hfound
      rw [Discovery.failure?] at hsome
      split at hsome
      · next hsource => exact ⟨hsource, message, hlast⟩
      · cases hsome
  · rintro ⟨hsource, message, hlast⟩
    have hext : Language.isSourceExtension (root.below way).extension = true := hsource
    refine ⟨(way, .broken (root.below way) message), List.mem_filter.mpr ⟨?_, ?_⟩, rfl⟩
    · exact Sight.mem_finds.mpr ⟨_, hlast, rfl⟩
    · rw [Discovery.failure?, if_pos hext]
      rfl

theorem mem_missedIn_iff_misses (h : fs.rootSight scope root = .ok sight) {way : List FileName} :
    way ∈ missedIn root sight ↔ fs.Misses scope root way := by
  rw [mem_missedIn, Misses]
  refine and_congr_right fun _ => ?_
  constructor
  · rintro ⟨message, hway⟩
    exact ⟨sight, message, h, hway⟩
  · rintro ⟨sight', message, heq, hway⟩
    obtain rfl := Except.ok.inj (h.symm.trans heq)
    exact ⟨message, hway⟩

/-- No way leads both to a file and to something that could not be visited. -/
theorem nodup_ways_append_missedIn (h : ((sight.finds root).map Prod.fst).Nodup) :
    (sight.ways ++ missedIn root sight).Nodup := by
  rw [sight.ways_eq_map_fst_finds root, missedIn, List.nodup_append']
  refine ⟨h.sublist (List.filter_sublist.map Prod.fst), h.sublist (List.filter_sublist.map Prod.fst), ?_⟩
  intro way hfile hmiss
  -- One way carries one finding, which cannot be a file and something that was not visited.
  obtain ⟨⟨_, d⟩, hd, rfl⟩ := List.mem_map.mp hfile
  obtain ⟨⟨_, d'⟩, hd', rfl⟩ := List.mem_map.mp hmiss
  obtain ⟨hd, hisFile⟩ := List.mem_filter.mp hd
  obtain ⟨hd', hsome⟩ := List.mem_filter.mp hd'
  obtain ⟨-, rfl⟩ := Prod.mk.inj (List.inj_on_of_nodup_map h hd hd' rfl)
  cases d with
  | file path => cases hsome
  | broken path message => cases hisFile

/-- What a walk notes counts as skipped for each source file that it meets and cannot read, and for each
source file that it misses. -/
theorem skipCount_collect (narrator : Narrator) (sight : Sight) :
    ((WalkOutcome.collect root (sight.discoveries root)
      (fs.outcomesOf narrator root (sight.discoveries root))).failures.map fun f =>
        Analysis.skipCount f.2).sum =
      sight.ways.countP (fun way => NamesSource root way ∧ ¬ fs.ReadsSource root way) +
        (missedIn root sight).length := by
  have hbroken (p : Path) (message : String) :
      fs.failureOf narrator root (.broken p message) = none := rfl
  -- The failures of the walk itself are those of what is missed, and the rest those of the files met.
  rw [length_missedIn, failures_collect, List.map_append, List.sum_append, Nat.add_comm,
    sum_filterMap_eq_countP (skipCount_failure? root),
    sight.filterMap_discoveries (fs.failureOf narrator root) hbroken root]
  congr 1
  apply sum_filterMap_eq_countP
  intro way
  rw [skipCount_failureOf]
  simp

/-- A walk reports as many files as it meets source files that it can read. -/
theorem length_files_collect (narrator : Narrator) (sight : Sight) :
    (WalkOutcome.collect root (sight.discoveries root)
      (fs.outcomesOf narrator root (sight.discoveries root))).files.length =
      sight.ways.countP fun way => fs.ReadsSource root way := by
  rw [← List.length_map some, map_some_files_eq, List.length_map, List.countP_eq_length_filter]

/-- A walk scans the regular files that it meets. -/
theorem countP_isFile_discoveries (p : Path) (sight : Sight) :
    (sight.discoveries p).countP Discovery.isFile = sight.ways.length := by
  rw [← Sight.map_snd_finds, List.countP_map, sight.ways_eq_map_fst_finds p, List.length_map,
    List.countP_eq_length_filter]
  rfl

/-- No name on the way to a file that is met is left out. -/
theorem admits_of_meets (hfs : fs.WellFormed) {way : List FileName} (h : fs.Meets scope root way) :
    scope.admits way = true := by
  obtain ⟨s, entries, hs, hdir, hfile⟩ := h.exists_directory
  have hl := (Placed.of_stat hs).throughout hfs hdir
  have hway := Sight.mem_ways.mpr hfile
  rw [Sight.ways, waysIn_sightsIn_prune hfs scope _ root hl] at hway
  exact (List.mem_filter.mp hway).2

end FileSystem

/-- The counts of a result, way by way: the ways to the regular files that were met, and those to what has the
extension of a source file and could not be visited. -/
structure Analysis.Counts (a : Analysis) (fs : FileSystem) (scope : Scope) (root : Path)
    (scanned missed : List (List FileName)) : Prop where
  nodup : (scanned ++ missed).Nodup
  mem_scanned : ∀ way, way ∈ scanned ↔ fs.Meets scope root way
  mem_missed : ∀ way, way ∈ missed ↔ fs.Misses scope root way
  admits : ∀ way ∈ scanned, scope.admits way = true
  filesScanned : a.summary.filesScanned = scanned.length
  sourceFiles : a.summary.sourceFiles = scanned.countP fun way => fs.ReadsSource root way
  filesSkipped : a.summary.filesSkipped =
    scanned.countP (fun way => FileSystem.NamesSource root way ∧ ¬ fs.ReadsSource root way) + missed.length
  covered_iff : a.summary.sourceFiles + a.summary.filesSkipped ≤ a.summary.filesScanned ↔
    missed.length ≤ scanned.countP fun way => ¬ FileSystem.NamesSource root way

namespace Machine

open FileSystem

variable {m : Machine} {narrator : Narrator} {settings : Settings}

theorem filesSkipped_assemble (m : Machine) (narrator : Narrator) (repository : String) (tree : Node)
    (outcome : WalkOutcome) :
    (m.assemble narrator repository tree outcome).summary.filesSkipped =
      (outcome.failures.map fun f => Analysis.skipCount f.2).sum := by
  rw [assemble_eq_performAll, Analysis.filesSkipped_performAll, failures_assembly]
  exact Nat.zero_add _

/-- The counts of a result that is put together from what was met. -/
theorem counts_assemble (m : Machine) (narrator : Narrator) (repository : String) (tree : Node)
    (root : Path) (sight : Sight) {a : Analysis}
    (h : a = m.assemble narrator repository tree (.collect root (sight.discoveries root)
      (m.files.outcomesOf narrator root (sight.discoveries root)))) :
    a.summary.filesScanned = sight.ways.length ∧
      a.summary.sourceFiles = sight.ways.countP (fun way => m.files.ReadsSource root way) ∧
      a.summary.filesSkipped =
        sight.ways.countP (fun way => NamesSource root way ∧ ¬ m.files.ReadsSource root way) +
          (missedIn root sight).length := by
  subst h
  refine ⟨?_, ?_, ?_⟩
  · rw [filesScanned_assemble]
    exact countP_isFile_discoveries root sight
  · rw [(m.recorded_assemble narrator repository tree _).sourceFiles, length_files_collect]
  · rw [filesSkipped_assemble, skipCount_collect]

/-- The scanned files cover those that were reported or skipped exactly if no more source files were missed
than other files were scanned. -/
theorem survey_counts {a : Analysis} (hfs : m.files.WellFormed)
    (h : m.survey narrator settings = .ok a) :
    ∃ scanned missed, a.Counts m.files settings.scope settings.scanPath scanned missed := by
  obtain ⟨tree, w, updates, hwalk, ha⟩ := survey_eq_ok h
  obtain ⟨sight, hsight, rfl⟩ := walk_eq_ok hwalk
  obtain ⟨hscanned, hsource, hskipped⟩ := counts_assemble m narrator _ tree settings.scanPath sight ha
  have hnodup := Parted.nodup_of_pairwise (pairwise_finds_of_rootSight hfs hsight)
  refine ⟨sight.ways, missedIn settings.scanPath sight, nodup_ways_append_missedIn hnodup,
    fun way => mem_ways_iff_meets hsight, fun way => mem_missedIn_iff_misses hsight, ?_, hscanned,
    hsource, hskipped, ?_⟩
  · intro way hway
    exact admits_of_meets hfs ((mem_ways_iff_meets hsight).mp hway)
  · -- Each file that was scanned was reported, was skipped, or is no source file.
    have hsplit := length_eq_countP_add (p := m.files.ReadsSource settings.scanPath)
      (q := NamesSource settings.scanPath) (fun _ h => h.2) sight.ways
    rw [hscanned, hsource, hskipped, hsplit]
    omega

section

/-- A survey of the directory `r` in which no link is followed, one file after the other. -/
def plainSettings : Settings := { scanPath := [0x72], parallel := false, followLinks := false }

theorem exists_folderTree_lostScript :
    ∃ tree, lostScript.folderTree plainSettings.scope [0x72] = .ok tree := by
  have hlist : lostScript.list [0x72] = .ok [([0x78, dot, 0x70, 0x79], .link [0x71])] := by cbv
  have hreal : lostScript.resolve [0x72] = .ok (lostScript.top.child [0x72]
    (.directory [([0x78, dot, 0x70, 0x79], .link [0x71])])) := by cbv
  have hdir : lostScript.isDirectory [0x72] = true := by cbv
  have hdirs : lostScript.directories = [[], [[0x72]]] := by cbv
  have hnames : shownOrder [([0x78, dot, 0x70, 0x79], .link [0x71])] = [[0x78, dot, 0x70, 0x79]] :=
    List.mergeSort_of_pairwise (by decide +kernel)
  have hnodes : lostScript.nodesAt plainSettings.scope (lostScript.directories.erase [[0x72]]) [0x72]
      (shownOrder [([0x78, dot, 0x70, 0x79], .link [0x71])]) = .ok [.file "x.py"] := by
    rw [hnames]
    cbv
  exact ⟨_, folderTree_of_list hdir hreal (by rw [hdirs]; decide) hlist hnodes⟩

theorem exists_walk_lostScript : ∃ w updates,
    lostScript.walk plainSettings.scope .silent .sequential [0x72] = .ok (w, updates) ∧
      w.files.length = 0 ∧ w.failures.map (fun f => Analysis.skipCount f.2) = [1] ∧ w.scanned = 0 := by
  refine ⟨_, _, by cbv, ?_, ?_, ?_⟩
  · cbv
  · cbv
  · cbv

theorem exists_survey_lostScript : ∃ a,
    ({ files := lostScript } : Machine).survey .silent plainSettings = .ok a ∧
      a.summary.sourceFiles = 0 ∧ a.summary.filesSkipped = 1 ∧ a.summary.filesScanned = 0 := by
  obtain ⟨tree, htree⟩ := exists_folderTree_lostScript
  obtain ⟨w, updates, hwalk, hfiles, hfailures, hscanned⟩ := exists_walk_lostScript
  let m : Machine := { files := lostScript }
  refine ⟨m.assemble .silent (lostScript.repositoryNameAt [0x72]) tree w, ?_, ?_, ?_, ?_⟩
  · simp only [m, survey, bind, Except.bind, show plainSettings.scanPath = [0x72] from rfl,
      show plainSettings.mode 1 = .sequential from rfl, htree, hwalk]
    rfl
  · rw [(m.recorded_assemble .silent _ tree w).sourceFiles, hfiles]
  · rw [filesSkipped_assemble, hfailures]
    rfl
  · rw [filesScanned_assemble, hscanned]

/-- The link of `lostScript` is skipped and was not scanned. -/
theorem survey_lostScript_uncovered : ∃ a,
    ({ files := lostScript } : Machine).survey .silent plainSettings = .ok a ∧
      ¬ a.summary.sourceFiles + a.summary.filesSkipped ≤ a.summary.filesScanned := by
  obtain ⟨a, ha, hsource, hskipped, hscanned⟩ := exists_survey_lostScript
  refine ⟨a, ha, ?_⟩
  rw [hsource, hskipped, hscanned]
  decide

theorem survey_counts_lostScript : lostScript.WellFormed ∧ ∃ a,
    ({ files := lostScript } : Machine).survey .silent plainSettings = .ok a ∧
      ∃ scanned missed, a.Counts lostScript plainSettings.scope plainSettings.scanPath scanned missed := by
  have hfs : lostScript.WellFormed := by decide
  obtain ⟨a, ha, -⟩ := exists_survey_lostScript
  exact ⟨hfs, a, ha, survey_counts hfs ha⟩

end

end Machine

end RepoSurvey
