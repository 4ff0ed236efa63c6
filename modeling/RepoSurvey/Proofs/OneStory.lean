import RepoSurvey.Proofs.Chart
import RepoSurvey.Proofs.Entering
import RepoSurvey.Proofs.Ways

/-!
The ledgers of a result, its graph and its summary. They tell the same story as long as no two files
have the same path below the root. Such paths are texts, so two files whose names are no text can look
alike.
-/

namespace RepoSurvey

namespace Analysis

/-- The graph has the edges of the ledger of imports, and the summary counts the paths in the ledger
of languages. -/
structure TellsOneStory (a : Analysis) : Prop where
  edges : a.graph.edges = a.imports.entries.flatMap fun e => Graph.edgesFor e.1 e.2
  sourceFiles : a.summary.sourceFiles = a.paths.length
  languages : ∀ l n, (l, n) ∈ a.summary.languages ↔
    0 < n ∧ (a.languages.entries.map Prod.snd).count l = n

/-- What a result says of the files that were entered. -/
structure Entered (a : Analysis) (files : List FileReport) : Prop where
  languages : a.languages = .ofList (files.map fun f => (f.path, f.language))
  imports : a.imports = .ofList (files.map fun f => (f.path, f.imports))
  sourceFiles : a.summary.sourceFiles = files.length
  tally : LanguageCounts.Tally a.summary.languages (files.map FileReport.language)

theorem entered_start (repository : String) (tree : Node) (outline : String) (now : Moment) :
    (start repository tree outline now).Entered [] :=
  ⟨rfl, rfl, rfl, LanguageCounts.tally_nil⟩

/-- One more report is entered. -/
theorem Entered.addFile {a : Analysis} {files : List FileReport} (h : a.Entered files)
    (f : FileReport) : (a.addFile f).Entered (files ++ [f]) where
  languages := by
    rw [List.map_append, List.map_singleton, Ledger.ofList_append, ← h.languages]
    rfl
  imports := by
    rw [List.map_append, List.map_singleton, Ledger.ofList_append, ← h.imports]
    rfl
  sourceFiles := by
    rw [List.length_append, List.length_singleton, ← h.sourceFiles]
    rfl
  tally := by
    rw [List.map_append, List.map_singleton]
    exact h.tally.add f.language

theorem Entered.addFiles {a : Analysis} {files : List FileReport} (h : a.Entered files)
    (more : List FileReport) : (more.foldl Analysis.addFile a).Entered (files ++ more) := by
  induction more generalizing a files with
  | nil => simpa using h
  | cons f more ih =>
    rw [List.foldl_cons, List.append_cons]
    exact ih (h.addFile f)

/-- Failures change nothing of what was entered. -/
theorem Entered.addFailures {a : Analysis} {files : List FileReport} (h : a.Entered files)
    (failures : List (String × Failure)) :
    (failures.foldl (fun a (path, e) => a.addFailure path e) a).Entered files := by
  induction failures generalizing a with
  | nil => exact h
  | cons failure failures ih => exact ih ⟨h.languages, h.imports, h.sourceFiles, h.tally⟩

theorem Entered.complete {a : Analysis} {files : List FileReport} (h : a.Entered files)
    (graph : Graph) (text : String) (scanned : Nat) (elapsed : Duration) :
    ((((a.setGraph graph).setArchitecture text).setFilesScanned scanned).setScanDuration
      elapsed).Entered files :=
  ⟨h.languages, h.imports, h.sourceFiles, h.tally⟩

/-- The story is the same exactly if no two reports have the same path. -/
theorem Entered.tellsOneStory_iff {a : Analysis} {files : List FileReport} (h : a.Entered files)
    (hgraph : a.graph.edges = files.flatMap fun f => Graph.edgesFor f.path f.imports) :
    a.TellsOneStory ↔ (files.map FileReport.path).Nodup := by
  have hpaths (g : FileReport → Language) :
      (files.map fun f => (f.path, g f)).map Prod.fst = files.map FileReport.path := by
    rw [List.map_map]
    rfl
  constructor
  · -- A ledger has as many names as reports only if no name comes twice.
    intro hstory
    have hlength := hstory.sourceFiles
    rw [h.sourceFiles, paths, h.languages] at hlength
    rw [← hpaths FileReport.language]
    exact Ledger.nodup_of_length_keys (by rw [← hlength, List.length_map])
  · intro hnodup
    have hlanguages : a.languages.entries = files.map fun f => (f.path, f.language) := by
      rw [h.languages]
      exact Ledger.entries_ofList (by rwa [hpaths])
    have himports : a.imports.entries = files.map fun f => (f.path, f.imports) := by
      rw [h.imports]
      refine Ledger.entries_ofList ?_
      rw [List.map_map]
      exact hnodup
    refine ⟨?_, ?_, fun l n => ?_⟩
    · rw [hgraph, himports, List.flatMap_map]
    · rw [h.sourceFiles, paths, Ledger.keys, hlanguages, List.length_map, List.length_map]
    · rw [h.tally.mem_iff, hlanguages, List.map_map]
      rfl

end Analysis

namespace Machine

/-- The result of a survey, and the walk that it comes from. -/
theorem survey_eq_ok {m : Machine} {narrator : Narrator} {settings : Settings} {a : Analysis}
    (h : m.survey narrator settings = .ok a) :
    ∃ tree outcome updates, m.files.walk settings.scope narrator (settings.mode m.processors)
        settings.scanPath = .ok (outcome, updates) ∧
      a = m.assemble narrator (settings.repositoryName.getD
        (m.files.repositoryNameAt settings.scanPath)) tree outcome := by
  unfold survey at h
  cases htree : m.files.folderTree settings.scope settings.scanPath with
  | error e => simp [htree, bind, Except.bind] at h
  | ok tree =>
    cases hwalk : m.files.walk settings.scope narrator (settings.mode m.processors)
        settings.scanPath with
    | error e => simp [htree, hwalk, bind, Except.bind] at h
    | ok result =>
      simp only [htree, hwalk, bind, Except.bind, pure, Except.pure, Except.ok.injEq] at h
      exact ⟨tree, result.1, result.2, rfl, h.symm⟩

theorem entered_assemble (m : Machine) (narrator : Narrator) (repository : String) (tree : Node)
    (outcome : WalkOutcome) : (m.assemble narrator repository tree outcome).Entered outcome.files := by
  have h := ((Analysis.entered_start repository tree tree.outline m.now).addFiles
    outcome.files).addFailures outcome.failures
  rw [List.nil_append] at h
  exact h.complete (.assemble outcome.batches) (narrator.architecture repository tree.outline)
    outcome.scanned m.elapsed

theorem edges_assemble (m : Machine) (narrator : Narrator) (repository : String) (tree : Node)
    (root : Path) (ds : List Discovery) :
    (m.assemble narrator repository tree
        (.collect root ds (m.files.outcomesOf narrator root ds))).graph.edges =
      (WalkOutcome.collect root ds (m.files.outcomesOf narrator root ds)).files.flatMap fun f =>
        Graph.edgesFor f.path f.imports := by
  rw [List.flatMap_def, ← FileSystem.batches_collect]
  rfl

/-- The result of a survey tells one story exactly if no two of the ways on which the walk meets source
files that can be read have the same text. -/
theorem survey_tellsOneStory_iff {m : Machine} {narrator : Narrator} {settings : Settings}
    {a : Analysis} (hfs : m.files.WellFormed) (h : m.survey narrator settings = .ok a) :
    a.TellsOneStory ↔ ∀ way way',
      m.files.Meets settings.scope settings.scanPath way →
      m.files.ReadsSource settings.scanPath way →
      m.files.Meets settings.scope settings.scanPath way' →
      m.files.ReadsSource settings.scanPath way' →
      Path.wayText way = Path.wayText way' → way = way' := by
  obtain ⟨tree, outcome, updates, hwalk, rfl⟩ := survey_eq_ok h
  obtain ⟨ways, hnodup, hways, hpaths⟩ := FileSystem.exists_ways_of_walk hfs hwalk
  obtain ⟨sight, -, rfl⟩ := FileSystem.walk_eq_ok hwalk
  rw [(m.entered_assemble narrator _ tree _).tellsOneStory_iff (m.edges_assemble ..), hpaths,
    List.nodup_map_iff_inj_on hnodup]
  simp only [hways]
  constructor
  · intro hinj way way' hmeets hreads hmeets' hreads' htext
    exact hinj way ⟨hmeets, hreads⟩ way' ⟨hmeets', hreads'⟩ htext
  · intro hdistinct way hway way' hway' htext
    exact hdistinct way way' hway.1 hway.2 hway'.1 hway'.2 htext

section

open FileSystem

/-- A repository of two files whose names are no texts and look alike. -/
def lookalikes : FileSystem where
  entries := [([0xFE, dot, 0x6A, 0x73], .file (.ok (Path.ofString "require('a')"))),
    ([0xFF, dot, 0x6A, 0x73], .file (.ok (Path.ofString "require('b')")))]
  current := []

/-- A survey of the whole file system, one file after the other. -/
def wholeSettings : Settings := { scanPath := [solidus], parallel := false }

theorem exists_folderTree_lookalikes :
    ∃ tree, lookalikes.folderTree wholeSettings.scope [solidus] = .ok tree := by
  have hlist : lookalikes.list [solidus] = .ok lookalikes.entries := by cbv
  have hreal : lookalikes.resolve [solidus] = .ok lookalikes.top := by cbv
  have hdir : lookalikes.isDirectory [solidus] = true := by cbv
  have hdirs : lookalikes.directories = [[]] := by cbv
  have hnames : shownOrder lookalikes.entries = [[0xFE, dot, 0x6A, 0x73], [0xFF, dot, 0x6A, 0x73]] :=
    List.mergeSort_of_pairwise (by decide +kernel)
  have hnodes : lookalikes.nodesAt wholeSettings.scope
      (lookalikes.directories.erase lookalikes.top.realPath) [solidus] (shownOrder lookalikes.entries) =
        .ok [.file "\uFFFD.js", .file "\uFFFD.js"] := by
    rw [hnames]
    cbv
  exact ⟨_, folderTree_of_list hdir hreal (by rw [hdirs]; decide) hlist hnodes⟩

theorem exists_walk_lookalikes : ∃ outcome updates,
    lookalikes.walk wholeSettings.scope .silent .sequential [solidus] = .ok (outcome, updates) ∧
      outcome.files = [⟨"\uFFFD.js", .javaScript, ["a"], "", "", ""⟩,
        ⟨"\uFFFD.js", .javaScript, ["b"], "", "", ""⟩] ∧
      outcome.batches = [[⟨"\uFFFD.js", "a"⟩], [⟨"\uFFFD.js", "b"⟩]] := by
  refine ⟨_, _, by cbv, ?_, ?_⟩
  · cbv
  · cbv

theorem exists_survey_lookalikes : ∃ a,
    ({ files := lookalikes } : Machine).survey .silent wholeSettings = .ok a ∧
      a.Entered [⟨"\uFFFD.js", .javaScript, ["a"], "", "", ""⟩,
        ⟨"\uFFFD.js", .javaScript, ["b"], "", "", ""⟩] ∧
      a.graph.edges = [⟨"\uFFFD.js", "a"⟩, ⟨"\uFFFD.js", "b"⟩] := by
  obtain ⟨tree, htree⟩ := exists_folderTree_lookalikes
  obtain ⟨outcome, updates, hwalk, hfiles, hbatches⟩ := exists_walk_lookalikes
  have hentered := ({ files := lookalikes } : Machine).entered_assemble .silent
    (lookalikes.repositoryNameAt [solidus]) tree outcome
  rw [hfiles] at hentered
  refine ⟨_, ?_, hentered, ?_⟩
  · simp only [survey, bind, Except.bind, show wholeSettings.scanPath = [solidus] from rfl,
      show wholeSettings.mode 1 = .sequential from rfl, htree, hwalk]
    rfl
  · change outcome.batches.flatten = _
    rw [hbatches]
    rfl

/-- A survey of `lookalikes` enters both files under one path. -/
theorem survey_lookalikes_disagrees : lookalikes.WellFormed ∧ ∃ a,
    ({ files := lookalikes } : Machine).survey .silent wholeSettings = .ok a ∧
      a.paths = ["\uFFFD.js"] ∧ a.imports.entries = [("\uFFFD.js", ["b"])] ∧
      a.graph.edges = [⟨"\uFFFD.js", "a"⟩, ⟨"\uFFFD.js", "b"⟩] ∧ a.summary.sourceFiles = 2 ∧
      ¬ a.TellsOneStory := by
  obtain ⟨a, ha, hentered, hedges⟩ := exists_survey_lookalikes
  have hpaths : a.paths = ["\uFFFD.js"] := congrArg Ledger.keys hentered.languages
  refine ⟨by decide, a, ha, hpaths, ?_, hedges, hentered.sourceFiles, fun hstory => ?_⟩
  · rw [hentered.imports]
    rfl
  · have hcount := hstory.sourceFiles
    rw [hpaths, hentered.sourceFiles] at hcount
    cases hcount

theorem tellsOneStory_iff_of_lookalikes : lookalikes.WellFormed ∧ ∃ a,
    ({ files := lookalikes } : Machine).survey .silent wholeSettings = .ok a ∧
      (a.TellsOneStory ↔ ∀ way way',
        lookalikes.Meets wholeSettings.scope wholeSettings.scanPath way →
        lookalikes.ReadsSource wholeSettings.scanPath way →
        lookalikes.Meets wholeSettings.scope wholeSettings.scanPath way' →
        lookalikes.ReadsSource wholeSettings.scanPath way' →
        Path.wayText way = Path.wayText way' → way = way') := by
  have hfs : lookalikes.WellFormed := by decide
  obtain ⟨a, ha, -, -⟩ := exists_survey_lookalikes
  exact ⟨hfs, a, ha, survey_tellsOneStory_iff hfs ha⟩

end

end Machine

end RepoSurvey
