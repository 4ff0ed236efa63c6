import RepoSurvey.Proofs.Bookkeeping
import RepoSurvey.Proofs.Contents
import RepoSurvey.Proofs.TreeAndWalk

/-!
What one file may change of the result of a survey. The folder tree and what a walk meets do not depend on
contents at all, and what comes of a candidate depends on the bytes of its own file only.
-/

namespace RepoSurvey

namespace FileSystem

theorem shownOrder_emptied (l : Listing) : shownOrder (Listing.emptied l) = shownOrder l := by
  rw [shownOrder, Listing.map_fst_emptied, shownOrder]

theorem shownAt_emptied (fs : FileSystem) (scope : Scope) (path : Path) :
    fs.emptied.shownAt scope path = fs.shownAt scope path := by
  unfold shownAt
  rw [lstat_emptied]
  cases fs.lstat path with
  | error e => rfl
  | ok s =>
    obtain ⟨e, above⟩ := s
    cases e with
    | link target =>
      change (if fs.emptied.isDirectory path then _ else _) = if fs.isDirectory path then _ else _
      rw [isDirectory_emptied]
    | _ => rfl

mutual

theorem folderAt_emptied (fs : FileSystem) (scope : Scope) (fresh : List RealPath) (path : Path)
    (name : String) :
    fs.emptied.folderAt scope fresh path name = fs.folderAt scope fresh path name := by
  rw [folderAt, folderAt, resolve_emptied]
  cases fs.resolve path with
  | error e => rfl
  | ok real =>
    rw [Except.map]
    dsimp only
    -- Whether a directory has been passed is told by its real path, which no content is part of.
    rw [Standing.realPath_emptied]
    by_cases hfresh : real.realPath ∈ fresh
    · rw [dif_pos hfresh, dif_pos hfresh, list_emptied]
      cases fs.list path with
      | error e => rfl
      | ok entries =>
        rw [Except.map]
        dsimp only
        rw [shownOrder_emptied, nodesAt_emptied]
    · rw [dif_neg hfresh, dif_neg hfresh]
termination_by (fresh.length, 0)
decreasing_by
  have := FileSystem.length_erase_lt hfresh
  omega

theorem nodesAt_emptied (fs : FileSystem) (scope : Scope) (fresh : List RealPath) (path : Path)
    (names : List FileName) :
    fs.emptied.nodesAt scope fresh path names = fs.nodesAt scope fresh path names := by
  cases names with
  | nil => rw [nodesAt, nodesAt]
  | cons n names => rw [nodesAt, nodesAt, nodeAt_emptied, nodesAt_emptied]
termination_by (fresh.length, names.length + 1)

theorem nodeAt_emptied (fs : FileSystem) (scope : Scope) (fresh : List RealPath) (path : Path)
    (name : String) :
    fs.emptied.nodeAt scope fresh path name = fs.nodeAt scope fresh path name := by
  rw [nodeAt_eq_shownAt, nodeAt_eq_shownAt, shownAt_emptied]
  cases fs.shownAt scope path with
  | none => rfl
  | some kind =>
    cases kind with
    | file => rfl
    | folder => exact folderAt_emptied fs scope fresh path name
termination_by (fresh.length, 1)

end

/-- The folder tree does not depend on what the files hold. -/
theorem folderTree_emptied (fs : FileSystem) (scope : Scope) (root : Path) :
    fs.emptied.folderTree scope root = fs.folderTree scope root := by
  unfold folderTree
  rw [isDirectory_emptied, directories_emptied, folderAt_emptied]

mutual

theorem sightsIn_emptied (fs : FileSystem) (scope : Scope) (fresh : List RealPath) (path : Path)
    (l : Listing) :
    fs.emptied.sightsIn scope fresh path (Listing.emptied l) = fs.sightsIn scope fresh path l := by
  rw [sightsIn, sightsIn, meetings_emptied]
termination_by (fresh.length, sizeOf l, 1)

theorem meetings_emptied (fs : FileSystem) (scope : Scope) (fresh : List RealPath) (path : Path)
    (l : Listing) :
    fs.emptied.meetings scope fresh path (Listing.emptied l) = fs.meetings scope fresh path l := by
  cases l with
  | nil => rw [Listing.emptied, meetings, meetings]
  | cons item rest =>
    obtain ⟨n, e⟩ := item
    rw [Listing.emptied_cons, meetings, meetings, sightOf_emptied, meetings_emptied,
      Entry.isDirectory_emptied]
termination_by (fresh.length, sizeOf l, 0)

theorem sightOf_emptied (fs : FileSystem) (scope : Scope) (fresh : List RealPath) (path : Path)
    (excluded : Bool) (e : Entry) :
    fs.emptied.sightOf scope fresh path excluded e.emptied =
      fs.sightOf scope fresh path excluded e := by
  cases e with
  | file content => rw [Entry.emptied, sightOf, sightOf]
  | special => rw [Entry.emptied, sightOf, sightOf]
  | directory l fault =>
    rw [Entry.emptied, sightOf, sightOf, stat_emptied]
    cases excluded with
    | true => rfl
    | false =>
      cases fs.stat path with
      | error err => rfl
      | ok s =>
        cases fault with
        | some err => rfl
        | none =>
          rw [Except.map]
          dsimp only
          rw [Standing.realPath_emptied, sightsIn_emptied]
  | link target =>
    rw [Entry.emptied, sightOf, sightOf, stat_emptied]
    cases fs.stat path with
    | error err => rfl
    | ok s =>
      rw [Except.map]
      dsimp only
      cases excluded with
      | true => rfl
      | false =>
        rw [Standing.realPath_emptied]
        obtain ⟨e, above⟩ := s
        cases e with
        | file content => rfl
        | special => rfl
        | link target => rfl
        | directory l fault =>
          cases fault with
          | some err => rfl
          | none =>
            -- Behind a link the directory is entered only if it has not been passed.
            change (if _ : _ then _ else _) = if _ : _ then _ else _
            by_cases hmem : (Standing.mk (.directory l none) above).realPath ∈ fresh
            · rw [dif_pos hmem, dif_pos hmem, sightsIn_emptied]
            · rw [dif_neg hmem, dif_neg hmem]
termination_by (fresh.length, sizeOf e, 2)
decreasing_by
  · exact Prod.Lex.left _ _ (length_erase_lt hmem)
  · rcases Nat.lt_or_eq_of_le (List.length_erase_le (a := s.realPath) (l := fresh)) with hlt | heq
    · exact Prod.Lex.left _ _ hlt
    · rw [heq]
      exact Prod.Lex.right _ (Prod.Lex.left _ _ (by subst_vars; simp))

end

theorem rootSight_emptied (fs : FileSystem) (scope : Scope) (root : Path) :
    fs.emptied.rootSight scope root = fs.rootSight scope root := by
  unfold rootSight
  rw [stat_emptied, directories_emptied, isLink_emptied]
  cases fs.stat root with
  | error err => rfl
  | ok s =>
    obtain ⟨e, above⟩ := s
    cases e with
    | directory l fault =>
      cases fault with
      | some err => rfl
      | none =>
        have hsights := fs.sightsIn_emptied scope
          (fs.directories.erase (Standing.mk (.directory l none) above).realPath) root l
        rw [Except.map]
        dsimp only
        rw [Standing.realPath_emptied]
        exact congrArg (fun items => Except.ok (Sight.folder items)) hsights
    | file content => rfl
    | special => rfl
    | link target => rfl

/-- What a walk finds does not depend on what the files hold. -/
theorem discoveries_emptied (fs : FileSystem) (scope : Scope) (root : Path) :
    fs.emptied.discoveries scope root = fs.discoveries scope root := by
  rw [discoveries, rootSight_emptied, discoveries]

theorem Alike.folderTree {fs fs' : FileSystem} (h : fs.Alike fs') (scope : Scope) (root : Path) :
    fs.folderTree scope root = fs'.folderTree scope root := by
  have hemptied : fs.emptied = fs'.emptied := h
  rw [← folderTree_emptied, hemptied, folderTree_emptied]

theorem Alike.discoveries {fs fs' : FileSystem} (h : fs.Alike fs') (scope : Scope) (root : Path) :
    fs.discoveries scope root = fs'.discoveries scope root := by
  have hemptied : fs.emptied = fs'.emptied := h
  rw [← discoveries_emptied, hemptied, discoveries_emptied]

end FileSystem

/-- Where there is a tree, there is a walk. -/
theorem FileSystem.exists_walk_of_folderTree {fs : FileSystem} {scope : Scope} {root : Path}
    {tree : Node} (h : fs.folderTree scope root = .ok tree) (narrator : Narrator) (mode : Mode) :
    ∃ result, fs.walk scope narrator mode root = .ok result := by
  rw [folderTree_eq_chart] at h
  cases hchart : fs.chart scope root with
  | error e => simp [hchart, Except.map] at h
  | ok c => exact exists_walk_of_chart hchart narrator mode

/-- A walk has brought home what came of some candidates, each part in the place of its candidate, after
the failures of what could not be visited. -/
structure WalkOutcome.MadeOf (w : WalkOutcome) (unvisited : List (String × Failure))
    (trace : List (Candidate × Outcome)) : Prop where
  files : w.files = trace.filterMap fun (_, o) => o.report?
  paths : ∀ c o r, (c, o) ∈ trace → o.report? = some r → r.path = c.relative
  batches : w.batches = trace.filterMap fun (_, o) => o.edges?
  edges : ∀ c o, (c, o) ∈ trace →
    o.edges? = o.report?.map fun r => Graph.edgesFor r.path r.imports
  failures : w.failures = unvisited ++ trace.filterMap fun (c, o) => o.failure?.map (c.relative, ·)

namespace FileSystem

variable {fs fs' : FileSystem} {scope : Scope} {narrator : Narrator} {mode : Mode} {root : Path}

/-- The candidates among some discoveries, each with what comes of it. -/
def traceOf (fs : FileSystem) (narrator : Narrator) (root : Path) (ds : List Discovery) :
    List (Candidate × Outcome) :=
  (candidatesOf root ds).map fun c => (c, c.process narrator fs)

theorem map_fst_traceOf (ds : List Discovery) :
    (fs.traceOf narrator root ds).map Prod.fst = candidatesOf root ds := by
  rw [traceOf, List.map_map]
  exact List.map_id _

/-- A walk brings home what came of its discoveries. -/
theorem exists_discoveries_of_walk {w : WalkOutcome} {updates : List Update}
    (h : fs.walk scope narrator mode root = .ok (w, updates)) :
    ∃ ds, fs.discoveries scope root = .ok ds ∧
      w = .collect root ds (fs.outcomesOf narrator root ds) := by
  obtain ⟨sight, hsight, rfl⟩ := walk_eq_ok h
  refine ⟨sight.discoveries root, ?_, rfl⟩
  unfold discoveries
  rw [hsight]
  rfl

/-- What comes of candidates whose files read alike is the same. -/
theorem filter_traceOf {keep : Candidate → Bool} {ds : List Discovery}
    (h : ∀ c ∈ candidatesOf root ds, keep c = true → fs.read c.path = fs'.read c.path) :
    (fs.traceOf narrator root ds).filter (fun (c, _) => keep c) =
      (fs'.traceOf narrator root ds).filter fun (c, _) => keep c := by
  rw [traceOf, traceOf, List.filter_map, List.filter_map]
  apply List.map_congr_left
  intro c hc
  obtain ⟨hmem, hkeep⟩ := List.mem_filter.mp hc
  rw [Candidate.process, Candidate.process, h c hmem hkeep]

/-- A walk brings home what its trace says. -/
theorem collect_madeOf (fs : FileSystem) (narrator : Narrator) (root : Path) (ds : List Discovery) :
    (WalkOutcome.collect root ds (fs.outcomesOf narrator root ds)).MadeOf
      (ds.filterMap (Discovery.failure? root)) (fs.traceOf narrator root ds) where
  files := by
    rw [traceOf, List.filterMap_map]
    unfold WalkOutcome.collect outcomesOf
    dsimp only
    rw [List.filterMap_map]
    rfl
  paths := by
    intro c o r hc hr
    obtain ⟨c', -, heq⟩ := List.mem_map.mp hc
    obtain ⟨rfl, rfl⟩ := Prod.mk.inj heq
    exact Candidate.path_of_report? hr
  batches := by
    rw [traceOf, List.filterMap_map]
    unfold WalkOutcome.collect outcomesOf
    dsimp only
    rw [List.filterMap_map]
    rfl
  edges := by
    intro c o hc
    obtain ⟨c', -, heq⟩ := List.mem_map.mp hc
    obtain ⟨rfl, rfl⟩ := Prod.mk.inj heq
    exact Candidate.edges?_process c' narrator fs
  failures := by
    rw [traceOf, List.filterMap_map]
    unfold WalkOutcome.collect outcomesOf
    dsimp only
    rw [← List.map_prod_left_eq_zip, List.filterMap_map]

end FileSystem

/-! What concerns some paths below the root, in the parts of a result. -/

section

variable {unvisited : List (String × Failure)} {trace : List (Candidate × Outcome)}
  {w : WalkOutcome}

theorem WalkOutcome.MadeOf.filter_files (h : w.MadeOf unvisited trace) (texts : String → Bool) :
    w.files.filter (fun r => texts r.path) =
      (trace.filter fun (c, _) => texts c.relative).filterMap fun (_, o) => o.report? := by
  rw [h.files, List.filter_filterMap, List.filterMap_filter]
  apply List.filterMap_congr
  rintro ⟨c, o⟩ hc
  dsimp only
  cases hr : o.report? with
  | none => simp
  | some r => rw [Option.filter_some, h.paths c o r hc hr]

theorem WalkOutcome.MadeOf.filter_failures (h : w.MadeOf unvisited trace) (texts : String → Bool) :
    w.failures.filter (fun f => texts f.1) = unvisited.filter (fun f => texts f.1) ++
      (trace.filter fun (c, _) => texts c.relative).filterMap fun (c, o) =>
        o.failure?.map (c.relative, ·) := by
  rw [h.failures, List.filter_append, List.filter_filterMap, List.filterMap_filter]
  congr 1
  apply List.filterMap_congr
  rintro ⟨c, o⟩ -
  dsimp only
  cases o.failure? with
  | none => simp
  | some e => rw [Option.map_some, Option.filter_some]

/-- Batches stand beside the reports that they come from. -/
theorem WalkOutcome.MadeOf.batches_eq (h : w.MadeOf unvisited trace) :
    w.batches = w.files.map fun f => Graph.edgesFor f.path f.imports := by
  rw [h.batches, h.files, List.map_filterMap]
  exact List.filterMap_congr fun ⟨c, o⟩ hc => h.edges c o hc

/-- The edges of a walk are those of its reports, in order. -/
theorem WalkOutcome.MadeOf.filter_edges (h : w.MadeOf unvisited trace) (texts : String → Bool) :
    w.edges.filter (fun e => texts e.source) =
      (w.files.filter fun r => texts r.path).flatMap fun r => Graph.edgesFor r.path r.imports := by
  rw [WalkOutcome.edges, h.batches_eq]
  -- All edges of one report have its path as their source, so a batch is kept or dropped as a whole.
  induction w.files with
  | nil => rfl
  | cons r files ih =>
    rw [List.map_cons, List.flatten_cons, List.filter_append, ih, List.filter_cons]
    by_cases hr : texts r.path = true
    · simp [Graph.edgesFor, hr]
    · simp [Graph.edgesFor, hr]

theorem filter_eraseDups (texts : String → Bool) (l : List String) :
    l.eraseDups.filter texts = (l.filter texts).eraseDups := by
  -- From the end of the list, as duplicates are dropped where they come later.
  induction l using List.reverseRecOn with
  | nil => rfl
  | append_singleton l text ih =>
    rw [List.eraseDups_append, List.filter_append, List.filter_append, List.eraseDups_append, ih]
    by_cases htext : texts text = true
    · by_cases hmem : text ∈ l
      · simp [List.removeAll, htext, hmem]
      · simp [List.removeAll, htext, hmem]
    · by_cases hmem : text ∈ l
      · simp [List.removeAll, htext, hmem]
      · simp [List.removeAll, htext, hmem]

end

namespace Analysis

theorem tree_performAll (a : Analysis) (ops : List Operation) : (a.performAll ops).tree = a.tree := by
  induction ops generalizing a with
  | nil => rfl
  | cons op ops ih =>
    have hop : (a.perform op).tree = a.tree := by cases op <;> rfl
    rw [← hop]
    exact ih (a.perform op)

theorem lastUnder_filter {texts : String → Bool} {path : String} (h : texts path = true)
    (reports : List FileReport) :
    lastUnder path (reports.filter fun r => texts r.path) = lastUnder path reports := by
  unfold lastUnder
  rw [← List.filter_reverse, List.find?_filter]
  congr 1
  funext r
  by_cases hr : r.path = path
  · simp [hr, h]
  · simp [hr]

end Analysis

namespace Machine

variable {m : Machine} {narrator : Narrator} {settings : Settings} {e : Failure}

/-- The operations by which a survey puts its result together: first the reports, then the failures. -/
def assembly (m : Machine) (narrator : Narrator) (repository : String) (tree : Node)
    (outcome : WalkOutcome) : List Analysis.Operation :=
  outcome.files.map .addFile ++ outcome.failures.map (fun (path, e) => .addFailure path e) ++
    [.setGraph (.assemble outcome.batches),
      .setArchitecture (narrator.architecture repository tree.outline),
      .setFilesScanned outcome.scanned, .setScanDuration m.elapsed]

theorem assemble_eq_performAll (m : Machine) (narrator : Narrator) (repository : String) (tree : Node)
    (outcome : WalkOutcome) :
    m.assemble narrator repository tree outcome =
      (Analysis.start repository tree tree.outline m.now).performAll
        (m.assembly narrator repository tree outcome) := by
  unfold Analysis.performAll assembly
  rw [List.foldl_append, List.foldl_append, List.foldl_map, List.foldl_map]
  rfl

theorem failures_assembly (m : Machine) (narrator : Narrator) (repository : String) (tree : Node)
    (outcome : WalkOutcome) :
    (m.assembly narrator repository tree outcome).filterMap Analysis.Operation.failure? =
      outcome.failures := by
  simp [assembly, List.filterMap_append, List.filterMap_map, Function.comp_def,
    Analysis.Operation.failure?]

theorem recorded_assemble (m : Machine) (narrator : Narrator) (repository : String) (tree : Node)
    (outcome : WalkOutcome) :
    (m.assemble narrator repository tree outcome).Recorded outcome.files outcome.failures := by
  have h := (Analysis.recorded_start repository tree tree.outline m.now).performAll
    (m.assembly narrator repository tree outcome)
  have hreports : (m.assembly narrator repository tree outcome).filterMap Analysis.Operation.report? =
      outcome.files := by
    simp [assembly, List.filterMap_append, List.filterMap_map, Function.comp_def,
      Analysis.Operation.report?]
  rw [hreports, failures_assembly, ← assemble_eq_performAll] at h
  exact h

theorem tree_assemble (m : Machine) (narrator : Narrator) (repository : String) (tree : Node)
    (outcome : WalkOutcome) : (m.assemble narrator repository tree outcome).tree = tree := by
  rw [assemble_eq_performAll, Analysis.tree_performAll]
  rfl

theorem filesScanned_assemble (m : Machine) (narrator : Narrator) (repository : String) (tree : Node)
    (outcome : WalkOutcome) :
    (m.assemble narrator repository tree outcome).summary.filesScanned = outcome.scanned := rfl

theorem survey_eq_error_iff :
    m.survey narrator settings = .error e ↔
      m.files.folderTree settings.scope settings.scanPath = .error e := by
  unfold survey
  cases htree : m.files.folderTree settings.scope settings.scanPath with
  | error e' => simp [bind, Except.bind]
  | ok tree =>
    obtain ⟨result, hwalk⟩ := FileSystem.exists_walk_of_folderTree htree narrator
      (settings.mode m.processors)
    simp [bind, Except.bind, hwalk, pure, Except.pure]

/-- The result of a survey is put together from its tree and what came of its candidates. -/
theorem exists_assemble_of_survey {a : Analysis} (h : m.survey narrator settings = .ok a) :
    ∃ repository tree ds, m.files.folderTree settings.scope settings.scanPath = .ok tree ∧
      m.files.discoveries settings.scope settings.scanPath = .ok ds ∧
      a = m.assemble narrator repository tree (.collect settings.scanPath ds
        (m.files.outcomesOf narrator settings.scanPath ds)) := by
  unfold survey at h
  cases htree : m.files.folderTree settings.scope settings.scanPath with
  | error e' => simp [htree, bind, Except.bind] at h
  | ok tree =>
    obtain ⟨⟨w, updates⟩, hwalk⟩ := FileSystem.exists_walk_of_folderTree htree narrator
      (settings.mode m.processors)
    obtain ⟨ds, hds, rfl⟩ := FileSystem.exists_discoveries_of_walk hwalk
    simp only [htree, hwalk, bind, Except.bind, pure, Except.pure, Except.ok.injEq] at h
    exact ⟨_, tree, ds, rfl, hds, h.symm⟩

end Machine

/-- Two results say the same about the files whose paths below the root are among some texts. -/
structure Analysis.AgreesOn (a a' : Analysis) (texts : String → Bool) : Prop where
  paths : a.paths.filter texts = a'.paths.filter texts
  file : ∀ path, texts path = true → a.file? path = a'.file? path
  edges : (a.graph.edges.filter fun e => texts e.source) =
    a'.graph.edges.filter fun e => texts e.source
  notices : (a.notices.filter fun n => texts n.path) = a'.notices.filter fun n => texts n.path

/-- What two walks through a root have brought home differs only in what comes of candidates whose files read
differently. Both have the same candidates, in the same order. -/
structure WalkOutcome.Apart (w w' : WalkOutcome) (fs fs' : FileSystem) (root : Path)
    (ds : List Discovery) : Prop where
  traced : ∃ trace trace', w.MadeOf (ds.filterMap (Discovery.failure? root)) trace ∧
    w'.MadeOf (ds.filterMap (Discovery.failure? root)) trace' ∧
    trace.map Prod.fst = candidatesOf root ds ∧ trace'.map Prod.fst = candidatesOf root ds ∧
    ∀ keep : Candidate → Bool,
      (∀ c ∈ candidatesOf root ds, keep c = true → fs.read c.path = fs'.read c.path) →
      (trace.filter fun (c, _) => keep c) = trace'.filter fun (c, _) => keep c
  scanned : w.scanned = w'.scanned

namespace Machine

/-- A survey of another snapshot differs from one of the machine's own only in what concerns the files that
read differently. -/
structure Isolates (m : Machine) (fs' : FileSystem) (narrator : Narrator) (settings : Settings) :
    Prop where
  failure : ∀ e, m.survey narrator settings = .error e ↔
    { m with files := fs' }.survey narrator settings = .error e
  ofTree : ∀ e, m.survey narrator settings = .error e →
    m.files.folderTree settings.scope settings.scanPath = .error e ∧
      ((∃ text, e = .invalidPath text) ∨ ∃ text err, e = .directoryRead text err)
  whole : ∀ a a', m.survey narrator settings = .ok a →
    { m with files := fs' }.survey narrator settings = .ok a' →
    a.tree = a'.tree ∧ a.summary.filesScanned = a'.summary.filesScanned
  walks : ∀ mode w updates w' updates',
    m.files.walk settings.scope narrator mode settings.scanPath = .ok (w, updates) →
    fs'.walk settings.scope narrator mode settings.scanPath = .ok (w', updates') →
    ∃ ds, m.files.discoveries settings.scope settings.scanPath = .ok ds ∧
      w.Apart w' m.files fs' settings.scanPath ds
  parts : ∀ a a' ds, m.survey narrator settings = .ok a →
    { m with files := fs' }.survey narrator settings = .ok a' →
    m.files.discoveries settings.scope settings.scanPath = .ok ds →
    ∀ texts : String → Bool,
      (∀ c ∈ candidatesOf settings.scanPath ds, texts c.relative = true →
        m.files.read c.path = fs'.read c.path) → a.AgreesOn a' texts

variable {m : Machine} {fs' : FileSystem}

/-- Results of walks that agree on what comes of the candidates of some texts agree on these texts. -/
theorem agreesOn_assemble {narrator : Narrator} {repository repository' : String} {tree : Node}
    {w w' : WalkOutcome} {unvisited : List (String × Failure)}
    {trace trace' : List (Candidate × Outcome)} {texts : String → Bool}
    (hw : w.MadeOf unvisited trace) (hw' : w'.MadeOf unvisited trace')
    (htrace : (trace.filter fun (c, _) => texts c.relative) =
      trace'.filter fun (c, _) => texts c.relative) :
    (m.assemble narrator repository tree w).AgreesOn
      ({ m with files := fs' }.assemble narrator repository' tree w') texts := by
  have hfiles : (w.files.filter fun r => texts r.path) = w'.files.filter fun r => texts r.path := by
    rw [hw.filter_files, htrace, hw'.filter_files]
  have hfailures : (w.failures.filter fun f => texts f.1) =
      w'.failures.filter fun f => texts f.1 := by
    rw [hw.filter_failures, htrace, hw'.filter_failures]
  -- Each part of a result is made from the reports or the failures, and these agree.
  have hrecorded := m.recorded_assemble narrator repository tree w
  have hrecorded' := { m with files := fs' }.recorded_assemble narrator repository' tree w'
  refine ⟨?_, ?_, ?_, ?_⟩
  · have hpaths (files : List FileReport) : (files.map FileReport.path).eraseDups.filter texts =
        ((files.filter fun r => texts r.path).map FileReport.path).eraseDups := by
      rw [filter_eraseDups, List.filter_map]
      rfl
    rw [hrecorded.paths_eq, hrecorded'.paths_eq, hpaths, hpaths, hfiles]
  · intro path hpath
    rw [hrecorded.file?_eq, hrecorded'.file?_eq, ← Analysis.lastUnder_filter hpath, hfiles,
      Analysis.lastUnder_filter hpath]
  · change (w.edges.filter fun e => texts e.source) = w'.edges.filter fun e => texts e.source
    rw [hw.filter_edges, hw'.filter_edges, hfiles]
  · have hnotices (failures : List (String × Failure)) :
        (failures.map Analysis.noticeOf).filter (fun n => texts n.path) =
          (failures.filter fun f => texts f.1).map Analysis.noticeOf := by
      rw [List.filter_map]
      rfl
    rw [hrecorded.notices, hrecorded'.notices, hnotices, hnotices, hfailures]

/-- What one file holds, and whether it can be read, concerns no other file. -/
theorem survey_isolates (h : m.files.Alike fs') (narrator : Narrator) (settings : Settings) :
    m.Isolates fs' narrator settings where
  -- Only the tree can fail, and it is the same tree.
  failure e := by
    rw [survey_eq_error_iff, survey_eq_error_iff, h.folderTree]
  ofTree e he := by
    have htree := survey_eq_error_iff.mp he
    exact ⟨htree, FileSystem.folderTree_failure htree⟩
  whole a a' ha ha' := by
    obtain ⟨repository, tree, ds, htree, hds, rfl⟩ := exists_assemble_of_survey ha
    obtain ⟨repository', tree', ds', htree', hds', rfl⟩ := exists_assemble_of_survey ha'
    obtain rfl := Except.ok.inj (htree.symm.trans ((h.folderTree _ _).trans htree'))
    obtain rfl := Except.ok.inj (hds.symm.trans ((h.discoveries _ _).trans hds'))
    refine ⟨?_, ?_⟩
    · rw [tree_assemble, tree_assemble]
    · rw [filesScanned_assemble, filesScanned_assemble]
      rfl
  walks mode w updates w' updates' hw hw' := by
    -- Both walks make the same discoveries, so their traces have the same candidates.
    obtain ⟨ds, hds, rfl⟩ := FileSystem.exists_discoveries_of_walk hw
    obtain ⟨ds', hds', rfl⟩ := FileSystem.exists_discoveries_of_walk hw'
    obtain rfl := Except.ok.inj (hds.symm.trans ((h.discoveries _ _).trans hds'))
    refine ⟨ds, hds, ⟨_, _, m.files.collect_madeOf narrator _ ds, fs'.collect_madeOf narrator _ ds,
      FileSystem.map_fst_traceOf ds, FileSystem.map_fst_traceOf ds, ?_⟩, rfl⟩
    intro keep hkeep
    exact FileSystem.filter_traceOf hkeep
  parts a a' ds ha ha' hds texts htexts := by
    obtain ⟨repository, tree, ds₁, htree, hds₁, rfl⟩ := exists_assemble_of_survey ha
    obtain ⟨repository', tree', ds₂, htree', hds₂, rfl⟩ := exists_assemble_of_survey ha'
    obtain rfl := Except.ok.inj (htree.symm.trans ((h.folderTree _ _).trans htree'))
    obtain rfl := Except.ok.inj (hds.symm.trans hds₁)
    obtain rfl := Except.ok.inj (hds.symm.trans ((h.discoveries _ _).trans hds₂))
    -- Now both results come from the same candidates, and only files that read differently tell them apart.
    have hmade := m.files.collect_madeOf narrator settings.scanPath ds
    have hmade' := fs'.collect_madeOf narrator settings.scanPath ds
    apply agreesOn_assemble hmade hmade'
    exact FileSystem.filter_traceOf htexts

section

open FileSystem

/-- A repository of a script and, beside it, a module that holds something or cannot be read. -/
def besideScript (content : Except IoError (List UInt8)) : FileSystem where
  entries := [([0x61, dot, 0x6A, 0x73], .file (.ok (Path.ofString "require('b')"))),
    ([0x63, dot, 0x70, 0x79], .file content)]
  current := []

/-- The two files of the repository are its candidates, whatever the module holds. -/
theorem discoveries_besideScript (content : Except IoError (List UInt8)) :
    (besideScript content).discoveries wholeSettings.scope [solidus] =
      .ok [.file (Path.ofString "/a.js"), .file (Path.ofString "/c.py")] := by
  have halike : (besideScript content).Alike (besideScript (.ok [])) := rfl
  rw [halike.discoveries]
  cbv

theorem exists_folderTree_besideScript (content : Except IoError (List UInt8)) :
    ∃ tree, (besideScript content).folderTree wholeSettings.scope [solidus] = .ok tree := by
  have halike : (besideScript content).Alike (besideScript (.ok [])) := rfl
  rw [halike.folderTree]
  have hlist : (besideScript (.ok [])).list [solidus] = .ok (besideScript (.ok [])).entries := by cbv
  have hreal : (besideScript (.ok [])).resolve [solidus] = .ok (besideScript (.ok [])).top := by cbv
  have hdir : (besideScript (.ok [])).isDirectory [solidus] = true := by cbv
  have hdirs : (besideScript (.ok [])).directories = [[]] := by cbv
  have hnames : shownOrder (besideScript (.ok [])).entries =
      [[0x61, dot, 0x6A, 0x73], [0x63, dot, 0x70, 0x79]] :=
    List.mergeSort_of_pairwise (by decide +kernel)
  have hnodes : (besideScript (.ok [])).nodesAt wholeSettings.scope
      ((besideScript (.ok [])).directories.erase (besideScript (.ok [])).top.realPath) [solidus]
      (shownOrder (besideScript (.ok [])).entries) = .ok [.file "a.js", .file "c.py"] := by
    rw [hnames]
    cbv
  exact ⟨_, folderTree_of_list hdir hreal (by rw [hdirs]; decide) hlist hnodes⟩

theorem exists_survey_besideScript (content : Except IoError (List UInt8)) :
    ∃ a, ({ files := besideScript content } : Machine).survey .silent wholeSettings = .ok a := by
  obtain ⟨tree, htree⟩ := exists_folderTree_besideScript content
  cases ha : ({ files := besideScript content } : Machine).survey .silent wholeSettings with
  | ok a => exact ⟨a, rfl⟩
  | error e =>
    have herror := survey_eq_error_iff.mp ha
    have hsame := htree.symm.trans herror
    cases hsame

/-- The module cannot be read any more, and what is said of the script stays as it was. -/
theorem survey_isolates_besideScript :
    (besideScript (.ok (Path.ofString "import os"))).Alike (besideScript (.error (.system 13))) ∧
      ({ files := besideScript (.ok (Path.ofString "import os")) } : Machine).Isolates
        (besideScript (.error (.system 13))) .silent wholeSettings ∧
      ∃ a a', ({ files := besideScript (.ok (Path.ofString "import os")) } : Machine).survey .silent
          wholeSettings = .ok a ∧
        ({ files := besideScript (.error (.system 13)) } : Machine).survey .silent wholeSettings =
          .ok a' ∧
        (besideScript (.ok (Path.ofString "import os"))).discoveries wholeSettings.scope [solidus] =
          .ok [.file (Path.ofString "/a.js"), .file (Path.ofString "/c.py")] ∧
        a.AgreesOn a' (fun text => text = "a.js") := by
  have halike : (besideScript (.ok (Path.ofString "import os"))).Alike
      (besideScript (.error (.system 13))) := rfl
  have hisolates : ({ files := besideScript (.ok (Path.ofString "import os")) } : Machine).Isolates
      (besideScript (.error (.system 13))) .silent wholeSettings :=
    survey_isolates halike .silent wholeSettings
  obtain ⟨a, ha⟩ := exists_survey_besideScript (.ok (Path.ofString "import os"))
  obtain ⟨a', ha'⟩ := exists_survey_besideScript (.error (.system 13))
  refine ⟨halike, hisolates, a, a', ha, ha', discoveries_besideScript _, ?_⟩
  apply hisolates.parts a a' _ ha ha' (discoveries_besideScript _)
  -- Only the script has this path, and both snapshots hold the same script.
  have hcandidates : candidatesOf [solidus]
      [.file (Path.ofString "/a.js"), .file (Path.ofString "/c.py")] =
        [⟨Path.ofString "/a.js", "a.js", .javaScript⟩, ⟨Path.ofString "/c.py", "c.py", .python⟩] := by
    cbv
  intro c hc htext
  rw [show wholeSettings.scanPath = [solidus] from rfl, hcandidates] at hc
  rcases List.mem_cons.mp hc with rfl | hc
  · cbv
  · obtain rfl := List.mem_singleton.mp hc
    exact absurd htext (by decide)

end

end Machine

end RepoSurvey
