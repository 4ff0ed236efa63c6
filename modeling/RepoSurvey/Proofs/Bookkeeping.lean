import RepoSurvey.Proofs.OneStory

/-!
What a result keeps in step. Whatever is entered into it, in any order and under repeated paths, its
five ledgers have the same paths, each path has the report that was last entered under it, and the
summary counts what was entered.
-/

namespace RepoSurvey

namespace Ledger

variable {α : Type} {entries : List (String × α)}

/-- Replacing what stands under a name changes nothing under other names. -/
theorem lookup_map_replace (entries : List (String × α)) (name other : String) (value : α) :
    (entries.map fun e => if e.1 = name then (name, value) else e).lookup other =
      if other = name then (entries.lookup name).map fun _ => value else entries.lookup other := by
  induction entries with
  | nil => simp
  | cons e entries ih =>
    obtain ⟨first, old⟩ := e
    rw [List.map_cons, List.lookup_cons, List.lookup_cons, List.lookup_cons, ih]
    by_cases hfirst : first = name
    · subst hfirst
      by_cases hother : other = first
      · simp [hother]
      · have hne : (other == first) = false := beq_eq_false_iff_ne.mpr hother
        simp [hother, hne]
    · have hne : (name == first) = false := beq_eq_false_iff_ne.mpr (Ne.symm hfirst)
      rw [if_neg hfirst, hne]
      by_cases hother : other = name
      · subst hother
        simp [hne]
      · simp [hother]

theorem get?_eq_none_iff {l : Ledger α} {name : String} : l.get? name = none ↔ name ∉ l.keys := by
  rw [get?, List.lookup_eq_none_iff]
  constructor
  · intro h hname
    obtain ⟨e, he, rfl⟩ := List.mem_map.mp hname
    simpa using h e he
  · intro h e he
    have hne : name ≠ e.1 := fun heq => h (heq ▸ List.mem_map_of_mem he)
    simpa using hne

/-- Under a name stands what was last entered under it. -/
theorem get?_insert (l : Ledger α) (name other : String) (value : α) :
    (l.insert name value).get? other = if other = name then some value else l.get? other := by
  unfold insert
  by_cases hname : name ∈ l.keys
  · obtain ⟨old, hold⟩ : ∃ old, l.get? name = some old := by
      apply Option.ne_none_iff_exists'.mp
      intro hnone
      exact get?_eq_none_iff.mp hnone hname
    have hlookup : l.entries.lookup name = some old := hold
    rw [if_pos hname, get?, lookup_map_replace, hlookup]
    rfl
  · have hnone : l.entries.lookup name = none := get?_eq_none_iff.mpr hname
    rw [if_neg hname, get?, List.lookup_append, List.lookup_cons]
    by_cases hother : other = name
    · simp [hother, hnone]
    · have hne : (other == name) = false := beq_eq_false_iff_ne.mpr hother
      simp [hother, hne, get?]

/-- Under a name stands the last of all entries that were made under it. -/
theorem get?_ofList (entries : List (String × α)) (name : String) :
    (ofList entries).get? name = entries.reverse.lookup name := by
  induction entries using List.reverseRecOn with
  | nil => rfl
  | append_singleton entries e ih =>
    obtain ⟨last, value⟩ := e
    rw [ofList_append, get?_insert, ih, List.reverse_append, List.reverse_singleton,
      List.singleton_append, List.lookup_cons]
    by_cases hname : name = last
    · simp [hname]
    · have hne : (name == last) = false := beq_eq_false_iff_ne.mpr hname
      rw [if_neg hname, hne]

/-- The names of a ledger stand in the order in which each was first used. -/
theorem keys_ofList_eq_eraseDups (entries : List (String × α)) :
    (ofList entries).keys = (entries.map Prod.fst).eraseDups := by
  induction entries using List.reverseRecOn with
  | nil => rfl
  | append_singleton entries e ih =>
    obtain ⟨name, value⟩ := e
    have hmem : name ∈ (ofList entries).keys ↔ name ∈ entries.map Prod.fst :=
      (keys_ofList entries).2 name
    rw [ofList_append, keys_insert, List.map_append, List.map_singleton, List.eraseDups_append, ← ih]
    -- A name that has been used keeps its place, and a new one comes last.
    by_cases hname : name ∈ entries.map Prod.fst
    · have hnone : [name].removeAll (entries.map Prod.fst) = [] := by
        rw [List.removeAll, List.filter_eq_nil_iff]
        intro other hother
        obtain rfl := List.mem_singleton.mp hother
        simpa using hname
      rw [if_pos (hmem.mpr hname), hnone, List.eraseDups_nil, List.append_nil]
    · have hone : [name].removeAll (entries.map Prod.fst) = [name] := by
        rw [List.removeAll, List.filter_eq_self]
        intro other hother
        obtain rfl := List.mem_singleton.mp hother
        simpa using hname
      rw [if_neg (fun h => hname (hmem.mp h)), hone]
      rfl

end Ledger

/-- One more file of a language raises the sum of all counts by one. -/
theorem LanguageCounts.sum_add (counts : LanguageCounts) (l : Language) :
    ((counts.add l).map Prod.snd).sum = (counts.map Prod.snd).sum + 1 := by
  induction counts with
  | nil => rfl
  | cons c rest ih =>
    obtain ⟨l', n⟩ := c
    rw [add]
    split
    · simp only [List.map_cons, List.sum_cons]
      omega
    · split
      · simp only [List.map_cons, List.sum_cons]
        omega
      · simp only [List.map_cons, List.sum_cons, ih]
        omega

/-- What of a failure is a warning is counted as a skipped file or as one without a syntax tree. -/
theorem Analysis.skipCount_add_parseFailureCount (e : Failure) :
    skipCount e + parseFailureCount e = if e.severity = .warning then 1 else 0 := by
  cases e <;> rfl

namespace Analysis

/-- Something that is done to a result. -/
inductive Operation where
  | addFile (f : FileReport)
  | addFailure (path : String) (e : Failure)
  | setGraph (g : Graph)
  | setArchitecture (text : String)
  | setFilesScanned (count : Nat)
  | setScanDuration (d : Duration)

namespace Operation

/-- The report that an operation enters, if it enters one. -/
def report? : Operation → Option FileReport
  | addFile f => some f
  | _ => none

/-- The failure that an operation enters, if it enters one, with the path that it concerns. -/
def failure? : Operation → Option (String × Failure)
  | addFailure path e => some (path, e)
  | _ => none

end Operation

def perform (a : Analysis) : Operation → Analysis
  | .addFile f => a.addFile f
  | .addFailure path e => a.addFailure path e
  | .setGraph g => a.setGraph g
  | .setArchitecture text => a.setArchitecture text
  | .setFilesScanned count => a.setFilesScanned count
  | .setScanDuration d => a.setScanDuration d

/-- A result to which some operations have been applied, one after the other. -/
def performAll (a : Analysis) (ops : List Operation) : Analysis := ops.foldl perform a

/-- What is noted of a failure. -/
def noticeOf (failure : String × Failure) : Notice :=
  ⟨failure.1, failure.2.userMessage, failure.2.severity⟩

/-- The report that was last entered under a path. -/
def lastUnder (path : String) (reports : List FileReport) : Option FileReport :=
  reports.reverse.find? fun f => f.path == path

/-- What a result holds after some reports and failures were entered. -/
structure Recorded (a : Analysis) (reports : List FileReport)
    (failures : List (String × Failure)) : Prop extends a.Entered reports where
  explanations : a.explanations = .ofList (reports.map fun f => (f.path, f.explanation))
  securityReports : a.securityReports = .ofList (reports.map fun f => (f.path, f.security))
  tests : a.tests = .ofList (reports.map fun f => (f.path, f.tests))
  total : (a.summary.languages.map Prod.snd).sum = reports.length
  notices : a.notices = failures.map noticeOf
  warnings : a.summary.warnings = a.notices.countP fun n => n.severity = .warning
  recovered : a.summary.warnings = a.summary.filesSkipped + a.summary.parseFailures
  statistics : a.summary.graph = a.graph.statistics
  folders : a.summary.folders = a.tree.folderCount

/-- Before a graph has been counted over, the statistics are those of the graph of no imports. -/
theorem statistics_empty : Graph.empty.statistics = {} := rfl

theorem recorded_start (repository : String) (tree : Node) (outline : String) (now : Moment) :
    (start repository tree outline now).Recorded [] [] where
  toEntered := entered_start repository tree outline now
  explanations := rfl
  securityReports := rfl
  tests := rfl
  total := rfl
  notices := rfl
  warnings := rfl
  recovered := rfl
  statistics := statistics_empty.symm
  folders := rfl

variable {a : Analysis} {reports : List FileReport} {failures : List (String × Failure)}

theorem Recorded.addFile (h : a.Recorded reports failures) (f : FileReport) :
    (a.addFile f).Recorded (reports ++ [f]) failures where
  toEntered := h.toEntered.addFile f
  explanations := by
    rw [List.map_append, List.map_singleton, Ledger.ofList_append, ← h.explanations]
    rfl
  securityReports := by
    rw [List.map_append, List.map_singleton, Ledger.ofList_append, ← h.securityReports]
    rfl
  tests := by
    rw [List.map_append, List.map_singleton, Ledger.ofList_append, ← h.tests]
    rfl
  total := by
    rw [List.length_append, List.length_singleton, ← h.total]
    exact LanguageCounts.sum_add a.summary.languages f.language
  notices := h.notices
  warnings := h.warnings
  recovered := h.recovered
  statistics := h.statistics
  folders := h.folders

theorem Recorded.addFailure (h : a.Recorded reports failures) (path : String) (e : Failure) :
    (a.addFailure path e).Recorded reports (failures ++ [(path, e)]) where
  toEntered := ⟨h.languages, h.imports, h.sourceFiles, h.tally⟩
  explanations := h.explanations
  securityReports := h.securityReports
  tests := h.tests
  total := h.total
  notices := by
    rw [List.map_append, ← h.notices]
    rfl
  warnings := by
    have hold := h.warnings
    by_cases hwarning : e.severity = .warning
    all_goals simp [Analysis.addFailure, hwarning, hold]
  recovered := by
    have hold := h.recovered
    have hone := skipCount_add_parseFailureCount e
    simp only [Analysis.addFailure]
    omega
  statistics := h.statistics
  folders := h.folders

/-- One operation more is recorded as what it enters. -/
theorem Recorded.perform (h : a.Recorded reports failures) (op : Operation) :
    (a.perform op).Recorded (reports ++ op.report?.toList) (failures ++ op.failure?.toList) := by
  -- Only two operations enter something; each of the others sets a part that no count is made of.
  cases op
  all_goals simp only [Operation.report?, Operation.failure?, Option.toList_none, Option.toList_some,
    List.append_nil]
  case addFile f => exact h.addFile f
  case addFailure path e => exact h.addFailure path e
  case setGraph g => exact { h with statistics := rfl }
  case setArchitecture text => exact { h with }
  case setFilesScanned count => exact { h with }
  case setScanDuration d => exact { h with }

theorem Recorded.performAll (h : a.Recorded reports failures) (ops : List Operation) :
    (a.performAll ops).Recorded (reports ++ ops.filterMap Operation.report?)
      (failures ++ ops.filterMap Operation.failure?) := by
  -- For all results at once: the first operation changes the result and what it has recorded.
  induction ops generalizing a reports failures with
  | nil => simpa [Analysis.performAll] using h
  | cons op ops ih =>
    have hrest := ih (h.perform op)
    have hsplit {β : Type} (g : Operation → Option β) :
        (op :: ops).filterMap g = (g op).toList ++ ops.filterMap g := by
      cases hg : g op <;> simp [hg]
    rw [hsplit, hsplit, ← List.append_assoc, ← List.append_assoc]
    exact hrest

theorem lookup_map_path {β : Type} (g : FileReport → β) (path : String) (reports : List FileReport) :
    (reports.map fun f => (f.path, g f)).lookup path =
      (reports.find? fun f => f.path == path).map g := by
  induction reports with
  | nil => rfl
  | cons f reports ih =>
    rw [List.map_cons, List.lookup_cons, List.find?_cons]
    by_cases hpath : f.path = path
    · simp [hpath]
    · have hne : (f.path == path) = false := beq_eq_false_iff_ne.mpr hpath
      have hne' : (path == f.path) = false := beq_eq_false_iff_ne.mpr (Ne.symm hpath)
      rw [hne, hne', ih]

/-- Any ledger of reports has under a path what the last report of that path says. -/
theorem get?_ofList_reports {β : Type} (g : FileReport → β) (path : String)
    (reports : List FileReport) :
    (Ledger.ofList (reports.map fun f => (f.path, g f))).get? path =
      (lastUnder path reports).map g := by
  rw [Ledger.get?_ofList, ← List.map_reverse, lookup_map_path]
  rfl

theorem keys_ofList_reports {β : Type} (g : FileReport → β) (reports : List FileReport) :
    (Ledger.ofList (reports.map fun f => (f.path, g f))).keys =
      (reports.map FileReport.path).eraseDups := by
  rw [Ledger.keys_ofList_eq_eraseDups, List.map_map]
  rfl

/-- The parts of a report are put together again. -/
theorem Recorded.file?_eq (h : a.Recorded reports failures) (path : String) :
    a.file? path = lastUnder path reports := by
  unfold file?
  rw [h.languages, h.imports, h.explanations, h.securityReports, h.tests]
  -- All ledgers answer from one and the same report.
  simp only [get?_ofList_reports]
  cases hlast : lastUnder path reports with
  | none => rfl
  | some f =>
    have hpath : f.path = path := by
      have hfound := List.find?_some hlast
      exact beq_iff_eq.mp hfound
    subst hpath
    rfl

theorem Recorded.paths_eq (h : a.Recorded reports failures) :
    a.paths = (reports.map FileReport.path).eraseDups := by
  rw [paths, h.languages, keys_ofList_reports]

theorem lastUnder_eq_none_iff (path : String) (reports : List FileReport) :
    lastUnder path reports = none ↔ path ∉ reports.map FileReport.path := by
  unfold lastUnder
  simp

/-- A result is in step with the reports and failures that were entered. -/
structure InStep (a : Analysis) (reports : List FileReport)
    (failures : List (String × Failure)) : Prop where
  /-- The paths stand in the order in which each was first used. -/
  paths : a.paths = (reports.map FileReport.path).eraseDups
  imports : a.imports.keys = a.paths
  explanations : a.explanations.keys = a.paths
  securityReports : a.securityReports.keys = a.paths
  tests : a.tests.keys = a.paths
  file : ∀ path, a.file? path = lastUnder path reports
  file_eq_none : ∀ path, a.file? path = none ↔ path ∉ reports.map FileReport.path
  sourceFiles : a.summary.sourceFiles = reports.length
  languages : (a.summary.languages.map Prod.snd).sum = a.summary.sourceFiles
  notices : a.notices = failures.map noticeOf
  warnings : a.summary.warnings = a.notices.countP fun n => n.severity = .warning
  recovered : a.summary.warnings = a.summary.filesSkipped + a.summary.parseFailures
  graph : a.summary.graph = a.graph.statistics
  folders : a.summary.folders = a.tree.folderCount

/-- Whatever is done to a new result, in whatever order, it stays in step. -/
theorem performAll_inStep (repository : String) (tree : Node) (outline : String) (now : Moment)
    (ops : List Operation) :
    ((start repository tree outline now).performAll ops).InStep
      (ops.filterMap Operation.report?) (ops.filterMap Operation.failure?) := by
  have h := (recorded_start repository tree outline now).performAll ops
  rw [List.nil_append, List.nil_append] at h
  have hpaths := h.paths_eq
  refine ⟨hpaths, ?_, ?_, ?_, ?_, h.file?_eq, ?_, h.sourceFiles, ?_, h.notices, h.warnings,
    h.recovered, h.statistics, h.folders⟩
  · rw [hpaths, h.imports, keys_ofList_reports]
  · rw [hpaths, h.explanations, keys_ofList_reports]
  · rw [hpaths, h.securityReports, keys_ofList_reports]
  · rw [hpaths, h.tests, keys_ofList_reports]
  · intro path
    rw [h.file?_eq, lastUnder_eq_none_iff]
  · rw [h.total, h.sourceFiles]

end Analysis

end RepoSurvey
