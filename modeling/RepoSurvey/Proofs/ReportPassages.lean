import Mathlib
import RepoSurvey.Report.Text

/-!
The report as passages, some of them painted. Each part of the report writes its passages one after the
other, with the terminal's colour sequences around the painted ones or without.
-/

namespace RepoSurvey

/-- A passage of a report. -/
inductive Passage where
  | plain (text : String)
  | painted (ink : Ink) (text : String)
  deriving Repr, DecidableEq

namespace Passage

/-- A passage as it is written, painted if colours are on. -/
def set (colors : Bool) : Passage → String
  | plain text => text
  | painted ink text => paint ink text colors

/-- Passages as they are written, one after the other. -/
def setAll (colors : Bool) (passages : List Passage) : String :=
  String.join (passages.map (set colors))

variable {colors : Bool}

@[simp]
theorem set_plain (text : String) : (plain text).set colors = text := rfl

@[simp]
theorem set_painted (ink : Ink) (text : String) :
    (painted ink text).set colors = paint ink text colors := rfl

@[simp]
theorem setAll_nil : setAll colors [] = "" := String.join_nil

@[simp]
theorem setAll_cons (p : Passage) (ps : List Passage) :
    setAll colors (p :: ps) = p.set colors ++ setAll colors ps := String.join_cons

@[simp]
theorem setAll_append (ps qs : List Passage) :
    setAll colors (ps ++ qs) = setAll colors ps ++ setAll colors qs := by
  unfold setAll
  rw [List.map_append, String.join_append]

/-- Plain passages, one for each item of a list. -/
theorem setAll_map_plain {α : Type} (f : α → String) (l : List α) :
    setAll colors (l.map fun a => plain (f a)) = String.join (l.map f) := by
  unfold setAll
  rw [List.map_map]
  rfl

/-- Some passages for each item of a list. -/
theorem setAll_flatMap {α : Type} (f : α → List Passage) (l : List α) :
    setAll colors (l.flatMap f) = String.join (l.map fun a => setAll colors (f a)) := by
  induction l with
  | nil => rfl
  | cons a l ih => rw [List.flatMap_cons, setAll_append, ih, List.map_cons, String.join_cons]

end Passage

namespace Analysis

open Passage

variable {colors : Bool}

def headingLine (text : String) : List Passage := [painted .boldBlue text, plain "\n"]

theorem setAll_headingLine (text : String) :
    setAll colors (headingLine text) = heading text colors ++ "\n" := by
  simp [headingLine, heading, paint]

/-! ### The summary -/

def languagePassages (counts : LanguageCounts) : List Passage :=
  counts.map fun (l, n) => plain s!"  {l.tag}: {n}\n"

def modulePassages (s : Graph.Statistics) : List Passage :=
  match s.mostReferencedModule with
  | none => []
  | some m =>
    [plain "Most referenced module: ", painted .cyan m, plain s!" ({s.maxFanIn} files)\n"]

def filePassages (s : Graph.Statistics) : List Passage :=
  match s.maxFanOutFile with
  | none => []
  | some f => [plain "Most imports: ", painted .green f, plain s!" ({s.maxFanOut} modules)\n"]

def countPassages (ink : Ink) (label : String) (count : Nat) : List Passage :=
  if 0 < count then [painted ink s!"{label}: {count}", plain "\n"] else []

def summaryPassages (s : Summary) : List Passage :=
  headingLine "Summary"
    ++ [plain s!"Files scanned: {s.filesScanned}\n", plain s!"Source files: {s.sourceFiles}\n"]
    ++ languagePassages s.languages
    ++ [plain s!"Folders: {s.folders}\n", plain s!"Dependency edges: {s.graph.totalEdges}\n",
      plain s!"Distinct modules: {s.graph.distinctTargets}\n"]
    ++ modulePassages s.graph ++ filePassages s.graph
    ++ countPassages .red "Files skipped" s.filesSkipped
    ++ countPassages .yellow "Parse failures" s.parseFailures
    ++ [plain s!"Scan duration: {s.scanDuration.text}\n"]

theorem languageLines_eq (counts : LanguageCounts) :
    languageLines counts = setAll colors (languagePassages counts) :=
  (setAll_map_plain _ counts).symm

theorem moduleLine_eq (s : Graph.Statistics) :
    moduleLine s colors = setAll colors (modulePassages s) := by
  unfold moduleLine modulePassages
  cases s.mostReferencedModule <;> simp [String.append_assoc]

theorem fileLine_eq (s : Graph.Statistics) :
    fileLine s colors = setAll colors (filePassages s) := by
  unfold fileLine filePassages
  cases s.maxFanOutFile <;> simp [String.append_assoc]

theorem countLine_eq (ink : Ink) (label : String) (count : Nat) :
    countLine ink label count colors = setAll colors (countPassages ink label count) := by
  unfold countLine countPassages
  split <;> simp

theorem summaryText_eq (s : Summary) :
    summaryText s colors = setAll colors (summaryPassages s) := by
  simp only [summaryText, summaryPassages, setAll_append, setAll_headingLine, ← languageLines_eq,
    ← moduleLine_eq, ← fileLine_eq, ← countLine_eq, setAll_cons, setAll_nil, set_plain,
    String.append_empty, String.append_assoc]

/-! ### The imports -/

/-- The imports of one file. A file without imports is left out. -/
def importPassages (entry : String × List String) : List Passage :=
  if entry.2.isEmpty then []
  else
    [plain "  ", painted .green entry.1, plain "\n"]
      ++ entry.2.flatMap fun m => [plain "    -> ", painted .cyan m, plain "\n"]

def dependencyPassages (a : Analysis) : List Passage :=
  headingLine "Dependencies"
    ++ if a.graph.edges.isEmpty then [plain "  (none)\n"]
      else a.imports.entries.flatMap importPassages

theorem importLines_eq (entry : String × List String) :
    importLines colors entry = setAll colors (importPassages entry) := by
  unfold importLines importPassages
  split
  · rfl
  · simp [setAll_flatMap, String.append_assoc]

theorem dependencyText_eq (a : Analysis) :
    dependencyText a colors = setAll colors (dependencyPassages a) := by
  unfold dependencyText dependencyPassages
  rw [setAll_append, setAll_headingLine]
  split
  · simp
  · rw [setAll_flatMap, funext fun entry => (@importLines_eq colors entry).symm]

/-! ### The texts about the files -/

def sectionPassages (part : String × String) : List Passage :=
  if isBlankText part.2 then []
  else
    plain s!"  {part.1}:\n" :: (textLines part.2).map fun line => plain s!"    {line}\n"

/-- The texts about one file. A file about which nothing is said is left out. -/
def filePassagesOf (f : FileReport) : List Passage :=
  if (sections f).all fun s => isBlankText s.2 then []
  else
    [plain "\n", painted .boldBlue f.path, plain s!" ({f.language.tag})\n"]
      ++ (sections f).flatMap sectionPassages

def narrativePassages (a : Analysis) : List Passage :=
  (if isBlankText a.architecture then []
    else
      plain "\n" :: headingLine "Architecture"
        ++ [plain (trimEnd a.architecture), plain "\n"])
    ++ (a.paths.filterMap a.file?).flatMap filePassagesOf

theorem sectionText_eq (part : String × String) :
    sectionText part = setAll colors (sectionPassages part) := by
  unfold sectionText sectionPassages
  split
  · rfl
  · rw [setAll_cons, set_plain, setAll_map_plain]

theorem fileText_eq (f : FileReport) : fileText colors f = setAll colors (filePassagesOf f) := by
  unfold fileText filePassagesOf
  split
  · rfl
  · rw [setAll_append, setAll_flatMap, funext fun s => (@sectionText_eq colors s).symm]
    simp [heading, paint, String.append_assoc]

theorem narrativeText_eq (a : Analysis) :
    narrativeText a colors = setAll colors (narrativePassages a) := by
  unfold narrativeText narrativePassages
  rw [setAll_append, setAll_flatMap, funext fun f => (@fileText_eq colors f).symm]
  split
  · rfl
  · simp [setAll_headingLine, String.append_assoc]

/-! ### The whole report -/

def noticePassages (a : Analysis) : List Passage :=
  if a.notices.isEmpty then []
  else
    [plain "\n", painted .boldYellow s!"Warnings ({a.notices.length})", plain "\n"]
      ++ a.notices.map fun n => plain s!"  [{n.severity.label}] {n.path}: {n.message}\n"

def reportPassages (a : Analysis) (verbose : Bool) : List Passage :=
  [painted .boldBlue s!"Repository: {a.repository}", plain "\n\n"]
    ++ headingLine "Folder Tree" ++ [plain a.outline, plain "\n\n"]
    ++ summaryPassages a.summary ++ [plain "\n"] ++ dependencyPassages a
    ++ (if verbose then narrativePassages a else []) ++ noticePassages a

theorem noticeText_eq (a : Analysis) : noticeText a colors = setAll colors (noticePassages a) := by
  unfold noticeText noticePassages
  split
  · rfl
  · rw [setAll_append, setAll_map_plain]
    simp [String.append_assoc]

/-- The report writes its passages, in both ways of setting them. -/
theorem fullReport_eq (a : Analysis) (verbose : Bool) :
    fullReport a colors verbose = setAll colors (a.reportPassages verbose) := by
  have hnarrative : (if verbose then narrativeText a colors else "") =
      setAll colors (if verbose then narrativePassages a else []) := by
    split
    · exact narrativeText_eq a
    · rfl
  simp only [fullReport, reportPassages, hnarrative, summaryText_eq, dependencyText_eq, noticeText_eq,
    setAll_append, setAll_headingLine, setAll_cons, setAll_nil, set_plain, set_painted, heading, paint,
    String.append_empty, String.append_assoc]

end Analysis

end RepoSurvey
