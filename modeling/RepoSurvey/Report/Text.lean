import RepoSurvey.Analysis
import RepoSurvey.Report.Ink
import RepoSurvey.Text.Blank

/-!
The report for people: the folder tree, the summary, the imports of each file, the texts about the
files if they are wanted, and the notices. The quiet form lists the edges and nothing else.
-/

namespace RepoSurvey.Analysis

def languageLines (counts : LanguageCounts) : String :=
  String.join (counts.map fun (l, n) => s!"  {l.tag}: {n}\n")

def moduleLine (s : Graph.Statistics) (colors : Bool) : String :=
  match s.mostReferencedModule with
  | none => ""
  | some m => "Most referenced module: " ++ paint .cyan m colors ++ s!" ({s.maxFanIn} files)\n"

def fileLine (s : Graph.Statistics) (colors : Bool) : String :=
  match s.maxFanOutFile with
  | none => ""
  | some f => "Most imports: " ++ paint .green f colors ++ s!" ({s.maxFanOut} modules)\n"

/-- A line that counts what went wrong, if anything did. -/
def countLine (ink : Ink) (label : String) (count : Nat) (colors : Bool) : String :=
  if 0 < count then paint ink s!"{label}: {count}" colors ++ "\n" else ""

def summaryText (s : Summary) (colors : Bool) : String :=
  heading "Summary" colors ++ "\n"
    ++ s!"Files scanned: {s.filesScanned}\n" ++ s!"Source files: {s.sourceFiles}\n"
    ++ languageLines s.languages
    ++ s!"Folders: {s.folders}\n" ++ s!"Dependency edges: {s.graph.totalEdges}\n"
    ++ s!"Distinct modules: {s.graph.distinctTargets}\n"
    ++ moduleLine s.graph colors ++ fileLine s.graph colors
    ++ countLine .red "Files skipped" s.filesSkipped colors
    ++ countLine .yellow "Parse failures" s.parseFailures colors
    ++ s!"Scan duration: {s.scanDuration.text}\n"

/-- The imports of one file. A file without imports is left out. -/
def importLines (colors : Bool) (entry : String × List String) : String :=
  if entry.2.isEmpty then ""
  else
    "  " ++ paint .green entry.1 colors ++ "\n"
      ++ String.join (entry.2.map fun m => "    -> " ++ paint .cyan m colors ++ "\n")

def dependencyText (a : Analysis) (colors : Bool) : String :=
  heading "Dependencies" colors ++ "\n"
    ++ if a.graph.edges.isEmpty then "  (none)\n"
      else String.join (a.imports.entries.map (importLines colors))

/-- The texts about a file, each with its label. -/
def sections (f : FileReport) : List (String × String) :=
  [("Explanation", f.explanation), ("Security", f.security), ("Tests", f.tests)]

/-- A text about a file, its lines indented under its label; a blank text is left out. -/
def sectionText (part : String × String) : String :=
  if isBlankText part.2 then ""
  else
    s!"  {part.1}:\n"
      ++ String.join ((textLines part.2).map fun line => s!"    {line}\n")

/-- The texts about one file. A file about which nothing is said is left out. -/
def fileText (colors : Bool) (f : FileReport) : String :=
  if (sections f).all fun s => isBlankText s.2 then ""
  else
    "\n" ++ heading f.path colors ++ s!" ({f.language.tag})\n"
      ++ String.join ((sections f).map sectionText)

/-- The description of the architecture and the texts about the files. -/
def narrativeText (a : Analysis) (colors : Bool) : String :=
  (if isBlankText a.architecture then ""
    else
      "\n" ++ heading "Architecture" colors ++ "\n" ++ trimEnd a.architecture ++ "\n")
    ++ String.join ((a.paths.filterMap a.file?).map (fileText colors))

/-- The notices, if there are any. -/
def noticeText (a : Analysis) (colors : Bool) : String :=
  if a.notices.isEmpty then ""
  else
    "\n" ++ paint .boldYellow s!"Warnings ({a.notices.length})" colors ++ "\n"
      ++ String.join (a.notices.map fun n => s!"  [{n.severity.label}] {n.path}: {n.message}\n")

def fullReport (a : Analysis) (colors verbose : Bool) : String :=
  heading s!"Repository: {a.repository}" colors ++ "\n\n"
    ++ heading "Folder Tree" colors ++ "\n" ++ a.outline ++ "\n\n"
    ++ summaryText a.summary colors ++ "\n" ++ dependencyText a colors
    ++ (if verbose then narrativeText a colors else "") ++ noticeText a colors

/-- The edges, one a line. -/
def edgeLines (g : Graph) : String :=
  String.join (g.edges.map fun e => s!"{e.source} -> {e.target}\n")

def textReport (a : Analysis) (colors verbose quiet : Bool) : String :=
  if quiet then edgeLines a.graph else fullReport a colors verbose

end RepoSurvey.Analysis
