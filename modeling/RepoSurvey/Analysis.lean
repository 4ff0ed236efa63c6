import RepoSurvey.Duration
import RepoSurvey.Failure
import RepoSurvey.Graph.Basic
import RepoSurvey.Language
import RepoSurvey.Ledger
import RepoSurvey.Moment
import RepoSurvey.Tree.Basic

/-!
The result of a survey: what was found in each file, the folder tree, the dependency graph, what
went wrong on the way, and a summary that is kept in step with every entry.
-/

namespace RepoSurvey

/-- What was found in one source file. -/
structure FileReport where
  path : String
  language : Language
  /-- The modules that the file imports, in order. -/
  imports : List String
  explanation : String
  security : String
  tests : String
  deriving Repr, DecidableEq, Inhabited

/-- A failure that concerned one file. -/
structure Notice where
  path : String
  message : String
  severity : Severity
  deriving Repr, DecidableEq

/-- How many files there are of each language, in the order of languages. -/
abbrev LanguageCounts := List (Language × Nat)

def LanguageCounts.add (language : Language) : LanguageCounts → LanguageCounts
  | [] => [(language, 1)]
  | (l, n) :: rest =>
    if language = l then (l, n + 1) :: rest
    else if language.rank < l.rank then (language, 1) :: (l, n) :: rest
    else (l, n) :: LanguageCounts.add language rest

/-- What is counted over a survey. -/
structure Summary where
  /-- Files seen, source files or not. -/
  filesScanned : Nat
  sourceFiles : Nat
  /-- Source files that could not be read. -/
  filesSkipped : Nat
  /-- Source files that have no syntax tree. -/
  parseFailures : Nat
  folders : Nat
  languages : LanguageCounts
  graph : Graph.Statistics
  scanDuration : Duration
  warnings : Nat
  deriving Repr, DecidableEq, Inhabited

/-- The result of a survey. -/
structure Analysis where
  repository : String
  tree : Node
  outline : String
  languages : Ledger Language
  imports : Ledger (List String)
  explanations : Ledger String
  securityReports : Ledger String
  tests : Ledger String
  graph : Graph
  architecture : String
  summary : Summary
  notices : List Notice
  generatedAt : Moment
  deriving Repr, Inhabited

namespace Analysis

/-- A result in which no file has been entered. -/
def start (repository : String) (tree : Node) (outline : String) (generatedAt : Moment) :
    Analysis where
  repository
  tree
  outline
  languages := .empty
  imports := .empty
  explanations := .empty
  securityReports := .empty
  tests := .empty
  graph := .empty
  architecture := ""
  summary :=
    { filesScanned := 0
      sourceFiles := 0
      filesSkipped := 0
      parseFailures := 0
      folders := tree.folderCount
      languages := []
      graph := {}
      scanDuration := .zero
      warnings := 0 }
  notices := []
  generatedAt

def addFile (a : Analysis) (f : FileReport) : Analysis :=
  { a with
    languages := a.languages.insert f.path f.language
    imports := a.imports.insert f.path f.imports
    explanations := a.explanations.insert f.path f.explanation
    securityReports := a.securityReports.insert f.path f.security
    tests := a.tests.insert f.path f.tests
    summary :=
      { a.summary with
        sourceFiles := a.summary.sourceFiles + 1
        languages := a.summary.languages.add f.language } }

/-- How many skipped files a failure stands for. -/
def skipCount : Failure → Nat
  | .fileRead .. | .permissionDenied .. => 1
  | _ => 0

/-- How many files without a syntax tree a failure stands for. -/
def parseFailureCount : Failure → Nat
  | .parse .. => 1
  | _ => 0

def addFailure (a : Analysis) (path : String) (e : Failure) : Analysis :=
  { a with
    notices := a.notices ++ [⟨path, e.userMessage, e.severity⟩]
    summary :=
      { a.summary with
        filesSkipped := a.summary.filesSkipped + skipCount e
        parseFailures := a.summary.parseFailures + parseFailureCount e
        warnings := a.summary.warnings + if e.severity = .warning then 1 else 0 } }

def setGraph (a : Analysis) (g : Graph) : Analysis :=
  { a with graph := g, summary := { a.summary with graph := g.statistics } }

def setArchitecture (a : Analysis) (text : String) : Analysis := { a with architecture := text }

/-- Enters how many files were seen. -/
def setFilesScanned (a : Analysis) (count : Nat) : Analysis :=
  { a with summary := { a.summary with filesScanned := count } }

def setScanDuration (a : Analysis) (d : Duration) : Analysis :=
  { a with summary := { a.summary with scanDuration := d } }

/-- The paths of the files that were entered, in order. -/
def paths (a : Analysis) : List String := a.languages.keys

def file? (a : Analysis) (path : String) : Option FileReport := do
  let language ← a.languages.get? path
  return {
    path
    language
    imports := (a.imports.get? path).getD []
    explanation := (a.explanations.get? path).getD ""
    security := (a.securityReports.get? path).getD ""
    tests := (a.tests.get? path).getD "" }

end Analysis

end RepoSurvey
