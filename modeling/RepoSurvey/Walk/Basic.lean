import RepoSurvey.Analysis
import RepoSurvey.Extraction
import RepoSurvey.Narrator
import RepoSurvey.Pool
import RepoSurvey.Walk.Sight

/-!
The walk through a repository: first all files are found, then the source files among them are read
and their imports extracted, one after the other or side by side. What goes wrong with one file is
noted and concerns no other file.
-/

namespace RepoSurvey

/-- What a walk finds on its way. -/
inductive Discovery where
  | file (path : Path)
  /-- Something at a path that cannot be visited, and what is said of it. -/
  | broken (path : Path) (message : String)
  deriving Repr, DecidableEq

mutual

/-- What is found at a path, in order. -/
def Sight.discoveries (path : Path) : Sight → List Discovery
  | .file => [.file path]
  | .broken message => [.broken path message]
  | .folder items => discoveriesIn path items

/-- What is found in a directory at a path, in order. -/
def discoveriesIn (path : Path) : List (FileName × Sight) → List Discovery
  | [] => []
  | (n, sight) :: rest => sight.discoveries (path.join n) ++ discoveriesIn path rest

end

/-- A source file that is still to be read. -/
structure Candidate where
  path : Path
  /-- The path below the root, which names the file in the result. -/
  relative : String
  language : Language
  deriving Repr, DecidableEq

/-- The candidate that a discovery is, if it is a source file. -/
def Discovery.candidate? (root : Path) : Discovery → Option Candidate
  | .file path =>
    if Language.isSourceExtension path.extension then
      some ⟨path, root.relative path, .ofExtension path.extension⟩
    else none
  | .broken .. => none

/-- The failure that a discovery is, if it would be a source file, with the path below the root. -/
def Discovery.failure? (root : Path) : Discovery → Option (String × Failure)
  | .file _ => none
  | .broken path message =>
    if Language.isSourceExtension path.extension then
      some (root.relative path, .fileRead (root.relative path) message)
    else none

def Discovery.isFile : Discovery → Bool
  | .file _ => true
  | .broken .. => false

/-- What comes of one candidate. -/
inductive Outcome where
  /-- A report with the edges of its imports, and a failure if the imports could not be told. -/
  | analyzed (report : FileReport) (edges : List Edge) (failure : Option Failure)
  | skipped (failure : Failure)
  deriving Repr, DecidableEq

namespace Outcome

/-- The report on a candidate, if there is one. -/
def report? : Outcome → Option FileReport
  | analyzed report _ _ => some report
  | skipped _ => none

/-- The batch of edges of a candidate, if there is a report on it. -/
def edges? : Outcome → Option (List Edge)
  | analyzed _ edges _ => some edges
  | skipped _ => none

/-- What went wrong with a candidate, if anything did. -/
def failure? : Outcome → Option Failure
  | analyzed _ _ failure => failure
  | skipped failure => some failure

end Outcome

def Candidate.examine (c : Candidate) (narrator : Narrator) (text : String) : Outcome :=
  let analyzed (imports : List String) : Option Failure → Outcome :=
    .analyzed
      { path := c.relative
        language := c.language
        imports
        explanation := narrator.explain text c.relative
        security := narrator.security text c.relative c.language
        tests := narrator.tests text c.relative c.language }
      (Graph.edgesFor c.relative imports)
  match c.language.strategy.imports text with
  | .ok imports => analyzed imports none
  | .error e => analyzed [] (some (.parse c.relative e.message))

/-- What comes of a candidate. Bytes that are no text are shown as such. -/
def Candidate.process (c : Candidate) (narrator : Narrator) (fs : FileSystem) : Outcome :=
  match fs.read c.path with
  | .ok bytes => c.examine narrator (Utf8.decodeLossy bytes)
  | .error e => .skipped (.ofFile c.relative e)

/-- How the files of a walk are read. -/
inductive Mode where
  | sequential
  /-- Side by side, by so many workers, if there is more than one file. -/
  | parallel (threads : Nat)
  deriving Repr, DecidableEq

def Mode.map {α β : Type} (mode : Mode) (f : α → β × String) (items : List α) :
    List β × List Update :=
  match mode with
  | .sequential => mapInOrder f items
  | .parallel threads =>
    if 1 < items.length then mapOnPool threads f items else mapInOrder f items

/-- What a walk brings home. -/
structure WalkOutcome where
  files : List FileReport
  batches : List (List Edge)
  /-- What went wrong, each with the path that it concerns: first what could not be visited. -/
  failures : List (String × Failure)
  /-- How many regular files were met. -/
  scanned : Nat
  deriving Repr, DecidableEq

def WalkOutcome.edges (w : WalkOutcome) : List Edge := w.batches.flatten

/-- The source files among some discoveries, in order. -/
def candidatesOf (root : Path) (ds : List Discovery) : List Candidate :=
  ds.filterMap (Discovery.candidate? root)

/-- What a walk brings home that has made some discoveries, given what came of each candidate. -/
def WalkOutcome.collect (root : Path) (ds : List Discovery) (outcomes : List Outcome) : WalkOutcome :=
  { files := outcomes.filterMap Outcome.report?
    batches := outcomes.filterMap Outcome.edges?
    failures := ds.filterMap (Discovery.failure? root)
      ++ ((candidatesOf root ds).zip outcomes).filterMap fun (c, o) =>
        o.failure?.map (c.relative, ·)
    scanned := ds.countP Discovery.isFile }

namespace FileSystem

/-- What a walk through the directory at a root takes the root for. A root that is a link is entered in
any case. -/
def rootSight (fs : FileSystem) (scope : Scope) (root : Path) : Except Failure Sight :=
  match fs.stat root with
  | .ok s =>
    match s.entry with
    | .directory entries none =>
      .ok (.folder (fs.sightsIn scope (fs.directories.erase s.realPath) root entries))
    | .directory _ (some e) =>
      -- As with other links, a link that is to be followed is passed over where that fails.
      if scope.followLinks ∧ fs.isLink root then .ok (.folder [])
      else .ok (.broken (visitFault root e))
    | _ => .error (.invalidPath root.shown)
  | .error _ => .error (.invalidPath root.shown)

/-- What a walk through the directory at a root finds, in order. -/
def discoveries (fs : FileSystem) (scope : Scope) (root : Path) : Except Failure (List Discovery) :=
  (fs.rootSight scope root).map (Sight.discoveries root)

/-- What comes of a candidate, and what is told of it when it is finished. -/
def examineCandidate (fs : FileSystem) (narrator : Narrator) (c : Candidate) : Outcome × String :=
  (c.process narrator fs, c.relative)

/-- What a walk brings home that has made some discoveries, and the updates on the way. -/
def gather (fs : FileSystem) (narrator : Narrator) (mode : Mode) (root : Path)
    (ds : List Discovery) : WalkOutcome × List Update :=
  let (outcomes, updates) := mode.map (fs.examineCandidate narrator) (candidatesOf root ds)
  (.collect root ds outcomes, updates)

def walk (fs : FileSystem) (scope : Scope) (narrator : Narrator) (mode : Mode) (root : Path) :
    Except Failure (WalkOutcome × List Update) :=
  (fs.discoveries scope root).map (fs.gather narrator mode root)

end FileSystem

end RepoSurvey
