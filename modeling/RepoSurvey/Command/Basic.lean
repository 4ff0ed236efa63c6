import RepoSurvey.Command.Help
import RepoSurvey.Report.Output
import RepoSurvey.Survey

/-!
What the program does when it is called: a survey, or the first configuration file. Each call ends
with an exit status, and what it says about a failure begins with the severity of the failure.
-/

namespace RepoSurvey

/-- What a command line asks for. -/
inductive Command where
  | analyze (a : Arguments)
  /-- The first configuration file, at a path or in the current directory. -/
  | init (path : Option Path)
  deriving Repr, DecidableEq

/-- What the program has done: the world after it, what it said about a failure, and its exit
status. -/
structure Ending where
  world : World
  complaint : String
  status : Nat

namespace Command

def ofArguments (a : Arguments) : Command := if a.has .init then init a.config else analyze a

/-- The first thing that cannot be right about a command line, if there is one. -/
def validate (fs : FileSystem) : Command → Except Failure Unit
  | init _ => .ok ()
  | analyze a =>
    let path := a.path.filter fun p => !fs.isDirectory p
    let config := a.config.filter fun p => !fs.leads p
    match path, config with
    | some p, _ => .error (.invalidPath p.shown)
    | none, some p => .error (.configNotFound p.shown)
    | none, none =>
      if a.threads = some 0 then .error (.config "--threads must be at least 1") else .ok ()

/-- What is printed about a configuration file that is there already. -/
def existsText (p : Path) : String :=
  s!"Configuration file already exists at: {p.shown}\n"
    ++ "To overwrite it, delete the file first and run this command again.\n"

/-- What is printed about a configuration file that was made. -/
def createdText (p : Path) : String :=
  s!"Created default configuration file at: {p.shown}\n"

def execute (m : Machine) (c : Command) : World × Except Failure Unit :=
  let w : World := ⟨m.files, ""⟩
  match c with
  | init path =>
    let p := path.getD configFileName
    if m.files.leads p then (w.print (existsText p), .ok ())
    else
      match m.files.createConfig p with
      | (fs, .error e) => ({ w with files := fs }, .error e)
      | (fs, .ok ()) => (({ w with files := fs } : World).print (createdText p), .ok ())
  | analyze a =>
    let result : Except Failure (Settings × Analysis) := do
      validate m.files c
      let s ← m.load environmentWord a
      return (s, ← m.survey .silent s)
    match result with
    | .error e => (w, .error e)
    | .ok (s, analysis) => w.handOut s analysis

def complaint (e : Failure) : String := s!"{e.severity.label}: {e.userMessage}\n"

def run (m : Machine) (c : Command) : Ending :=
  match c.execute m with
  | (w, .ok ()) => ⟨w, "", 0⟩
  | (w, .error e) => ⟨w, complaint e, e.exitStatus⟩

end Command

/-- What is said about a command line that is not carried out. -/
def Refusal.message : Refusal → String
  | unknownArgument => "error: there is an argument that means nothing here\n"
  | invalidValue => "error: an option has no value or one that it cannot have\n"
  | valueValidation => "error: the value of an option is not a number\n"
  | argumentConflict => "error: an argument is given twice, or two exclude each other\n"
  | tooManyValues => "error: a switch takes no value\n"
  | displayHelp _ | displayVersion => ""

def call (m : Machine) (args : List String) : Ending :=
  let w : World := ⟨m.files, ""⟩
  match Arguments.read args with
  | .ok a => (Command.ofArguments a).run m
  | .error (.displayHelp full) => ⟨w.print (helpText full), "", 0⟩
  | .error .displayVersion => ⟨w.print versionText, "", 0⟩
  | .error r => ⟨w, r.message, 2⟩

end RepoSurvey
