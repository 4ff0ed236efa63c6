import RepoSurvey.Settings.Environment

/-!
The command line: switches, parameters that take a value, and what becomes of a list of arguments.
A parameter is written with its value in one argument or in two, and short switches may share one.
The first fault from the left counts; a value is looked at when the next parameter or switch comes,
or at the end.
-/

namespace RepoSurvey

/-- A switch of the command line. -/
inductive Switch where
  | noFollowLinks | noParallel | init | quiet | verbose | noColors | noProgress
  deriving Repr, DecidableEq

/-- A parameter of the command line, which takes a value. -/
inductive Parameter where
  | path | name | exclude | threads | output | outputFile | dot | config
  deriving Repr, DecidableEq

/-- What an argument asks for by its name. -/
inductive Request where
  | switch (s : Switch)
  | parameter (p : Parameter)
  | help
  | version
  deriving Repr, DecidableEq

/-- Why a command line is not carried out. -/
inductive Refusal where
  | unknownArgument
  /-- A parameter has no value or one that it cannot have. -/
  | invalidValue
  /-- A value is not in the form of its type. -/
  | valueValidation
  /-- Two arguments exclude each other, or one is given twice. -/
  | argumentConflict
  | tooManyValues
  /-- The help text is asked for, in full or in short. -/
  | displayHelp (full : Bool)
  | displayVersion
  deriving Repr, DecidableEq

/-- A row of the table of requests: names, the word for the value, and what it does. -/
structure RequestRow where
  request : Request
  short : Option Char
  long : String
  value : Option String
  about : String

def requestRows : List RequestRow :=
  [⟨.parameter .path, 'p', "path", "PATH",
      "Repository root to analyze (defaults to the current directory)"⟩,
    ⟨.parameter .name, 'n', "name", "NAME",
      "Name used in the report (defaults to the root directory name)"⟩,
    ⟨.parameter .exclude, 'e', "exclude", "NAME",
      "Directory name skipped at every level; replaces the default list (repeatable)"⟩,
    ⟨.switch .noFollowLinks, none, "no-follow-links", none,
      "Skip symbolic links instead of following them"⟩,
    ⟨.switch .noParallel, none, "no-parallel", none,
      "Read and extract files on the calling thread only"⟩,
    ⟨.parameter .threads, 't', "threads", "N",
      "Number of extraction workers (defaults to the number of CPUs)"⟩,
    ⟨.parameter .output, 'o', "output", "OUTPUT",
      "Output format: 'text' (default), 'json' or 'csv'"⟩,
    ⟨.parameter .outputFile, none, "output-file", "FILE",
      "File to write output to (uses stdout if not specified)"⟩,
    ⟨.parameter .dot, none, "dot", "FILE", "Write the dependency graph as Graphviz DOT"⟩,
    ⟨.parameter .config, 'c', "config", "FILE",
      "Path to configuration file (defaults to .reposcope.toml lookup)"⟩,
    ⟨.switch .init, none, "init", none,
      "Create a default configuration file (.reposcope.toml) in the current directory"⟩,
    ⟨.switch .quiet, 'q', "quiet", none, "Only print results and errors"⟩,
    ⟨.switch .verbose, 'v', "verbose", none,
      "Show per-file debug logging and extra report detail"⟩,
    ⟨.switch .noColors, none, "no-colors", none, "Disable ANSI colors in text output"⟩,
    ⟨.switch .noProgress, none, "no-progress", none, "Disable the progress bar"⟩,
    ⟨.help, 'h', "help", none, "Print help"⟩,
    ⟨.version, 'V', "version", none, "Print version"⟩]

def longRequest? (name : List Char) : Option Request :=
  (requestRows.find? fun r => r.long.toList == name).map RequestRow.request

def shortRequest? (c : Char) : Option Request :=
  (requestRows.find? fun r => r.short == some c).map RequestRow.request

/-- What a command line gives. -/
structure Arguments where
  path : Option Path := none
  name : Option String := none
  excludedNames : List String := []
  threads : Option Nat := none
  output : Option OutputFormat := none
  outputFile : Option Path := none
  dot : Option Path := none
  config : Option Path := none
  switches : List Switch := []
  deriving Repr, DecidableEq

namespace Arguments

def has (a : Arguments) (s : Switch) : Bool := a.switches.contains s

/-- Reads a path, which is not empty. -/
def readPath (s : String) : Except Refusal Path :=
  if s = "" then .error .invalidValue else .ok (Path.ofString s)

/-- Reads the value of a parameter that is given once at most. -/
def once {α : Type} (old : Option α) (read : String → Except Refusal α) (s : String) :
    Except Refusal (Option α) :=
  if old.isSome then .error .argumentConflict else (read s).map some

def readFormat (s : String) : Except Refusal OutputFormat :=
  let all : List OutputFormat := [.text, .json, .csv]
  match all.find? (·.name == s) with
  | some f => .ok f
  | none => .error .invalidValue

def accept (a : Arguments) (p : Parameter) (s : String) : Except Refusal Arguments := do
  match p with
  | .path => return { a with path := ← once a.path readPath s }
  | .name => return { a with name := ← once a.name .ok s }
  | .exclude => return { a with excludedNames := a.excludedNames ++ [s] }
  | .threads =>
    let read (s : String) := (readCount s).mapError fun _ => Refusal.valueValidation
    return { a with threads := ← once a.threads read s }
  | .output => return { a with output := ← once a.output readFormat s }
  | .outputFile => return { a with outputFile := ← once a.outputFile readPath s }
  | .dot => return { a with dot := ← once a.dot readPath s }
  | .config => return { a with config := ← once a.config readPath s }

def flip (a : Arguments) (s : Switch) : Except Refusal Arguments :=
  if a.has s then .error .argumentConflict else .ok { a with switches := a.switches ++ [s] }

/-- A command line that is being read: what was taken so far, and the last parameter with its value
as long as that was not looked at. -/
structure Draft where
  taken : Arguments
  pending : Option (Parameter × Option String)

namespace Draft

def settle (d : Draft) : Except Refusal Arguments :=
  match d.pending with
  | none => .ok d.taken
  | some (_, none) => .error .invalidValue
  | some (p, some s) => d.taken.accept p s

/-- Meets the name of a parameter, which may have its value with it. -/
def takeParameter (d : Draft) (p : Parameter) (value : Option String) : Except Refusal Draft := do
  let a ← d.settle
  match value with
  | some s => return ⟨← a.accept p s, none⟩
  | none => return ⟨a, some (p, none)⟩

/-- Meets the name of anything that takes no value. -/
def takeOther (d : Draft) (full : Bool) (r : Request) : Except Refusal Draft := do
  let a ← d.settle
  match r with
  | .switch s => return ⟨← a.flip s, none⟩
  | .version => .error .displayVersion
  | .help | .parameter _ => .error (.displayHelp full)

/-- Meets an argument that begins with two dashes, which are left out. -/
def takeLong (d : Draft) (cs : List Char) : Except Refusal Draft :=
  let value : Option String :=
    match cs.dropWhile (· != '=') with
    | [] => none
    | _ :: v => some (String.ofList v)
  match longRequest? (cs.takeWhile (· != '=')), value with
  | none, _ => .error .unknownArgument
  | some (.parameter p), value => d.takeParameter p value
  | some _, some _ => .error .tooManyValues
  | some r, none => d.takeOther true r

/-- Meets an argument that begins with one dash, which is left out. -/
def takeShort (d : Draft) : List Char → Except Refusal Draft
  | [] => .ok d
  | c :: rest =>
    match shortRequest? c with
    | none => .error .unknownArgument
    | some (.parameter p) =>
      match rest with
      | [] => d.takeParameter p none
      | '=' :: v => d.takeParameter p (some (String.ofList v))
      | v => d.takeParameter p (some (String.ofList v))
    | some r => do (← d.takeOther false r).takeShort rest

/-- Meets an argument that begins with no dash, or is one: the value of the last parameter. -/
def takeValue (d : Draft) (s : String) : Except Refusal Draft :=
  match d.pending with
  | some (p, none) => .ok { d with pending := some (p, some s) }
  | _ => .error .unknownArgument

def take (d : Draft) (s : String) : Except Refusal Draft :=
  match s.toList with
  | '-' :: '-' :: cs => d.takeLong cs
  | '-' :: c :: cs => d.takeShort (c :: cs)
  | _ => d.takeValue s

/-- Meets all arguments. After two dashes alone there may be no more. -/
def takeAll (d : Draft) : List String → Except Refusal Draft
  | [] => .ok d
  | s :: rest =>
    if s = "--" then (if rest.isEmpty then .ok d else .error .unknownArgument)
    else do (← d.take s).takeAll rest

end Draft

/-- What a command line gives, the name of the program left out. -/
def read (args : List String) : Except Refusal Arguments := do
  let a ← (← Draft.takeAll ⟨{}, none⟩ args).settle
  if a.has .quiet ∧ a.has .verbose then .error .argumentConflict else return a

/-- The layer of settings that a command line writes. A switch that is not given leaves its setting
open, and so does an empty list of names. -/
def layer (a : Arguments) : Layer :=
  let given (s : Switch) (value : Bool) : Option Bool := if a.has s then some value else none
  { scanPath := a.path
    repositoryName := a.name
    excludedNames := if a.excludedNames.isEmpty then none else some a.excludedNames
    followLinks := given .noFollowLinks false
    parallel := given .noParallel false
    threads := a.threads
    outputFormat := a.output
    outputFile := a.outputFile
    dotFile := a.dot
    quiet := given .quiet true
    verbose := given .verbose true
    useColors := given .noColors false
    showProgress := given .noProgress false }

end Arguments

end RepoSurvey
