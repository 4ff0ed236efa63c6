import RepoSurvey.Failure
import RepoSurvey.Settings.Basic
import RepoSurvey.Text.Blank
import RepoSurvey.Text.Power

/-!
Layers of settings that environment variables write. The names of the variables begin with a word
that the caller chooses.
-/

namespace RepoSurvey

/-- The variables of an environment. -/
abbrev Environment := List (String × String)

/-- What is said of a text that is no flag. -/
def notFlag : String := "provided string was not `true` or `false`"

def readFlag : String → Except String Bool
  | "true" => .ok true
  | "false" => .ok false
  | _ => .error notFlag

def readCount (s : String) : Except String Nat :=
  (readNatural (twoTo 64) s).mapError NumeralError.message

/-- Names with commas between them. Blanks around a name do not count, nor do empty names. -/
def splitNames (s : String) : List String :=
  (s.splitToList (· == ',')).map (fun n => trimStart (trimEnd n)) |>.filter (· != "")

namespace Environment

def settingNames : List String :=
  ["SCAN_PATH", "REPO_NAME", "EXCLUDE", "FOLLOW_LINKS", "PARALLEL", "THREADS", "OUTPUT_FORMAT",
    "OUTPUT_FILE", "DOT_FILE"]

/-- The text of the variable for a setting, if it is set. -/
def textOf? (env : Environment) (first name : String) : Option String :=
  env.lookup s!"{first}_{name}"

def isAvailable (env : Environment) (first : String) : Bool :=
  settingNames.any fun name => (env.textOf? first name).isSome

/-- Reads the variable for a setting, blanks around its text left out. -/
def parsed {α : Type} (env : Environment) (first name : String)
    (read : String → Except String α) : Except Failure (Option α) :=
  match env.textOf? first name with
  | none => .ok none
  | some raw =>
    match read (trimStart (trimEnd raw)) with
    | .ok a => .ok (some a)
    | .error message => .error (.config s!"{first}_{name}={raw}: {message}")

def layer (env : Environment) (first : String) : Except Failure Layer := do
  let path (name : String) : Option Path := (env.textOf? first name).map Path.ofString
  return {
    scanPath := path "SCAN_PATH"
    repositoryName := env.textOf? first "REPO_NAME"
    excludedNames := (env.textOf? first "EXCLUDE").map splitNames
    followLinks := ← env.parsed first "FOLLOW_LINKS" readFlag
    parallel := ← env.parsed first "PARALLEL" readFlag
    threads := ← env.parsed first "THREADS" readCount
    outputFormat := ← env.parsed first "OUTPUT_FORMAT" OutputFormat.ofName
    outputFile := path "OUTPUT_FILE"
    dotFile := path "DOT_FILE" }

end Environment

end RepoSurvey
