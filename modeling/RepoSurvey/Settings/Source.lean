import RepoSurvey.Command.Arguments

/-!
Sources of settings: configuration files, the environment and the command line.
-/

namespace RepoSurvey

/-- A source of settings. -/
inductive SettingsSource where
  /-- A configuration file, or the one in the current directory. -/
  | file (path : Option Path)
  /-- The variables of the environment whose names begin with a word. -/
  | environment (first : String)
  | commandLine (a : Arguments)
  deriving Repr

def configFileName : Path := Path.ofString ".reposcope.toml"

/-- The word with which the names of environment variables begin. -/
def environmentWord : String := "REPOSCOPE"

namespace SettingsSource

def name : SettingsSource → String
  | file none => "default config file"
  | file (some path) => s!"config file ({path.shown})"
  | environment first => s!"{first} environment variables"
  | commandLine _ => "command-line arguments"

/-- The rank that a source declares; a higher one is to win. -/
def priority : SettingsSource → Nat
  | file _ => 20
  | environment _ => 10
  | commandLine _ => 30

end SettingsSource

end RepoSurvey
