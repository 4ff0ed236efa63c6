import RepoSurvey.FileSystem.Change
import RepoSurvey.Machine
import RepoSurvey.Settings.Source
import RepoSurvey.Settings.Text

/-!
Loading settings. A configuration file is read first, then the environment, then the command line,
each over the one before, and settings that nobody chose come last. What results is checked against
the file system.
-/

namespace RepoSurvey

/-! ### Checking -/

/-- The first name that cannot be left out by, and what is said of it. -/
def excludedNameFlaw? (n : String) : Option Failure :=
  if n = "" then some (.config "exclude names must not be empty")
  else if n.toList.any isLocationSeparator then
    some (.config s!"exclude name '{n}' must be a single directory name, not a path")
  else none

/-- What is wrong with the path of a file that is to be written, if anything is: the directory that
is to hold the file has to be there. -/
def FileSystem.outputFlaw? (fs : FileSystem) (p : Path) : Option Failure :=
  match p.parent? with
  | none => none
  | some d =>
    if d = [] ∨ fs.isDirectory d then none else some (.outputDirectoryNotFound d.shown)

/-- What is wrong with settings, if anything is. -/
def Settings.flaw? (fs : FileSystem) (s : Settings) : Option Failure :=
  (if fs.leads s.scanPath then none else some (.invalidPath s.scanPath.shown))
    <|> s.excludedNames.findSome? excludedNameFlaw?
    <|> (if s.threads = some 0 then some (.config "threads must be at least 1") else none)
    <|> s.outputFile.bind fs.outputFlaw?
    <|> s.dotFile.bind fs.outputFlaw?

/-- Settings, unless something is wrong with them. -/
def Settings.sound (fs : FileSystem) (s : Settings) : Except Failure Settings :=
  match s.flaw? fs with
  | some e => .error e
  | none => .ok s

/-! ### Configuration files -/

namespace FileSystem

def configText (fs : FileSystem) (p : Path) : Except Failure String :=
  if fs.leads p then
    match fs.read p with
    | .error e => .error (.configRead p.shown e)
    | .ok bytes =>
      match Utf8.decode bytes with
      | .ok text => .ok text
      | .error _ =>
        .error (.configRead p.shown
          (.described .invalidData (some "stream did not contain valid UTF-8")))
  else .error (.configNotFound p.shown)

def configLayer (fs : FileSystem) (p : Path) : Except Failure Layer := do
  Layer.ofText (← fs.configText p) p.shown

end FileSystem

namespace Machine

/-- The directory that a variable names, if it names one from the top. -/
def absolute? (m : Machine) (name : String) : Option Path :=
  ((m.environment.lookup name).map Path.ofString).filter Path.isAbsolute

/-- The home directory: what the variable for it says, or else what is on record. -/
def home? (m : Machine) : Option Path :=
  match m.environment.lookup "HOME" with
  | none | some "" => m.recordedHome
  | some p => some (Path.ofString p)

/-- Where a configuration file is looked for that nobody named. -/
def configLocations (m : Machine) : List Path :=
  let config? := m.absolute? "XDG_CONFIG_HOME" <|> m.home?.map (·.join (Path.ofString ".config"))
  configFileName :: (m.home?.map (·.join configFileName)).toList
    ++ (config?.map fun d => (d.join (Path.ofString "reposcope")).join (Path.ofString "config.toml")).toList

/-- The layer of the first configuration file that is there, if there is one. -/
def defaultLayer? (m : Machine) : Except Failure (Option Layer) :=
  match m.configLocations.find? m.files.isFile with
  | none => .ok none
  | some p => (m.files.configLayer p).map some

def filePath (path : Option Path) : Path := path.getD configFileName

def isAvailable (m : Machine) : SettingsSource → Bool
  | .file path => m.files.isFile (filePath path)
  | .environment first => m.environment.isAvailable first
  | .commandLine _ => true

def layer (m : Machine) : SettingsSource → Except Failure Layer
  | .file path =>
    if m.files.isFile (filePath path) then m.files.configLayer (filePath path)
    else .error (.configNotFound (filePath path).shown)
  | .environment first => m.environment.layer first
  | .commandLine a => .ok a.layer

/-- A layer with that of a source over it, if the source has anything to say. -/
def put (m : Machine) (source : SettingsSource) (l : Layer) : Except Failure Layer :=
  if m.isAvailable source then (m.layer source).map (·.overlay l) else .ok l

/-- A layer with that of the configuration file at a path over it. -/
def putFile (m : Machine) (path : Path) (l : Layer) : Except Failure Layer :=
  if m.files.isFile path then m.put (.file path) l else .error (.configNotFound path.shown)

/-- A layer with that of the first configuration file that is there over it. -/
def putDefault (m : Machine) (l : Layer) : Except Failure Layer := do
  match ← m.defaultLayer? with
  | some upper => return upper.overlay l
  | none => return l

/-- The settings of a layer, if they are sound. -/
def build (m : Machine) (l : Layer) : Except Failure Settings := l.settings.sound m.files

/-- The layer of all sources together: the command line over the environment over a configuration
file. The names of environment variables begin with `first`. -/
def layered (m : Machine) (first : String) (a : Arguments) : Except Failure Layer := do
  let file ←
    match a.config with
    | some path => m.putFile path .empty
    | none => m.putDefault .empty
  let environment ← m.put (.environment first) file
  m.put (.commandLine a) environment

def load (m : Machine) (first : String) (a : Arguments) : Except Failure Settings := do
  m.build (← m.layered first a)

end Machine

/-! ### The first configuration file -/

/-- The configuration file that says what everyone starts with. -/
def firstConfig : String :=
  "\n".intercalate
    ["# reposcope configuration",
      "#",
      "# Values here override the built-in defaults. Environment variables",
      "# (REPOSCOPE_*) and command-line flags override this file.",
      "",
      "# Repository root to analyze",
      "# scan_path = \".\"",
      "",
      "# Name reported in the results (defaults to the root directory name)",
      "# repo_name = \"my-project\"",
      "",
      "# Directory names skipped at every level of the tree and the walk",
      "exclude_dirs = [\".git\", \"__pycache__\", \".venv\", \"venv\"]",
      "",
      "# Follow symbolic links (directory cycles are detected and skipped)",
      "follow_links = true",
      "",
      "# Extract imports on a worker pool",
      "parallel = true",
      "",
      "# Worker pool size (defaults to the number of CPUs)",
      "# threads = 4",
      "",
      "# Output format: \"text\", \"json\" or \"csv\"",
      "output_format = \"text\"",
      "",
      "# Write results to a file instead of stdout",
      "# output_file = \"analysis.json\"",
      "",
      "# Export the dependency graph in Graphviz DOT format",
      "# dot_file = \"dependencies.dot\"",
      "",
      "# Terminal behaviour",
      "quiet = false",
      "verbose = false",
      "use_colors = true",
      "show_progress = true",
      ""]

namespace FileSystem

/-- Makes the directory that is to hold the file at a path, unless there is something. -/
def makeRoom (fs : FileSystem) (p : Path) : FileSystem × Except IoError Unit :=
  match p.parent? with
  | none => (fs, .ok ())
  | some d => if d = [] ∨ fs.leads d then (fs, .ok ()) else fs.addDirectories d

/-- Writes the first configuration file, with the directories that are missing above it. Those that
were made stay when that fails. -/
def createConfig (fs : FileSystem) (p : Path) : FileSystem × Except Failure Unit :=
  match fs.makeRoom p with
  | (fs, .error e) => (fs, .error (.io e))
  | (fs, .ok ()) =>
    match fs.write p (Utf8.encode firstConfig) with
    | .ok fs => (fs, .ok ())
    | .error e => (fs, .error (.outputWrite p.shown e))

end FileSystem

end RepoSurvey
