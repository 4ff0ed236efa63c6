import RepoSurvey.Command.Arguments

/-!
The texts that the program prints about itself.
-/

namespace RepoSurvey

def versionText : String := "reposcope 0.1.0\n"

/-- What the program is for, in one line. -/
def aboutShort : String :=
  "Map a repository's folder tree and the modules each source file imports"

/-- What the program is for, in full. -/
def aboutFull : String :=
  "reposcope walks a source repository, renders its folder tree, classifies source files by "
    ++ "language and extracts the modules each file imports. Python files are parsed into a "
    ++ "syntax tree; JavaScript and TypeScript files are matched against import/require "
    ++ "patterns. The result is a per-file report plus a flat list of file -> module dependency "
    ++ "edges."

/-- Examples of use: what is done, and how. -/
def examples : List (String × List (String × String)) :=
  [("Basic Usage",
      [("Analyze the current directory", ""),
        ("Analyze a specific checkout and name it in the report",
          " --path ./checkout --name my-service"),
        ("Skip additional directory names at every level",
          " --exclude node_modules --exclude build")]),
    ("Output Options",
      [("Full result as JSON", " --output json --output-file analysis.json"),
        ("Dependency edges as CSV", " --output csv"),
        ("Graphviz export of the dependency graph", " --dot deps.dot")]),
    ("Performance Options",
      [("Extract on a single thread", " --no-parallel"),
        ("Bound the worker pool", " --threads 4")]),
    ("Configuration",
      [("Use a specific configuration file", " --config ./reposcope.toml"),
        ("Create .reposcope.toml in the current directory", " --init")])]

def examplesText : String :=
  let example1 (e : String × String) : String := s!"    # {e.1}\n    reposcope{e.2}"
  let group (g : String × List (String × String)) : String :=
    s!"{g.1}:\n" ++ "\n\n".intercalate (g.2.map example1)
  "EXAMPLES:\n\n" ++ "\n\n".intercalate (examples.map group) ++ "\n"

def formatRows : List (OutputFormat × String) :=
  [(.text, "Human-readable text output"), (.json, "JSON output for programmatic consumption"),
    (.csv, "CSV edge list")]

namespace RequestRow

def names (r : RequestRow) : String :=
  let short :=
    match r.short with
    | some c => "-" ++ String.singleton c ++ ", "
    | none => "    "
  let value :=
    match r.value with
    | some v => " <" ++ v ++ ">"
    | none => ""
  "  " ++ short ++ "--" ++ r.long ++ value

def filled (width : Nat) (s : String) : String :=
  s ++ String.ofList (List.replicate (width - s.length) ' ')

/-- What a request does, in the short help text. -/
def shortAbout (r : RequestRow) : String :=
  match r.request with
  | .help => "Print help (see more with '--help')"
  | .parameter .output =>
    let words := ", ".intercalate (formatRows.map (·.1.name))
    s!"{r.about} [possible values: {words}]"
  | _ => r.about

/-- What a request does, in the full help text. -/
def fullAbout (r : RequestRow) : List String :=
  match r.request with
  | .help => ["Print help (see a summary with '-h')"]
  | .parameter .output =>
    [r.about, "", "Possible values:"]
      ++ formatRows.map fun (f, about) => "- " ++ filled 6 (f.name ++ ":") ++ about
  | _ => [r.about]

/-- The width of the column of names in the short help text. -/
def nameWidth : Nat := ((requestRows.map fun r => r.names.length).max?).getD 0

def shortText (r : RequestRow) : String := s!"{filled nameWidth r.names}  {r.shortAbout}\n"

def fullText (r : RequestRow) : String :=
  let line (s : String) : String := if s = "" then "\n" else s!"          {s}\n"
  s!"{r.names}\n" ++ String.join (r.fullAbout.map line)

end RequestRow

def helpText (full : Bool) : String :=
  let rows :=
    if full then "\n".intercalate (requestRows.map RequestRow.fullText)
    else String.join (requestRows.map RequestRow.shortText)
  (if full then aboutFull else aboutShort)
    ++ "\n\nUsage: reposcope [OPTIONS]\n\nOptions:\n" ++ rows ++ "\n" ++ examplesText

end RepoSurvey
