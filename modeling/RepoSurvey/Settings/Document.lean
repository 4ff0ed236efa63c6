import RepoSurvey.Json.Shape
import RepoSurvey.Settings.Basic

/-!
Settings as data. A layer is read from named values, whatever the format they are written in, and
written as a record of values; `null` stands for a setting that is left open.
-/

namespace RepoSurvey

/-- How the values of a format are looked at by a reader of settings. -/
structure ValueView (ν : Type) where
  isOpen : ν → Bool
  text? : ν → Option String
  flag? : ν → Option Bool
  list? : ν → Option (List ν)
  /-- A natural number that fits a word, or what is said of a value that is none. -/
  count : ν → Except String Nat
  /-- One of some words, or what is wrong with which part of a value that is none. -/
  choice : List String → ν → Except (ν × String) String
  /-- What is said of a value that is not of the expected type. -/
  refusal : ν → String → String
  flaw? : ν → Option (ν × String)

namespace ValueView

variable {ν : Type} (view : ValueView ν)

def optional {α : Type} (read : ν → Except (ν × String) α) (v : ν) :
    Except (ν × String) (Option α) :=
  if view.isOpen v then .ok none else (read v).map some

def typed {α : Type} (get? : ν → Option α) (expected : String) (v : ν) : Except (ν × String) α :=
  match get? v with
  | some a => .ok a
  | none => .error (v, view.refusal v expected)

def text (v : ν) : Except (ν × String) String := view.typed view.text? "a string" v

def path (v : ν) : Except (ν × String) Path :=
  (view.typed view.text? "path string" v).map Path.ofString

def flag (v : ν) : Except (ν × String) Bool := view.typed view.flag? "a boolean" v

def texts (v : ν) : Except (ν × String) (List String) := do
  (← view.typed view.list? "a sequence" v).mapM view.text

def natural (v : ν) : Except (ν × String) Nat := (view.count v).mapError ((v, ·))

def format (v : ν) : Except (ν × String) OutputFormat := do
  let all : List OutputFormat := [.text, .json, .csv]
  let word ← view.choice (all.map OutputFormat.name) v
  return (all.find? (·.name == word)).getD default

end ValueView

namespace Layer

/-- Puts a named value into a layer. Names that no setting has are passed over. -/
def put {ν : Type} (view : ValueView ν) (l : Layer) (name : String) (v : ν) :
    Except (ν × String) Layer := do
  let path := view.optional view.path
  let flag := view.optional view.flag
  match name with
  | "scan_path" => return { l with scanPath := ← path v }
  | "repo_name" => return { l with repositoryName := ← view.optional view.text v }
  | "exclude_dirs" => return { l with excludedNames := ← view.optional view.texts v }
  | "follow_links" => return { l with followLinks := ← flag v }
  | "parallel" => return { l with parallel := ← flag v }
  | "threads" => return { l with threads := ← view.optional view.natural v }
  | "output_format" => return { l with outputFormat := ← view.optional view.format v }
  | "output_file" => return { l with outputFile := ← path v }
  | "dot_file" => return { l with dotFile := ← path v }
  | "quiet" => return { l with quiet := ← flag v }
  | "verbose" => return { l with verbose := ← flag v }
  | "use_colors" => return { l with useColors := ← flag v }
  | "show_progress" => return { l with showProgress := ← flag v }
  | _ =>
    match view.flaw? v with
    | some flaw => .error flaw
    | none => return l

/-- The layer that named values write. They are read in the order of their names, and the first
fault counts. -/
def ofEntries {ν : Type} (view : ValueView ν) (entries : List (String × ν)) :
    Except (ν × String) Layer :=
  (entries.mergeSort fun a b => a.1 ≤ b.1).foldlM (fun l (name, v) => l.put view name v) empty

end Layer

namespace Json

/-- One of some words, written as a text or as the only name of a record, with nothing under it. -/
def choice (words : List String) (v : Json) : Except (Json × String) String :=
  let known (word : String) : Except (Json × String) String :=
    if word ∈ words then .ok word else .error (v, unknownWord "variant" word words)
  match v with
  | .text s => known s
  | .record [(name, inner)] => do
    let word ← known name
    match inner with
    | .null => .ok word
    | inner => .error (v, wrongType inner "unit")
  | .record _ => .error (v, "invalid value: map, expected map with a single key")
  | v => .error (v, wrongType v "string or map")

def view : ValueView Json where
  isOpen
    | .null => true
    | _ => false
  text?
    | .text s => some s
    | _ => none
  flag?
    | .bool b => some b
    | _ => none
  list?
    | .list items => some items
    | _ => none
  count
    | .integer n =>
      if 0 ≤ n ∧ n < wordBound then .ok n.toNat
      else .error s!"invalid value: {typeName (.integer n)}, expected usize"
    | v => .error (wrongType v "usize")
  choice := choice
  refusal := wrongType
  flaw? _ := none

end Json

namespace Layer

/-- The names of the settings, in the order in which a list of values gives them. -/
def names : List String :=
  ["scan_path", "repo_name", "exclude_dirs", "follow_links", "parallel", "threads",
    "output_format", "output_file", "dot_file", "quiet", "verbose", "use_colors", "show_progress"]

def ofValues (items : List Json) : Except String Layer := do
  let l ← ((names.zip items).foldlM (fun l (name, v) => put Json.view l name v) empty).mapError
    Prod.snd
  let refuse (expected : String) : Except String Layer :=
    .error s!"invalid length {items.length}, expected {expected}"
  if items.length < names.length then
    refuse s!"struct PartialSettings with {names.length} elements"
  else if names.length < items.length then refuse "fewer elements in array"
  else return l

/-- The layer that a value writes, or what is wrong with the value. -/
def ofJson (v : Json) : Except String Layer :=
  match v with
  | .record fields => (ofEntries Json.view fields).mapError Prod.snd
  | .list items => ofValues items
  | v => .error (Json.wrongType v "struct PartialSettings")

/-- A setting that may be left open, as a value. -/
def toValue {α : Type} (write : α → Json) : Option α → Json
  | some a => write a
  | none => .null

def toJson (l : Layer) : Json :=
  let path := toValue fun p : Path => Json.text p.shown
  let flag := toValue Json.bool
  .record
    [("scan_path", path l.scanPath), ("repo_name", .text? l.repositoryName),
      ("exclude_dirs", toValue .texts l.excludedNames), ("follow_links", flag l.followLinks),
      ("parallel", flag l.parallel), ("threads", toValue .natural l.threads),
      ("output_format", toValue (fun f => .text f.name) l.outputFormat),
      ("output_file", path l.outputFile), ("dot_file", path l.dotFile), ("quiet", flag l.quiet),
      ("verbose", flag l.verbose), ("use_colors", flag l.useColors),
      ("show_progress", flag l.showProgress)]

end Layer

def Settings.asLayer (s : Settings) : Layer where
  scanPath := s.scanPath
  repositoryName := s.repositoryName
  excludedNames := s.excludedNames
  followLinks := s.followLinks
  parallel := s.parallel
  threads := s.threads
  outputFormat := s.outputFormat
  outputFile := s.outputFile
  dotFile := s.dotFile
  quiet := s.quiet
  verbose := s.verbose
  useColors := s.useColors
  showProgress := s.showProgress

def Settings.toJson (s : Settings) : Json := s.asLayer.toJson

end RepoSurvey
