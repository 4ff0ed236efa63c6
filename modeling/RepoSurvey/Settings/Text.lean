import RepoSurvey.Settings.Document
import RepoSurvey.Text.Power
import RepoSurvey.Toml.Report

/-!
Layers of settings that are written in the format of configuration files.
-/

namespace RepoSurvey

namespace Toml

/-- How a floating-point value is shown: in full, with a fraction in any case. -/
def shownReal (x : Float) : String :=
  if x.isNaN then "NaN.0"
  else if x.isInf then (if x < 0 then "-inf.0" else "inf.0")
  else Shortest.text false x

/-- How a refusal names an integer. Those that do not fit a word are marked. -/
def shownInteger (n : Int) : String :=
  let plain := s!"integer `{n}`"
  if (twoTo 127 : Int) ≤ n then plain ++ " as u128"
  else if (twoTo 64 : Int) ≤ n ∨ n < -(twoTo 63 : Int) then plain ++ " as i128"
  else plain

def typeName : Value → String
  | .text s => s!"string {Text.quoted s}"
  | .integer n => shownInteger n
  | .real x => s!"floating point `{shownReal x}`"
  | .excessive kind => kind
  | .bool b => s!"boolean `{b}`"
  | .time _ | .table .. => "map"
  | .list .. => "sequence"

def formName : Value → String
  | .text _ => "string"
  | .integer _ => "integer"
  | .real _ => "float"
  | .excessive kind => if kind.startsWith "integer" then "integer" else "float"
  | .bool _ => "boolean"
  | .time _ => "datetime"
  | .list .. => "array"
  | .table .. => "table"

def wrongType (v : Value) (expected : String) : String :=
  match v with
  | .excessive kind => s!"{kind} overflowed"
  | v => s!"invalid type: {typeName v}, expected {expected}"

mutual

/-- The first number in a value that is too large for any reader. -/
def excess? (v : Spanned Value) : Option (Spanned Value × String) :=
  match v with
  | ⟨span, .excessive kind⟩ => some (⟨span, .excessive kind⟩, s!"{kind} overflowed")
  | ⟨_, .list _ items⟩ => excessIn? items
  | ⟨_, .table _ entries⟩ => excessUnder? entries
  | _ => none

/-- The first number in some values that is too large for any reader. -/
def excessIn? : List (Spanned Value) → Option (Spanned Value × String)
  | [] => none
  | v :: rest => (excess? v).or (excessIn? rest)

/-- The first number in some entries that is too large for any reader. -/
def excessUnder? : List (String × Spanned Value) → Option (Spanned Value × String)
  | [] => none
  | (_, v) :: rest => (excess? v).or (excessUnder? rest)

end

/-- One of some words, written as a text or as the only name of a table, with nothing under it. -/
def choice (words : List String) (v : Spanned Value) : Except (Spanned Value × String) String :=
  let known (word : String) : Except (Spanned Value × String) String :=
    if word ∈ words then .ok word else .error (v, Json.unknownWord "variant" word words)
  match v.value with
  | .text s => known s
  | .table _ [] => .error (v, "wanted exactly 1 element, found 0 elements")
  | .table _ [(name, inner)] => do
    let word ← known name
    match inner.value with
    | .table _ [] | .list _ [] => return word
    | .table .. => .error (inner, "expected empty table")
    | .list .. => .error (inner, "expected empty array")
    | other => .error (inner, s!"expected table, found {formName other}")
  | .table .. => .error (v, "wanted exactly 1 element, more than 1 element")
  | _ => .error (v, "wanted string or table")

def view : ValueView (Spanned Value) where
  isOpen _ := false
  text?
    | ⟨_, .text s⟩ => some s
    | _ => none
  flag?
    | ⟨_, .bool b⟩ => some b
    | _ => none
  list?
    | ⟨_, .list _ items⟩ => some items
    | _ => none
  count v :=
    match v.value with
    | .integer n =>
      if 0 ≤ n ∧ n < Json.wordBound then .ok n.toNat
      else if -(twoTo 63 : Int) ≤ n ∧ n < 0 then
        .error s!"invalid value: {shownInteger n}, expected usize"
      else .error (wrongType v.value "usize")
    | v => .error (wrongType v "usize")
  choice := choice
  refusal v := wrongType v.value
  flaw? := excess?

end Toml

/-- What is wrong with a layer that stands in the configuration file at `path`, if anything is. -/
def Layer.flaw? (l : Layer) (path : String) : Option String :=
  let emptyPath (name : String) (p : Option Path) : Option String :=
    if p = some [] then some s!"Invalid empty {name} in config file: {path}" else none
  let nameFlaw (n : String) : Option String :=
    if n = "" then some s!"Empty exclude_dirs entry in config file: {path}"
    else if n.toList.any isLocationSeparator then
      some s!"exclude_dirs entry '{n}' in config file {path} must be a plain directory name"
    else none
  emptyPath "scan_path" l.scanPath
    <|> (l.excludedNames.getD []).findSome? nameFlaw
    <|> (if l.threads = some 0 then
      some s!"Invalid threads = 0 in config file: {path}. Must be at least 1." else none)
    <|> emptyPath "output_file" l.outputFile
    <|> emptyPath "dot_file" l.dotFile

/-- The layer, unless something is wrong with it. -/
def Layer.sound (l : Layer) (path : String) : Except Failure Layer :=
  match l.flaw? path with
  | some message => .error (.config message)
  | none => .ok l

/-- The layer that the text of the configuration file at `path` writes. -/
def Layer.ofText (input path : String) : Except Failure Layer := do
  let table ← (Toml.read input).mapError fun f => .configParse path (f.inText input)
  let layer ← (ofEntries Toml.view table.entries).mapError fun (v, message) =>
    .configParse path (Toml.pointAt input v.span message)
  layer.sound path

end RepoSurvey
