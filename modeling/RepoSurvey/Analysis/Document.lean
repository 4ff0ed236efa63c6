import RepoSurvey.Analysis
import RepoSurvey.Json.Shape
import RepoSurvey.Text.Power

/-!
The result of a survey as a document: how each of its parts is written as a value of the data
format, the shapes of these values, and how they are read back.
-/

namespace RepoSurvey

/-! ### Writing -/

mutual

def Node.toJson : Node → Json
  | .mk name kind none => .record [("name", .text name), ("type", .text kind.tag)]
  | .mk name kind (some ns) =>
    .record [("name", .text name), ("type", .text kind.tag), ("children", .list (Node.toJsons ns))]

def Node.toJsons : List Node → List Json
  | [] => []
  | n :: ns => n.toJson :: Node.toJsons ns

end

def Edge.toJson (e : Edge) : Json :=
  .record [("source", .text e.source), ("target", .text e.target)]

def Graph.toJson (g : Graph) : Json := .list (g.edges.map Edge.toJson)

/-- What is counted over a graph, as a value. -/
def Graph.Statistics.toJson (s : Graph.Statistics) : Json :=
  .record
    [("total_edges", .natural s.totalEdges), ("distinct_sources", .natural s.distinctSources),
      ("distinct_targets", .natural s.distinctTargets), ("max_fan_out", .natural s.maxFanOut),
      ("max_fan_out_file", .text? s.maxFanOutFile), ("max_fan_in", .natural s.maxFanIn),
      ("most_referenced_module", .text? s.mostReferencedModule)]

def Duration.toJson (d : Duration) : Json :=
  .record [("secs", .natural d.seconds), ("nanos", .natural d.nanoseconds)]

def Summary.toJson (s : Summary) : Json :=
  .record
    [("files_scanned", .natural s.filesScanned), ("source_files", .natural s.sourceFiles),
      ("files_skipped", .natural s.filesSkipped), ("parse_failures", .natural s.parseFailures),
      ("folders", .natural s.folders),
      ("languages", .record (s.languages.map fun (l, n) => (l.tag, .natural n))),
      ("graph", s.graph.toJson), ("scan_duration", s.scanDuration.toJson),
      ("warnings_count", .natural s.warnings)]

def Severity.word : Severity → String
  | warning => "Warning"
  | error => "Error"
  | critical => "Critical"

def Notice.toJson (n : Notice) : Json :=
  .record
    [("path", .text n.path), ("error", .text n.message), ("severity", .text n.severity.word)]

/-- What was found in a file, as a value. -/
def FileReport.toJson (f : FileReport) : Json :=
  .record
    [("path", .text f.path), ("language", .text f.language.tag), ("imports", .texts f.imports),
      ("explanation", .text f.explanation), ("security_report", .text f.security),
      ("tests", .text f.tests)]

def Ledger.toJson {α : Type} (value : α → Json) (l : Ledger α) : Json :=
  .record (l.entries.map fun (name, a) => (name, value a))

def Analysis.toJson (a : Analysis) : Json :=
  .record
    [("repo_name", .text a.repository), ("folder_tree", a.tree.toJson),
      ("folder_tree_text", .text a.outline),
      ("languages", a.languages.toJson fun l => .text l.tag),
      ("imports", a.imports.toJson .texts), ("file_summaries", a.explanations.toJson .text),
      ("security_reports", a.securityReports.toJson .text), ("test_cases", a.tests.toJson .text),
      ("dependency_graph", a.graph.toJson), ("architecture", .text a.architecture),
      ("summary", a.summary.toJson), ("errors", .list (a.notices.map Notice.toJson)),
      ("generated_at", .text a.generatedAt.text)]

/-! ### Shapes -/

/-- The kinds of value in a document. -/
inductive DocumentPart where
  | text | texts | count | seconds | nanoseconds | moment | nodeKind | language | severity
  | node | nodes | edge | graph | statistics | duration
  | languageOf | importsOf | textOf | languageCounts | summary | notice | notices | analysis
  deriving Repr, DecidableEq

/-- A record that passes over names it does not know. -/
def openRecord (name : String) (fields : List (Json.Field DocumentPart)) :
    Json.Shape DocumentPart :=
  .record { name, fields, closed := false, check := fun _ => none }

def required (name : String) (part : DocumentPart) : Json.Field DocumentPart :=
  ⟨name, .required, part⟩

def durationCheck (fields : List (String × Json)) : Option String :=
  match fields with
  | [(_, .integer s), (_, .integer n)] =>
    if s + n / 1000000000 < (Json.wordBound : Nat) then none
    else some "overflow deserializing Duration"
  | _ => none

def momentCheck (s : String) : Except String Json :=
  match Moment.read s with
  | .ok _ => .ok (.text s)
  | .error e => .error e.message

def DocumentPart.shape : DocumentPart → Json.Shape DocumentPart
  | text => .text
  | texts => .list text
  | count => .natural "usize" Json.wordBound
  | seconds => .natural "u64" Json.wordBound
  | nanoseconds => .natural "u32" (twoTo 32)
  | moment => .coded "an RFC 3339 formatted date and time string" momentCheck
  | nodeKind => .choice ["folder", "file"]
  | language => .choice (Language.all.map Language.tag)
  | severity => .choice ["Warning", "Error", "Critical"]
  | node =>
    openRecord "Node"
      [required "name" text, required "type" nodeKind, ⟨"children", .optional, nodes⟩]
  | nodes => .list node
  | edge => openRecord "DependencyEdge" [required "source" text, required "target" text]
  | graph => .list edge
  | statistics =>
    openRecord "GraphStatistics"
      [required "total_edges" count, required "distinct_sources" count,
        required "distinct_targets" count, required "max_fan_out" count,
        ⟨"max_fan_out_file", .nullable, text⟩, required "max_fan_in" count,
        ⟨"most_referenced_module", .nullable, text⟩]
  | duration =>
    .record
      { name := "Duration"
        fields := [required "secs" seconds, required "nanos" nanoseconds]
        closed := true
        check := durationCheck }
  | languageOf => .map .any language
  | importsOf => .map .any texts
  | textOf => .map .any text
  | languageCounts => .map (.oneOf (Language.all.map Language.tag)) count
  | summary =>
    openRecord "AnalysisSummary"
      [required "files_scanned" count, required "source_files" count,
        required "files_skipped" count, required "parse_failures" count, required "folders" count,
        required "languages" languageCounts, required "graph" statistics,
        required "scan_duration" duration, required "warnings_count" count]
  | notice =>
    openRecord "AnalysisError"
      [required "path" text, required "error" text, required "severity" severity]
  | notices => .list notice
  | analysis =>
    openRecord "RepositoryAnalysis"
      [required "repo_name" text, required "folder_tree" node, required "folder_tree_text" text,
        required "languages" languageOf, required "imports" importsOf,
        required "file_summaries" textOf, required "security_reports" textOf,
        required "test_cases" textOf, required "dependency_graph" graph,
        required "architecture" text, required "summary" summary, required "errors" notices,
        required "generated_at" moment]

/-! ### Reading -/

def Json.asText? : Json → Option String
  | .text s => some s
  | _ => none

def Json.asNatural? : Json → Option Nat
  | .integer n => if 0 ≤ n then some n.toNat else none
  | _ => none

def Json.asList? : Json → Option (List Json)
  | .list items => some items
  | _ => none

def Json.asRecord? : Json → Option (List (String × Json))
  | .record fields => some fields
  | _ => none

def Json.textField? (name : String) (v : Json) : Option String := v.field? name >>= asText?

def Json.naturalField? (name : String) (v : Json) : Option Nat := v.field? name >>= asNatural?

/-- The text of a field that may be `null`. -/
def Json.nullableField? (name : String) (v : Json) : Option (Option String) :=
  match v.field? name with
  | some .null => some none
  | some w => w.asText?.map some
  | none => none

def NodeKind.ofJson? (v : Json) : Option NodeKind := do
  match ← v.asText? with
  | "folder" => some folder
  | "file" => some file
  | _ => none

mutual

def Node.ofJson? : Json → Option Node
  | .record [(_, .text name), (_, kind), (_, .null)] => do
    return .mk name (← NodeKind.ofJson? kind) none
  | .record [(_, .text name), (_, kind), (_, .list items)] => do
    return .mk name (← NodeKind.ofJson? kind) (some (← Node.ofJsons? items))
  | _ => none

def Node.ofJsons? : List Json → Option (List Node)
  | [] => some []
  | v :: vs => do return (← Node.ofJson? v) :: (← Node.ofJsons? vs)

end

def Edge.ofJson? (v : Json) : Option Edge := do
  return ⟨← v.textField? "source", ← v.textField? "target"⟩

def Graph.ofJson? (v : Json) : Option Graph := do
  return ⟨← (← v.asList?).mapM Edge.ofJson?⟩

def Graph.Statistics.ofJson? (v : Json) : Option Graph.Statistics := do
  return {
    totalEdges := ← v.naturalField? "total_edges"
    distinctSources := ← v.naturalField? "distinct_sources"
    distinctTargets := ← v.naturalField? "distinct_targets"
    maxFanOut := ← v.naturalField? "max_fan_out"
    maxFanOutFile := ← v.nullableField? "max_fan_out_file"
    maxFanIn := ← v.naturalField? "max_fan_in"
    mostReferencedModule := ← v.nullableField? "most_referenced_module" }

def Duration.ofJson? (v : Json) : Option Duration := do
  return .ofParts (← v.naturalField? "secs") (← v.naturalField? "nanos")

/-- The counts that a value writes, in the order of languages. -/
def LanguageCounts.ofJson? (v : Json) : Option LanguageCounts := do
  let entries ← (← v.asRecord?).mapM fun (tag, n) => do
    return (← Language.ofTag? tag, ← n.asNatural?)
  return entries.mergeSort fun a b => a.1.rank ≤ b.1.rank

def Summary.ofJson? (v : Json) : Option Summary := do
  return {
    filesScanned := ← v.naturalField? "files_scanned"
    sourceFiles := ← v.naturalField? "source_files"
    filesSkipped := ← v.naturalField? "files_skipped"
    parseFailures := ← v.naturalField? "parse_failures"
    folders := ← v.naturalField? "folders"
    languages := ← v.field? "languages" >>= LanguageCounts.ofJson?
    graph := ← v.field? "graph" >>= Graph.Statistics.ofJson?
    scanDuration := ← v.field? "scan_duration" >>= Duration.ofJson?
    warnings := ← v.naturalField? "warnings_count" }

def Severity.ofWord? : String → Option Severity
  | "Warning" => some warning
  | "Error" => some error
  | "Critical" => some critical
  | _ => none

def Notice.ofJson? (v : Json) : Option Notice := do
  return ⟨← v.textField? "path", ← v.textField? "error",
    ← v.textField? "severity" >>= Severity.ofWord?⟩

def Ledger.ofJson? {α : Type} (value : Json → Option α) (v : Json) : Option (Ledger α) := do
  return ⟨← (← v.asRecord?).mapM fun (name, w) => do return (name, ← value w)⟩

def Json.asTexts? (v : Json) : Option (List String) := do (← v.asList?).mapM asText?

def Analysis.ofJson? (v : Json) : Option Analysis := do
  return {
    repository := ← v.textField? "repo_name"
    tree := ← v.field? "folder_tree" >>= Node.ofJson?
    outline := ← v.textField? "folder_tree_text"
    languages :=
      ← v.field? "languages" >>= Ledger.ofJson? fun w => w.asText? >>= Language.ofTag?
    imports := ← v.field? "imports" >>= Ledger.ofJson? Json.asTexts?
    explanations := ← v.field? "file_summaries" >>= Ledger.ofJson? Json.asText?
    securityReports := ← v.field? "security_reports" >>= Ledger.ofJson? Json.asText?
    tests := ← v.field? "test_cases" >>= Ledger.ofJson? Json.asText?
    graph := ← v.field? "dependency_graph" >>= Graph.ofJson?
    architecture := ← v.textField? "architecture"
    summary := ← v.field? "summary" >>= Summary.ofJson?
    notices := ← (← v.field? "errors" >>= Json.asList?).mapM Notice.ofJson?
    generatedAt := ← do (Moment.read (← v.textField? "generated_at")).toOption }

/-- What a document of a kind stands for, or what is wrong with its text. The shape of the kind
makes sure that the value can be understood. -/
def readPart {α : Type} (part : DocumentPart) (understand : Json → Option α) (input : String) :
    Except String α :=
  match Json.readDocument DocumentPart.shape part input with
  | .error message => .error message
  | .ok v =>
    match understand v with
    | some a => .ok a
    | none => .error "document not understood"

def Node.read (input : String) : Except String Node := readPart .node Node.ofJson? input

def Graph.read (input : String) : Except String Graph := readPart .graph Graph.ofJson? input

def Analysis.read (input : String) : Except String Analysis :=
  readPart .analysis Analysis.ofJson? input

end RepoSurvey
