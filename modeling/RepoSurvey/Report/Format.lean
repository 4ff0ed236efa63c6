import RepoSurvey.Analysis.Document
import RepoSurvey.Report.Csv
import RepoSurvey.Report.Text

/-!
The forms in which a result is handed out, and their names.
-/

namespace RepoSurvey

/-- A form in which a result is handed out. -/
inductive OutputFormat where
  | text | json | csv
  deriving Repr, DecidableEq, Inhabited

namespace OutputFormat

def name : OutputFormat → String
  | text => "text"
  | json => "json"
  | csv => "csv"

/-- The form of a name, large and small letters alike, or what is said of a name that none has. -/
def ofName (s : String) : Except String OutputFormat :=
  match s.map Char.toLower with
  | "text" => .ok text
  | "json" => .ok json
  | "csv" => .ok csv
  | _ => .error s!"Invalid output format: {s}"

/-- A result in a form. Colours and the amount of text matter to the report for people only. -/
def render (format : OutputFormat) (colors verbose quiet : Bool) (a : Analysis) : String :=
  match format with
  | text => a.textReport colors verbose quiet
  | json => a.toJson.prettyText
  | csv => Csv.ofGraph a.graph

end OutputFormat

end RepoSurvey
