import RepoSurvey.JavaScript.Imports
import RepoSurvey.Language
import RepoSurvey.Python.Imports
import RepoSurvey.Python.Parse

/-!
The imports of a file, read in the way that its language calls for.
-/

namespace RepoSurvey

/-- The modules that a file imports, or why they cannot be told. -/
def Strategy.imports (s : Strategy) (source : String) : Except Python.SyntaxError (List String) :=
  match s with
  | .structural => (Python.parse source).imports
  | .pattern => .ok (JavaScript.imports source)
  | .none => .ok []

/-- The modules that a file imports; none if they cannot be told. -/
def Strategy.importsOrNone (s : Strategy) (source : String) : List String :=
  (s.imports source).toOption.getD []

end RepoSurvey
