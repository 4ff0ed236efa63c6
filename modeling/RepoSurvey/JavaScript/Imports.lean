import RepoSurvey.Text.Blank
import RepoSurvey.Text.Pattern

/-!
Imports of a script, found by their look: `import … from '…'` and `require('…')`, with either kind of
quotation mark. The text is not parsed, so what stands in comments and texts is found too.
-/

namespace RepoSurvey.JavaScript

open Pattern

/-- One blank or more, line ends among them. -/
def blanks : List Piece := [.one isBlank, .many true isBlank]

/-- As few characters as possible, all on one line. -/
def anything : Piece := .many false (· != '\n')

def quote : Piece := .one fun c => c == '\'' || c == '"'

/-- A quoted text, which is marked. -/
def quotedText : List Piece := [quote, .mark, anything, .mark, quote]

def importFrom : List Piece :=
  literal "import" ++ blanks ++ [anything] ++ blanks ++ literal "from" ++ blanks ++ quotedText

def requireCall : List Piece := literal "require(" ++ quotedText ++ literal ")"

/-- The modules that a script imports, in the order of their places. -/
def imports (source : String) : List String :=
  let text := source.toList.toArray
  let found := findAll [importFrom, requireCall] text.toList
  (found.map fun m => String.ofList (m.captured text)).filter fun name => !name.isEmpty

end RepoSurvey.JavaScript
