import RepoSurvey.Graph.Basic

/-!
The graph as a drawing instruction: a directed graph in which files are boxes and modules ellipses.
-/

namespace RepoSurvey

def Endpoint.shape : Endpoint → String
  | file _ => "box"
  | module _ => "ellipse"

namespace Graph

/-- A text with a backslash before each place where a character stands. -/
def escape (c : Char) (text : List Char) : List Char :=
  text.flatMap fun d => if d = c then ['\\', c] else [d]

/-- A name between quotation marks. Backslashes follow a backslash, and then quotation marks do. -/
def dotIdentifier (name : String) : List Char :=
  '"' :: escape '"' (escape '\\' name.toList) ++ ['"']

/-- Since a backslash is no quotation mark, both characters are escaped as if at once. -/
theorem dotIdentifier_eq (name : String) :
    dotIdentifier name =
      '"' :: name.toList.flatMap (fun c => if c = '\\' ∨ c = '"' then ['\\', c] else [c]) ++ ['"'] := by
  have honce (c : Char) : escape '"' (if c = '\\' then ['\\', '\\'] else [c]) =
      if c = '\\' ∨ c = '"' then ['\\', c] else [c] := by
    by_cases hback : c = '\\'
    · simp [hback, escape]
    · by_cases hquote : c = '"'
      · simp [hquote, escape]
      · simp [hback, hquote, escape]
  have hboth : escape '"' (escape '\\' name.toList) =
      name.toList.flatMap fun c => escape '"' (if c = '\\' then ['\\', '\\'] else [c]) :=
    List.flatMap_assoc
  rw [dotIdentifier, hboth, funext honce]

def dotNode (e : Endpoint) : List Char :=
  ' ' :: ' ' :: dotIdentifier e.name ++ s!" [shape={e.shape}];\n".toList

def dotLink (source target : String) : List Char :=
  ' ' :: ' ' :: dotIdentifier source ++ [' ', '-', '>', ' '] ++ dotIdentifier target
    ++ [';', '\n']

/-- The drawing instruction of a graph: its nodes and then its links. -/
def dot (g : Graph) : String :=
  let v := g.view
  String.ofList
    ("digraph dependencies \x7b\n  rankdir=LR;\n  node [shape=box];\n\n".toList
      ++ v.nodes.flatMap dotNode
      ++ '\n' :: v.links.flatMap (fun l => dotLink (v.nameAt l.1) (v.nameAt l.2))
      ++ ['\x7d', '\n'])

end Graph

end RepoSurvey
