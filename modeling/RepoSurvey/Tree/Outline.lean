import RepoSurvey.Tree.Basic

/-!
The outline of a folder tree: one line a node, each node before what lies below it, two blanks of
indentation a level, and a solidus behind the name of a folder.
-/

namespace RepoSurvey.Node

def indentation (depth : Nat) : String := String.ofList (List.replicate (2 * depth) ' ')

mutual

def outlineLines (depth : Nat) : Node → List String
  | mk name .file _ => [indentation depth ++ name]
  | mk name .folder none => [indentation depth ++ name ++ "/"]
  | mk name .folder (some ns) =>
    (indentation depth ++ name ++ "/") :: outlinesLines (depth + 1) ns

def outlinesLines (depth : Nat) : List Node → List String
  | [] => []
  | n :: ns => outlineLines depth n ++ outlinesLines depth ns

end

/-- The outline of a tree, without a line feed at its end. -/
def outline (n : Node) : String := "\n".intercalate (outlineLines 0 n)

end RepoSurvey.Node
