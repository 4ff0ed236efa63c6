/-!
The folder tree of a repository: nodes with a name, sorted children below each folder, and what can
be counted and found in a tree.
-/

namespace RepoSurvey

/-- What a node stands for. -/
inductive NodeKind where
  | folder | file
  deriving Repr, DecidableEq

def NodeKind.tag : NodeKind → String
  | folder => "folder"
  | file => "file"

/-- A node of a folder tree. Nodes that this library builds carry a list of children exactly when
they are folders; one that was read from a document may do otherwise. -/
inductive Node where
  | mk (name : String) (kind : NodeKind) (children : Option (List Node))
  deriving Repr

instance : Inhabited Node := ⟨.mk "" .file none⟩

namespace Node

def name : Node → String
  | mk n _ _ => n

def kind : Node → NodeKind
  | mk _ k _ => k

/-- The children that a node carries, if it carries a list of them. -/
def children? : Node → Option (List Node)
  | mk _ _ c => c

def children (n : Node) : List Node := n.children?.getD []

def isFolder (n : Node) : Bool := n.kind == .folder

/-- The order of siblings: by name, character by character. -/
def byName (a b : Node) : Bool := a.name ≤ b.name

def file (name : String) : Node := mk name .file none

/-- A folder. Its children are put in order; of two with the same name the one given first comes
first. -/
def folder (name : String) (children : List Node) : Node :=
  mk name .folder (some (children.mergeSort byName))

mutual

def fileCount : Node → Nat
  | mk _ .file _ => 1
  | mk _ .folder none => 0
  | mk _ .folder (some ns) => fileCounts ns

def fileCounts : List Node → Nat
  | [] => 0
  | n :: ns => fileCount n + fileCounts ns

end

mutual

/-- The number of folders in a tree, its root among them. -/
def folderCount : Node → Nat
  | mk _ .file _ => 0
  | mk _ .folder none => 1
  | mk _ .folder (some ns) => 1 + folderCounts ns

def folderCounts : List Node → Nat
  | [] => 0
  | n :: ns => folderCount n + folderCounts ns

end

mutual

def containsName (name : String) : Node → Bool
  | mk _ _ none => false
  | mk _ _ (some ns) => anyNamed name ns

def anyNamed (name : String) : List Node → Bool
  | [] => false
  | n :: ns => n.name == name || containsName name n || anyNamed name ns

end

end Node

end RepoSurvey
