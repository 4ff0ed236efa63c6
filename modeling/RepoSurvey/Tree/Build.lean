import RepoSurvey.FileSystem.Basic
import RepoSurvey.Scope
import RepoSurvey.Tree.Basic

/-!
Building the folder tree of a repository. Below the root, entries of excluded names are left out. A
directory is entered under every name that leads to it, but not from within itself: on the way down
from the root each real directory occurs once, which bounds every way.
-/

namespace RepoSurvey

namespace FileSystem

/-- The names in a directory in the order of the tree: by what is shown of them, and names that look
alike in the order of the directory. -/
def shownOrder (entries : List (FileName × Entry)) : List FileName :=
  (entries.map Prod.fst).mergeSort fun a b => Utf8.decodeLossy a ≤ Utf8.decodeLossy b

mutual

/-- The folder of the directory at a path, unless the way down has passed it. `fresh` holds the real
directories that the way down has not passed. -/
def folderAt (fs : FileSystem) (scope : Scope) (fresh : List RealPath) (path : Path) (name : String) :
    Except Failure (Option Node) :=
  match fs.resolve path with
  | .error e => .error (.directoryRead path.shown e)
  | .ok real =>
    if _entered : real.realPath ∈ fresh then
      match fs.list path with
      | .error e => .error (.directoryRead path.shown e)
      | .ok entries =>
        (nodesAt fs scope (fresh.erase real.realPath) path (shownOrder entries)).map
          fun nodes => some (.folder name nodes)
    else .ok none
termination_by (fresh.length, 0)
decreasing_by
  have := FileSystem.length_erase_lt _entered
  omega

/-- The nodes of some names in the directory at a path. The first failure counts. -/
def nodesAt (fs : FileSystem) (scope : Scope) (fresh : List RealPath) (path : Path)
    (names : List FileName) : Except Failure (List Node) :=
  match names with
  | [] => .ok []
  | n :: names =>
    if scope.excludes n then nodesAt fs scope fresh path names
    else
      match nodeAt fs scope fresh (path.join n) (Utf8.decodeLossy n) with
      | .error e => .error e
      | .ok node =>
        (nodesAt fs scope fresh path names).map fun nodes => node.toList ++ nodes
termination_by (fresh.length, names.length + 1)

/-- The node of the entry at a path, unless it is a directory that is not entered. Whatever is no
directory is a file. -/
def nodeAt (fs : FileSystem) (scope : Scope) (fresh : List RealPath) (path : Path) (name : String) :
    Except Failure (Option Node) :=
  match fs.lstat path with
  | .error _ => .ok (some (.file name))
  | .ok s =>
    match s.entry with
    | .directory _ _ => folderAt fs scope fresh path name
    | .link _ =>
      if fs.isDirectory path then
        if scope.followLinks then folderAt fs scope fresh path name else .ok none
      else .ok (some (.file name))
    | _ => .ok (some (.file name))
termination_by (fresh.length, 1)

end

/-- The name of a root: its last name, or all of it if it ends in none. -/
def rootName (root : Path) : String :=
  match root.fileName? with
  | some n => Utf8.decodeLossy n
  | none => root.shown

def folderTree (fs : FileSystem) (scope : Scope) (root : Path) : Except Failure Node :=
  if fs.isDirectory root then
    match folderAt fs scope fs.directories root (rootName root) with
    | .error e => .error e
    | .ok none => .error (.invalidPath root.shown)
    | .ok (some node) => .ok node
  else .error (.invalidPath root.shown)

end FileSystem

end RepoSurvey
