import RepoSurvey.FileSystem.Basic
import RepoSurvey.Scope

/-!
What a walk through a repository meets. In each directory, files and links come before directories,
and each group goes by name, byte by byte. Entries of excluded names are passed over, but a link
that is to be followed and leads nowhere is met in any case. A link is not followed into a directory
that the way down from the root has passed; a directory that stands where it stands is always
entered. So every way is bounded: with each link it reaches a directory that it had not passed, and
between two links it only goes down.
-/

namespace RepoSurvey

/-- What a walk meets under a name. -/
inductive Sight where
  /-- A regular file, or a link to one. -/
  | file
  /-- Something that cannot be visited, and what is said of it. -/
  | broken (message : String)
  /-- A directory, and what is met in it. -/
  | folder (items : List (FileName × Sight))

/-- An entry of a directory as it is met: whether it is a directory itself, its name, and what it is
taken for. -/
structure Meeting where
  isDirectory : Bool
  name : FileName
  sight : Sight

namespace Meeting

/-- The order of a walk within a directory. -/
def before (a b : Meeting) : Bool :=
  if a.isDirectory = b.isDirectory then decide (a.name ≤ b.name) else b.isDirectory

/-- The entries of a directory in the order of a walk. -/
def inOrder (ms : List Meeting) : List (FileName × Sight) :=
  (ms.mergeSort before).map fun m => (m.name, m.sight)

end Meeting

namespace FileSystem

/-- What is said of an entry that the walk itself cannot visit. -/
def visitFault (path : Path) (e : IoError) : String :=
  s!"IO error for operation on {path.shown}: {e.message}"

mutual

/-- What is met in a directory that is on the way down. `fresh` holds the real directories that the
way has not passed. -/
def sightsIn (fs : FileSystem) (scope : Scope) (fresh : List RealPath) (path : Path)
    (entries : List (FileName × Entry)) : List (FileName × Sight) :=
  Meeting.inOrder (meetings fs scope fresh path entries)
termination_by (fresh.length, sizeOf entries, 1)

def meetings (fs : FileSystem) (scope : Scope) (fresh : List RealPath) (path : Path)
    (entries : List (FileName × Entry)) : List Meeting :=
  match entries with
  | [] => []
  | (n, e) :: rest =>
    let others := meetings fs scope fresh path rest
    match sightOf fs scope fresh (path.join n) (scope.excludes n) e with
    | some sight => ⟨e.isDirectory, n, sight⟩ :: others
    | none => others
termination_by (fresh.length, sizeOf entries, 0)

/-- What an entry at a path is taken for, unless it is passed over. -/
def sightOf (fs : FileSystem) (scope : Scope) (fresh : List RealPath) (path : Path) (excluded : Bool)
    (e : Entry) : Option Sight :=
  match e with
  | .file _ => if excluded then none else some .file
  | .special => none
  | .directory entries fault =>
    if excluded then none
    else
      match fs.stat path with
      | .error e => some (.broken (visitFault path e))
      | .ok s =>
        match fault with
        | some e => some (.broken (visitFault path e))
        | none => some (.folder (sightsIn fs scope (fresh.erase s.realPath) path entries))
  | .link _ =>
    match fs.stat path with
    | .error e =>
      if scope.followLinks then some (.broken (visitFault path e))
      else if excluded then none
      else some (.broken e.message)
    | .ok s =>
      if excluded then none
      else
        match s.entry with
        | .file _ => some .file
        -- The directory behind a link is opened before the link is followed. Where that fails, the
        -- fault names no path, and the link is passed over.
        | .directory entries none =>
          if _fresh : s.realPath ∈ fresh then
            if scope.followLinks then
              some (.folder (sightsIn fs scope (fresh.erase s.realPath) path entries))
            else none
          else none
        | _ => none
termination_by (fresh.length, sizeOf e, 2)
decreasing_by
  · rcases Nat.lt_or_eq_of_le (List.length_erase_le (a := s.realPath) (l := fresh)) with h | h
    · exact Prod.Lex.left _ _ h
    · rw [h]
      refine Prod.Lex.right _ (Prod.Lex.left _ _ ?_)
      simp only [Entry.directory.sizeOf_spec]
      omega
  · exact Prod.Lex.left _ _ (length_erase_lt _fresh)

end

end FileSystem

end RepoSurvey
