import RepoSurvey.FileSystem.Basic

/-!
Changes of a file system: new directories, links and special files, and files that are written.
-/

namespace RepoSurvey

/-- Puts an entry under a name: in the place of the one that has it, or after all others. -/
def setNamed (name : FileName) (e : Entry) :
    List (FileName × Entry) → List (FileName × Entry)
  | [] => [(name, e)]
  | (n, old) :: rest => if n = name then (n, e) :: rest else (n, old) :: setNamed name e rest

def setAt (e : Entry) : RealPath → List (FileName × Entry) → List (FileName × Entry)
  | [], entries => entries
  | [name], entries => setNamed name e entries
  | name :: rest, entries =>
    match entries.lookup name with
    | some (.directory inner fault) => setNamed name (.directory (setAt e rest inner) fault) entries
    | _ => entries

namespace FileSystem

def set (fs : FileSystem) (p : RealPath) (e : Entry) : FileSystem :=
  { fs with entries := setAt e p fs.entries }

/-- A path without the solidi at its end, unless it is all solidi. -/
def withoutSolidus (p : Path) : Path :=
  match p.reverse.dropWhile (· == solidus) with
  | [] => p
  | back => back.reverse

def add (fs : FileSystem) (p : Path) (e : Entry) : Except IoError FileSystem := do
  match ← fs.arrive false (withoutSolidus p) with
  | .reached _ => .error (.system 17)
  | .vacant d name => return fs.set (d.realPath ++ [name]) e

def addDirectory (fs : FileSystem) (p : Path) : Except IoError FileSystem :=
  fs.add p (.directory [])

/-- Makes a directory unless there is one. -/
def ensureDirectory (fs : FileSystem) (p : Path) : FileSystem × Except IoError Unit :=
  match fs.addDirectory p with
  | .ok fs => (fs, .ok ())
  | .error e => (fs, if fs.isDirectory p then .ok () else .error e)

/-- Makes a directory and the ones above it that are missing. Those that were made stay when that
fails. -/
def addDirectories (fs : FileSystem) (p : Path) : FileSystem × Except IoError Unit :=
  if p = [] then (fs, .ok ())
  else
    match fs.ensureDirectory p with
    | (_, .error (.system 2)) =>
      match p.parent? with
      | none => (fs, .error .noEntry)
      | some q =>
        if _shorter : q.length < p.length then
          match fs.addDirectories q with
          | (fs, .ok ()) => fs.ensureDirectory p
          | failed => failed
        else (fs, .error .noEntry)
    | done => done
termination_by p.length

/-- Writes a file anew. Links are followed, and what is written to a special file is lost. -/
def write (fs : FileSystem) (p : Path) (content : List UInt8) : Except IoError FileSystem := do
  match ← fs.arrive true (withoutSolidus p) with
  | .vacant d name =>
    if p.getLast? = some solidus then .error .isDirectory
    else return fs.set (d.realPath ++ [name]) (.file (.ok content))
  | .reached s =>
    if p.getLast? = some solidus then .error .isDirectory
    else
      match s.entry with
      | .directory _ _ => .error .isDirectory
      | .file _ => return fs.set s.realPath (.file (.ok content))
      | .special | .link _ => return fs

end FileSystem

end RepoSurvey
