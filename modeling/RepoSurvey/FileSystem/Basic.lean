import RepoSurvey.Failure
import RepoSurvey.Path

/-!
Snapshots of a file system. Directories hold each other like boxes and links are leaves, so the way
from the top to an entry, by names alone, is its real path. Following a path goes step by step from a
directory, and every link on the way puts the steps of its target before those that are left.
-/

namespace RepoSurvey

/-- An entry of a directory. -/
inductive Entry where
  /-- A regular file: what it holds, or why it cannot be read. -/
  | file (content : Except IoError (List UInt8))
  /-- A pipe, a device or the like. -/
  | special
  | link (target : Path)
  /-- A directory: what it holds, and why it cannot be listed, if it cannot. What it holds is found
  by its name all the same. -/
  | directory (entries : List (FileName × Entry)) (fault : Option IoError := none)

instance : Inhabited Entry := ⟨.special⟩

def Entry.isDirectory : Entry → Bool
  | directory _ _ => true
  | _ => false

def Entry.isFile : Entry → Bool
  | file _ => true
  | _ => false

def Entry.isLink : Entry → Bool
  | link _ => true
  | _ => false

/-- What an entry lists. -/
def Entry.listing : Entry → Except IoError (List (FileName × Entry))
  | directory entries none => .ok entries
  | directory _ (some fault) => .error fault
  | _ => .error .notDirectory

/-- A real path: the names from the top to an entry, none of them a link. -/
abbrev RealPath := List FileName

/-- How many bytes a real path takes when it is written. -/
def RealPath.width : RealPath → Nat
  | [] => 0
  | n :: p => n.length + 1 + width p

def RealPath.path (p : RealPath) : Path :=
  match p with
  | [] => [solidus]
  | p => p.flatMap (solidus :: ·)

/-- A snapshot of a file system: what the top directory holds, the current directory, and why the top
directory cannot be listed, if it cannot. -/
structure FileSystem where
  entries : List (FileName × Entry)
  current : RealPath
  fault : Option IoError := none

/-- Where a path has led: an entry, and the directories above it from the inside out, each with the
name by which the one before it stands in it. -/
structure Standing where
  entry : Entry
  above : List (FileName × Entry)

namespace Standing

def realPath (s : Standing) : RealPath := (s.above.map Prod.fst).reverse

/-- The directory that holds an entry; the top holds itself. -/
def parent (s : Standing) : Standing :=
  match s.above with
  | [] => s
  | (_, d) :: above => ⟨d, above⟩

def child (s : Standing) (n : FileName) (e : Entry) : Standing := ⟨e, (n, s.entry) :: s.above⟩

end Standing

/-- Where following a path ends. -/
inductive Arrival where
  | reached (s : Standing)
  /-- At a directory that has no entry of the last name. -/
  | vacant (directory : Standing) (name : FileName)

/-- The longest name of an entry, in bytes. -/
def nameLimit : Nat := 255

/-- The bound of the lengths of paths, in bytes. -/
def pathLimit : Nat := 4096

/-- How many links are followed on the way of one path. -/
def linkLimit : Nat := 40

/-- The names of a path, one after the other. A solidus at the end asks for a directory, as a dot
would. -/
def Path.names (p : Path) : List FileName :=
  let names := p.segments.filter (· != [])
  if p.getLast? = some solidus ∧ names ≠ [] then names ++ [[dot]] else names

namespace FileSystem

def top (fs : FileSystem) : Standing := ⟨.directory fs.entries fs.fault, []⟩

/-- Whether a real path of so many bytes does not fit. -/
def outgrows (room : Option Nat) (width : Nat) : Bool :=
  match room with
  | some bound => bound ≤ width
  | none => false

/-- Follows names from a directory, and at most so many links. A link at the very end is followed
only if `last` is set. Every real path on the way, a link's included, is shorter than `room`. -/
def follow (fs : FileSystem) (last : Bool) (room : Option Nat) (links : Nat) (s : Standing)
    (names : List FileName) : Except IoError Arrival :=
  match names with
  | [] => .ok (.reached s)
  | n :: names =>
    match s.entry with
    | .directory entries _ =>
      if n = [dot] then fs.follow last room links s names
      else if n = [dot, dot] then fs.follow last room links s.parent names
      else if nameLimit < n.length ∨ outgrows room (s.realPath.width + n.length + 1) then
        .error .nameTooLong
      else
        match entries.lookup n with
        | none => if names = [] then .ok (.vacant s n) else .error .noEntry
        | some (.link target) =>
          if names = [] ∧ ¬ last then .ok (.reached (s.child n (.link target)))
          else
            match links with
            | 0 => .error .tooManyLinks
            | links + 1 =>
              fs.follow last room links (if target.isAbsolute then fs.top else s)
                (target.names ++ names)
        | some e => fs.follow last room links (s.child n e) names
    | _ => .error .notDirectory
termination_by (links, names.length)

def standingAt (fs : FileSystem) (p : RealPath) : Standing :=
  match fs.follow false none 0 fs.top p with
  | .ok (.reached s) => s
  | _ => fs.top

def start (fs : FileSystem) (p : Path) : Standing :=
  if p.isAbsolute then fs.top else fs.standingAt fs.current

def zeroByte : IoError := .described .other (some "file name contained an unexpected NUL byte")

def arrive (fs : FileSystem) (last : Bool) (p : Path) : Except IoError Arrival :=
  if p.contains 0 then .error zeroByte
  else if p = [] then .error .noEntry
  else if pathLimit ≤ p.length then .error .nameTooLong
  else fs.follow last none linkLimit (fs.start p) p.names

/-- The entry to which following ends, if there is one. -/
def entryOf (a : Except IoError Arrival) : Except IoError Standing :=
  match a with
  | .ok (.reached s) => .ok s
  | .ok (.vacant ..) => .error .noEntry
  | .error e => .error e

/-- The entry at a path, links followed to their ends. -/
def stat (fs : FileSystem) (p : Path) : Except IoError Standing := entryOf (fs.arrive true p)

/-- The entry at a path, be it a link. -/
def lstat (fs : FileSystem) (p : Path) : Except IoError Standing := entryOf (fs.arrive false p)

def leads (fs : FileSystem) (p : Path) : Bool := (fs.stat p).toBool

def isDirectory (fs : FileSystem) (p : Path) : Bool :=
  match fs.stat p with
  | .ok s => s.entry.isDirectory
  | .error _ => false

def isFile (fs : FileSystem) (p : Path) : Bool :=
  match fs.stat p with
  | .ok s => s.entry.isFile
  | .error _ => false

def isLink (fs : FileSystem) (p : Path) : Bool :=
  match fs.lstat p with
  | .ok s => s.entry.isLink
  | .error _ => false

/-- The real entry at a path, which is looked for by real paths only. The path itself may be of
any length. -/
def resolve (fs : FileSystem) (p : Path) : Except IoError Standing :=
  if p.contains 0 then .error zeroByte
  else if p = [] then .error .noEntry
  else entryOf (fs.follow true (some pathLimit) linkLimit (fs.start p) p.names)

def canonical (fs : FileSystem) (p : Path) : Except IoError Path :=
  (fs.resolve p).map fun s => s.realPath.path

def read (fs : FileSystem) (p : Path) : Except IoError (List UInt8) := do
  match (← fs.stat p).entry with
  | .file content => content
  | .directory _ _ => .error .isDirectory
  | .special | .link _ => .ok []

def list (fs : FileSystem) (p : Path) : Except IoError (List (FileName × Entry)) := do
  (← fs.stat p).entry.listing

/-- Every directory of a file system by its real path: those below some entries, which stand at
`above`. -/
def directoriesBelow (above : RealPath) : List (FileName × Entry) → List RealPath
  | [] => []
  | (n, .directory inner _) :: rest =>
    (above ++ [n]) :: directoriesBelow (above ++ [n]) inner ++ directoriesBelow above rest
  | _ :: rest => directoriesBelow above rest

def directories (fs : FileSystem) : List RealPath := [] :: directoriesBelow [] fs.entries

/-- A list of directories is shorter without one of them. -/
theorem length_erase_lt {α : Type} [BEq α] [LawfulBEq α] {a : α} {l : List α} (h : a ∈ l) :
    (l.erase a).length < l.length := by
  have := List.length_erase_of_mem h
  have := List.length_pos_of_mem h
  omega

end FileSystem

end RepoSurvey
