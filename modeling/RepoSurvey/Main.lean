import RepoSurvey.Command.Basic
import Std.Time.DateTime.Timestamp

/-!
The program as it is called from a shell. What it needs of the file system is looked at first, the
call is carried out on that snapshot, and what the call has changed is written.
-/

namespace RepoSurvey

/-- Runs an action of which a failure counts as nothing. -/
def attempt {α : Type} (act : IO α) : IO (Option α) :=
  try
    return some (← act)
  catch _ =>
    return none

def ioErrorOf : IO.Error → IoError
  | .noFileOrDirectory .. => .noEntry
  | .permissionDenied .. => .system 13
  | e => .described .other (some (toString e))

/-- What a file holds, or why it cannot be read. -/
def contentAt (path : String) : IO (Except IoError (List UInt8)) := do
  try
    return .ok (← IO.FS.readBinFile path).toList
  catch e =>
    return .error (ioErrorOf e)

def deadTarget : Path := Path.ofString "/nowhere/to/be/found"

/-- The entry at a path as it stands there, a directory without what it holds. -/
def entryAt (path : String) (content : Bool) : IO (Option Entry) := do
  match ← attempt ((← IO.currentDir) / path).symlinkMetadata with
  | none => return none
  | some data =>
    match data.type with
    | .dir => return some (.directory [])
    | .file =>
      if content then return some (.file (← contentAt path)) else return some (.file (.ok []))
    | .symlink =>
      match ← attempt (IO.FS.realPath path) with
      | none => return some (.link deadTarget)
      | some real => return some (.link (Path.ofString real.toString))
    | .other => return some .special

def isReadable (name : String) : Bool :=
  Language.isSourceExtension (Path.ofString name).extension

/-- The entries of a directory as they stand there, or why they cannot be listed. -/
def namesAt (directory : String) : IO (Except IoError (Array IO.FS.DirEntry)) := do
  try
    return .ok (← (← IO.FS.realPath directory).readDir)
  catch e =>
    return .error (ioErrorOf e)

/-- A directory with what it holds, and what the directories in it hold that are not left out. The real
paths of all links that are met are collected. -/
partial def directoryAt (scope : Scope) (directory : String) : StateT (List String) IO Entry := do
  match ← namesAt directory with
  | .error e => return .directory [] (some e)
  | .ok found =>
    let mut entries := []
    for e in found do
      let name := e.fileName
      let path := directory ++ "/" ++ name
      match ← entryAt path (isReadable name) with
      | none => pure ()
      | some (.directory _ _) =>
        let inner ← if scope.excludesName name then pure (.directory []) else directoryAt scope path
        entries := (Path.ofString name, inner) :: entries
      | some (.link target) =>
        unless scope.excludesName name do modify (target.shown :: ·)
        entries := (Path.ofString name, .link target) :: entries
      | some entry => entries := (Path.ofString name, entry) :: entries
    return .directory entries.reverse

/-- Puts the entry at a path into a snapshot, under the real path of the directory that holds it. -/
def learnEntry (fs : FileSystem) (path : String) : IO FileSystem := do
  match ← entryAt path true with
  | none => return fs
  | some (.directory _ _) =>
    match ← attempt (IO.FS.realPath path) with
    | none => return fs
    | some real => return (fs.addDirectories (Path.ofString real.toString)).1
  | some entry =>
    let whole := (← IO.currentDir) / path
    match whole.parent, whole.fileName with
    | some parent, some name =>
      match ← attempt (IO.FS.realPath parent) with
      | none => return fs
      | some real =>
        let holder := Path.ofString real.toString
        return (fs.addDirectories holder).1.set (holder.names ++ [Path.ofString name]) entry
    | _, _ => return fs

/-- The paths that begin a path, the whole of it last. -/
def beginnings (path : Path) : List String :=
  (List.range (path.length + 1)).filterMap fun n =>
    let here : Bool := path[n]? = some solidus || n = path.length
    if 0 < n ∧ here then some (Path.shown (path.take n)) else none

/-- Puts everything on the way of a path into a snapshot, and what its links lead to. -/
def learn (fs : FileSystem) (path : Path) : IO FileSystem := do
  let mut fs := fs
  for p in beginnings path do
    fs ← learnEntry fs p
    match ← attempt (IO.FS.realPath p) with
    | some real => fs ← learnEntry fs real.toString
    | none => pure ()
  return fs

/-- Puts all that is in a directory into a snapshot, and all that links in it lead to, as long as
there is something new. -/
partial def explore (scope : Scope) (fs : FileSystem) (seen pending : List String) :
    IO FileSystem := do
  match pending with
  | [] => return fs
  | path :: rest =>
    if seen.any fun s => path = s || path.startsWith (s ++ "/") then explore scope fs seen rest
    else
      let fs ← learn fs (Path.ofString path)
      if fs.isDirectory (Path.ofString path) then
        let (entry, links) ← (directoryAt scope path).run []
        let fs := fs.set (Path.ofString path).names entry
        explore scope fs (path :: seen) (links ++ rest)
      else explore scope fs seen rest

def hereAlone : IO FileSystem := do
  let here := Path.ofString (← IO.FS.realPath ".").toString
  let fs : FileSystem := { entries := [], current := here.names }
  return (fs.addDirectories here).1

def variablesThatMatter : IO Environment := do
  let names := ["HOME", "XDG_CONFIG_HOME"]
    ++ Environment.settingNames.map fun n => environmentWord ++ "_" ++ n
  let mut found := []
  for name in names do
    match ← IO.getEnv name with
    | some text => found := (name, text) :: found
    | none => pure ()
  return found

/-- The number of the user who runs the program. -/
def userNumber : IO (Option String) := do
  match ← attempt (IO.FS.lines "/proc/self/status") with
  | none => return none
  | some lines =>
    let words := lines.toList.map fun line => line.splitToList (·.isWhitespace)
    return (words.find? fun ws => ws.head? = some "Uid:").bind (·[1]?)

/-- The home directory that the accounts of the system name for the user. -/
def homeOnRecord : IO (Option Path) := do
  match ← userNumber, ← attempt (IO.FS.lines "/etc/passwd") with
  | some user, some lines =>
    let accounts := lines.toList.map fun line => line.splitToList (· == ':')
    let home? := (accounts.find? fun fields => fields[2]? = some user).bind (·[5]?)
    return (home?.filter (· ≠ "")).map Path.ofString
  | _, _ => return none

def presentMoment : IO Moment := do
  let stamp ← Std.Time.Timestamp.now
  let seconds := stamp.toSecondsSinceUnixEpoch.val
  return ⟨seconds / 86400, (seconds % 86400).toNat, stamp.val.nano.val.toNat⟩

def lookAround (a : Arguments) : IO Machine := do
  let environment ← variablesThatMatter
  let mut m : Machine :=
    { files := ← hereAlone, environment, recordedHome := ← homeOnRecord, now := ← presentMoment }
  for p in a.path.toList ++ a.config.toList ++ m.configLocations do
    m := { m with files := ← learn m.files p }
  match m.layered environmentWord a with
  | .error _ => pure ()
  | .ok l =>
    let s := l.settings
    for p in s.scanPath :: (s.outputFile.toList ++ s.dotFile.toList) do
      m := { m with files := ← learn m.files p }
  return m

/-- Looks at the repository that settings name, and once more at the files that the call reads or
writes itself. -/
def lookInside (m : Machine) (s : Settings) (paths : List Path) : IO Machine := do
  let begun ← IO.monoNanosNow
  match ← attempt (IO.FS.realPath s.scanPath.shown) with
  | none => return m
  | some real =>
    let mut files ← explore s.scope m.files [] [real.toString]
    for p in paths do
      files ← learn files p
    return { m with files, elapsed := .ofParts 0 ((← IO.monoNanosNow) - begun) }

def writeBack (before after : FileSystem) (paths : List Path) : IO Unit := do
  for p in paths do
    match after.read p with
    | .error _ => pure ()
    | .ok new =>
      if (before.read p).toOption ≠ some new then
        match p.parent? with
        | some d => unless d = [] do IO.FS.createDirAll d.shown
        | none => pure ()
        IO.FS.writeBinFile p.shown ⟨new.toArray⟩

def tell (e : Ending) : IO UInt32 := do
  IO.print e.world.printed
  IO.eprint e.complaint
  return e.status.toUInt32

def carryOut (a : Arguments) : IO UInt32 := do
  let m ← lookAround a
  let c := Command.ofArguments a
  match c, m.load environmentWord a with
  | .init path, _ =>
    let e := c.run m
    writeBack m.files e.world.files [path.getD configFileName]
    tell e
  | .analyze _, .error _ => tell (c.run m)
  | .analyze _, .ok s =>
    let written := s.outputFile.toList ++ s.dotFile.toList
    let m ← lookInside m s (a.config.toList ++ m.configLocations ++ written)
    let e := c.run m
    writeBack m.files e.world.files written
    tell e

end RepoSurvey

def main (args : List String) : IO UInt32 :=
  match RepoSurvey.Arguments.read args with
  | .ok a => RepoSurvey.carryOut a
  | .error _ => RepoSurvey.tell (RepoSurvey.call { files := { entries := [], current := [] } } args)
