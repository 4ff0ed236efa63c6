import RepoSurvey.Text.Utf8

/-!
Paths: byte strings in which solidi separate names. A path is read as a list of steps, in which
repeated solidi, a solidus at the end and the name `.` anywhere but in front leave no trace.
-/

namespace RepoSurvey

/-- The name of an entry of a directory. -/
abbrev FileName := List UInt8

/-- A path as the file system takes it. -/
abbrev Path := List UInt8

def solidus : UInt8 := 0x2F

def dot : UInt8 := 0x2E

/-- One step of a path. -/
inductive PathStep where
  | top
  | here
  | up
  | name (n : FileName)
  deriving Repr, DecidableEq

def PathStep.written : PathStep → FileName
  | .top => [solidus]
  | .here => [dot]
  | .up => [dot, dot]
  | .name n => n

namespace Path

def ofString (s : String) : Path := Utf8.encode s

def shown (p : Path) : String := Utf8.decodeLossy p

/-- What stands between the solidi of a path, empty stretches too. -/
def segments : Path → List FileName
  | [] => [[]]
  | b :: rest =>
    if b = solidus then [] :: segments rest
    else
      match segments rest with
      | [] => [[b]]
      | s :: more => (b :: s) :: more

def isAbsolute (p : Path) : Bool := p.head? == some solidus

def stepOf? (s : FileName) : Option PathStep :=
  if s = [] ∨ s = [dot] then none
  else if s = [dot, dot] then some .up
  else some (.name s)

def steps (p : Path) : List PathStep :=
  let start : List PathStep :=
    if p.isAbsolute then [.top] else if (segments p).head? = some [dot] then [.here] else []
  start ++ (segments p).filterMap stepOf?

/-- The name of the entry that a path leads to, if it ends in a name. -/
def fileName? (p : Path) : Option FileName :=
  match p.steps.getLast? with
  | some (.name n) => some n
  | _ => none

/-- What follows the last dot of a name, unless no byte stands before that dot. -/
def nameExtension? (n : FileName) : Option FileName :=
  match n.reverse.dropWhile (· != dot) with
  | _ :: _ :: _ => some (n.reverse.takeWhile (· != dot)).reverse
  | _ => none

/-- The extension of the file that a path leads to, with the letters a to z small, or nothing. -/
def extension (p : Path) : String :=
  match p.fileName?.bind nameExtension? with
  | some e => String.ofList ((Utf8.decodeLossy e).toList.map Char.toLower)
  | none => ""

/-- The path of an entry of the directory at `p`; an absolute `entry` stays as it is. -/
def join (p entry : Path) : Path :=
  if entry.isAbsolute then entry
  else if p = [] ∨ p.getLast? = some solidus then p ++ entry
  else p ++ solidus :: entry

/-- Takes trailing solidi off the bytes of a path, which are written backwards, and with them each
dot that stands alone after a solidus. What is left of an absolute path is its first solidus. -/
def trimBack : List UInt8 → List UInt8
  | [] => []
  | [b] => [b]
  | b :: c :: rest =>
    if b = solidus then trimBack (c :: rest)
    else if b = dot ∧ c = solidus then trimBack (c :: rest)
    else b :: c :: rest

/-- The path to the directory that holds the entry at `p`, if `p` has a last step to take away. -/
def parent? (p : Path) : Option Path :=
  match p.steps.getLast? with
  | none | some .top => none
  | some _ => some (trimBack ((trimBack p.reverse).dropWhile (· != solidus))).reverse

/-- What follows the steps `root` at the head of `steps`. -/
def stepsBelow (root steps : List PathStep) : Option (List PathStep) :=
  match root, steps with
  | [], steps => some steps
  | r :: root, s :: steps => if r = s then stepsBelow root steps else none
  | _ :: _, [] => none

/-- The names on the way from `root` to `p`, with a solidus between each two. A path that does not
lie below `root` is written out whole. -/
def relative (root p : Path) : String :=
  let below := (stepsBelow root.steps p.steps).getD p.steps
  "/".intercalate (below.map fun s => Utf8.decodeLossy s.written)

end Path

/-- Whether a character separates the segments of a repository's location. -/
def isLocationSeparator (c : Char) : Bool := c == '/' || c == '\\'

/-- The name of the repository at a location, be it a path or an address: the last segment, less
one `.git` at its end unless that is all of it. -/
def repositoryName (location : String) : String :=
  let backwards := location.toList.reverse.dropWhile isLocationSeparator
  let segment := backwards.takeWhile (!isLocationSeparator ·)
  match segment with
  | 't' :: 'i' :: 'g' :: '.' :: c :: name => String.ofList (c :: name).reverse
  | _ => String.ofList segment.reverse

end RepoSurvey
