import RepoSurvey.Toml.Quoted
import RepoSurvey.Toml.Scalar
import RepoSurvey.Toml.Table

/-!
Documents of the format of configuration files: values with parts, and lines that define names or
begin tables. The table that a document writes holds all of its values.
-/

namespace RepoSurvey.Toml

/-- A text without the blanks of a line at its head. -/
def skipSpace (cs : List Char) : List Char := cs.dropWhile isSpace

/-- What follows a comment at the head of a text: a line end, or nothing. -/
def afterComment (cs : List Char) : Except Fault (List Char) :=
  match cs with
  | '#' :: rest =>
    let rest := rest.dropWhile isPlain
    if rest.isEmpty ∨ (afterLineEnd? rest).isSome then .ok rest
    else .error ⟨"no such character in a comment", rest⟩
  | cs => .ok cs

/-- A text without the blanks, line ends and comments at its head, of which it has at most so many
lines. -/
def skipLines : (lines : Nat) → List Char → Except Fault (List Char)
  | 0, cs => .ok cs
  | lines + 1, cs => do
    let rest ← afterComment (skipSpace cs)
    match afterLineEnd? rest with
    | some rest => skipLines lines rest
    | none => .ok rest

/-- A text without the blanks, line ends and comments at its head. -/
def skipGap (cs : List Char) : Except Fault (List Char) := skipLines (cs.length + 1) cs

/-- Whether a character may stand in a name that is not quoted. -/
def isNameChar (c : Char) : Bool := c.isAlphanum || c == '_' || c == '-'

def spanOf (cs rest : List Char) : Span := ⟨cs.length, rest.length⟩

/-- A name, quoted or not. -/
def readName : Reader Key := fun cs =>
  match cs with
  | '"' :: rest =>
    (readLine true '"' rest).map fun (s, rest) => (⟨spanOf cs rest, String.ofList s⟩, rest)
  | '\'' :: rest =>
    (readLine false '\'' rest).map fun (s, rest) => (⟨spanOf cs rest, String.ofList s⟩, rest)
  | cs =>
    match cs.takeWhile isNameChar with
    | [] => .error ⟨"a name is expected", cs⟩
    | name =>
      let rest := cs.dropWhile isNameChar
      .ok (⟨spanOf cs rest, String.ofList name⟩, rest)

/-- Names with dots between them: those before the last one, and the last one. There are at most
`bound` of them. -/
def readNames : (bound : Nat) → Reader (List Key × Key)
  | 0, cs => .error ⟨"a name is expected", cs⟩
  | bound + 1, cs => do
    let (key, rest) ← readName (skipSpace cs)
    match skipSpace rest with
    | '.' :: rest =>
      let ((names, last), rest) ← readNames bound rest
      return ((key :: names, last), rest)
    | _ => return (([], key), rest)

def readPath : Reader (List Key × Key) := fun cs => readNames (cs.length + 1) cs

def shorter {α : Type} (cs rest : List Char) (next : rest.length < cs.length → Except Fault α) :
    Except Fault α :=
  if h : rest.length < cs.length then next h else .error ⟨"a value is expected", rest⟩

def expect (sign : Char) (cs : List Char) : Except Fault (List Char) :=
  match cs with
  | c :: rest => if c = sign then .ok rest else .error ⟨s!"{sign} is expected", cs⟩
  | [] => .error ⟨s!"{sign} is expected", []⟩

/-- The items of a list after its opening bracket, through the closing one. A comma may follow the
last one. -/
def readItems (value : Reader (Spanned Value)) (cs : List Char) :
    Except Fault (List (Spanned Value) × List Char) :=
  match skipGap cs with
  | .error e => .error e
  | .ok (']' :: rest) => .ok ([], rest)
  | .ok head =>
    match value head with
    | .error e => .error e
    | .ok (v, rest) =>
      match skipGap rest with
      | .error e => .error e
      | .ok (',' :: rest) =>
        shorter cs rest fun _ =>
          (readItems value rest).map fun (vs, rest) => (v :: vs, rest)
      | .ok rest => (expect ']' rest).map fun rest => ([v], rest)
termination_by cs.length

/-- A name and its value, put into a table. -/
def readDefinition (value : Reader (Spanned Value))
    (define : List Key → Key → Spanned Value → Table → Except String Table) (t : Table) :
    Reader Table := fun cs => do
  let ((names, key), rest) ← readPath cs
  let rest ← expect '=' (skipSpace rest)
  let (v, rest) ← value (skipSpace rest)
  match define names key v t with
  | .ok t => .ok (t, rest)
  | .error message => .error ⟨message, cs⟩

/-- The entries of a table after its opening brace, through the closing one. A comma may follow the
last one. -/
def readBraces (value : Reader (Spanned Value)) (t : Table) (cs : List Char) :
    Except Fault (Table × List Char) :=
  match skipGap cs with
  | .error e => .error e
  | .ok ('\x7d' :: rest) => .ok (t, rest)
  | .ok head =>
    match readDefinition value Table.defineDotted t head with
    | .error e => .error e
    | .ok (t, rest) =>
      match skipGap rest with
      | .error e => .error e
      | .ok (',' :: rest) => shorter cs rest fun _ => readBraces value t rest
      | .ok rest => (expect '\x7d' rest).map fun rest => (t, rest)
termination_by cs.length

/-- A value. Brackets and braces may still nest `levels` deep. -/
def readValue (levels : Nat) : Reader (Spanned Value) := fun cs =>
  let whole (v : Value) (rest : List Char) : Spanned Value × List Char := (⟨spanOf cs rest, v⟩, rest)
  match cs with
  | '"' :: _ | '\'' :: _ =>
    (readText cs).map fun (s, rest) => whole (.text (String.ofList s)) rest
  | '[' :: rest =>
    match levels with
    | 0 => .error ⟨"the value nests too deeply", cs⟩
    | n + 1 => (readItems (readValue n) rest).map fun (vs, rest) => whole (.list false vs) rest
  | '\x7b' :: rest =>
    match levels with
    | 0 => .error ⟨"the value nests too deeply", cs⟩
    | n + 1 =>
      (readBraces (readValue n) (.empty .braces) rest).map fun (t, rest) => whole t.toValue rest
  | cs =>
    let (run, rest) := runOf cs
    match scalar? run with
    | some v => .ok (whole v rest)
    | none => .error ⟨"no such value", cs⟩

/-- How deep brackets and braces may nest. -/
def nestingLimit : Nat := 80

/-! ### Lines -/

/-- A document that is being read: its values so far, and the names of the table to which the next
line adds. -/
structure Draft where
  root : Table
  header : List Key

/-- A document without lines. -/
def Draft.empty : Draft := ⟨.empty .header, []⟩

def readStatement (d : Draft) : Reader Draft := fun cs =>
  let started (list : Bool) (rest : List Char) : Except Fault (Draft × List Char) := do
    let ((names, key), rest) ← readPath rest
    let rest ← expect ']' (skipSpace rest)
    let rest ← if list then expect ']' rest else .ok rest
    let span := spanOf cs rest
    match Table.within false names
        (if list then Table.beginItem span key else Table.begin span key) d.root with
    | .ok root => .ok (⟨root, names ++ [key]⟩, rest)
    | .error message => .error ⟨message, cs⟩
  match cs with
  | '[' :: '[' :: rest => started true rest
  | '[' :: rest => started false rest
  | cs => do
    let (root, rest) ← readDefinition (readValue nestingLimit)
      (fun names key v => Table.within false d.header (Table.defineDotted names key v)) d.root cs
    return (⟨root, d.header⟩, rest)

def readStatements (d : Draft) (cs : List Char) : Except Fault Table :=
  match skipGap cs with
  | .error e => .error e
  | .ok [] => .ok d.root
  | .ok head =>
    match readStatement d head with
    | .error e => .error e
    | .ok (d, rest) =>
      match afterComment (skipSpace rest) with
      | .error e => .error e
      | .ok [] => .ok d.root
      | .ok rest =>
        match afterLineEnd? rest with
        | some rest => shorter cs rest fun _ => readStatements d rest
        | none => .error ⟨"the line goes on", rest⟩
termination_by cs.length

/-- The table that a document writes. A byte order mark at its start is passed over. -/
def read (input : String) : Except Fault Table :=
  match input.toList with
  | '\ufeff' :: cs => readStatements .empty cs
  | cs => readStatements .empty cs

end RepoSurvey.Toml
