import RepoSurvey.Json.Skip
import RepoSurvey.Text.Quoted

/-!
Reading values of a known shape. A document grammar gives every kind of value its shape, and the
reader goes through the text from left to right, so that of several faults the first one counts.
A record may be written with the names of its fields or as the list of their values.
-/

namespace RepoSurvey.Json

/-- What becomes of a field that is not there. -/
inductive Presence where
  | required
  /-- It may be `null`, which it also is when a record does not name it. -/
  | nullable
  /-- It may be `null`, which it also is when a record does not name or list it. -/
  | optional
  deriving Repr, DecidableEq

/-- A field of a record: its name, whether it must be there, and the kind of its value. -/
structure Field (κ : Type) where
  name : String
  presence : Presence
  kind : κ
  deriving Repr

/-- A record of a fixed set of fields. -/
structure RecordShape (κ : Type) where
  name : String
  fields : List (Field κ)
  /-- Whether a name that no field has is refused; otherwise its value is passed over. -/
  closed : Bool
  /-- What a whole record has to satisfy: `none`, or what is said when it does not. -/
  check : List (String × Json) → Option String

/-- The names of the entries of a map. -/
inductive NameShape where
  | any
  | oneOf (words : List String)
  deriving Repr

/-- The shape of a kind of value, in a document of kinds `κ`. -/
inductive Shape (κ : Type) where
  | anything
  | text
  /-- A text that stands for a value: what is expected, and the reader, which gives the value or
  says why there is none. -/
  | coded (expected : String) (decode : String → Except String Json)
  /-- A whole number below a bound; the name says which. -/
  | natural (name : String) (bound : Nat)
  | choice (words : List String)
  | list (item : κ)
  | map (names : NameShape) (value : κ)
  | record (shape : RecordShape κ)

/-- Words in a row between backquotes, as a refusal lists them. -/
def listWords : List String → String
  | [] => ""
  | [w] => s!"`{w}`"
  | [v, w] => s!"`{v}` or `{w}`"
  | ws => "one of " ++ ", ".intercalate (ws.map fun w => s!"`{w}`")

def unknownWord (what word : String) (words : List String) : String :=
  s!"unknown {what} `{word}`, expected {listWords words}"

def typeName : Json → String
  | .null => "null"
  | .bool b => s!"boolean `{b}`"
  | .integer n => s!"integer `{n}`"
  | .real x => s!"floating point `{Shortest.text true x}`"
  | .text s => s!"string {Text.quoted s}"
  | .list _ => "sequence"
  | .record _ => "map"

def wrongType (v : Json) (expected : String) : String :=
  s!"invalid type: {typeName v}, expected {expected}"

/-- A value that has no parts, or the bracket of one that has. -/
def readPlain (cs : List Char) : Except Fault (Json × List Char) :=
  match cs with
  | 'n' :: rest => do return (.null, ← readWord ['u', 'l', 'l'] rest)
  | 't' :: rest => do return (.bool true, ← readWord ['r', 'u', 'e'] rest)
  | 'f' :: rest => do return (.bool false, ← readWord ['a', 'l', 's', 'e'] rest)
  | '-' :: rest => readNumber true rest
  | '"' :: rest => (readQuoted rest).map fun (s, rest) => (.text (String.ofList s), rest)
  | '[' :: rest => .ok (.list [], '[' :: rest)
  | '{' :: rest => .ok (.record [], '{' :: rest)
  | c :: rest =>
    if c.isDigit then readNumber false (c :: rest) else .error (.next "expected value" (c :: rest))
  | [] => .error (.next "expected value" [])

/-- The fault of a value that is not of the expected type. -/
def typeFault (expected : String) (cs : List Char) : Fault :=
  match readPlain cs with
  | .ok (v, rest) => .here (wrongType v expected) rest
  | .error e => e

def readClosing (bracket : Bracket) (cs : List Char) : Except Fault (List Char) :=
  match skipGap cs with
  | [] => .error (.next bracket.endFault [])
  | c :: rest =>
    if c = bracket.closing then .ok rest
    else if c = ',' then
      match bracket, skipGap rest with
      | .list, ']' :: rest => .error (.next "trailing comma" (']' :: rest))
      | .list, rest => .error (.next "trailing characters" rest)
      | .record, _ => .error (.next "trailing comma" (c :: rest))
    else .error (.next "trailing characters" (c :: rest))

/-- What is left unread of a bracket after a fault in it: its end is looked for once. -/
def afterClosing (bracket : Bracket) (cs : List Char) : List Char :=
  match readClosing bracket cs with
  | .ok rest => rest
  | .error _ =>
    match bracket, skipGap cs with
    | .list, ',' :: rest => skipGap rest
    | _, rest => rest

def bracketFault (bracket : Bracket) (message : String) (cs : List Char) : Fault :=
  .here message (afterClosing bracket cs)

/-- The head of the next item of a list, or `none` at its end. -/
def nextItem? (first : Bool) (cs : List Char) : Except Fault (Option (List Char)) :=
  match skipGap cs with
  | [] => .error (.next "EOF while parsing a list" [])
  | ']' :: _ => .ok none
  | c :: rest =>
    if first then .ok (some (c :: rest))
    else if c = ',' then
      match skipGap rest with
      | [] => .error (.next "EOF while parsing a value" [])
      | ']' :: rest => .error (.next "trailing comma" (']' :: rest))
      | rest => .ok (some rest)
    else .error (.next "expected `,` or `]`" (c :: rest))

/-- The name of the next field of a record and what follows its quotation marks, or `none` at the
end of the record. -/
def nextName? (first : Bool) (cs : List Char) : Except Fault (Option (String × List Char)) :=
  let name (rest : List Char) : Except Fault (Option (String × List Char)) :=
    (readQuoted rest).map fun (s, rest) => some (String.ofList s, rest)
  match skipGap cs with
  | [] => .error (.next "EOF while parsing an object" [])
  | '}' :: _ => .ok none
  | c :: rest =>
    if first then
      if c = '"' then name rest else .error (.next "key must be a string" (c :: rest))
    else if c = ',' then
      match skipGap rest with
      | [] => .error (.next "EOF while parsing a value" [])
      | '"' :: rest => name rest
      | '}' :: rest => .error (.next "trailing comma" ('}' :: rest))
      | rest => .error (.next "key must be a string" rest)
    else .error (.next "expected `,` or `\x7d`" (c :: rest))

def readColon (cs : List Char) : Except Fault (List Char) :=
  match skipGap cs with
  | [] => .error (.next "EOF while parsing an object" [])
  | ':' :: rest => .ok rest
  | rest => .error (.next "expected `:`" rest)

def shorter {α : Type} (cs rest : List Char) (next : rest.length < cs.length → Except Fault α) :
    Except Fault α :=
  if h : rest.length < cs.length then next h else .error (.here "expected value" rest)

/-- The items of a list after its opening bracket, up to the closing one. -/
def readItems (item : Reader Json) (first : Bool) (cs : List Char) :
    Except Fault (List Json × List Char) :=
  match nextItem? first cs with
  | .error e => .error e
  | .ok none => .ok ([], skipGap cs)
  | .ok (some head) =>
    match item head with
    | .error e => .error e
    | .ok (v, rest) =>
      shorter cs rest fun _ =>
        (readItems item false rest).map fun (vs, rest) => (v :: vs, rest)
termination_by cs.length

/-- Puts an entry into a map: an entry of the same name gives up its place to it. -/
def setEntry (name : String) (value : Json) : List (String × Json) → List (String × Json)
  | [] => [(name, value)]
  | (n, v) :: rest => if n = name then (n, value) :: rest else (n, v) :: setEntry name value rest

def NameShape.refusal? : NameShape → String → Option String
  | any, _ => none
  | oneOf words, name => if name ∈ words then none else some (unknownWord "variant" name words)

/-- The entries of a map after its opening bracket, up to the closing one. -/
def readEntries (names : NameShape) (value : Reader Json) (first : Bool)
    (entries : List (String × Json)) (cs : List Char) :
    Except Fault (List (String × Json) × List Char) :=
  match nextName? first cs with
  | .error e => .error e
  | .ok none => .ok (entries, skipGap cs)
  | .ok (some (name, rest)) =>
    match names.refusal? name with
    | some message => .error (.here message rest)
    | none =>
      match readColon rest >>= value with
      | .error e => .error e
      | .ok (v, rest) =>
        shorter cs rest fun _ =>
          readEntries names value false (setEntry name v entries) rest
termination_by cs.length

/-- A value of a field, which may be `null` unless the field is required. -/
def readFieldValue {κ : Type} (value : κ → Reader Json) (f : Field κ) : Reader Json := fun cs =>
  match f.presence, skipGap cs with
  | .required, _ => value f.kind cs
  | _, 'n' :: rest => (readWord ['u', 'l', 'l'] rest).map fun rest => (.null, rest)
  | _, _ => value f.kind cs

/-- The named fields of a record after its opening bracket, up to the closing one. -/
def readFields {κ : Type} (shape : RecordShape κ) (value : κ → Reader Json) (first : Bool)
    (seen : List (String × Json)) (cs : List Char) :
    Except Fault (List (String × Json) × List Char) :=
  match nextName? first cs with
  | .error e => .error e
  | .ok none => .ok (seen, skipGap cs)
  | .ok (some (name, rest)) =>
    match shape.fields.find? (·.name == name) with
    | none =>
      if shape.closed then
        .error (bracketFault .record
          (unknownWord "field" name (shape.fields.map Field.name)) rest)
      else
        match readColon rest >>= skipValue with
        | .error e => .error e
        | .ok rest => shorter cs rest fun _ => readFields shape value false seen rest
    | some f =>
      if (seen.lookup name).isSome then
        .error (bracketFault .record s!"duplicate field `{name}`" rest)
      else
        match readColon rest >>= readFieldValue value f with
        | .error e => .error e
        | .ok (v, rest) =>
          shorter cs rest fun _ => readFields shape value false ((name, v) :: seen) rest
termination_by cs.length

/-- The fields of a record in their order, or the name of the first one that is missing. -/
def complete {κ : Type} (seen : List (String × Json)) :
    List (Field κ) → Except String (List (String × Json))
  | [] => .ok []
  | f :: rest =>
    match seen.lookup f.name, f.presence with
    | some v, _ => (complete seen rest).map ((f.name, v) :: ·)
    | none, .required => .error f.name
    | none, _ => (complete seen rest).map ((f.name, .null) :: ·)

/-- The values of the fields of a record, listed in their order. The error says how many there
were when there are too few. -/
def readListed {κ : Type} (value : κ → Reader Json) (index : Nat) :
    List (Field κ) → List Char → Except Fault ((Except Nat (List (String × Json))) × List Char)
  | [], cs => .ok (.ok [], cs)
  | f :: rest, cs =>
    match nextItem? (index == 0) cs with
    | .error e => .error e
    | .ok none =>
      if f.presence = .optional then
        (readListed value index rest cs).map fun (fs, cs) => (fs.map ((f.name, .null) :: ·), cs)
      else .ok (.error index, cs)
    | .ok (some head) =>
      match readFieldValue value f head with
      | .error e => .error e
      | .ok (v, cs) =>
        (readListed value (index + 1) rest cs).map fun (fs, cs) => (fs.map ((f.name, v) :: ·), cs)

def RecordShape.expected {κ : Type} (shape : RecordShape κ) : String := s!"struct {shape.name}"

def RecordShape.expectedList {κ : Type} (shape : RecordShape κ) : String :=
  if shape.closed then shape.expected else s!"{shape.expected} with {shape.fields.length} elements"

/-- The end of a record that has been read, which has to pass the check. -/
def finishRecord {κ : Type} (shape : RecordShape κ) (bracket : Bracket)
    (fields : List (String × Json)) (cs : List Char) : Except Fault (Json × List Char) :=
  match shape.check fields with
  | some message => .error (bracketFault bracket message cs)
  | none => (readClosing bracket cs).map fun rest => (.record fields, rest)

def readRecord {κ : Type} (shape : RecordShape κ) (value : κ → Reader Json) (bracket : Bracket) :
    Reader Json := fun cs =>
  match bracket with
  | .record =>
    match readFields shape value true [] cs with
    | .error e => .error e
    | .ok (seen, cs) =>
      match complete seen shape.fields with
      | .error name => .error (bracketFault .record s!"missing field `{name}`" cs)
      | .ok fields => finishRecord shape .record fields cs
  | .list =>
    match readListed value 0 shape.fields cs with
    | .error e => .error e
    | .ok (.error count, cs) =>
      .error (bracketFault .list s!"invalid length {count}, expected {shape.expectedList}" cs)
    | .ok (.ok fields, cs) => finishRecord shape .list fields cs

/-- One of some words, after its opening quotation mark. -/
def readChoice (words : List String) : Reader Json := fun cs =>
  match readQuoted cs with
  | .error e => .error e
  | .ok (s, rest) =>
    let word := String.ofList s
    if word ∈ words then .ok (.text word, rest)
    else .error (.here (unknownWord "variant" word words) rest)

/-- A word that is written as the only name of a record, after the opening bracket. -/
def readChoiceRecord (words : List String) : Reader Json := fun cs =>
  match skipGap cs with
  | [] => .error (.next "EOF while parsing a value" [])
  | '"' :: rest => do
    let (word, rest) ← readChoice words rest
    let rest ← readColon rest
    match skipGap rest with
    | [] => .error (.next "EOF while parsing a value" [])
    | 'n' :: rest =>
      match skipGap (← readWord ['u', 'l', 'l'] rest) with
      | '}' :: rest => .ok (word, rest)
      | [] => .error (.here "EOF while parsing an object" [])
      | rest => .error (.here "expected value" rest)
    | rest => .error (typeFault "unit" rest)
  | rest => .error (typeFault "variant identifier" rest)

/-- What is said when brackets nest too deeply. -/
def depthFault (cs : List Char) : Fault := .next "recursion limit exceeded" cs

/-- A value of a kind. Brackets may still nest `levels` deep. -/
def readKind {κ : Type} (shapeOf : κ → Shape κ) (levels : Nat) (kind : κ) : Reader Json := fun cs =>
  match skipGap cs with
  | [] => .error (.next "EOF while parsing a value" [])
  | c :: rest =>
    let cs := c :: rest
    match shapeOf kind with
    | .text =>
      if c = '"' then readPlain cs else .error (typeFault "a string" cs)
    | .coded expected decode =>
      if c = '"' then
        match readQuoted rest with
        | .error e => .error e
        | .ok (s, rest) =>
          match decode (String.ofList s) with
          | .ok v => .ok (v, rest)
          | .error message => .error (.here message rest)
      else .error (typeFault expected cs)
    | .natural name bound =>
      if c = '-' ∨ c.isDigit then
        match readPlain cs with
        | .error e => .error e
        | .ok (.integer n, rest) =>
          if 0 ≤ n ∧ n < bound then .ok (.integer n, rest)
          else .error (.here s!"invalid value: {typeName (.integer n)}, expected {name}" rest)
        | .ok (v, rest) => .error (.here (wrongType v name) rest)
      else .error (typeFault name cs)
    | .choice words =>
      if c = '"' then readChoice words rest
      else if c = '{' then
        match levels with
        | 0 => .error (depthFault cs)
        | _ + 1 => readChoiceRecord words rest
      else .error (.next "expected value" cs)
    | .list item =>
      if c = '[' then
        match levels with
        | 0 => .error (depthFault cs)
        | n + 1 => do
          let (items, rest) ← readItems (readKind shapeOf n item) true rest
          return (.list items, ← readClosing .list rest)
      else .error (typeFault "a sequence" cs)
    | .map names value =>
      if c = '{' then
        match levels with
        | 0 => .error (depthFault cs)
        | n + 1 => do
          let (entries, rest) ← readEntries names (readKind shapeOf n value) true [] rest
          return (.record entries, ← readClosing .record rest)
      else .error (typeFault "a map" cs)
    | .record shape =>
      if c = '{' ∨ c = '[' then
        match levels with
        | 0 => .error (depthFault cs)
        | n + 1 =>
          readRecord shape (readKind shapeOf n) (if c = '{' then .record else .list) rest
      else .error (typeFault shape.expected cs)
    | .anything =>
      if c = '[' then
        match levels with
        | 0 => .error (depthFault cs)
        | n + 1 => do
          let (items, rest) ← readItems (readKind shapeOf n kind) true rest
          return (.list items, ← readClosing .list rest)
      else if c = '{' then
        match levels with
        | 0 => .error (depthFault cs)
        | n + 1 => do
          let (entries, rest) ← readEntries .any (readKind shapeOf n kind) true [] rest
          return (.record entries, ← readClosing .record rest)
      else readPlain cs

/-- How deep brackets may nest. -/
def nestingLimit : Nat := 127

/-- The value of a kind that a whole text writes, or what is wrong with the text. -/
def readDocument {κ : Type} (shapeOf : κ → Shape κ) (kind : κ) (input : String) :
    Except String Json :=
  match readKind shapeOf nestingLimit kind input.toList with
  | .error e => .error (e.inText input)
  | .ok (v, rest) =>
    match skipGap rest with
    | [] => .ok v
    | rest => .error ((Fault.next "trailing characters" rest).inText input)

/-- The value that a text writes, of whatever shape. -/
def readAny (input : String) : Except String Json :=
  readDocument (fun () => .anything) () input

end RepoSurvey.Json
