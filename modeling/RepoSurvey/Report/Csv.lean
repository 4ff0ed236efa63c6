import RepoSurvey.Failure
import RepoSurvey.Graph.Basic

/-!
Tables of comma-separated values: the edges of a graph as a table of a header and one record an edge,
each on a line, and the reading of tables.
-/

namespace RepoSurvey.Csv

/-! ### Writing -/

/-- Whether a character can stand in a field only between quotation marks. -/
def isSpecial (c : Char) : Bool := c == ',' || c == '"' || c == '\r' || c == '\n'

/-- A field as it is written: as it is, or between quotation marks with those inside it doubled. -/
def field (s : String) : List Char :=
  if s.toList.any isSpecial then
    '"' :: s.toList.flatMap (fun c => if c = '"' then ['"', '"'] else [c]) ++ ['"']
  else s.toList

def recordLine (a b : String) : List Char := field a ++ ',' :: field b ++ ['\n']

def ofGraph (g : Graph) : String :=
  String.ofList (recordLine "source" "target"
    ++ g.edges.flatMap fun e => recordLine e.source e.target)

/-! ### Reading -/

/-- A place in a table. -/
structure Place where
  line : Nat
  byte : Nat
  deriving Repr, DecidableEq

def Place.after (p : Place) (c : Char) : Place :=
  ⟨if c = '\n' then p.line + 1 else p.line, p.byte + c.utf8Size⟩

/-- A record of a table and the place at which it begins. -/
structure Record where
  place : Place
  fields : List String
  deriving Repr, DecidableEq

/-- The records of a table. `field` is the open field, backwards, `fields` are the fields before it,
`start` is the place of their record and `here` the place reached. -/
def scan (inQuotes : Bool) (field : List Char) (fields : List String) (start here : Place) :
    List Char → List Record
  | [] =>
    if field.isEmpty && fields.isEmpty then []
    else [⟨start, fields ++ [String.ofList field.reverse]⟩]
  | '"' :: '"' :: rest =>
    if inQuotes then scan true ('"' :: field) fields start ((here.after '"').after '"') rest
    else scan true field fields start (here.after '"') ('"' :: rest)
  | c :: rest =>
    let next := here.after c
    if c = '"' then scan (!inQuotes) field fields start next rest
    else if inQuotes then scan true (c :: field) fields start next rest
    else if c = ',' then
      scan false [] (fields ++ [String.ofList field.reverse]) start next rest
    else if c = '\n' then
      ⟨start, fields ++ [String.ofList field.reverse]⟩ :: scan false [] [] next next rest
    else scan false (c :: field) fields start next rest

/-- Refuses a record, numbered from `index`, that has more or fewer fields than the one before. -/
def checkWidths (index width : Nat) : List Record → Except String Unit
  | [] => .ok ()
  | r :: rest =>
    if r.fields.length = width then checkWidths (index + 1) width rest
    else
      .error (s!"CSV error: record {index} (line: {r.place.line}, byte: {r.place.byte}): " ++
        s!"found record with {r.fields.length} fields, " ++
        s!"but the previous record has {width} fields")

/-- The records of a table, all of which have the same number of fields. -/
def read (input : String) : Except Failure (List (List String)) :=
  let records := scan false [] [] ⟨1, 0⟩ ⟨1, 0⟩ input.toList
  match records with
  | [] => .ok []
  | r :: rest =>
    match checkWidths 1 r.fields.length rest with
    | .error message => .error (.csv message)
    | .ok () => .ok (records.map Record.fields)

end RepoSurvey.Csv
