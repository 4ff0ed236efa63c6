import RepoSurvey.Toml.Basic

/-!
Building tables. A name is defined once. A header may define a table that so far only the headers
of tables within it implied, and adds to the last table of a list that headers build; what stands
between braces or brackets is complete as it is.
-/

namespace RepoSurvey.Toml

/-- The entries of a table and how it came to be. -/
structure Table where
  origin : Origin
  entries : List (String × Spanned Value)

def Table.toValue (t : Table) : Value := .table t.origin t.entries

/-- A name and the stretch that wrote it. -/
abbrev Key := Spanned String

namespace Table

/-- A table without entries. -/
def empty (origin : Origin) : Table := ⟨origin, []⟩

/-- Gives a name a value, whether or not it had one. -/
def set (t : Table) (name : String) (v : Spanned Value) : Table :=
  if t.entries.any (·.1 == name) then
    { t with entries := t.entries.map fun e => if e.1 == name then (name, v) else e }
  else { t with entries := t.entries ++ [(name, v)] }

def duplicate (name : String) : String := s!"duplicate key {name}"

/-- What is said of a name under which nothing can be added. -/
def complete (name : String) : String := s!"nothing can be added to {name}"

/-- The table to which the entries below a value belong, and how a changed one is put back: a table
itself, or the last one of a growing list. -/
def openTable? (v : Value) : Option (Table × (Table → Value)) :=
  match v with
  | .table .braces _ => none
  | .table origin entries => some (⟨origin, entries⟩, toValue)
  | .list true items =>
    match items.getLast? with
    | some ⟨span, .table origin entries⟩ =>
      some (⟨origin, entries⟩, fun t => .list true (items.dropLast ++ [⟨span, t.toValue⟩]))
    | _ => none
  | _ => none

/-- Changes the table at the end of some names. Tables that are not there yet are made, by dotted
names or by headers. Dotted names do not lead into a table that has a header. -/
def within (dotted : Bool) (names : List Key) (change : Table → Except String Table) (t : Table) :
    Except String Table :=
  match names with
  | [] => change t
  | key :: names =>
    match t.entries.lookup key.value with
    | none => do
      let inner ← within dotted names change (empty (if dotted then .dotted else .implied))
      return t.set key.value ⟨key.span, inner.toValue⟩
    | some ⟨span, v⟩ =>
      match openTable? v with
      | none => .error (complete key.value)
      | some (inner, putBack) =>
        let closed : Bool := match v with
          | .table .header _ => dotted
          | _ => false
        if closed then .error (duplicate key.value)
        else do
          let inner ← within dotted names change inner
          return t.set key.value ⟨span, putBack inner⟩

def define (key : Key) (v : Spanned Value) (t : Table) : Except String Table :=
  if (t.entries.lookup key.value).isSome then .error (duplicate key.value)
  else .ok (t.set key.value v)

/-- Defines a dotted name of a table: all names before the last one are those of tables, which
dotted names alone have made. -/
def defineDotted (names : List Key) (key : Key) (v : Spanned Value) (t : Table) :
    Except String Table :=
  match names with
  | [] => define key v t
  | names =>
    within true names
      (fun t => if t.origin = .dotted then define key v t else .error (duplicate key.value)) t

def begin (span : Span) (key : Key) (t : Table) : Except String Table :=
  match t.entries.lookup key.value with
  | none => .ok (t.set key.value ⟨span, (empty .header).toValue⟩)
  | some ⟨_, .table .implied entries⟩ => .ok (t.set key.value ⟨span, .table .header entries⟩)
  | some _ => .error (duplicate key.value)

def beginItem (span : Span) (key : Key) (t : Table) : Except String Table :=
  let item : Spanned Value := ⟨span, (empty .header).toValue⟩
  match t.entries.lookup key.value with
  | none => .ok (t.set key.value ⟨span, .list true [item]⟩)
  | some ⟨span, .list true items⟩ => .ok (t.set key.value ⟨span, .list true (items ++ [item])⟩)
  | some _ => .error (duplicate key.value)

end Table

end RepoSurvey.Toml
