/-!
Ledgers: values under names, in the order in which the names were first entered.
-/

namespace RepoSurvey

/-- Values under names. A name is entered once; a later value takes the place of an earlier one. -/
structure Ledger (α : Type) where
  entries : List (String × α)
  deriving Repr, DecidableEq, Inhabited

namespace Ledger

variable {α : Type}

/-- The ledger without entries. -/
def empty : Ledger α := ⟨[]⟩

/-- The names in the order in which they were entered. -/
def keys (l : Ledger α) : List String := l.entries.map Prod.fst

def get? (l : Ledger α) (name : String) : Option α := l.entries.lookup name

def insert (l : Ledger α) (name : String) (value : α) : Ledger α :=
  if name ∈ l.keys then
    ⟨l.entries.map fun e => if e.1 = name then (name, value) else e⟩
  else ⟨l.entries ++ [(name, value)]⟩

/-- The ledger into which some entries have been made, one after the other. -/
def ofList (entries : List (String × α)) : Ledger α :=
  entries.foldl (fun l e => l.insert e.1 e.2) empty

theorem keys_insert (l : Ledger α) (name : String) (value : α) :
    (l.insert name value).keys = if name ∈ l.keys then l.keys else l.keys ++ [name] := by
  unfold insert
  split
  · simp only [keys, List.map_map]
    apply List.map_congr_left
    intro e _
    by_cases h : e.1 = name <;> simp [h]
  · simp [keys]

end Ledger

end RepoSurvey
