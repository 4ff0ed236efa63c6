/-!
Progress of a run over many items: the updates that tell of finished items, the counter that numbers
them, and the reporter that shows the latest one.
-/

namespace RepoSurvey

/-- Word of one finished item. -/
structure Update where
  /-- How many items are finished. -/
  current : Nat
  /-- How many items there are. -/
  total : Nat
  message : String
  deriving Repr, DecidableEq

/-- How much of the run is finished, in per cent. A run over nothing stands at zero. -/
def Update.percentage (u : Update) : Float :=
  if u.total = 0 then 0 else u.current.toUInt64.toFloat / u.total.toUInt64.toFloat * 100

/-- Counts finished items. -/
structure Counter where
  total : Nat
  done : Nat
  deriving Repr, DecidableEq

/-- A counter of which no item is finished. -/
def Counter.start (total : Nat) : Counter := ⟨total, 0⟩

def Counter.tick (c : Counter) (message : String) : Update × Counter :=
  (⟨c.done + 1, c.total, message⟩, { c with done := c.done + 1 })

/-- The updates that tell of finished items in the order of their messages. -/
def Counter.ticks (c : Counter) : List String → List Update
  | [] => []
  | m :: rest => (c.tick m).1 :: (c.tick m).2.ticks rest

/-- Maps items one after the other; each gives a result and the message of its update. -/
def mapInOrder {α β : Type} (f : α → β × String) (items : List α) : List β × List Update :=
  let finished := items.map f
  (finished.map Prod.fst, (Counter.start items.length).ticks (finished.map Prod.snd))

/-- Shows how far a run is. -/
structure Reporter where
  enabled : Bool
  position : Nat
  length : Nat
  deriving Repr, DecidableEq

namespace Reporter

/-- A reporter of a run that has not begun. -/
def idle (enabled : Bool) : Reporter := ⟨enabled, 0, 0⟩

/-- Goes back to the start, for a new run of the same length. -/
def restart (r : Reporter) : Reporter := { r with position := 0 }

def advance (r : Reporter) (u : Update) : Reporter := { r with position := u.current, length := u.total }

/-- Goes to the end, as a run does that is finished or given up. -/
def finish (r : Reporter) : Reporter := { r with position := r.length }

end Reporter

end RepoSurvey
