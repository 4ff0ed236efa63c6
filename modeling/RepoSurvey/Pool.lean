import RepoSurvey.Progress

/-!
A pool of workers that map the items of a list side by side. What one worker does is a sequence of
steps: take an item, compute it, count it, and deliver the update; the steps of several workers
follow each other in any order. A schedule is such an order, and a run of the pool obeys one.
-/

namespace RepoSurvey

/-- How many workers a pool has that is asked for `threads` of them. -/
def poolSize (threads : Nat) : Nat := max threads 1

/-- What a worker holds. -/
inductive Worker (β : Type) where
  | idle
  /-- An item, by its index, that is still to be computed. -/
  | computing (index : Nat)
  /-- The result of an item and a message that is still to be counted. -/
  | computed (index : Nat) (result : β) (message : String)
  /-- The result of an item and an update that is still to be delivered. -/
  | counted (index : Nat) (result : β) (update : Update)
  deriving Repr

/-- A pool at work on the items of a list. -/
structure Pool (β : Type) where
  /-- The indices of the items that no worker has taken. -/
  waiting : List Nat
  workers : List (Worker β)
  counter : Counter
  delivered : List Update
  /-- The results so far, each under the index of its item. -/
  results : List (Nat × β)
  deriving Repr

namespace Pool

variable {α β : Type}

def start (workers : Nat) (items : List α) : Pool β where
  waiting := List.range items.length
  workers := List.replicate workers .idle
  counter := .start items.length
  delivered := []
  results := []

/-- One step of one worker. A worker that holds nothing takes one of the waiting items, `choice`
saying which; when none waits it stays idle. -/
def step (f : α → β × String) (items : List α) (p : Pool β) (worker choice : Nat) : Pool β :=
  match p.workers[worker]? with
  | none => p
  | some .idle =>
    match p.waiting[choice % p.waiting.length]? with
    | none => p
    | some index =>
      { p with
        waiting := p.waiting.erase index
        workers := p.workers.set worker (.computing index) }
  | some (.computing index) =>
    match items[index]? with
    | none => p
    | some item =>
      { p with workers := p.workers.set worker (.computed index (f item).1 (f item).2) }
  | some (.computed index result message) =>
    let (update, counter) := p.counter.tick message
    { p with workers := p.workers.set worker (.counted index result update), counter }
  | some (.counted index result update) =>
    { p with
      workers := p.workers.set worker .idle
      delivered := p.delivered ++ [update]
      results := (index, result) :: p.results }

/-- An order of steps: which worker moves, and which item it takes if it takes one. -/
abbrev Schedule := List (Nat × Nat)

def run (f : α → β × String) (items : List α) (p : Pool β) (schedule : Schedule) : Pool β :=
  schedule.foldl (fun p (worker, choice) => p.step f items worker choice) p

/-- Whether every item has been computed, counted and delivered. -/
def isFinished (p : Pool β) : Bool :=
  p.waiting.isEmpty && p.workers.all fun
    | .idle => true
    | _ => false

/-- The results in the order of the items. -/
def inOrder (p : Pool β) (items : List α) : List β :=
  (List.range items.length).filterMap fun i => p.results.lookup i

/-- The schedule in which the workers take turns and always take the first waiting item, long
enough for `count` items. -/
def takingTurns (workers count : Nat) : Schedule :=
  (List.range (4 * count)).flatMap fun _ => (List.range workers).map fun worker => (worker, 0)

end Pool

/-- Maps items on a pool whose workers take turns. Workers beyond the number of items would never
find an item to take, so there are none. -/
def mapOnPool {α β : Type} (threads : Nat) (f : α → β × String) (items : List α) :
    List β × List Update :=
  let workers := min (poolSize threads) items.length
  let pool := (Pool.start workers items).run f items (Pool.takingTurns workers items.length)
  (pool.inOrder items, pool.delivered)

end RepoSurvey
