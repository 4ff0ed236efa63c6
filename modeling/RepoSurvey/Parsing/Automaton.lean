import RepoSurvey.Parsing.Grammar
import Std.Data.HashMap

/-!
The states of a shift-reduce automaton, built one by one as a text reaches them. A state is a set of
productions that may be under way, each with the tokens that may follow it; ranks settle the
conflicts that they can settle and leave the others standing.
-/

namespace RepoSurvey.Parsing

/-- A production under way: what stands before the dot has been read. -/
structure Item where
  production : Nat
  dot : Nat
  follow : TokenSet
  deriving BEq, Hashable, Inhabited

/-- A state: its items with something read, and what may follow each nonterminal that can begin
here. -/
structure State where
  kernel : Array Item
  begun : Array (Option TokenSet)
  /-- Tokens on which the state has an action. -/
  expected : TokenSet
  deriving Inhabited

/-- What a state does on a token. Reductions come first; a shift to the state itself passes over an
extra token. -/
structure Entry where
  reductions : Array Nat
  shift : Option Nat
  extra : Bool
  /-- The shift only continues a repetition, which a reduction continues as well. -/
  repeating : Bool
  accept : Bool
  deriving Inhabited

namespace Entry

def none : Entry := ⟨#[], Option.none, false, false, false⟩

def isEmpty (e : Entry) : Bool := e.reductions.isEmpty && e.shift.isNone && !e.accept

end Entry

/-- The states found so far. -/
structure Automaton where
  states : Array State
  numbers : Std.HashMap (Array Item) Nat
  entries : Std.HashMap UInt64 Entry
  gotos : Std.HashMap UInt64 Nat
  deriving Inhabited

namespace Table

variable (t : Table)

def stepAt (i : Item) : Option Step := (t.productions[i.production]!).steps[i.dot]?

def stepBefore (i : Item) : Option Step :=
  if i.dot = 0 then none else (t.productions[i.production]!).steps[i.dot - 1]?

/-- Adds the closure of a nonterminal that the given tokens may follow. -/
def addReach (begun : Array (Option TokenSet)) (n : Nat) (follow : TokenSet) :
    Array (Option TokenSet) :=
  (t.reach[n]!).foldl (fun begun r =>
    let f := if r.passes then r.follow.union follow else r.follow
    begun.modify r.nonterminal fun
      | none => some f
      | some g => some (g.union f)) begun

def stateOf (kernel : Array Item) : State :=
  let begun := Array.replicate t.symbols.size none
  let (begun, expected) := kernel.foldl (fun (begun, expected) i =>
    match t.stepAt i with
    | none => (begun, expected.union i.follow)
    | some s =>
      let expected := expected.union (t.first[s.symbol]!)
      if s.symbol < t.tokenCount then (begun, expected)
      else
        let follow := match (t.productions[i.production]!).steps[i.dot + 1]? with
          | none => i.follow
          | some next => t.first[next.symbol]!
        (t.addReach begun s.symbol follow, expected)) (begun, TokenSet.empty)
  ⟨kernel, begun, expected.union t.extras⟩

def advance (s : State) (symbol : Nat) : Array Item :=
  let moved := s.kernel.foldl (fun acc i =>
    match t.stepAt i with
    | some step => if step.symbol = symbol then acc.push { i with dot := i.dot + 1 } else acc
    | none => acc) #[]
  let opened := (t.beginning[symbol]!).foldl (fun acc p =>
    match s.begun[(t.productions[p]!).lhs]! with
    | some follow => acc.push ⟨p, 1, follow⟩
    | none => acc) moved
  opened.qsort fun a b =>
    a.production < b.production || (a.production == b.production && a.dot < b.dot)

/-- The text of the start rule may be empty, which no state but the first sees. -/
def emptyStart : Option Nat :=
  (t.ofSymbol[t.start]!).find? fun p => (t.productions[p]!).steps.isEmpty

/-- The first state: the start rule, followed by the end of input. -/
def firstState : State :=
  let follow := TokenSet.singleton 0
  let begun := t.addReach (Array.replicate t.symbols.size none) t.start follow
  let expected := (t.first[t.start]!).union (if t.emptyStart.isSome then follow else .empty)
  ⟨#[], begun, expected.union t.extras⟩

end Table

namespace Automaton

/-- The number of the state in which a text that fits no rule is read. -/
def errorState : Nat := 0

def startState : Nat := 1

def finalState : Nat := 2

def initial (t : Table) : Automaton :=
  { states := #[default, t.firstState, ⟨#[], #[], t.extras.insert 0⟩]
    numbers := {}
    entries := {}
    gotos := {} }

/-- The state with a kernel, which is added if it is new. -/
def intern (t : Table) (kernel : Array Item) : Automaton → Nat × Automaton
  | ⟨states, numbers, entries, gotos⟩ =>
    match numbers[kernel]? with
    | some n => (n, ⟨states, numbers, entries, gotos⟩)
    | none =>
      let n := states.size
      (n, ⟨states.push (t.stateOf kernel), numbers.insert kernel n, entries, gotos⟩)

def rankOf (t : Table) (i : Item) : Int :=
  ((t.stepBefore i).bind (·.rank)).getD 0

/-- The reductions of a state on a token: of several completed productions those of highest rank. -/
def reductionsOn (t : Table) (s : State) (token : Nat) : Array Item :=
  let done := s.kernel.filter fun i => (t.stepAt i).isNone && i.follow.contains token
  let best := done.foldl (fun acc i => max acc (rankOf t i)) (done[0]?.elim 0 (rankOf t))
  done.filter fun i => rankOf t i == best

/-- Settles a conflict between shifting a token and reducing. The higher rank wins; at equal rank
left associativity reduces and right associativity shifts; items of one repetition agree anyway. -/
def settle (t : Table) (s : State) (token target : Nat) (reductions : Array Item) : Entry :=
  let numbers := reductions.map (·.production)
  if reductions.isEmpty then ⟨#[], some target, false, false, false⟩
  else
    let shifting := s.kernel.filter fun i =>
      match t.stepAt i with
      | some step => (t.first[step.symbol]!).contains token
      | none => false
    let owner := fun (i : Item) => (t.productions[i.production]!).lhs
    let owners := (shifting ++ s.kernel.filter fun i =>
      (t.stepAt i).isNone && i.follow.contains token).map owner
    if (owners[0]?).any fun n => (t.symbols[n]!).auxiliary && owners.all (· == n) then ⟨numbers, some target, false, true, false⟩
    else
      let level := reductions[0]?.elim 0 (rankOf t)
      let more := shifting.any fun i => rankOf t i > level
      let less := shifting.any fun i => rankOf t i < level
      if more && !less then ⟨#[], some target, false, false, false⟩
      else if less && !more then ⟨numbers, none, false, false, false⟩
      else if !less && !more then
        let sides := reductions.map fun i => (t.stepBefore i).bind (·.side)
        let left := sides.contains (some .left)
        let right := sides.contains (some .right)
        let none' := sides.contains none
        if left && !right && !none' then ⟨numbers, none, false, false, false⟩
        else if right && !left && !none' then ⟨#[], some target, false, false, false⟩
        else ⟨numbers, some target, false, false, false⟩
      else ⟨numbers, some target, false, false, false⟩

def key (state symbol : Nat) : UInt64 := state.toUInt64 * 1024 + symbol.toUInt64

def entry (t : Table) (state token : Nat) (a : Automaton) : Entry × Automaton :=
  match a.entries[key state token]? with
  | some e => (e, a)
  | none =>
    let s := a.states[state]!
    if state = finalState && token = 0 then (⟨#[], none, false, false, true⟩, a)
    else if !s.expected.contains token then (Entry.none, a)
    else
      let reductions := reductionsOn t s token
      let reductions :=
        if state = startState && token = 0 then
          match t.emptyStart with
          | some p => reductions.push ⟨p, 0, .singleton 0⟩
          | none => reductions
        else reductions
      let next := if state = finalState then #[] else t.advance s token
      let (e, a) :=
        if next.isEmpty then (⟨reductions.map (·.production), none, false, false, false⟩, a)
        else
          let (target, a) := intern t next a
          (settle t s token target reductions, a)
      let e : Entry :=
        if e.isEmpty && t.extras.contains token then ⟨#[], some state, true, false, false⟩ else e
      match a with
      | ⟨states, numbers, entries, gotos⟩ =>
        (e, ⟨states, numbers, entries.insert (key state token) e, gotos⟩)

/-- The state after a nonterminal, if the nonterminal can stand here. -/
def goto? (t : Table) (state symbol : Nat) (a : Automaton) : Option Nat × Automaton :=
  match a.gotos[key state symbol]? with
  | some n => (some n, a)
  | none =>
    if state = startState && symbol = t.start then (some finalState, a)
    else
      let next := t.advance (a.states[state]!) symbol
      if next.isEmpty then (none, a)
      else
        let (n, a) := intern t next a
        match a with
        | ⟨states, numbers, entries, gotos⟩ =>
          (some n, ⟨states, numbers, entries, gotos.insert (key state symbol) n⟩)

end Automaton

end RepoSurvey.Parsing
