import RepoSurvey.Parsing.Automaton
import RepoSurvey.Parsing.Stacks

/-!
Generalised shift-reduce parsing with repair. Several versions of the parse advance side by side
over the text. A version that meets a token it cannot read waits; when all of them wait, the best one
is repaired, by supplying a token, by going back to an earlier state, or by skipping text. Each repair
has a price, and the cheapest complete reading is the answer.
-/

namespace RepoSurvey.Parsing

/-- What reading a plain token gave. -/
inductive Scanned where
  /-- A token, with where it starts and ends. -/
  | token (symbol : Nat) (start stop : Place)
  /-- Nothing: where the space ended and how far the text was looked at. -/
  | nothing (start reached : Place)

/-- A token of the layout reader, with the reader's state after it. -/
structure LayoutToken (σ : Type) where
  symbol : Nat
  start : Place
  stop : Place
  layout : σ

/-- How tokens are read from a text. -/
structure Reader (σ : Type) where
  /-- The layout reader: expected tokens, its state, and where it stands. -/
  layout : TokenSet → Option σ → Place → Option (LayoutToken σ)
  plain : TokenSet → Place → Scanned
  keyword : Place → Place → Option Nat
  /-- The place after one character, unless the text ends. -/
  after : Place → Option Place
  recoverable : TokenSet
  /-- A bound on the steps of a parse. -/
  steps : Nat

/-- A parse under way. -/
structure Run (σ : Type) where
  automaton : Automaton
  stackSet : Stacks σ
  finished : Option (Subtree σ)
  accepted : Nat
  deriving Inhabited

/-- How one version compares to another. -/
inductive Preference where
  | takeLeft
  | preferLeft
  | none
  | preferRight
  | takeRight
  deriving BEq

/-- What the comparison of two versions looks at. -/
structure Standing where
  cost : Nat
  count : Nat
  weight : Int
  repairing : Bool

namespace Standing

def maxDifference : Nat := 18 * Repair.perSkippedNode

/-- The cheaper version is preferred; it is taken alone once it has gone on long enough. A version
that is not under repair comes before one that is. -/
def compare (a b : Standing) : Preference :=
  if !a.repairing && b.repairing then
    if a.cost < b.cost then .takeLeft else .preferLeft
  else if a.repairing && !b.repairing then
    if b.cost < a.cost then .takeRight else .preferRight
  else if a.cost < b.cost then
    if (b.cost - a.cost) * (1 + a.count) > maxDifference then .takeLeft else .preferLeft
  else if b.cost < a.cost then
    if (a.cost - b.cost) * (1 + b.count) > maxDifference then .takeRight else .preferRight
  else if a.weight > b.weight then .preferLeft
  else if b.weight > a.weight then .preferRight
  else .none

end Standing

namespace Run

variable {σ : Type} [Inhabited σ] [BEq σ]

/-- Steps of a parse. -/
abbrev Action (σ : Type) (α : Type) : Type := StateM (Run σ) α

def currentStacks : Action σ (Stacks σ) := do return (← get).stackSet

/-- Does something with the stacks and answers what comes of it. -/
def onStacks {α : Type} (f : Stacks σ → α × Stacks σ) : Action σ α := fun ⟨a, s, f', c⟩ =>
  let (x, s) := f s
  (x, ⟨a, s, f', c⟩)

def changeStacks (f : Stacks σ → Stacks σ) : Action σ Unit := fun ⟨a, s, f', c⟩ =>
  ((), ⟨a, f s, f', c⟩)

/-- The action of a state on a token. While a repair is under way every token leads back to it. -/
def entry (t : Table) (state token : Nat) : Action σ Entry := fun ⟨a, s, f, c⟩ =>
  let (e, a) := Automaton.entry t state token a
  (e, ⟨a, s, f, c⟩)

/-- The state that a state goes to when a symbol has been read. -/
def goto? (t : Table) (state symbol : Nat) : Action σ (Option Nat) := fun ⟨a, s, f, c⟩ =>
  let (n, a) := Automaton.goto? t state symbol a
  (n, ⟨a, s, f, c⟩)

/-- How many versions there are. -/
def versionCount : Action σ Nat := do return (← get).stackSet.versions.size

def stateOf (v : Nat) : Action σ Nat := do return (← get).stackSet.state v

def isActive (v : Nat) : Action σ Bool := do return (← get).stackSet.isActive v

/-- Puts a state on top of a version, above the tree that led to it. -/
def push (t : Table) (v : Nat) (tree : Option (Subtree σ)) (state : Nat) : Action σ Unit :=
  changeStacks (Stacks.push t v tree state)

def remove (v : Nat) : Action σ Unit := changeStacks (Stacks.remove v)

def halt (v : Nat) : Action σ Unit :=
  changeStacks (Stacks.modifyVersion v fun w => { w with status := .halted })

/-- Makes two versions one, if they stand at one place in one state. -/
def merge (t : Table) (v w : Nat) : Action σ Bool :=
  onStacks (Stacks.merge t Automaton.errorState v w)

def standing (v : Nat) : Action σ Standing := do
  let s ← currentStacks
  let paused := s.isPaused v
  return {
    cost := s.cost Automaton.errorState v + (if paused then Repair.perSkippedNode else 0)
    count := s.countSinceRepair v
    weight := (s.top v).weight
    repairing := paused || s.state v == Automaton.errorState }

def expected (state : Nat) : Action σ TokenSet := do
  return ((← get).automaton.states[state]!).expected

def acts (t : Table) (state token : Nat) : Action σ Bool := do
  return !(← entry t state token).isEmpty

def shiftedTo (t : Table) (state token : Nat) : Action σ (Option Nat) := do
  if state == Automaton.errorState then return none
  else return (← entry t state token).shift

/-- Whether the version has read anything since its last repair. -/
def hasAdvanced (s : Stacks σ) (v : Nat) : Bool :=
  let version := s.version v
  let rec go : Nat → Nat → Bool
    | 0, _ => false
    | fuel + 1, n =>
      let node := s.nodes[n]!
      match node.links[0]?.bind fun l => l.tree.map fun tree => (l.node, tree) with
      | some (below, tree) =>
        if tree.info.stop.byte > tree.info.outer.byte then true
        else if node.count > version.countAtRepair && tree.cost == 0 then go fuel below
        else false
      | none => false
  (s.top v).cost == 0 || go s.nodes.size version.node

def wordOrKeyword (t : Table) (r : Reader σ) (state symbol : Nat) (outer start stop : Place) :
    Action σ (Subtree σ) := do
  if symbol == t.word then
    match r.keyword start stop with
    | some k =>
      let usable ← if state == Automaton.errorState then pure true else acts t state k
      return .token (if usable then k else symbol) outer start stop true none
    | none => return .token symbol outer start stop false none
  else return .token symbol outer start stop false none

/-- Reads the next token of a version. Where no expected token stands, any token is taken; where
there is none at all, text is skipped up to the next one. -/
def lex (t : Table) (r : Reader σ) (v : Nat) : Action σ (Subtree σ) := do
  let s ← currentStacks
  let state := s.state v
  let outer := s.place v
  let layout := (s.version v).layout
  let advanced := hasAdvanced s v
  let wanted ← expected state
  let mut repairing := state == Automaton.errorState
  let mut tokens := if repairing then r.recoverable else wanted
  let mut here := outer
  let mut skipped : Option (Place × Place) := none
  for _ in [0:r.steps] do
    match r.layout tokens layout here with
    | some found =>
      let changed := !(layout == some found.layout)
      -- An empty token that leaves everything as it is could be read for ever.
      let mut usable := true
      if found.stop.byte ≤ here.byte && !changed then
        let next ← shiftedTo t state found.symbol
        if repairing || !advanced || next == some state then usable := false
      if usable && skipped.isNone then
        return .token found.symbol outer found.start found.stop false (some found.layout)
      -- Text was skipped on the way here, and it ends where a token can begin.
      if usable then break
    | none => pure ()
    match r.plain tokens here with
    | .token symbol start stop =>
      if skipped.isNone then return ← wordOrKeyword t r state symbol outer start stop
      break
    | .nothing start reached =>
      if !repairing then
        -- No expected token stands here, so any token will do from the same place on.
        repairing := true
        tokens := r.recoverable
        here := outer
      else
        let (low, high) := skipped.getD (start, start)
        if reached.byte == high.byte then
          match r.after reached with
          | none =>
            skipped := some (low, high)
            break
          | some p =>
            skipped := some (low, p)
            here := p
        else
          skipped := some (low, reached)
          here := reached
  match skipped with
  | some (start, stop) => return .token t.skippedSymbol outer start stop false none
  | none => return .token 0 outer outer outer false none

/-- Reduces: takes the children off along every path and pushes their parent. The answer is the
first version that arose, if any. -/
def reduce (t : Table) (v production : Nat) : Action σ (Option Nat) := do
  let p := t.productions[production]!
  let before ← versionCount
  let here := (← currentStacks).place v
  let slices ← onStacks (Stacks.popCount v p.steps.size)
  let mut removed := 0
  let mut i := 0
  for _ in [0:slices.size] do
    if i < slices.size then
      let slice := slices[i]!
      let w := slice.version - removed
      -- Too many versions: this path is given up, and so are those that share its version.
      if w > Stacks.maxVersions + Stacks.spareVersions then
        remove w
        removed := removed + 1
        for _ in [i + 1:slices.size] do
          if i + 1 < slices.size && (slices[i + 1]!).version == slice.version then i := i + 1
      else
        let (children, rest) := Subtree.splitExtras slice.trees
        let mut node := Subtree.parent t p.lhs (some production) children here
        -- Paths that end in the same version are readings of one text; the better one stays.
        let mut extras := rest
        for _ in [i + 1:slices.size] do
          if i + 1 < slices.size && (slices[i + 1]!).version == slice.version then
            i := i + 1
            let (children, rest) := Subtree.splitExtras (slices[i]!).trees
            let other := Subtree.parent t p.lhs (some production) children here
            if node.replaces other then
              node := other
              extras := rest
        let state ← stateOf w
        let next := (← goto? t state p.lhs).getD Automaton.errorState
        push t w (some (node.addWeight p.weight)) next
        -- What may stand anywhere stays behind the parent and not in it.
        for e in extras do
          push t w (some e) next
        let mut done := false
        for j in [0:w] do
          if !done && j != v then
            if ← merge t j w then
              removed := removed + 1
              done := true
      i := i + 1
  return if (← versionCount) > before then some before else none

/-- Makes every reduction that some token would allow, or one given token. The answer is whether a
state is reached that can read it. -/
def reduceAll (t : Table) (start : Nat) (lookahead : Option Nat) : Action σ Bool := do
  let before ← versionCount
  let mut canShift := false
  let mut v := start
  let mut i := 0
  for _ in [0:4096] do
    let count ← versionCount
    if v ≥ count then break
    let mut merged := false
    for j in [before:v] do
      if !merged then
        if ← merge t j v then merged := true
    if !merged then
      let state ← stateOf v
      let mut shifts := false
      let mut reductions : Array Nat := #[]
      let tokens := match lookahead with
        | some n => [n]
        | none => (List.range t.tokenCount).drop 1
      for token in tokens do
        let e ← entry t state token
        if e.shift.isSome && !e.extra && !e.repeating then shifts := true
        for p in e.reductions do
          let q := t.productions[p]!
          let known := reductions.any fun o =>
            (t.productions[o]!).lhs == q.lhs && (t.productions[o]!).steps.size == q.steps.size
          -- Productions of one symbol and one length do the same to the stack.
          if q.steps.size > 0 && !known then reductions := reductions.push p
      let mut last : Option Nat := none
      for p in reductions do
        last ← reduce t v p
      let mut again := false
      if shifts then canShift := true
      else
        match last with
        | some w =>
          -- The new version takes the place of the old one and is looked at in turn.
          if i < Stacks.maxVersions then
            changeStacks (Stacks.renumber w v)
            again := true
          else if lookahead.isSome then remove v
        | none => if lookahead.isSome then remove v
      if !again then
        v := if v == start then count else v + 1
    i := i + 1
  return canShift

def reducesOn (t : Table) (state token : Nat) : Action σ Bool := do
  if token < t.tokenCount then return !(← entry t state token).reductions.isEmpty
  else return false

/-- Whether a repair of this price is clearly worse than what another version offers. -/
def betterExists (v : Nat) (repairing : Bool) (cost : Nat) : Action σ Bool := do
  let run ← get
  if run.finished.any fun f => f.cost ≤ cost then return true
  let s := run.stackSet
  let place := s.place v
  let self : Standing :=
    { cost, repairing, weight := (s.top v).weight, count := s.countSinceRepair v }
  for i in [0:s.versions.size] do
    if i != v && s.isActive i && (s.place i).byte ≥ place.byte then
      match self.compare (← standing i) with
      | .takeRight => return true
      | .preferRight => if s.canMerge i v then return true
      | _ => pure ()
  return false

/-- Goes back to an earlier state; what was read since becomes skipped text. -/
def returnTo (t : Table) (v depth goal : Nat) : Action σ Bool := do
  let slices ← onStacks (Stacks.popCount v depth)
  let mut previous : Option Nat := none
  for slice in slices do
    if some slice.version != previous then
      if (← stateOf slice.version) != goal then halt slice.version
      else
        let here := (← currentStacks).place slice.version
        let skipped ← onStacks (Stacks.popSkipped t slice.version)
        -- Skipped text right below joins what is skipped now.
        let trees := (skipped[0]?.elim #[] (·.children)) ++ slice.trees
        let (trees, extras) := Subtree.splitExtras trees
        if !trees.isEmpty then
          let node := (Subtree.parent t t.skippedSymbol none trees here).withExtra true
          push t slice.version (some node) goal
        for e in extras do
          push t slice.version (some e) goal
        previous := some slice.version
  return previous.isSome

/-- Ends the parse of a version. Of several complete readings the best is kept. -/
def accept (t : Table) (v : Nat) (lookahead : Subtree σ) : Action σ Unit := do
  push t v (some (lookahead.withExtra true)) Automaton.startState
  let slices ← onStacks (Stacks.popAll v)
  for slice in slices do
    let n := (slice.trees.toList.reverse.takeWhile Subtree.extra).length
    let at_ := slice.trees.size - n - 1
    match slice.trees[at_]? with
    | none => pure ()
    | some root =>
      -- What stands before and after the root, such as comments, becomes part of it.
      let children := slice.trees.extract 0 at_ ++ root.children ++
        slice.trees.extract (at_ + 1) slice.trees.size
      let root := Subtree.parent t root.symbol root.info.production children root.info.outer
      modify fun run =>
        { run with
          accepted := run.accepted + 1
          finished := match run.finished with
            | none => some root
            | some old => if old.replaces root then some root else some old }
  match slices[0]? with
  | some slice => remove slice.version
  | none => pure ()
  halt v

/-- Goes on with a repair at the given token: back to an earlier state that can read it, and also past
the token. -/
def recover (t : Table) (v : Nat) (lookahead : Subtree σ) : Action σ Unit := do
  let mut recovered := false
  let s ← currentStacks
  let before := s.versions.size
  let place := s.place v
  let summary := (s.version v).summary.getD #[]
  let sinceRepair := s.countSinceRepair v
  let cost := s.cost Automaton.errorState v
  -- First way: back to an earlier state that can read the token.
  if !lookahead.isSkipped t then
    for below in summary do
      if below.state != Automaton.errorState && below.place.byte != place.byte then
        let depth := if sinceRepair > 0 then below.depth + 1 else below.depth
        let s ← currentStacks
        let wouldMerge := (List.range before).any fun j =>
          s.state j == below.state && (s.place j).byte == place.byte
        if !wouldMerge then
          let newCost := cost + below.depth * Repair.perSkippedNode +
            (place.byte - below.place.byte) * Repair.perSkippedByte +
            (place.line - below.place.line) * Repair.perSkippedLine
          if ← betterExists v false newCost then break
          if ← acts t below.state lookahead.symbol then
            if ← returnTo t v depth below.state then
              recovered := true
              break
  let mut i := before
  for _ in [before:(← versionCount)] do
    if i < (← versionCount) then
      if ← isActive i then i := i + 1 else remove i
  -- Second way: past the token, unless there is no room for a version more.
  if recovered && (← versionCount) > Stacks.maxVersions then
    halt v
    return
  if recovered && lookahead.info.layout.isSome && lookahead.info.layout != (s.version v).layout then
    halt v
    return
  -- At the end of the text the repair is over, and all of it is one skipped stretch.
  if lookahead.symbol == 0 then
    let empty := Subtree.parent t t.skippedSymbol none #[] place
    push t v (some empty) Automaton.startState
    accept t v lookahead
    return
  let newCost := cost + Repair.perSkippedNode +
    (lookahead.info.stop.byte - lookahead.info.outer.byte) * Repair.perSkippedByte +
    (lookahead.info.stop.line - lookahead.info.outer.line) * Repair.perSkippedLine
  if ← betterExists v false newCost then
    halt v
    return
  let token := if t.extras.contains lookahead.symbol && lookahead.symbol < t.tokenCount then
    lookahead.withExtra true else lookahead
  let mut node := Subtree.parent t t.skippingSymbol none #[token] place
  if sinceRepair > 0 then
    let slices ← onStacks (Stacks.popCount v 1)
    match slices[0]? with
    | none => pure ()
    | some slice =>
      for _ in [slice.version + 1:(← versionCount)] do
        remove (slice.version + 1)
      changeStacks (Stacks.renumber slice.version v)
      -- One more token joins the text that is being skipped.
      node := Subtree.parent t t.skippingSymbol none (slice.trees.push node) place
  push t v (some node) Automaton.errorState
  if lookahead.info.layout.isSome then
    changeStacks (Stacks.modifyVersion v fun w => { w with layout := lookahead.info.layout })

/-- Starts a repair at the given token. First a token is looked for that, if it were there, would let
the parse go on. -/
def startRepair (t : Table) (v : Nat) (lookahead : Subtree σ) : Action σ Unit := do
  let before ← versionCount
  let _ ← reduceAll t v none
  let count ← versionCount
  let place := (← currentStacks).place v
  let mut supplied := false
  let mut w := v
  for _ in [0:count + 1] do
    if w < count then
      if !supplied then
        let state ← stateOf w
        for missing in [1:t.tokenCount] do
          if !supplied then
            match ← shiftedTo t state missing with
            | none => pure ()
            | some next =>
              if next != state then
                -- The token would complete something that the lookahead can follow.
                if ← reducesOn t next lookahead.symbol then
                  let copy ← onStacks (Stacks.copy w)
                  push t copy (some (.supplied missing place)) next
                  let token := if lookahead.symbol == 0 then none else some lookahead.symbol
                  if ← reduceAll t copy token then supplied := true
      push t w none Automaton.errorState
      w := if w == v then before else w + 1
  -- All versions under repair become one, which remembers the states it passed.
  for _ in [before:count] do
    let _ ← merge t v before
  changeStacks fun s =>
    let summary := s.summaryOf v
    s.modifyVersion v fun x => { x with summary := some summary }
  recover t v lookahead

def advance (t : Table) (r : Reader σ) (v : Nat) : Action σ Unit := do
  let mut lookahead ← lex t r v
  let mut state ← stateOf v
  let mut symbol := lookahead.symbol
  for _ in [0:r.steps] do
    if state == Automaton.errorState then
      recover t v lookahead
      return
    let e ← if symbol < t.tokenCount then entry t state symbol else pure Entry.none
    -- Every reduction makes a version of its own; the last one goes on in place of this one.
    let mut last : Option Nat := none
    for p in e.reductions do
      match ← reduce t v p with
      | some w => last := some w
      | none => pure ()
    if e.accept then
      accept t v lookahead
      return
    match e.shift with
    | some next =>
      if !e.repeating then
        push t v (some (lookahead.withExtra e.extra)) next
        if lookahead.info.layout.isSome then
          changeStacks (Stacks.modifyVersion v fun w => { w with layout := lookahead.info.layout })
        return
    | none => pure ()
    match last with
    | some w =>
      changeStacks (Stacks.renumber w v)
      state ← stateOf v
    | none =>
      if !e.reductions.isEmpty then
        halt v
        return
      -- A keyword that cannot stand here may be a name.
      let asWord ← if lookahead.info.keyword && symbol != t.word then acts t state t.word
        else pure false
      if asWord then
        symbol := t.word
        lookahead := lookahead.withSymbol t.word
      else
        let waiting := lookahead
        changeStacks fun s =>
          let count := (s.top v).count
          s.modifyVersion v fun w => { w with status := .paused waiting, countAtRepair := count }
        return

/-- Compares all versions, drops those that are clearly worse and orders the rest. If the best one
waits, it is repaired. The answer is the least price. -/
def condense (t : Table) : Action σ (Option Nat) := do
  let mut least : Option Nat := none
  let mut i := 0
  for _ in [0:1000] do
    if i < (← versionCount) then
      if (← currentStacks).isHalted i then remove i
      else
        let self ← standing i
        if !self.repairing && least.all (self.cost < ·) then least := some self.cost
        let mut j := 0
        let mut gone := false
        for _ in [0:1000] do
          if !gone && j < i then
            match (← standing j).compare self with
            | .takeLeft =>
              remove i
              gone := true
            | .preferLeft | .none =>
              if ← merge t j i then gone := true else j := j + 1
            | .preferRight =>
              if ← merge t j i then gone := true
              else
                changeStacks (Stacks.swap i j)
                j := j + 1
            | .takeRight =>
              remove j
              i := i - 1
          else break
        if !gone then i := i + 1
    else break
  for _ in [Stacks.maxVersions:(← versionCount)] do
    remove Stacks.maxVersions
  -- A version that waits is repaired only if no better one goes on.
  let mut live := false
  let mut k := 0
  for _ in [0:(← versionCount)] do
    if k < (← versionCount) then
      match ((← currentStacks).version k).status with
      | .paused lookahead =>
        if !live && (← get).accepted < Stacks.maxVersions then
          least := some ((← currentStacks).cost Automaton.errorState k)
          changeStacks (Stacks.modifyVersion k fun w => { w with status := .active })
          startRepair t k lookahead
          live := true
          k := k + 1
        else remove k
      | _ =>
        live := true
        k := k + 1
  return least

/-- Advances every version by a token or more, until no version is left. -/
def round (t : Table) (r : Reader σ) (lastPlace : Nat) : Action σ (Nat × Bool) := do
  let mut last := lastPlace
  let mut v := 0
  for _ in [0:1000] do
    if v < (← versionCount) then
      for _ in [0:r.steps] do
        if ← isActive v then
          advance t r v
          let byte := ((← currentStacks).place v).byte
          if byte > last || (v > 0 && byte == last) then
            last := byte
            break
        else break
      v := v + 1
    else break
  let count ← versionCount
  let least ← condense t
  let done := match (← get).finished, least with
    | some f, some n => f.cost < n
    | some _, none => true
    | none, _ => false
  return (last, done || count == 0)

def parse (t : Table) (r : Reader σ) : Option (Subtree σ) :=
  let rounds : Action σ Unit := do
    let mut last := 0
    for _ in [0:r.steps] do
      let (place, done) ← round t r last
      last := place
      if done then break
  let (_, run) := rounds.run
    { automaton := .initial t, stackSet := .initial Automaton.startState, finished := none
      accepted := 0 }
  run.finished

end Run

end RepoSurvey.Parsing
