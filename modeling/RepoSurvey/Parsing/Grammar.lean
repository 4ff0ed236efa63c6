/-!
Context-free grammars as values: rules with operator ranks, fields and aliases, and their compiled
form, a numbered list of plain productions.
-/

namespace RepoSurvey.Parsing

/-- How a tie between two readings of equal rank is settled. -/
inductive Associativity where
  | left
  | right
  deriving BEq, DecidableEq, Repr

/-- The name under which a child shows in its parent, and whether it shows as a named node. -/
structure Alias where
  kind : String
  named : Bool
  deriving BEq, DecidableEq, Repr, Inhabited

/-- The right-hand side of a grammar rule. -/
inductive Rule where
  | blank
  | literal (text : String)
  | symbol (name : String)
  | seq (parts : List Rule)
  | choice (options : List Rule)
  | repeated (body : Rule)
  /-- An operator rank; among equal ranks the associativity decides. -/
  | ranked (level : Int) (side : Option Associativity) (body : Rule)
  | weighted (weight : Int) (body : Rule)
  | field (label : String) (body : Rule)
  | aliased (shown : Alias) (body : Rule)
  deriving BEq, Repr, Inhabited

namespace Rule

def opt (r : Rule) : Rule := .choice [r, .blank]

def many (r : Rule) : Rule := .choice [.repeated r, .blank]

/-- One or more, with a separator between neighbours. -/
def sepBy1 (r separator : Rule) : Rule := .seq [r, many (.seq [separator, r])]

/-- One or more, separated by commas. -/
def commas1 (r : Rule) : Rule := r.sepBy1 (.literal ",")

def rank (level : Int) (r : Rule) : Rule := .ranked level none r

/-- A rule of a rank, of which equals group to the left. -/
def rankLeft (level : Int) (r : Rule) : Rule := .ranked level (some .left) r

/-- A rule of a rank, of which equals group to the right. -/
def rankRight (level : Int) (r : Rule) : Rule := .ranked level (some .right) r

def named (kind : String) (r : Rule) : Rule := .aliased ⟨kind, true⟩ r

def anonymous (text : String) (r : Rule) : Rule := .aliased ⟨text, false⟩ r

end Rule

/-- A grammar: its rules, the first of which is the start rule, and the role of its tokens. -/
structure Grammar where
  rules : List (String × Rule)
  /-- Rules that are replaced by their alternatives wherever they occur. -/
  inlined : List String
  /-- Rules that only sort others: where one applies, the node of the other stands alone. -/
  categories : List String
  /-- Names of the tokens that only the layout reader recognises. -/
  layout : List String
  /-- Names of the tokens that may stand between any two others. -/
  extras : List String
  spellings : List (String × String)
  word : String

/-- A set of tokens, for grammars of at most 128 tokens. -/
structure TokenSet where
  low : UInt64
  high : UInt64
  deriving BEq, DecidableEq, Hashable, Inhabited

namespace TokenSet

/-- The set of no token. -/
def empty : TokenSet := ⟨0, 0⟩

def singleton (t : Nat) : TokenSet :=
  if t < 64 then ⟨(1 : UInt64) <<< t.toUInt64, 0⟩ else ⟨0, (1 : UInt64) <<< (t - 64).toUInt64⟩

def union (s t : TokenSet) : TokenSet := ⟨s.low ||| t.low, s.high ||| t.high⟩

def contains (s : TokenSet) (t : Nat) : Bool :=
  if t < 64 then s.low &&& ((1 : UInt64) <<< t.toUInt64) != 0
  else s.high &&& ((1 : UInt64) <<< (t - 64).toUInt64) != 0

/-- Whether a set has no token. -/
def isEmpty (s : TokenSet) : Bool := s.low == 0 && s.high == 0

def insert (s : TokenSet) (t : Nat) : TokenSet := s.union (singleton t)

end TokenSet

/-- One place of a production's right-hand side. -/
structure Step where
  symbol : Nat
  rank : Option Int
  side : Option Associativity
  shown : Option Alias
  label : Option String
  deriving BEq, Repr, Inhabited

/-- A plain production, `lhs → steps`. -/
structure Production where
  lhs : Nat
  steps : Array Step
  weight : Int
  deriving BEq, Repr, Inhabited

/-- What a symbol of the compiled grammar is. -/
structure SymbolInfo where
  name : String
  literal : Bool
  auxiliary : Bool
  category : Bool
  /-- The text of a token that has one text only. -/
  spelling : Option String
  deriving Repr, Inhabited

namespace SymbolInfo

/-- Symbols whose name starts with an underscore, auxiliary ones and categories leave no node of their
own. -/
def visible (s : SymbolInfo) : Bool :=
  s.literal || !(s.auxiliary || s.category || s.name.startsWith "_")

end SymbolInfo

/-- A nonterminal that a closure adds, with the tokens that may follow it there. -/
structure Reach where
  nonterminal : Nat
  follow : TokenSet
  /-- Whether what follows the origin may follow this nonterminal too. -/
  passes : Bool
  deriving Inhabited

/-- A compiled grammar. Symbols are numbered: end of input is 0, tokens come first, then
nonterminals. -/
structure Table where
  symbols : Array SymbolInfo
  tokenCount : Nat
  word : Nat
  keywords : TokenSet
  extras : TokenSet
  start : Nat
  productions : Array Production
  /-- Numbers of the productions of each nonterminal, by symbol number. -/
  ofSymbol : Array (Array Nat)
  /-- Numbers of the productions whose first step is the given symbol. -/
  beginning : Array (Array Nat)
  first : Array TokenSet
  /-- What the closure of a nonterminal adds, itself included. -/
  reach : Array (Array Reach)
  deriving Inhabited

namespace Grammar

/-- A choice-free reading of a rule, still with its ranks and labels. -/
def alternatives : Rule → List Rule
  | .seq parts => alternativesOfParts parts [.blank]
  | .choice options => alternativesOfOptions options
  | .ranked l s r => (alternatives r).map (.ranked l s ·)
  | .weighted w r => (alternatives r).map (.weighted w ·)
  | .field l r => (alternatives r).map (.field l ·)
  | .aliased a r => (alternatives r).map (.aliased a ·)
  | r => [r]
where
  alternativesOfParts : List Rule → List Rule → List Rule
    | [], done => done
    | part :: parts, done =>
      let options := alternatives part
      alternativesOfParts parts
        (done.flatMap fun front => options.map fun back => .seq [front, back])
  alternativesOfOptions : List Rule → List Rule
    | [] => []
    | r :: rs => alternatives r ++ alternativesOfOptions rs

/-- The names in force at a place of a rule while its steps are laid out. -/
structure Scope where
  rank : Option Int := none
  side : Option Associativity := none
  shown : Option Alias := none
  label : Option String := none

/-- Lays out a choice-free rule as steps. The last step of a ranked part that does not end the
production takes the rank of its surroundings, so that the rank speaks about the part alone. -/
def layOut (number : Rule → Nat) (scope : Scope) (atEnd : Bool) :
    Rule → Array Step × Int → (Array Step × Int) × Bool
  | .blank, p => (p, false)
  | .repeated _, p => (p, false)
  | .choice _, p => (p, false)
  | r@(.literal _), (steps, w) =>
    ((steps.push ⟨number r, scope.rank, scope.side, scope.shown, scope.label⟩, w), true)
  | r@(.symbol _), (steps, w) =>
    ((steps.push ⟨number r, scope.rank, scope.side, scope.shown, scope.label⟩, w), true)
  | .seq parts, p => layOutParts number scope atEnd parts p false
  | .ranked level side r, p =>
    let inner := { scope with rank := some level, side := side.or scope.side }
    let ((steps, w), pushed) := layOut number inner atEnd r p
    if pushed && !atEnd then
      let restore := fun (s : Step) =>
        { s with rank := scope.rank, side := if side.isSome then scope.side else s.side }
      ((steps.modify (steps.size - 1) restore, w), pushed)
    else ((steps, w), pushed)
  | .weighted weight r, (steps, w) =>
    layOut number scope atEnd r (steps, if weight.natAbs > w.natAbs then weight else w)
  | .field label r, p => layOut number { scope with label := some label } atEnd r p
  | .aliased shown r, p => layOut number { scope with shown := some shown } atEnd r p
where
  layOutParts (number : Rule → Nat) (scope : Scope) (atEnd : Bool) :
      List Rule → Array Step × Int → Bool → (Array Step × Int) × Bool
    | [], p, pushed => (p, pushed)
    | [r], p, pushed =>
      let (p, b) := layOut number scope atEnd r p
      (p, pushed || b)
    | r :: rs, p, pushed =>
      let (p, b) := layOut number scope false r p
      layOutParts number scope atEnd rs p (pushed || b)

/-- The rules introduced for repetitions so far. Equal repetitions share one rule. -/
structure Repetitions where
  known : List (Rule × String) := []
  rules : Array (String × Rule) := #[]

/-- A repetition as a rule of its own: two repetitions in a row, or one item. -/
def pairRule (name : String) (content : Rule) : Rule :=
  .choice [.seq [.symbol name, .symbol name], content]

def expand (owner : String) : Rule → StateM Repetitions Rule
  | .seq parts => return .seq (← expandAll owner parts)
  | .choice options => return .choice (← expandAll owner options)
  | .ranked l s r => return .ranked l s (← expand owner r)
  | .weighted w r => return .weighted w (← expand owner r)
  | .field l r => return .field l (← expand owner r)
  | .aliased a r => return .aliased a (← expand owner r)
  | .repeated body => do
    let content ← expand owner body
    let done ← get
    match done.known.find? (·.1 == content) with
    | some (_, name) => return .symbol name
    | none =>
      let name := s!"{owner} repeat {done.rules.size}"
      set { known := (content, name) :: done.known
            rules := done.rules.push (name, pairRule name content) : Repetitions }
      return .symbol name
  | r => return r
where
  expandAll (owner : String) : List Rule → StateM Repetitions (List Rule)
    | [] => return []
    | r :: rs => return (← expand owner r) :: (← expandAll owner rs)

/-- The literals and symbol names of a rule, in the order of their places. -/
def leaves : Rule → List Rule
  | .blank => []
  | r@(.literal _) => [r]
  | r@(.symbol _) => [r]
  | .seq parts => leavesOfAll parts
  | .choice options => leavesOfAll options
  | .repeated r => leaves r
  | .ranked _ _ r => leaves r
  | .weighted _ r => leaves r
  | .field _ r => leaves r
  | .aliased _ r => leaves r
where
  leavesOfAll : List Rule → List Rule
    | [] => []
    | r :: rs => leaves r ++ leavesOfAll rs

/-- Puts the steps of an inlined production in the place of step `i`. -/
def inlineAt (p : Production) (i : Nat) (q : Production) : Production :=
  let removed := p.steps[i]!
  let last := q.steps.size - 1
  let inserted := q.steps.mapIdx fun j s =>
    { s with
      shown := removed.shown.or s.shown
      label := removed.label.or s.label
      rank := if j == last then s.rank.or removed.rank else s.rank
      side := if j == last then s.side.or removed.side else s.side }
  { p with
    steps := p.steps.extract 0 i ++ inserted ++ p.steps.extract (i + 1) p.steps.size
    weight := if q.weight.natAbs > p.weight.natAbs then q.weight else p.weight }

/-- All productions that arise from inlining, from step `i` on. -/
def inlineFrom (isInlined : Nat → Bool) (ofSymbol : Nat → List Production) :
    Nat → Nat → Production → List Production
  | 0, _, p => [p]
  | fuel + 1, i, p =>
    match p.steps[i]? with
    | none => [p]
    | some s =>
      if isInlined s.symbol then
        (ofSymbol s.symbol).flatMap fun q =>
          inlineFrom isInlined ofSymbol fuel i (inlineAt p i q)
      else inlineFrom isInlined ofSymbol fuel (i + 1) p

def distinct (ps : List Production) : List Production :=
  (ps.foldl (fun acc p => if acc.contains p then acc else acc.push p) #[]).toList

/-- Repeats a step that only grows its value, at most `fuel` times. -/
def saturate {α : Type} [BEq α] (step : α → α) : Nat → α → α
  | 0, a => a
  | fuel + 1, a =>
    let b := step a
    if b == a then a else saturate step fuel b

/-- The tokens that a text of each symbol can begin with. No production but the start's is empty. -/
def firstSets (symbolCount tokenCount : Nat) (productions : Array Production) : Array TokenSet :=
  let initial := Array.ofFn fun (i : Fin symbolCount) =>
    if i.1 < tokenCount then TokenSet.singleton i.1 else TokenSet.empty
  let step := fun (sets : Array TokenSet) =>
    productions.foldl (fun sets p =>
      match p.steps[0]? with
      | none => sets
      | some s => sets.modify p.lhs (·.union (sets[s.symbol]!))) sets
  saturate step (symbolCount + 1) initial

def reachStep (tokenCount : Nat) (productions : Array Production) (ofSymbol : Array (Array Nat))
    (first : Array TokenSet) (found : Array (Option (TokenSet × Bool))) :
    Array (Option (TokenSet × Bool)) :=
  (List.range found.size).foldl (fun found n =>
    match found[n]! with
    | none => found
    | some (follow, passes) =>
      (ofSymbol[n]!).foldl (fun found pid =>
        let p := productions[pid]!
        match p.steps[0]? with
        | none => found
        | some s =>
          if s.symbol < tokenCount then found
          else
            let (f, b) := match p.steps[1]? with
              | none => (follow, passes)
              | some t => (first[t.symbol]!, false)
            found.modify s.symbol fun old =>
              match old with
              | none => some (f, b)
              | some (g, c) => some (g.union f, c || b)) found) found

def reachOf (tokenCount : Nat) (productions : Array Production) (ofSymbol : Array (Array Nat))
    (first : Array TokenSet) (n : Nat) : Array Reach :=
  let initial := (Array.replicate first.size none).set! n (some (TokenSet.empty, true))
  let found := saturate (reachStep tokenCount productions ofSymbol first) (first.size + 1) initial
  (found.mapIdx fun i r => r.map fun (f, b) => Reach.mk i f b).filterMap id

def isWordLike (text : String) : Bool :=
  text.all fun c => c.isAlphanum || c == '_'

def compile (g : Grammar) : Table :=
  let names := g.rules.map (·.1)
  let isToken : Rule → Bool
    | .symbol n => !names.contains n
    | .literal _ => true
    | _ => false
  let external : List Rule := g.layout.map .symbol
  let seen := g.rules.foldl (fun acc (_, r) =>
    (leaves r).foldl (fun acc leaf =>
      if isToken leaf && !external.contains leaf && !acc.contains leaf then acc.push leaf
      else acc) acc) #[Rule.symbol g.word]
  let seen := g.extras.foldl (fun acc n =>
    if acc.contains (.symbol n) then acc else acc.push (.symbol n)) seen
  let tokens := seen ++ external.toArray
  let (expanded, repetitions) := (g.rules.mapM fun (n, r) => do
    return (n, ← expand n r)).run {}
  let nonterminals := expanded.toArray ++ repetitions.rules
  let tokenCount := tokens.size + 1
  let numbers : List (Rule × Nat) :=
    (tokens.toList.zipIdx 1) ++
      ((nonterminals.toList.map fun (n, _) => Rule.symbol n).zipIdx tokenCount)
  let number := fun r => ((numbers.find? (·.1 == r)).map (·.2)).getD 0
  let flat := nonterminals.mapIdx fun i (_, r) =>
    distinct ((alternatives r).map fun a =>
      let ((steps, weight), _) := layOut number {} true a (#[], 0)
      ⟨tokenCount + i, steps, weight⟩)
  let inlinedNumbers := g.inlined.map fun n => number (.symbol n)
  let isInlined := fun s => inlinedNumbers.contains s
  let productions := (flat.toList.zipIdx tokenCount).flatMap fun (ps, s) =>
    if isInlined s then []
    else distinct (ps.flatMap (inlineFrom isInlined (fun s => flat[s - tokenCount]!) 64 0))
  let productions := productions.toArray
  let symbols := #[SymbolInfo.mk "end of input" false true false none] ++
    tokens.map (fun
      | .literal t => ⟨t, true, false, false, some t⟩
      | .symbol n => ⟨n, false, false, false, g.spellings.lookup n⟩
      | _ => default) ++
    nonterminals.mapIdx (fun i (n, _) =>
      ⟨n, false, decide (g.rules.length ≤ i), g.categories.contains n, none⟩)
  let group := fun (key : Production → Option Nat) =>
    productions.toList.zipIdx.foldl (fun acc (p, i) =>
      match key p with
      | some k => acc.modify k (·.push i)
      | none => acc) (Array.replicate symbols.size (#[] : Array Nat))
  let ofSymbol := group fun p => some p.lhs
  let first := firstSets symbols.size tokenCount productions
  { symbols
    tokenCount
    word := number (.symbol g.word)
    keywords := symbols.toList.zipIdx.foldl (fun acc (s, i) =>
      match s.spelling with
      | some text => if isWordLike text then acc.insert i else acc
      | none => acc) TokenSet.empty
    extras := g.extras.foldl (fun acc n => acc.insert (number (.symbol n))) TokenSet.empty
    start := tokenCount
    productions
    ofSymbol
    beginning := group fun p => p.steps[0]?.map (·.symbol)
    first
    reach := Array.ofFn fun (i : Fin symbols.size) =>
      if i.1 < tokenCount then #[]
      else reachOf tokenCount productions ofSymbol first i.1 }

end Grammar

def Table.find (t : Table) (literal : Bool) (name : String) : Nat :=
  (t.symbols.findIdx? fun s => s.literal == literal && s.name == name).getD 0

end RepoSurvey.Parsing
