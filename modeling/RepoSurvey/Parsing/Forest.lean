import RepoSurvey.Parsing.Grammar
import RepoSurvey.Text.Place

/-!
Nodes of a parse under way, with the price of the repairs below them.
-/

namespace RepoSurvey.Parsing

/-- What a node is and where it stands. `σ` is the state of the layout reader. -/
structure NodeInfo (σ : Type) where
  symbol : Nat
  /-- The production that formed the node; tokens and repairs have none. -/
  production : Option Nat
  outer : Place
  start : Place
  stop : Place
  /-- The node may stand anywhere and belongs to no step of its parent. -/
  extra : Bool
  /-- The token was supplied, not read. -/
  missing : Bool
  keyword : Bool
  cost : Nat
  shownChildren : Nat
  shownDescendants : Nat
  weight : Int
  /-- The state of the layout reader after this token, if the layout reader read it. -/
  layout : Option σ
  deriving Inhabited

/-- A node with its children. -/
inductive Subtree (σ : Type) where
  | mk (info : NodeInfo σ) (children : Array (Subtree σ))
  deriving Inhabited

namespace Repair

def perRecovery : Nat := 500

def perMissing : Nat := 110

def perSkippedNode : Nat := 100

def perSkippedByte : Nat := 1

def perSkippedLine : Nat := 30

end Repair

namespace Table

def skippedSymbol (t : Table) : Nat := t.symbols.size

/-- The number of the node that gathers skipped text while a repair is under way. -/
def skippingSymbol (t : Table) : Nat := t.symbols.size + 1

def shows (t : Table) (symbol : Nat) : Bool :=
  if h : symbol < t.symbols.size then (t.symbols[symbol]).visible else symbol == t.skippedSymbol

end Table

namespace Subtree

variable {σ : Type}

def info : Subtree σ → NodeInfo σ
  | mk i _ => i

def children : Subtree σ → Array (Subtree σ)
  | mk _ c => c

def symbol (s : Subtree σ) : Nat := s.info.symbol

/-- Whether a node may stand anywhere, as a comment may. -/
def extra (s : Subtree σ) : Bool := s.info.extra

def isSkipped (t : Table) (s : Subtree σ) : Bool := s.symbol == t.skippedSymbol

def cost (s : Subtree σ) : Nat :=
  if s.info.missing then Repair.perMissing + Repair.perRecovery else s.info.cost

def token (symbol : Nat) (outer start stop : Place) (keyword : Bool) (layout : Option σ) :
    Subtree σ :=
  mk ⟨symbol, none, outer, start, stop, symbol == 0, false, keyword, 0, 0, 0, 0, layout⟩ #[]

def supplied (symbol : Nat) (at_ : Place) : Subtree σ :=
  mk ⟨symbol, none, at_, at_, at_, false, true, false, 0, 0, 0, 0, none⟩ #[]

/-- A node that may stand anywhere, or no longer. -/
def withExtra (s : Subtree σ) (b : Bool) : Subtree σ :=
  match s with
  | mk i c => mk { i with extra := b } c

def withSymbol (s : Subtree σ) (n : Nat) : Subtree σ :=
  match s with
  | mk i c => mk { i with symbol := n } c

def addWeight (s : Subtree σ) (w : Int) : Subtree σ :=
  match s with
  | mk i c => mk { i with weight := i.weight + w } c

/-- The name under which a production shows its `i`-th step. -/
def shownAs (t : Table) (production : Option Nat) (i : Nat) : Option Alias :=
  production.bind fun p => ((t.productions[p]!).steps[i]?).bind (·.shown)

/-- The nodes of a subtree that show, itself included; a node that gathers skipped text counts. -/
def count (t : Table) (s : Subtree σ) : Nat :=
  s.info.shownDescendants + (if t.shows s.symbol then 1 else 0) +
    (if s.symbol == t.skippingSymbol then 1 else 0)

/-- Adds what one child contributes to its parent. The second number is the child's step. -/
def addChild (t : Table) (parent : NodeInfo σ) (step : Nat) (child : Subtree σ) :
    NodeInfo σ × Nat :=
  let skipping := parent.symbol == t.skippedSymbol || parent.symbol == t.skippingSymbol
  let shown := t.shows child.symbol
  let hasChildren := !child.children.isEmpty
  let price := if child.symbol == t.skippingSymbol then 0 else child.cost
  let penalty :=
    if skipping && !child.extra && !(child.isSkipped t && !hasChildren) then
      if shown then Repair.perSkippedNode
      else if hasChildren then Repair.perSkippedNode * child.info.shownChildren
      else 0
    else 0
  let renamed := !child.extra && (shownAs t parent.production step).isSome
  let (more, below) :=
    if renamed || shown then (1, 1)
    else if hasChildren then (child.info.shownChildren, 0)
    else (0, 0)
  ({ parent with
      cost := parent.cost + price + penalty
      shownChildren := parent.shownChildren + more
      shownDescendants := parent.shownDescendants + below + child.info.shownDescendants
      weight := parent.weight + child.info.weight },
    if child.extra then step else step + 1)

/-- A node over the given children. `here` is where a node without children stands. -/
def parent (t : Table) (symbol : Nat) (production : Option Nat) (children : Array (Subtree σ))
    (here : Place) : Subtree σ :=
  let firstInfo := children[0]?.map info
  let lastInfo := children.back?.map info
  let outer := firstInfo.elim here (·.outer)
  let start := firstInfo.elim here (·.start)
  let stop := lastInfo.elim here (·.stop)
  let initial : NodeInfo σ :=
    ⟨symbol, production, outer, start, stop, false, false, false, 0, 0, 0, 0, none⟩
  let (i, _) := children.foldl (fun (i, step) c => addChild t i step c) (initial, 0)
  let i :=
    if symbol == t.skippedSymbol || symbol == t.skippingSymbol then
      { i with cost := i.cost + Repair.perRecovery +
          Repair.perSkippedByte * (stop.byte - start.byte) +
          Repair.perSkippedLine * (stop.line - start.line) }
    else i
  mk i children

def splitExtras (trees : Array (Subtree σ)) : Array (Subtree σ) × Array (Subtree σ) :=
  let n := (trees.toList.reverse.takeWhile extra).length
  (trees.extract 0 (trees.size - n), trees.extract (trees.size - n) trees.size)

/-- Whether the first tree is preferred, the second, or neither, by the symbols in reading order. -/
def compareTrees : Nat → Subtree σ → Subtree σ → Ordering
  | 0, _, _ => .eq
  | fuel + 1, a, b =>
    (compare a.symbol b.symbol).then <|
    (compare a.children.size b.children.size).then <|
    (a.children.zip b.children).foldl (fun o (x, y) => o.then (compareTrees fuel x y)) .eq

/-- Of two readings of the same text: whether the second replaces the first. The cheaper one wins,
then the weightier one; between equals a repaired reading gives way and an intact one stays unless
the other comes first in symbol order. -/
def replaces (a b : Subtree σ) : Bool :=
  if b.cost < a.cost then true
  else if a.cost < b.cost then false
  else if b.info.weight > a.info.weight then true
  else if a.info.weight > b.info.weight then false
  else if a.cost > 0 then true
  else compareTrees 100000 a b == .gt

end Subtree

end RepoSurvey.Parsing
