import RepoSurvey.Parsing.Forest

/-!
Several parse stacks that share what they have in common. Each stack is a node; a node links to the
nodes below it, one link for each reading of the text between them.
-/

namespace RepoSurvey.Parsing

/-- A way down from a stack node, over a subtree. No subtree marks the start of a repair. -/
structure Link (σ : Type) where
  node : Nat
  tree : Option (Subtree σ)
  deriving Inhabited

/-- A place on a stack. -/
structure StackNode (σ : Type) where
  state : Nat
  place : Place
  links : Array (Link σ)
  cost : Nat
  /-- How many nodes stand below. -/
  count : Nat
  weight : Int
  deriving Inhabited

/-- Whether a version is worked on. -/
inductive Status (σ : Type) where
  | active
  | paused (lookahead : Subtree σ)
  | halted
  deriving Inhabited

/-- A state below the top when a repair began. -/
structure Below where
  place : Place
  depth : Nat
  state : Nat
  deriving Inhabited

/-- One version of the parse. -/
structure Version (σ : Type) where
  node : Nat
  status : Status σ
  layout : Option σ
  countAtRepair : Nat
  summary : Option (Array Below)
  deriving Inhabited

/-- All versions, with the nodes they stand on. -/
structure Stacks (σ : Type) where
  nodes : Array (StackNode σ)
  versions : Array (Version σ)
  deriving Inhabited

/-- Trees taken off a stack, and the version that is left. -/
structure Slice (σ : Type) where
  version : Nat
  trees : Array (Subtree σ)
  deriving Inhabited

namespace Stacks

variable {σ : Type} [Inhabited σ]

/-- A limit on the links of one node. -/
def maxLinks : Nat := 8

/-- A limit on the paths followed at once when trees are taken off. -/
def maxPaths : Nat := 64

/-- A limit on the versions kept. -/
def maxVersions : Nat := 6

/-- How many versions more may arise before they are sorted out. -/
def spareVersions : Nat := 4

/-- How far below the top a repair looks for a state to return to. -/
def maxSummaryDepth : Nat := 16

/-- One version in the given state at the start of the text. -/
def initial (state : Nat) : Stacks σ :=
  { nodes := #[⟨state, .start, #[], 0, 0, 0⟩]
    versions := #[⟨0, .active, none, 0, none⟩] }

def version (s : Stacks σ) (v : Nat) : Version σ := s.versions[v]!

def top (s : Stacks σ) (v : Nat) : StackNode σ := s.nodes[(s.version v).node]!

def state (s : Stacks σ) (v : Nat) : Nat := (s.top v).state

def place (s : Stacks σ) (v : Nat) : Place := (s.top v).place

def isActive (s : Stacks σ) (v : Nat) : Bool :=
  match (s.version v).status with
  | .active => true
  | _ => false

def isPaused (s : Stacks σ) (v : Nat) : Bool :=
  match (s.version v).status with
  | .paused _ => true
  | _ => false

def isHalted (s : Stacks σ) (v : Nat) : Bool :=
  match (s.version v).status with
  | .halted => true
  | _ => false

def modifyVersion (v : Nat) (f : Version σ → Version σ) : Stacks σ → Stacks σ
  | ⟨nodes, versions⟩ => ⟨nodes, versions.modify v f⟩

/-- Pushes a subtree, or the mark where a repair starts. -/
def push (t : Table) (v : Nat) (tree : Option (Subtree σ)) (state : Nat) : Stacks σ → Stacks σ
  | ⟨nodes, versions⟩ =>
    let old := versions[v]!
    let below := nodes[old.node]!
    let links : Array (Link σ) := #[⟨old.node, tree⟩]
    let node : StackNode σ := match tree with
      | none => ⟨state, below.place, links, below.cost, below.count, below.weight⟩
      | some s =>
        ⟨state, s.info.stop, links, below.cost + s.cost, below.count + s.count t,
          below.weight + s.info.weight⟩
    let n := nodes.size
    ⟨nodes.push node, versions.modify v fun w =>
      { w with node := n, countAtRepair := if tree.isNone then node.count else w.countAtRepair }⟩

/-- The price of a version; one under repair pays for the repair already. -/
def cost (s : Stacks σ) (errorState : Nat) (v : Nat) : Nat :=
  let n := s.top v
  let repairing := n.state == errorState && (n.links[0]?.elim false (·.tree.isNone))
  n.cost + (if s.isPaused v || repairing then Repair.perRecovery else 0)

/-- How many nodes a version has added since its last repair. -/
def countSinceRepair (s : Stacks σ) (v : Nat) : Nat :=
  (s.top v).count - (s.version v).countAtRepair

def equivalent [BEq σ] (a b : Subtree σ) : Bool :=
  a.symbol == b.symbol &&
    ((a.cost > 0 && b.cost > 0) ||
      (a.info.outer.byte == b.info.outer.byte && a.info.start.byte == b.info.start.byte &&
        a.info.stop.byte == b.info.stop.byte && a.children.size == b.children.size &&
        a.extra == b.extra && a.info.layout == b.info.layout))

/-- Whether two trees are the same for the links of a stack. -/
def equivalent? [BEq σ] : Option (Subtree σ) → Option (Subtree σ) → Bool
  | none, none => true
  | some a, some b => equivalent a b
  | _, _ => false

/-- Adds a link to a node. A link equivalent to an old one is merged into it. -/
def addLink [BEq σ] (t : Table) : Nat → Nat → Link σ → Array (StackNode σ) → Array (StackNode σ)
  | 0, _, _, nodes => nodes
  | fuel + 1, n, link, nodes =>
    if link.node == n then nodes
    else
      let self := nodes[n]!
      let below := nodes[link.node]!
      let weight := below.weight + link.tree.elim 0 (·.info.weight)
      let same := self.links.toList.zipIdx.find? fun (old, _) =>
        equivalent? old.tree link.tree &&
          (old.node == link.node ||
            (let other := nodes[old.node]!
             other.state == below.state && other.place.byte == below.place.byte &&
               other.cost == below.cost))
      match same with
      | some (old, i) =>
        if old.node == link.node then
          if link.tree.elim 0 (·.info.weight) > old.tree.elim 0 (·.info.weight) then
            nodes.modify n fun s => { s with links := s.links.set! i link, weight := weight }
          else nodes
        else
          let nodes := below.links.foldl (fun nodes l => addLink t fuel old.node l nodes) nodes
          nodes.modify n fun s => { s with weight := max s.weight weight }
      | none =>
        if self.links.size ≥ maxLinks then nodes
        else
          let count := below.count + link.tree.elim 0 (·.count t)
          nodes.modify n fun s =>
            { s with
              links := s.links.push link
              count := max s.count count
              weight := max s.weight weight }

/-- Whether two versions stand at the same place in the same state at the same price. -/
def canMerge [BEq σ] (s : Stacks σ) (v w : Nat) : Bool :=
  s.isActive v && s.isActive w && s.state v == s.state w &&
    (s.place v).byte == (s.place w).byte && (s.top v).cost == (s.top w).cost &&
    (s.version v).layout == (s.version w).layout

def remove (v : Nat) : Stacks σ → Stacks σ
  | ⟨nodes, versions⟩ => ⟨nodes, versions.eraseIdxIfInBounds v⟩

/-- Merges version `w` into version `v`, if they agree. -/
def merge [BEq σ] (t : Table) (errorState v w : Nat) (s : Stacks σ) : Bool × Stacks σ :=
  if !s.canMerge v w then (false, s)
  else
    match s with
    | ⟨nodes, versions⟩ =>
      let n := (versions[v]!).node
      let links := (nodes[(versions[w]!).node]!).links
      let nodes := links.foldl (fun nodes l => addLink t (nodes.size + 1) n l nodes) nodes
      let self := nodes[n]!
      let versions :=
        if self.state == errorState then
          versions.modify v fun x => { x with countAtRepair := self.count }
        else versions
      (true, ⟨nodes, versions.eraseIdxIfInBounds w⟩)

/-- Moves version `v` to the place of version `w`. -/
def renumber (v w : Nat) : Stacks σ → Stacks σ
  | ⟨nodes, versions⟩ =>
    if v == w then ⟨nodes, versions⟩
    else
      let source := versions[v]!
      let target := versions[w]!
      let source := { source with summary := source.summary.or target.summary }
      ⟨nodes, (versions.set! w source).eraseIdxIfInBounds v⟩

def swap (v w : Nat) : Stacks σ → Stacks σ
  | ⟨nodes, versions⟩ => ⟨nodes, versions.swapIfInBounds v w⟩

def copy (v : Nat) (s : Stacks σ) : Nat × Stacks σ :=
  let w := { s.version v with summary := none }
  (s.versions.size, match s with | ⟨nodes, versions⟩ => ⟨nodes, versions.push w⟩)

/-- A path down from a version. -/
structure Path (σ : Type) where
  node : Nat
  /-- The trees passed, topmost first. -/
  trees : List (Subtree σ)
  /-- How many of them are not extra. -/
  count : Nat
  deriving Inhabited

/-- Records the trees above a node; paths that end at one node share a version. -/
def addSlice (origin node : Nat) (trees : List (Subtree σ)) (slices : Array (Slice σ))
    (s : Stacks σ) : Array (Slice σ) × Stacks σ :=
  let trees := trees.toArray
  let known := slices.toList.zipIdx.reverse.find? fun (x, _) => (s.version x.version).node == node
  match known with
  | some (x, i) => (slices.insertIdx! (i + 1) ⟨x.version, trees⟩, s)
  | none =>
    let old := s.version origin
    let v := s.versions.size
    (slices.push ⟨v, trees⟩, match s with
      | ⟨nodes, versions⟩ => ⟨nodes, versions.push ⟨node, .active, old.layout, old.countAtRepair, none⟩⟩)

/-- Follows all paths down one step. `decide` tells of a path whether it ends with its trees taken
off, and whether it ends. -/
def descend (origin : Nat) (decide : Path σ → Bool × Bool) (paths : Array (Path σ))
    (slices : Array (Slice σ)) (s : Stacks σ) :
    Array (Path σ) × Array (Slice σ) × Stacks σ :=
  let follow := fun (p : Path σ) (l : Link σ) =>
    match l.tree with
    | none => { p with node := l.node, count := p.count + 1 }
    | some tree =>
      { node := l.node, trees := tree :: p.trees,
        count := if tree.extra then p.count else p.count + 1 }
  let (kept, added, _, slices, s) := paths.foldl
    (fun (kept, added, size, slices, s) p =>
      let links := (s.nodes[p.node]!).links
      let (takes, ends) := decide p
      let ends := ends || links.isEmpty
      let (slices, s) := if takes then addSlice origin p.node p.trees slices s else (slices, s)
      if ends then (kept, added, size - 1, slices, s)
      else
        let (added, size) := (links.extract 1 links.size).foldl (fun (added, size) l =>
          if size ≥ maxPaths then (added, size) else (added.push (follow p l), size + 1))
          (added, size)
        (kept.push (follow p (links[0]!)), added, size, slices, s))
    (#[], #[], paths.size, slices, s)
  (kept ++ added, slices, s)

def descendAll (origin : Nat) (decide : Path σ → Bool × Bool) :
    Nat → Array (Path σ) → Array (Slice σ) → Stacks σ → Array (Slice σ) × Stacks σ
  | 0, _, slices, s => (slices, s)
  | fuel + 1, paths, slices, s =>
    if paths.isEmpty then (slices, s)
    else
      let (paths, slices, s) := descend origin decide paths slices s
      descendAll origin decide fuel paths slices s

def pop (v : Nat) (decide : Path σ → Bool × Bool) (s : Stacks σ) : Array (Slice σ) × Stacks σ :=
  let path : Path σ := ⟨(s.version v).node, [], 0⟩
  descendAll v decide (s.nodes.size + 1) #[path] #[] s

/-- Takes a number of trees off a version, extra ones not counted. -/
def popCount (v count : Nat) (s : Stacks σ) : Array (Slice σ) × Stacks σ :=
  s.pop v fun p => (p.count == count, p.count == count)

def popAll (v : Nat) (s : Stacks σ) : Array (Slice σ) × Stacks σ :=
  let nodes := s.nodes
  let isBottom := fun (p : Path σ) => (nodes[p.node]!).links.isEmpty
  s.pop v fun p => (isBottom p, false)

/-- Takes skipped text off the top of a version, if it ends there. -/
def popSkipped (t : Table) (v : Nat) (s : Stacks σ) : Array (Subtree σ) × Stacks σ :=
  let links := (s.top v).links
  match links.find? fun l => l.tree.elim false (·.isSkipped t) with
  | none => (#[], s)
  | some l =>
    let (n, tree) := (l.node, l.tree.elim #[] (#[·]))
    (tree, s.modifyVersion v fun w => { w with node := n })

/-- Notes the states below the top, for a repair to return to. -/
def summaryOf (s : Stacks σ) (v : Nat) : Array Below :=
  let step := fun (x : Array (Path σ) × Array Below) =>
    let (paths, found) := x
    let (kept, added, _, found) := paths.foldl (fun (kept, added, size, found) (p : Path σ) =>
      let node := s.nodes[p.node]!
      if p.count > maxSummaryDepth then (kept, added, size - 1, found)
      else
        let known := found.toList.reverse.takeWhile (fun (b : Below) => b.depth ≥ p.count)
        let found :=
          if known.any fun b => b.depth == p.count && b.state == node.state then found
          else found.push ⟨node.place, p.count, node.state⟩
        if node.links.isEmpty then (kept, added, size - 1, found)
        else
          let follow := fun (l : Link σ) =>
            { p with node := l.node
                     count := if l.tree.elim false (·.extra) then p.count else p.count + 1 }
          let (added, size) := (node.links.extract 1 node.links.size).foldl
            (fun (added, size) l =>
              if size ≥ maxPaths then (added, size) else (added.push (follow l), size + 1))
            (added, size)
          (kept.push (follow (node.links[0]!)), added, size, found))
      (#[], #[], paths.size, found)
    (kept ++ added, found)
  let rec go : Nat → Array (Path σ) × Array Below → Array Below
    | 0, x => x.2
    | fuel + 1, x => if x.1.isEmpty then x.2 else go fuel (step x)
  go (s.nodes.size + 1) (#[⟨(s.version v).node, [], 0⟩], #[])

end Stacks

end RepoSurvey.Parsing
