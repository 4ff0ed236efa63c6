/-!
The dependency graph of a repository: one edge for each import of a file, in the order in which they
are found, repetitions included, and what is counted over them. Targets are names of modules and are
never taken for files.
-/

namespace RepoSurvey

/-- A file imports a module. -/
structure Edge where
  source : String
  /-- The module, as the file writes it. -/
  target : String
  deriving Repr, DecidableEq

/-- The imports of a repository. -/
structure Graph where
  edges : List Edge
  deriving Repr, DecidableEq, Inhabited

/-- A node of the graph. A file and a module of the same name are two nodes. -/
inductive Endpoint where
  | file (name : String)
  | module (name : String)
  deriving Repr, DecidableEq

def Endpoint.name : Endpoint → String
  | file n | module n => n

namespace Graph

/-- The graph of no imports. -/
def empty : Graph := ⟨[]⟩

def edgesFor (path : String) (imports : List String) : List Edge :=
  imports.map fun m => ⟨path, m⟩

/-- The graph of some batches of edges, one after the other. -/
def assemble (batches : List (List Edge)) : Graph := ⟨batches.flatten⟩

def push (g : Graph) (e : Edge) : Graph := ⟨g.edges ++ [e]⟩

/-- How many edges there are, repetitions included. -/
def size (g : Graph) : Nat := g.edges.length

def edgesFrom (g : Graph) (source : String) : List Edge :=
  g.edges.filter fun e => e.source == source

/-- A graph without repetitions. Nodes are told by their places in the order in which they were added. -/
structure View where
  nodes : List Endpoint := []
  /-- The place of a file and that of a module, for each link. -/
  links : List (Nat × Nat) := []
  deriving Repr, DecidableEq

namespace View

/-- The place of a node, which is added after all others if it is new. -/
def place (v : View) (n : Endpoint) : Nat × View :=
  match v.nodes.idxOf? n with
  | some i => (i, v)
  | none => (v.nodes.length, { v with nodes := v.nodes ++ [n] })

/-- Links a file to a module, unless they are linked. -/
def link (v : View) (i j : Nat) : View :=
  if (i, j) ∈ v.links then v else { v with links := v.links ++ [(i, j)] }

/-- Adds what an edge shows; its source comes before its target. -/
def add (v : View) (e : Edge) : View :=
  let (i, v) := v.place (.file e.source)
  let (j, v) := v.place (.module e.target)
  v.link i j

/-- How many links begin at a place. -/
def fanOut (v : View) (i : Nat) : Nat := v.links.countP fun l => l.1 == i

/-- How many links end at a place. -/
def fanIn (v : View) (i : Nat) : Nat := v.links.countP fun l => l.2 == i

def nameAt (v : View) (i : Nat) : String := (v.nodes[i]?.map Endpoint.name).getD ""

end View

/-- One node for each file and each module of a graph, and one link for all edges between the two. -/
def view (g : Graph) : View := g.edges.foldl View.add {}

/-- The highest count so far, and the name that has it. Names of count 0 do not take part. -/
structure Lead where
  count : Nat := 0
  name : Option String := none
  deriving Repr, DecidableEq

/-- A name takes the lead only with a higher count. -/
def Lead.offer (l : Lead) (name : String) (count : Nat) : Lead :=
  if l.count < count then ⟨count, some name⟩ else l

/-- What is counted over the nodes of a graph. -/
structure Census where
  sources : Nat := 0
  targets : Nat := 0
  out : Lead := {}
  into : Lead := {}
  deriving Repr, DecidableEq

/-- Counts a node at a place of a view. -/
def Census.add (v : View) (c : Census) : Endpoint × Nat → Census
  | (.file n, i) => { c with sources := c.sources + 1, out := c.out.offer n (v.fanOut i) }
  | (.module n, i) => { c with targets := c.targets + 1, into := c.into.offer n (v.fanIn i) }

def View.census (v : View) : Census := v.nodes.zipIdx.foldl (Census.add v) {}

/-- What is counted over a graph; nothing as long as no graph has been counted over. -/
structure Statistics where
  totalEdges : Nat := 0
  distinctSources : Nat := 0
  distinctTargets : Nat := 0
  maxFanOut : Nat := 0
  maxFanOutFile : Option String := none
  maxFanIn : Nat := 0
  mostReferencedModule : Option String := none
  deriving Repr, DecidableEq, Inhabited

/-- What is counted over a graph. Repeated edges count once, except in the total. -/
def statistics (g : Graph) : Statistics :=
  let c := g.view.census
  { totalEdges := g.size
    distinctSources := c.sources
    distinctTargets := c.targets
    maxFanOut := c.out.count
    maxFanOutFile := c.out.name
    maxFanIn := c.into.count
    mostReferencedModule := c.into.name }

end Graph

end RepoSurvey
