import RepoSurvey.Python.SyntaxTree

/-!
The modules that a Python source imports, found in its syntax tree. Statements are visited level by
level: what stands in the body of a compound statement is one level below it, and each `elif`, each
handler and each `case` adds a level of its own. Trees with constructs that Python 3 does not know give
no modules.
-/

namespace RepoSurvey.Python

namespace SyntaxTree

/-- Nodes whose children belong to the level of the statement around them. -/
def isTransparent (t : SyntaxTree) : Bool :=
  match t.kind with
  | .block | .elseClause | .finallyClause | .decoratedDefinition => true
  | _ => false

/-- A node as part of a level: itself, or the nodes it is transparent for. -/
def flattened : SyntaxTree → List SyntaxTree
  | t@(node _ _ _ _ _ _ c) => if t.isTransparent then flattenedAll c else [t]
where
  flattenedAll : List SyntaxTree → List SyntaxTree
    | [] => []
    | t :: ts => (if t.isNamed then flattened t else []) ++ flattenedAll ts

/-- Whether a child carries on the chain of an `if`. -/
def isAlternative (t : SyntaxTree) : Bool :=
  match t.kind with
  | .elifClause | .elseClause => true
  | _ => false

/-- The texts of the parts of a dotted name, joined by dots. -/
def dottedText (t : SyntaxTree) : Option String :=
  match t.kind with
  | .dottedName =>
    match t.namedChildren with
    | [] => none
    | parts => some (".".intercalate (parts.map text))
  | _ => some t.text

/-- The modules of `import a.b as c, d`: `a.b` and `d`. -/
def importedNames (t : SyntaxTree) : List String :=
  (t.children.filter (·.role == .name)).filterMap fun name =>
    match name.kind with
    | .aliasedImport => (name.children.find? (·.role == .name)).bind dottedText
    | _ => name.dottedText

/-- The module of `from a.b import c`, without leading dots. -/
def fromModule (t : SyntaxTree) : Option String :=
  (t.children.find? (·.role == .moduleName)).bind fun m =>
    match m.kind with
    | .relativeImport => (m.namedChildren.find? (·.kind == .dottedName)).bind dottedText
    | _ => m.dottedText

def ownImports (t : SyntaxTree) : List String :=
  match t.kind with
  | .importStatement => t.importedNames
  | .importFromStatement => t.fromModule.toList
  | .futureImportStatement => ["__future__"]
  | _ => []

/-- Whether an integer is written as only Python 2 allows: with a trailing `l`, or in octal without a
base letter. -/
def isPython2Integer (text : String) : Bool :=
  let digits := text.toList.filter (· != '_')
  let last := digits.getLast?
  last == some 'l' || last == some 'L' ||
    (decide (digits.length > 1) && digits.head? == some '0' &&
      digits.all (fun c => '0' ≤ c && c ≤ '9') && digits.any (· != '0'))

def hasToken (t : SyntaxTree) (text : String) : Bool :=
  t.children.any (·.kind == .token text)

/-- Whether a node is a construct that only Python 2 knows. -/
def isPython2Only (t : SyntaxTree) : Bool :=
  match t.kind with
  | .printStatement | .execStatement => true
  | .exceptClause =>
    t.hasToken "," || (t.namedChildren.head?).any (·.kind == .expressionList)
  | .comparisonOperator => t.hasToken "<>"
  | .integer => isPython2Integer t.text
  | _ => false

def isOffence (t : SyntaxTree) : Bool :=
  t.kind == .error || t.missing || t.isPython2Only

/-- The first offending node, parents before children and children in order. -/
def firstOffence : SyntaxTree → Option SyntaxTree
  | t@(node _ _ _ _ _ _ c) => if t.isOffence then some t else firstOffenceAmong c
where
  firstOffenceAmong : List SyntaxTree → Option SyntaxTree
    | [] => none
    | t :: ts => (firstOffence t).or (firstOffenceAmong ts)

/-- Puts nodes on a stack, the first of them on top. -/
def pushAll (stack nodes : List SyntaxTree) : List SyntaxTree :=
  nodes.reverse.foldl (fun stack t => t :: stack) stack

theorem pushAll_eq (stack nodes : List SyntaxTree) : pushAll stack nodes = nodes ++ stack := by
  simp [pushAll]

/-- Looks for an offending node on a stack: the node on top is taken off, and unless it offends, its
children are put in its place. -/
def search : List SyntaxTree → Option SyntaxTree
  | [] => none
  | t :: stack => if t.isOffence then some t else search (pushAll stack t.children)
termination_by stack => size.sizes stack
decreasing_by
  have h := size_eq t
  rw [pushAll_eq, sizes_append, sizes_cons]
  omega

end SyntaxTree

/-- A node to visit, with the `elif` and `else` clauses that follow it. -/
structure Level where
  node : SyntaxTree
  alternatives : List SyntaxTree

namespace Level

open SyntaxTree

def size (l : Level) : Nat := l.node.size + SyntaxTree.size.sizes l.alternatives

/-- A node without clauses after it. -/
def ofNode (t : SyntaxTree) : Level := ⟨t, []⟩

/-- What the first clause of a chain leads to: an `elif` takes the rest of the chain along, an `else`
is transparent. -/
def ofChain : List SyntaxTree → List Level
  | [] => []
  | clause :: rest =>
    if clause.kind == .elifClause then [⟨clause, rest⟩] else clause.flattened.map ofNode

/-- The nodes one level below, in order. -/
def below (l : Level) : List Level :=
  let isIf := l.node.kind == .ifStatement
  let parts := l.node.namedChildren
  let inner := if isIf then parts.filter (!·.isAlternative) else parts
  let own := if isIf then parts.filter isAlternative else []
  let chain := if l.node.kind == .elifClause then l.alternatives else own
  (flattened.flattenedAll inner).map ofNode ++ ofChain chain

def sizes : List Level → Nat
  | [] => 0
  | l :: ls => l.size + sizes ls

theorem sizes_append (ls ms : List Level) : sizes (ls ++ ms) = sizes ls + sizes ms := by
  induction ls with
  | nil => simp [sizes]
  | cons l ls ih => simp [sizes, ih, Nat.add_assoc]

theorem sizes_map_ofNode (ts : List SyntaxTree) :
    sizes (ts.map ofNode) = SyntaxTree.size.sizes ts := by
  induction ts with
  | nil => rfl
  | cons t ts ih =>
    rw [List.map_cons, sizes, ih]
    simp [size, ofNode]

mutual

theorem sizes_flattened_le (t : SyntaxTree) :
    SyntaxTree.size.sizes t.flattened ≤ t.size := by
  match t with
  | .node k r m a b s c =>
    rw [flattened]
    split
    · have h := sizes_flattenedAll_le c
      simp only [SyntaxTree.size]
      omega
    · simp

theorem sizes_flattenedAll_le (ts : List SyntaxTree) :
    SyntaxTree.size.sizes (flattened.flattenedAll ts) ≤ SyntaxTree.size.sizes ts := by
  match ts with
  | [] => simp [flattened.flattenedAll]
  | t :: ts =>
    have h := sizes_flattened_le t
    have hs := sizes_flattenedAll_le ts
    rw [flattened.flattenedAll]
    split <;> simp <;> omega

end

theorem sizes_ofChain_le (ts : List SyntaxTree) :
    sizes (ofChain ts) ≤ SyntaxTree.size.sizes ts := by
  match ts with
  | [] => simp [ofChain, sizes]
  | t :: ts =>
    rw [ofChain]
    split
    · simp [sizes, size]
    · rw [sizes_map_ofNode]
      have h := sizes_flattened_le t
      simp
      omega

theorem sizes_partition (p : SyntaxTree → Bool) (ts : List SyntaxTree) :
    SyntaxTree.size.sizes (ts.filter fun t => !p t) + SyntaxTree.size.sizes (ts.filter p) =
      SyntaxTree.size.sizes ts := by
  induction ts with
  | nil => rfl
  | cons t ts ih => by_cases h : p t <;> simp [h] <;> omega

/-- Going one level down loses at least the node itself. -/
theorem sizes_below_lt (l : Level) : sizes l.below < l.size := by
  have hn := SyntaxTree.size_eq l.node
  have hf := SyntaxTree.sizes_filter_le isNamed l.node.children
  rw [below, sizes_append, sizes_map_ofNode, size]
  by_cases hi : l.node.kind = .ifStatement
  · have ha := sizes_flattenedAll_le (l.node.namedChildren.filter (!·.isAlternative))
    have hc := sizes_ofChain_le (l.node.namedChildren.filter isAlternative)
    have hp := sizes_partition isAlternative l.node.namedChildren
    have hb : (l.node.kind == NodeKind.ifStatement) = true := by simp [hi]
    have he : (l.node.kind == NodeKind.elifClause) = false := by simp [hi]
    simp only [hb, he, if_true, Bool.false_eq_true, if_false, namedChildren] at *
    omega
  · have ha := sizes_flattenedAll_le l.node.namedChildren
    have hb : (l.node.kind == NodeKind.ifStatement) = false := by simpa using hi
    simp only [hb, Bool.false_eq_true, if_false, namedChildren] at *
    split
    · have hc := sizes_ofChain_le l.alternatives
      omega
    · simp only [ofChain, sizes]
      omega

end Level

/-- Visits nodes in order, each before those one level below it, which come after all that wait. -/
def visit : List Level → List String
  | [] => []
  | l :: waiting => l.node.ownImports ++ visit (waiting ++ l.below)
termination_by ls => Level.sizes ls
decreasing_by
  have h := Level.sizes_below_lt l
  rw [Level.sizes_append]
  simp only [Level.sizes] at *
  omega

/-- The place of the construct that makes a source unusable. Lines and columns count from one, and
columns count bytes. -/
structure SyntaxError where
  line : Nat
  column : Nat
  deriving DecidableEq, Repr

namespace SyntaxError

def message (e : SyntaxError) : String :=
  s!"syntax error at line {e.line}, column {e.column}"

end SyntaxError

namespace SyntaxTree

/-- The modules that a tree imports, in order of the levels, unless it has an offending node. -/
def imports (t : SyntaxTree) : Except SyntaxError (List String) :=
  match search [t] with
  | some o => .error ⟨o.start.line + 1, o.start.column + 1⟩
  | none => .ok (visit [.ofNode t])

end SyntaxTree

end RepoSurvey.Python
