import RepoSurvey.Python.Lexer
import RepoSurvey.Python.SyntaxTree

/-!
From source text to syntax tree.
-/

namespace RepoSurvey.Python

open RepoSurvey.Parsing

namespace Subtree

/-- The kind of a node: the name its parent shows it under, or that of its symbol. -/
def kindOf (symbol : Nat) (shown : Option Alias) : NodeKind :=
  match shown with
  | some a => if a.named then .ofName a.kind else .token a.kind
  | none =>
    match table.symbols[symbol]? with
    | some s => if s.literal then .token s.name else .ofName s.name
    | none => .error

/-- The nodes that a subtree shows: one for itself, or those of its children in its place. -/
def reveal (source : Source) (s : Parsing.Subtree Layout) (shown : Option Alias)
    (label : Option String) : List SyntaxTree :=
  match s with
  | .mk info children =>
    let steps := info.production.elim #[] fun p => (table.productions[p]!).steps
    let (parts, _) := children.attach.foldl (fun (acc, i) ⟨c, _⟩ =>
      let step := if c.extra then none else steps[i]?
      (reveal source c (step.bind (·.shown)) (step.bind (·.label)) :: acc,
        if c.extra then i else i + 1)) (([] : List (List SyntaxTree)), 0)
    let below := parts.reverse.flatten
    if shown.isSome || table.shows info.symbol then
      let text := if children.isEmpty then Lexer.textBetween source info.start info.stop else ""
      [.node (kindOf info.symbol shown) (.ofLabel label) info.missing info.start info.stop text
        below]
    else if label.isSome then
      below.map fun t => if t.role == .other then t.withRole (.ofLabel label) else t
    else below
termination_by sizeOf s
decreasing_by
  rename_i h
  have := Array.sizeOf_lt_of_mem h
  simp
  omega

end Subtree

/-- Parses a source. Text that fits no rule is kept in error nodes; a token that is supplied shows as
a missing node, but a line end or a change of indentation shows nowhere. -/
def parse (source : String) : SyntaxTree :=
  let chars := source.toList.toArray
  let empty := SyntaxTree.node .module .other false .start .start "" []
  match Parsing.Run.parse table (reader chars) with
  | none => empty
  | some root =>
    let root := root.withExtra false
    (Subtree.reveal chars root none none).headD empty

end RepoSurvey.Python
