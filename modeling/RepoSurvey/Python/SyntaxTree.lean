import RepoSurvey.Text.Place

/-!
Syntax trees of Python sources. Every node keeps its place in the text; tokens keep their text.
-/

namespace RepoSurvey.Python

/-- What a node is. The kinds that the analysis looks at have a name of their own. -/
inductive NodeKind where
  | module
  | importStatement
  | importFromStatement
  | futureImportStatement
  | aliasedImport
  | relativeImport
  | dottedName
  | identifier
  | comment
  | lineContinuation
  | ifStatement
  | elifClause
  | elseClause
  | exceptClause
  | finallyClause
  | caseClause
  | block
  | decoratedDefinition
  | printStatement
  | execStatement
  | raiseStatement
  | expressionList
  | comparisonOperator
  | parameters
  | lambdaParameters
  | tuplePattern
  | integer
  /-- Text that fits no rule. -/
  | error
  | other (name : String)
  /-- A token that has no name of its own. -/
  | token (text : String)
  deriving DecidableEq, Repr, Inhabited

namespace NodeKind

def ofName (name : String) : NodeKind :=
  match name with
  | "module" => module
  | "import_statement" => importStatement
  | "import_from_statement" => importFromStatement
  | "future_import_statement" => futureImportStatement
  | "aliased_import" => aliasedImport
  | "relative_import" => relativeImport
  | "dotted_name" => dottedName
  | "identifier" => identifier
  | "comment" => comment
  | "line_continuation" => lineContinuation
  | "if_statement" => ifStatement
  | "elif_clause" => elifClause
  | "else_clause" => elseClause
  | "except_clause" => exceptClause
  | "finally_clause" => finallyClause
  | "case_clause" => caseClause
  | "block" => block
  | "decorated_definition" => decoratedDefinition
  | "print_statement" => printStatement
  | "exec_statement" => execStatement
  | "raise_statement" => raiseStatement
  | "expression_list" => expressionList
  | "comparison_operator" => comparisonOperator
  | "parameters" => parameters
  | "lambda_parameters" => lambdaParameters
  | "tuple_pattern" => tuplePattern
  | "integer" => integer
  | unlisted => .other unlisted

/-- Whether a node of this kind is named; the others only stand for their text. -/
def isNamed : NodeKind → Bool
  | token _ => false
  | _ => true

end NodeKind

/-- What a child is to its parent. -/
inductive Role where
  | name
  | moduleName
  | other
  deriving DecidableEq, Repr, Inhabited

namespace Role

def ofLabel : Option String → Role
  | some "name" => name
  | some "module_name" => moduleName
  | _ => other

end Role

/-- A node: its kind, its role in its parent, whether it was supplied by a repair, where it begins and
ends, its text if it is a token, and its children. -/
inductive SyntaxTree where
  | node (kind : NodeKind) (role : Role) (missing : Bool) (start stop : Place) (text : String)
      (children : List SyntaxTree)
  deriving Repr, Inhabited

namespace SyntaxTree

def kind : SyntaxTree → NodeKind
  | node k _ _ _ _ _ _ => k

def role : SyntaxTree → Role
  | node _ r _ _ _ _ _ => r

/-- Whether a node stands for something that the text lacks. -/
def missing : SyntaxTree → Bool
  | node _ _ m _ _ _ _ => m

def start : SyntaxTree → Place
  | node _ _ _ s _ _ _ => s

def stop : SyntaxTree → Place
  | node _ _ _ _ s _ _ => s

def text : SyntaxTree → String
  | node _ _ _ _ _ t _ => t

/-- The nodes below a node, in order. -/
def children : SyntaxTree → List SyntaxTree
  | node _ _ _ _ _ _ c => c

def isNamed (t : SyntaxTree) : Bool := t.kind.isNamed

def namedChildren (t : SyntaxTree) : List SyntaxTree := t.children.filter isNamed

def withRole (t : SyntaxTree) (r : Role) : SyntaxTree :=
  match t with
  | node k _ m a b s c => node k r m a b s c

def size : SyntaxTree → Nat
  | node _ _ _ _ _ _ c => 1 + sizes c
where
  sizes : List SyntaxTree → Nat
    | [] => 0
    | t :: ts => size t + sizes ts

@[simp]
theorem sizes_nil : size.sizes [] = 0 := rfl

@[simp]
theorem sizes_cons (t : SyntaxTree) (ts : List SyntaxTree) :
    size.sizes (t :: ts) = t.size + size.sizes ts := rfl

@[simp]
theorem sizes_append (ts us : List SyntaxTree) :
    size.sizes (ts ++ us) = size.sizes ts + size.sizes us := by
  induction ts with
  | nil => simp
  | cons t ts ih => simp [ih]; omega

theorem size_eq (t : SyntaxTree) : t.size = 1 + size.sizes t.children := by
  cases t
  rfl

theorem sizes_filter_le (p : SyntaxTree → Bool) (ts : List SyntaxTree) :
    size.sizes (ts.filter p) ≤ size.sizes ts := by
  induction ts with
  | nil => simp
  | cons t ts ih =>
    by_cases h : p t
    · simpa [h] using ih
    · simp [h]; omega

end SyntaxTree

end RepoSurvey.Python
