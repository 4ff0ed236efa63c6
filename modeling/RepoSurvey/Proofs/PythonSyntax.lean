import Mathlib
import RepoSurvey.Python.Imports

/-!
The abstract syntax of Python modules, as far as it holds statements, and the syntax trees that show it.
The abstract syntax is visited breadth-first, the fields of a node in order: an `elif` is an `if` in the
field for `else`, and each handler and each `case` is a node of its own.
-/

namespace RepoSurvey.Python

/-- What stands in a dotted name apart from its dots. -/
inductive NamePart where
  | identifier (text : String) (hplain : '\\' ∉ text.toList)
  /-- The end of a line that is continued on the next. -/
  | continuation (text : String) (hback : '\\' ∈ text.toList)

namespace NamePart

def text : NamePart → String
  | identifier text _ => text
  | continuation text _ => text

def isIdentifier : NamePart → Bool
  | identifier _ _ => true
  | continuation _ _ => false

theorem back_mem_text_iff (p : NamePart) : '\\' ∈ p.text.toList ↔ p.isIdentifier = false := by
  cases p with
  | identifier text hplain => exact ⟨fun h => absurd h hplain, fun h => nomatch h⟩
  | continuation text hback => exact ⟨fun _ => rfl, fun _ => hback⟩

end NamePart

/-- A dotted name as it is written. -/
abbrev DottedName := List NamePart

namespace DottedName

/-- The module that a name stands for. -/
def module (n : DottedName) : String :=
  ".".intercalate ((n.filter NamePart.isIdentifier).map NamePart.text)

/-- All parts of a name, joined by dots. -/
def joined (n : DottedName) : String := ".".intercalate (n.map NamePart.text)

/-- No line ends within a name. -/
def IsUnbroken (n : DottedName) : Prop := ∀ p ∈ n, p.isIdentifier = true

instance (n : DottedName) : Decidable n.IsUnbroken :=
  inferInstanceAs (Decidable (∀ p ∈ n, p.isIdentifier = true))

/-- Joining texts by dots adds nothing but dots. -/
theorem mem_intercalate_iff {x : Char} (hx : x ≠ '.') (texts : List String) :
    x ∈ (".".intercalate texts).toList ↔ ∃ s ∈ texts, x ∈ s.toList := by
  induction texts with
  | nil => simp
  | cons s rest ih =>
    have hdot : x ∉ ".".toList := fun h => hx (List.mem_singleton.mp h)
    rcases eq_or_ne rest [] with rfl | hne
    · simp only [String.intercalate_singleton, List.mem_singleton, exists_eq_left]
    · rw [String.intercalate_cons_of_ne_nil hne, String.toList_append, String.toList_append,
        List.mem_append, List.mem_append, ih, List.exists_mem_cons_iff, or_iff_left hdot]

theorem back_mem_intercalate_iff (texts : List String) :
    '\\' ∈ (".".intercalate texts).toList ↔ ∃ s ∈ texts, '\\' ∈ s.toList :=
  mem_intercalate_iff (by decide) texts

/-- A module has no backslash in its name. -/
theorem back_notMem_module (n : DottedName) : '\\' ∉ n.module.toList := by
  rw [module, back_mem_intercalate_iff]
  rintro ⟨s, hs, hback⟩
  obtain ⟨p, hp, rfl⟩ := List.mem_map.mp hs
  rw [NamePart.back_mem_text_iff] at hback
  have hident := (List.mem_filter.mp hp).2
  rw [hback] at hident
  cases hident

/-- The parts of a name give its module unless a line ends among them. -/
theorem joined_eq_module_iff (n : DottedName) : n.joined = n.module ↔ n.IsUnbroken := by
  constructor
  · intro h p hp
    by_contra hident
    have hback : '\\' ∈ n.joined.toList := by
      rw [joined, back_mem_intercalate_iff]
      exact ⟨p.text, List.mem_map_of_mem hp, p.back_mem_text_iff.mpr (by simpa using hident)⟩
    rw [h] at hback
    exact n.back_notMem_module hback
  · intro h
    rw [joined, module, List.filter_eq_self.mpr h]

end DottedName

inductive LoopKind where
  | while | for

inductive DefinitionKind where
  | ofFunction | ofClass

inductive ClauseKind where
  | handler | groupHandler | case

/-- A node of the abstract syntax. Expressions are left out: they hold no statements. -/
inductive Ast where
  | module (body : List Ast)
  /-- A statement that neither imports nor holds other statements. -/
  | simple
  | imports (names : List DottedName)
  /-- The module that things are imported from, without leading dots, if it has a name. -/
  | importsFrom (source : Option DottedName)
  | branch (body otherwise : List Ast)
  | loop (kind : LoopKind) (body otherwise : List Ast)
  | within (body : List Ast)
  | attempt (body handlers otherwise final : List Ast)
  | definition (kind : DefinitionKind) (body : List Ast)
  | choice (cases : List Ast)
  /-- A handler of an `attempt` or a case of a `choice`. -/
  | clause (kind : ClauseKind) (body : List Ast)

namespace Ast

/-- The nodes in the fields of a node, in order. -/
def children : Ast → List Ast
  | simple | imports _ | importsFrom _ => []
  | module body | within body | definition _ body | clause _ body => body
  | branch body otherwise | loop _ body otherwise => body ++ otherwise
  | attempt body handlers otherwise final => body ++ handlers ++ otherwise ++ final
  | choice cases => cases

/-- The names of the modules that a node imports by itself. -/
def names : Ast → List DottedName
  | imports names => names
  | importsFrom source => source.toList
  | _ => []

theorem sum_sizeOf_le (nodes : List Ast) : (nodes.map sizeOf).sum < sizeOf nodes := by
  induction nodes with
  | nil => simp
  | cons a nodes ih =>
    simp only [List.map_cons, List.sum_cons, List.cons.sizeOf_spec]
    omega

theorem sum_sizeOf_children_lt (a : Ast) : (a.children.map sizeOf).sum < sizeOf a := by
  cases a with
  | simple => decide
  | imports names =>
    simp only [children, List.map_nil, List.sum_nil, imports.sizeOf_spec]
    omega
  | importsFrom source =>
    simp only [children, List.map_nil, List.sum_nil, importsFrom.sizeOf_spec]
    omega
  | module body | within body | definition _ body | clause _ body | choice body =>
    have hbody := sum_sizeOf_le body
    simp only [children, module.sizeOf_spec, within.sizeOf_spec, definition.sizeOf_spec,
      clause.sizeOf_spec, choice.sizeOf_spec]
    omega
  | branch body otherwise | loop _ body otherwise =>
    have hbody := sum_sizeOf_le body
    have hotherwise := sum_sizeOf_le otherwise
    simp only [children, List.map_append, List.sum_append, branch.sizeOf_spec, loop.sizeOf_spec]
    omega
  | attempt body handlers otherwise final =>
    have hbody := sum_sizeOf_le body
    have hhandlers := sum_sizeOf_le handlers
    have hotherwise := sum_sizeOf_le otherwise
    have hfinal := sum_sizeOf_le final
    simp only [children, List.map_append, List.sum_append, attempt.sizeOf_spec]
    omega

/-- The names that are imported in some nodes and below them, breadth-first. -/
def walk : List Ast → List DottedName
  | [] => []
  | a :: waiting => a.names ++ walk (waiting ++ a.children)
termination_by nodes => (nodes.map sizeOf).sum
decreasing_by
  have := sum_sizeOf_children_lt a
  simp only [List.map_append, List.sum_append, List.map_cons, List.sum_cons]
  omega

end Ast

/-- Whether a node of some kind imports by itself. -/
def NodeKind.importsModules : NodeKind → Bool
  | importStatement | importFromStatement | futureImportStatement => true
  | _ => false

/-- Whether a node of some kind is a block or a clause of a statement. -/
def NodeKind.isClause : NodeKind → Bool
  | block | elifClause | elseClause | exceptClause | finallyClause | caseClause => true
  | _ => false

namespace SyntaxTree

/-- Whether no node of a tree imports. -/
def isImportFree : SyntaxTree → Bool
  | node kind _ _ _ _ _ children => !kind.importsModules && areImportFree children
where
  /-- Whether no node of several trees imports. -/
  areImportFree : List SyntaxTree → Bool
    | [] => true
    | t :: ts => isImportFree t && areImportFree ts

/-- The children of a node are the given parts, and among them others that do not import: tokens,
expressions, comments. -/
inductive Amid : List SyntaxTree → List SyntaxTree → Prop where
  | nil : Amid [] []
  | other {t : SyntaxTree} {parts children : List SyntaxTree} (hfree : t.isImportFree = true)
      (hkind : t.kind.isClause = false) (h : Amid parts children) : Amid parts (t :: children)
  | part {t : SyntaxTree} {parts children : List SyntaxTree} (h : Amid parts children) :
      Amid (t :: parts) (t :: children)

/-- A tree shows a part of a dotted name. -/
inductive ShowsPart : SyntaxTree → NamePart → Prop where
  | identifier {t : SyntaxTree} (hkind : t.kind = .identifier) (hplain : '\\' ∉ t.text.toList) :
      ShowsPart t (.identifier t.text hplain)
  | continuation {t : SyntaxTree} (hkind : t.kind = .lineContinuation)
      (hback : '\\' ∈ t.text.toList) : ShowsPart t (.continuation t.text hback)

/-- A tree shows a dotted name. -/
structure ShowsName (t : SyntaxTree) (n : DottedName) : Prop where
  kind : t.kind = .dottedName
  parts : List.Forall₂ ShowsPart t.namedChildren n
  ne_nil : n ≠ []

/-- A tree shows a dotted name, be it with an alias. -/
inductive ShowsImported : SyntaxTree → DottedName → Prop where
  | plain {t : SyntaxTree} {n : DottedName} (h : ShowsName t n) : ShowsImported t n
  | aliased {t d : SyntaxTree} {n : DottedName} (hkind : t.kind = .aliasedImport)
      (hname : t.children.find? (·.role == .name) = some d) (h : ShowsName d n) : ShowsImported t n

/-- A tree shows what stands between `from` and `import`: a name, or dots that a name may follow. -/
inductive ShowsSource : SyntaxTree → Option DottedName → Prop where
  | absolute {t : SyntaxTree} {n : DottedName} (h : ShowsName t n) : ShowsSource t (some n)
  | relative {t d : SyntaxTree} {n : DottedName} (hkind : t.kind = .relativeImport)
      (hname : t.namedChildren.find? (·.kind == .dottedName) = some d) (h : ShowsName d n) :
      ShowsSource t (some n)
  | bare {t : SyntaxTree} (hkind : t.kind = .relativeImport)
      (hname : t.namedChildren.find? (·.kind == .dottedName) = none) : ShowsSource t none

end SyntaxTree

namespace LoopKind

/-- The kind of the tree of a loop. -/
def kind : LoopKind → NodeKind
  | .while => .other "while_statement"
  | .for => .other "for_statement"

end LoopKind

namespace DefinitionKind

/-- The kind of the tree of a definition. -/
def kind : DefinitionKind → NodeKind
  | .ofFunction => .other "function_definition"
  | .ofClass => .other "class_definition"

end DefinitionKind

namespace ClauseKind

/-- The kind of the tree of a clause. -/
def kind : ClauseKind → NodeKind
  | .handler => .exceptClause
  | .groupHandler => .other "except_group_clause"
  | .case => .caseClause

end ClauseKind

namespace SyntaxTree

mutual

/-- A tree shows a node. -/
inductive Shows : SyntaxTree → Ast → Prop where
  | module {t : SyntaxTree} {parts : List SyntaxTree} {body : List Ast} (hkind : t.kind = .module)
      (hparts : Amid parts t.children) (hbody : ShowsEach parts body) : Shows t (.module body)
  | simple {t : SyntaxTree} (hfree : t.isImportFree = true) : Shows t .simple
  | imports {t : SyntaxTree} {names : List DottedName} (hkind : t.kind = .importStatement)
      (hnames : List.Forall₂ ShowsImported (t.children.filter (·.role == .name)) names)
      (hfree : isImportFree.areImportFree t.children = true) : Shows t (.imports names)
  | importsFrom {t m : SyntaxTree} {source : Option DottedName}
      (hkind : t.kind = .importFromStatement)
      (hmodule : t.children.find? (·.role == .moduleName) = some m) (hsource : ShowsSource m source)
      (hfree : isImportFree.areImportFree t.children = true) : Shows t (.importsFrom source)
  | importsFuture {t : SyntaxTree} (hkind : t.kind = .futureImportStatement)
      (hfree : isImportFree.areImportFree t.children = true) :
      Shows t (.importsFrom (some [.identifier "__future__" (by decide)]))
  | branch {t b : SyntaxTree} {clauses : List SyntaxTree} {body otherwise : List Ast}
      (hkind : t.kind = .ifStatement) (hparts : Amid (b :: clauses) t.children)
      (hbody : ShowsBlock b body) (hclauses : ShowsAlternatives clauses otherwise) :
      Shows t (.branch body otherwise)
  | loop {t b : SyntaxTree} {clauses : List SyntaxTree} {k : LoopKind} {body otherwise : List Ast}
      (hkind : t.kind = k.kind) (hparts : Amid (b :: clauses) t.children)
      (hbody : ShowsBlock b body) (hclauses : ShowsOptional .elseClause clauses otherwise) :
      Shows t (.loop k body otherwise)
  | within {t b : SyntaxTree} {body : List Ast} (hkind : t.kind = .other "with_statement")
      (hparts : Amid [b] t.children) (hbody : ShowsBlock b body) : Shows t (.within body)
  | attempt {t b : SyntaxTree} {excepts elses finals : List SyntaxTree} {k : ClauseKind}
      {body handlers otherwise final : List Ast} (hkind : t.kind = .other "try_statement")
      (hparts : Amid (b :: excepts ++ elses ++ finals) t.children) (hbody : ShowsBlock b body)
      (hk : k = .handler ∨ k = .groupHandler) (hhandlers : ShowsClauses k excepts handlers)
      (helse : ShowsOptional .elseClause elses otherwise)
      (hfinal : ShowsOptional .finallyClause finals final) :
      Shows t (.attempt body handlers otherwise final)
  | definition {t b : SyntaxTree} {k : DefinitionKind} {body : List Ast} (hkind : t.kind = k.kind)
      (hparts : Amid [b] t.children) (hbody : ShowsBlock b body) : Shows t (.definition k body)
  | decorated {t d : SyntaxTree} {k : DefinitionKind} {body : List Ast}
      (hkind : t.kind = .decoratedDefinition) (hparts : Amid [d] t.children)
      (h : Shows d (.definition k body)) : Shows t (.definition k body)
  | choice {t b : SyntaxTree} {clauses : List SyntaxTree} {cases : List Ast}
      (hkind : t.kind = .other "match_statement") (hparts : Amid [b] t.children)
      (hblock : b.kind = .block) (hclauses : Amid clauses b.children)
      (hcases : ShowsClauses .case clauses cases) : Shows t (.choice cases)

/-- Trees show nodes one by one. -/
inductive ShowsEach : List SyntaxTree → List Ast → Prop where
  | nil : ShowsEach [] []
  | cons {t : SyntaxTree} {ts : List SyntaxTree} {a : Ast} {nodes : List Ast} (h : Shows t a)
      (hs : ShowsEach ts nodes) : ShowsEach (t :: ts) (a :: nodes)

/-- A block shows the statements of a body. -/
inductive ShowsBlock : SyntaxTree → List Ast → Prop where
  | intro {t : SyntaxTree} {parts : List SyntaxTree} {body : List Ast} (hkind : t.kind = .block)
      (hparts : Amid parts t.children) (hbody : ShowsEach parts body) : ShowsBlock t body

/-- No clause shows an empty body, and one clause the body of its block. -/
inductive ShowsOptional : NodeKind → List SyntaxTree → List Ast → Prop where
  | absent {kind : NodeKind} : ShowsOptional kind [] []
  | clause {kind : NodeKind} {t b : SyntaxTree} {body : List Ast} (hkind : t.kind = kind)
      (hparts : Amid [b] t.children) (hbody : ShowsBlock b body) : ShowsOptional kind [t] body

/-- Trees show handlers or cases one by one. -/
inductive ShowsClauses : ClauseKind → List SyntaxTree → List Ast → Prop where
  | nil {k : ClauseKind} : ShowsClauses k [] []
  | cons {k : ClauseKind} {t b : SyntaxTree} {ts : List SyntaxTree} {body clauses : List Ast}
      (hkind : t.kind = k.kind) (hparts : Amid [b] t.children) (hbody : ShowsBlock b body)
      (hs : ShowsClauses k ts clauses) : ShowsClauses k (t :: ts) (.clause k body :: clauses)

/-- The clauses of an `if` show what it does otherwise: each `elif` is an `if` of its own. -/
inductive ShowsAlternatives : List SyntaxTree → List Ast → Prop where
  | absent : ShowsAlternatives [] []
  | otherwise {t b : SyntaxTree} {body : List Ast} (hkind : t.kind = .elseClause)
      (hparts : Amid [b] t.children) (hbody : ShowsBlock b body) : ShowsAlternatives [t] body
  | elif {t b : SyntaxTree} {ts : List SyntaxTree} {body otherwise : List Ast}
      (hkind : t.kind = .elifClause) (hparts : Amid [b] t.children) (hbody : ShowsBlock b body)
      (hs : ShowsAlternatives ts otherwise) : ShowsAlternatives (t :: ts) [.branch body otherwise]

end

end SyntaxTree

end RepoSurvey.Python
