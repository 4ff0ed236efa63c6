import RepoSurvey.Proofs.OffenceSearch
import RepoSurvey.Proofs.PythonLevels

/-!
The modules that a tree imports are found in the order in which a breadth-first walk meets them in the
abstract syntax. A line that ends within a name is taken for a part of the name.
-/

namespace RepoSurvey.Python

open SyntaxTree

/-- The names come in the order of the walk, whatever their parts are. -/
theorem SyntaxTree.Shows.imports_eq {t : SyntaxTree} {body : List Ast}
    (hshows : Shows t (.module body)) (hclean : t.firstOffence = none) :
    t.imports = .ok ((Ast.walk [.module body]).map DottedName.joined) := by
  have hlevel : levelsOf [t] = [.ofNode t] := by
    match hshows with
    | .module hkind _ _ =>
      exact levelsOf_of_not_transparent (by simp [isNamed, hkind, NodeKind.isNamed])
        (by simp [isTransparent, hkind])
  have hmatches := hshows.matches
  rw [hlevel] at hmatches
  rw [SyntaxTree.imports, search_singleton, hclean, hmatches.visit_eq]

theorem map_joined_eq_map_module_iff (names : List DottedName) :
    names.map DottedName.joined = names.map DottedName.module ↔ ∀ n ∈ names, n.IsUnbroken := by
  rw [List.map_inj_left]
  constructor
  · intro h n hn
    exact n.joined_eq_module_iff.mp (h n hn)
  · intro h n hn
    exact n.joined_eq_module_iff.mpr (h n hn)

/-- A node that is seen for its children. -/
def inner (kind : NodeKind) (children : List SyntaxTree) : SyntaxTree :=
  .node kind .other false .start .start "" children

def leaf (kind : NodeKind) (text : String) : SyntaxTree :=
  .node kind .other false .start .start text []

/-- An `import` of one name. -/
def importOf (parts : List SyntaxTree) : SyntaxTree :=
  inner .importStatement
    [leaf (.token "import") "import", .node .dottedName .name false .start .start "" parts]

theorem showsPart_identifier (text : String) (hplain : '\\' ∉ text.toList) :
    ShowsPart (leaf .identifier text) (.identifier text hplain) :=
  @ShowsPart.identifier (leaf .identifier text) rfl hplain

theorem shows_importOf {parts : List SyntaxTree} {n : DottedName}
    (hparts : List.Forall₂ ShowsPart (parts.filter isNamed) n) (hne : n ≠ [])
    (hfree : ∀ p ∈ parts, p.isImportFree = true) : Shows (importOf parts) (.imports [n]) := by
  refine .imports rfl (.cons (.plain ⟨rfl, hparts, hne⟩) .nil) ?_
  rw [← areImportFree_iff] at hfree
  simp [importOf, inner, leaf, SyntaxTree.children, isImportFree.areImportFree, isImportFree,
    NodeKind.importsModules, hfree]

/-- The tree of `if a: import b`, `elif c: import d`, `else: import e` and then `import f`. -/
def conditionalImports : SyntaxTree :=
  inner .module
    [inner .ifStatement
      [leaf (.token "if") "if", leaf .identifier "a",
        inner .block [importOf [leaf .identifier "b"]],
        inner .elifClause
          [leaf (.token "elif") "elif", leaf .identifier "c",
            inner .block [importOf [leaf .identifier "d"]]],
        inner .elseClause
          [leaf (.token "else") "else", inner .block [importOf [leaf .identifier "e"]]]],
      importOf [leaf .identifier "f"]]

def importsOf (text : String) (hplain : '\\' ∉ text.toList) : Ast :=
  .imports [[.identifier text hplain]]

def conditionalBody : List Ast :=
  [.branch [importsOf "b" (by decide)]
      [.branch [importsOf "d" (by decide)] [importsOf "e" (by decide)]],
    importsOf "f" (by decide)]

theorem shows_importOf_identifier (text : String) (hplain : '\\' ∉ text.toList) :
    Shows (importOf [leaf .identifier text]) (importsOf text hplain) := by
  refine shows_importOf (.cons (showsPart_identifier text hplain) .nil) (by simp) ?_
  simp only [List.forall_mem_singleton]
  rfl

theorem showsBlock_importOf (text : String) (hplain : '\\' ∉ text.toList) :
    ShowsBlock (inner .block [importOf [leaf .identifier text]]) [importsOf text hplain] :=
  .intro rfl (.part .nil) (.cons (shows_importOf_identifier text hplain) .nil)

theorem shows_conditionalImports : Shows conditionalImports (.module conditionalBody) := by
  have helse := ShowsAlternatives.otherwise (t := inner .elseClause
    [leaf (.token "else") "else", inner .block [importOf [leaf .identifier "e"]]])
    rfl (.other rfl rfl (.part .nil)) (showsBlock_importOf "e" (by decide))
  have helif := ShowsAlternatives.elif (t := inner .elifClause
    [leaf (.token "elif") "elif", leaf .identifier "c",
      inner .block [importOf [leaf .identifier "d"]]])
    rfl (.other rfl rfl (.other rfl rfl (.part .nil))) (showsBlock_importOf "d" (by decide)) helse
  refine .module rfl (.part (.part .nil)) (.cons ?_ (.cons (shows_importOf_identifier "f" _) .nil))
  exact .branch rfl (.other rfl rfl (.other rfl rfl (.part (.part (.part .nil)))))
    (showsBlock_importOf "b" (by decide)) helif

/-- The tree of `import a.b` with the end of a line after the dot. -/
def brokenImport : SyntaxTree :=
  inner .module [importOf [leaf .identifier "a", leaf (.token ".") ".",
    leaf .lineContinuation "\\\n", leaf .identifier "b"]]

def brokenName : DottedName :=
  [.identifier "a" (by decide), .continuation "\\\n" (by decide), .identifier "b" (by decide)]

theorem shows_brokenImport : Shows brokenImport (.module [.imports [brokenName]]) := by
  have ha := showsPart_identifier "a" (by decide)
  have hend : ShowsPart (leaf .lineContinuation "\\\n") (.continuation "\\\n" (by decide)) :=
    @ShowsPart.continuation (leaf .lineContinuation "\\\n") rfl (by decide)
  have hb := showsPart_identifier "b" (by decide)
  refine .module rfl (.part .nil) (.cons (shows_importOf ?_ (by simp [brokenName]) ?_) .nil)
  · exact .cons ha (.cons hend (.cons hb .nil))
  · simp only [List.forall_mem_cons]
    decide

/-- A module without an offending node imports what a breadth-first walk through its abstract syntax
meets, in that order. Every module is given its name if and only if no line ends within a name. -/
theorem SyntaxTree.imports_eq_walk_iff {t : SyntaxTree} {body : List Ast}
    (hshows : Shows t (.module body)) (hclean : t.firstOffence = none) :
    t.imports = .ok ((Ast.walk [.module body]).map DottedName.joined) ∧
      (t.imports = .ok ((Ast.walk [.module body]).map DottedName.module) ↔
        ∀ n ∈ Ast.walk [.module body], n.IsUnbroken) := by
  have hjoined := hshows.imports_eq hclean
  refine ⟨hjoined, ?_⟩
  rw [hjoined, Except.ok.injEq]
  exact map_joined_eq_map_module_iff _

theorem imports_of_conditionalImports :
    Shows conditionalImports (.module conditionalBody) ∧ conditionalImports.firstOffence = none ∧
      conditionalImports.imports = .ok ["f", "b", "d", "e"] := by
  have hclean : conditionalImports.firstOffence = none := by decide
  refine ⟨shows_conditionalImports, hclean, ?_⟩
  have hwalk : Ast.walk [.module conditionalBody] =
      [[.identifier "f" (by decide)], [.identifier "b" (by decide)], [.identifier "d" (by decide)],
        [.identifier "e" (by decide)]] := by
    simp [Ast.walk, conditionalBody, importsOf, Ast.names, Ast.children]
  have hunbroken : ∀ n ∈ Ast.walk [.module conditionalBody], n.IsUnbroken := by
    rw [hwalk]
    decide
  rw [(imports_eq_walk_iff shows_conditionalImports hclean).2.mpr hunbroken, hwalk]
  rfl

/-- The end of the line becomes a part of the name. -/
theorem imports_of_brokenImport :
    Shows brokenImport (.module [.imports [brokenName]]) ∧ brokenImport.firstOffence = none ∧
      (Ast.walk [.module [.imports [brokenName]]]).map DottedName.module = ["a.b"] ∧
      brokenImport.imports = .ok ["a.\\\n.b"] ∧
      brokenImport.imports ≠ .ok ((Ast.walk [.module [.imports [brokenName]]]).map DottedName.module) := by
  have hclean : brokenImport.firstOffence = none := by decide
  have hwalk : Ast.walk [.module [.imports [brokenName]]] = [brokenName] := by
    simp [Ast.walk, Ast.names, Ast.children]
  have hmodule : [brokenName].map DottedName.module = ["a.b"] := by decide
  have himports : brokenImport.imports = .ok ["a.\\\n.b"] := by
    rw [shows_brokenImport.imports_eq hclean, hwalk]
    rfl
  rw [hwalk, hmodule, himports]
  exact ⟨shows_brokenImport, hclean, rfl, rfl, by decide⟩

end RepoSurvey.Python
