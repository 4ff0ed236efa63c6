import RepoSurvey.Extraction
import RepoSurvey.Proofs.PythonOrder

/-!
The constructs that only Python 2 has, and which of them make a source unusable. The grammar takes all of
them. A raise of several expressions and a tuple among parameters are not looked for, so a source with no
other construct of Python 2 is taken for one of Python 3.
-/

namespace RepoSurvey.Python

/-- The constructs that the grammar knows and only Python 2 has. -/
inductive Python2Form where
  | printStatement
  | execStatement
  /-- `except E, e:` -/
  | commaHandler
  /-- `a <> b` -/
  | lessGreater
  /-- `0777` -/
  | leadingZero
  /-- `10L` -/
  | long
  /-- `raise E, e` -/
  | commaRaise
  /-- `def f((a, b)):` or `lambda (a, b): a` -/
  | tupleParameter
  deriving DecidableEq

/-- The characters of a number. Underscores only make it easier to read. -/
def numerals (text : String) : List Char := text.toList.filter (· != '_')

namespace Python2Form

/-- A node is written in a form. -/
def Shows : Python2Form → SyntaxTree → Prop
  | printStatement, t => t.kind = .printStatement
  | execStatement, t => t.kind = .execStatement
  | commaHandler, t => t.kind = .exceptClause ∧ ((∃ c ∈ t.children, c.kind = .token ",") ∨
      ∃ c ∈ t.namedChildren.head?, c.kind = .expressionList)
  | lessGreater, t => t.kind = .comparisonOperator ∧ ∃ c ∈ t.children, c.kind = .token "<>"
  | leadingZero, t => t.kind = .integer ∧ (numerals t.text).head? = some '0' ∧
      (∀ d ∈ numerals t.text, d.isDigit) ∧ ∃ d ∈ numerals t.text, d ≠ '0'
  | long, t => t.kind = .integer ∧
      ((numerals t.text).getLast? = some 'l' ∨ (numerals t.text).getLast? = some 'L')
  | commaRaise, t => t.kind = .raiseStatement ∧ ∃ c ∈ t.children, c.kind = .expressionList
  | tupleParameter, t => (t.kind = .parameters ∨ t.kind = .lambdaParameters) ∧
      ∃ c ∈ t.children, c.kind = .tuplePattern

/-- Whether a form is looked for. -/
def isSought : Python2Form → Bool
  | commaRaise | tupleParameter => false
  | _ => true

end Python2Form

namespace SyntaxTree

variable {t u : SyntaxTree}

/-- A form is used somewhere in a tree. -/
def Uses (t : SyntaxTree) (f : Python2Form) : Prop := ∃ p u, t.subtree? p = some u ∧ f.Shows u

/-- Some text in a tree fits no rule, or something is missing in it. -/
def IsBroken (t : SyntaxTree) : Prop :=
  ∃ p u, t.subtree? p = some u ∧ (u.kind = .error ∨ u.missing = true)

/-- A node fits no rule, is missing, or is written in a form that is looked for. -/
def Offends (t : SyntaxTree) : Prop :=
  t.kind = .error ∨ t.missing = true ∨ ∃ f : Python2Form, f.isSought = true ∧ f.Shows t

/-! ### What is looked for at a node -/

theorem one_lt_length_of_head?_of_mem {l : List Char} {c d : Char} (hhead : l.head? = some c)
    (hd : d ∈ l) (hne : d ≠ c) : 1 < l.length := by
  obtain ⟨ds, rfl⟩ := List.head?_eq_some_iff.mp hhead
  rcases List.mem_cons.mp hd with rfl | hd
  · exact absurd rfl hne
  · have hpos := List.length_pos_of_mem hd
    rw [List.length_cons]
    omega

theorem isPython2Integer_iff (text : String) : isPython2Integer text = true ↔
    ((numerals text).head? = some '0' ∧ (∀ d ∈ numerals text, d.isDigit) ∧
      ∃ d ∈ numerals text, d ≠ '0') ∨
      (numerals text).getLast? = some 'l' ∨ (numerals text).getLast? = some 'L' := by
  have hdigit (c : Char) : (decide ('0' ≤ c) && decide (c ≤ '9')) = c.isDigit := by
    rw [Bool.eq_iff_iff, Char.isDigit]
    simp [Char.le_def, UInt32.le_iff_toNat_le]
  -- With the digits named, the two sides differ only in the length, which follows from what they say.
  have hinteger : isPython2Integer text = ((numerals text).getLast? == some 'l' ||
      (numerals text).getLast? == some 'L' || (decide ((numerals text).length > 1) &&
        (numerals text).head? == some '0' &&
        (numerals text).all (fun c => decide ('0' ≤ c) && decide (c ≤ '9')) &&
        (numerals text).any (· != '0'))) := rfl
  rw [hinteger]
  simp only [hdigit, Bool.or_eq_true, Bool.and_eq_true, beq_iff_eq, decide_eq_true_eq,
    List.all_eq_true, List.any_eq_true, bne_iff_ne]
  constructor
  · rintro (hlong | ⟨⟨⟨-, hhead⟩, hdigits⟩, hne⟩)
    · exact .inr hlong
    · exact .inl ⟨hhead, hdigits, hne⟩
  · rintro (⟨hhead, hdigits, d, hd, hne⟩ | hlong)
    · have hlength := one_lt_length_of_head?_of_mem hhead hd hne
      exact .inr ⟨⟨⟨hlength, hhead⟩, hdigits⟩, d, hd, hne⟩
    · exact .inl hlong

theorem hasToken_iff (text : String) : t.hasToken text = true ↔ ∃ c ∈ t.children, c.kind = .token text := by
  simp [hasToken]

theorem head?_namedChildren_any_iff (kind : NodeKind) :
    (t.namedChildren.head?.any (·.kind == kind)) = true ↔
      ∃ c ∈ t.namedChildren.head?, c.kind = kind := by
  rw [Option.any_eq_true]
  simp only [beq_iff_eq, Option.mem_def]

/-- What is taken for a construct of Python 2 at a node is written in a form that is looked for. -/
theorem isPython2Only_iff : t.isPython2Only = true ↔ ∃ f : Python2Form, f.isSought = true ∧ f.Shows t := by
  constructor
  · intro h
    rw [isPython2Only] at h
    split at h
    · next hkind => exact ⟨.printStatement, rfl, hkind⟩
    · next hkind => exact ⟨.execStatement, rfl, hkind⟩
    · next hkind =>
      rw [Bool.or_eq_true, hasToken_iff, head?_namedChildren_any_iff] at h
      exact ⟨.commaHandler, rfl, hkind, h⟩
    · next hkind => exact ⟨.lessGreater, rfl, hkind, (hasToken_iff _).mp h⟩
    · next hkind =>
      rcases (isPython2Integer_iff _).mp h with hoctal | hlong
      · exact ⟨.leadingZero, rfl, hkind, hoctal⟩
      · exact ⟨.long, rfl, hkind, hlong⟩
    · cases h
  · rintro ⟨f, hsought, hshows⟩
    rw [isPython2Only]
    cases f with
    | printStatement =>
      have hkind : t.kind = .printStatement := hshows
      rw [hkind]
    | execStatement =>
      have hkind : t.kind = .execStatement := hshows
      rw [hkind]
    | commaHandler =>
      obtain ⟨hkind, hcomma⟩ := hshows
      rw [hkind]
      dsimp only
      rw [Bool.or_eq_true, hasToken_iff, head?_namedChildren_any_iff]
      exact hcomma
    | lessGreater =>
      obtain ⟨hkind, htoken⟩ := hshows
      rw [hkind]
      exact (hasToken_iff _).mpr htoken
    | leadingZero =>
      obtain ⟨hkind, hoctal⟩ := hshows
      rw [hkind]
      exact (isPython2Integer_iff _).mpr (.inl hoctal)
    | long =>
      obtain ⟨hkind, hlong⟩ := hshows
      rw [hkind]
      exact (isPython2Integer_iff _).mpr (.inr hlong)
    | commaRaise | tupleParameter => cases hsought

theorem isOffence_iff : t.isOffence = true ↔ t.Offends := by
  rw [isOffence, Bool.or_eq_true, Bool.or_eq_true, beq_iff_eq, isPython2Only_iff, or_assoc, Offends]

/-! ### Where it is looked for -/

/-- Nothing is refused in a tree without offending nodes. -/
theorem firstOffence_eq_none_iff : t.firstOffence = none ↔
    ∀ p u, t.subtree? p = some u → ¬ u.Offends := by
  rw [firstOffence_eq_find, List.find?_eq_none]
  constructor
  · intro h p u hu hoffends
    exact h u (mem_nodes.mpr ⟨p, hu⟩) (isOffence_iff.mpr hoffends)
  · intro h u hu hoffence
    obtain ⟨p, hp⟩ := mem_nodes.mp hu
    exact h p u hp (isOffence_iff.mp hoffence)

/-- A tree gives its imports if and only if none of its nodes offends. -/
theorem imports_ok_iff : (∃ names, t.imports = .ok names) ↔ ∀ p u, t.subtree? p = some u → ¬ u.Offends := by
  rw [← firstOffence_eq_none_iff, imports, search_singleton]
  cases t.firstOffence with
  | none => exact ⟨fun _ => rfl, fun _ => ⟨_, rfl⟩⟩
  | some o =>
    constructor
    · rintro ⟨names, hnames⟩
      cases hnames
    · intro h
      cases h

theorem imports_error_iff : (∃ e, t.imports = .error e) ↔ ∃ p u, t.subtree? p = some u ∧ u.Offends := by
  have hok := imports_ok_iff (t := t)
  constructor
  · rintro ⟨e, he⟩
    by_contra hnone
    obtain ⟨names, hnames⟩ := hok.mpr fun p u hu hoffends => hnone ⟨p, u, hu, hoffends⟩
    rw [he] at hnames
    cases hnames
  · rintro ⟨p, u, hu, hoffends⟩
    cases himports : t.imports with
    | error e => exact ⟨e, rfl⟩
    | ok names => exact absurd hoffends (hok.mp ⟨names, himports⟩ p u hu)

/-- Nodes offend in a tree that is broken or uses a form that is looked for. -/
theorem exists_offends_iff : (∃ p u, t.subtree? p = some u ∧ u.Offends) ↔
    t.IsBroken ∨ ∃ f : Python2Form, f.isSought = true ∧ t.Uses f := by
  constructor
  · rintro ⟨p, u, hu, herror | hmissing | ⟨f, hsought, hshows⟩⟩
    · exact .inl ⟨p, u, hu, .inl herror⟩
    · exact .inl ⟨p, u, hu, .inr hmissing⟩
    · exact .inr ⟨f, hsought, p, u, hu, hshows⟩
  · rintro (⟨p, u, hu, herror | hmissing⟩ | ⟨f, hsought, p, u, hu, hshows⟩)
    · exact ⟨p, u, hu, .inl herror⟩
    · exact ⟨p, u, hu, .inr (.inl hmissing)⟩
    · exact ⟨p, u, hu, .inr (.inr ⟨f, hsought, hshows⟩)⟩

end SyntaxTree

/-- A tree is refused if and only if it is broken or uses a form that is looked for, and a source with
such a tree imports nothing. -/
theorem refused_iff_uses (t : SyntaxTree) :
    ((∃ e, t.imports = .error e) ↔ t.IsBroken ∨ ∃ f : Python2Form, f.isSought = true ∧ t.Uses f) ∧
      ∀ source e, parse source = t → t.imports = .error e →
        Strategy.structural.imports source = .error e ∧
          Strategy.structural.importsOrNone source = [] := by
  refine ⟨SyntaxTree.imports_error_iff.trans SyntaxTree.exists_offends_iff, ?_⟩
  rintro source e rfl he
  have himports : Strategy.structural.imports source = .error e := he
  refine ⟨himports, ?_⟩
  rw [Strategy.importsOrNone, himports]
  rfl

/-- The tree of `raise E, m` and then `import os`. -/
def raisedPair : SyntaxTree :=
  inner .module
    [inner .raiseStatement
      [leaf (.token "raise") "raise",
        inner .expressionList [leaf .identifier "E", leaf (.token ",") ",", leaf .identifier "m"]],
      importOf [leaf .identifier "os"]]

/-- The tree of `def f((a, b)): pass` and then `import os`. -/
def unpackedParameter : SyntaxTree :=
  inner .module
    [inner (.other "function_definition")
      [leaf (.token "def") "def", leaf .identifier "f",
        inner .parameters
          [leaf (.token "(") "(",
            inner .tuplePattern
              [leaf (.token "(") "(", leaf .identifier "a", leaf (.token ",") ",",
                leaf .identifier "b", leaf (.token ")") ")"],
            leaf (.token ")") ")"],
        leaf (.token ":") ":",
        inner .block [inner (.other "pass_statement") [leaf (.token "pass") "pass"]]],
      importOf [leaf .identifier "os"]]

/-- A source imports what follows a statement that imports nothing. -/
theorem imports_of_simple {s : SyntaxTree} (hfree : s.isImportFree = true)
    (hclean : (inner .module [s, importOf [leaf .identifier "os"]]).firstOffence = none) :
    (inner .module [s, importOf [leaf .identifier "os"]]).imports = .ok ["os"] := by
  have hshows : SyntaxTree.Shows (inner .module [s, importOf [leaf .identifier "os"]])
      (.module [.simple, importsOf "os" (by decide)]) :=
    .module rfl (.part (.part .nil))
      (.cons (.simple hfree) (.cons (shows_importOf_identifier "os" _) .nil))
  have hwalk : Ast.walk [.module [.simple, importsOf "os" (by decide)]] =
      [[.identifier "os" (by decide)]] := by
    simp [Ast.walk, importsOf, Ast.names, Ast.children]
  rw [hshows.imports_eq hclean, hwalk]
  rfl

/-- A raise of two expressions and a tuple among parameters are let through. -/
theorem imports_of_python2Sources :
    raisedPair.Uses .commaRaise ∧ raisedPair.imports = .ok ["os"] ∧
      unpackedParameter.Uses .tupleParameter ∧ unpackedParameter.imports = .ok ["os"] := by
  refine ⟨⟨[0], _, rfl, rfl, ?_⟩, imports_of_simple rfl (by decide), ⟨[0, 2], _, rfl, .inl rfl, ?_⟩,
    imports_of_simple rfl (by decide)⟩
  · exact ⟨_, List.mem_cons_of_mem _ List.mem_cons_self, rfl⟩
  · exact ⟨_, List.mem_cons_of_mem _ List.mem_cons_self, rfl⟩

end RepoSurvey.Python
