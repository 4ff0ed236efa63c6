import RepoSurvey.Proofs.PythonOrder
import RepoSurvey.Proofs.VisitedStatements
import RepoSurvey.Text.Blank
import RepoSurvey.Text.Identifier

/-!
The text of a dotted name. A statement reports all parts of the name that have a name of their own, with
dots between them. A comment or the end of a line among the identifiers is such a part, so it gets into
the module.
-/

namespace RepoSurvey

/-! ### The characters of identifiers -/

namespace Text

variable {ranges : Array (Nat × Nat)} {n : Nat} {c : Char}

theorem exists_of_inRanges (h : inRanges ranges n = true) : ∃ r ∈ ranges, r.1 ≤ n ∧ n ≤ r.2 := by
  have hgo (lo hi : Nat) (fits : hi ≤ ranges.size) (hfound : inRanges.go ranges n lo hi fits = true) :
      ∃ r ∈ ranges, r.1 ≤ n ∧ n ≤ r.2 := by
    induction lo, hi, fits using inRanges.go.induct ranges n with
    | case1 lo hi fits hopen mid hmid hless ih =>
      rw [inRanges.go, dif_pos hopen] at hfound
      exact ih (by simpa [hless, mid] using hfound)
    | case2 lo hi fits hopen mid hmid hless hmore ih =>
      rw [inRanges.go, dif_pos hopen] at hfound
      exact ih (by simpa [hless, hmore, mid] using hfound)
    | case3 lo hi fits hopen mid hmid hless hmore =>
      exact ⟨ranges[mid], Array.getElem_mem hmid, by omega, by omega⟩
    | case4 lo hi fits hopen =>
      rw [inRanges.go, dif_neg hopen] at hfound
      cases hfound
  exact hgo 0 ranges.size (Nat.le_refl _) h

/-- No white space lies in some ranges. -/
def missesBlanks (ranges : Array (Nat × Nat)) : Bool :=
  ranges.toList.all fun r => blankRanges.all fun b => Nat.blt r.2 b.1 || Nat.blt b.2 r.1

theorem missesBlanks_identifierStarts : missesBlanks identifierStarts = true := by decide +kernel

theorem missesBlanks_identifierRest : missesBlanks identifierRest = true := by decide +kernel

theorem isBlank_of_inRanges (hmisses : missesBlanks ranges = true)
    (h : inRanges ranges c.toNat = true) : isBlank c = false := by
  obtain ⟨r, hr, hlow, hhigh⟩ := exists_of_inRanges h
  rw [missesBlanks, List.all_eq_true] at hmisses
  have hapart := hmisses r (Array.mem_toList_iff.mpr hr)
  rw [List.all_eq_true] at hapart
  rw [isBlank, List.any_eq_false]
  intro b hb
  have hdisjoint := hapart b hb
  rw [Bool.or_eq_true, Nat.blt_eq, Nat.blt_eq] at hdisjoint
  simp only [Bool.and_eq_true, decide_eq_true_eq]
  omega

theorem toNat_of_isAlphanum (h : c.isAlphanum = true) : ((65 ≤ c.toNat ∧ c.toNat ≤ 90) ∨
    (97 ≤ c.toNat ∧ c.toNat ≤ 122)) ∨ (48 ≤ c.toNat ∧ c.toNat ≤ 57) := by
  simp only [Char.isAlphanum, Char.isAlpha, Char.isUpper, Char.isLower, Char.isDigit, Bool.or_eq_true,
    Bool.and_eq_true, decide_eq_true_eq, UInt32.le_iff_toNat_le] at h
  exact h

theorem toNat_of_isBlank (h : isBlank c = true) :
    c.toNat ≤ 13 ∨ c.toNat = 32 ∨ 128 ≤ c.toNat := by
  simp [isBlank, blankRanges] at h
  omega

/-- Identifiers hold neither white space nor a backslash. -/
theorem of_isIdentifierRest (h : isIdentifierRest c = true) : isBlank c = false ∧ c ≠ '\\' := by
  rw [isIdentifierRest] at h
  split at h
  · next hascii =>
    have hcode : (48 ≤ c.toNat ∧ c.toNat ≤ 57) ∨ (65 ≤ c.toNat ∧ c.toNat ≤ 90) ∨ c.toNat = 95 ∨
        (97 ≤ c.toNat ∧ c.toNat ≤ 122) := by
      rcases (Bool.or_eq_true _ _).mp h with halphanum | hunderscore
      · have hranges := toNat_of_isAlphanum halphanum
        omega
      · rw [beq_iff_eq] at hunderscore
        subst hunderscore
        decide
    constructor
    · by_contra hblank
      have hlow := toNat_of_isBlank (by simpa using hblank)
      omega
    · rintro rfl
      revert hcode
      decide
  · next hascii =>
    constructor
    · rcases (Bool.or_eq_true _ _).mp h with hstart | hrest
      · exact isBlank_of_inRanges missesBlanks_identifierStarts hstart
      · exact isBlank_of_inRanges missesBlanks_identifierRest hrest
    · rintro rfl
      exact hascii (by decide)

end Text

namespace Python

namespace SyntaxTree

variable {t s d c : SyntaxTree} {names : List SyntaxTree} {p : List Nat}

/-! ### Dotted names -/

/-- Comments and ends of lines may stand between any two parts of a statement. -/
def isExtra (t : SyntaxTree) : Bool := t.kind == .comment || t.kind == .lineContinuation

/-- Identifiers with a dot between each two. -/
inductive Alternates : List NodeKind → Prop where
  | last : Alternates [.identifier]
  | dot {kinds : List NodeKind} (h : Alternates kinds) : Alternates (.identifier :: .token "." :: kinds)

/-- The text of a part of a name shows what it is: an identifier by its characters, a comment and the end
of a line by the sign that they begin with. -/
def hasOwnText (t : SyntaxTree) : Bool :=
  match t.kind with
  | .identifier => t.text.toList.all Text.isIdentifierRest
  | .comment => t.text.toList.head? == some '#'
  | .lineContinuation => t.text.toList.head? == some '\\'
  | _ => true

/-- A dotted name as the grammar has it: identifiers and dots, and any comments and ends of lines among
them. -/
structure IsDotted (t : SyntaxTree) : Prop where
  kind : t.kind = .dottedName
  alternates : Alternates ((t.children.filter (!·.isExtra)).map SyntaxTree.kind)
  texts : ∀ c ∈ t.children, c.hasOwnText = true

/-- The module that a dotted name stands for: its identifiers, joined by dots. -/
def moduleText (t : SyntaxTree) : String :=
  ".".intercalate ((t.children.filter (·.kind == .identifier)).map text)

/-- All parts of a dotted name but its dots, joined by dots. -/
def partsText (t : SyntaxTree) : String := ".".intercalate (t.namedChildren.map text)

theorem Alternates.eq_or_eq {kinds : List NodeKind} (h : Alternates kinds) :
    ∀ k ∈ kinds, k = .identifier ∨ k = .token "." := by
  induction h with
  | last =>
    intro k hk
    exact .inl (List.mem_singleton.mp hk)
  | dot _ ih =>
    rw [List.forall_mem_cons, List.forall_mem_cons]
    exact ⟨.inl rfl, .inr rfl, ih⟩

theorem Alternates.identifier_mem {kinds : List NodeKind} (h : Alternates kinds) :
    .identifier ∈ kinds := by
  cases h with
  | last => exact List.mem_singleton_self _
  | dot _ => exact List.mem_cons_self

theorem isIdentifierRest_of_hasOwnText (h : c.hasOwnText = true) (hkind : c.kind = .identifier) :
    ∀ x ∈ c.text.toList, Text.isIdentifierRest x = true := by
  rw [hasOwnText, hkind] at h
  exact List.all_eq_true.mp h

/-- A sign that no identifier holds begins a comment and the end of a line. -/
theorem exists_sign_of_isExtra (h : c.hasOwnText = true) (hextra : c.isExtra = true) :
    ∃ x ∈ c.text.toList, x ≠ '.' ∧ Text.isIdentifierRest x = false := by
  rw [isExtra, Bool.or_eq_true, beq_iff_eq, beq_iff_eq] at hextra
  rw [hasOwnText] at h
  rcases hextra with hkind | hkind
  · rw [hkind] at h
    exact ⟨'#', List.mem_of_head? (beq_iff_eq.mp h), by decide, by decide⟩
  · rw [hkind] at h
    exact ⟨'\\', List.mem_of_head? (beq_iff_eq.mp h), by decide, by decide⟩

theorem isNamed_of_isExtra (h : c.isExtra = true) : c.isNamed = true := by
  rw [isExtra, Bool.or_eq_true, beq_iff_eq, beq_iff_eq] at h
  unfold isNamed
  rcases h with hkind | hkind
  · rw [hkind]
    rfl
  · rw [hkind]
    rfl

namespace IsDotted

/-- What is no extra in a dotted name has a name of its own exactly if it is an identifier. -/
theorem isNamed_eq (h : t.IsDotted) (hc : c ∈ t.children) (hextra : c.isExtra = false) :
    c.isNamed = (c.kind == .identifier) := by
  have hmem : c.kind ∈ (t.children.filter (!·.isExtra)).map SyntaxTree.kind :=
    List.mem_map_of_mem (List.mem_filter.mpr ⟨hc, by simp [hextra]⟩)
  unfold isNamed
  rcases h.alternates.eq_or_eq _ hmem with hkind | hkind
  · rw [hkind]
    rfl
  · rw [hkind]
    rfl

theorem namedChildren_ne_nil (h : t.IsDotted) : t.namedChildren ≠ [] := by
  obtain ⟨c, hc, hkind⟩ := List.mem_map.mp h.alternates.identifier_mem
  have hnamed : c.isNamed = true := by
    unfold isNamed
    rw [hkind]
    rfl
  exact List.ne_nil_of_mem (List.mem_filter.mpr ⟨(List.mem_filter.mp hc).1, hnamed⟩)

theorem dottedText_eq (h : t.IsDotted) : t.dottedText = some t.partsText := by
  unfold dottedText
  rw [h.kind]
  dsimp only
  split
  · next hnil => exact absurd hnil h.namedChildren_ne_nil
  · rfl

/-- The module is made of the characters of identifiers and of dots. -/
theorem of_mem_moduleText (h : t.IsDotted) {x : Char} (hx : x ∈ t.moduleText.toList) :
    x = '.' ∨ Text.isIdentifierRest x = true := by
  by_cases hdot : x = '.'
  · exact .inl hdot
  · rw [moduleText, DottedName.mem_intercalate_iff hdot] at hx
    obtain ⟨text, htext, hx⟩ := hx
    obtain ⟨c, hc, rfl⟩ := List.mem_map.mp htext
    obtain ⟨hc, hkind⟩ := List.mem_filter.mp hc
    exact .inr (isIdentifierRest_of_hasOwnText (h.texts c hc) (by simpa using hkind) x hx)

/-- The parts of a name give its module if and only if no extra is among them. -/
theorem partsText_eq_moduleText_iff (h : t.IsDotted) :
    t.partsText = t.moduleText ↔ ∀ c ∈ t.children, c.isExtra = false := by
  constructor
  · intro heq c hc
    by_contra hextra
    rw [Bool.not_eq_false] at hextra
    -- The sign of the extra is in what is reported but in no module.
    obtain ⟨x, hx, hdot, hsign⟩ := exists_sign_of_isExtra (h.texts c hc) hextra
    have hnamed := isNamed_of_isExtra hextra
    have hparts : x ∈ t.partsText.toList := by
      rw [partsText, DottedName.mem_intercalate_iff hdot]
      exact ⟨c.text, List.mem_map_of_mem (List.mem_filter.mpr ⟨hc, hnamed⟩), hx⟩
    rw [heq] at hparts
    rw [(h.of_mem_moduleText hparts).resolve_left hdot] at hsign
    cases hsign
  · intro hextra
    have hparts : t.namedChildren = t.children.filter (·.kind == .identifier) :=
      List.filter_congr fun c hc => h.isNamed_eq hc (hextra c hc)
    rw [partsText, moduleText, hparts]

end IsDotted

/-! ### Statements -/

/-- A child of an `import` brings in a name, be it with an alias. -/
inductive Brings : SyntaxTree → SyntaxTree → Prop where
  | plain {d : SyntaxTree} (hkind : d.kind = .dottedName) : Brings d d
  | aliased {t d : SyntaxTree} (hkind : t.kind = .aliasedImport)
      (hname : t.children.find? (·.role == .name) = some d) : Brings t d

/-- A statement imports the modules with some names. -/
inductive Names : SyntaxTree → List SyntaxTree → Prop where
  | imports {s : SyntaxTree} {names : List SyntaxTree} (hkind : s.kind = .importStatement)
      (hnames : List.Forall₂ Brings (s.children.filter (·.role == .name)) names) : Names s names
  | absolute {s d : SyntaxTree} (hkind : s.kind = .importFromStatement)
      (hmodule : s.children.find? (·.role == .moduleName) = some d) (hname : d.kind = .dottedName) :
      Names s [d]
  | relative {s m d : SyntaxTree} (hkind : s.kind = .importFromStatement)
      (hmodule : s.children.find? (·.role == .moduleName) = some m) (hdots : m.kind = .relativeImport)
      (hname : m.namedChildren.find? (·.kind == .dottedName) = some d) : Names s [d]

theorem Brings.imported_eq (h : Brings t d) (hd : d.IsDotted) :
    (match t.kind with
      | .aliasedImport => (t.children.find? (·.role == .name)).bind dottedText
      | _ => t.dottedText) = some d.partsText := by
  cases h with
  | plain hkind =>
    rw [hkind]
    exact hd.dottedText_eq
  | aliased hkind hname =>
    rw [hkind]
    dsimp only
    rw [hname, Option.bind_some]
    exact hd.dottedText_eq

theorem Names.importsModules (h : s.Names names) : s.kind.importsModules = true := by
  cases h with
  | imports hkind _ | absolute hkind _ _ | relative hkind _ _ _ =>
    rw [hkind]
    rfl

/-- Each of the four forms of a statement reports the parts of its names. -/
theorem Names.ownImports_eq (h : s.Names names) (hdotted : ∀ d ∈ names, d.IsDotted) :
    s.ownImports = names.map partsText := by
  rw [ownImports]
  cases h with
  | imports hkind hnames =>
    rw [hkind]
    have hboth := ((List.forall₂_and_left _ _).mpr ⟨hdotted, hnames.flip⟩).flip
    exact filterMap_eq_map_of_forall₂ (fun _ _ h => h.2.imported_eq h.1) hboth
  | @absolute d hkind hmodule hname =>
    rw [hkind]
    dsimp only
    rw [fromModule, hmodule, Option.bind_some, hname]
    dsimp only
    rw [(hdotted d (List.mem_singleton_self d)).dottedText_eq]
    rfl
  | @relative m d hkind hmodule hdots hname =>
    rw [hkind]
    dsimp only
    rw [fromModule, hmodule, Option.bind_some, hdots]
    dsimp only
    rw [hname, Option.bind_some, (hdotted d (List.mem_singleton_self d)).dottedText_eq]
    rfl

/-- A statement that is visited reports its names in one piece, and the name of a module is reported as
it should be if and only if it holds neither a comment nor the end of a line. -/
theorem imports_names_iff (hregular : t.Throughout Regular) (hclean : t.firstOffence = none)
    (hs : t.subtree? p = some s) (hnames : s.Names names) (hdotted : ∀ d ∈ names, d.IsDotted) :
    (∃ before after, t.imports = .ok (before ++ names.map partsText ++ after)) ∧
      ∀ d ∈ names, (d.partsText = d.moduleText ↔ ∀ c ∈ d.children, c.isExtra = false) ∧
        ∀ x ∈ d.moduleText.toList, isBlank x = false ∧ x ≠ '\\' := by
  have hown := hnames.ownImports_eq hdotted
  obtain ⟨before, after, hvisit⟩ := exists_visit_append hnames.importsModules hregular hs
  rw [hown] at hvisit
  refine ⟨⟨before, after, by rw [imports, search_singleton, hclean, hvisit]⟩, ?_⟩
  intro d hd
  refine ⟨(hdotted d hd).partsText_eq_moduleText_iff, ?_⟩
  intro x hx
  rcases (hdotted d hd).of_mem_moduleText hx with rfl | hident
  · decide
  · exact Text.of_isIdentifierRest hident

end SyntaxTree

/-- The name in `import d`. -/
def plainName : SyntaxTree :=
  .node .dottedName .name false .start .start "" [leaf .identifier "d"]

theorem isDotted_plainName : plainName.IsDotted := ⟨rfl, .last, by decide⟩

/-- The `import` in the `elif` of an `if` reports its name. -/
theorem imports_of_plainName : conditionalImports.Throughout SyntaxTree.Regular ∧
    conditionalImports.firstOffence = none ∧
    (∃ s, conditionalImports.subtree? [0, 3, 2, 0] = some s ∧ s.Names [plainName]) ∧
    plainName.IsDotted ∧ plainName.moduleText = "d" ∧
    ∃ before after, conditionalImports.imports = .ok (before ++ ["d"] ++ after) := by
  have hregular : conditionalImports.Throughout SyntaxTree.Regular :=
    SyntaxTree.throughout_iff.mpr (by decide)
  have hclean : conditionalImports.firstOffence = none := by decide
  have hnames : (importOf [leaf .identifier "d"]).Names [plainName] :=
    .imports rfl (.cons (.plain rfl) .nil)
  have hdotted : ∀ d ∈ [plainName], d.IsDotted := by
    intro d hd
    obtain rfl := List.mem_singleton.mp hd
    exact isDotted_plainName
  have hreported :=
    (SyntaxTree.imports_names_iff (p := [0, 3, 2, 0]) hregular hclean rfl hnames hdotted).1
  exact ⟨hregular, hclean, ⟨_, rfl, hnames⟩, isDotted_plainName, rfl, hreported⟩

/-- The name in `from .a.b import c` with the end of a line after the second dot. -/
def brokenSource : SyntaxTree :=
  inner .dottedName [leaf .identifier "a", leaf (.token ".") ".", leaf .lineContinuation "\\\n",
    leaf .identifier "b"]

/-- The statement `from .a.b import c` with the end of a line after the second dot. -/
def brokenFrom : SyntaxTree :=
  inner .importFromStatement
    [leaf (.token "from") "from",
      (inner .relativeImport
        [inner (.other "import_prefix") [leaf (.token ".") "."], brokenSource]).withRole .moduleName,
      leaf (.token "import") "import",
      (inner .dottedName [leaf .identifier "c"]).withRole .name]

theorem isDotted_brokenSource : brokenSource.IsDotted := ⟨rfl, .dot .last, by decide⟩

/-- The module is reported with a backslash and the end of the line in it. -/
theorem imports_of_brokenSource : brokenFrom.Names [brokenSource] ∧ brokenSource.IsDotted ∧
    (inner .module [brokenFrom]).Throughout SyntaxTree.Regular ∧
    brokenSource.moduleText = "a.b" ∧
    (inner .module [brokenFrom]).imports = .ok ["a.\\\n.b"] := by
  have hclean : (inner .module [brokenFrom]).firstOffence = none := by decide
  have hparts : List.Forall₂ SyntaxTree.ShowsPart brokenSource.namedChildren brokenName :=
    .cons (showsPart_identifier "a" (by decide))
      (.cons (@SyntaxTree.ShowsPart.continuation (leaf .lineContinuation "\\\n") rfl (by decide))
        (.cons (showsPart_identifier "b" (by decide)) .nil))
  have hname : SyntaxTree.ShowsName brokenSource brokenName := ⟨rfl, hparts, by simp [brokenName]⟩
  have hshows : SyntaxTree.Shows (inner .module [brokenFrom]) (.module [.importsFrom (some brokenName)]) :=
    .module rfl (.part .nil) (.cons (.importsFrom rfl rfl (.relative rfl rfl hname) rfl) .nil)
  have hwalk : Ast.walk [.module [.importsFrom (some brokenName)]] = [brokenName] := by
    simp [Ast.walk, Ast.names, Ast.children]
  refine ⟨.relative rfl rfl rfl rfl, isDotted_brokenSource, SyntaxTree.throughout_iff.mpr (by decide), rfl, ?_⟩
  rw [hshows.imports_eq hclean, hwalk]
  rfl

end Python

end RepoSurvey
