import RepoSurvey.Proofs.ScriptStatements

/-!
Scripts of statements with either kind of quotation mark, in which the other kind may stand within a
module. A call gives the whole of what stands between its marks. An import gives what stands before the
first mark of either kind, so it loses the end of a module with a mark in it.
-/

namespace RepoSurvey.JavaScript

open Pattern

/-- A text has no blank, no parenthesis and no `mark` in it. -/
def IsUnbroken (mark : Char) (w : List Char) : Prop :=
  ∀ c ∈ w, isBlank c = false ∧ c ≠ '(' ∧ c ≠ ')' ∧ c ≠ mark

instance (mark : Char) (w : List Char) : Decidable (IsUnbroken mark w) :=
  List.decidableBAll (fun c => isBlank c = false ∧ c ≠ '(' ∧ c ≠ ')' ∧ c ≠ mark) w

/-- A text between two quotation marks that are the same. The other mark may stand in it. -/
structure Quotation where
  mark : Char
  isQuote_mark : isQuote mark
  letters : List Char
  ne_nil : letters ≠ []
  unbroken : IsUnbroken mark letters

inductive Statement where
  | clause (name : Word) (module : Quotation)
  | call (module : Quotation)

/-- A statement with the blanks that follow it, the end of its line among them. -/
structure Line where
  statement : Statement
  gap : List Char
  blank : ∀ c ∈ gap, isBlank c

def Quotation.text (m : Quotation) : List Char := m.mark :: (m.letters ++ [m.mark])

namespace Statement

def text : Statement → List Char
  | clause c m => "import".toList ++ ' ' :: (c.letters ++ ' ' :: ("from".toList ++ ' ' :: m.text))
  | call m => "require(".toList ++ (m.text ++ [')'])

theorem text_clause (c : Word) (m : Quotation) : (clause c m).text =
    "import".toList ++ ' ' :: (c.letters ++ ' ' :: ("from".toList ++ ' ' :: m.text)) := rfl

theorem text_call (m : Quotation) : (call m).text = "require(".toList ++ (m.text ++ [')']) := rfl

def module : Statement → List Char
  | clause _ m | call m => m.letters

/-- What the search captures of a statement. -/
def captured : Statement → List Char
  | clause _ m => m.letters.takeWhile (!isQuote ·)
  | call m => m.letters

/-- The search does not cut the module of a statement short. -/
def IsWhole : Statement → Prop
  | clause _ m => ∀ c ∈ m.letters, isQuote c = false
  | call _ => True

instance : (s : Statement) → Decidable s.IsWhole
  | clause _ m => List.decidableBAll (fun c => isQuote c = false) m.letters
  | call _ => .isTrue trivial

theorem captured_eq_module_iff (s : Statement) : s.captured = s.module ↔ s.IsWhole := by
  cases s with
  | clause c m =>
    rw [captured, module, IsWhole, List.takeWhile_eq_self_iff]
    simp
  | call m => simp [captured, module, IsWhole]

theorem captured_prefix (s : Statement) : s.captured <+: s.module := by
  cases s with
  | clause c m => exact List.takeWhile_prefix _
  | call m => exact List.prefix_rfl

theorem module_ne_nil (s : Statement) : s.module ≠ [] := by
  cases s with
  | clause c m | call m => exact m.ne_nil

end Statement

def Line.text (l : Line) : List Char := l.statement.text ++ l.gap

def linesText (ls : List Line) : List Char := ls.flatMap Line.text

variable {cs w rest : List Char} {ms : List (List Char)} {q : Char}

/-! ### What the search passes -/

theorem Reports.blanks (h : Reports cs ms) (hw : ∀ c ∈ w, isBlank c) : Reports (w ++ cs) ms := by
  induction w with
  | nil => exact h
  | cons c w ih =>
    rw [List.forall_mem_cons] at hw
    exact (ih hw.2).sign (.inl hw.1)

/-- No match begins in what is left of a module before its mark: an import needs a blank and a call a
parenthesis, and neither comes before the mark. -/
theorem match?_of_closed (hw : ∀ c ∈ w, isBlank c = false ∧ c ≠ '(') (hq : isQuote q) :
    importExpression.match? (w ++ q :: rest) = none := by
  have hends (u ds : List Char) (x : Char) (hu : ∀ c ∈ u, isQuote c = false)
      (hx : isBlank x ∨ x = '(') : w ++ q :: rest ≠ u ++ x :: ds := by
    intro heq
    have hstop (c : Char) (hc : c ∈ w ++ [q]) : c ≠ x := by
      rintro rfl
      rcases List.mem_append.mp hc with hc | hc
      · obtain ⟨hblank, hparen⟩ := hw c hc
        rcases hx with hx | hx
        · rw [hblank] at hx
          cases hx
        · exact hparen hx
      · obtain rfl := List.mem_singleton.mp hc
        rcases Bool.or_eq_true_iff.mp hq with h | h
        all_goals
          rw [eq_of_beq h] at hx
          exact absurd hx (by decide)
    have hsplit : (w ++ [q]) ++ rest = u ++ x :: ds := by
      rw [List.append_assoc]
      exact heq
    rcases List.append_eq_append_iff.mp hsplit with ⟨v, rfl, -⟩ | ⟨v, hv, hrest⟩
    · have hmem : q ∈ (w ++ [q]) ++ v := by simp
      rw [hu q hmem] at hq
      cases hq
    · cases v with
      | nil =>
        rw [List.append_nil] at hv
        have hmem : q ∈ u := by simp [← hv]
        rw [hu q hmem] at hq
        cases hq
      | cons d v =>
        have hd : d = x := (List.cons.inj hrest).1.symm
        exact hstop d (by simp [hv]) hd
  rw [match?_importExpression, Option.or_eq_none_iff, Option.eq_none_iff_forall_ne_some,
    Option.eq_none_iff_forall_ne_some]
  constructor
  · intro k hk
    obtain ⟨x, ds, heq, hx⟩ := exists_of_first?_importFrom hk
    exact hends _ ds x isPlain_import.not_isQuote (.inl hx) heq
  · intro k hk
    obtain ⟨ds, heq⟩ := exists_of_first?_requireCall hk
    exact hends "require".toList ds '(' isPlain_require.not_isQuote (.inr rfl) heq

/-- What is left of a module is passed with its mark. -/
theorem Reports.pass_closed (h : Reports cs ms) (hw : ∀ c ∈ w, isBlank c = false ∧ c ≠ '(')
    (hq : isQuote q) : Reports (w ++ q :: cs) ms := by
  refine (h.pass ?_).pass_append fun u v hsplit _ => match?_of_closed (fun c hc => hw c ?_) hq
  · exact match?_of_closed (w := []) (by simp) hq
  · rw [hsplit]
    exact List.mem_append_right u hc

/-! ### What a script reports -/

theorem Quotation.ne_newline (m : Quotation) : ∀ c ∈ m.letters, c ≠ '\n' :=
  fun c hc => bne_iff_ne.mp (ne_newline_of_not_isBlank (m.unbroken c hc).1)

theorem Quotation.text_append (m : Quotation) (cs : List Char) :
    m.text ++ cs = m.mark :: (m.letters ++ m.mark :: cs) := by
  simp [text]

/-- The capture of an import ends at the first mark in its module, or else at the mark that closes it. -/
theorem Reports.statement (h : Reports cs ms) (s : Statement) :
    Reports (s.text ++ cs) (s.captured :: ms) := by
  cases s with
  | call m =>
    have htext : (Statement.call m).text ++ cs =
        "require(".toList ++ m.mark :: (m.letters ++ m.mark :: ')' :: cs) := by
      rw [Statement.text_call, ← m.text_append]
      simp only [List.append_assoc, List.singleton_append]
    rw [htext]
    refine h.requires m.isQuote_mark m.isQuote_mark fun c hc => ?_
    exact ⟨m.ne_newline c hc, (m.unbroken c hc).2.2.1⟩
  | clause c m =>
    have htext : (Statement.clause c m).text ++ cs = "import".toList ++ ' ' ::
        (c.letters ++ ' ' :: ("from".toList ++ ' ' :: m.mark :: (m.letters ++ m.mark :: cs))) := by
      rw [Statement.text_clause, ← m.text_append]
      simp only [List.append_assoc, List.cons_append]
    -- The module is cut at its first mark, and what is left of it after that is passed.
    have hcut : ∃ x after, m.letters ++ m.mark :: cs = (Statement.clause c m).captured ++ x :: after ∧
        isQuote x ∧ Reports after ms := by
      have hjoin := List.takeWhile_append_dropWhile (p := (!isQuote ·)) (l := m.letters)
      cases hdrop : m.letters.dropWhile (!isQuote ·) with
      | nil =>
        rw [hdrop, List.append_nil] at hjoin
        exact ⟨m.mark, cs, by rw [Statement.captured, hjoin], m.isQuote_mark, h⟩
      | cons x v =>
        have hx : isQuote x := by
          have hhead := List.head?_dropWhile_not (!isQuote ·) m.letters
          rw [hdrop] at hhead
          simpa using hhead
        have hv (d : Char) (hd : d ∈ v) : isBlank d = false ∧ d ≠ '(' := by
          have hmem : d ∈ m.letters := by
            rw [← hjoin, hdrop]
            exact List.mem_append_right _ (List.mem_cons_of_mem x hd)
          exact ⟨(m.unbroken d hmem).1, (m.unbroken d hmem).2.1⟩
        refine ⟨x, v ++ m.mark :: cs, ?_, hx, h.pass_closed hv m.isQuote_mark⟩
        calc m.letters ++ m.mark :: cs
            = (m.letters.takeWhile (!isQuote ·) ++ x :: v) ++ m.mark :: cs := by rw [← hdrop, hjoin]
          _ = (Statement.clause c m).captured ++ x :: (v ++ m.mark :: cs) := by
            simp [Statement.captured]
    obtain ⟨x, after, hsplit, hx, hafter⟩ := hcut
    have hplain (d : Char) (hd : d ∈ (Statement.clause c m).captured) :
        isQuote d = false ∧ d ≠ '\n' := by
      have hnot := List.mem_takeWhile_imp hd
      exact ⟨by simpa using hnot, m.ne_newline d ((List.takeWhile_prefix _).subset hd)⟩
    rw [htext, hsplit]
    exact hafter.clause m.isQuote_mark hx hplain c

theorem reports_linesText (ls : List Line) :
    Reports (linesText ls) (ls.map fun l => l.statement.captured) := by
  induction ls with
  | nil => exact reports_nil
  | cons l ls ih =>
    have htext : linesText (l :: ls) = l.statement.text ++ (l.gap ++ linesText ls) :=
      List.append_assoc l.statement.text l.gap (linesText ls)
    rw [htext]
    exact (ih.blanks l.blank).statement l.statement

/-! ### Whole modules -/

/-- If beginnings are as long as the wholes when put together, each is the whole. -/
theorem eq_of_flatMap_eq {α β : Type} {f g : α → List β} (hfg : ∀ a, f a <+: g a) {as : List α}
    (h : as.flatMap f = as.flatMap g) : ∀ a ∈ as, f a = g a := by
  have hle (bs : List α) : (bs.flatMap f).length ≤ (bs.flatMap g).length := by
    induction bs with
    | nil => exact Nat.le_refl 0
    | cons b bs ih =>
      have hb := (hfg b).length_le
      simp only [List.flatMap_cons, List.length_append]
      omega
  have hlength := congrArg List.length h
  induction as with
  | nil => simp
  | cons a as ih =>
    have ha := (hfg a).length_le
    have has := hle as
    simp only [List.flatMap_cons, List.length_append] at hlength
    have heq : f a = g a := (hfg a).eq_of_length (by omega)
    rw [List.flatMap_cons, List.flatMap_cons, heq] at h
    exact List.forall_mem_cons.mpr ⟨heq, ih (List.append_cancel_left h) (by omega)⟩

/-- What is captured of some lines, without the empty captures, is all their modules if and only if none
is cut short. -/
theorem captured_eq_modules_iff (ls : List Line) :
    (ls.map fun l => l.statement.captured).filter (· ≠ []) = ls.map (fun l => l.statement.module) ↔
      ∀ l ∈ ls, l.statement.IsWhole := by
  constructor
  · intro h l hl
    have hflat := congrArg List.flatten h
    rw [List.flatten_filter_ne_nil, ← List.flatMap_def, ← List.flatMap_def] at hflat
    rw [← Statement.captured_eq_module_iff]
    exact eq_of_flatMap_eq (fun l : Line => l.statement.captured_prefix) hflat l hl
  · intro h
    have hsame : (ls.map fun l => l.statement.captured) = ls.map fun l => l.statement.module :=
      List.map_congr_left fun l hl => l.statement.captured_eq_module_iff.mpr (h l hl)
    rw [hsame, List.filter_eq_self]
    intro m hm
    obtain ⟨l, -, rfl⟩ := List.mem_map.mp hm
    simpa using l.statement.module_ne_nil

theorem imports_linesText (ls : List Line) : imports (String.ofList (linesText ls)) =
    ((ls.map fun l => l.statement.captured).filter (· ≠ [])).map String.ofList := by
  have h := reports_linesText ls
  rw [← String.toList_ofList (l := linesText ls)] at h
  exact imports_of_reports h

/-- Of some lines of imports and calls the search reports what it captures, in their order and without
the empty captures. These are the modules exactly if no import has a quotation mark in its module. -/
theorem imports_eq_quoted_iff (ls : List Line) :
    imports (String.ofList (linesText ls)) =
        ((ls.map fun l => l.statement.captured).filter (· ≠ [])).map String.ofList ∧
      (imports (String.ofList (linesText ls)) =
          (ls.map fun l => l.statement.module).map String.ofList ↔
        ∀ l ∈ ls, l.statement.IsWhole) := by
  have himports := imports_linesText ls
  have hinjective : Function.Injective String.ofList := fun _ _ => String.ofList_injective
  refine ⟨himports, ?_⟩
  rw [himports, hinjective.list_map.eq_iff]
  exact captured_eq_modules_iff ls

theorem letter_ne_nil : ['c'] ≠ [] := List.cons_ne_nil 'c' []

theorem isPlain_letter : IsPlain ['c'] := by decide +kernel

/-- An import and a call, each of a module with the other mark in it. -/
def markedModules : List Line :=
  [⟨.clause ⟨['c'], letter_ne_nil, isPlain_letter⟩
      ⟨'"', by decide, ['a', '\'', 'b'], by decide, by decide +kernel⟩,
      ['\n'], List.forall_mem_singleton.mpr (by decide)⟩,
    ⟨.call ⟨'"', by decide, ['d', '\'', 'e'], by decide, by decide +kernel⟩,
      ['\n'], List.forall_mem_singleton.mpr (by decide)⟩]

/-- The module of the import is cut short, that of the call is not. -/
theorem imports_markedModules :
    linesText markedModules = "import c from \"a'b\"\nrequire(\"d'e\")\n".toList ∧
      (markedModules.map fun l => l.statement.module).map String.ofList = ["a'b", "d'e"] ∧
      imports (String.ofList (linesText markedModules)) = ["a", "d'e"] ∧
      imports (String.ofList (linesText markedModules)) ≠
        (markedModules.map fun l => l.statement.module).map String.ofList := by
  have hmodules : (markedModules.map fun l => l.statement.module).map String.ofList =
      ["a'b", "d'e"] := rfl
  have himports : imports (String.ofList (linesText markedModules)) = ["a", "d'e"] :=
    imports_linesText markedModules
  refine ⟨by decide +kernel, hmodules, himports, ?_⟩
  rw [himports, hmodules]
  decide +kernel

end RepoSurvey.JavaScript
