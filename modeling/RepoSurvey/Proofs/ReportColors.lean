import RepoSurvey.Proofs.ReportPassages

/-!
The report with and without colours. A report is a list of passages, and both ways of setting them write
the text of every passage once, in the same order. So a report in colours from which all colour sequences
are taken is the report without colours.
-/

namespace RepoSurvey

/-- Whether a text has no escape character in it. -/
def IsUnescaped (s : String) : Prop := Ink.escapeChar ∉ s.toList

instance (s : String) : Decidable (IsUnescaped s) :=
  inferInstanceAs (Decidable (Ink.escapeChar ∉ s.toList))

namespace Passage

open Ink

/-- What follows the colour sequence at the head of a text: a sequence goes from the escape character and
a bracket to the next `m`. -/
def afterSequence? : List Char → Option (List Char)
  | c :: '[' :: rest =>
    if c = escapeChar then
      match rest.dropWhile (· != 'm') with
      | [] => none
      | _ :: after => some after
    else none
  | _ => none

theorem length_lt_of_afterSequence? {cs after : List Char} (h : afterSequence? cs = some after) :
    after.length < cs.length := by
  unfold afterSequence? at h
  split at h
  case h_2 => cases h
  case h_1 c rest =>
    have hle : (rest.dropWhile (· != 'm')).length ≤ rest.length :=
      (List.dropWhile_sublist (· != 'm')).length_le
    split at h
    · split at h
      · cases h
      · rename_i heq
        obtain rfl := Option.some.inj h
        rw [heq, List.length_cons] at hle
        simp only [List.length_cons]
        omega
    · cases h

/-- A text without its colour sequences. -/
def withoutColors (cs : List Char) : List Char :=
  match _h : afterSequence? cs with
  | some after => withoutColors after
  | none =>
    match cs with
    | [] => []
    | c :: rest => c :: withoutColors rest
termination_by cs.length
decreasing_by
  · exact length_lt_of_afterSequence? _h
  · exact Nat.lt_succ_self _

/-- The text that a passage writes, be it painted. -/
def text : Passage → String
  | plain text | painted _ text => text

/-! ### Passages -/

theorem withoutColors_nil : withoutColors [] = [] := by
  rw [withoutColors]
  rfl

theorem withoutColors_cons {c : Char} (h : c ≠ escapeChar) (cs : List Char) :
    withoutColors (c :: cs) = c :: withoutColors cs := by
  have hnone : afterSequence? (c :: cs) = none := by
    unfold afterSequence?
    split
    · rename_i heq
      obtain ⟨rfl, -⟩ := List.cons.inj heq
      exact if_neg h
    · rfl
  rw [withoutColors]
  split
  · rename_i hsome
    rw [hnone] at hsome
    cases hsome
  · rfl

theorem withoutColors_append {cs : List Char} (h : escapeChar ∉ cs) (rest : List Char) :
    withoutColors (cs ++ rest) = cs ++ withoutColors rest := by
  induction cs with
  | nil => rfl
  | cons c cs ih =>
    obtain ⟨hc, hcs⟩ := not_or.mp (List.mem_cons.not.mp h)
    rw [List.cons_append, withoutColors_cons (Ne.symm hc), ih hcs, List.cons_append]

theorem withoutColors_sequence {code : List Char} (h : 'm' ∉ code) (rest : List Char) :
    withoutColors (escapeChar :: '[' :: (code ++ 'm' :: rest)) = withoutColors rest := by
  have hdrop : (code ++ 'm' :: rest).dropWhile (· != 'm') = 'm' :: rest := by
    rw [List.dropWhile_append_of_pos fun c hc => bne_iff_ne.mpr (ne_of_mem_of_not_mem hc h)]
    rfl
  have hsome : afterSequence? (escapeChar :: '[' :: (code ++ 'm' :: rest)) = some rest := by
    rw [afterSequence?, if_pos rfl, hdrop]
  conv_lhs => rw [withoutColors]
  split
  · rename_i after heq
    rw [hsome] at heq
    rw [Option.some.inj heq]
  · rename_i heq
    rw [hsome] at heq
    cases heq

theorem set_false (p : Passage) : p.set false = p.text := by
  cases p <;> rfl

theorem toList_set_true (ink : Ink) (text : String) :
    ((painted ink text).set true).toList =
      escapeChar :: '[' :: (ink.code.toList ++ 'm' ::
        (text.toList ++ escapeChar :: '[' :: (['0'] ++ ['m']))) := by
  simp [paint, around, toString]

theorem m_not_mem_code (ink : Ink) : 'm' ∉ ink.code.toList := by
  cases ink <;> decide

/-- A passage in colours, without the sequences around it. -/
theorem withoutColors_set {p : Passage} (h : IsUnescaped p.text) (rest : List Char) :
    withoutColors ((p.set true).toList ++ rest) = p.text.toList ++ withoutColors rest := by
  cases p with
  | plain text => exact withoutColors_append h rest
  | painted ink text =>
    have hreset : withoutColors (escapeChar :: '[' :: (['0'] ++ 'm' :: rest)) = withoutColors rest :=
      withoutColors_sequence (by decide) rest
    calc withoutColors (((painted ink text).set true).toList ++ rest)
        = withoutColors (escapeChar :: '[' :: (ink.code.toList ++ 'm' ::
            (text.toList ++ escapeChar :: '[' :: (['0'] ++ 'm' :: rest)))) := by
          rw [toList_set_true]
          simp only [List.cons_append, List.append_assoc, List.nil_append]
      _ = withoutColors (text.toList ++ escapeChar :: '[' :: (['0'] ++ 'm' :: rest)) :=
          withoutColors_sequence (m_not_mem_code ink) _
      _ = text.toList ++ withoutColors rest := by
          rw [← hreset]
          exact withoutColors_append h _

/-- Whether no passage brings an escape character along. -/
def AreUnescaped (ps : List Passage) : Prop := ∀ p ∈ ps, IsUnescaped p.text

theorem toList_setAll_cons (colors : Bool) (p : Passage) (ps : List Passage) :
    (setAll colors (p :: ps)).toList = (p.set colors).toList ++ (setAll colors ps).toList := by
  rw [setAll_cons, String.toList_append]

/-- Passages in colours, without the sequences around them. -/
theorem withoutColors_setAll {ps : List Passage} (h : AreUnescaped ps) :
    withoutColors (setAll true ps).toList = (setAll false ps).toList := by
  induction ps with
  | nil => exact withoutColors_nil
  | cons p ps ih =>
    obtain ⟨hp, hps⟩ := List.forall_mem_cons.mp h
    rw [toList_setAll_cons, toList_setAll_cons, withoutColors_set hp, ih hps, set_false]

theorem isUnescaped_setAll {ps : List Passage} (h : AreUnescaped ps) : IsUnescaped (setAll false ps) := by
  induction ps with
  | nil => exact List.not_mem_nil
  | cons p ps ih =>
    obtain ⟨hp, hps⟩ := List.forall_mem_cons.mp h
    rw [IsUnescaped, toList_setAll_cons, set_false]
    exact List.mem_append.not.mpr (not_or.mpr ⟨hp, ih hps⟩)

section

variable {ps qs : List Passage}

@[simp]
theorem areUnescaped_nil : AreUnescaped [] := List.forall_mem_nil _

@[simp]
theorem areUnescaped_cons (p : Passage) :
    AreUnescaped (p :: ps) ↔ IsUnescaped p.text ∧ AreUnescaped ps := List.forall_mem_cons

@[simp]
theorem areUnescaped_append : AreUnescaped (ps ++ qs) ↔ AreUnescaped ps ∧ AreUnescaped qs :=
  List.forall_mem_append

theorem areUnescaped_map {α : Type} {f : α → Passage} {l : List α} :
    AreUnescaped (l.map f) ↔ ∀ a ∈ l, IsUnescaped (f a).text := List.forall_mem_map

theorem AreUnescaped.flatMap {α : Type} {f : α → List Passage} {l : List α}
    (h : ∀ a ∈ l, AreUnescaped (f a)) : AreUnescaped (l.flatMap f) := by
  intro p hp
  obtain ⟨a, ha, hpa⟩ := List.mem_flatMap.mp hp
  exact h a ha p hpa

@[simp]
theorem text_plain (text : String) : (plain text).text = text := rfl

@[simp]
theorem text_painted (ink : Ink) (text : String) : (painted ink text).text = text := rfl

end

end Passage

/-! ### Texts -/

open Passage Ink

variable {s t : String}

@[simp]
theorem isUnescaped_append : IsUnescaped (s ++ t) ↔ IsUnescaped s ∧ IsUnescaped t := by
  simp only [IsUnescaped, String.toList_append, List.mem_append, not_or]

@[simp]
theorem isUnescaped_toString : IsUnescaped (toString s) ↔ IsUnescaped s := Iff.rfl

@[simp]
theorem isUnescaped_repr (n : Nat) : IsUnescaped n.repr := by
  intro h
  rw [Nat.toList_repr] at h
  exact absurd (Nat.isDigit_of_mem_toDigits (by decide) (by decide) h) (by decide)

@[simp]
theorem isUnescaped_tag (l : Language) : IsUnescaped l.tag := by
  cases l <;> decide

@[simp]
theorem isUnescaped_label (s : Severity) : IsUnescaped s.label := by
  cases s <;> decide

@[simp]
theorem isUnescaped_duration (d : Duration) : IsUnescaped d.text := by
  unfold Duration.text twoPlaces hundredthsText
  split <;> simp +decide

theorem IsUnescaped.trimEnd (h : IsUnescaped s) : IsUnescaped (trimEnd s) := by
  intro hmem
  rw [RepoSurvey.trimEnd, String.toList_ofList, List.mem_reverse] at hmem
  exact h (List.mem_reverse.mp ((List.dropWhile_sublist _).mem hmem))

/-- A line of a text has only characters of the text, or of the line that was open before it. -/
theorem subset_of_mem_linesFrom {line cs : List Char} {l : String} (h : l ∈ linesFrom line cs) :
    ∀ c ∈ l.toList, c ∈ line ∨ c ∈ cs := by
  fun_induction linesFrom line cs
  case case1 hempty => cases h
  case case2 line _ =>
    obtain rfl := List.mem_singleton.mp h
    intro c hc
    exact Or.inl (by simpa using hc)
  case case3 line rest ih =>
    rcases List.mem_cons.mp h with rfl | h
    · intro c hc
      rw [String.toList_ofList, List.mem_reverse] at hc
      split at hc
      · exact Or.inl (List.mem_of_mem_tail hc)
      · exact Or.inl hc
    · intro c hc
      rcases ih h c hc with hc | hc
      · cases hc
      · exact Or.inr (List.mem_cons_of_mem _ hc)
  case case4 line d rest hd ih =>
    intro c hc
    rcases ih h c hc with hc | hc
    · rcases List.mem_cons.mp hc with rfl | hc
      · exact Or.inr List.mem_cons_self
      · exact Or.inl hc
    · exact Or.inr (List.mem_cons_of_mem _ hc)

theorem IsUnescaped.of_mem_textLines (h : IsUnescaped s) (ht : t ∈ textLines s) : IsUnescaped t := by
  intro hmem
  rcases subset_of_mem_linesFrom ht escapeChar hmem with hc | hc
  · cases hc
  · exact h hc

/-! ### Reports -/

namespace Analysis

/-- The texts of a result that a report writes as they are. -/
def texts (a : Analysis) : List String :=
  [a.repository, a.outline, a.architecture] ++ a.paths
    ++ a.imports.entries.flatMap (fun e => e.1 :: e.2)
    ++ a.summary.graph.mostReferencedModule.toList ++ a.summary.graph.maxFanOutFile.toList
    ++ (a.explanations.entries ++ a.securityReports.entries ++ a.tests.entries).map Prod.snd
    ++ a.notices.flatMap fun n => [n.path, n.message]

/-- The texts of a result, one kind after the other. -/
theorem forall_mem_texts_iff {P : String → Prop} {a : Analysis} :
    (∀ s ∈ a.texts, P s) ↔
      (P a.repository ∧ P a.outline ∧ P a.architecture) ∧ (∀ p ∈ a.paths, P p) ∧
        (∀ e ∈ a.imports.entries, P e.1 ∧ ∀ m ∈ e.2, P m) ∧
        (∀ m ∈ a.summary.graph.mostReferencedModule, P m) ∧
        (∀ f ∈ a.summary.graph.maxFanOutFile, P f) ∧
        (∀ e ∈ a.explanations.entries ++ a.securityReports.entries ++ a.tests.entries, P e.2) ∧
        ∀ n ∈ a.notices, P n.path ∧ P n.message := by
  simp only [texts, List.forall_mem_append, List.forall_mem_cons, List.forall_mem_flatMap,
    List.forall_mem_map, Option.mem_toList, and_assoc]
  simp

theorem areUnescaped_headingLine (h : IsUnescaped t) : AreUnescaped (headingLine t) := by
  simp +decide [headingLine, h]

theorem areUnescaped_countPassages (ink : Ink) (n : Nat) (h : IsUnescaped t) :
    AreUnescaped (countPassages ink t n) := by
  unfold countPassages
  split <;> simp +decide [h]

theorem areUnescaped_summaryPassages {s : Summary}
    (hmodule : ∀ m ∈ s.graph.mostReferencedModule, IsUnescaped m)
    (hfile : ∀ f ∈ s.graph.maxFanOutFile, IsUnescaped f) : AreUnescaped (summaryPassages s) := by
  have hmodules : AreUnescaped (modulePassages s.graph) := by
    unfold modulePassages
    split
    · exact areUnescaped_nil
    · rename_i m hm
      simp +decide [hmodule m hm]
  have hfiles : AreUnescaped (filePassages s.graph) := by
    unfold filePassages
    split
    · exact areUnescaped_nil
    · rename_i f hf
      simp +decide [hfile f hf]
  have hlanguages : AreUnescaped (languagePassages s.languages) := by
    refine areUnescaped_map.mpr fun i _ => ?_
    simp +decide
  simp +decide [summaryPassages, hmodules, hfiles, hlanguages, areUnescaped_headingLine,
    areUnescaped_countPassages]

theorem areUnescaped_dependencyPassages {a : Analysis}
    (h : ∀ e ∈ a.imports.entries, IsUnescaped e.1 ∧ ∀ m ∈ e.2, IsUnescaped m) :
    AreUnescaped (dependencyPassages a) := by
  have hentry : ∀ e ∈ a.imports.entries, AreUnescaped (importPassages e) := by
    intro e he
    obtain ⟨hpath, hmodules⟩ := h e he
    unfold importPassages
    split
    · exact areUnescaped_nil
    · refine areUnescaped_append.mpr ⟨by simp +decide [hpath], .flatMap fun m hm => ?_⟩
      simp +decide [hmodules m hm]
  refine areUnescaped_append.mpr ⟨areUnescaped_headingLine (by decide), ?_⟩
  split
  · simp +decide
  · exact .flatMap hentry

theorem areUnescaped_sectionPassages {label : String} (hlabel : IsUnescaped label)
    (h : IsUnescaped t) : AreUnescaped (sectionPassages (label, t)) := by
  unfold sectionPassages
  split
  · exact areUnescaped_nil
  · refine (areUnescaped_cons _).mpr ⟨by simp +decide [hlabel], ?_⟩
    refine areUnescaped_map.mpr fun line hline => ?_
    simp +decide [h.of_mem_textLines hline]

theorem areUnescaped_filePassagesOf {f : FileReport} (hpath : IsUnescaped f.path)
    (hexplanation : IsUnescaped f.explanation) (hsecurity : IsUnescaped f.security)
    (htests : IsUnescaped f.tests) : AreUnescaped (filePassagesOf f) := by
  have hlabels : IsUnescaped "Explanation" ∧ IsUnescaped "Security" ∧ IsUnescaped "Tests" := by decide
  have hsections : AreUnescaped ((sections f).flatMap sectionPassages) := by
    refine .flatMap ?_
    simp only [sections, List.forall_mem_cons, List.not_mem_nil, false_imp_iff, implies_true, and_true]
    exact ⟨areUnescaped_sectionPassages hlabels.1 hexplanation,
      areUnescaped_sectionPassages hlabels.2.1 hsecurity,
      areUnescaped_sectionPassages hlabels.2.2 htests⟩
  unfold filePassagesOf
  split
  · exact areUnescaped_nil
  · exact areUnescaped_append.mpr ⟨by simp +decide [hpath], hsections⟩

/-- What is entered under a name in a ledger of texts, or else nothing, has no escape character. -/
theorem isUnescaped_getD {l : Ledger String} (h : ∀ e ∈ l.entries, IsUnescaped e.2) (name : String) :
    IsUnescaped ((l.get? name).getD "") := by
  cases hget : l.get? name with
  | none => decide
  | some v =>
    obtain ⟨before, after, hsplit, -⟩ := List.lookup_eq_some_iff.mp hget
    exact h (name, v) (by simp [hsplit])

theorem areUnescaped_narrativePassages {a : Analysis} (h : ∀ s ∈ a.texts, IsUnescaped s) :
    AreUnescaped (narrativePassages a) := by
  obtain ⟨⟨-, -, harchitecture⟩, hpaths, -, -, -, hentered, -⟩ := forall_mem_texts_iff.mp h
  refine areUnescaped_append.mpr ⟨?_, .flatMap fun f hf => ?_⟩
  · split
    · exact areUnescaped_nil
    · simp +decide [areUnescaped_headingLine, harchitecture.trimEnd]
  · obtain ⟨path, hpath, hfile⟩ := List.mem_filterMap.mp hf
    obtain ⟨language, -, hlanguage⟩ := Option.bind_eq_some_iff.mp hfile
    obtain rfl := Option.some.inj hlanguage
    refine areUnescaped_filePassagesOf (hpaths path hpath) ?_ ?_ ?_
    all_goals refine isUnescaped_getD (fun e he => hentered e ?_) path
    all_goals simp [he]

theorem areUnescaped_noticePassages {a : Analysis}
    (h : ∀ n ∈ a.notices, IsUnescaped n.path ∧ IsUnescaped n.message) :
    AreUnescaped (noticePassages a) := by
  unfold noticePassages
  split
  · exact areUnescaped_nil
  · refine areUnescaped_append.mpr ⟨by simp +decide, areUnescaped_map.mpr fun n hn => ?_⟩
    obtain ⟨hpath, hmessage⟩ := h n hn
    simp +decide [hpath, hmessage]

theorem areUnescaped_reportPassages {a : Analysis} (h : ∀ s ∈ a.texts, IsUnescaped s)
    (verbose : Bool) : AreUnescaped (a.reportPassages verbose) := by
  obtain ⟨⟨hrepository, houtline, -⟩, -, himports, hmodule, hfile, -, hnotices⟩ :=
    forall_mem_texts_iff.mp h
  have hnarrative : AreUnescaped (if verbose then narrativePassages a else []) := by
    split
    · exact areUnescaped_narrativePassages h
    · exact areUnescaped_nil
  simp +decide [reportPassages, areUnescaped_headingLine, hrepository, houtline, hnarrative,
    areUnescaped_summaryPassages hmodule hfile, areUnescaped_dependencyPassages himports,
    areUnescaped_noticePassages hnotices]

/-- The first passage of a report is painted. -/
theorem exists_toList_textReport (a : Analysis) (verbose : Bool) :
    ∃ rest, (a.textReport true verbose false).toList = escapeChar :: rest := by
  obtain ⟨ps, hps⟩ : ∃ ps, a.reportPassages verbose =
      painted .boldBlue s!"Repository: {a.repository}" :: ps := ⟨_, rfl⟩
  rw [textReport, if_neg Bool.false_ne_true, fullReport_eq, hps, toList_setAll_cons, toList_set_true,
    List.cons_append]
  exact ⟨_, rfl⟩

/-- Colours change nothing of a report but the colour sequences, which only the report in colours has; and
where only the edges are listed, colours change nothing at all. -/
theorem textReport_colors {a : Analysis} (h : ∀ s ∈ a.texts, IsUnescaped s) (verbose : Bool) :
    withoutColors (a.textReport true verbose false).toList = (a.textReport false verbose false).toList ∧
      ¬ IsUnescaped (a.textReport true verbose false) ∧
      IsUnescaped (a.textReport false verbose false) ∧
      ∀ colors, a.textReport colors verbose true = edgeLines a.graph := by
  have hplain := areUnescaped_reportPassages h verbose
  have htext (colors : Bool) :
      a.textReport colors verbose false = setAll colors (a.reportPassages verbose) :=
    fullReport_eq a verbose
  obtain ⟨rest, hrest⟩ := exists_toList_textReport a verbose
  refine ⟨by rw [htext, htext, withoutColors_setAll hplain], ?_, htext false ▸ isUnescaped_setAll hplain,
    fun colors => rfl⟩
  rw [IsUnescaped, hrest]
  exact not_not_intro List.mem_cons_self

/-- A result with something in every part of a report. -/
def narrated : Analysis :=
  ((((start "r" (.folder "r" [.file "a.py"]) "r/\n  a.py" ⟨20000, 5, 1⟩).addFile
      ⟨"a.py", .python, ["os", "re"], "Reads.\nWrites.", "", "def test(): pass"⟩).addFailure
      "b.py" (.permissionDenied "b.py")).setGraph ⟨[⟨"a.py", "os"⟩, ⟨"a.py", "re"⟩]⟩).setArchitecture
    "One file."

theorem textReport_colors_narrated :
    (∀ s ∈ narrated.texts, IsUnescaped s) ∧
      withoutColors (narrated.textReport true true false).toList =
        (narrated.textReport false true false).toList ∧
      ¬ IsUnescaped (narrated.textReport true true false) ∧
      IsUnescaped (narrated.textReport false true false) ∧
      ∀ colors, narrated.textReport colors true true = edgeLines narrated.graph := by
  have h : ∀ s ∈ narrated.texts, IsUnescaped s := by decide +kernel
  exact ⟨h, textReport_colors h true⟩

end Analysis

end RepoSurvey
