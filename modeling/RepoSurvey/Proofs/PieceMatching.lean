import RepoSurvey.JavaScript.Imports

/-!
What the matcher finds at the head of a text whose first characters are known: words spelled out, runs of
blanks, and repetitions that take as few characters as they can.
-/

namespace RepoSurvey.Pattern

variable {p q : Char → Bool} {ps : List Piece} {c x y : Char} {v w cs ds rest : List Char} {k : Match}

/-! ### Characters spelled out -/

theorem first?_literal (s : String) (ps : List Piece) (cs : List Char) :
    first? (literal s ++ ps) (s.toList ++ cs) = first? ps cs := by
  rw [literal]
  induction s.toList with
  | nil => rfl
  | cons c w ih => simpa [first?] using ih

/-- A text that is matched has the characters at its head, and the other pieces match what follows. -/
theorem exists_of_first?_literal {s : String} (h : first? (literal s ++ ps) cs = some k) :
    ∃ rest, cs = s.toList ++ rest ∧ first? ps rest = some k := by
  rw [literal] at h
  generalize s.toList = w at h ⊢
  induction w generalizing cs with
  | nil => exact ⟨cs, rfl, h⟩
  | cons c w ih =>
    cases cs with
    | nil => simp [first?] at h
    | cons d cs =>
      rw [List.map_cons, List.cons_append, first?] at h
      split at h
      · next hd =>
        obtain ⟨rest, rfl, hrest⟩ := ih h
        exact ⟨rest, by rw [eq_of_beq hd]; rfl, hrest⟩
      · cases h

theorem first?_literal_eq_none {s : String} (hne : s.toList.head? ≠ cs.head?) (hs : s.toList ≠ []) :
    first? (literal s ++ ps) cs = none := by
  rw [Option.eq_none_iff_forall_ne_some]
  intro k hk
  obtain ⟨rest, rfl, -⟩ := exists_of_first?_literal hk
  obtain ⟨c, w, hcons⟩ := List.exists_cons_of_ne_nil hs
  rw [hcons] at hne
  exact hne rfl

/-! ### Repetitions -/

/-- A run of as many characters as possible ends before the first character that is not of its class. -/
theorem first?_run (hc : p c) (hx : p x = false) (ps : List Piece) (cs : List Char) :
    first? (.one p :: .many true p :: ps) (c :: x :: cs) = first? ps (x :: cs) := by
  simp [first?, hc, hx]

theorem first?_run_eq_none (hc : p c = false) (ps : List Piece) (cs : List Char) :
    first? (.one p :: ps) (c :: cs) = none := by
  simp [first?, hc]

/-- As few characters as possible are none if the other pieces match at once. -/
theorem first?_few_of_some (h : first? ps cs = some k) : first? (.many false p :: ps) cs = some k := by
  cases cs with
  | nil => rwa [first?]
  | cons c cs => rw [first?, h, Option.some_or]

/-- As few characters as possible are at least those where the other pieces do not match. -/
theorem first?_few_cons (hc : p c) (h : first? ps (c :: cs) = none) :
    first? (.many false p :: ps) (c :: cs) = first? (.many false p :: ps) cs := by
  rw [first?, h, if_pos hc, Option.none_or]

theorem first?_few_eq_none (hc : p c = false) (h : first? ps (c :: cs) = none) :
    first? (.many false p :: ps) (c :: cs) = none := by
  rw [first?, h, hc]
  rfl

/-- As few characters as possible are all those before the first place where the other pieces match. -/
theorem first?_few_append (hw : ∀ c ∈ w, p c) {cs : List Char}
    (hnone : ∀ u c v, w = u ++ c :: v → first? ps (c :: (v ++ cs)) = none) :
    first? (.many false p :: ps) (w ++ cs) = first? (.many false p :: ps) cs := by
  induction w with
  | nil => rfl
  | cons c w ih =>
    rw [List.forall_mem_cons] at hw
    rw [List.cons_append, first?_few_cons hw.1 (hnone [] c w rfl)]
    exact ih hw.2 fun u d v hsplit => hnone (c :: u) d v (congrArg (c :: ·) hsplit)

/-- What a repetition takes is of its class, and the other pieces match what follows. -/
theorem exists_of_first?_many {greedy : Bool} (h : first? (.many greedy p :: ps) cs = some k) :
    ∃ taken rest, cs = taken ++ rest ∧ (∀ c ∈ taken, p c) ∧ first? ps rest = some k := by
  induction cs with
  | nil =>
    rw [first?] at h
    exact ⟨[], [], rfl, by simp, h⟩
  | cons c cs ih =>
    have hsome : (p c ∧ first? (.many greedy p :: ps) cs = some k) ∨
        first? ps (c :: cs) = some k := by
      cases greedy <;> rw [first?, Option.or_eq_some_iff] at h <;> grind
    rcases hsome with ⟨hc, hmore⟩ | hnow
    · obtain ⟨taken, rest, rfl, htaken, hrest⟩ := ih hmore
      exact ⟨c :: taken, rest, rfl, List.forall_mem_cons.mpr ⟨hc, htaken⟩, hrest⟩
    · exact ⟨[], c :: cs, rfl, by simp, hnow⟩

/-! ### The first character of a class -/

/-- There is one way to split a text at the first character of a class. -/
theorem split_unique (h : v ++ x :: cs = w ++ y :: ds) (hv : ∀ c ∈ v, q c = false) (hx : q x)
    (hw : ∀ c ∈ w, q c = false) (hy : q y) : v = w ∧ x = y ∧ cs = ds := by
  induction v generalizing w with
  | nil =>
    cases w with
    | nil => exact ⟨rfl, List.cons.inj h⟩
    | cons d w =>
      obtain ⟨rfl, -⟩ := List.cons.inj h
      rw [hw x List.mem_cons_self] at hx
      cases hx
  | cons c v ih =>
    cases w with
    | nil =>
      obtain ⟨rfl, -⟩ := List.cons.inj h
      rw [hv c List.mem_cons_self] at hy
      cases hy
    | cons d w =>
      obtain ⟨rfl, hrest⟩ := List.cons.inj h
      obtain ⟨rfl, htail⟩ := ih hrest (List.forall_mem_cons.mp hv).2 (List.forall_mem_cons.mp hw).2
      exact ⟨rfl, htail⟩

/-- The match that marks `m`, takes `between` after it and leaves the rest. -/
def marked (m between rest : List Char) : Match :=
  ⟨[(m ++ (between ++ rest)).length, (between ++ rest).length], rest.length⟩

end RepoSurvey.Pattern

namespace RepoSurvey.JavaScript

open Pattern

variable {ps : List Piece} {c x : Char} {m w cs rest : List Char} {k : Match}

/-! ### The pieces of an import -/

/-- The characters that end a word: blanks, quotation marks and parentheses. -/
def endsWord (c : Char) : Bool := isBlank c || c == '"' || c == '\'' || c == '(' || c == ')'

def IsPlain (w : List Char) : Prop := ∀ c ∈ w, endsWord c = false

instance (w : List Char) : Decidable (IsPlain w) :=
  List.decidableBAll (fun c => endsWord c = false) w

theorem isPlain_import : IsPlain "import".toList := by decide +kernel

theorem isPlain_from : IsPlain "from".toList := by decide +kernel

theorem isPlain_const : IsPlain "const".toList := by decide +kernel

theorem isPlain_require : IsPlain "require".toList := by decide +kernel

theorem isBlank_of_not_endsWord (h : endsWord c = false) : isBlank c = false := by
  simp only [endsWord, Bool.or_eq_false_iff] at h
  exact h.1.1.1.1

theorem IsPlain.not_isBlank (hw : IsPlain w) : ∀ c ∈ w, isBlank c = false :=
  fun c hc => isBlank_of_not_endsWord (hw c hc)

theorem ne_newline_of_not_isBlank (h : isBlank c = false) : (c != '\n') = true := by
  rw [bne_iff_ne]
  rintro rfl
  exact absurd h (by decide)

/-- What an import has after its clause. -/
def fromPart : List Piece := blanks ++ (literal "from" ++ (blanks ++ quotedText))

theorem importFrom_eq : importFrom = literal "import" ++ (blanks ++ (anything :: fromPart)) := by
  simp [importFrom, fromPart]

theorem exists_of_first?_blanks (h : first? (blanks ++ ps) cs = some k) :
    ∃ c taken rest, cs = c :: (taken ++ rest) ∧ isBlank c ∧ (∀ d ∈ taken, isBlank d) ∧
      first? ps rest = some k := by
  cases cs with
  | nil => simp [blanks, first?] at h
  | cons c cs =>
    rw [blanks, List.cons_append, first?] at h
    split at h
    · next hc =>
      obtain ⟨taken, rest, rfl, htaken, hrest⟩ := exists_of_first?_many h
      exact ⟨c, taken, rest, rfl, hc, htaken, hrest⟩
    · cases h

theorem first?_blanks (hc : isBlank c) (hx : isBlank x = false) (ps : List Piece) (cs : List Char) :
    first? (blanks ++ ps) (c :: x :: cs) = first? ps (x :: cs) :=
  first?_run hc hx ps cs

/-- The quotation marks. -/
def isQuote (c : Char) : Bool := c == '\'' || c == '"'

theorem IsPlain.not_isQuote (hw : IsPlain w) : ∀ c ∈ w, isQuote c = false := by
  intro c hc
  have hplain := hw c hc
  simp only [endsWord, Bool.or_eq_false_iff] at hplain
  simp [isQuote, hplain]

theorem IsPlain.ne_newline (hw : IsPlain w) : ∀ c ∈ w, c ≠ '\n' :=
  fun c hc => bne_iff_ne.mp (ne_newline_of_not_isBlank (hw.not_isBlank c hc))

theorem first?_quote (ps : List Piece) (c : Char) (cs : List Char) :
    first? (quote :: ps) (c :: cs) = if isQuote c then first? ps cs else none := by
  rw [quote, first?]
  rfl

/-- The module of a quoted text is marked. It ends at the first quotation mark behind which the text goes
on as it should, whichever mark opens it. -/
theorem first?_quotedText {q q' : Char} (hq : isQuote q) (hq' : isQuote q')
    (hm : ∀ c ∈ m, c ≠ '\n')
    (hnone : ∀ u c v, m = u ++ c :: v → isQuote c → first? ps (v ++ q' :: rest) = none)
    (h : first? ps rest = some k) :
    first? (quotedText ++ ps) (q :: (m ++ q' :: rest)) =
      some ((k.withMark (q' :: rest).length).withMark (m ++ q' :: rest).length) := by
  have hclose : first? (.mark :: quote :: ps) (q' :: rest) =
      some (k.withMark (q' :: rest).length) := by
    rw [first?, first?_quote, if_pos hq', h, Option.map_some]
  have hearly (u v : List Char) (c : Char) (hsplit : m = u ++ c :: v) :
      first? (.mark :: quote :: ps) (c :: (v ++ q' :: rest)) = none := by
    rw [first?, first?_quote, Option.map_eq_none_iff]
    split
    · next hc => exact hnone u c v hsplit hc
    · rfl
  have hfew : first? (anything :: .mark :: quote :: ps) (m ++ q' :: rest) =
      some (k.withMark (q' :: rest).length) := by
    have hpassed := first?_few_append (p := (· != '\n')) (fun c hc => bne_iff_ne.mpr (hm c hc))
      fun u c v hsplit => hearly u v c hsplit
    exact hpassed.trans (first?_few_of_some hclose)
  have hopen : first? (quotedText ++ ps) (q :: (m ++ q' :: rest)) =
      first? (.mark :: anything :: .mark :: quote :: ps) (m ++ q' :: rest) := by
    rw [quotedText, List.cons_append, first?_quote, if_pos hq]
    rfl
  rw [hopen, first?, hfew, Option.map_some]

/-! ### After the clause -/

theorem first?_fromPart_of_not_isBlank (hc : isBlank c = false) (cs : List Char) :
    first? fromPart (c :: cs) = none :=
  first?_run_eq_none hc _ cs

theorem first?_fromPart_of_ne (hc : isBlank c) (hx : isBlank x = false) (hne : x ≠ 'f')
    (cs : List Char) : first? fromPart (c :: x :: cs) = none := by
  rw [fromPart, first?_blanks hc hx]
  refine first?_literal_eq_none (fun heq => hne ?_) (by decide)
  exact (Option.some.inj heq).symm

/-- No word before a blank and something that is no quotation mark is the word before a module. -/
theorem first?_fromPart_of_word (hw : IsPlain w) (hne : w ≠ []) (hx : isBlank x = false)
    (hquote : x ≠ '"' ∧ x ≠ '\'') (cs : List Char) :
    first? fromPart (' ' :: (w ++ ' ' :: x :: cs)) = none := by
  obtain ⟨c, v, rfl⟩ := List.exists_cons_of_ne_nil hne
  have hc := isBlank_of_not_endsWord (hw c List.mem_cons_self)
  rw [fromPart, List.cons_append, first?_blanks (by decide) hc, ← List.cons_append,
    Option.eq_none_iff_forall_ne_some]
  intro k hk
  obtain ⟨rest, heq, hrest⟩ := exists_of_first?_literal hk
  -- The blank after the word is the one before the module.
  obtain ⟨d, taken, rest', rfl, hd, -⟩ := exists_of_first?_blanks hrest
  obtain ⟨-, rfl, htail⟩ := split_unique heq hw (by decide) isPlain_from
    (show endsWord d by simp [endsWord, hd])
  rw [← htail, first?_blanks (by decide) hx] at hrest
  simp [quotedText, quote, first?, hquote] at hrest

/-- The module that an import names ends at the first quotation mark. -/
theorem first?_fromPart {q q' : Char} (hq : isQuote q) (hq' : isQuote q')
    (hm : ∀ c ∈ m, isQuote c = false ∧ c ≠ '\n') (rest : List Char) :
    first? fromPart (' ' :: ("from".toList ++ ' ' :: q :: (m ++ q' :: rest))) =
      some (marked m [q'] rest) := by
  have hhead : ' ' :: ("from".toList ++ ' ' :: q :: (m ++ q' :: rest)) =
      ' ' :: 'f' :: ("rom".toList ++ ' ' :: q :: (m ++ q' :: rest)) := rfl
  have hsolid : isBlank q = false := by
    rcases Bool.or_eq_true_iff.mp hq with h | h <;> rw [eq_of_beq h] <;> decide
  have hend : first? [] rest = some ⟨[], rest.length⟩ := by rw [first?]
  have hquoted := first?_quotedText hq hq' (fun c hc => (hm c hc).2) (fun u c v hsplit hc => ?_) hend
  · rw [List.append_nil] at hquoted
    rw [fromPart, hhead, first?_blanks (by decide) (by decide), ← List.cons_append]
    have hfrom := first?_literal "from" (blanks ++ quotedText) (' ' :: q :: (m ++ q' :: rest))
    refine hfrom.trans ?_
    rw [first?_blanks (by decide) hsolid, hquoted]
    rfl
  · have hplain := (hm c (hsplit ▸ List.mem_append_right u List.mem_cons_self)).1
    rw [hplain] at hc
    cases hc

/-! ### The clause -/

/-- A word is passed over on the way to what follows the clause. -/
theorem first?_anything_append (hw : ∀ c ∈ w, isBlank c = false) (cs : List Char) :
    first? (anything :: fromPart) (w ++ cs) = first? (anything :: fromPart) cs :=
  first?_few_append (fun c hc => ne_newline_of_not_isBlank (hw c hc)) fun u c _ hsplit =>
    first?_fromPart_of_not_isBlank (hw c (hsplit ▸ List.mem_append_right u List.mem_cons_self)) _

theorem first?_anything_of_not_isBlank (hc : isBlank c = false) (cs : List Char) :
    first? (anything :: fromPart) (c :: cs) = first? (anything :: fromPart) cs :=
  first?_few_cons (ne_newline_of_not_isBlank hc) (first?_fromPart_of_not_isBlank hc cs)

theorem first?_anything_cons (hc : c ≠ '\n') (h : first? fromPart (c :: cs) = none) :
    first? (anything :: fromPart) (c :: cs) = first? (anything :: fromPart) cs :=
  first?_few_cons (bne_iff_ne.mpr hc) h

/-! ### Imports and calls -/

theorem first?_importFrom (hx : isBlank x = false) (cs : List Char) :
    first? importFrom ("import".toList ++ ' ' :: x :: cs) =
      first? (anything :: fromPart) (x :: cs) := by
  rw [importFrom_eq, first?_literal, first?_blanks (by decide) hx]

theorem exists_of_first?_importFrom (h : first? importFrom cs = some k) :
    ∃ c rest, cs = "import".toList ++ c :: rest ∧ isBlank c := by
  rw [importFrom_eq] at h
  obtain ⟨rest, rfl, hrest⟩ := exists_of_first?_literal h
  obtain ⟨c, taken, rest, rfl, hc, -⟩ := exists_of_first?_blanks hrest
  exact ⟨c, taken ++ rest, rfl, hc⟩

/-- The module of a call ends where a parenthesis follows a quotation mark. -/
theorem first?_requireCall {q q' : Char} (hq : isQuote q) (hq' : isQuote q')
    (hm : ∀ c ∈ m, c ≠ '\n' ∧ c ≠ ')') (rest : List Char) :
    first? requireCall ("require(".toList ++ q :: (m ++ q' :: ')' :: rest)) =
      some (marked m [q', ')'] rest) := by
  have hclose : first? (literal ")") (')' :: rest) = some ⟨[], rest.length⟩ := by
    simp [literal, first?]
  have hparen (x : Char) (cs : List Char) (hx : x ≠ ')') : first? (literal ")") (x :: cs) = none := by
    simp [literal, first?, hx]
  have hquoted := first?_quotedText hq hq' (fun c hc => (hm c hc).1) (fun u c v hsplit _ => ?_) hclose
  · rw [requireCall, List.append_assoc, first?_literal, hquoted]
    rfl
  · cases v with
    | nil =>
      refine hparen q' _ ?_
      rintro rfl
      exact absurd hq' (by decide)
    | cons d v =>
      have hd : d ∈ m := by simp [hsplit]
      exact hparen d _ (hm d hd).2

theorem exists_of_first?_requireCall (h : first? requireCall cs = some k) :
    ∃ rest, cs = "require(".toList ++ rest := by
  rw [requireCall, List.append_assoc] at h
  obtain ⟨rest, heq, -⟩ := exists_of_first?_literal h
  exact ⟨rest, heq⟩

end RepoSurvey.JavaScript
