import RepoSurvey.Proofs.PieceMatching
import RepoSurvey.Proofs.ScriptImports

/-!
Scripts of import statements and calls of `require`, and what the search reports of them. The search does
not see where a statement ends: an `import` without a clause goes on until the next one on its line that
has one, and so does a name that ends in `import`.
-/

namespace RepoSurvey.JavaScript

open Pattern

/-- A text without blanks, quotation marks and parentheses. Identifiers are among these, and what the
quotation marks of a module are around. -/
structure Word where
  letters : List Char
  ne_nil : letters ≠ []
  plain : IsPlain letters

/-- A part of a script: a statement, or a character between statements. -/
inductive Token where
  | sign (c : Char) (h : isBlank c ∨ c = ';')
  /-- An import for its effects. -/
  | bare (module : Word)
  | named (clause module : Word)
  | call (name module : Word)

def Word.quoted (m : Word) : List Char := '"' :: (m.letters ++ ['"'])

/-- What a name is given by a call. -/
def Word.required (m : Word) : List Char :=
  '=' :: ' ' :: ("require".toList ++ '(' :: (m.quoted ++ [')']))

def Token.text : Token → List Char
  | sign c _ => [c]
  | bare m => "import".toList ++ ' ' :: m.quoted
  | named c m => "import".toList ++ ' ' :: (c.letters ++ ' ' :: ("from".toList ++ ' ' :: m.quoted))
  | call v m => "const".toList ++ ' ' :: (v.letters ++ ' ' :: m.required)

def scriptText (ts : List Token) : List Char := ts.flatMap Token.text

theorem scriptText_cons (t : Token) (ts : List Token) :
    scriptText (t :: ts) = t.text ++ scriptText ts := rfl

theorem Word.quoted_append (m : Word) (cs : List Char) :
    m.quoted ++ cs = '"' :: (m.letters ++ '"' :: cs) := by
  simp [quoted]

theorem Word.required_append (m : Word) (cs : List Char) : m.required ++ cs =
    '=' :: ' ' :: ("require".toList ++ '(' :: (m.quoted ++ ')' :: cs)) := by
  simp [required]

theorem Token.text_bare_append (m : Word) (cs : List Char) :
    (bare m).text ++ cs = "import".toList ++ ' ' :: (m.quoted ++ cs) :=
  List.append_assoc "import".toList (' ' :: m.quoted) cs

theorem Token.text_named_append (c m : Word) (cs : List Char) : (named c m).text ++ cs =
    "import".toList ++ ' ' :: (c.letters ++ ' ' :: ("from".toList ++ ' ' :: (m.quoted ++ cs))) := by
  have htext : (named c m).text =
      "import".toList ++ ' ' :: (c.letters ++ ' ' :: ("from".toList ++ ' ' :: m.quoted)) := rfl
  rw [htext]
  simp only [List.append_assoc, List.cons_append]

theorem Token.text_call_append (v m : Word) (cs : List Char) : (call v m).text ++ cs =
    "const".toList ++ ' ' :: (v.letters ++ ' ' :: (m.required ++ cs)) := by
  have htext : (call v m).text = "const".toList ++ ' ' :: (v.letters ++ ' ' :: m.required) := rfl
  rw [htext]
  simp only [List.append_assoc, List.cons_append]

/-- The modules that are imported with a clause or by a call. -/
def modules : List Token → List (List Char)
  | [] => []
  | .sign _ _ :: ts | .bare _ :: ts => modules ts
  | .named _ m :: ts | .call _ m :: ts => m.letters :: modules ts

/-! ### What is reported -/

def Word.EndsInImport (w : Word) : Prop := "import".toList <:+ w.letters

instance (w : Word) : Decidable w.EndsInImport := inferInstanceAs (Decidable (_ <:+ _))

/-- The next import with a clause on the same line, and what follows it. -/
def nextNamed? : List Token → Option (Word × List Token)
  | [] => none
  | .sign c _ :: ts => if c = '\n' then none else nextNamed? ts
  | .bare _ :: ts | .call _ _ :: ts => nextNamed? ts
  | .named _ m :: ts => some (m, ts)

/-- What the search reports. After an `import` without a clause it is `opened` until it finds one or the
line ends. The calls that it passes on the way to a clause are not reported. -/
def reported : (opened : Bool) → List Token → List (List Char)
  | _, [] => []
  | opened, .sign c _ :: ts => reported (opened && c != '\n') ts
  | _, .bare _ :: ts => reported true ts
  | _, .named _ m :: ts => m.letters :: reported false ts
  | opened, .call v m :: ts =>
    let opened := opened || decide v.EndsInImport
    if opened && (nextNamed? ts).isSome then reported opened ts else m.letters :: reported opened ts

/-! ### Searching on -/

variable {c x : Char} {v w before m between cs rest : List Char} {ms : List (List Char)}
  {ts ts' : List Token} {m' : Word}

/-- The search of a text reports some modules. -/
def Reports (cs : List Char) (ms : List (List Char)) : Prop :=
  ∃ rs, importExpression.Successive cs rs ∧ rs.map (fun r => r.captured.headD []) = ms

theorem match?_importExpression (cs : List Char) :
    importExpression.match? cs = (first? importFrom cs).or (first? requireCall cs) := by
  have hrows := rows_importExpression
  have hrow : (importExpression.map Branch.row).findSome? (first? · cs) =
      importExpression.match? cs := by
    rw [List.findSome?_map]
    rfl
  rw [← hrow, hrows, List.findSome?_cons, List.findSome?_cons]
  cases first? importFrom cs <;> cases first? requireCall cs <;> rfl

theorem match?_of_importFrom {k : Match} (h : first? importFrom cs = some k) :
    importExpression.match? cs = some k := by
  rw [match?_importExpression, h, Option.some_or]

theorem reports_nil : Reports [] [] := by
  refine ⟨[], .done fun skipped rest heq => ?_, rfl⟩
  rintro ⟨xs, r, hr⟩
  have hleast := hr.least_le le_least_of_mem_importExpression
  obtain ⟨i, b, ys, rest', -, -, hcs, -⟩ := hr
  have hlength := congrArg List.length (heq.trans (congrArg (skipped ++ ·) hcs))
  simp only [List.length_nil, List.length_append] at hlength
  omega

theorem Reports.pass (h : Reports cs ms) (hnone : importExpression.match? (c :: cs) = none) :
    Reports (c :: cs) ms := by
  obtain ⟨rs, hrs, hms⟩ := h
  refine ⟨rs, hrs.pass ?_, hms⟩
  rintro ⟨xs, r, hr⟩
  have hpref := importExpression.isPreferred_match? (c :: cs)
  rw [hnone] at hpref
  exact hpref xs r hr

theorem Reports.pass_append (h : Reports cs ms)
    (hnone : ∀ u v, w = u ++ v → v ≠ [] → importExpression.match? (v ++ cs) = none) :
    Reports (w ++ cs) ms := by
  induction w with
  | nil => exact h
  | cons c w ih =>
    refine (ih fun u v hw hv => hnone (c :: u) v (congrArg (c :: ·) hw) hv).pass ?_
    exact hnone [] (c :: w) rfl (List.cons_ne_nil c w)

/-- A match is reported with what it captures, and the search goes on behind it. -/
theorem Reports.found (h : Reports rest ms)
    (hmatch : importExpression.match? (before ++ (m ++ (between ++ rest))) =
      some (marked m between rest)) :
    Reports (before ++ (m ++ (between ++ rest))) (m :: ms) := by
  obtain ⟨rs, hrs, rfl⟩ := h
  have hsplit : before ++ (m ++ (between ++ rest)) = (before ++ (m ++ between)) ++ rest := by
    simp only [List.append_assoc]
  have hcuts (more : List Char) : cuts (more ++ ((before ++ (m ++ between)) ++ rest))
      (marked m between rest).marks = [m] := by
    have htext : more ++ ((before ++ (m ++ between)) ++ rest) =
        (more ++ before) ++ (m ++ (between ++ rest)) := by
      simp only [List.append_assoc]
    rw [htext, marked, cuts, extract_append_append]
    rfl
  have hpref := importExpression.isPreferred_match? (before ++ (m ++ (between ++ rest)))
  rw [hmatch, Option.map_some, hsplit, Match.found_eq rfl hcuts] at hpref
  rw [hsplit]
  refine ⟨⟨before ++ (m ++ between), [m]⟩ :: rs,
    .found (List.nil_append _).symm (fun earlier later heq hne => ?_) hpref hrs, rfl⟩
  exact absurd (List.append_eq_nil_iff.mp heq.symm).2 hne

/-- The imports of a script are the modules that its search reports, without the empty ones. -/
theorem imports_of_reports {source : String} (h : Reports source.toList ms) :
    imports source = (ms.filter (· ≠ [])).map String.ofList := by
  obtain ⟨rs, hrs, hms⟩ := h
  obtain ⟨rs', hrs', hmap⟩ := Expression.exists_successive
    (fun b hb => Nat.le_trans (by decide) (le_least_of_mem_importExpression b hb)) [] source.toList
  obtain rfl := hrs.unique hrs'
  rw [← Expression.findAll_eq, rows_importExpression] at hmap
  have hfound : (findAll [importFrom, requireCall] source.toList).map
      (fun m => m.captured source.toList.toArray) = ms := by
    have hheads := congrArg (List.map fun l => l.headD []) hmap
    rw [List.map_map, List.map_map] at hheads
    simp only [Match.captured_eq]
    exact hheads.trans hms
  have hempty (cs : List Char) : (!(String.ofList cs).isEmpty) = decide (cs ≠ []) := by
    rw [Bool.eq_iff_iff]
    simp
  rw [← hfound]
  simp only [imports, List.filter_map, List.map_map, Function.comp_def, hempty]

theorem imports_eq_of_reports {source : String} (h : Reports source.toList ms)
    (hne : ∀ m ∈ ms, m ≠ []) : imports source = ms.map String.ofList := by
  rw [imports_of_reports h, List.filter_eq_self.mpr]
  intro m hm
  simpa using hne m hm

/-! ### Places without a match -/

theorem match?_eq_none (himport : c ≠ 'i') (hrequire : c ≠ 'r') (cs : List Char) :
    importExpression.match? (c :: cs) = none := by
  rw [match?_importExpression, Option.or_eq_none_iff, Option.eq_none_iff_forall_ne_some,
    Option.eq_none_iff_forall_ne_some]
  constructor
  · intro k hk
    obtain ⟨d, rest, heq, -⟩ := exists_of_first?_importFrom hk
    exact himport (List.cons.inj heq).1
  · intro k hk
    obtain ⟨rest, heq⟩ := exists_of_first?_requireCall hk
    exact hrequire (List.cons.inj heq).1

/-- At a word there is a match only if the word is `import`. -/
theorem match?_of_isPlain (hw : IsPlain w) (hx : isBlank x ∨ x = '"')
    (hopen : w = "import".toList → first? importFrom (w ++ x :: rest) = none) :
    importExpression.match? (w ++ x :: rest) = none := by
  have hends : endsWord x := by rcases hx with hx | rfl <;> simp [endsWord, *]
  rw [match?_importExpression, Option.or_eq_none_iff, Option.eq_none_iff_forall_ne_some,
    Option.eq_none_iff_forall_ne_some]
  constructor
  · intro k hk
    obtain ⟨d, rest', heq, hd⟩ := exists_of_first?_importFrom hk
    obtain ⟨hword, -⟩ := split_unique heq hw hends isPlain_import
      (show endsWord d by simp [endsWord, hd])
    rw [hopen hword] at hk
    cases hk
  · intro k hk
    obtain ⟨rest', heq⟩ := exists_of_first?_requireCall hk
    have hsplit : w ++ x :: rest = "require".toList ++ '(' :: rest' := heq
    obtain ⟨-, rfl, -⟩ := split_unique hsplit hw hends isPlain_require (by decide)
    exact absurd hx (by decide)

/-- A word is passed, unless it ends in `import` and a clause follows. -/
theorem Reports.pass_word (h : Reports (x :: rest) ms) (hw : IsPlain w) (hx : isBlank x ∨ x = '"')
    (hopen : "import".toList <:+ w → first? importFrom ("import".toList ++ x :: rest) = none) :
    Reports (w ++ x :: rest) ms := by
  refine h.pass_append fun u v hsplit _ => match?_of_isPlain (fun c hc => hw c ?_) hx fun hv => ?_
  · rw [hsplit]
    exact List.mem_append_right u hc
  · subst hv
    exact hopen ⟨u, hsplit.symm⟩

theorem Reports.pass_of_ne (h : Reports cs ms) (himport : c ≠ 'i') (hrequire : c ≠ 'r') :
    Reports (c :: cs) ms :=
  h.pass (match?_eq_none himport hrequire cs)

/-! ### The way to the next clause -/

/-- No part of a script begins with the first character of `from`. -/
theorem scriptText_ne {taken : List Char} (htaken : ∀ c ∈ taken, isBlank c) (rest : List Char)
    (ts : List Token) : scriptText ts ≠ taken ++ 'f' :: rest := by
  induction ts generalizing taken with
  | nil => simp [scriptText]
  | cons t ts ih =>
    rw [scriptText_cons]
    intro heq
    cases taken with
    | nil =>
      cases t with
      | sign c h =>
        obtain ⟨rfl, -⟩ := List.cons.inj heq
        exact absurd h (by decide)
      | bare m | named c m | call v m => exact absurd (List.cons.inj heq).1 (by decide)
    | cons d taken =>
      rw [List.forall_mem_cons] at htaken
      cases t with
      | sign c h => exact ih htaken.2 (List.cons.inj heq).2
      | bare m | named c m | call v m =>
        obtain ⟨rfl, -⟩ := List.cons.inj heq
        exact absurd htaken.1 (by decide)

theorem first?_fromPart_scriptText (c : Char) (ts : List Token) :
    first? fromPart (c :: scriptText ts) = none := by
  rw [Option.eq_none_iff_forall_ne_some]
  intro k hk
  obtain ⟨d, taken, rest, heq, -, htaken, hrest⟩ := exists_of_first?_blanks hk
  obtain ⟨rest', rfl, -⟩ := exists_of_first?_literal hrest
  exact scriptText_ne htaken _ ts (List.cons.inj heq).2

theorem Word.isBlank_quoted (m : Word) : ∀ c ∈ m.quoted, isBlank c = false := by
  simp only [quoted, List.mem_cons, List.mem_append, List.not_mem_nil, or_false]
  rintro c (rfl | hc | rfl)
  · decide
  · exact m.plain.not_isBlank c hc
  · decide

/-- A text that is passed over between an `import` and the next clause. -/
structure IsGap (gap : List Char) : Prop where
  head : ∃ x rest, gap = x :: rest ∧ isBlank x = false
  passed : ∀ cs, first? (anything :: fromPart) (gap ++ cs) = first? (anything :: fromPart) cs

theorem isGap_quoted (m : Word) : IsGap m.quoted where
  head := ⟨'"', m.letters ++ ['"'], rfl, by decide⟩
  passed := first?_anything_append m.isBlank_quoted

theorem isGap_required (m : Word) : IsGap m.required where
  head := ⟨'=', _, rfl, by decide⟩
  passed cs := by
    have hblank : first? fromPart (' ' :: ("require".toList ++ '(' :: (m.quoted ++ ')' :: cs))) =
        none :=
      first?_fromPart_of_ne (x := 'r') (by decide) (by decide) (by decide) _
    rw [m.required_append, first?_anything_of_not_isBlank (by decide),
      first?_anything_cons (by decide) hblank,
      first?_anything_append isPlain_require.not_isBlank,
      first?_anything_of_not_isBlank (by decide), first?_anything_append m.isBlank_quoted,
      first?_anything_of_not_isBlank (by decide)]

/-- After its clause an import goes on to its module. -/
theorem first?_anything_clause {q q' : Char} (hq : isQuote q) (hq' : isQuote q')
    (hm : ∀ c ∈ m, isQuote c = false ∧ c ≠ '\n') (c : Word) (cs : List Char) :
    first? (anything :: fromPart)
        (c.letters ++ ' ' :: ("from".toList ++ ' ' :: q :: (m ++ q' :: cs))) =
      some (marked m [q'] cs) := by
  rw [first?_anything_append c.plain.not_isBlank]
  exact first?_few_of_some (first?_fromPart hq hq' hm cs)

theorem Word.closed (m : Word) : ∀ c ∈ m.letters, isQuote c = false ∧ c ≠ '\n' :=
  fun c hc => ⟨m.plain.not_isQuote c hc, m.plain.ne_newline c hc⟩

/-- What is found of the next clause on the line. -/
def nextMatch (ts : List Token) : Option Match :=
  (nextNamed? ts).map fun next => marked next.1.letters ['"'] (scriptText next.2)

theorem first?_anything_scriptText (ts : List Token) :
    first? (anything :: fromPart) (scriptText ts) = nextMatch ts := by
  induction ts with
  | nil => simp [scriptText, nextMatch, nextNamed?, anything, fromPart, blanks, first?]
  | cons t ts ih =>
    rw [scriptText_cons]
    cases t with
    | sign c h =>
      -- A line end is a blank as well, but the repetition does not go over it.
      have hfrom := first?_fromPart_scriptText c ts
      by_cases hc : c = '\n'
      · subst hc
        exact first?_few_eq_none (by decide) hfrom
      · have hnext : nextMatch (.sign c h :: ts) = nextMatch ts := by
          simp [nextMatch, nextNamed?, hc]
        rw [hnext, ← ih]
        exact first?_anything_cons hc hfrom
    | bare m =>
      have hquote : first? fromPart (' ' :: (m.quoted ++ scriptText ts)) = none :=
        first?_fromPart_of_ne (by decide) (by decide) (by decide) _
      rw [Token.text_bare_append, first?_anything_append isPlain_import.not_isBlank,
        first?_anything_cons (by decide) hquote, (isGap_quoted m).passed, ih]
      rfl
    | named c m =>
      have hclause : first? fromPart (' ' ::
          (c.letters ++ ' ' :: ("from".toList ++ ' ' :: (m.quoted ++ scriptText ts)))) = none :=
        first?_fromPart_of_word c.plain c.ne_nil (by decide) (by decide) _
      rw [Token.text_named_append, first?_anything_append isPlain_import.not_isBlank,
        first?_anything_cons (by decide) hclause, m.quoted_append,
        first?_anything_clause (by decide) (by decide) m.closed]
      rfl
    | call v m =>
      have hname : first? fromPart (' ' :: (v.letters ++ ' ' :: (m.required ++ scriptText ts))) =
          none :=
        first?_fromPart_of_word v.plain v.ne_nil (by decide) (by decide) _
      have hequals : first? fromPart (' ' :: (m.required ++ scriptText ts)) = none :=
        first?_fromPart_of_ne (by decide) (by decide) (by decide) _
      rw [Token.text_call_append, first?_anything_append isPlain_const.not_isBlank,
        first?_anything_cons (by decide) hname, first?_anything_append v.plain.not_isBlank,
        first?_anything_cons (by decide) hequals, (isGap_required m).passed, ih]
      rfl

theorem IsGap.first?_importFrom {gap : List Char} (h : IsGap gap) (ts : List Token) :
    first? importFrom ("import".toList ++ ' ' :: (gap ++ scriptText ts)) = nextMatch ts := by
  obtain ⟨x, rest, rfl, hx⟩ := h.head
  rw [← first?_anything_scriptText, ← h.passed]
  exact JavaScript.first?_importFrom hx _

theorem exists_of_nextNamed? (h : nextNamed? ts = some (m', ts')) : ts'.length < ts.length ∧
    ∃ before, scriptText ts = before ++ (m'.letters ++ '"' :: scriptText ts') := by
  induction ts with
  | nil => cases h
  | cons t ts ih =>
    have hlater (hts : nextNamed? ts = some (m', ts')) : ts'.length < (t :: ts).length ∧
        ∃ before, scriptText (t :: ts) = before ++ (m'.letters ++ '"' :: scriptText ts') := by
      obtain ⟨hlength, before, hbefore⟩ := ih hts
      refine ⟨Nat.lt_succ_of_lt hlength, t.text ++ before, ?_⟩
      rw [scriptText_cons, hbefore, List.append_assoc]
    cases t with
    | sign c hc =>
      rw [nextNamed?] at h
      split at h
      · cases h
      · exact hlater h
    | bare m | call v m => exact hlater h
    | named c m =>
      obtain ⟨rfl, rfl⟩ := Prod.mk.inj (Option.some.inj h)
      refine ⟨Nat.lt_succ_self _,
        "import".toList ++ ' ' :: (c.letters ++ ' ' :: ("from".toList ++ [' ', '"'])), ?_⟩
      rw [scriptText_cons, Token.text_named_append, m.quoted_append]
      simp

/-! ### What a script reports -/

theorem Reports.sign (h : Reports cs ms) (hc : isBlank c ∨ c = ';') : Reports (c :: cs) ms := by
  refine h.pass_of_ne ?_ ?_
  all_goals
    rintro rfl
    exact absurd hc (by decide)

theorem Reports.quoted (h : Reports cs ms) (m : Word) : Reports (m.quoted ++ cs) ms := by
  rw [m.quoted_append]
  refine (Reports.pass_word (h.pass_of_ne (by decide) (by decide)) m.plain (.inr rfl)
    fun _ => ?_).pass_of_ne (by decide) (by decide)
  rw [Option.eq_none_iff_forall_ne_some]
  intro k hk
  obtain ⟨d, rest, heq, hd⟩ := exists_of_first?_importFrom hk
  obtain ⟨rfl, -⟩ := List.cons.inj (List.append_cancel_left heq)
  exact absurd hd (by decide)

/-- A clause is found, whatever stands between the `import` and it. -/
theorem Reports.next {gap : List Char} (hgap : IsGap gap) (hnext : nextNamed? ts = some (m', ts'))
    (h : Reports (scriptText ts') ms) :
    Reports ("import".toList ++ ' ' :: (gap ++ scriptText ts)) (m'.letters :: ms) := by
  obtain ⟨-, before, hbefore⟩ := exists_of_nextNamed? hnext
  have hfirst := hgap.first?_importFrom ts
  rw [nextMatch, hnext, Option.map_some] at hfirst
  have htext : "import".toList ++ ' ' :: (gap ++ scriptText ts) =
      ("import".toList ++ ' ' :: (gap ++ before)) ++ (m'.letters ++ (['"'] ++ scriptText ts')) := by
    simp [hbefore]
  rw [htext] at hfirst ⊢
  exact h.found (match?_of_importFrom hfirst)

/-- Of an import with a clause the module is reported up to the first quotation mark. -/
theorem Reports.clause {q q' : Char} (h : Reports rest ms) (hq : isQuote q) (hq' : isQuote q')
    (hm : ∀ c ∈ m, isQuote c = false ∧ c ≠ '\n') (c : Word) :
    Reports ("import".toList ++ ' ' ::
      (c.letters ++ ' ' :: ("from".toList ++ ' ' :: q :: (m ++ q' :: rest)))) (m :: ms) := by
  have hfirst : first? importFrom ("import".toList ++ ' ' ::
      (c.letters ++ ' ' :: ("from".toList ++ ' ' :: q :: (m ++ q' :: rest)))) =
        some (marked m [q'] rest) := by
    have hclause := first?_anything_clause hq hq' hm c rest
    obtain ⟨x, w, hcons⟩ := List.exists_cons_of_ne_nil c.ne_nil
    have hx := c.plain.not_isBlank x (by rw [hcons]; exact List.mem_cons_self)
    rw [hcons] at hclause ⊢
    exact (first?_importFrom hx _).trans hclause
  have hsplit : "import".toList ++ ' ' ::
      (c.letters ++ ' ' :: ("from".toList ++ ' ' :: q :: (m ++ q' :: rest))) =
        ("import".toList ++ ' ' :: (c.letters ++ ' ' :: ("from".toList ++ [' ', q]))) ++
          (m ++ ([q'] ++ rest)) := by
    simp
  rw [hsplit] at hfirst ⊢
  exact h.found (match?_of_importFrom hfirst)

theorem Reports.named (h : Reports cs ms) (c m : Word) :
    Reports ((Token.named c m).text ++ cs) (m.letters :: ms) := by
  rw [Token.text_named_append, m.quoted_append]
  exact h.clause (by decide) (by decide) m.closed c

/-- Of a call the module is reported up to the first quotation mark before a parenthesis. -/
theorem Reports.requires {q q' : Char} (h : Reports rest ms) (hq : isQuote q) (hq' : isQuote q')
    (hm : ∀ c ∈ m, c ≠ '\n' ∧ c ≠ ')') :
    Reports ("require(".toList ++ q :: (m ++ q' :: ')' :: rest)) (m :: ms) := by
  have hfirst := first?_requireCall hq hq' hm rest
  have hnone : first? importFrom ("require(".toList ++ q :: (m ++ q' :: ')' :: rest)) = none := by
    rw [importFrom_eq]
    exact first?_literal_eq_none (by simp) (by decide)
  have hsplit : "require(".toList ++ q :: (m ++ q' :: ')' :: rest) =
      ("require(".toList ++ [q]) ++ (m ++ ([q', ')'] ++ rest)) := by
    simp
  rw [hsplit] at hfirst hnone ⊢
  refine h.found ?_
  rw [match?_importExpression, hnone, hfirst, Option.none_or]

theorem Reports.required (h : Reports cs ms) (m : Word) :
    Reports (m.required ++ cs) (m.letters :: ms) := by
  have hplain (c : Char) (hc : c ∈ m.letters) : c ≠ '\n' ∧ c ≠ ')' := by
    refine ⟨m.plain.ne_newline c hc, ?_⟩
    rintro rfl
    exact absurd (m.plain _ hc) (by decide)
  have hcall : Reports ("require(".toList ++ '"' :: (m.letters ++ '"' :: ')' :: cs))
      (m.letters :: ms) := h.requires (by decide) (by decide) hplain
  rw [m.required_append, m.quoted_append]
  exact (hcall.pass_of_ne (by decide) (by decide)).pass_of_ne (by decide) (by decide)

/-- A declaration is passed up to its name. -/
theorem Reports.declared (h : Reports cs ms) : Reports ("const".toList ++ ' ' :: cs) ms :=
  (h.sign (.inl (by decide))).pass_word isPlain_const (.inl (by decide)) fun hconst =>
    absurd hconst (by decide)

/-- The name of a call is passed, unless it ends in `import` and a clause follows. -/
theorem Reports.call (h : Reports (scriptText ts) ms) (v m : Word)
    (hnone : v.EndsInImport → nextNamed? ts = none) :
    Reports ((Token.call v m).text ++ scriptText ts) (m.letters :: ms) := by
  have hname : Reports (v.letters ++ ' ' :: (m.required ++ scriptText ts)) (m.letters :: ms) := by
    refine ((h.required m).sign (.inl (by decide))).pass_word v.plain (.inl (by decide)) fun hv => ?_
    rw [(isGap_required m).first?_importFrom, nextMatch, hnone hv, Option.map_none]
  rw [Token.text_call_append]
  exact hname.declared

/-- A call whose name ends in `import` is passed on the way to the clause. -/
theorem Reports.call_of_endsInImport {v : Word} (hv : v.EndsInImport) (m : Word)
    (hnext : nextNamed? ts = some (m', ts')) (h : Reports (scriptText ts') ms) :
    Reports ((Token.call v m).text ++ scriptText ts) (m'.letters :: ms) := by
  obtain ⟨u, hu⟩ := hv
  have htext : (Token.call v m).text ++ scriptText ts = "const".toList ++ ' ' ::
      (u ++ ("import".toList ++ ' ' :: (m.required ++ scriptText ts))) := by
    rw [← List.append_assoc u, hu, Token.text_call_append]
  have hname : Reports (u ++ ("import".toList ++ ' ' :: (m.required ++ scriptText ts)))
      (m'.letters :: ms) := by
    -- What is left of the name before its end is longer than `import`, so nothing matches there.
    refine (h.next (isGap_required m) hnext).pass_append fun u₁ u₂ hsplit hne => ?_
    rw [← List.append_assoc]
    refine match?_of_isPlain (fun c hc => v.plain c ?_) (.inl (by decide)) fun heq => ?_
    · rw [← hu, hsplit, List.append_assoc]
      exact List.mem_append_right u₁ hc
    · exact absurd (List.append_left_eq_self.mp heq) hne
  rw [htext]
  exact hname.declared

theorem reported_true_of_some (h : nextNamed? ts = some (m', ts')) :
    reported true ts = m'.letters :: reported false ts' := by
  induction ts with
  | nil => cases h
  | cons t ts ih =>
    cases t with
    | sign c hc =>
      rw [nextNamed?] at h
      split at h
      · cases h
      · next hline => simp [reported, bne_iff_ne.mpr hline, ih h]
    | bare m => exact ih h
    | named c m =>
      obtain ⟨rfl, rfl⟩ := Prod.mk.inj (Option.some.inj h)
      rfl
    | call v m =>
      rw [nextNamed?] at h
      simp [reported, h, ih h]

theorem reported_true_of_none (h : nextNamed? ts = none) : reported true ts = reported false ts := by
  induction ts with
  | nil => rfl
  | cons t ts ih =>
    cases t with
    | sign c hc =>
      rw [nextNamed?] at h
      split at h
      · next hline => simp [reported, hline]
      · next hline => simp [reported, bne_iff_ne.mpr hline, ih h]
    | bare m => rfl
    | named c m => cases h
    | call v m =>
      rw [nextNamed?] at h
      cases hv : decide v.EndsInImport <;> simp [reported, h, hv, ih h]

theorem reports_scriptText (ts : List Token) : Reports (scriptText ts) (reported false ts) := by
  -- A match may end some statements later, so the induction is on how many there are.
  induction hn : ts.length using Nat.strongRecOn generalizing ts with
  | _ n ih =>
    cases ts with
    | nil => exact reports_nil
    | cons t ts =>
      rw [List.length_cons] at hn
      have hrest : Reports (scriptText ts) (reported false ts) := ih _ (by omega) ts rfl
      have hnext {m' : Word} {ts' : List Token} (h : nextNamed? ts = some (m', ts')) :
          Reports (scriptText ts') (reported false ts') := by
        have hlength := (exists_of_nextNamed? h).1
        exact ih _ (by omega) ts' rfl
      rw [scriptText_cons]
      cases t with
      | sign c hc => exact hrest.sign hc
      | named c m => exact hrest.named c m
      | bare m =>
        rw [Token.text_bare_append, reported]
        cases h : nextNamed? ts with
        | some next =>
          rw [reported_true_of_some h]
          exact (hnext h).next (isGap_quoted m) h
        | none =>
          rw [reported_true_of_none h]
          refine ((hrest.quoted m).sign (.inl (by decide))).pass_word isPlain_import
            (.inl (by decide)) fun _ => ?_
          rw [(isGap_quoted m).first?_importFrom, nextMatch, h, Option.map_none]
      | call v m =>
        by_cases hv : v.EndsInImport
        · cases h : nextNamed? ts with
          | some next =>
            have hreported : reported false (.call v m :: ts) = reported true ts := by
              simp [reported, hv, h]
            rw [hreported, reported_true_of_some h]
            exact (hnext h).call_of_endsInImport hv m h
          | none =>
            have hreported : reported false (.call v m :: ts) = m.letters :: reported false ts := by
              simp [reported, hv, h, reported_true_of_none h]
            rw [hreported]
            exact hrest.call v m fun _ => h
        · have hreported : reported false (.call v m :: ts) = m.letters :: reported false ts := by
            simp [reported, hv]
          rw [hreported]
          exact hrest.call v m fun hends => absurd hends hv

end RepoSurvey.JavaScript
