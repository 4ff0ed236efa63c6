import Mathlib.Data.List.Forall2
import RepoSurvey.Json.Shape
import RepoSurvey.Proofs.JsonTokens

/-!
Reading a value of a known shape from the text that was written of it, in any style that sets parts
apart by blanks. There is one lemma for each shape: it takes what is known of the parts to the whole.
-/

namespace RepoSurvey.Json

/-! ### Styles -/

/-- A style that sets parts apart by blanks only. -/
structure Style.Blank (style : Style) : Prop where
  newLine : ∀ depth, Gap (style.newLine depth)
  colon : ∃ gap, Gap gap ∧ style.colon = ':' :: gap

theorem compact_blank : compact.Blank where
  newLine _ := List.forall_mem_nil _
  colon := ⟨[], List.forall_mem_nil _, rfl⟩

theorem pretty_blank : pretty.Blank where
  newLine depth := by
    refine List.forall_mem_cons.mpr ⟨by decide, fun c hc => ?_⟩
    rw [List.eq_of_mem_replicate hc]
    decide
  colon := ⟨[' '], List.forall_mem_singleton.mpr (by decide), rfl⟩

/-! ### What a reader takes -/

variable {style : Style} {c : Char} {gap lead cs rest : List Char} {first : Bool}

/-- A reader takes a written value off a text, at whatever depth it was written, and gives `v'`. -/
def Takes (style : Style) (reader : Reader Json) (v v' : Json) : Prop :=
  ∀ depth gap rest, Gap gap → EndsNumber rest →
    reader (gap ++ (v.write style depth ++ rest)) = .ok (v', rest)

/-- A character with which a value can begin, unless it is `null`. -/
structure Opens (c : Char) : Prop where
  gap : isGap c = false
  bracket : c ≠ ']'
  null : c ≠ 'n'

/-- A value that is not `null` and that a reader takes off a text. -/
structure Legible (style : Style) (reader : Reader Json) (v v' : Json) : Prop where
  opens : ∀ depth, ∃ c cs, v.write style depth = c :: cs ∧ Opens c
  takes : Takes style reader v v'

theorem EndsNumber.gap_append (hgap : Gap gap) (h : EndsNumber rest) :
    EndsNumber (gap ++ rest) := by
  cases gap with
  | nil => exact h
  | cons c gap =>
    intro d hd
    obtain rfl : c = d := Option.some.inj hd
    have hc := hgap c (List.mem_cons_self ..)
    simp only [isGap, Bool.or_eq_true, beq_iff_eq] at hc
    rcases hc with ((rfl | rfl) | rfl) | rfl
    all_goals decide

theorem endsNumber_cons (h : c.isDigit = false ∧ c ≠ '.' ∧ c ≠ 'e' ∧ c ≠ 'E') (cs : List Char) :
    EndsNumber (c :: cs) := by
  intro d hd
  obtain rfl : c = d := Option.some.inj hd
  exact h

/-! ### Parts of brackets -/

/-- What stands before a part of a bracket: blanks, and a comma unless the part is the first. -/
inductive Lead : Bool → List Char → Prop where
  | first {gap : List Char} (h : Gap gap) : Lead true gap
  | later {gap : List Char} (h : Gap gap) : Lead false (',' :: gap)

/-- Parts that each follow a comma, of which the first one loses it when nothing stands before. -/
def led (first : Bool) (parts : List Char) : List Char := if first then parts.tail else parts

theorem exists_lead (hgap : Gap gap) (first : Bool) (cs : List Char) :
    ∃ lead, Lead first lead ∧ led first (',' :: (gap ++ cs)) = lead ++ cs := by
  cases first with
  | true => exact ⟨gap, .first hgap, rfl⟩
  | false => exact ⟨',' :: gap, .later hgap, rfl⟩

theorem led_nil (first : Bool) : led first [] = [] := by
  cases first <;> rfl

theorem nextItem?_lead (h : Lead first lead) (hc : Opens c) (cs : List Char) :
    nextItem? first (lead ++ c :: cs) = .ok (some (c :: cs)) := by
  unfold nextItem?
  cases h with
  | first hgap =>
    rw [skipGap_append hgap, skipGap_cons hc.gap]
    split
    case h_1 heq => cases heq
    case h_2 heq => exact absurd (List.cons.inj heq).1 hc.bracket
    case h_3 heq =>
      obtain ⟨rfl, rfl⟩ := List.cons.inj heq
      rfl
  | later hgap =>
    rw [List.cons_append, skipGap_cons (by decide)]
    split
    case h_1 heq => cases heq
    case h_2 heq => exact absurd (List.cons.inj heq).1 (by decide)
    case h_3 heq =>
      obtain ⟨rfl, rfl⟩ := List.cons.inj heq
      rw [if_neg Bool.false_ne_true, if_pos rfl, skipGap_append hgap, skipGap_cons hc.gap]
      split
      case h_1 heq => cases heq
      case h_2 heq => exact absurd (List.cons.inj heq).1 hc.bracket
      case h_3 => rfl

theorem nextItem?_end (hgap : Gap gap) (first : Bool) (cs : List Char) :
    nextItem? first (gap ++ ']' :: cs) = .ok none := by
  unfold nextItem?
  rw [skipGap_append hgap, skipGap_cons (by decide)]
  rfl

theorem nextName?_lead (h : Lead first lead) (name : String) (cs : List Char) :
    nextName? first (lead ++ (quoted name ++ cs)) = .ok (some (name, cs)) := by
  have hquoted : quoted name ++ cs = '"' :: (name.toList.flatMap escape ++ '"' :: cs) := by
    simp [quoted]
  have hread : (readQuoted (name.toList.flatMap escape ++ '"' :: cs)).map
      (fun r => some (String.ofList r.1, r.2)) = .ok (some (name, cs)) := by
    rw [readQuoted_flatMap_escape]
    simp [Except.map]
  unfold nextName?
  rw [hquoted]
  cases h with
  | first hgap =>
    rw [skipGap_append hgap, skipGap_cons (by decide)]
    exact hread
  | later hgap =>
    rw [List.cons_append, skipGap_cons (by decide)]
    split
    case h_1 heq => cases heq
    case h_2 heq => exact absurd (List.cons.inj heq).1 (by decide)
    case h_3 heq =>
      obtain ⟨rfl, rfl⟩ := List.cons.inj heq
      rw [if_neg Bool.false_ne_true, if_pos rfl, skipGap_append hgap, skipGap_cons (by decide)]
      exact hread

theorem nextName?_end (hgap : Gap gap) (first : Bool) (cs : List Char) :
    nextName? first (gap ++ '}' :: cs) = .ok none := by
  unfold nextName?
  rw [skipGap_append hgap, skipGap_cons (by decide)]
  rfl

theorem readColon_colon (hstyle : style.Blank) (cs : List Char) :
    ∃ gap, Gap gap ∧ readColon (style.colon ++ cs) = .ok (gap ++ cs) := by
  obtain ⟨gap, hgap, hcolon⟩ := hstyle.colon
  refine ⟨gap, hgap, ?_⟩
  rw [hcolon, List.cons_append, readColon, skipGap_cons (by decide)]
  rfl

theorem shorter_of_lt {α : Type} {cs rest : List Char} {r : Except Fault α}
    (h : rest.length < cs.length) : shorter cs rest (fun _ => r) = r :=
  dif_pos h

/-! ### Lists -/

theorem Legible.takes_part {reader : Reader Json} {v v' : Json} (h : Legible style reader v v')
    (depth : Nat) (hrest : EndsNumber rest) :
    reader (v.write style depth ++ rest) = .ok (v', rest) :=
  h.takes depth [] rest (List.forall_mem_nil _) hrest

theorem Legible.length_lt {reader : Reader Json} {v v' : Json} (h : Legible style reader v v')
    (depth : Nat) (before rest : List Char) :
    rest.length < (before ++ (v.write style depth ++ rest)).length := by
  obtain ⟨c, cs, hwrite, -⟩ := h.opens depth
  rw [hwrite]
  simp only [List.length_append, List.length_cons]
  omega

theorem readItems_lead {item : Reader Json} {v v' : Json} {vs' : List Json} {more : List Char}
    (hlead : Lead first lead) (h : Legible style item v v') (depth : Nat) (hends : EndsNumber more)
    (hmore : readItems item false more = .ok (vs', rest)) :
    readItems item first (lead ++ (v.write style depth ++ more)) = .ok (v' :: vs', rest) := by
  obtain ⟨c, cs, hwrite, hc⟩ := h.opens depth
  have hnext : nextItem? first (lead ++ (v.write style depth ++ more)) =
      .ok (some (v.write style depth ++ more)) := by
    rw [hwrite]
    exact nextItem?_lead hlead hc (cs ++ more)
  rw [readItems, hnext]
  dsimp only
  rw [h.takes_part depth hends]
  dsimp only
  rw [shorter_of_lt (h.length_lt depth lead more), hmore]
  rfl

theorem endsNumber_writeItems (depth : Nat) (vs : List Json) (hgap : Gap gap) (cs : List Char) :
    EndsNumber (writeItems style depth vs ++ (gap ++ ']' :: cs)) := by
  cases vs with
  | nil =>
    rw [writeItems, List.nil_append]
    exact (endsNumber_cons (by decide) cs).gap_append hgap
  | cons v vs =>
    rw [writeItems, List.cons_append, List.cons_append, List.cons_append]
    exact endsNumber_cons (by decide) _

/-- All items of a list are read as they were written. -/
theorem readItems_writeItems (hstyle : style.Blank) {item : Reader Json} {vs vs' : List Json}
    (h : List.Forall₂ (Legible style item) vs vs') (depth : Nat) (hgap : Gap gap) (cs : List Char)
    (first : Bool) :
    readItems item first (led first (writeItems style depth vs) ++ (gap ++ ']' :: cs)) =
      .ok (vs', ']' :: cs) := by
  -- On the items that are left; only the first of them may stand without a comma.
  induction h generalizing first with
  | nil =>
    rw [writeItems, led_nil, List.nil_append, readItems, nextItem?_end hgap]
    dsimp only
    rw [skipGap_append hgap, skipGap_cons (by decide)]
  | @cons v v' vs vs' hv _ ih =>
    obtain ⟨lead, hlead, hled⟩ := exists_lead (hstyle.newLine depth) first
      (v.write style depth ++ writeItems style depth vs)
    have hwrite : writeItems style depth (v :: vs) =
        ',' :: (style.newLine depth ++ (v.write style depth ++ writeItems style depth vs)) := by
      simp [writeItems]
    rw [hwrite, hled, List.append_assoc, List.append_assoc]
    exact readItems_lead hlead hv depth (endsNumber_writeItems depth vs hgap cs) (ih false)

theorem write_list (hstyle : style.Blank) (depth : Nat) (vs : List Json) :
    ∃ gap, Gap gap ∧ (list vs).write style depth =
      '[' :: (led true (writeItems style (depth + 1) vs) ++ (gap ++ [']'])) := by
  cases vs with
  | nil => exact ⟨[], List.forall_mem_nil _, rfl⟩
  | cons v vs =>
    refine ⟨style.newLine depth, hstyle.newLine depth, ?_⟩
    simp [write, writeItems, led]

/-! ### Fields -/

/-- The rest of a record, up to its end, does not go on with a number. -/
theorem endsNumber_writeFields (depth : Nat) (es : List (String × Json)) (hgap : Gap gap)
    (cs : List Char) : EndsNumber (writeFields style depth es ++ (gap ++ '}' :: cs)) := by
  cases es with
  | nil =>
    rw [writeFields, List.nil_append]
    exact (endsNumber_cons (by decide) cs).gap_append hgap
  | cons e es =>
    rw [writeFields, List.cons_append, List.cons_append, List.cons_append, List.cons_append,
      List.cons_append]
    exact endsNumber_cons (by decide) _

theorem writeFields_cons (depth : Nat) (name : String) (v : Json) (es : List (String × Json)) :
    writeFields style depth ((name, v) :: es) = ',' :: (style.newLine depth ++
      (quoted name ++ (style.colon ++ (v.write style depth ++ writeFields style depth es)))) := by
  simp [writeFields]

theorem write_record (hstyle : style.Blank) (depth : Nat) (es : List (String × Json)) :
    ∃ gap, Gap gap ∧ (record es).write style depth =
      '{' :: (led true (writeFields style (depth + 1) es) ++ (gap ++ ['}'])) := by
  cases es with
  | nil => exact ⟨[], List.forall_mem_nil _, rfl⟩
  | cons e es =>
    refine ⟨style.newLine depth, hstyle.newLine depth, ?_⟩
    obtain ⟨name, v⟩ := e
    simp [write, writeFields, led]

/-- A field's value is taken off what follows the field's name. -/
theorem takes_after_colon (hstyle : style.Blank) {value : Reader Json} {v v' : Json}
    (h : Takes style value v v') (depth : Nat) (hrest : EndsNumber rest) :
    (readColon (style.colon ++ (v.write style depth ++ rest)) >>= value) = .ok (v', rest) := by
  obtain ⟨gap, hgap, hcolon⟩ := readColon_colon hstyle (v.write style depth ++ rest)
  rw [hcolon]
  exact h depth gap rest hgap hrest

theorem length_lt_of_name (lead : List Char) (name : String) (middle rest : List Char) :
    rest.length < (lead ++ (quoted name ++ (middle ++ rest))).length := by
  simp only [quoted, List.length_append, List.length_cons]
  omega

theorem setEntry_of_notMem {name : String} {es : List (String × Json)}
    (h : name ∉ es.map Prod.fst) (v : Json) : setEntry name v es = es ++ [(name, v)] := by
  induction es with
  | nil => rfl
  | cons e es ih =>
    rw [List.map_cons, List.mem_cons, not_or] at h
    rw [setEntry, if_neg (Ne.symm h.1), ih h.2, List.cons_append]

/-- All entries of a map are read as they were written. -/
theorem readEntries_writeFields (hstyle : style.Blank) {names : NameShape} {value : Reader Json}
    {es : List (String × Json)} (hnames : ∀ e ∈ es, names.refusal? e.1 = none)
    (hvalues : ∀ e ∈ es, Takes style value e.2 e.2) (before : List (String × Json))
    (hnodup : ((before ++ es).map Prod.fst).Nodup) (depth : Nat) (hgap : Gap gap) (cs : List Char)
    (first : Bool) :
    readEntries names value first before
        (led first (writeFields style depth es) ++ (gap ++ '}' :: cs)) =
      .ok (before ++ es, '}' :: cs) := by
  -- On the entries that are left. No name of theirs is among those before, so each goes to the end.
  induction es generalizing first before with
  | nil =>
    rw [writeFields, led_nil, List.nil_append, readEntries, nextName?_end hgap, List.append_nil]
    dsimp only
    rw [skipGap_append hgap, skipGap_cons (by decide)]
  | cons e es ih =>
    obtain ⟨name, v⟩ := e
    obtain ⟨lead, hlead, hled⟩ := exists_lead (hstyle.newLine depth) first
      (quoted name ++ (style.colon ++ (v.write style depth ++ writeFields style depth es)))
    have hfresh : name ∉ before.map Prod.fst := by
      rw [List.map_append, List.map_cons] at hnodup
      exact fun hname => (List.nodup_append.mp hnodup).2.2 _ hname _ (List.mem_cons_self ..) rfl
    have hrest := ih (fun e he => hnames e (List.mem_cons_of_mem _ he))
      (fun e he => hvalues e (List.mem_cons_of_mem _ he)) (before ++ [(name, v)])
      (by rwa [List.append_assoc, List.singleton_append]) false
    rw [writeFields_cons, hled]
    simp only [List.append_assoc]
    rw [readEntries, nextName?_lead hlead]
    dsimp only
    rw [hnames (name, v) (List.mem_cons_self ..)]
    dsimp only
    rw [takes_after_colon hstyle (hvalues (name, v) (List.mem_cons_self ..)) depth
      (endsNumber_writeFields depth es hgap cs)]
    dsimp only
    rw [shorter_of_lt, setEntry_of_notMem hfresh]
    · rw [List.append_assoc, List.singleton_append] at hrest
      exact hrest
    · rw [← List.append_assoc style.colon]
      exact length_lt_of_name ..

/-! ### Records -/

section Records

variable {κ : Type} {shape : RecordShape κ} {value : κ → Reader Json}

/-- The written fields of a record, and what is read for all of its fields: a field that may be left
out and is becomes `null`. -/
inductive Fills (style : Style) (value : κ → Reader Json) :
    List (Field κ) → List (String × Json) → List (String × Json) → Prop where
  | nil : Fills style value [] [] []
  | given {f : Field κ} {fs : List (Field κ)} {v v' : Json} {es es' : List (String × Json)}
      (h : Takes style (readFieldValue value f) v v') (hrest : Fills style value fs es es') :
      Fills style value (f :: fs) ((f.name, v) :: es) ((f.name, v') :: es')
  | leftOut {f : Field κ} {fs : List (Field κ)} {es es' : List (String × Json)}
      (h : f.presence ≠ .required) (hrest : Fills style value fs es es') :
      Fills style value (f :: fs) es ((f.name, .null) :: es')

theorem complete_cons_of_some {f : Field κ} {fs : List (Field κ)} {seen es : List (String × Json)}
    {v : Json} (hf : seen.lookup f.name = some v) (hfs : complete seen fs = .ok es) :
    complete seen (f :: fs) = .ok ((f.name, v) :: es) := by
  rw [complete, hf, hfs]
  rfl

theorem complete_cons_of_none {f : Field κ} {fs : List (Field κ)} {seen es : List (String × Json)}
    (hf : seen.lookup f.name = none) (h : f.presence ≠ .required)
    (hfs : complete seen fs = .ok es) : complete seen (f :: fs) = .ok ((f.name, .null) :: es) := by
  rw [complete, hf, hfs]
  cases hp : f.presence with
  | required => exact absurd hp h
  | nullable => rfl
  | optional => rfl

/-- All fields of a record are read as they were written, and make it complete. -/
theorem readFields_writeFields (hstyle : style.Blank) {fs : List (Field κ)}
    {es es' : List (String × Json)} (h : Fills style value fs es es')
    (hfind : ∀ f ∈ fs, shape.fields.find? (·.name == f.name) = some f)
    (hnodup : (fs.map Field.name).Nodup) (seen : List (String × Json))
    (hseen : ∀ f ∈ fs, seen.lookup f.name = none) (depth : Nat) (hgap : Gap gap) (cs : List Char)
    (first : Bool) :
    ∃ seen', readFields shape value first seen
        (led first (writeFields style depth es) ++ (gap ++ '}' :: cs)) = .ok (seen', '}' :: cs) ∧
      complete seen' fs = .ok es' ∧
      ∀ name ∉ fs.map Field.name, seen'.lookup name = seen.lookup name := by
  -- On the fields that are left. What is seen is only known by what a lookup finds in it, which the
  -- fields after one do not change for it.
  induction h generalizing first seen with
  | nil =>
    refine ⟨seen, ?_, rfl, fun _ _ => rfl⟩
    rw [writeFields, led_nil, List.nil_append, readFields, nextName?_end hgap]
    dsimp only
    rw [skipGap_append hgap, skipGap_cons (by decide)]
  | @given f fs v v' es es' hv _ ih =>
    rw [List.map_cons, List.nodup_cons] at hnodup
    have hnew : ∀ f' ∈ fs, ((f.name, v') :: seen).lookup f'.name = none := by
      intro f' hf'
      have hne : (f'.name == f.name) = false :=
        beq_eq_false_iff_ne.mpr fun heq => hnodup.1 (heq ▸ List.mem_map_of_mem hf')
      rw [List.lookup_cons, hne]
      exact hseen f' (List.mem_cons_of_mem _ hf')
    obtain ⟨seen', hread, hcomplete, hother⟩ :=
      ih (fun f' hf' => hfind f' (List.mem_cons_of_mem _ hf')) hnodup.2 _ hnew false
    refine ⟨seen', ?_, complete_cons_of_some ?_ hcomplete, fun name hname => ?_⟩
    · obtain ⟨lead, hlead, hled⟩ := exists_lead (hstyle.newLine depth) first
        (quoted f.name ++ (style.colon ++ (v.write style depth ++ writeFields style depth es)))
      rw [writeFields_cons, hled]
      simp only [List.append_assoc]
      rw [readFields, nextName?_lead hlead]
      dsimp only
      rw [hfind f (List.mem_cons_self ..)]
      dsimp only
      rw [hseen f (List.mem_cons_self ..), if_neg (by simp),
        takes_after_colon hstyle hv depth (endsNumber_writeFields depth es hgap cs)]
      dsimp only
      rw [shorter_of_lt]
      · exact hread
      · rw [← List.append_assoc style.colon]
        exact length_lt_of_name ..
    · rw [hother f.name hnodup.1, List.lookup_cons, beq_self_eq_true]
    · rw [List.map_cons, List.mem_cons, not_or] at hname
      have hne : (name == f.name) = false := beq_eq_false_iff_ne.mpr hname.1
      rw [hother name hname.2, List.lookup_cons, hne]
  | @leftOut f fs es es' hf _ ih =>
    rw [List.map_cons, List.nodup_cons] at hnodup
    obtain ⟨seen', hread, hcomplete, hother⟩ :=
      ih (fun f' hf' => hfind f' (List.mem_cons_of_mem _ hf')) hnodup.2 seen
        (fun f' hf' => hseen f' (List.mem_cons_of_mem _ hf')) first
    have hnone : seen'.lookup f.name = none :=
      (hother f.name hnodup.1).trans (hseen f (List.mem_cons_self ..))
    refine ⟨seen', hread, complete_cons_of_none hnone hf hcomplete, fun name hname => ?_⟩
    rw [List.map_cons, List.mem_cons, not_or] at hname
    exact hother name hname.2

end Records

/-! ### Kinds of values -/

section Kinds

variable {κ : Type} {shapeOf : κ → Shape κ} {kind : κ} {levels : Nat}

theorem opens_quote : Opens '"' := ⟨by decide, by decide, by decide⟩

/-- Reading what begins with a quotation mark is reading a text, whatever comes of it. -/
theorem legible_of_quoted {reader : Reader Json} {s : String} {v' : Json}
    (h : ∀ gap rest, Gap gap →
      reader (gap ++ '"' :: (s.toList.flatMap escape ++ '"' :: rest)) = .ok (v', rest)) :
    Legible style reader (.text s) v' where
  opens depth := ⟨'"', s.toList.flatMap escape ++ ['"'], rfl, opens_quote⟩
  takes depth gap rest hgap _ := by
    have htext := h gap rest hgap
    rw [write, quoted, List.cons_append, List.cons_append, List.append_assoc,
      List.singleton_append]
    exact htext

theorem legible_text (hshape : shapeOf kind = .text) (s : String) :
    Legible style (readKind shapeOf levels kind) (.text s) (.text s) := by
  refine legible_of_quoted fun gap rest hgap => ?_
  rw [readKind, skipGap_append hgap, skipGap_cons (by decide)]
  dsimp only
  rw [hshape]
  dsimp only
  rw [if_pos rfl]
  have hread : readPlain ('"' :: (s.toList.flatMap escape ++ '"' :: rest)) =
      (readQuoted (s.toList.flatMap escape ++ '"' :: rest)).map
        fun r => (.text (String.ofList r.1), r.2) := rfl
  rw [hread, readQuoted_flatMap_escape]
  dsimp only [Except.map]
  rw [String.ofList_toList]

theorem legible_coded {expected : String} {decode : String → Except String Json} {v' : Json}
    (hshape : shapeOf kind = .coded expected decode) {s : String} (hs : decode s = .ok v') :
    Legible style (readKind shapeOf levels kind) (.text s) v' := by
  refine legible_of_quoted fun gap rest hgap => ?_
  rw [readKind, skipGap_append hgap, skipGap_cons (by decide)]
  dsimp only
  rw [hshape]
  dsimp only
  rw [if_pos rfl, readQuoted_flatMap_escape]
  dsimp only
  rw [String.ofList_toList, hs]

theorem legible_choice {words : List String} (hshape : shapeOf kind = .choice words) {word : String}
    (hword : word ∈ words) :
    Legible style (readKind shapeOf levels kind) (.text word) (.text word) := by
  refine legible_of_quoted fun gap rest hgap => ?_
  rw [readKind, skipGap_append hgap, skipGap_cons (by decide)]
  dsimp only
  rw [hshape]
  dsimp only
  rw [if_pos rfl, readChoice, readQuoted_flatMap_escape]
  dsimp only
  rw [String.ofList_toList, if_pos hword]

theorem opens_of_isDigit (h : c.isDigit) : Opens c := by
  refine ⟨?_, ?_, ?_⟩
  · cases hgap : isGap c with
    | false => rfl
    | true =>
      simp only [isGap, Bool.or_eq_true, beq_iff_eq] at hgap
      rcases hgap with ((rfl | rfl) | rfl) | rfl
      all_goals exact absurd h (by decide)
  · rintro rfl
    exact absurd h (by decide)
  · rintro rfl
    exact absurd h (by decide)

theorem legible_natural {name : String} {bound : Nat} (hshape : shapeOf kind = .natural name bound)
    {n : Nat} (hbound : n < bound) (hword : n < wordBound) :
    Legible style (readKind shapeOf levels kind) (.natural n) (.natural n) := by
  have hwrite (depth : Nat) : (natural n).write style depth = Nat.toDigits 10 n := by
    rw [natural, write]
    exact Nat.toList_repr
  obtain ⟨c, cs, hcs⟩ := List.exists_cons_of_ne_nil (Nat.toDigits_ne_nil (b := 10) (n := n))
  have hc : c.isDigit :=
    Nat.isDigit_of_mem_toDigits (by decide) (by decide) (hcs ▸ List.mem_cons_self ..)
  refine ⟨fun depth => ⟨c, cs, (hwrite depth).trans hcs, opens_of_isDigit hc⟩, ?_⟩
  intro depth gap rest hgap hrest
  have hnumber : readPlain (c :: (cs ++ rest)) = .ok (.integer n, rest) := by
    have hread := readNumber_toDigits hword hrest
    rw [hcs, List.cons_append] at hread
    unfold readPlain
    split
    case h_8 heq =>
      obtain ⟨rfl, rfl⟩ := List.cons.inj heq
      rw [if_pos hc, hread]
    case h_9 heq => cases heq
    all_goals
      rename_i heq
      obtain ⟨rfl, rfl⟩ := List.cons.inj heq
      exact absurd hc (by decide)
  rw [hwrite, hcs, List.cons_append, readKind, skipGap_append hgap,
    skipGap_cons (opens_of_isDigit hc).gap]
  dsimp only
  rw [hshape]
  dsimp only
  rw [if_pos (.inr hc), hnumber]
  dsimp only
  rw [if_pos ⟨Int.natCast_nonneg n, Int.ofNat_lt.mpr hbound⟩]
  rfl

theorem legible_list (hstyle : style.Blank) {item : κ} (hshape : shapeOf kind = .list item)
    {vs vs' : List Json}
    (h : List.Forall₂ (Legible style (readKind shapeOf levels item)) vs vs') :
    Legible style (readKind shapeOf (levels + 1) kind) (.list vs) (.list vs') := by
  constructor
  · intro depth
    obtain ⟨gap, -, hwrite⟩ := write_list hstyle depth vs
    exact ⟨'[', _, hwrite, by decide, by decide, by decide⟩
  · intro depth gap rest hgap _
    obtain ⟨gap', hgap', hwrite⟩ := write_list hstyle depth vs
    rw [hwrite, List.cons_append, List.append_assoc, List.append_assoc, List.singleton_append,
      readKind, skipGap_append hgap, skipGap_cons (by decide)]
    dsimp only
    rw [hshape]
    dsimp only
    rw [if_pos rfl, readItems_writeItems hstyle h (depth + 1) hgap' rest true]
    rfl

/-- Reading what stands between the brackets of a record is reading the record. -/
theorem legible_of_fields (hstyle : style.Blank) {reader : Reader Json} {es : List (String × Json)}
    {v' : Json}
    (h : ∀ depth gap gap' rest, Gap gap → Gap gap' →
      reader (gap ++ '{' :: (led true (writeFields style (depth + 1) es) ++
        (gap' ++ '}' :: rest))) = .ok (v', rest)) :
    Legible style reader (.record es) v' where
  opens depth := by
    obtain ⟨gap, -, hwrite⟩ := write_record hstyle depth es
    exact ⟨'{', _, hwrite, by decide, by decide, by decide⟩
  takes depth gap rest hgap _ := by
    obtain ⟨gap', hgap', hwrite⟩ := write_record hstyle depth es
    have hread := h depth gap gap' rest hgap hgap'
    rw [hwrite, List.cons_append, List.append_assoc, List.append_assoc, List.singleton_append]
    exact hread

theorem legible_map (hstyle : style.Blank) {names : NameShape} {value : κ}
    (hshape : shapeOf kind = .map names value) {es : List (String × Json)}
    (hnodup : (es.map Prod.fst).Nodup) (hnames : ∀ e ∈ es, names.refusal? e.1 = none)
    (hvalues : ∀ e ∈ es, Legible style (readKind shapeOf levels value) e.2 e.2) :
    Legible style (readKind shapeOf (levels + 1) kind) (.record es) (.record es) := by
  refine legible_of_fields hstyle fun depth gap gap' rest hgap hgap' => ?_
  rw [readKind, skipGap_append hgap, skipGap_cons (by decide)]
  dsimp only
  rw [hshape]
  dsimp only
  rw [if_pos rfl, readEntries_writeFields hstyle hnames (fun e he => (hvalues e he).takes) []
    hnodup (depth + 1) hgap' rest true]
  rfl

theorem find?_name_eq {fs : List (Field κ)} (hnodup : (fs.map Field.name).Nodup) {f : Field κ}
    (hf : f ∈ fs) : fs.find? (·.name == f.name) = some f := by
  induction fs with
  | nil => cases hf
  | cons g fs ih =>
    rw [List.map_cons, List.nodup_cons] at hnodup
    rcases List.mem_cons.mp hf with rfl | hf
    · exact List.find?_cons_of_pos (beq_self_eq_true _)
    · have hne : ¬ (g.name == f.name) = true := fun heq =>
        hnodup.1 (beq_iff_eq.mp heq ▸ List.mem_map_of_mem hf)
      have hskip : (g :: fs).find? (·.name == f.name) = fs.find? (·.name == f.name) :=
        List.find?_cons_of_neg hne
      rw [hskip, ih hnodup.2 hf]

theorem legible_record (hstyle : style.Blank) {shape : RecordShape κ}
    (hshape : shapeOf kind = .record shape) (hnodup : (shape.fields.map Field.name).Nodup)
    {es es' : List (String × Json)}
    (h : Fills style (readKind shapeOf levels) shape.fields es es')
    (hcheck : shape.check es' = none) :
    Legible style (readKind shapeOf (levels + 1) kind) (.record es) (.record es') := by
  refine legible_of_fields hstyle fun depth gap gap' rest hgap hgap' => ?_
  obtain ⟨seen, hread, hcomplete, -⟩ := readFields_writeFields hstyle h
    (fun f hf => find?_name_eq hnodup hf) hnodup [] (fun _ _ => rfl) (depth + 1) hgap' rest true
  rw [readKind, skipGap_append hgap, skipGap_cons (by decide)]
  dsimp only
  rw [hshape]
  dsimp only
  rw [if_pos (.inl rfl), if_pos rfl, readRecord, hread]
  dsimp only
  rw [hcomplete]
  dsimp only
  rw [finishRecord, hcheck]
  rfl

/-! ### Fields of records -/

theorem Legible.takes_field {value : κ → Reader Json} {f : Field κ} {v v' : Json}
    (h : Legible style (value f.kind) v v') : Takes style (readFieldValue value f) v v' := by
  intro depth gap rest hgap hrest
  have htakes := h.takes depth gap rest hgap hrest
  obtain ⟨c, cs, hwrite, hc⟩ := h.opens depth
  rw [hwrite, List.cons_append] at htakes ⊢
  unfold readFieldValue
  rw [skipGap_append hgap, skipGap_cons hc.gap]
  split
  case h_1 => exact htakes
  case h_2 heq _ => exact absurd (List.cons.inj heq).1 hc.null
  case h_3 => exact htakes

theorem takes_null {value : κ → Reader Json} {f : Field κ} (hf : f.presence ≠ .required) :
    Takes style (readFieldValue value f) .null .null := by
  intro depth gap rest hgap hrest
  have hwrite : write style depth .null ++ rest = 'n' :: 'u' :: 'l' :: 'l' :: rest := rfl
  rw [hwrite]
  unfold readFieldValue
  rw [skipGap_append hgap, skipGap_cons (by decide)]
  cases hp : f.presence with
  | required => exact absurd hp hf
  | nullable => rfl
  | optional => rfl

end Kinds

/-! ### Documents -/

/-- A value that is legible at the allowed depth is read from the text that writes it. -/
theorem readDocument_write {κ : Type} {shapeOf : κ → Shape κ} {kind : κ} {v v' : Json}
    (h : Legible style (readKind shapeOf nestingLimit kind) v v') :
    readDocument shapeOf kind (String.ofList (v.write style 0)) = .ok v' := by
  have hends : EndsNumber [] := fun c hc => by cases hc
  have hread := h.takes_part 0 hends
  rw [List.append_nil] at hread
  rw [readDocument, String.toList_ofList, hread]
  rfl

end RepoSurvey.Json
