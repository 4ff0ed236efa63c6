import RepoSurvey.Proofs.ScriptStatements

/-!
The calls that a script hides from the search. They stand on a line between an `import` that has not found
its clause and the next one that has a clause. A script without them is reported in full, and no other is.
-/

namespace RepoSurvey.JavaScript

open Pattern

namespace Token

/-- After these the search is on its way to a clause. -/
def Opens : Token → Prop
  | sign _ _ | named _ _ => False
  | bare _ => True
  | call v _ => v.EndsInImport

/-- The search does not find a clause in these and does not give up either. -/
def StaysOpen : Token → Prop
  | sign c _ => c ≠ '\n'
  | named _ _ => False
  | bare _ | call _ _ => True

def IsCall : Token → Prop
  | call _ _ => True
  | sign _ _ | bare _ | named _ _ => False

end Token

/-- What stands before the next import with a clause on the same line. -/
def StandsBefore (mid ts : List Token) : Prop :=
  ∃ c m rest, ts = mid ++ .named c m :: rest ∧ ∀ t ∈ mid, t.StaysOpen

/-- A call stands on the way to a clause, or its own name has begun the way. -/
def HidesCall (ts : List Token) : Prop :=
  ∃ before opener rest mid, ts = before ++ opener :: rest ∧ opener.Opens ∧ StandsBefore mid rest ∧
    ∃ t ∈ opener :: mid, t.IsCall

/-! ### One token after the other -/

variable {mid ts : List Token} {t : Token}

theorem standsBefore_cons : StandsBefore mid (t :: ts) ↔
    (mid = [] ∧ ∃ c m, t = .named c m) ∨
      ∃ mid', mid = t :: mid' ∧ t.StaysOpen ∧ StandsBefore mid' ts := by
  constructor
  · rintro ⟨c, m, rest, heq, hopen⟩
    cases mid with
    | nil => exact .inl ⟨rfl, c, m, (List.cons.inj heq).1⟩
    | cons d mid =>
      obtain ⟨rfl, rfl⟩ := List.cons.inj heq
      rw [List.forall_mem_cons] at hopen
      exact .inr ⟨mid, rfl, hopen.1, c, m, rest, rfl, hopen.2⟩
  · rintro (⟨rfl, c, m, rfl⟩ | ⟨mid, rfl, ht, c, m, rest, rfl, hopen⟩)
    · exact ⟨c, m, ts, rfl, by simp⟩
    · exact ⟨c, m, rest, rfl, List.forall_mem_cons.mpr ⟨ht, hopen⟩⟩

theorem not_standsBefore_nil : ¬ StandsBefore mid [] := by
  rintro ⟨c, m, rest, heq, -⟩
  cases mid <;> cases heq

theorem exists_standsBefore_iff : (∃ mid, StandsBefore mid ts) ↔ (nextNamed? ts).isSome := by
  induction ts with
  | nil => exact iff_of_false (fun ⟨_, h⟩ => not_standsBefore_nil h) (by simp [nextNamed?])
  | cons t ts ih =>
    have hcons : (∃ mid, StandsBefore mid (t :: ts)) ↔
        (∃ c m, t = .named c m) ∨ t.StaysOpen ∧ (nextNamed? ts).isSome := by
      simp only [standsBefore_cons, ← ih]
      grind
    rw [hcons]
    cases t with
    | sign c h => by_cases hc : c = '\n' <;> simp [Token.StaysOpen, nextNamed?, hc]
    | bare m | call v m => simp [Token.StaysOpen, nextNamed?]
    | named c m => simp [nextNamed?]

/-- A call stands before the next import with a clause on the same line. -/
def CallAhead (ts : List Token) : Prop := ∃ mid, StandsBefore mid ts ∧ ∃ t ∈ mid, t.IsCall

theorem not_callAhead_nil : ¬ CallAhead [] := fun ⟨_, h, _⟩ => not_standsBefore_nil h

theorem callAhead_cons : CallAhead (t :: ts) ↔
    t.StaysOpen ∧ (t.IsCall ∧ (nextNamed? ts).isSome ∨ CallAhead ts) := by
  rw [← exists_standsBefore_iff]
  simp only [CallAhead, standsBefore_cons]
  constructor
  · rintro ⟨_, ⟨rfl, -⟩ | ⟨mid, rfl, ht, hmid⟩, u, hu, hcall⟩
    · cases hu
    · rcases List.mem_cons.mp hu with rfl | hu
      · exact ⟨ht, .inl ⟨hcall, mid, hmid⟩⟩
      · exact ⟨ht, .inr ⟨mid, hmid, u, hu, hcall⟩⟩
  · rintro ⟨ht, ⟨hcall, mid, hmid⟩ | ⟨mid, hmid, u, hu, hcall⟩⟩
    · exact ⟨t :: mid, .inr ⟨mid, rfl, ht, hmid⟩, t, List.mem_cons_self, hcall⟩
    · exact ⟨t :: mid, .inr ⟨mid, rfl, ht, hmid⟩, u, List.mem_cons_of_mem t hu, hcall⟩

theorem not_hidesCall_nil : ¬ HidesCall [] := by
  rintro ⟨before, opener, rest, mid, heq, -⟩
  cases before <;> cases heq

theorem hidesCall_cons : HidesCall (t :: ts) ↔
    t.Opens ∧ (t.IsCall ∧ (nextNamed? ts).isSome ∨ CallAhead ts) ∨ HidesCall ts := by
  rw [← exists_standsBefore_iff]
  constructor
  · rintro ⟨before, opener, rest, mid, heq, hopener, hmid, u, hu, hcall⟩
    cases before with
    | nil =>
      obtain ⟨rfl, rfl⟩ := List.cons.inj heq
      rcases List.mem_cons.mp hu with rfl | hu
      · exact .inl ⟨hopener, .inl ⟨hcall, mid, hmid⟩⟩
      · exact .inl ⟨hopener, .inr ⟨mid, hmid, u, hu, hcall⟩⟩
    | cons d before =>
      exact .inr ⟨before, opener, rest, mid, (List.cons.inj heq).2, hopener, hmid, u, hu, hcall⟩
  · rintro (⟨ht, ⟨hcall, mid, hmid⟩ | ⟨mid, hmid, u, hu, hcall⟩⟩ |
      ⟨before, opener, rest, mid, rfl, h⟩)
    · exact ⟨[], t, ts, mid, rfl, ht, hmid, t, List.mem_cons_self, hcall⟩
    · exact ⟨[], t, ts, mid, rfl, ht, hmid, u, List.mem_cons_of_mem t hu, hcall⟩
    · exact ⟨t :: before, opener, rest, mid, rfl, h⟩

/-! ### What is reported in full -/

/-- Nothing but modules is reported, and in their order. -/
theorem reported_sublist (opened : Bool) (ts : List Token) :
    (reported opened ts).Sublist (modules ts) := by
  induction ts generalizing opened with
  | nil => exact .slnil
  | cons t ts ih =>
    cases t with
    | sign c h => exact ih _
    | bare m => exact ih _
    | named c m => exact (ih _).cons_cons m.letters
    | call v m =>
      rw [reported, modules]
      split
      · exact (ih _).cons m.letters
      · exact (ih _).cons_cons m.letters

/-- Nothing is missing of a script unless a call is hidden, by what was open before it or by its own. -/
theorem reported_eq_modules_iff (opened : Bool) (ts : List Token) :
    reported opened ts = modules ts ↔ ¬ (opened = true ∧ CallAhead ts ∨ HidesCall ts) := by
  induction ts generalizing opened with
  | nil => simp [reported, modules, not_callAhead_nil, not_hidesCall_nil]
  | cons t ts ih =>
    rw [callAhead_cons, hidesCall_cons]
    cases t with
    | sign c h =>
      rw [reported, modules, ih]
      simp [Token.StaysOpen, Token.IsCall, Token.Opens, and_assoc]
    | bare m =>
      rw [reported, modules, ih]
      simp only [Token.StaysOpen, Token.IsCall, Token.Opens]
      grind
    | named c m =>
      rw [reported, modules, List.cons_inj_right, ih]
      simp [Token.StaysOpen, Token.Opens]
    | call v m =>
      rw [reported, modules]
      simp only [Token.StaysOpen, Token.IsCall, Token.Opens]
      split
      · next hdrop =>
        -- Whatever follows, too few modules are left.
        have hne : reported (opened || decide v.EndsInImport) ts ≠ m.letters :: modules ts := by
          intro heq
          have hlength := (reported_sublist (opened || decide v.EndsInImport) ts).length_le
          rw [heq, List.length_cons] at hlength
          omega
        simp only [Bool.and_eq_true, Bool.or_eq_true, decide_eq_true_eq] at hdrop
        grind
      · next hkeep =>
        rw [List.cons_inj_right, ih]
        simp only [Bool.and_eq_true, Bool.or_eq_true, decide_eq_true_eq] at hkeep ⊢
        grind

theorem ne_nil_of_mem_modules {m : List Char} (h : m ∈ modules ts) : m ≠ [] := by
  induction ts with
  | nil => cases h
  | cons t ts ih =>
    cases t with
    | sign c hc => exact ih h
    | bare n => exact ih h
    | named c n | call c n =>
      rcases List.mem_cons.mp h with rfl | h
      · exact n.ne_nil
      · exact ih h

theorem imports_scriptText (ts : List Token) :
    imports (String.ofList (scriptText ts)) = (reported false ts).map String.ofList := by
  have h := reports_scriptText ts
  rw [← String.toList_ofList (l := scriptText ts)] at h
  exact imports_eq_of_reports h fun m hm =>
    ne_nil_of_mem_modules ((reported_sublist false ts).subset hm)

/-- The imports of a script are what is reported of it. These are all its modules, in the order of their
places, exactly if it hides no call. -/
theorem imports_eq_modules_iff (ts : List Token) :
    imports (String.ofList (scriptText ts)) = (reported false ts).map String.ofList ∧
      (imports (String.ofList (scriptText ts)) = (modules ts).map String.ofList ↔
        ¬ HidesCall ts) := by
  have hreported := imports_scriptText ts
  have hinjective : Function.Injective String.ofList :=
    fun _ _ => String.ofList_injective
  refine ⟨hreported, ?_⟩
  rw [hreported, hinjective.list_map.eq_iff, reported_eq_modules_iff]
  simp

/-- Between an import for its effects and one with a clause stands a call. -/
def crowdedLine : List Token :=
  [.bare ⟨['a'], by decide, by decide +kernel⟩, .sign ';' (by decide), .sign ' ' (by decide),
    .call ⟨['x'], by decide, by decide +kernel⟩ ⟨['b'], by decide, by decide +kernel⟩,
    .sign ';' (by decide), .sign ' ' (by decide),
    .named ⟨['c'], by decide, by decide +kernel⟩ ⟨['d'], by decide, by decide +kernel⟩]

theorem imports_crowdedLine :
    scriptText crowdedLine = "import \"a\"; const x = require(\"b\"); import c from \"d\"".toList ∧
      modules crowdedLine = [['b'], ['d']] ∧
      imports (String.ofList (scriptText crowdedLine)) = ["d"] ∧
      imports (String.ofList (scriptText crowdedLine)) ≠ (modules crowdedLine).map String.ofList := by
  have himports : imports (String.ofList (scriptText crowdedLine)) = ["d"] :=
    imports_scriptText crowdedLine
  refine ⟨by decide +kernel, rfl, himports, ?_⟩
  rw [himports]
  decide +kernel

end RepoSurvey.JavaScript
