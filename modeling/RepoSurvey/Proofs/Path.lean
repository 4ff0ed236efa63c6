import RepoSurvey.FileSystem.Basic

/-!
Paths below a root. Joining a name to a path adds one name for the file system, one step for the
reader of the path and one piece of the relative text, however the path itself is written.
-/

namespace RepoSurvey

/-- What an entry can be called: some bytes without a solidus and without a zero, and neither of the
two names that every directory has. -/
structure FileName.IsProper (n : FileName) : Prop where
  ne_nil : n ≠ []
  solidus_not_mem : solidus ∉ n
  zero_not_mem : 0 ∉ n
  ne_dot : n ≠ [dot]
  ne_dots : n ≠ [dot, dot]

/-- A name that is a step of its own in a path: some bytes without a solidus, be there a zero or not, and
neither of the two names that every directory has. -/
structure FileName.IsStep (n : FileName) : Prop where
  ne_nil : n ≠ []
  solidus_not_mem : solidus ∉ n
  ne_dot : n ≠ [dot]
  ne_dots : n ≠ [dot, dot]

instance (n : FileName) : Decidable n.IsStep :=
  decidable_of_iff (n ≠ [] ∧ solidus ∉ n ∧ n ≠ [dot] ∧ n ≠ [dot, dot])
    ⟨fun ⟨a, b, c, d⟩ => ⟨a, b, c, d⟩, fun ⟨a, b, c, d⟩ => ⟨a, b, c, d⟩⟩

theorem FileName.IsProper.isStep {n : FileName} (h : n.IsProper) : n.IsStep :=
  ⟨h.ne_nil, h.solidus_not_mem, h.ne_dot, h.ne_dots⟩

instance (n : FileName) : Decidable n.IsProper :=
  decidable_of_iff (n ≠ [] ∧ solidus ∉ n ∧ 0 ∉ n ∧ n ≠ [dot] ∧ n ≠ [dot, dot])
    ⟨fun ⟨a, b, c, d, e⟩ => ⟨a, b, c, d, e⟩, fun ⟨a, b, c, d, e⟩ => ⟨a, b, c, d, e⟩⟩

namespace Path

theorem segments_ne_nil (p : Path) : segments p ≠ [] := by
  cases p with
  | nil => simp [segments]
  | cons b rest =>
    unfold segments
    split
    · simp
    · split <;> simp

theorem segments_append_solidus (p q : Path) :
    segments (p ++ solidus :: q) = segments p ++ segments q := by
  induction p with
  | nil => simp [segments]
  | cons b p ih =>
    rw [List.cons_append, segments, segments, ih]
    split
    · simp
    · cases hp : segments p with
      | nil => exact absurd hp (segments_ne_nil p)
      | cons s more => simp

theorem segments_of_solidus_not_mem {n : FileName} (h : solidus ∉ n) : segments n = [n] := by
  induction n with
  | nil => rfl
  | cons b n ih =>
    have hb : b ≠ solidus := fun he => h (he ▸ List.mem_cons_self)
    rw [segments, if_neg hb, ih fun hm => h (List.mem_cons_of_mem b hm)]

theorem not_isAbsolute_of_solidus_not_mem {n : FileName} (h : solidus ∉ n) :
    isAbsolute n = false := by
  cases n with
  | nil => rfl
  | cons b n =>
    have hb : b ≠ solidus := fun he => h (he ▸ List.mem_cons_self)
    simpa [isAbsolute] using hb

/-- The three ways in which a name is joined to a path. -/
theorem join_cases (p : Path) {n : FileName} (h : solidus ∉ n) :
    (p = [] ∧ p.join n = n) ∨ (∃ q, p = q ++ [solidus] ∧ p.join n = q ++ solidus :: n) ∨
      (p ≠ [] ∧ p.join n = p ++ solidus :: n) := by
  have hn := not_isAbsolute_of_solidus_not_mem h
  unfold join
  rw [if_neg (by simp [hn])]
  by_cases hp : p = []
  · exact Or.inl ⟨hp, by simp [hp]⟩
  · by_cases hlast : p.getLast? = some solidus
    · obtain ⟨q, rfl⟩ := List.getLast?_eq_some_iff.mp hlast
      exact Or.inr (Or.inl ⟨q, rfl, by simp⟩)
    · exact Or.inr (Or.inr ⟨hp, by simp [hp, hlast]⟩)

theorem join_ne_nil (p : Path) {n : FileName} (h : n.IsProper) : p.join n ≠ [] := by
  rcases join_cases p h.solidus_not_mem with ⟨-, he⟩ | ⟨q, -, he⟩ | ⟨-, he⟩
  · rw [he]
    exact h.ne_nil
  all_goals simp [he]

theorem contains_zero_join (p : Path) {n : FileName} (h : n.IsProper) :
    (p.join n).contains 0 = p.contains 0 := by
  have hz : (0 : UInt8) ≠ solidus := by decide
  have hn : List.elem 0 n = false := by simpa using h.zero_not_mem
  rcases join_cases p h.solidus_not_mem with ⟨rfl, he⟩ | ⟨q, rfl, he⟩ | ⟨-, he⟩
  all_goals simp [he, h.zero_not_mem, hz]

theorem isAbsolute_join (p : Path) {n : FileName} (h : solidus ∉ n) :
    (p.join n).isAbsolute = p.isAbsolute := by
  rcases join_cases p h with ⟨rfl, he⟩ | ⟨q, rfl, he⟩ | ⟨hp, he⟩
  · rw [he, not_isAbsolute_of_solidus_not_mem h]
    rfl
  · rw [he]
    cases q <;> rfl
  · rw [he]
    cases p with
    | nil => exact absurd rfl hp
    | cons b p => rfl

/-- The names that a path spells out, those of no bytes left away. -/
def spelled (p : Path) : List FileName := p.segments.filter (· != [])

/-- The names of a path are those it spells out, with a dot behind a solidus at the end. -/
theorem names_eq (p : Path) : p.names = p.spelled ∨ p.names = p.spelled ++ [[dot]] := by
  unfold names spelled
  dsimp only
  split
  · exact Or.inr rfl
  · exact Or.inl rfl

theorem getLast?_join (p : Path) {n : FileName} (h : n.IsProper) :
    (p.join n).getLast? = n.getLast? := by
  have hlast : n.getLast? = some (n.getLast h.ne_nil) := List.getLast?_eq_some_getLast h.ne_nil
  rcases join_cases p h.solidus_not_mem with ⟨rfl, he⟩ | ⟨q, rfl, he⟩ | ⟨-, he⟩
  all_goals simp [he, List.getLast?_cons, hlast]

/-- A joined path spells out one name more. -/
theorem spelled_join (p : Path) {n : FileName} (h : n.IsProper) :
    (p.join n).spelled = p.spelled ++ [n] := by
  have hn := segments_of_solidus_not_mem h.solidus_not_mem
  rcases join_cases p h.solidus_not_mem with ⟨rfl, he⟩ | ⟨q, rfl, he⟩ | ⟨-, he⟩
  · simp [he, spelled, hn, h.ne_nil, segments]
  · simp [he, spelled, segments_append_solidus, hn, h.ne_nil, segments]
  · simp [he, spelled, segments_append_solidus, hn, h.ne_nil]

/-- The names of a joined path are those that it spells out. -/
theorem names_join (p : Path) {n : FileName} (h : n.IsProper) :
    (p.join n).names = p.spelled ++ [n] := by
  have hlast : (p.join n).getLast? ≠ some solidus := by
    rw [getLast?_join p h]
    exact fun he => h.solidus_not_mem (List.mem_of_getLast? he)
  rw [← spelled_join p h]
  unfold names spelled
  exact if_neg fun hc => hlast hc.1

theorem stepOf?_of_isStep {n : FileName} (h : n.IsStep) : stepOf? n = some (.name n) := by
  simp [stepOf?, h.ne_nil, h.ne_dot, h.ne_dots]

/-- A joined path has one step more. -/
theorem steps_join (p : Path) {n : FileName} (h : n.IsStep) :
    (p.join n).steps = p.steps ++ [.name n] := by
  have hn := segments_of_solidus_not_mem h.solidus_not_mem
  have hstep := stepOf?_of_isStep h
  have habs := isAbsolute_join p h.solidus_not_mem
  have hhead (q r : Path) : (segments q ++ r :: []).head? = (segments q).head? := by
    cases hq : segments q with
    | nil => exact absurd hq (segments_ne_nil q)
    | cons s more => rfl
  -- A relative path may begin with a dot, which is a step of its own only at the head.
  unfold steps
  rw [habs]
  rcases join_cases p h.solidus_not_mem with ⟨rfl, he⟩ | ⟨q, rfl, he⟩ | ⟨-, he⟩
  · have hempty : stepOf? [] = none := by simp [stepOf?]
    simp [he, hn, hstep, segments, isAbsolute, h.ne_dot, hempty]
  · have hempty : stepOf? [] = none := by simp [stepOf?]
    simp [he, segments_append_solidus, hn, hstep, segments, hhead, hempty]
  · simp [he, segments_append_solidus, hn, hstep, hhead]

/-- The path of an entry that some names lead to, each in the directory of the one before. -/
def below (p : Path) (way : List FileName) : Path := way.foldl join p

@[simp]
theorem below_nil (p : Path) : p.below [] = p := rfl

@[simp]
theorem below_cons (p : Path) (n : FileName) (way : List FileName) :
    p.below (n :: way) = (p.join n).below way := rfl

theorem steps_below (p : Path) {way : List FileName} (h : ∀ n ∈ way, n.IsStep) :
    (p.below way).steps = p.steps ++ way.map .name := by
  induction way generalizing p with
  | nil => simp
  | cons n way ih =>
    rw [below_cons, ih _ fun m hm => h m (List.mem_cons_of_mem n hm),
      steps_join p (h n List.mem_cons_self)]
    simp

theorem stepsBelow_append (root steps : List PathStep) :
    stepsBelow root (root ++ steps) = some steps := by
  induction root with
  | nil => rfl
  | cons r root ih => simp [stepsBelow, ih]

/-- What is shown of the way to an entry: the names on it, with a solidus between each two. -/
def wayText (way : List FileName) : String := "/".intercalate (way.map Utf8.decodeLossy)

/-- What lies below a root is found behind the steps of the root, however it is written. -/
theorem stepsBelow_below (root : Path) {way : List FileName} (h : ∀ n ∈ way, n.IsStep) :
    stepsBelow root.steps (root.below way).steps = some (way.map .name) := by
  rw [steps_below root h, stepsBelow_append]

theorem relative_of_stepsBelow {root p : Path} {way : List FileName}
    (h : stepsBelow root.steps p.steps = some (way.map .name)) : root.relative p = wayText way := by
  simp [relative, wayText, h, Function.comp_def, PathStep.written]

/-- The relative text of an entry is that of the way to it, however the root is written. -/
theorem relative_below (root : Path) {way : List FileName} (h : ∀ n ∈ way, n.IsProper) :
    root.relative (root.below way) = wayText way :=
  relative_of_stepsBelow (stepsBelow_below root fun n hn => (h n hn).isStep)

end Path

end RepoSurvey
