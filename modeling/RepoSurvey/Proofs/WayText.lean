import Mathlib
import RepoSurvey.Proofs.Path
import RepoSurvey.Proofs.TextBytes

/-!
The text of a way and the names that it is made of. No solidus is shown of a name, for a name holds none.
So the text of a way falls at its solidi into what is shown of the names, and where the names are texts
themselves, they are read back from it. The relative text of what lies below a root is the text of the way to it,
so it does not depend on how the root is written.
-/

namespace RepoSurvey

/-- A name whose bytes are those of a text. -/
def FileName.IsText (n : FileName) : Prop := ∃ s : String, n = Utf8.encode s

namespace Path

/-- The components of a path that is a text: the pieces between its solidi, where there is anything. -/
def components (text : String) : List String :=
  ((text.toList.splitOn '/').filter (· ≠ [])).map String.ofList

/-- No component of the text of a path is among some names. -/
def ClearOf (names : List String) (text : String) : Prop := ∀ c ∈ components text, c ∉ names

theorem clearOf_empty (names : List String) : ClearOf names "" := by
  intro c hc
  cases hc

/-- The text of a way falls into what is shown of its names. -/
theorem components_wayText {way : List FileName} (hne : way ≠ []) (h : ∀ n ∈ way, n.IsStep) :
    components (wayText way) = way.map Utf8.decodeLossy := by
  have hnames : ∀ l ∈ (way.map Utf8.decodeLossy).map String.toList, '/' ∉ l := by
    intro l hl hmem
    obtain ⟨s, hs, rfl⟩ := List.mem_map.mp hl
    obtain ⟨n, hn, rfl⟩ := List.mem_map.mp hs
    exact (h n hn).solidus_not_mem (Utf8.solidus_mem_of_mem_decodeLossy hmem)
  have hsplit : (wayText way).toList.splitOn '/' = (way.map Utf8.decodeLossy).map String.toList := by
    rw [wayText, String.toList_intercalate]
    apply List.splitOn_intercalate '/' hnames
    simpa using hne
  -- What is shown of a name is never empty, so no piece is dropped.
  have hpieces : ∀ l ∈ (way.map Utf8.decodeLossy).map String.toList, decide (l ≠ []) = true := by
    intro l hl
    obtain ⟨s, hs, rfl⟩ := List.mem_map.mp hl
    obtain ⟨n, hn, rfl⟩ := List.mem_map.mp hs
    have hshown : Utf8.decodeLossy n ≠ "" := Utf8.decodeLossy_ne_empty (h n hn).ne_nil
    simpa using hshown
  rw [components, hsplit, List.filter_eq_self.mpr hpieces, List.map_map]
  simp

/-- Names that are texts are told apart by what is shown of them. -/
theorem map_encode_map_decodeLossy {way : List FileName} (h : ∀ n ∈ way, n.IsText) :
    (way.map Utf8.decodeLossy).map Utf8.encode = way := by
  have hback : ∀ n ∈ way, (Utf8.encode ∘ Utf8.decodeLossy) n = id n := by
    intro n hn
    obtain ⟨s, rfl⟩ := h n hn
    exact congrArg Utf8.encode (Utf8.decodeLossy_encode s)
  rw [List.map_map, List.map_congr_left hback, List.map_id]

/-- The text of a way tells its names, where they are texts. -/
theorem wayText_inj {way way' : List FileName} (hne : way ≠ []) (hne' : way' ≠ [])
    (h : ∀ n ∈ way, n.IsStep ∧ n.IsText) (h' : ∀ n ∈ way', n.IsStep ∧ n.IsText) :
    wayText way = wayText way' ↔ way = way' := by
  refine ⟨fun heq => ?_, congrArg wayText⟩
  have hshown : way.map Utf8.decodeLossy = way'.map Utf8.decodeLossy := by
    rw [← components_wayText hne fun n hn => (h n hn).1,
      ← components_wayText hne' fun n hn => (h' n hn).1, heq]
  calc way = (way.map Utf8.decodeLossy).map Utf8.encode :=
        (map_encode_map_decodeLossy fun n hn => (h n hn).2).symm
    _ = (way'.map Utf8.decodeLossy).map Utf8.encode := congrArg (List.map Utf8.encode) hshown
    _ = way' := map_encode_map_decodeLossy fun n hn => (h' n hn).2

/-- What lies below a root is always found behind the steps of the root, and its relative text is made of what
is shown of the names on the way, with a solidus between each two. Where the names are texts, the relative texts
of two entries, be it below one root or below two, are the same exactly if the ways to them are. -/
theorem relative_tells_way {root : Path} {way : List FileName} (hne : way ≠ [])
    (h : ∀ n ∈ way, n.IsStep) :
    stepsBelow root.steps (root.below way).steps = some (way.map .name) ∧
    root.relative (root.below way) = "/".intercalate (way.map Utf8.decodeLossy) ∧
    ∀ (root' : Path) (way' : List FileName), way' ≠ [] → (∀ n ∈ way', n.IsStep) →
      (∀ n ∈ way ++ way', n.IsText) →
      (root.relative (root.below way) = root'.relative (root'.below way') ↔ way = way') := by
  have hbelow := stepsBelow_below root h
  refine ⟨hbelow, relative_of_stepsBelow hbelow, ?_⟩
  intro root' way' hne' h' htext
  rw [relative_of_stepsBelow hbelow, relative_of_stepsBelow (stepsBelow_below root' h')]
  exact wayText_inj hne hne'
    (fun n hn => ⟨h n hn, htext n (List.mem_append_left way' hn)⟩)
    fun n hn => ⟨h' n hn, htext n (List.mem_append_right way hn)⟩

/-- A way of two names, of which one holds a zero. -/
def zeroWay : List FileName := [Utf8.encode "é", Utf8.encode "a\x00"]

/-- The one root is written with a dot before it, and with needless solidi and a dot behind it. -/
theorem relative_tells_way_dottedRoot :
    zeroWay ≠ [] ∧ (∀ n ∈ zeroWay, n.IsStep) ∧ (∀ n ∈ zeroWay, n.IsText) ∧
      relative (.ofString ".//src/./") (below (.ofString ".//src/./") zeroWay) = "é/a\x00" ∧
      (relative (.ofString ".//src/./") (below (.ofString ".//src/./") zeroWay) =
        relative (.ofString "/src") (below (.ofString "/src") zeroWay.tail) ↔
          zeroWay = zeroWay.tail) := by
  have hne : zeroWay ≠ [] := by decide
  have h : ∀ n ∈ zeroWay, n.IsStep := by decide +kernel
  have htext : ∀ n ∈ zeroWay, n.IsText := by
    intro n hn
    rcases List.mem_pair.mp hn with rfl | rfl
    · exact ⟨_, rfl⟩
    · exact ⟨_, rfl⟩
  have hshown : "/".intercalate (zeroWay.map Utf8.decodeLossy) = "é/a\x00" := by cbv
  obtain ⟨-, heq, htells⟩ := @relative_tells_way (.ofString ".//src/./") _ hne h
  refine ⟨hne, h, htext, heq.trans hshown, htells _ _ (by decide) ?_ fun n hn => ?_⟩
  · exact fun n hn => h n (List.mem_of_mem_tail hn)
  · exact (List.mem_append.mp hn).elim (htext n) fun htail => htext n (List.mem_of_mem_tail htail)

end Path

end RepoSurvey
