import Mathlib
import RepoSurvey.Survey

/-!
Entering reports into a result. The entries of a ledger are those that were made, in order, exactly
if no name is used twice; the summary counts every report, whatever its name.
-/

namespace RepoSurvey

namespace Ledger

variable {α : Type} {entries : List (String × α)}

theorem ofList_append (entries : List (String × α)) (name : String) (value : α) :
    ofList (entries ++ [(name, value)]) = (ofList entries).insert name value := by
  simp [ofList]

/-- The names of a ledger are those under which something was entered, each once. -/
theorem keys_ofList (entries : List (String × α)) :
    (ofList entries).keys.Nodup ∧ ∀ name, name ∈ (ofList entries).keys ↔ name ∈ entries.map Prod.fst := by
  induction entries using List.reverseRecOn with
  | nil => simp [ofList, keys, empty]
  | append_singleton entries e ih =>
    obtain ⟨name, value⟩ := e
    obtain ⟨hnodup, hmem⟩ := ih
    rw [ofList_append, keys_insert]
    by_cases hname : name ∈ (ofList entries).keys
    · rw [if_pos hname]
      refine ⟨hnodup, fun other => ?_⟩
      rw [hmem, List.map_append, List.mem_append]
      constructor
      · exact Or.inl
      · rintro (h | h)
        · exact h
        · obtain rfl : other = name := by simpa using h
          exact (hmem _).mp hname
    · rw [if_neg hname]
      refine ⟨?_, fun other => ?_⟩
      · exact hnodup.append (List.nodup_singleton name) (by simpa using hname)
      · rw [List.mem_append, hmem, List.map_append, List.mem_append]
        simp

/-- If no name is used twice, a ledger has the entries that were made, in order. -/
theorem entries_ofList (h : (entries.map Prod.fst).Nodup) : (ofList entries).entries = entries := by
  induction entries using List.reverseRecOn with
  | nil => rfl
  | append_singleton entries e ih =>
    obtain ⟨name, value⟩ := e
    rw [List.map_append, List.nodup_append'] at h
    obtain ⟨hnodup, -, hdisjoint⟩ := h
    have hname : name ∉ (ofList entries).keys := by
      rw [(keys_ofList entries).2]
      intro hmem
      exact hdisjoint hmem (by simp)
    rw [ofList_append, insert, if_neg hname]
    exact congrArg (· ++ [(name, value)]) (ih hnodup)

/-- There are as many names as entries were made only if no name is used twice. -/
theorem nodup_of_length_keys (h : (ofList entries).keys.length = entries.length) :
    (entries.map Prod.fst).Nodup := by
  obtain ⟨hnodup, hmem⟩ := keys_ofList entries
  have hsub : (ofList entries).keys.Subperm (entries.map Prod.fst) :=
    List.subperm_of_subset hnodup fun name hname => (hmem name).mp hname
  have hperm := hsub.perm_of_length_le (by simp [h])
  exact hperm.nodup_iff.mp hnodup

end Ledger

namespace LanguageCounts

variable {counts : LanguageCounts} {l : Language} {n : Nat}

theorem rank_injective : Function.Injective Language.rank := by
  intro a b h
  cases a <;> cases b <;> first | rfl | exact absurd h (by decide)

/-- Counts stand in the order of their languages. -/
def Ordered (counts : LanguageCounts) : Prop := counts.Pairwise fun a b => a.1.rank < b.1.rank

/-- Counts that are in order and positive, and say how often each language occurs in a list. -/
structure Tally (counts : LanguageCounts) (languages : List Language) : Prop where
  ordered : counts.Ordered
  mem_iff : ∀ l n, (l, n) ∈ counts ↔ 0 < n ∧ languages.count l = n

/-- What is counted after one more file of a language. -/
theorem mem_add_iff {k : Language} (h : counts.Ordered) :
    (k, n) ∈ counts.add l ↔
      if k = l then (n = 1 ∧ ∀ m, (l, m) ∉ counts) ∨ ∃ m, (l, m) ∈ counts ∧ n = m + 1
      else (k, n) ∈ counts := by
  induction counts with
  | nil =>
    by_cases hk : k = l <;> simp [add, hk]
  | cons c rest ih =>
    obtain ⟨l', m'⟩ := c
    obtain ⟨hhead, hrest⟩ := List.pairwise_cons.mp h
    have hbelow : l.rank ≤ l'.rank → ∀ m, (l, m) ∉ rest := by
      intro hle m hm
      have := hhead (l, m) hm
      dsimp only at this
      omega
    rw [add]
    by_cases hl : l = l'
    · subst hl
      rw [if_pos rfl]
      have hnot := hbelow (Nat.le_refl _)
      by_cases hk : k = l
      · subst hk
        simp [hnot]
      · simp [hk]
    · rw [if_neg hl]
      by_cases hlt : l.rank < l'.rank
      · rw [if_pos hlt]
        have hnot := hbelow (Nat.le_of_lt hlt)
        by_cases hk : k = l
        · subst hk
          simp [hnot, hl]
        · simp [hk]
      · rw [if_neg hlt, List.mem_cons, ih hrest]
        by_cases hk : k = l
        · subst hk
          simp [hl]
        · simp [hk]

theorem ordered_add (h : counts.Ordered) : (counts.add l).Ordered := by
  induction counts with
  | nil => simp [add, Ordered]
  | cons c rest ih =>
    obtain ⟨l', m'⟩ := c
    obtain ⟨hhead, hrest⟩ := List.pairwise_cons.mp h
    rw [add]
    by_cases hl : l = l'
    · rw [if_pos hl]
      exact List.pairwise_cons.mpr ⟨hhead, hrest⟩
    · rw [if_neg hl]
      by_cases hlt : l.rank < l'.rank
      · rw [if_pos hlt]
        refine List.pairwise_cons.mpr ⟨?_, h⟩
        intro c hc
        rcases List.mem_cons.mp hc with rfl | hc
        · exact hlt
        · exact Nat.lt_trans hlt (hhead c hc)
      · rw [if_neg hlt]
        refine List.pairwise_cons.mpr ⟨?_, ih hrest⟩
        rintro ⟨k, n⟩ hkn
        rw [mem_add_iff hrest] at hkn
        by_cases hk : k = l
        · have hne : l.rank ≠ l'.rank := fun heq => hl (rank_injective heq)
          dsimp only
          rw [hk]
          omega
        · rw [if_neg hk] at hkn
          exact hhead (k, n) hkn

theorem tally_nil : Tally [] [] := by
  refine ⟨List.Pairwise.nil, fun l n => ?_⟩
  simp only [List.not_mem_nil, List.count_nil, false_iff]
  omega

/-- Counting one more file keeps the tally. -/
theorem Tally.add {languages : List Language} (h : Tally counts languages) (l : Language) :
    Tally (counts.add l) (languages ++ [l]) := by
  refine ⟨ordered_add h.ordered, fun k n => ?_⟩
  rw [mem_add_iff h.ordered, List.count_append]
  by_cases hk : k = l
  · subst hk
    rw [if_pos rfl, List.count_singleton_self]
    simp only [h.mem_iff]
    constructor
    · rintro (⟨rfl, hnone⟩ | ⟨m, ⟨hpos, hm⟩, rfl⟩)
      · have hzero : ¬ 0 < languages.count k := fun hpos => hnone _ ⟨hpos, rfl⟩
        omega
      · omega
    · rintro ⟨-, rfl⟩
      by_cases hpos : 0 < languages.count k
      · exact Or.inr ⟨_, ⟨hpos, rfl⟩, rfl⟩
      · refine Or.inl ⟨by omega, ?_⟩
        rintro m ⟨hm, rfl⟩
        exact hpos hm
  · rw [if_neg hk, h.mem_iff, List.count_singleton, beq_eq_false_iff_ne.mpr (Ne.symm hk)]
    simp

end LanguageCounts

end RepoSurvey
