import Mathlib
import RepoSurvey.Pool

/-!
What a pool of workers computes. Whatever the order of its steps, a pool that has finished holds the
result of every item under its index, and the workers that take turns do finish. So mapping items on a
pool gives the same results as mapping them one after the other.
-/

namespace RepoSurvey

variable {α β : Type}

namespace Worker

/-- The index of the item that a worker holds. -/
def index? : Worker β → Option Nat
  | idle => none
  | computing i | computed i _ _ | counted i _ _ => some i

/-- How many steps a worker needs until it holds nothing. -/
def remaining : Worker β → Nat
  | idle => 0
  | computing _ => 3
  | computed .. => 2
  | counted .. => 1

/-- What a worker holds comes from the item of its index. -/
def Honest (f : α → β × String) (items : List α) : Worker β → Prop
  | idle => True
  | computing i => i < items.length
  | computed i result message => ∃ item, items[i]? = some item ∧ f item = (result, message)
  | counted i result _ => ∃ item, items[i]? = some item ∧ (f item).1 = result

end Worker

/-- Another state of one worker moves at most one thing into or out of what is picked from all. -/
theorem filterMap_set_perm {γ : Type} (pick : Worker β → Option γ) {ws : List (Worker β)} {k : Nat}
    {w : Worker β} (w' : Worker β) (h : ws[k]? = some w) :
    ((pick w).toList ++ (ws.set k w').filterMap pick).Perm
      ((pick w').toList ++ ws.filterMap pick) := by
  have hfilter (u : Worker β) (us : List (Worker β)) :
      (u :: us).filterMap pick = (pick u).toList ++ us.filterMap pick := by
    cases hu : pick u <;> simp [hu]
  induction ws generalizing k with
  | nil => simp at h
  | cons u us ih =>
    cases k with
    | zero =>
      obtain rfl : u = w := by simpa using h
      rw [List.set_cons_zero, hfilter, hfilter]
      exact List.perm_append_comm_assoc ..
    | succ k =>
      rw [List.set_cons_succ, hfilter, hfilter]
      refine (List.perm_append_comm_assoc ..).trans ?_
      refine (List.Perm.append_left _ (ih (by simpa using h))).trans ?_
      exact List.perm_append_comm_assoc ..

namespace Pool

/-- Everything that a step can do. -/
theorem step_cases (f : α → β × String) (items : List α) (p : Pool β) (worker choice : Nat) :
    p.step f items worker choice = p ∨
    (∃ i, p.workers[worker]? = some .idle ∧ i ∈ p.waiting ∧ p.step f items worker choice =
      { p with waiting := p.waiting.erase i, workers := p.workers.set worker (.computing i) }) ∨
    (∃ i item, p.workers[worker]? = some (.computing i) ∧ items[i]? = some item ∧
      p.step f items worker choice =
        { p with workers := p.workers.set worker (.computed i (f item).1 (f item).2) }) ∨
    (∃ i result message, p.workers[worker]? = some (.computed i result message) ∧
      p.step f items worker choice =
        { p with
          workers := p.workers.set worker (.counted i result (p.counter.tick message).1)
          counter := (p.counter.tick message).2 }) ∨
    (∃ i result update, p.workers[worker]? = some (.counted i result update) ∧
      p.step f items worker choice =
        { p with
          workers := p.workers.set worker .idle
          delivered := p.delivered ++ [update]
          results := (i, result) :: p.results }) := by
  unfold step
  split
  case h_1 => exact Or.inl rfl
  case h_2 hw =>
    split
    · exact Or.inl rfl
    · rename_i i hi
      exact Or.inr (Or.inl ⟨i, hw, List.mem_of_getElem? hi, rfl⟩)
  case h_3 i hw =>
    split
    · exact Or.inl rfl
    · rename_i item hi
      exact Or.inr (Or.inr (Or.inl ⟨i, item, hw, hi, rfl⟩))
  case h_4 i result message hw =>
    exact Or.inr (Or.inr (Or.inr (Or.inl ⟨i, result, message, hw, rfl⟩)))
  case h_5 i result update hw =>
    exact Or.inr (Or.inr (Or.inr (Or.inr ⟨i, result, update, hw, rfl⟩)))

theorem getElem?_set_worker {p : Pool β} {worker : Nat} {w : Worker β}
    (hw : p.workers[worker]? = some w) (w' : Worker β) :
    (p.workers.set worker w')[worker]? = some w' := by
  simp [(List.getElem?_eq_some_iff.mp hw).1]

/-- Nothing is held at the start. -/
theorem filterMap_workers_start {γ : Type} (workers : Nat) (items : List α) {pick : Worker β → Option γ}
    (hidle : pick .idle = none) : (start workers items : Pool β).workers.filterMap pick = [] :=
  List.filterMap_replicate_of_none hidle

/-- The indices that are waiting, held or done, in this order. -/
def indices (p : Pool β) : List Nat :=
  p.waiting ++ p.workers.filterMap Worker.index? ++ p.results.map Prod.fst

/-- A pool in which each item is waiting, held or done exactly once, and in which all results come
from their items. -/
structure Sound (f : α → β × String) (items : List α) (p : Pool β) : Prop where
  indices_perm : p.indices.Perm (List.range items.length)
  honest : ∀ w ∈ p.workers, w.Honest f items
  results_eq : ∀ r ∈ p.results, ∃ item, items[r.1]? = some item ∧ (f item).1 = r.2

theorem sound_start (f : α → β × String) (items : List α) (workers : Nat) :
    Sound f items (start workers items : Pool β) := by
  refine ⟨?_, ?_, by simp [start]⟩
  · rw [indices, filterMap_workers_start workers items rfl]
    simp [start]
  · intro w hw
    rw [List.eq_of_mem_replicate hw]
    trivial

theorem Sound.lt_of_mem_waiting {f : α → β × String} {items : List α} {p : Pool β}
    (h : Sound f items p) {i : Nat} (hi : i ∈ p.waiting) : i < items.length := by
  have hmem : i ∈ p.indices := by simp [indices, hi]
  exact List.mem_range.mp (h.indices_perm.mem_iff.mp hmem)

/-- One step keeps a pool sound. -/
theorem Sound.step {f : α → β × String} {items : List α} {p : Pool β} (h : Sound f items p)
    (worker choice : Nat) : Sound f items (p.step f items worker choice) := by
  have hset : ∀ {w' : Worker β}, w'.Honest f items →
      ∀ w ∈ p.workers.set worker w', w.Honest f items := by
    intro w' hw' w hw
    rcases List.mem_or_eq_of_mem_set hw with hw | rfl
    · exact h.honest w hw
    · exact hw'
  have hsame : ∀ {w w' : Worker β}, p.workers[worker]? = some w → w.index? = w'.index? →
      (p.waiting ++ (p.workers.set worker w').filterMap Worker.index? ++ p.results.map Prod.fst).Perm
        (List.range items.length) := by
    intro w w' hw hi
    have hheld := filterMap_set_perm Worker.index? w' hw
    rw [hi, List.perm_append_left_iff] at hheld
    exact ((hheld.append_left _).append_right _).trans h.indices_perm
  -- Only taking an item and delivering a result move its index, from one of the three places to the
  -- next; between them a worker keeps the index that it holds.
  rcases step_cases f items p worker choice with
    he | ⟨i, hw, hi, he⟩ | ⟨i, item, hw, hi, he⟩ | ⟨i, result, message, hw, he⟩ |
      ⟨i, result, update, hw, he⟩
  all_goals rw [he]
  · exact h
  · refine ⟨List.Perm.trans ?_ h.indices_perm, hset (h.lt_of_mem_waiting hi), h.results_eq⟩
    have hheld : ((p.workers.set worker (.computing i)).filterMap Worker.index?).Perm
        (i :: p.workers.filterMap Worker.index?) := filterMap_set_perm Worker.index? (.computing i) hw
    refine List.Perm.append_right _ ((hheld.append_left _).trans (List.perm_middle.trans ?_))
    exact (List.perm_cons_erase hi).symm.append_right _
  · exact ⟨hsame hw rfl, hset ⟨item, hi, rfl⟩, h.results_eq⟩
  · obtain ⟨item, hi, hf⟩ := h.honest _ (List.mem_of_getElem? hw)
    exact ⟨hsame hw rfl, hset ⟨item, hi, by rw [hf]⟩, h.results_eq⟩
  · obtain ⟨item, hi, hf⟩ := h.honest _ (List.mem_of_getElem? hw)
    refine ⟨List.Perm.trans ?_ h.indices_perm, hset trivial, ?_⟩
    · have hheld : (i :: (p.workers.set worker .idle).filterMap Worker.index?).Perm
          (p.workers.filterMap Worker.index?) := filterMap_set_perm Worker.index? .idle hw
      simp only [indices, List.map_cons, List.append_assoc]
      refine List.Perm.append_left _ (List.perm_middle.trans ?_)
      exact hheld.append_right _
    · intro r hr
      rcases List.mem_cons.mp hr with rfl | hr
      · exact ⟨item, hi, hf⟩
      · exact h.results_eq r hr

/-- A whole run keeps a pool sound. -/
theorem Sound.run {f : α → β × String} {items : List α} {p : Pool β} (h : Sound f items p)
    (schedule : Schedule) : Sound f items (p.run f items schedule) := by
  induction schedule generalizing p with
  | nil => exact h
  | cons s schedule ih => exact ih (h.step s.1 s.2)

theorem isFinished_iff (p : Pool β) :
    p.isFinished = true ↔ p.waiting = [] ∧ ∀ w ∈ p.workers, w = .idle := by
  simp only [isFinished, Bool.and_eq_true, List.isEmpty_iff, List.all_eq_true]
  refine and_congr_right fun _ => forall₂_congr fun w _ => ?_
  cases w <;> simp

/-- Nothing is held in the end. -/
theorem filterMap_workers_of_isFinished {γ : Type} {p : Pool β} (hp : p.isFinished = true)
    {pick : Worker β → Option γ} (hidle : pick .idle = none) : p.workers.filterMap pick = [] :=
  List.filterMap_eq_nil_iff.mpr fun w hw => by rw [((isFinished_iff p).mp hp).2 w hw, hidle]

/-- Looking up every index of a list gives the list. -/
theorem filterMap_getElem?_range {γ : Type} (l : List γ) :
    (List.range l.length).filterMap (fun i => l[i]?) = l := by
  induction l with
  | nil => rfl
  | cons a l ih =>
    rw [List.length_cons, List.range_succ_eq_map, List.filterMap_cons, List.filterMap_map]
    simpa using ih

/-- A finished pool has the result of every item, in the order of the items. -/
theorem Sound.inOrder_eq_map {f : α → β × String} {items : List α} {p : Pool β}
    (h : Sound f items p) (hp : p.isFinished = true) :
    p.inOrder items = items.map fun item => (f item).1 := by
  have hwaiting := ((isFinished_iff p).mp hp).1
  have hheld : p.workers.filterMap Worker.index? = [] := filterMap_workers_of_isFinished hp rfl
  have hlookup : ∀ i (hi : i < items.length), p.results.lookup i = some (f items[i]).1 := by
    intro i hi
    have hmem : i ∈ p.results.map Prod.fst := by
      have hrange := h.indices_perm.mem_iff.mpr (List.mem_range.mpr hi)
      simpa [indices, hwaiting, hheld] using hrange
    obtain ⟨r, hr⟩ : ∃ r, p.results.lookup i = some r := by
      cases hl : p.results.lookup i with
      | some r => exact ⟨r, rfl⟩
      | none =>
        rw [List.lookup_eq_none_iff] at hl
        obtain ⟨e, he, rfl⟩ := List.mem_map.mp hmem
        exact absurd (hl e he) (by simp)
    obtain ⟨before, after, hsplit, -⟩ := List.lookup_eq_some_iff.mp hr
    obtain ⟨item, hitem, hf⟩ := h.results_eq (i, r) (by simp [hsplit])
    obtain ⟨_, rfl⟩ := List.getElem?_eq_some_iff.mp hitem
    rw [hr]
    exact congrArg some hf.symm
  calc p.inOrder items
      = (List.range items.length).filterMap fun i => (items.map fun item => (f item).1)[i]? := by
        refine List.filterMap_congr fun i hi => ?_
        have hlt := List.mem_range.mp hi
        simp [hlookup i hlt, hlt]
    _ = items.map fun item => (f item).1 := by
        simpa using filterMap_getElem?_range (items.map fun item => (f item).1)

/-- How many steps are left until a pool has finished. -/
def rank (p : Pool β) : Nat := 4 * p.waiting.length + (p.workers.map Worker.remaining).sum

theorem sum_remaining_set {ws : List (Worker β)} {k : Nat} {w : Worker β} (w' : Worker β)
    (h : ws[k]? = some w) :
    ((ws.set k w').map Worker.remaining).sum + w.remaining =
      (ws.map Worker.remaining).sum + w'.remaining := by
  induction ws generalizing k with
  | nil => simp at h
  | cons u us ih =>
    cases k with
    | zero =>
      obtain rfl : u = w := by simpa using h
      simp only [List.set_cons_zero, List.map_cons, List.sum_cons]
      omega
    | succ k =>
      have hi := ih (k := k) (by simpa using h)
      simp only [List.set_cons_succ, List.map_cons, List.sum_cons]
      omega

/-- A step that changes anything comes nearer to the end. -/
theorem step_eq_or_rank_lt (f : α → β × String) (items : List α) (p : Pool β)
    (worker choice : Nat) :
    p.step f items worker choice = p ∨ (p.step f items worker choice).rank < p.rank := by
  rcases step_cases f items p worker choice with
    he | ⟨i, hw, hi, he⟩ | ⟨i, item, hw, _, he⟩ | ⟨i, result, message, hw, he⟩ |
      ⟨i, result, update, hw, he⟩
  · exact Or.inl he
  · have hsum := sum_remaining_set (.computing i) hw
    have hlen := List.length_erase_of_mem hi
    have hpos := List.length_pos_of_mem hi
    simp only [Worker.remaining] at hsum
    rw [he]
    exact Or.inr (by simp only [rank]; omega)
  · have hsum := sum_remaining_set (.computed i (f item).1 (f item).2) hw
    simp only [Worker.remaining] at hsum
    rw [he]
    exact Or.inr (by simp only [rank]; omega)
  · have hsum := sum_remaining_set (.counted i result (p.counter.tick message).1) hw
    simp only [Worker.remaining] at hsum
    rw [he]
    exact Or.inr (by simp only [rank]; omega)
  · have hsum := sum_remaining_set .idle hw
    simp only [Worker.remaining] at hsum
    rw [he]
    exact Or.inr (by simp only [rank]; omega)

/-- A run that changes anything comes nearer to the end, and one that changes nothing changes nothing
at any of its steps. -/
theorem run_rank_lt_or_steps_eq (f : α → β × String) (items : List α) (p : Pool β)
    (schedule : Schedule) :
    (p.run f items schedule).rank < p.rank ∨
      p.run f items schedule = p ∧ ∀ s ∈ schedule, p.step f items s.1 s.2 = p := by
  induction schedule generalizing p with
  | nil => exact Or.inr ⟨rfl, by simp⟩
  | cons s schedule ih =>
    change (Pool.run f items (p.step f items s.1 s.2) schedule).rank < p.rank ∨
      Pool.run f items (p.step f items s.1 s.2) schedule = p ∧ _
    rcases step_eq_or_rank_lt f items p s.1 s.2 with hs | hs
    · rw [hs]
      refine (ih p).imp_right fun h => ⟨h.1, ?_⟩
      intro t ht
      rcases List.mem_cons.mp ht with rfl | ht
      · exact hs
      · exact h.2 t ht
    · rcases ih (p.step f items s.1 s.2) with h | h
      · exact Or.inl (Nat.lt_trans h hs)
      · rw [h.1]
        exact Or.inl hs

/-- A sound pool of at least one worker in which no worker can change anything has finished. -/
theorem Sound.isFinished_of_steps_eq {f : α → β × String} {items : List α} {p : Pool β}
    (h : Sound f items p) (hpos : 0 < p.workers.length)
    (hstep : ∀ k < p.workers.length, p.step f items k 0 = p) : p.isFinished = true := by
  have hworker {k : Nat} {w : Worker β} (hw : p.workers[k]? = some w) :
      (p.step f items k 0).workers[k]? = some w := by
    rw [hstep k (List.getElem?_eq_some_iff.mp hw).1, hw]
  have hidle {k : Nat} {w : Worker β} (hw : p.workers[k]? = some w) : w = .idle := by
    have hkeep := hworker hw
    have hhonest := h.honest w (List.mem_of_getElem? hw)
    cases w with
    | idle => rfl
    | computing i =>
      have hi : items[i]? = some items[i] := List.getElem?_eq_getElem hhonest
      simp [Pool.step, hw, hi, getElem?_set_worker hw] at hkeep
    | computed i result message => simp [Pool.step, hw, getElem?_set_worker hw] at hkeep
    | counted i result update => simp [Pool.step, hw, getElem?_set_worker hw] at hkeep
  refine (isFinished_iff p).mpr ⟨?_, ?_⟩
  · obtain ⟨w, hw⟩ : ∃ w, p.workers[0]? = some w := ⟨_, List.getElem?_eq_getElem hpos⟩
    obtain rfl := hidle hw
    have hkeep := hworker hw
    cases hwaiting : p.waiting with
    | nil => rfl
    | cons i rest => simp [Pool.step, hw, hwaiting, getElem?_set_worker hw] at hkeep
  · intro w hw
    obtain ⟨k, hk⟩ := List.getElem?_of_mem hw
    exact hidle hk

theorem length_workers_step (f : α → β × String) (items : List α) (p : Pool β)
    (worker choice : Nat) :
    (p.step f items worker choice).workers.length = p.workers.length := by
  rcases step_cases f items p worker choice with
    he | ⟨i, _, _, he⟩ | ⟨i, item, _, _, he⟩ | ⟨i, result, message, _, he⟩ |
      ⟨i, result, update, _, he⟩
  all_goals rw [he]
  all_goals simp

theorem length_workers_run (f : α → β × String) (items : List α) (p : Pool β)
    (schedule : Schedule) : (p.run f items schedule).workers.length = p.workers.length := by
  induction schedule generalizing p with
  | nil => rfl
  | cons s schedule ih => exact (ih _).trans (length_workers_step ..)

/-- A finished pool stays as it is. -/
theorem run_of_isFinished (f : α → β × String) (items : List α) {p : Pool β}
    (hp : p.isFinished = true) (schedule : Schedule) : p.run f items schedule = p := by
  obtain ⟨hwaiting, hidle⟩ := (isFinished_iff p).mp hp
  induction schedule with
  | nil => rfl
  | cons s schedule ih =>
    have hs : p.step f items s.1 s.2 = p := by
      rcases step_cases f items p s.1 s.2 with
        he | ⟨i, _, hi, _⟩ | ⟨i, item, hw, _, _⟩ | ⟨i, result, message, hw, _⟩ |
          ⟨i, result, update, hw, _⟩
      · exact he
      · simp [hwaiting] at hi
      all_goals cases hidle _ (List.mem_of_getElem? hw)
    change (p.step f items s.1 s.2).run f items schedule = p
    rw [hs, ih]

/-- In as many rounds as steps are left, workers that take turns finish. -/
theorem Sound.isFinished_of_rounds {f : α → β × String} {items : List α} {p : Pool β}
    (h : Sound f items p) (hpos : 0 < p.workers.length) (rounds : List Nat)
    (hrank : p.rank ≤ rounds.length) :
    (p.run f items (rounds.flatMap fun _ =>
      (List.range p.workers.length).map fun k => (k, 0))).isFinished = true := by
  -- A round lowers the rank, or else no worker could do anything and the pool had finished before.
  induction rounds generalizing p with
  | nil =>
    refine h.isFinished_of_steps_eq hpos fun k _ => ?_
    rcases step_eq_or_rank_lt f items p k 0 with hk | hk
    · exact hk
    · exact absurd (Nat.lt_of_lt_of_le hk hrank) (Nat.not_lt_zero _)
  | cons r rounds ih =>
    rw [List.flatMap_cons, Pool.run, List.foldl_append]
    rcases run_rank_lt_or_steps_eq f items p ((List.range p.workers.length).map fun k => (k, 0))
      with hlt | ⟨hrun, hsteps⟩
    · have hlength := length_workers_run f items p ((List.range p.workers.length).map fun k => (k, 0))
      have hih := ih (h.run _) (by rw [hlength]; exact hpos)
        (by simp only [List.length_cons] at hrank; omega)
      rw [hlength] at hih
      exact hih
    · have hfinished : p.isFinished = true := by
        refine h.isFinished_of_steps_eq hpos fun k hk => ?_
        exact hsteps (k, 0) (by simpa using hk)
      change (Pool.run f items (p.run f items _) _).isFinished = true
      rw [hrun, run_of_isFinished f items hfinished]
      exact hfinished

/-- Workers that take turns finish. -/
theorem isFinished_takingTurns (f : α → β × String) (items : List α) {workers : Nat}
    (hpos : 0 < workers) :
    ((start workers items : Pool β).run f items (takingTurns workers items.length)).isFinished =
      true := by
  have h := (sound_start f items workers).isFinished_of_rounds (by simpa [start] using hpos)
    (List.range (4 * items.length)) (by simp [rank, start, Worker.remaining])
  simpa [start, takingTurns] using h

end Pool

/-- On a pool each item gives the result that it gives alone, in the order of the items. -/
theorem mapOnPool_fst (threads : Nat) (f : α → β × String) {items : List α}
    (hitems : items ≠ []) :
    (mapOnPool threads f items).1 = items.map fun item => (f item).1 := by
  have hpos : 0 < min (poolSize threads) items.length := by
    have := List.length_pos_iff.mpr hitems
    simp only [poolSize]
    omega
  exact ((Pool.sound_start f items _).run _).inOrder_eq_map (Pool.isFinished_takingTurns f items hpos)

end RepoSurvey
