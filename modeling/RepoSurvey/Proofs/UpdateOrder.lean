import RepoSurvey.Proofs.Updates

/-!
The order in which a pool delivers its updates. Counting an item and delivering its update are two steps, and
between them another worker may count and deliver. A single worker delivers in the order of its counts. Of
two workers one may hold the first update back until all others are delivered, and a reporter that shows
each update as it comes then goes back to one at the end.
-/

namespace RepoSurvey

variable {α β : Type}

/-- A reporter stands where the last update has put it. -/
theorem Reporter.position_foldl_advance (r : Reporter) (us : List Update) :
    (us.foldl Reporter.advance r).position = ((us.map Update.current).getLast?).getD r.position := by
  cases us using List.reverseRecOn with
  | nil => rfl
  | append_singleton us u => simp [Reporter.advance]

namespace Pool

variable {f : α → β × String} {items : List α} {p : Pool β}

/-! ### One worker -/

/-- A pool whose updates, those that workers hold after those that are delivered, have the counts from one
on. -/
def CountsInOrder (p : Pool β) : Prop :=
  p.updates.map Update.current = List.range' 1 p.counter.done

theorem countsInOrder_start (workers : Nat) (items : List α) :
    CountsInOrder (start workers items : Pool β) := by
  rw [CountsInOrder, updates, filterMap_workers_start workers items rfl]
  rfl

/-- A single worker delivers what it has counted before it counts anything else. -/
theorem CountsInOrder.step (h : p.CountsInOrder) (hone : p.workers.length = 1)
    (worker choice : Nat) : (p.step f items worker choice).CountsInOrder := by
  obtain ⟨w, hworkers⟩ := List.length_eq_one_iff.mp hone
  -- The updates that are held are those of the worker that moves.
  have hheld {u : Worker β} (hu : p.workers[worker]? = some u) (u' : Worker β) :
      p.workers.filterMap Worker.update? = u.update?.toList ∧
        (p.workers.set worker u').filterMap Worker.update? = u'.update?.toList := by
    rw [hworkers] at hu ⊢
    cases worker with
    | zero =>
      obtain rfl : w = u := by simpa using hu
      exact ⟨by cases hw : w.update? <;> simp [hw], by cases hw' : u'.update? <;> simp [hw']⟩
    | succ k => simp at hu
  unfold CountsInOrder updates at h
  rcases step_cases f items p worker choice with
    he | ⟨i, hw, -, he⟩ | ⟨i, item, hw, -, he⟩ | ⟨i, result, message, hw, he⟩ |
      ⟨i, result, update, hw, he⟩
  all_goals rw [he]
  · exact h
  · obtain ⟨hbefore, hafter⟩ := hheld hw (.computing i)
    rw [hbefore] at h
    rwa [CountsInOrder, updates, hafter]
  · obtain ⟨hbefore, hafter⟩ := hheld hw (.computed i (f item).1 (f item).2)
    rw [hbefore] at h
    rwa [CountsInOrder, updates, hafter]
  · obtain ⟨hbefore, hafter⟩ := hheld hw (.counted i result (p.counter.tick message).1)
    have hdelivered : p.delivered.map Update.current = List.range' 1 p.counter.done := by
      rw [hbefore] at h
      simpa [Worker.update?] using h
    -- The new count is one more than all before it.
    rw [CountsInOrder, updates, hafter]
    simp [Worker.update?, hdelivered, Counter.tick, List.range'_concat, Nat.add_comm]
  · obtain ⟨hbefore, hafter⟩ := hheld hw .idle
    rw [hbefore] at h
    rw [CountsInOrder, updates, hafter]
    simpa [Worker.update?] using h

theorem CountsInOrder.run (h : p.CountsInOrder) (hone : p.workers.length = 1)
    (schedule : Schedule) : (p.run f items schedule).CountsInOrder := by
  induction schedule generalizing p with
  | nil => exact h
  | cons s schedule ih =>
    exact ih (h.step hone s.1 s.2) ((length_workers_step ..).trans hone)

/-- What is delivered comes first among the updates. -/
theorem CountsInOrder.pairwise_delivered (h : p.CountsInOrder) :
    (p.delivered.map Update.current).Pairwise (· < ·) := by
  have hall : (p.updates.map Update.current).Pairwise (· < ·) := by
    rw [h]
    exact List.pairwise_lt_range'
  rw [updates, List.map_append] at hall
  exact (List.pairwise_append.mp hall).1

/-! ### An update that is held back -/

/-- An idle worker that moves three times has taken the first item that waits and counted it. -/
theorem run_counts (f : α → β × String) {worker i : Nat} {waiting : List Nat} {item : α}
    (hidle : p.workers[worker]? = some .idle) (hwaiting : p.waiting = i :: waiting)
    (hitem : items[i]? = some item) :
    p.run f items (List.replicate 3 (worker, 0)) =
      { p with
        waiting
        workers := p.workers.set worker (.counted i (f item).1 (p.counter.tick (f item).2).1)
        counter := (p.counter.tick (f item).2).2 } := by
  have hset := getElem?_set_worker hidle
  have htake : p.step f items worker 0 =
      { p with waiting, workers := p.workers.set worker (.computing i) } := by
    simp [Pool.step, hidle, hwaiting]
  have hcompute : (p.step f items worker 0).step f items worker 0 =
      { p with waiting, workers := p.workers.set worker (.computed i (f item).1 (f item).2) } := by
    rw [htake]
    simp [Pool.step, hset, hitem]
  change ((p.step f items worker 0).step f items worker 0).step f items worker 0 = _
  rw [hcompute]
  simp [Pool.step, hset]

/-- With a fourth move it has delivered the update, and it is idle again. -/
theorem run_delivers (f : α → β × String) {worker i : Nat} {waiting : List Nat} {item : α}
    (hidle : p.workers[worker]? = some .idle) (hwaiting : p.waiting = i :: waiting)
    (hitem : items[i]? = some item) :
    p.run f items (List.replicate 4 (worker, 0)) =
      { p with
        waiting
        counter := (p.counter.tick (f item).2).2
        delivered := p.delivered ++ [(p.counter.tick (f item).2).1]
        results := (i, (f item).1) :: p.results } := by
  obtain ⟨hlt, hget⟩ := List.getElem?_eq_some_iff.mp hidle
  have hsame : p.workers.set worker .idle = p.workers := by
    rw [← hget]
    exact List.set_getElem_self hlt
  have hcounts := run_counts f hidle hwaiting hitem
  change (p.run f items (List.replicate 3 (worker, 0))).step f items worker 0 = _
  rw [hcounts]
  simp [Pool.step, getElem?_set_worker hidle, hsame]

/-- An idle worker that alone moves on counts and delivers all that waits, in order. -/
theorem run_delivers_all (f : α → β × String) {worker : Nat} (hidle : p.workers[worker]? = some .idle)
    (hwaiting : ∀ i ∈ p.waiting, i < items.length) :
    ∃ us results, us.map Update.current = List.range' (p.counter.done + 1) p.waiting.length ∧
      p.run f items (List.replicate (4 * p.waiting.length) (worker, 0)) =
        { p with
          waiting := []
          counter := { p.counter with done := p.counter.done + p.waiting.length }
          delivered := p.delivered ++ us
          results } := by
  induction hw : p.waiting generalizing p with
  | nil => exact ⟨[], p.results, rfl, by cases p; simp_all [Pool.run]⟩
  | cons i waiting ih =>
    rw [hw] at hwaiting
    have hi : i < items.length := hwaiting i (List.mem_cons_self ..)
    have hitem : items[i]? = some items[i] := List.getElem?_eq_getElem hi
    have hfirst := run_delivers f hidle hw hitem
    set q := p.run f items (List.replicate 4 (worker, 0)) with hq
    have hwaiting' : ∀ j ∈ q.waiting, j < items.length := by
      rw [hfirst]
      exact fun j hj => hwaiting j (List.mem_cons_of_mem i hj)
    obtain ⟨us, results, hcounts, hrest⟩ := ih (p := q) (by rw [hfirst]; exact hidle) hwaiting'
      (by rw [hfirst])
    refine ⟨(p.counter.tick (f items[i]).2).1 :: us, results, ?_, ?_⟩
    · rw [List.map_cons, hcounts, List.length_cons, List.range'_succ, hfirst]
      rfl
    · have hsplit : List.replicate (4 * (i :: waiting).length) (worker, 0) =
          List.replicate 4 (worker, 0) ++ List.replicate (4 * waiting.length) (worker, 0) := by
        rw [← List.replicate_add, List.length_cons]
        congr 1
        omega
      rw [hsplit, Pool.run, List.foldl_append]
      change q.run f items _ = _
      rw [hrest, hfirst]
      simp [Counter.tick, Nat.add_comm, Nat.add_left_comm]

/-- The order of steps in which the first worker counts the first of `count` items and delivers its update
when the second worker has counted and delivered all others. -/
def heldBack (count : Nat) : Schedule :=
  List.replicate 3 (0, 0) ++ List.replicate (4 * (count - 1)) (1, 0) ++ [(0, 0)]

/-- Where two workers share two items or more, the update that was counted first may come last. -/
theorem run_heldBack (f : α → β × String) (items : List α) (workers : Nat) (hworkers : 2 ≤ workers)
    (hitems : 2 ≤ items.length) :
    let p := (start workers items : Pool β).run f items (heldBack items.length)
    p.isFinished = true ∧
      p.delivered.map Update.current = List.range' 2 (items.length - 1) ++ [1] := by
  obtain ⟨k, rfl⟩ : ∃ k, workers = k + 2 := ⟨workers - 2, by omega⟩
  set p₀ : Pool β := start (k + 2) items with hp₀
  have hfirst : items[0]? = some items[0] := List.getElem?_eq_getElem (by omega)
  have hwaiting : p₀.waiting = 0 :: List.range' 1 (items.length - 1) := by
    change List.range items.length = _
    rw [List.range_eq_range', show items.length = items.length - 1 + 1 by omega, List.range'_succ]
    simp
  have hidle : p₀.workers[0]? = some .idle := by simp [hp₀, start]
  have hcounts := run_counts f hidle hwaiting hfirst
  set p₁ := p₀.run f items (List.replicate 3 (0, 0)) with hp₁
  -- The first worker holds its update, and the second one finds all other items.
  have hidle₁ : p₁.workers[1]? = some .idle := by
    rw [hcounts]
    simp [hp₀, start]
  have hwaiting₁ : ∀ i ∈ p₁.waiting, i < items.length := by
    rw [hcounts]
    intro i hi
    have hrange := List.mem_range'_1.mp hi
    omega
  have hlength : p₁.waiting.length = items.length - 1 := by
    rw [hcounts]
    exact List.length_range'
  have hdone : p₁.counter.done = 1 := by
    rw [hcounts]
    rfl
  obtain ⟨us, results, hus, hall⟩ := run_delivers_all f hidle₁ hwaiting₁
  rw [hlength, hdone] at hus
  rw [hlength, hcounts] at hall
  have hlast : p₀.run f items (heldBack items.length) =
      (p₁.run f items (List.replicate (4 * (items.length - 1)) (1, 0))).step f items 0 0 := by
    rw [heldBack, Pool.run, List.foldl_append, List.foldl_append]
    rfl
  rw [hlast, hcounts, hall]
  simp [Pool.step, hp₀, start, isFinished_iff, List.replicate_succ, hus, Counter.tick, Counter.start]

/-! ### Forward or back -/

theorem pairwise_of_length_le_one {l : List Nat} (h : l.length ≤ 1) : l.Pairwise (· < ·) := by
  cases l with
  | nil => exact List.Pairwise.nil
  | cons a l =>
    obtain rfl : l = [] := List.length_eq_zero_iff.mp (by simpa using h)
    exact List.pairwise_singleton ..

/-- Where one worker moves alone, or there is one item at most, the updates come by rising counts. -/
theorem pairwise_delivered_run (f : α → β × String) {items : List α} {workers : Nat}
    (h : workers = 1 ∨ items.length ≤ 1) (schedule : Schedule) :
    (((start workers items : Pool β).run f items schedule).delivered.map Update.current).Pairwise
      (· < ·) := by
  rcases h with rfl | hitems
  · exact ((countsInOrder_start 1 items).run List.length_replicate schedule).pairwise_delivered
  · obtain ⟨log, hlog⟩ :=
      (hasCounted_start f items workers).run (sound_start f items workers) schedule
    -- No more is delivered than is counted, and no more is counted than there is.
    have hupdates := hlog.updates_perm.length_eq
    have hmessages := hlog.messages_perm.length_eq
    have hticks := congrArg List.length (Counter.map_current_ticks (Counter.start items.length) log)
    simp only [updates, List.length_append, List.length_map, List.length_range'] at hupdates hmessages hticks
    have hle : ((start workers items : Pool β).run f items schedule).delivered.length ≤ 1 := by omega
    exact pairwise_of_length_le_one ((List.length_map _).trans_le hle)

/-- The updates of a pool that has finished come by rising counts exactly if they come one by one. -/
theorem map_current_eq_range' (hcounts : (p.delivered.map Update.current).Perm (List.range' 1 items.length))
    (hrising : (p.delivered.map Update.current).Pairwise (· < ·)) :
    p.delivered.map Update.current = List.range' 1 items.length :=
  hcounts.eq_of_pairwise (fun a b _ _ hab hba => absurd hab (Nat.lt_asymm hba)) hrising
    List.pairwise_lt_range'

/-- A pool delivers its updates by rising counts, whatever the order of its steps, exactly if it has one
worker only or at most one item. The same holds of whether a reporter that is fed with them always stands at
the number of items in the end. -/
theorem updates_forward_iff (threads : Nat) (f : α → β × String) (items : List α) (r : Reporter) :
    ((∀ schedule : Schedule,
        (((start (poolSize threads) items : Pool β).run f items schedule).delivered.map
          Update.current).Pairwise (· < ·)) ↔
      poolSize threads = 1 ∨ items.length ≤ 1) ∧
    ((∀ schedule : Schedule,
        let p := (start (poolSize threads) items : Pool β).run f items schedule
        p.isFinished = true →
          (p.delivered.foldl Reporter.advance r.restart).position = items.length) ↔
      poolSize threads = 1 ∨ items.length ≤ 1) := by
  have hsize : 1 ≤ poolSize threads := Nat.le_max_right ..
  have hback (hnot : ¬(poolSize threads = 1 ∨ items.length ≤ 1)) :=
    run_heldBack (β := β) f items (poolSize threads) (by omega) (by omega)
  refine ⟨⟨fun hall => ?_, pairwise_delivered_run f⟩, ⟨fun hall => ?_, ?_⟩⟩
  · by_contra hnot
    obtain ⟨-, hcounts⟩ := hback hnot
    -- The last count is one, and two comes before it.
    have hrising := hall (heldBack items.length)
    rw [hcounts] at hrising
    have hlt := (List.pairwise_append.mp hrising).2.2 2 (List.mem_range'_1.mpr (by omega)) 1 (by simp)
    omega
  · by_contra hnot
    obtain ⟨hfinished, hcounts⟩ := hback hnot
    have hposition := hall (heldBack items.length) hfinished
    rw [Reporter.position_foldl_advance, hcounts, List.getLast?_concat, Option.getD_some] at hposition
    omega
  · intro h schedule p hfinished
    have hcounts := counts_perm_of_isFinished schedule hfinished
    have hone := map_current_eq_range' hcounts (pairwise_delivered_run f h schedule)
    rw [Reporter.position_foldl_advance, hone]
    cases hn : items.length with
    | zero => rfl
    | succ n => simp [List.range'_concat, Nat.add_comm]

/-- Two workers share two items. Each computes one, the first worker counts first, and the second worker
delivers first. -/
def overtaking : Schedule := [(0, 0), (1, 0), (0, 0), (1, 0), (0, 0), (1, 0), (1, 0), (0, 0)]

theorem updates_backward_overtaking :
    let p := (start (poolSize 2) ["a", "b"] : Pool Nat).run (fun s => (s.length, s)) ["a", "b"] overtaking
    p.isFinished = true ∧ p.delivered = [⟨2, 2, "b"⟩, ⟨1, 2, "a"⟩] ∧
      (p.delivered.foldl Reporter.advance (Reporter.idle true)).position = 1 := by
  decide

end Pool

end RepoSurvey
