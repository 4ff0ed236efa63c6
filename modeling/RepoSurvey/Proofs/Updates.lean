import RepoSurvey.Proofs.Pool

/-!
What a pool tells of its items. Every item is counted once, by whichever worker holds it, and its update is
delivered once, so a pool that has finished has delivered the updates of all items, though in any order. And
it does finish, whatever the order of its steps, as long as every worker moves again and again.
-/

namespace RepoSurvey

variable {α β : Type}

namespace Counter

variable (c : Counter) (log : List String)

theorem ticks_concat (message : String) :
    c.ticks (log ++ [message]) = c.ticks log ++ [⟨c.done + log.length + 1, c.total, message⟩] := by
  induction log generalizing c with
  | nil => rfl
  | cons m log ih =>
    rw [List.cons_append, ticks, ih, ticks, List.cons_append, List.length_cons]
    simp only [tick]
    rw [show c.done + 1 + log.length + 1 = c.done + (log.length + 1) + 1 by omega]

theorem map_current_ticks : (c.ticks log).map Update.current = List.range' (c.done + 1) log.length := by
  induction log generalizing c with
  | nil => rfl
  | cons m log ih =>
    rw [ticks, List.map_cons, ih, List.length_cons, List.range'_succ]
    rfl

theorem map_message_ticks : (c.ticks log).map Update.message = log := by
  induction log generalizing c with
  | nil => rfl
  | cons m log ih =>
    rw [ticks, List.map_cons, ih]
    rfl

theorem total_of_mem_ticks {u : Update} (h : u ∈ c.ticks log) : u.total = c.total := by
  induction log generalizing c with
  | nil => cases h
  | cons m log ih =>
    rcases List.mem_cons.mp h with rfl | h
    · rfl
    · exact ih (c.tick m).2 h

end Counter

namespace Worker

/-- The update that a worker holds. -/
def update? : Worker β → Option Update
  | counted _ _ update => some update
  | _ => none

/-- The index of an item that a worker has taken and has not counted. -/
def uncounted? : Worker β → Option Nat
  | computing i | computed i _ _ => some i
  | _ => none

end Worker

namespace Pool

variable {f : α → β × String} {items : List α} {p : Pool β} {log : List String}

/-- The message of the item at an index. -/
def messageAt? (f : α → β × String) (items : List α) (i : Nat) : Option String :=
  items[i]?.map fun item => (f item).2

/-- The indices of the items that are not counted: those that wait and those that workers compute. -/
def uncounted (p : Pool β) : List Nat := p.waiting ++ p.workers.filterMap Worker.uncounted?

/-- The updates that are delivered and those that workers hold. -/
def updates (p : Pool β) : List Update := p.delivered ++ p.workers.filterMap Worker.update?

/-- A pool that has counted the items of some messages, in the order of these. -/
structure HasCounted (f : α → β × String) (items : List α) (p : Pool β) (log : List String) : Prop where
  counter_eq : p.counter = ⟨items.length, log.length⟩
  updates_perm : p.updates.Perm ((Counter.start items.length).ticks log)
  messages_perm :
    (log ++ p.uncounted.filterMap (messageAt? f items)).Perm (items.map fun item => (f item).2)

theorem hasCounted_start (f : α → β × String) (items : List α) (workers : Nat) :
    HasCounted f items (start workers items : Pool β) [] := by
  refine ⟨rfl, ?_, ?_⟩
  · rw [updates, filterMap_workers_start workers items rfl]
    exact .refl []
  · have hmessages := filterMap_getElem?_range (items.map fun item => (f item).2)
    simp only [List.length_map, List.getElem?_map] at hmessages
    rw [uncounted, filterMap_workers_start workers items rfl, List.append_nil]
    exact .of_eq hmessages

/-- One step counts at most one item, and no message or update is lost or doubled. -/
theorem HasCounted.step (h : HasCounted f items p log) (hsound : Sound f items p)
    (worker choice : Nat) : ∃ log', HasCounted f items (p.step f items worker choice) log' := by
  -- Taking and computing an item leave it uncounted, and delivering moves an update from its worker to
  -- the delivered ones. Only counting changes the log: the message of the item comes to its end.
  rcases step_cases f items p worker choice with
    he | ⟨i, hw, hi, he⟩ | ⟨i, item, hw, -, he⟩ | ⟨i, result, message, hw, he⟩ |
      ⟨i, result, update, hw, he⟩
  all_goals rw [he]
  · exact ⟨log, h⟩
  · have hheld : ((p.workers.set worker (.computing i)).filterMap Worker.uncounted?).Perm
        (i :: p.workers.filterMap Worker.uncounted?) :=
      filterMap_set_perm Worker.uncounted? (.computing i) hw
    have huncounted : (p.waiting.erase i ++
        (p.workers.set worker (.computing i)).filterMap Worker.uncounted?).Perm p.uncounted :=
      ((hheld.append_left _).trans List.perm_middle).trans
        ((List.perm_cons_erase hi).symm.append_right _)
    have hupdates := filterMap_set_perm Worker.update? (.computing i) hw
    exact ⟨log, h.counter_eq, (hupdates.append_left _).trans h.updates_perm,
      ((huncounted.filterMap _).append_left log).trans h.messages_perm⟩
  · have hheld := filterMap_set_perm Worker.uncounted? (.computed i (f item).1 (f item).2) hw
    have hupdates := filterMap_set_perm Worker.update? (.computed i (f item).1 (f item).2) hw
    have huncounted : (p.waiting ++ (p.workers.set worker (.computed i (f item).1 (f item).2)).filterMap
        Worker.uncounted?).Perm p.uncounted :=
      ((List.perm_append_left_iff [i]).mp hheld).append_left _
    exact ⟨log, h.counter_eq, (hupdates.append_left _).trans h.updates_perm,
      ((huncounted.filterMap _).append_left log).trans h.messages_perm⟩
  · have hmessage : messageAt? f items i = some message := by
      obtain ⟨item, hitem, hf⟩ := hsound.honest _ (List.mem_of_getElem? hw)
      rw [messageAt?, hitem, Option.map_some, hf]
    set u := (p.counter.tick message).1 with hu
    have hheld : (i :: (p.workers.set worker (.counted i result u)).filterMap Worker.uncounted?).Perm
        (p.workers.filterMap Worker.uncounted?) :=
      filterMap_set_perm Worker.uncounted? (.counted i result u) hw
    have hupdates : ((p.workers.set worker (.counted i result u)).filterMap Worker.update?).Perm
        (u :: p.workers.filterMap Worker.update?) :=
      filterMap_set_perm Worker.update? (.counted i result u) hw
    refine ⟨log ++ [message], ?_, ?_, ?_⟩
    · simp [Counter.tick, h.counter_eq]
    · have hticks : (Counter.start items.length).ticks (log ++ [message]) =
          (Counter.start items.length).ticks log ++ [u] := by
        rw [Counter.ticks_concat, hu, h.counter_eq]
        simp [Counter.tick, Counter.start]
      rw [hticks]
      refine ((hupdates.append_left _).trans List.perm_middle).trans ?_
      exact (h.updates_perm.cons u).trans (List.perm_append_singleton ..).symm
    · have huncounted := (List.perm_middle.symm.trans (hheld.append_left p.waiting)).filterMap
        (messageAt? f items)
      rw [List.filterMap_cons_some hmessage] at huncounted
      rw [List.append_assoc]
      exact (huncounted.append_left log).trans h.messages_perm
  · have hheld := filterMap_set_perm Worker.uncounted? .idle hw
    have hupdates : (update :: (p.workers.set worker .idle).filterMap Worker.update?).Perm
        (p.workers.filterMap Worker.update?) := filterMap_set_perm Worker.update? .idle hw
    refine ⟨log, h.counter_eq, ?_, ?_⟩
    · refine List.Perm.trans ?_ h.updates_perm
      simp only [updates, List.append_assoc, List.singleton_append]
      exact hupdates.append_left _
    · exact (((hheld.append_left _).filterMap _).append_left log).trans h.messages_perm

/-- In a whole run as in one step. -/
theorem HasCounted.run (h : HasCounted f items p log) (hsound : Sound f items p)
    (schedule : Schedule) : ∃ log', HasCounted f items (p.run f items schedule) log' := by
  induction schedule generalizing p log with
  | nil => exact ⟨log, h⟩
  | cons s schedule ih =>
    obtain ⟨log', h'⟩ := h.step hsound s.1 s.2
    exact ih h' (hsound.step s.1 s.2)

/-- A pool that has finished has counted every item and delivered every update. -/
theorem HasCounted.of_isFinished (h : HasCounted f items p log) (hp : p.isFinished = true) :
    p.delivered.Perm ((Counter.start items.length).ticks log) ∧
      log.Perm (items.map fun item => (f item).2) := by
  have hwaiting := ((isFinished_iff p).mp hp).1
  have hupdates := h.updates_perm
  have hmessages := h.messages_perm
  rw [updates, filterMap_workers_of_isFinished hp rfl, List.append_nil] at hupdates
  rw [uncounted, hwaiting, filterMap_workers_of_isFinished hp rfl, List.append_nil, List.filterMap_nil,
    List.append_nil] at hmessages
  exact ⟨hupdates, hmessages⟩

/-- In a pool that has finished each count from one to the number of items is told once. -/
theorem counts_perm_of_isFinished {workers : Nat} (schedule : Schedule)
    (hfinished : ((start workers items : Pool β).run f items schedule).isFinished = true) :
    (((start workers items : Pool β).run f items schedule).delivered.map Update.current).Perm
      (List.range' 1 items.length) := by
  obtain ⟨log, hlog⟩ := (hasCounted_start f items workers).run (sound_start f items workers) schedule
  obtain ⟨hupdates, hmessages⟩ := hlog.of_isFinished hfinished
  have hlength : log.length = items.length := by simpa using hmessages.length_eq
  have hcounts := hupdates.map Update.current
  rwa [Counter.map_current_ticks, hlength] at hcounts

/-! ### Endless orders of steps -/

/-- An endless order of steps in which every worker moves again and again. -/
def IsFair (workers : Nat) (moves : Nat → Nat × Nat) : Prop :=
  ∀ worker < workers, ∀ t, ∃ t' ≥ t, (moves t').1 = worker

/-- The first steps of an endless order. -/
def firstMoves (moves : Nat → Nat × Nat) (t : Nat) : Schedule := (List.range t).map moves

/-- Which item a worker would take does not matter to whether it can do anything. -/
theorem step_zero_eq {worker choice : Nat} (h : p.step f items worker choice = p) :
    p.step f items worker 0 = p := by
  unfold Pool.step at h ⊢
  split
  case h_2 hw =>
    rw [hw] at h
    cases hwaiting : p.waiting with
    | nil => rfl
    | cons i rest =>
      -- An item waits, so the worker would have taken one.
      have hlt : choice % p.waiting.length < p.waiting.length := Nat.mod_lt _ (by simp [hwaiting])
      simp only [List.getElem?_eq_getElem hlt] at h
      have hlength := congrArg (fun q => q.waiting.length) h
      have herase := List.length_erase_of_mem (List.getElem_mem hlt)
      simp only [herase] at hlength
      omega
  all_goals simp_all

theorem run_firstMoves_add (f : α → β × String) (items : List α) (p : Pool β)
    (moves : Nat → Nat × Nat) (t d : Nat) :
    p.run f items (firstMoves moves (t + d)) =
      (p.run f items (firstMoves moves t)).run f items ((List.range' t d).map moves) := by
  have hsplit : List.range (t + d) = List.range t ++ List.range' t d := by
    simpa [List.range_eq_range'] using (List.range'_append_1 (s := 0) (m := t) (n := d)).symm
  rw [run, run, run, ← List.foldl_append, firstMoves, firstMoves, ← List.map_append, hsplit]

/-- Where every worker moves again and again, a pool finishes. -/
theorem exists_isFinished_firstMoves (hsound : Sound f items p) (hpos : 0 < p.workers.length)
    {moves : Nat → Nat × Nat} (hfair : IsFair p.workers.length moves) (t : Nat) :
    ∃ t' ≥ t, (p.run f items (firstMoves moves t')).isFinished = true := by
  -- By induction on how many steps are left. As long as the pool has not finished, some worker can do
  -- something, and when it moves next, either it does or another has done something before.
  induction hrank : (p.run f items (firstMoves moves t)).rank using Nat.strong_induction_on
    generalizing t with
  | _ rank ih =>
    set q := p.run f items (firstMoves moves t) with hq
    by_cases hfinished : q.isFinished = true
    · exact ⟨t, Nat.le_refl t, hfinished⟩
    · obtain ⟨worker, hworker, hstep⟩ : ∃ k < p.workers.length, q.step f items k 0 ≠ q := by
        by_contra hnone
        push Not at hnone
        have hlength : q.workers.length = p.workers.length := length_workers_run ..
        refine hfinished ((hsound.run _).isFinished_of_steps_eq (by rw [hlength]; exact hpos) ?_)
        intro k hk
        exact hnone k (hlength ▸ hk)
      obtain ⟨t', ht', hmove⟩ := hfair worker hworker t
      have hrun := run_firstMoves_add f items p moves t (t' + 1 - t)
      rw [show t + (t' + 1 - t) = t' + 1 by omega, ← hq] at hrun
      have hlt : (p.run f items (firstMoves moves (t' + 1))).rank < rank := by
        rw [hrun, ← hrank]
        rcases run_rank_lt_or_steps_eq f items q ((List.range' t (t' + 1 - t)).map moves) with
          hlt | ⟨-, hsteps⟩
        · exact hlt
        · have hmem : moves t' ∈ (List.range' t (t' + 1 - t)).map moves :=
            List.mem_map_of_mem (List.mem_range'_1.mpr (by omega))
          have hsame := hsteps _ hmem
          rw [hmove] at hsame
          exact absurd (step_zero_eq hsame) hstep
      obtain ⟨t'', ht'', hdone⟩ := ih _ hlt (t' + 1) rfl
      exact ⟨t'', by omega, hdone⟩

/-- Whatever the order of the steps, a pool that has finished has the results that come of the items one
after the other, in their order, and has delivered one update for each item: all tell the same total, and
each count and each message is told once. And a pool whose workers move again and again does finish. -/
theorem run_maps (threads : Nat) (f : α → β × String) (items : List α) :
    (∀ schedule : Schedule,
      let p := (start (poolSize threads) items : Pool β).run f items schedule
      p.isFinished = true →
        p.inOrder items = (mapInOrder f items).1 ∧
        p.delivered.length = items.length ∧
        (∀ u ∈ p.delivered, u.total = items.length) ∧
        (p.delivered.map Update.current).Perm (List.range' 1 items.length) ∧
        (p.delivered.map Update.message).Perm (items.map fun item => (f item).2)) ∧
    ∀ moves : Nat → Nat × Nat, IsFair (poolSize threads) moves →
      ∃ t, ∀ t' ≥ t,
        ((start (poolSize threads) items : Pool β).run f items (firstMoves moves t')).isFinished =
          true := by
  have hsound := sound_start (β := β) f items (poolSize threads)
  have hworkers : (start (poolSize threads) items : Pool β).workers.length = poolSize threads :=
    List.length_replicate
  constructor
  · intro schedule p hfinished
    obtain ⟨log, hlog⟩ := (hasCounted_start f items (poolSize threads)).run hsound schedule
    obtain ⟨hupdates, hmessages⟩ := hlog.of_isFinished hfinished
    have hcounts := counts_perm_of_isFinished schedule hfinished
    refine ⟨?_, ?_, ?_, hcounts, ?_⟩
    · rw [(hsound.run schedule).inOrder_eq_map hfinished, mapInOrder, List.map_map]
      rfl
    · simpa using hcounts.length_eq
    · intro u hu
      exact Counter.total_of_mem_ticks _ _ (hupdates.mem_iff.mp hu)
    · have htold := hupdates.map Update.message
      rw [Counter.map_message_ticks] at htold
      exact htold.trans hmessages
  · intro moves hfair
    have hpos : 0 < poolSize threads := Nat.lt_of_lt_of_le Nat.one_pos (Nat.le_max_right ..)
    have hfair' : IsFair (start (poolSize threads) items : Pool β).workers.length moves := by
      rwa [hworkers]
    obtain ⟨t, -, hfinished⟩ := exists_isFinished_firstMoves hsound (by omega) hfair' 0
    refine ⟨t, fun t' ht' => ?_⟩
    have hrun := run_firstMoves_add f items (start (poolSize threads) items : Pool β) moves t (t' - t)
    rw [show t + (t' - t) = t' by omega, run_of_isFinished f items hfinished] at hrun
    rwa [hrun]

/-- Two workers, each of which moves at every other step, and the item that waited first is taken. -/
def alternately (t : Nat) : Nat × Nat := (t % 2, 0)

theorem isFair_alternately : IsFair 2 alternately := by
  intro worker hworker t
  refine ⟨2 * t + worker, by omega, ?_⟩
  change (2 * t + worker) % 2 = worker
  omega

theorem run_maps_alternately :
    let p := (start (poolSize 2) ["a", "b", "c"] : Pool Nat).run (fun s => (s.length, s)) ["a", "b", "c"]
      (firstMoves alternately 16)
    p.isFinished = true ∧
      (p.inOrder ["a", "b", "c"] = [1, 1, 1] ∧
        (p.delivered.map Update.current).Perm (List.range' 1 3) ∧
        (p.delivered.map Update.message).Perm ["a", "b", "c"]) ∧
      IsFair 2 alternately ∧
      ∃ t, ∀ t' ≥ t, ((start (poolSize 2) ["a", "b", "c"] : Pool Nat).run (fun s => (s.length, s))
        ["a", "b", "c"] (firstMoves alternately t')).isFinished = true := by
  intro p
  have hfinished : p.isFinished = true := by decide
  obtain ⟨hmaps, hends⟩ := run_maps 2 (fun s : String => (s.length, s)) ["a", "b", "c"]
  obtain ⟨hresults, -, -, hcounts, hmessages⟩ := hmaps (firstMoves alternately 16) hfinished
  exact ⟨hfinished, ⟨hresults, hcounts, hmessages⟩, isFair_alternately,
    hends alternately isFair_alternately⟩

end Pool

end RepoSurvey
