import RepoSurvey.Proofs.Chart
import RepoSurvey.Proofs.EntryOrder

/-!
Charts of snapshots that differ only in the orders in which their directories list what they hold. The
charts are the same but for the orders of their items, and where the names of directories come in the same
order, they are the same.
-/

namespace RepoSurvey

/-- Two charts that are the same but for the orders of the items in them. -/
inductive Chart.Reordered : Chart → Chart → Prop where
  | file : Reordered file file
  | folder {real : RealPath} {items items' : List (FileName × Chart)}
      (distinct : (items.map Prod.fst).Nodup)
      (names : (items.map Prod.fst).Perm (items'.map Prod.fst))
      (charts : ∀ n c c', (n, c) ∈ items → (n, c') ∈ items' → Reordered c c') :
      Reordered (folder real items) (folder real items')

/-- Two results that both failed, in whatever way, or are values in a relation. -/
inductive BothFailOr {α : Type} (R : α → α → Prop) : Except Failure α → Except Failure α → Prop where
  | failed (e e' : Failure) : BothFailOr R (.error e) (.error e')
  | ok {a a' : α} (h : R a a') : BothFailOr R (.ok a) (.ok a')

theorem BothFailOr.exists_ok_iff {α : Type} {R : α → α → Prop} {x x' : Except Failure α}
    (h : BothFailOr R x x') : (∃ a, x = .ok a) ↔ ∃ a', x' = .ok a' := by
  cases h with
  | failed e e' => simp
  | ok h => simp

theorem BothFailOr.exists_some_iff {α : Type} {R : α → α → Prop} {x x' : Except Failure (Option α)}
    (h : BothFailOr (Option.Rel R) x x') : (∃ a, x = .ok (some a)) ↔ ∃ a', x' = .ok (some a') := by
  cases h with
  | failed e e' => simp
  | ok h => cases h <;> simp

theorem BothFailOr.rel {α : Type} {R : α → α → Prop} {a a' : α}
    (h : BothFailOr (Option.Rel R) (.ok (some a)) (.ok (some a'))) : R a a' := by
  cases h with
  | ok h =>
    cases h with
    | some h => exact h

namespace FileSystem

variable {fs fs' : FileSystem} {scope : Scope} {fresh fresh' : List RealPath} {path : Path}
  {names names' : List FileName}

theorem Reordered.shownAt (h : fs.Reordered fs') (scope : Scope) (path : Path) :
    fs.shownAt scope path = fs'.shownAt scope path := by
  have hlstat := h.lstat path
  unfold FileSystem.shownAt
  generalize fs.lstat path = a at hlstat
  generalize fs'.lstat path = a' at hlstat
  cases hlstat with
  | error e => rfl
  | @ok s s' hs =>
    have hentry := hs.entry
    obtain ⟨e, above⟩ := s
    obtain ⟨e', above'⟩ := s'
    cases hentry with
    | link target =>
      dsimp only [shownAs]
      rw [h.isDirectory path]
    | _ => rfl

/-- Charts of names that are the same but for their order are the same but for theirs. -/
theorem chartsAt_reordered (real : RealPath) (hnodup : names.Nodup) (hnames : names.Perm names')
    (hcharts : ∀ n, BothFailOr (Option.Rel Chart.Reordered) (fs.chartAt scope fresh (path.join n))
      (fs'.chartAt scope fresh' (path.join n))) :
    BothFailOr (fun items items' => (Chart.folder real items).Reordered (.folder real items'))
      (fs.chartsAt scope fresh path names) (fs'.chartsAt scope fresh' path names') := by
  have hok : (∃ items, fs.chartsAt scope fresh path names = .ok items) ↔
      ∃ items', fs'.chartsAt scope fresh' path names' = .ok items' := by
    simp only [exists_chartsAt_iff, hnames.mem_iff, (hcharts _).exists_ok_iff]
  cases hitems : fs.chartsAt scope fresh path names with
  | error e =>
    cases hitems' : fs'.chartsAt scope fresh' path names' with
    | error e' => exact .failed e e'
    | ok items' =>
      rw [hitems, hitems'] at hok
      obtain ⟨items, h⟩ := hok.mpr ⟨items', rfl⟩
      cases h
  | ok items =>
    obtain ⟨items', hitems'⟩ := hok.mp ⟨items, hitems⟩
    rw [hitems']
    have hdistinct := hnodup.sublist (map_fst_chartsAt_sublist hitems)
    have hdistinct' := (hnames.nodup_iff.mp hnodup).sublist (map_fst_chartsAt_sublist hitems')
    have hmem := (chartsAt_eq_ok hitems).2
    have hmem' := (chartsAt_eq_ok hitems').2
    refine .ok (.folder hdistinct ?_ ?_)
    · -- Whether a name has a chart does not depend on the snapshot, and no name comes twice.
      refine (List.perm_ext_iff_of_nodup hdistinct hdistinct').mpr fun n => ?_
      have hname (l : List (FileName × Chart)) : n ∈ l.map Prod.fst ↔ ∃ c, (n, c) ∈ l := by simp
      simp only [hname, hmem, hmem', exists_and_left, hnames.mem_iff, (hcharts n).exists_some_iff]
    · intro n c c' hc hc'
      have hn := hcharts n
      rw [((hmem n c).mp hc).2.2, ((hmem' n c').mp hc').2.2] at hn
      exact hn.rel

/-- The charts of an entry that is a directory or leads to one decide about its own. -/
theorem Reordered.chartAt (h : fs.Reordered fs')
    (hchart : BothFailOr (Option.Rel Chart.Reordered) (fs.chartOf scope fresh path)
      (fs'.chartOf scope fresh' path)) :
    BothFailOr (Option.Rel Chart.Reordered) (fs.chartAt scope fresh path)
      (fs'.chartAt scope fresh' path) := by
  rw [chartAt_eq_shownAt, chartAt_eq_shownAt, ← h.shownAt scope path]
  cases fs.shownAt scope path with
  | none => exact .ok .none
  | some kind =>
    cases kind with
    | file => exact .ok (.some .file)
    | folder => exact hchart

theorem Reordered.list (h : fs.Reordered fs') (path : Path) :
    Agree (fun l l' => (Entry.directory l none).Reordered (.directory l' none)) (fs.list path)
      (fs'.list path) := by
  have hstat := h.stat path
  unfold FileSystem.list
  generalize fs.stat path = a at hstat
  generalize fs'.stat path = a' at hstat
  cases hstat with
  | error e => exact .error e
  | @ok s s' hs =>
    have hentry := hs.entry
    obtain ⟨e, above⟩ := s
    obtain ⟨e', above'⟩ := s'
    cases hentry with
    | @directory l l' fault distinct names entries =>
      cases fault with
      | none => exact .ok (.directory distinct names entries)
      | some e => exact .error e
    | _ => exact .error _

theorem perm_shownOrder {l l' : Listing} {fault fault' : Option IoError}
    (h : (Entry.directory l fault).Reordered (.directory l' fault')) :
    (shownOrder l).Nodup ∧ (shownOrder l).Perm (shownOrder l') := by
  cases h with
  | directory distinct names entries =>
    exact ⟨(List.mergeSort_perm _ _).nodup_iff.mpr distinct,
      (List.mergeSort_perm _ _).trans (names.trans (List.mergeSort_perm _ _).symm)⟩

/-- The charts of a directory are the same but for the orders in them. -/
theorem Reordered.chartOf (h : fs.Reordered fs') (scope : Scope) {fresh fresh' : List RealPath}
    (hfresh : fresh.Perm fresh') (path : Path) :
    BothFailOr (Option.Rel Chart.Reordered) (fs.chartOf scope fresh path)
      (fs'.chartOf scope fresh' path) := by
  have hresolve := h.resolve path
  rw [FileSystem.chartOf, FileSystem.chartOf]
  generalize fs.resolve path = a at hresolve
  generalize fs'.resolve path = a' at hresolve
  cases hresolve with
  | error e => exact .failed _ _
  | @ok s s' hs =>
    dsimp only
    rw [← hs.realPath_eq]
    by_cases hmem : s.realPath ∈ fresh
    · rw [dif_pos hmem, dif_pos (hfresh.mem_iff.mp hmem)]
      have hlist := h.list path
      generalize fs.list path = b at hlist
      generalize fs'.list path = b' at hlist
      cases hlist with
      | error e => exact .failed _ _
      | @ok l l' hl =>
        obtain ⟨hnodup, hperm⟩ := perm_shownOrder hl
        -- Below the directory it is passed, which bounds the way.
        have hcharts (n : FileName) := h.chartAt (h.chartOf scope (hfresh.erase s.realPath) (path.join n))
        have hitems := chartsAt_reordered s.realPath hnodup hperm hcharts
        dsimp only
        generalize fs.chartsAt scope (fresh.erase s.realPath) path (shownOrder l) = c at hitems
        generalize fs'.chartsAt scope (fresh'.erase s.realPath) path (shownOrder l') = c' at hitems
        cases hitems with
        | failed e e' => exact .failed e e'
        | ok hitems => exact .ok (.some hitems)
    · rw [dif_neg hmem, dif_neg (hfresh.mem_iff.not.mp hmem)]
      exact .ok .none
termination_by fresh.length
decreasing_by exact FileSystem.length_erase_lt hmem

/-- The directory of a real path, if it can be listed in both snapshots, has its names in the same order in
the tree. -/
def ShowsAlike (fs fs' : FileSystem) (p : RealPath) : Prop :=
  ∀ s s' l l', Placed fs s → Placed fs' s' → s.realPath = p → s'.realPath = p →
    s.entry = .directory l none → s'.entry = .directory l' none → shownOrder l = shownOrder l'

theorem chartsAt_congr (h : ∀ n, fs.chartAt scope fresh (path.join n) =
      fs'.chartAt scope fresh' (path.join n)) (names : List FileName) :
    fs.chartsAt scope fresh path names = fs'.chartsAt scope fresh' path names := by
  induction names with
  | nil => rw [chartsAt, chartsAt]
  | cons n names ih => rw [chartsAt, chartsAt, ih, h n]

theorem Reordered.chartAt_eq (h : fs.Reordered fs')
    (hchart : fs.chartOf scope fresh path = fs'.chartOf scope fresh' path) :
    fs.chartAt scope fresh path = fs'.chartAt scope fresh' path := by
  rw [chartAt_eq_shownAt, chartAt_eq_shownAt, ← h.shownAt scope path, hchart]

/-- Where directories that the way has not passed have their names in the same order, their charts are the
same. -/
theorem Reordered.chartOf_eq (h : fs.Reordered fs') (scope : Scope) {fresh fresh' : List RealPath}
    (hfresh : fresh.Perm fresh') (hshows : ∀ p ∈ fresh, fs.ShowsAlike fs' p) (path : Path) :
    fs.chartOf scope fresh path = fs'.chartOf scope fresh' path := by
  have hresolve := h.resolve path
  rw [FileSystem.chartOf, FileSystem.chartOf]
  generalize hreal : fs.resolve path = a at hresolve
  generalize hreal' : fs'.resolve path = a' at hresolve
  cases hresolve with
  | error e => rfl
  | @ok s s' hs =>
    dsimp only
    rw [← hs.realPath_eq]
    by_cases hmem : s.realPath ∈ fresh
    · rw [dif_pos hmem, dif_pos (hfresh.mem_iff.mp hmem)]
      have hlist := h.list path
      generalize hl : fs.list path = b at hlist
      generalize hl' : fs'.list path = b' at hlist
      cases hlist with
      | error e => rfl
      | @ok l l' _ =>
        obtain ⟨t, ht, hdir⟩ := exists_stat_of_list hl
        obtain ⟨t', ht', hdir'⟩ := exists_stat_of_list hl'
        obtain rfl := resolve_eq_stat hreal ht
        obtain rfl := resolve_eq_stat hreal' ht'
        -- The directory is none that has been passed, so its own names come in the same order.
        have hnames : shownOrder l = shownOrder l' :=
          hshows s.realPath hmem s s' l l' (.of_stat ht) (.of_stat ht') rfl hs.realPath_eq.symm hdir hdir'
        have hcharts (n : FileName) := h.chartAt_eq (h.chartOf_eq scope (hfresh.erase s.realPath)
          (fun p hp => hshows p (List.mem_of_mem_erase hp)) (path.join n))
        dsimp only
        rw [hnames, chartsAt_congr hcharts]
    · rw [dif_neg hmem, dif_neg (hfresh.mem_iff.not.mp hmem)]
termination_by fresh.length
decreasing_by exact FileSystem.length_erase_lt hmem

end FileSystem

end RepoSurvey
