import RepoSurvey.Proofs.EntryOrder
import RepoSurvey.Proofs.Sight

/-!
The walk does not depend on the order in which directories list what they hold, nor on how its workers
take turns. Each directory is sorted by an order in which no two of its entries are alike, and what
comes of a candidate stands where the candidate stood.
-/

namespace RepoSurvey

namespace Meeting

theorem before_trans (a b c : Meeting) (hab : a.before b = true) (hbc : b.before c = true) :
    a.before c = true := by
  unfold before at *
  split at hab <;> split at hbc <;> split <;> simp_all
  · exact List.le_trans hab hbc

theorem before_total (a b : Meeting) : (a.before b || b.before a) = true := by
  unfold before
  by_cases h : a.isDirectory = b.isDirectory
  · simpa [h] using List.le_total a.name b.name
  · rw [if_neg h, if_neg (Ne.symm h)]
    revert h
    cases a.isDirectory <;> cases b.isDirectory <;> simp

theorem name_eq_of_before {a b : Meeting} (hab : a.before b = true) (hba : b.before a = true) :
    a.name = b.name := by
  unfold before at *
  by_cases h : a.isDirectory = b.isDirectory
  · rw [if_pos h] at hab
    rw [if_pos h.symm] at hba
    exact List.le_antisymm (of_decide_eq_true hab) (of_decide_eq_true hba)
  · rw [if_neg h] at hab
    rw [if_neg (Ne.symm h)] at hba
    exact absurd (hba.trans hab.symm) h

/-- Entries of distinct names have one order only. -/
theorem inOrder_eq_of_perm {ms ms' : List Meeting} (hdistinct : (ms.map name).Nodup)
    (h : ms.Perm ms') : inOrder ms = inOrder ms' := by
  have hsorted (l : List Meeting) : (l.mergeSort before).Pairwise fun a b => a.before b = true :=
    List.pairwise_mergeSort before_trans before_total l
  have hperm : (ms.mergeSort before).Perm (ms'.mergeSort before) :=
    (List.mergeSort_perm ms before).trans (h.trans (List.mergeSort_perm ms' before).symm)
  unfold inOrder
  rw [hperm.eq_of_pairwise ?_ (hsorted ms) (hsorted ms')]
  intro a b ha hb hab hba
  have ha := List.mem_mergeSort.mp ha
  have hb := h.mem_iff.mpr (List.mem_mergeSort.mp hb)
  exact List.inj_on_of_nodup_map hdistinct ha hb (name_eq_of_before hab hba)

end Meeting

namespace FileSystem

variable {fs fs' : FileSystem} {scope : Scope} {fresh fresh' : List RealPath} {l l' : Listing}
  {e e' : Entry}

theorem filterMap_eq_of_sameItem {β : Type} {l m : Listing} {f g : FileName × Entry → Option β}
    (h : List.Forall₂ SameItem l m) (hfg : ∀ i ∈ l, ∀ i', SameItem i i' → f i = g i') :
    l.filterMap f = m.filterMap g := by
  induction h with
  | nil => rfl
  | @cons i i' l m hi _ ih =>
    rw [List.filterMap_cons, List.filterMap_cons, hfg i List.mem_cons_self i' hi,
      ih fun j hj => hfg j (List.mem_cons_of_mem i hj)]

mutual

/-- The same is met in the directories of both snapshots. -/
theorem Reordered.sightsIn (h : fs.Reordered fs') {fresh fresh' : List RealPath} {l l' : Listing}
    {fault fault' : Option IoError} (hfresh : fresh.Perm fresh')
    (hl : (Entry.directory l fault).Reordered (.directory l' fault')) (path : Path) :
    fs.sightsIn scope fresh path l = fs'.sightsIn scope fresh' path l' := by
  -- The meetings of both are permutations of each other, and sorting makes them equal.
  obtain ⟨m, hm, hitems⟩ := hl.exists_perm
  rw [FileSystem.sightsIn, FileSystem.sightsIn]
  refine Meeting.inOrder_eq_of_perm (nodup_meetings hl.distinct path) ?_
  rw [meetings_eq_filterMap, meetings_eq_filterMap]
  rw [filterMap_eq_of_sameItem hitems ?_]
  · exact hm.filterMap _
  · rintro ⟨n, e⟩ hi ⟨_, e'⟩ ⟨rfl, he⟩
    dsimp only
    rw [h.sightOf hfresh he (path.join n) (scope.excludes n), he.isDirectory_eq]
termination_by (fresh.length, sizeOf l, 1)
decreasing_by
  have hlt : sizeOf e < sizeOf l := by
    have := List.sizeOf_lt_of_mem hi
    simp only [Prod.mk.sizeOf_spec] at this
    omega
  exact Prod.Lex.right _ (Prod.Lex.left _ _ hlt)

theorem Reordered.sightOf (h : fs.Reordered fs') {fresh fresh' : List RealPath} {e e' : Entry}
    (hfresh : fresh.Perm fresh') (he : e.Reordered e') (path : Path) (excluded : Bool) :
    fs.sightOf scope fresh path excluded e = fs'.sightOf scope fresh' path excluded e' := by
  have hstat := h.stat path
  cases he with
  | file content => rw [FileSystem.sightOf, FileSystem.sightOf]
  | special => rw [FileSystem.sightOf, FileSystem.sightOf]
  | @directory l l' fault distinct names entries =>
    rw [FileSystem.sightOf, FileSystem.sightOf]
    cases excluded with
    | true => rfl
    | false =>
      generalize hs : fs.stat path = a at hstat
      generalize hs' : fs'.stat path = a' at hstat
      cases hstat with
      | error err => rfl
      | @ok s s' hss =>
        cases fault with
        | some err => rfl
        | none =>
          have hl : (Entry.directory l none).Reordered (.directory l' none) :=
            .directory distinct names entries
          dsimp only
          rw [hss.realPath_eq, h.sightsIn (hfresh.erase _) hl]
  | link target =>
    rw [FileSystem.sightOf, FileSystem.sightOf]
    -- Behind a link the directory may be entered, and then `fresh` loses the same real path in both.
    generalize fs.stat path = a at hstat
    generalize fs'.stat path = a' at hstat
    cases hstat with
    | error err => rfl
    | @ok s s' hss =>
      cases excluded with
      | true => rfl
      | false =>
        have hreal := hss.realPath_eq
        have hentry := hss.entry
        obtain ⟨e, above⟩ := s
        obtain ⟨e', above'⟩ := s'
        cases hentry with
        | file content => rfl
        | special => rfl
        | link target => rfl
        | @directory l l' fault distinct names entries =>
          cases fault with
          | some err => rfl
          | none =>
            have hl : (Entry.directory l none).Reordered (.directory l' none) :=
              .directory distinct names entries
            dsimp only
            rw [hreal]
            by_cases hmem : (Standing.mk (.directory l' none) above').realPath ∈ fresh
            · have hmem' := hfresh.mem_iff.mp hmem
              rw [dif_pos hmem, dif_pos hmem', h.sightsIn (hfresh.erase _) hl]
            · have hmem' := hfresh.mem_iff.not.mp hmem
              rw [dif_neg hmem, dif_neg hmem']
termination_by (fresh.length, sizeOf e, 2)
decreasing_by
  · exact Prod.Lex.left _ _ (length_erase_lt hmem)
  · rcases Nat.lt_or_eq_of_le (List.length_erase_le (a := s'.realPath) (l := fresh)) with hlt | heq
    · exact Prod.Lex.left _ _ hlt
    · rw [heq]
      refine Prod.Lex.right _ (Prod.Lex.left _ _ ?_)
      simp only [Entry.directory.sizeOf_spec]
      omega

end

/-- Walks through both snapshots make the same discoveries. -/
theorem Reordered.discoveries (h : fs.Reordered fs') (root : Path) :
    fs.discoveries scope root = fs'.discoveries scope root := by
  have hstat := h.stat root
  unfold FileSystem.discoveries rootSight
  rw [h.isLink root]
  generalize fs.stat root = a at hstat
  generalize fs'.stat root = a' at hstat
  cases hstat with
  | error err => rfl
  | @ok s s' hss =>
    have hreal := hss.realPath_eq
    have hentry := hss.entry
    obtain ⟨e, above⟩ := s
    obtain ⟨e', above'⟩ := s'
    cases hentry with
    | file content => rfl
    | special => rfl
    | link target => rfl
    | @directory l l' fault distinct names entries =>
      cases fault with
      | some err => rfl
      | none =>
        have hl : (Entry.directory l none).Reordered (.directory l' none) :=
          .directory distinct names entries
        dsimp only
        rw [hreal, h.sightsIn (h.perm_directories.erase _) hl root]

theorem Reordered.outcomesOf (h : fs.Reordered fs') (narrator : Narrator) (root : Path)
    (ds : List Discovery) : fs.outcomesOf narrator root ds = fs'.outcomesOf narrator root ds := by
  unfold FileSystem.outcomesOf
  refine List.map_congr_left fun c _ => ?_
  unfold Candidate.process
  rw [h.read c.path]

end FileSystem

/-- What comes of items in a mode, whatever the schedule. A pool may have any number of workers, and
without one the items are taken one after the other. -/
inductive Mode.Yields {α β : Type} (f : α → β × String) (items : List α) : Mode → List β → Prop where
  | inOrder (mode : Mode) : Yields f items mode (mapInOrder f items).1
  | pooled (threads workers : Nat) (schedule : Pool.Schedule)
      (hfinished : ((Pool.start workers items).run f items schedule).isFinished = true) :
      Yields f items (.parallel threads)
        (((Pool.start workers items).run f items schedule).inOrder items)

section

variable {α β : Type} {f : α → β × String} {items : List α} {mode : Mode}

theorem Mode.Yields.eq_map {results : List β} (h : mode.Yields f items results) :
    results = items.map fun item => (f item).1 := by
  cases h with
  | inOrder mode => exact Mode.sequential.map_fst f items
  | pooled threads workers schedule hfinished =>
    exact ((Pool.sound_start f items workers).run schedule).inOrder_eq_map hfinished

theorem Mode.yields_map : mode.Yields f items (mode.map f items).1 := by
  rw [mode.map_fst, ← Mode.sequential.map_fst f items]
  exact .inOrder mode

end

namespace FileSystem

variable {fs fs' : FileSystem} {scope : Scope} {narrator : Narrator} {mode : Mode} {root : Path}

/-- What a walk may bring home in a mode, whatever the schedule of its workers. -/
inductive WalksTo (fs : FileSystem) (scope : Scope) (narrator : Narrator) (mode : Mode)
    (root : Path) : Except Failure WalkOutcome → Prop where
  | failed {failure : Failure} (h : fs.discoveries scope root = .error failure) :
      WalksTo fs scope narrator mode root (.error failure)
  | gathered {ds : List Discovery} {outcomes : List Outcome}
      (h : fs.discoveries scope root = .ok ds)
      (hyields : mode.Yields (fs.examineCandidate narrator) (candidatesOf root ds) outcomes) :
      WalksTo fs scope narrator mode root (.ok (.collect root ds outcomes))

theorem walksTo_walk :
    fs.WalksTo scope narrator mode root ((fs.walk scope narrator mode root).map Prod.fst) := by
  unfold walk
  cases hds : fs.discoveries scope root with
  | error failure => exact .failed hds
  | ok ds => exact .gathered hds mode.yields_map

/-- What a walk brings home does not depend on its mode and its schedule. -/
theorem WalksTo.eq {r : Except Failure WalkOutcome} (h : fs.WalksTo scope narrator mode root r) :
    r = (fs.discoveries scope root).map fun ds =>
      .collect root ds (fs.outcomesOf narrator root ds) := by
  cases h with
  | failed hds =>
    rw [hds]
    rfl
  | gathered hds hyields =>
    rw [hds, hyields.eq_map]
    rfl

/-- A walk brings the same home from any two snapshots that differ only in the orders in which their
directories list what they hold, in every mode and under every schedule. -/
theorem walk_deterministic (h : fs.Reordered fs') (scope : Scope) (narrator : Narrator)
    (root : Path) :
    ∃ result, ∀ mode : Mode,
      (∀ r, fs.WalksTo scope narrator mode root r ↔ r = result) ∧
      (∀ r, fs'.WalksTo scope narrator mode root r ↔ r = result) ∧
      (fs.walk scope narrator mode root).map Prod.fst = result ∧
      (fs'.walk scope narrator mode root).map Prod.fst = result := by
  refine ⟨(fs.discoveries scope root).map fun ds =>
    .collect root ds (fs.outcomesOf narrator root ds), fun mode => ?_⟩
  have hwalk : (fs.walk scope narrator mode root).map Prod.fst = _ := walksTo_walk.eq
  have hwalk' : (fs'.walk scope narrator mode root).map Prod.fst = _ := walksTo_walk.eq
  have hsame : (fs'.discoveries scope root).map (fun ds =>
        WalkOutcome.collect root ds (fs'.outcomesOf narrator root ds)) =
      (fs.discoveries scope root).map fun ds =>
        .collect root ds (fs.outcomesOf narrator root ds) := by
    rw [← h.discoveries root]
    simp only [h.outcomesOf]
  refine ⟨fun r => ⟨WalksTo.eq, ?_⟩, fun r => ⟨fun hr => hr.eq.trans hsame, ?_⟩, hwalk,
    hwalk'.trans hsame⟩
  · rintro rfl
    exact hwalk ▸ walksTo_walk
  · rintro rfl
    exact (hwalk'.trans hsame) ▸ walksTo_walk

section

/-- A source file `a.py` and a link `b.py` to it, in a directory that lists the file first. -/
def fileFirst : FileSystem where
  entries := [([0x61, dot, 0x70, 0x79], .file (.ok [0x0A])),
    ([0x62, dot, 0x70, 0x79], .link [0x61, dot, 0x70, 0x79])]
  current := []

/-- The same, in a directory that lists the link first. -/
def linkFirst : FileSystem where
  entries := [([0x62, dot, 0x70, 0x79], .link [0x61, dot, 0x70, 0x79]),
    ([0x61, dot, 0x70, 0x79], .file (.ok [0x0A]))]
  current := []

theorem fileFirst_reordered : fileFirst.Reordered linkFirst := by
  refine ⟨.directory (by decide) (.swap _ _ []) ?_, rfl⟩
  intro n e e' he he'
  simp only [fileFirst, linkFirst, List.mem_cons, Prod.mk.injEq, List.not_mem_nil, or_false] at he he'
  rcases he with ⟨rfl, rfl⟩ | ⟨rfl, rfl⟩
  · rcases he' with ⟨hname, -⟩ | ⟨-, rfl⟩
    · exact absurd hname (by decide)
    · exact .file _
  · rcases he' with ⟨-, rfl⟩ | ⟨hname, -⟩
    · exact .link _
    · exact absurd hname (by decide)

theorem walk_of_fileFirst_and_linkFirst :
    fileFirst.Reordered linkFirst ∧ ∃ result, ∀ mode : Mode,
      (∀ r, fileFirst.WalksTo ⟨[], true⟩ .silent mode [solidus] r ↔ r = result) ∧
      (∀ r, linkFirst.WalksTo ⟨[], true⟩ .silent mode [solidus] r ↔ r = result) ∧
      (fileFirst.walk ⟨[], true⟩ .silent mode [solidus]).map Prod.fst = result ∧
      (linkFirst.walk ⟨[], true⟩ .silent mode [solidus]).map Prod.fst = result :=
  ⟨fileFirst_reordered, walk_deterministic fileFirst_reordered ⟨[], true⟩ .silent [solidus]⟩

end

end FileSystem

end RepoSurvey
