import RepoSurvey.Proofs.Pool
import RepoSurvey.Walk.Basic

/-!
What comes of the candidates of a walk. Each gives the outcome that it gives alone, in whatever mode
they are examined, and a report exactly when it can be read.
-/

namespace RepoSurvey

/-- In every mode each item gives what it gives alone. -/
theorem Mode.map_fst {α β : Type} (mode : Mode) (f : α → β × String) (items : List α) :
    (mode.map f items).1 = items.map fun item => (f item).1 := by
  have hinorder : (mapInOrder f items).1 = items.map fun item => (f item).1 := by
    simp [mapInOrder, Function.comp_def]
  cases mode with
  | sequential => exact hinorder
  | parallel threads =>
    unfold map
    by_cases h : 1 < items.length
    · simp only [h, ↓reduceIte]
      exact mapOnPool_fst threads f (List.length_pos_iff.mp (by omega))
    · simp only [h, ↓reduceIte]
      exact hinorder

theorem Candidate.path_of_report? {c : Candidate} {narrator : Narrator} {fs : FileSystem}
    {r : FileReport} (h : (c.process narrator fs).report? = some r) : r.path = c.relative := by
  unfold process examine at h
  dsimp only at h
  split at h
  · split at h <;> cases h <;> rfl
  · cases h

/-- The edges that come of a candidate are those of the imports in the report on it. -/
theorem Candidate.edges?_process (c : Candidate) (narrator : Narrator) (fs : FileSystem) :
    (c.process narrator fs).edges? =
      (c.process narrator fs).report?.map fun f => Graph.edgesFor f.path f.imports := by
  unfold process examine
  cases fs.read c.path with
  | error e => rfl
  | ok bytes =>
    dsimp only
    split <;> rfl

theorem Candidate.isSome_report? (c : Candidate) (narrator : Narrator) (fs : FileSystem) :
    (c.process narrator fs).report?.isSome = (fs.read c.path).toBool := by
  unfold process examine
  cases fs.read c.path with
  | error e => rfl
  | ok bytes =>
    dsimp only
    split <;> rfl

namespace FileSystem

variable {fs : FileSystem} {scope : Scope} {narrator : Narrator} {mode : Mode} {root : Path}

/-- What came of all candidates of some discoveries. -/
def outcomesOf (fs : FileSystem) (narrator : Narrator) (root : Path) (ds : List Discovery) :
    List Outcome :=
  (candidatesOf root ds).map fun c => c.process narrator fs

theorem gather_fst (ds : List Discovery) :
    (fs.gather narrator mode root ds).1 = .collect root ds (fs.outcomesOf narrator root ds) := by
  unfold gather outcomesOf
  exact congrArg (WalkOutcome.collect root ds) (mode.map_fst _ _)

/-- A walk brings home what came of its candidates. -/
theorem walk_eq_ok {outcome : WalkOutcome} {updates : List Update}
    (h : fs.walk scope narrator mode root = .ok (outcome, updates)) :
    ∃ sight, fs.rootSight scope root = .ok sight ∧
      outcome = .collect root (sight.discoveries root)
        (fs.outcomesOf narrator root (sight.discoveries root)) := by
  unfold walk discoveries at h
  cases hsight : fs.rootSight scope root with
  | error e => simp [hsight, Except.map] at h
  | ok sight =>
    simp only [hsight, Except.map, Except.ok.injEq] at h
    exact ⟨sight, rfl, (congrArg Prod.fst h).symm.trans (gather_fst _)⟩

/-- A walk fails exactly if nothing can be met at its root. -/
theorem walk_eq_error_iff {e : Failure} :
    fs.walk scope narrator mode root = .error e ↔ fs.rootSight scope root = .error e := by
  unfold walk discoveries
  cases fs.rootSight scope root <;> simp [Except.map]

/-- The batches of edges are those of the imports in the reports, one for each. -/
theorem batches_collect (ds : List Discovery) :
    (WalkOutcome.collect root ds (fs.outcomesOf narrator root ds)).batches =
      (WalkOutcome.collect root ds (fs.outcomesOf narrator root ds)).files.map fun f =>
        Graph.edgesFor f.path f.imports := by
  unfold WalkOutcome.collect outcomesOf
  dsimp only
  rw [List.map_filterMap, List.filterMap_map, List.filterMap_map]
  exact List.filterMap_congr fun c _ => Candidate.edges?_process c narrator fs

/-- The paths of the reports are those of the source files that can be read. -/
theorem map_path_files (ds : List Discovery) :
    (WalkOutcome.collect root ds (fs.outcomesOf narrator root ds)).files.map FileReport.path =
      ((candidatesOf root ds).filter fun c => (fs.read c.path).toBool).map Candidate.relative := by
  unfold WalkOutcome.collect outcomesOf
  dsimp only
  induction candidatesOf root ds with
  | nil => rfl
  | cons c cs ih =>
    have hsome := c.isSome_report? narrator fs
    rw [List.map_cons, List.filterMap_cons, List.filter_cons]
    cases hr : (c.process narrator fs).report? with
    | none =>
      rw [hr] at hsome
      simp only [← hsome, Option.isSome_none, Bool.false_eq_true, ↓reduceIte]
      exact ih
    | some r =>
      rw [hr] at hsome
      simp only [← hsome, Option.isSome_some, ↓reduceIte, List.map_cons, ih,
        Candidate.path_of_report? hr]

end FileSystem

end RepoSurvey
