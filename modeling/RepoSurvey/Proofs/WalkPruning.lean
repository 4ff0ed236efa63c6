import RepoSurvey.Proofs.WalkOrder
import RepoSurvey.Proofs.WayText
import RepoSurvey.Proofs.Ways

/-!
Leaving names out of a walk. A walk takes the entries of a directory in an order of their own, whatever
is left out, so the ways that it meets with some names left out are those of the walk that leaves out
nothing, less the ways on which such a name stands.
-/

namespace RepoSurvey

namespace Listing

/-- The order of a walk within a directory, for entries. -/
def before (i j : FileName × Entry) : Bool :=
  Meeting.before ⟨i.2.isDirectory, i.1, .file⟩ ⟨j.2.isDirectory, j.1, .file⟩

/-- The entries of a directory in the order of a walk. -/
def inWalkOrder (l : Listing) : Listing := l.mergeSort before

theorem pairwise_inWalkOrder (l : Listing) : l.inWalkOrder.Pairwise fun i j => before i j = true := by
  apply List.pairwise_mergeSort
  · intro i j k
    exact Meeting.before_trans _ _ _
  · intro i j
    exact Meeting.before_total _ _

end Listing

/-- The ways through what is met under a name, if anything is. -/
def waysThrough (sight? : Option Sight) : List (List FileName) :=
  match sight? with
  | some sight => sight.ways
  | none => []

theorem waysIn_eq_flatMap (items : List (FileName × Sight)) :
    waysIn items = items.flatMap fun (n, sight) => sight.ways.map (n :: ·) := by
  induction items with
  | nil => rfl
  | cons i rest ih =>
    obtain ⟨n, sight⟩ := i
    rw [waysIn, List.flatMap_cons, ih]

namespace Scope

/-- The scope that leaves out no name. -/
def unpruned (s : Scope) : Scope := { s with excludedNames := [] }

theorem followLinks_unpruned (s : Scope) : s.unpruned.followLinks = s.followLinks := rfl

theorem excludes_unpruned (s : Scope) (n : FileName) : s.unpruned.excludes n = false := rfl

/-- Whether no name on a way is left out. -/
def admits (s : Scope) (way : List FileName) : Bool := way.all fun n => !s.excludes n

end Scope

/-- The text of a way is clear of the names that are left out exactly if they all stay off the way. -/
theorem Path.clearOf_wayText_iff (scope : Scope) {way : List FileName} (hne : way ≠ [])
    (h : ∀ n ∈ way, n.IsProper) :
    ClearOf scope.excludedNames (wayText way) ↔ scope.admits way = true := by
  rw [ClearOf, components_wayText hne fun n hn => (h n hn).isStep]
  simp [Scope.admits, Scope.excludes, Scope.excludesName]

namespace FileSystem

variable {fs : FileSystem} {scope : Scope} {fresh : List RealPath} {path root : Path}
  {entries : Listing} {e : Entry}

/-- What is met in a directory, entry by entry in the order of a walk. -/
theorem sightsIn_eq_filterMap (hdistinct : (entries.map Prod.fst).Nodup) :
    fs.sightsIn scope fresh path entries = entries.inWalkOrder.filterMap fun (n, e) =>
      (fs.sightOf scope fresh (path.join n) (scope.excludes n) e).map (n, ·) := by
  let meet (i : FileName × Entry) : Option Meeting :=
    (fs.sightOf scope fresh (path.join i.1) (scope.excludes i.1) i.2).map (⟨i.2.isDirectory, i.1, ·⟩)
  have hmeetings : fs.meetings scope fresh path entries = entries.filterMap meet :=
    meetings_eq_filterMap fs scope fresh path entries
  have hdistinct' : ((fs.meetings scope fresh path entries).map Meeting.name).Nodup :=
    nodup_meetings hdistinct path
  rw [hmeetings] at hdistinct'
  have hperm : (entries.filterMap meet).Perm (entries.inWalkOrder.filterMap meet) :=
    ((List.mergeSort_perm entries Listing.before).filterMap meet).symm
  -- Sorting what is met, or meeting what is sorted: both lists are in order and hold the same.
  have hsorted : (entries.inWalkOrder.filterMap meet).Pairwise fun a b => a.before b = true := by
    apply (Listing.pairwise_inWalkOrder entries).filterMap
    intro i j hij a ha b hb
    obtain ⟨sight, -, rfl⟩ := Option.map_eq_some_iff.mp ha
    obtain ⟨sight', -, rfl⟩ := Option.map_eq_some_iff.mp hb
    exact hij
  have hsort : (entries.filterMap meet).mergeSort Meeting.before =
      entries.inWalkOrder.filterMap meet := by
    apply ((List.mergeSort_perm _ _).trans hperm).eq_of_pairwise _
      (List.pairwise_mergeSort Meeting.before_trans Meeting.before_total _) hsorted
    intro a b ha hb hab hba
    have ha := List.mem_mergeSort.mp ha
    have hb := hperm.mem_iff.mpr hb
    exact List.inj_on_of_nodup_map hdistinct' ha hb (Meeting.name_eq_of_before hab hba)
  rw [sightsIn, Meeting.inOrder, hmeetings, hsort, List.map_filterMap]
  apply List.filterMap_congr
  intro i _
  simp [meet, Function.comp_def]

/-- The ways through a directory, entry by entry in the order of a walk. -/
theorem waysIn_sightsIn_eq_flatMap (hdistinct : (entries.map Prod.fst).Nodup) :
    waysIn (fs.sightsIn scope fresh path entries) = entries.inWalkOrder.flatMap fun (n, e) =>
      (waysThrough (fs.sightOf scope fresh (path.join n) (scope.excludes n) e)).map (n :: ·) := by
  rw [sightsIn_eq_filterMap hdistinct, waysIn_eq_flatMap]
  induction entries.inWalkOrder with
  | nil => rfl
  | cons i rest ih =>
    obtain ⟨n, e⟩ := i
    rw [List.filterMap_cons, List.flatMap_cons, ← ih]
    cases hsight : fs.sightOf scope fresh (path.join n) (scope.excludes n) e with
    | none => simp [hsight, waysThrough]
    | some sight => simp [hsight, waysThrough]

/-- No way leads through an entry that is left out. A link that leads nowhere is met all the same, but
has no file. -/
theorem waysThrough_sightOf_excluded (e : Entry) :
    waysThrough (fs.sightOf scope fresh path true e) = [] := by
  cases e with
  | file content =>
    rw [sightOf]
    rfl
  | special =>
    rw [sightOf]
    rfl
  | directory l fault =>
    rw [sightOf]
    rfl
  | link target =>
    rw [sightOf]
    cases fs.stat path with
    | ok s => rfl
    | error err => cases scope.followLinks <;> simp [waysThrough, Sight.ways]

mutual

/-- Leaving names out on the way down leaves out exactly the ways on which they stand. -/
theorem waysIn_sightsIn_prune (hfs : fs.WellFormed) (scope : Scope) (fresh : List RealPath)
    (path : Path) {entries : Listing} (hl : Listing.Throughout Listing.IsProper entries) :
    waysIn (fs.sightsIn scope fresh path entries) =
      (waysIn (fs.sightsIn scope.unpruned fresh path entries)).filter scope.admits := by
  have hdistinct := hl.here.nodup
  rw [waysIn_sightsIn_eq_flatMap hdistinct, waysIn_sightsIn_eq_flatMap hdistinct, List.filter_flatMap]
  apply List.flatMap_congr
  rintro ⟨n, e⟩ hi
  have hmem : (n, e) ∈ entries := List.mem_mergeSort.mp hi
  dsimp only
  rw [List.filter_map, Scope.excludes_unpruned]
  -- A name that is left out is on every way through it, and any other leaves the choice to what is below.
  cases hexcluded : scope.excludes n with
  | true =>
    have hnone : (waysThrough (fs.sightOf scope.unpruned fresh (path.join n) false e)).filter
        (scope.admits ∘ (n :: ·)) = [] := by
      apply List.filter_eq_nil_iff.mpr
      intro way _
      simp [Scope.admits, hexcluded]
    rw [waysThrough_sightOf_excluded, hnone]
  | false =>
    have hhead : scope.admits ∘ (n :: ·) = scope.admits := by
      funext way
      simp [Scope.admits, hexcluded]
    have hinner : ∀ l fault, e = .directory l fault → Listing.Throughout Listing.IsProper l := by
      rintro l fault rfl
      exact hl.inside hmem
    rw [hhead, waysThrough_sightOf_prune hfs scope fresh (path.join n) hinner]
termination_by (fresh.length, sizeOf entries, 1)
decreasing_by
  have hlt : sizeOf e < sizeOf entries := by
    have := List.sizeOf_lt_of_mem hmem
    simp only [Prod.mk.sizeOf_spec] at this
    omega
  exact Prod.Lex.right _ (Prod.Lex.left _ _ hlt)

theorem waysThrough_sightOf_prune (hfs : fs.WellFormed) (scope : Scope) (fresh : List RealPath)
    (path : Path) {e : Entry}
    (hinner : ∀ l fault, e = .directory l fault → Listing.Throughout Listing.IsProper l) :
    waysThrough (fs.sightOf scope fresh path false e) =
      (waysThrough (fs.sightOf scope.unpruned fresh path false e)).filter scope.admits := by
  cases e with
  | file content =>
    rw [sightOf, sightOf]
    rfl
  | special =>
    rw [sightOf, sightOf]
    rfl
  | directory l fault =>
    rw [sightOf, sightOf]
    cases hs : fs.stat path with
    | error err => rfl
    | ok s =>
      cases fault with
      | some err => rfl
      | none =>
        exact waysIn_sightsIn_prune hfs scope (fresh.erase s.realPath) path (hinner l none rfl)
  | link target =>
    -- Behind a link that is entered, fewer directories are left to pass.
    rw [sightOf, sightOf, Scope.followLinks_unpruned]
    cases hs : fs.stat path with
    | error err => cases scope.followLinks <;> simp [waysThrough, Sight.ways]
    | ok s =>
      dsimp only
      cases hentry : s.entry with
      | file content => rfl
      | special => rfl
      | link target => rfl
      | directory l fault =>
        have hl := (Placed.of_stat hs).throughout hfs hentry
        cases fault with
        | some err => rfl
        | none =>
          by_cases hfresh : s.realPath ∈ fresh
          · cases scope.followLinks with
            | false => simp [waysThrough]
            | true =>
              have hbelow := waysIn_sightsIn_prune hfs scope (fresh.erase s.realPath) path hl
              simpa [waysThrough, Sight.ways, hfresh] using hbelow
          · simp [waysThrough, hfresh]
termination_by (fresh.length, sizeOf e, 2)
decreasing_by
  · exact Prod.Lex.left _ _ (length_erase_lt hfresh)
  · rcases Nat.lt_or_eq_of_le (List.length_erase_le (a := s.realPath) (l := fresh)) with hlt | heq
    · exact Prod.Lex.left _ _ hlt
    · rw [heq]
      refine Prod.Lex.right _ (Prod.Lex.left _ _ ?_)
      subst_vars
      simp only [Entry.directory.sizeOf_spec]
      omega

end

end FileSystem

end RepoSurvey
