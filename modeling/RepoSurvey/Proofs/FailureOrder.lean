import RepoSurvey.Proofs.Findings
import RepoSurvey.Proofs.Isolation

/-!
The order in which a walk notes failures. What could not be visited is noted when it is found, and what came
of the source files only afterwards, so the failures are in two parts. Each part is in the order of the walk,
and both together are exactly if no source file that ends in a failure was found before something that could
not be visited.
-/

namespace RepoSurvey

/-- Moving some elements of a list to its front, in their order, keeps the list in order exactly if none of
them stood behind another element. -/
theorem pairwise_filter_append_iff {α : Type} {R : α → α → Prop} {l : List α} (hR : ∀ a b, R a b → ¬ R b a)
    (h : l.Pairwise R) (p : α → Bool) :
    (l.filter p ++ l.filter fun a => !p a).Pairwise R ↔ l.Pairwise fun a b => p b = true → p a = true := by
  rw [List.pairwise_append]
  constructor
  · rintro ⟨-, -, hcross⟩
    refine h.imp_of_mem ?_
    intro a b ha hb hab hpb
    -- An element that stays behind would now come after `b`, which it was before.
    by_contra hpa
    have hback := hcross b (List.mem_filter.mpr ⟨hb, hpb⟩) a (List.mem_filter.mpr ⟨ha, by simpa using hpa⟩)
    exact hR a b hab hback
  · intro hfront
    refine ⟨h.filter p, h.filter _, ?_⟩
    intro a ha b hb
    obtain ⟨ha, hpa⟩ := List.mem_filter.mp ha
    obtain ⟨hb, hpb⟩ := List.mem_filter.mp hb
    have hne : a ≠ b := by
      rintro rfl
      simp [hpa] at hpb
    rcases either_of_pairwise (h.and hfront) ha hb hne with ⟨hab, -⟩ | ⟨-, hback⟩
    · exact hab
    · simp [hback hpa] at hpb

/-- What a discovery is found under. -/
def Discovery.path : Discovery → Path
  | .file path => path
  | .broken path _ => path

theorem Sight.path_of_found {sight : Sight} {p : Path} {d : Discovery} (h : sight.found p = some d) :
    d.path = p := by
  cases sight with
  | file =>
    obtain rfl := Option.some.inj h
    rfl
  | broken message =>
    obtain rfl := Option.some.inj h
    rfl
  | folder items => cases h

namespace FileSystem

/-- The failure that a source file ends in that was found, if it cannot be read or has no syntax tree. -/
def failureOf (fs : FileSystem) (narrator : Narrator) (root : Path) (d : Discovery) :
    Option (String × Failure) :=
  (d.candidate? root).bind fun c => (c.process narrator fs).failure?.map (c.relative, ·)

/-- The failure that comes of what was found, if any does. -/
def noteOn (fs : FileSystem) (narrator : Narrator) (root : Path) (d : Discovery) :
    Option (String × Failure) :=
  (d.failure? root).or (fs.failureOf narrator root d)

variable {fs : FileSystem} {scope : Scope} {narrator : Narrator} {mode : Mode} {root : Path}
  {d : Discovery} {way : List FileName}

theorem failureOf_of_not_isFile (h : d.isFile = false) : fs.failureOf narrator root d = none := by
  cases d with
  | file path => cases h
  | broken path message => rfl

theorem noteOn_of_isFile (h : d.isFile = true) :
    fs.noteOn narrator root d = fs.failureOf narrator root d := by
  cases d with
  | file path => rfl
  | broken path message => cases h

theorem noteOn_of_not_isFile (h : d.isFile = false) : fs.noteOn narrator root d = d.failure? root := by
  rw [noteOn, failureOf_of_not_isFile h, Option.or_none]

theorem isSome_failureOf (d : Discovery) : (fs.failureOf narrator root d).isSome =
    ((fs.noteOn narrator root d).isSome && d.isFile) := by
  cases hfile : d.isFile with
  | true => rw [noteOn_of_isFile hfile, Bool.and_true]
  | false => rw [failureOf_of_not_isFile hfile, Bool.and_false, Option.isSome_none]

theorem isSome_failure? (fs : FileSystem) (narrator : Narrator) (d : Discovery) : (d.failure? root).isSome =
    ((fs.noteOn narrator root d).isSome && !d.isFile) := by
  cases d with
  | file path => exact (Bool.and_false _).symm
  | broken path message => rw [noteOn_of_not_isFile rfl, Discovery.isFile, Bool.not_false, Bool.and_true]

/-- A failure is noted with the path of what was found. -/
theorem path_of_noteOn {f : String × Failure} (h : fs.noteOn narrator root d = some f) :
    f.1 = root.relative d.path := by
  cases d with
  | file path =>
    rw [noteOn_of_isFile rfl] at h
    obtain ⟨c, hc, hf⟩ := Option.bind_eq_some_iff.mp h
    obtain ⟨failure, -, rfl⟩ := Option.map_eq_some_iff.mp hf
    rw [Discovery.candidate?] at hc
    split at hc
    · obtain rfl := Option.some.inj hc
      rfl
    · cases hc
  | broken path message =>
    rw [noteOn_of_not_isFile rfl, Discovery.failure?] at h
    split at h
    · obtain rfl := Option.some.inj h
      rfl
    · cases h

end FileSystem

/-- What a partial function gives that agrees with another one on some items, and gives nothing on the rest. -/
theorem map_some_filterMap_of_eq {α β : Type} {g h : α → Option β} {keep : α → Bool}
    (hkeep : ∀ a, keep a = true → h a = g a) (hdrop : ∀ a, keep a = false → h a = none) (l : List α) :
    (l.filterMap h).map some = ((l.filter fun a => (g a).isSome).filter keep).map g := by
  have hfilter : l.filterMap h = (l.filter keep).filterMap g := by
    rw [List.filterMap_filter]
    apply List.filterMap_congr
    intro a _
    cases ha : keep a with
    | true => exact hkeep a ha
    | false => exact hdrop a ha
  rw [hfilter, List.map_filterMap_some_eq_filter_map_isSome, List.filter_map, List.filter_comm]
  rfl

/-- Where items stand for values, what holds of each pair holds of the lists. -/
theorem map_eq_map_of_map_some {α β γ : Type} {g : β → Option α} {k : α → γ} {k' : β → γ} {as : List α}
    {bs : List β} (h : as.map some = bs.map g) (hk : ∀ b ∈ bs, ∀ a, g b = some a → k a = k' b) :
    as.map k = bs.map k' := by
  induction as generalizing bs with
  | nil =>
    obtain rfl := List.map_eq_nil_iff.mp h.symm
    rfl
  | cons a as ih =>
    cases bs with
    | nil => cases h
    | cons b bs =>
      obtain ⟨ha, has⟩ := List.cons.inj h
      rw [List.map_cons, List.map_cons, hk b List.mem_cons_self a ha.symm,
        ih has fun b hb => hk b (List.mem_cons_of_mem _ hb)]

/-- The failures of a walk against what it found. What ended in a failure is noted, each once, and is in the
order in which it was found exactly if no source file that ended in a failure was found before something that
could not be visited. -/
structure WalkOutcome.NotesFailures (w : WalkOutcome) (fs : FileSystem) (narrator : Narrator) (root : Path)
    (found noted : List (List FileName × Discovery)) : Prop where
  perm : noted.Perm (found.filter fun f => (fs.noteOn narrator root f.2).isSome)
  failures : w.failures.map some = noted.map fun f => fs.noteOn narrator root f.2
  paths : w.failures.map Prod.fst = noted.map fun f => Path.wayText f.1
  inOrder_iff : (noted.map Prod.fst).Pairwise (Parted (fs.DirectoriesLast root)) ↔
    found.Pairwise fun a b => ¬ ((fs.failureOf narrator root a.2).isSome ∧ (b.2.failure? root).isSome)

namespace FileSystem

variable {fs : FileSystem} {scope : Scope} {narrator : Narrator} {mode : Mode} {root : Path}

theorem failures_collect (ds : List Discovery) :
    (WalkOutcome.collect root ds (fs.outcomesOf narrator root ds)).failures =
      ds.filterMap (Discovery.failure? root) ++ ds.filterMap (fs.failureOf narrator root) := by
  rw [(fs.collect_madeOf narrator root ds).failures, traceOf, candidatesOf, List.filterMap_map,
    List.filterMap_filterMap]
  rfl

/-- What ended in a failure, in the order in which a walk notes it: what could not be visited comes first. -/
def notedAmong (fs : FileSystem) (narrator : Narrator) (root : Path)
    (found : List (List FileName × Discovery)) : List (List FileName × Discovery) :=
  let failing := found.filter fun f => (fs.noteOn narrator root f.2).isSome
  failing.filter (fun f => !f.2.isFile) ++ failing.filter fun f => f.2.isFile

variable {found : List (List FileName × Discovery)}

theorem notedAmong_perm :
    (fs.notedAmong narrator root found).Perm (found.filter fun f => (fs.noteOn narrator root f.2).isSome) := by
  have hperm := List.filter_append_perm (fun f : List FileName × Discovery => !f.2.isFile)
    (found.filter fun f => (fs.noteOn narrator root f.2).isSome)
  simp only [Bool.not_not] at hperm
  exact hperm

/-- The failures that are collected are those of what is noted, one for each. -/
theorem map_some_failures_collect (fs : FileSystem) (narrator : Narrator) (root : Path)
    (found : List (List FileName × Discovery)) :
    (WalkOutcome.collect root (found.map Prod.snd)
      (fs.outcomesOf narrator root (found.map Prod.snd))).failures.map some =
        (fs.notedAmong narrator root found).map fun f => fs.noteOn narrator root f.2 := by
  rw [failures_collect, notedAmong, List.map_append, List.map_append, List.filterMap_map, List.filterMap_map]
  congr 1
  · apply map_some_filterMap_of_eq
    · intro f hf
      exact (noteOn_of_not_isFile (by simpa using hf)).symm
    · rintro ⟨way, d⟩ hf
      cases d with
      | file path => rfl
      | broken path message => cases hf
  · apply map_some_filterMap_of_eq
    · intro f hf
      exact (noteOn_of_isFile hf).symm
    · intro f hf
      exact failureOf_of_not_isFile hf

/-- What is noted stays in the order in which it was found exactly if nothing that could not be visited was
found behind a source file that ended in a failure. -/
theorem pairwise_notedAmong_iff
    (hown : (found.map Prod.fst).Pairwise (Parted (fs.DirectoriesLast root))) :
    ((fs.notedAmong narrator root found).map Prod.fst).Pairwise (Parted (fs.DirectoriesLast root)) ↔
      found.Pairwise fun a b =>
        ¬ ((fs.failureOf narrator root a.2).isSome ∧ (b.2.failure? root).isSome) := by
  have hasymm (a b : List FileName × Discovery) (h : Parted (fs.DirectoriesLast root) a.1 b.1) :
      ¬ Parted (fs.DirectoriesLast root) b.1 a.1 :=
    Parted.asymm (fun _ _ _ => DirectoriesLast.asymm) h
  have hfailing := (List.pairwise_map.mp hown).filter fun f => (fs.noteOn narrator root f.2).isSome
  have hmoved := pairwise_filter_append_iff hasymm hfailing fun f => !f.2.isFile
  simp only [Bool.not_not] at hmoved
  rw [notedAmong, List.pairwise_map, hmoved, List.pairwise_filter]
  apply List.Pairwise.iff
  intro a b
  rw [isSome_failureOf, isSome_failure? fs narrator]
  -- Whether both end in a failure and whether they are files settles either side.
  generalize (fs.noteOn narrator root a.2).isSome = failsA
  generalize (fs.noteOn narrator root b.2).isSome = failsB
  generalize a.2.isFile = fileA
  generalize b.2.isFile = fileB
  revert failsA failsB fileA fileB
  decide

/-- What a walk collects from what it found, in its order, with proper ways. -/
theorem notesFailures_collect (narrator : Narrator)
    (hpaths : ∀ f ∈ found, f.2.path = root.below f.1 ∧ ∀ n ∈ f.1, FileName.IsProper n)
    (hown : (found.map Prod.fst).Pairwise (Parted (fs.DirectoriesLast root))) :
    (WalkOutcome.collect root (found.map Prod.snd)
      (fs.outcomesOf narrator root (found.map Prod.snd))).NotesFailures fs narrator root found
        (fs.notedAmong narrator root found) := by
  have hfailures := map_some_failures_collect fs narrator root found
  refine ⟨notedAmong_perm, hfailures, map_eq_map_of_map_some hfailures ?_, pairwise_notedAmong_iff hown⟩
  intro f hf failure hfailure
  have hfound := (List.mem_filter.mp (notedAmong_perm.mem_iff.mp hf)).1
  obtain ⟨hpath, hproper⟩ := hpaths f hfound
  rw [path_of_noteOn hfailure, hpath, Path.relative_below root hproper]

/-- The failures of a walk are in the order in which it meets what they concern exactly if no source file that
ends in a failure is met before something that cannot be visited. -/
theorem walk_notesFailures {w : WalkOutcome} {updates : List Update} (hfs : fs.WellFormed)
    (h : fs.walk scope narrator mode root = .ok (w, updates)) :
    ∃ found noted, fs.discoveries scope root = .ok (found.map Prod.snd) ∧
      (∀ f ∈ found, f.2.path = root.below f.1) ∧
      (found.map Prod.fst).Pairwise (Parted (fs.DirectoriesLast root)) ∧
      w.NotesFailures fs narrator root found noted := by
  obtain ⟨sight, hsight, rfl⟩ := walk_eq_ok h
  have hown := pairwise_finds_of_rootSight hfs hsight
  have hpaths : ∀ f ∈ sight.finds root, f.2.path = root.below f.1 ∧ ∀ n ∈ f.1, FileName.IsProper n := by
    rintro ⟨way, d⟩ hf
    obtain ⟨last, hlast, hfound⟩ := Sight.mem_finds.mp hf
    exact ⟨Sight.path_of_found hfound, proper_of_at hfs hsight hlast⟩
  have hnoted := notesFailures_collect narrator hpaths hown
  rw [Sight.map_snd_finds] at hnoted
  refine ⟨_, _, ?_, fun f hf => (hpaths f hf).1, hown, hnoted⟩
  rw [discoveries, hsight, Sight.map_snd_finds]
  rfl

section

/-- A directory `r` with a file `a.py` that cannot be read, and a link `b.py` that leads nowhere. -/
def unreadable : FileSystem where
  entries := [([0x72], .directory [([0x61, dot, 0x70, 0x79], .file (.error (.system 13))),
    ([0x62, dot, 0x70, 0x79], .link [0x71])])]
  current := []

theorem stat_unreadable : unreadable.stat [0x72] =
    .ok ⟨.directory [([0x61, dot, 0x70, 0x79], .file (.error (.system 13))),
      ([0x62, dot, 0x70, 0x79], .link [0x71])], [([0x72], .directory unreadable.entries)]⟩ := by
  cbv

/-- The walk finds `a.py` first, but it notes `b.py` first. -/
theorem unreadable_order : unreadable.WellFormed ∧
    (unreadable.discoveries ⟨[], false⟩ [0x72]).map (fun ds => ds.map Discovery.path) =
      .ok [Path.below [0x72] [[0x61, dot, 0x70, 0x79]], Path.below [0x72] [[0x62, dot, 0x70, 0x79]]] ∧
    Parted (unreadable.DirectoriesLast [0x72]) [[0x61, dot, 0x70, 0x79]] [[0x62, dot, 0x70, 0x79]] ∧
    (unreadable.walk ⟨[], false⟩ .silent .sequential [0x72]).map (fun r => r.1.failures.map Prod.fst) =
      .ok [Path.wayText [[0x62, dot, 0x70, 0x79]], Path.wayText [[0x61, dot, 0x70, 0x79]]] := by
  refine ⟨by decide, by cbv, ?_, by cbv⟩
  rw [Parted.cons_cons_iff (by decide)]
  refine Or.inr ⟨?_, by decide⟩
  cbv

theorem walk_notesFailures_unreadable : unreadable.WellFormed ∧ ∃ w updates,
    unreadable.walk ⟨[], false⟩ .silent .sequential [0x72] = .ok (w, updates) ∧
      ∃ found noted, unreadable.discoveries ⟨[], false⟩ [0x72] = .ok (found.map Prod.snd) ∧
        (∀ f ∈ found, f.2.path = Path.below [0x72] f.1) ∧
        (found.map Prod.fst).Pairwise (Parted (unreadable.DirectoriesLast [0x72])) ∧
        w.NotesFailures unreadable .silent [0x72] found noted := by
  have hfs : unreadable.WellFormed := by decide
  obtain ⟨⟨w, updates⟩, hwalk⟩ : ∃ result,
      unreadable.walk ⟨[], false⟩ .silent .sequential [0x72] = .ok result :=
    exists_walk_of_directory stat_unreadable rfl .silent .sequential
  exact ⟨hfs, w, updates, hwalk, walk_notesFailures hfs hwalk⟩

end

end FileSystem

end RepoSurvey
