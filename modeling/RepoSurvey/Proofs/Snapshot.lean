import Mathlib
import RepoSurvey.Proofs.Following

/-!
What holds throughout a snapshot of a file system. Whatever following a path reaches stands in the
snapshot under its real path, so what holds of every listing holds of each listing that is reached.
-/

namespace RepoSurvey

/-- The names and entries of a directory. -/
abbrev Listing := List (FileName × Entry)

mutual

/-- Whether an entry, if it is a directory, has a property throughout. -/
def Entry.holds (P : Listing → Prop) [DecidablePred P] : Entry → Bool
  | .directory inner _ => decide (P inner) && Listing.holdInside P inner
  | _ => true
termination_by structural e => e

/-- Whether each directory of a listing has a property throughout. -/
def Listing.holdInside (P : Listing → Prop) [DecidablePred P] : Listing → Bool
  | [] => true
  | item :: rest => Listing.holdsAt P item && Listing.holdInside P rest
termination_by structural l => l

/-- Whether an item of a listing, if it is a directory, has a property throughout. -/
def Listing.holdsAt (P : Listing → Prop) [DecidablePred P] : FileName × Entry → Bool
  | (_, e) => e.holds P
termination_by structural item => item

end

namespace Listing

/-- No two entries of a directory have the same name, and all can be called what they are. -/
structure IsProper (l : Listing) : Prop where
  nodup : (l.map Prod.fst).Nodup
  proper : ∀ n ∈ l.map Prod.fst, FileName.IsProper n

instance (l : Listing) : Decidable l.IsProper :=
  decidable_of_iff ((l.map Prod.fst).Nodup ∧ ∀ n ∈ l.map Prod.fst, FileName.IsProper n)
    ⟨fun ⟨a, b⟩ => ⟨a, b⟩, fun ⟨a, b⟩ => ⟨a, b⟩⟩

theorem mem_of_lookup {l : Listing} {n : FileName} {e : Entry} (h : l.lookup n = some e) :
    (n, e) ∈ l := by
  obtain ⟨before, after, rfl, -⟩ := List.lookup_eq_some_iff.mp h
  simp

theorem lookup_of_mem {l : Listing} (hl : (l.map Prod.fst).Nodup) {n : FileName} {e : Entry}
    (h : (n, e) ∈ l) : l.lookup n = some e := by
  induction l with
  | nil => simp at h
  | cons a l ih =>
    obtain ⟨m, e'⟩ := a
    rw [List.map_cons, List.nodup_cons] at hl
    rcases List.mem_cons.mp h with he | hmem
    · obtain ⟨rfl, rfl⟩ := Prod.mk.inj he
      simp
    · have hne : n ≠ m := by
        rintro rfl
        exact hl.1 (List.mem_map.mpr ⟨(n, e), hmem, rfl⟩)
      rw [List.lookup_cons, show (n == m) = false by simpa using hne]
      exact ih hl.2 hmem

/-- A property of a directory and of all directories that stand below it. -/
inductive Throughout (P : Listing → Prop) : Listing → Prop where
  | intro {l : Listing} (hl : P l)
      (hinner : ∀ n inner fault, (n, Entry.directory inner fault) ∈ l → Throughout P inner) :
      Throughout P l

theorem Throughout.here {P : Listing → Prop} {l : Listing} (h : Throughout P l) : P l := by
  cases h with
  | intro hl _ => exact hl

theorem Throughout.inside {P : Listing → Prop} {l inner : Listing} {n : FileName}
    {fault : Option IoError} (h : Throughout P l) (hn : (n, Entry.directory inner fault) ∈ l) :
    Throughout P inner := by
  cases h with
  | intro _ hinner => exact hinner n inner fault hn

theorem Throughout.tail {a : FileName × Entry} {l : Listing}
    (h : Throughout IsProper (a :: l)) : Throughout IsProper l := by
  have hl := h.here
  refine .intro ⟨?_, fun n hn => hl.proper n (List.mem_cons_of_mem _ hn)⟩ ?_
  · exact (List.nodup_cons.mp hl.nodup).2
  · intro n inner fault hn
    exact h.inside (List.mem_cons_of_mem a hn)

theorem holdInside_iff {P : Listing → Prop} [DecidablePred P] (l : Listing) :
    holdInside P l = true ↔
      ∀ n inner fault, (n, Entry.directory inner fault) ∈ l → Throughout P inner := by
  cases l with
  | nil => simp [holdInside]
  | cons item rest =>
    obtain ⟨m, e⟩ := item
    rw [holdInside, holdsAt, Bool.and_eq_true, holdInside_iff rest]
    have hhead : e.holds P = true ↔
        ∀ inner fault, e = .directory inner fault → Throughout P inner := by
      cases e with
      | directory inner fault =>
        rw [Entry.holds, Bool.and_eq_true, decide_eq_true_eq, holdInside_iff inner]
        constructor
        · rintro ⟨hP, hin⟩ _ _ heq
          obtain ⟨rfl, -⟩ := Entry.directory.inj heq
          exact .intro hP hin
        · intro h
          have hinner := h inner fault rfl
          exact ⟨hinner.here, fun _ _ _ hn => hinner.inside hn⟩
      | file content => simp [Entry.holds]
      | special => simp [Entry.holds]
      | link target => simp [Entry.holds]
    rw [hhead]
    constructor
    · rintro ⟨hm, hrest⟩ n inner fault hn
      rcases List.mem_cons.mp hn with heq | hn
      · exact hm inner fault (Prod.mk.inj heq).2.symm
      · exact hrest n inner fault hn
    · intro h
      refine ⟨fun inner fault heq => h m inner fault (heq ▸ List.mem_cons_self), ?_⟩
      exact fun n inner fault hn => h n inner fault (List.mem_cons_of_mem _ hn)
termination_by sizeOf l

instance (P : Listing → Prop) [DecidablePred P] (l : Listing) : Decidable (Throughout P l) :=
  decidable_of_iff (P l ∧ holdInside P l = true)
    ⟨fun ⟨hP, h⟩ => .intro hP ((holdInside_iff l).mp h),
      fun h => ⟨h.here, (holdInside_iff l).mpr fun _ _ _ hn => h.inside hn⟩⟩

end Listing

namespace FileSystem

/-- A snapshot such as a file system can have: every listing is proper. -/
def WellFormed (fs : FileSystem) : Prop := Listing.Throughout Listing.IsProper fs.entries

instance (fs : FileSystem) : Decidable fs.WellFormed :=
  inferInstanceAs (Decidable (Listing.Throughout Listing.IsProper fs.entries))

/-- An entry stands in the snapshot where its real path says. -/
inductive Placed (fs : FileSystem) : Standing → Prop where
  | top : Placed fs fs.top
  | child {s : Standing} {n : FileName} {e : Entry} {entries : Listing} {fault : Option IoError}
      (h : Placed fs s) (hs : s.entry = .directory entries fault) (hn : entries.lookup n = some e) :
      Placed fs (s.child n e)

section

variable {fs : FileSystem} {s t : Standing} {p : Path} {entries : Listing} {fault : Option IoError}

theorem Placed.parent (h : Placed fs s) : Placed fs s.parent := by
  cases h with
  | top => exact .top
  | child h _ _ => exact h

theorem Placed.of_follow {last : Bool} {room : Option Nat} {links : Nat} {names : List FileName}
    (hs : Placed fs s) (h : fs.follow last room links s names = .ok (.reached t)) :
    Placed fs t := by
  fun_induction follow fs last room links s names
  -- Where following ends, starts over at the top, or goes up or down, the place stands in `fs`.
  case case1 =>
    obtain rfl : _ = t := by simpa using h
    exact hs
  case case2 ih => exact ih hs h
  case case3 ih => exact ih hs.parent h
  case case7 hentry _ _ _ _ hn _ =>
    obtain rfl : _ = t := by simpa using h
    exact hs.child hentry hn
  case case9 target _ _ _ ih =>
    refine ih ?_ h
    by_cases habs : target.isAbsolute = true
    · simpa [habs] using Placed.top
    · simpa [habs] using hs
  case case10 hentry _ _ _ _ _ hn ih => exact ih (hs.child hentry hn) h
  all_goals cases h

theorem placed_start (fs : FileSystem) (p : Path) : Placed fs (fs.start p) := by
  unfold start
  split
  · exact .top
  · unfold standingAt
    split
    · exact Placed.top.of_follow ‹_›
    · exact .top

theorem Placed.of_arrive {last : Bool} (h : fs.arrive last p = .ok (.reached s)) : Placed fs s := by
  unfold arrive at h
  split at h
  · cases h
  · split at h
    · cases h
    · split at h
      · cases h
      · exact (placed_start fs p).of_follow h

theorem Placed.of_stat (h : fs.stat p = .ok s) : Placed fs s := .of_arrive (reached_of_entryOf h)

/-- What holds throughout a snapshot holds of every directory in it. -/
theorem Placed.throughout {P : Listing → Prop} (h : Placed fs s)
    (hP : Listing.Throughout P fs.entries) (hs : s.entry = .directory entries fault) :
    Listing.Throughout P entries := by
  induction h generalizing entries fault with
  | top =>
    obtain ⟨rfl, -⟩ := Entry.directory.inj hs
    exact hP
  | child h hparent hn ih =>
    obtain rfl : _ = Entry.directory entries fault := hs
    exact (ih hparent).inside (Listing.mem_of_lookup hn)

theorem realPath_child (s : Standing) (n : FileName) (e : Entry) :
    (s.child n e).realPath = s.realPath ++ [n] := by
  simp [Standing.realPath, Standing.child]

theorem mem_directoriesBelow {n : FileName} {inner : Listing} (above : RealPath)
    (h : (n, Entry.directory inner fault) ∈ entries) :
    above ++ [n] ∈ directoriesBelow above entries ∧
      ∀ q ∈ directoriesBelow (above ++ [n]) inner, q ∈ directoriesBelow above entries := by
  fun_induction directoriesBelow above entries
  case case1 => simp at h
  case case2 m inner' fault' rest _ ih =>
    rcases List.mem_cons.mp h with he | hrest
    · obtain ⟨rfl, hinner⟩ := Prod.mk.inj he
      obtain ⟨rfl, -⟩ := Entry.directory.inj hinner
      exact ⟨by simp, fun q hq => by simp [hq]⟩
    · obtain ⟨hn, hbelow⟩ := ih hrest
      exact ⟨by simp [hn], fun q hq => by simp [hbelow q hq]⟩
  case case3 hother ih =>
    rcases List.mem_cons.mp h with he | hrest
    · exact absurd he.symm (hother n inner fault)
    · exact ih hrest

/-- Every directory that stands in a snapshot is among its directories. -/
theorem Placed.mem_directories (h : Placed fs s) (hs : s.entry = .directory entries fault) :
    s.realPath ∈ fs.directories ∧
      ∀ q ∈ directoriesBelow s.realPath entries, q ∈ fs.directories := by
  induction h generalizing entries fault with
  | top =>
    obtain ⟨rfl, -⟩ := Entry.directory.inj hs
    exact ⟨List.mem_cons_self, fun q hq => List.mem_cons_of_mem [] hq⟩
  | @child s n e parentEntries _ h hparent hn ih =>
    obtain rfl : e = .directory entries fault := hs
    obtain ⟨-, hall⟩ := ih hparent
    obtain ⟨hmem, hbelow⟩ := mem_directoriesBelow s.realPath (Listing.mem_of_lookup hn)
    rw [realPath_child]
    exact ⟨hall _ hmem, fun q hq => hall q (hbelow q hq)⟩

/-- The directories below some entries lie behind the names of these. -/
theorem exists_of_mem_directoriesBelow {above q : RealPath} (h : q ∈ directoriesBelow above entries) :
    ∃ n ∈ entries.map Prod.fst, ∃ rest, q = above ++ n :: rest := by
  fun_induction directoriesBelow above entries
  case case1 => simp at h
  case case2 above n inner _ rest hinner hrest =>
    rcases List.mem_append.mp h with h | h
    · rcases List.mem_cons.mp h with rfl | h
      · exact ⟨n, by simp, [], rfl⟩
      · obtain ⟨m, -, more, rfl⟩ := hinner h
        exact ⟨n, by simp, m :: more, by simp⟩
    · obtain ⟨m, hm, more, rfl⟩ := hrest h
      exact ⟨m, by simpa using Or.inr (by simpa using hm), more, rfl⟩
  case case3 ih =>
    obtain ⟨m, hm, more, rfl⟩ := ih h
    exact ⟨m, List.mem_cons_of_mem _ hm, more, rfl⟩

theorem nodup_directoriesBelow (above : RealPath)
    (h : Listing.Throughout Listing.IsProper entries) :
    (directoriesBelow above entries).Nodup := by
  fun_induction directoriesBelow above entries
  case case1 => exact List.nodup_nil
  case case2 above n inner _ rest hinner hrest =>
    have hnames : n ∉ rest.map Prod.fst := (List.nodup_cons.mp h.here.nodup).1
    -- What lies behind `n` and what lies behind the other names begins differently.
    have hother : ∀ q ∈ directoriesBelow above rest, ∀ more, q ≠ above ++ n :: more := by
      intro q hq more he
      obtain ⟨m, hm, more', rfl⟩ := exists_of_mem_directoriesBelow hq
      have hmn := (List.cons.inj (List.append_cancel_left he)).1
      exact hnames (hmn ▸ hm)
    rw [List.cons_append, List.nodup_cons, List.nodup_append]
    refine ⟨?_, hinner (h.inside List.mem_cons_self), hrest h.tail, ?_⟩
    · intro hmem
      rcases List.mem_append.mp hmem with hmem | hmem
      · obtain ⟨m, -, more, he⟩ := exists_of_mem_directoriesBelow hmem
        simpa using congrArg List.length he
      · exact hother _ hmem [] rfl
    · rintro q hq q' hq' rfl
      obtain ⟨m, -, more, rfl⟩ := exists_of_mem_directoriesBelow hq
      exact hother _ hq' (m :: more) (by simp)
  case case3 ih => exact ih h.tail

theorem WellFormed.nodup_directories (h : fs.WellFormed) : fs.directories.Nodup := by
  refine List.nodup_cons.mpr ⟨?_, nodup_directoriesBelow [] h⟩
  intro hmem
  obtain ⟨n, -, rest, he⟩ := exists_of_mem_directoriesBelow hmem
  simp at he

end

end FileSystem

end RepoSurvey
