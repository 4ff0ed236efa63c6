import RepoSurvey.Proofs.Snapshot

/-!
Snapshots without the contents of their files. Where a path leads, what a directory lists and which
directories there are can be told from a snapshot in which every file has been emptied, so none of it
depends on what the files hold or on whether they can be read.
-/

namespace RepoSurvey

mutual

/-- An entry in which every file has been emptied. -/
def Entry.emptied : Entry → Entry
  | .file _ => .file (.ok [])
  | .special => .special
  | .link target => .link target
  | .directory l fault => .directory (Listing.emptied l) fault
termination_by structural e => e

def Listing.emptied : Listing → Listing
  | [] => []
  | item :: rest => Listing.emptiedItem item :: Listing.emptied rest
termination_by structural l => l

def Listing.emptiedItem : FileName × Entry → FileName × Entry
  | (n, e) => (n, e.emptied)
termination_by structural item => item

end

/-- A place in a snapshot in which every file has been emptied. -/
def Standing.emptied (s : Standing) : Standing :=
  ⟨s.entry.emptied, s.above.map (Prod.map id Entry.emptied)⟩

def Arrival.emptied : Arrival → Arrival
  | .reached s => .reached s.emptied
  | .vacant s n => .vacant s.emptied n

def FileSystem.emptied (fs : FileSystem) : FileSystem := { fs with entries := Listing.emptied fs.entries }

/-- Two snapshots that differ at most in what their files hold and in whether these can be read. -/
def FileSystem.Alike (fs fs' : FileSystem) : Prop := fs.emptied = fs'.emptied

@[simp]
theorem Listing.emptied_cons (n : FileName) (e : Entry) (l : Listing) :
    Listing.emptied ((n, e) :: l) = (n, e.emptied) :: Listing.emptied l := rfl

theorem Listing.emptied_eq_map (l : Listing) :
    Listing.emptied l = l.map (Prod.map id Entry.emptied) := by
  induction l with
  | nil => rfl
  | cons item rest ih =>
    obtain ⟨n, e⟩ := item
    rw [Listing.emptied_cons, List.map_cons, ih]
    rfl

@[simp]
theorem Listing.map_fst_emptied (l : Listing) : (Listing.emptied l).map Prod.fst = l.map Prod.fst := by
  rw [emptied_eq_map, List.map_map]
  rfl

@[simp]
theorem Listing.lookup_emptied (l : Listing) (n : FileName) :
    (Listing.emptied l).lookup n = (l.lookup n).map Entry.emptied := by
  induction l with
  | nil => rfl
  | cons item rest ih =>
    obtain ⟨m, e⟩ := item
    rw [emptied_cons, List.lookup_cons, List.lookup_cons, ih]
    cases n == m <;> rfl

@[simp]
theorem Entry.isDirectory_emptied (e : Entry) : e.emptied.isDirectory = e.isDirectory := by
  cases e <;> rfl

@[simp]
theorem Entry.isLink_emptied (e : Entry) : e.emptied.isLink = e.isLink := by
  cases e <;> rfl

/-- What is listed, and whether anything is, depends on no content. -/
theorem Entry.listing_emptied (e : Entry) : e.emptied.listing = e.listing.map Listing.emptied := by
  cases e with
  | directory l fault => cases fault <;> rfl
  | _ => rfl

namespace Standing

variable (s : Standing)

@[simp]
theorem realPath_emptied : s.emptied.realPath = s.realPath := by
  rw [realPath, realPath, emptied, List.map_map]
  rfl

@[simp]
theorem entry_emptied : s.emptied.entry = s.entry.emptied := rfl

theorem refuses_emptied (room : Option Nat) (n : FileName) :
    s.emptied.Refuses room n ↔ s.Refuses room n := by
  rw [Refuses, Refuses, realPath_emptied]

theorem parent_emptied : s.emptied.parent = s.parent.emptied := by
  obtain ⟨e, above⟩ := s
  cases above with
  | nil => rfl
  | cons item above => rfl

theorem child_emptied (n : FileName) (e : Entry) :
    s.emptied.child n e.emptied = (s.child n e).emptied := rfl

theorem entry_emptied_of_directory {s : Standing} {l : Listing} {fault : Option IoError}
    (h : s.entry = .directory l fault) :
    s.emptied.entry = .directory (Listing.emptied l) fault := by
  rw [entry_emptied, h]
  rfl

end Standing

namespace FileSystem

variable (fs : FileSystem)

theorem exists_directory_of_emptied {s : Standing} {l : Listing} {fault : Option IoError}
    (h : s.emptied.entry = .directory l fault) : ∃ l', s.entry = .directory l' fault := by
  rw [Standing.entry_emptied] at h
  cases he : s.entry with
  | directory l' fault' =>
    rw [he] at h
    obtain ⟨-, rfl⟩ := Entry.directory.inj h
    exact ⟨l', rfl⟩
  | file content =>
    rw [he] at h
    cases h
  | special =>
    rw [he] at h
    cases h
  | link target =>
    rw [he] at h
    cases h

theorem top_emptied : fs.emptied.top = fs.top.emptied := rfl

/-- Names lead to the same place, whatever the files hold. -/
theorem follow_emptied (last : Bool) (room : Option Nat) (links : Nat) (s : Standing)
    (names : List FileName) :
    fs.emptied.follow last room links s.emptied names =
      (fs.follow last room links s names).map Arrival.emptied := by
  -- Each step depends on the name, the real path and the kind of the entry, none of which is lost.
  fun_induction follow fs last room links s names
  case case1 =>
    rw [follow]
    rfl
  case case2 hentry ih => rw [follow_here last (Standing.entry_emptied_of_directory hentry), ih]
  case case3 s names entries _ hentry _ ih =>
    rw [follow_up last (Standing.entry_emptied_of_directory hentry), Standing.parent_emptied, ih]
  case case4 s n names entries _ hentry hdot hdots hrefuses =>
    have hrefuses' := (s.refuses_emptied room n).mpr hrefuses
    rw [follow_refused last (Standing.entry_emptied_of_directory hentry) hdot hdots hrefuses']
    rfl
  case case5 s n entries _ hentry hdot hdots hfits hn =>
    have hfits' := (s.refuses_emptied room n).not.mpr hfits
    rw [follow_name last (Standing.entry_emptied_of_directory hentry) hdot hdots hfits',
      Listing.lookup_emptied, hn]
    rfl
  case case6 s n names entries _ hentry hdot hdots hfits hn hmore =>
    have hfits' := (s.refuses_emptied room n).not.mpr hfits
    rw [follow_name last (Standing.entry_emptied_of_directory hentry) hdot hdots hfits',
      Listing.lookup_emptied, hn]
    exact if_neg hmore
  case case7 s n names entries _ hentry hdot hdots hfits target hn hlast =>
    have hfits' := (s.refuses_emptied room n).not.mpr hfits
    rw [follow_name last (Standing.entry_emptied_of_directory hentry) hdot hdots hfits',
      Listing.lookup_emptied, hn]
    exact if_pos hlast
  case case8 s n names entries _ hentry hdot hdots hfits target hn hlast =>
    have hfits' := (s.refuses_emptied room n).not.mpr hfits
    rw [follow_name last (Standing.entry_emptied_of_directory hentry) hdot hdots hfits',
      Listing.lookup_emptied, hn]
    exact if_neg hlast
  case case9 s n names entries _ hentry hdot hdots hfits target hn hlast links ih =>
    have hfits' := (s.refuses_emptied room n).not.mpr hfits
    rw [follow_name last (Standing.entry_emptied_of_directory hentry) hdot hdots hfits',
      Listing.lookup_emptied, hn]
    refine (if_neg hlast).trans ?_
    by_cases habs : target.isAbsolute = true
    · rw [dif_pos habs] at ih
      rw [if_pos habs, if_pos habs, top_emptied]
      exact ih
    · rw [dif_neg habs] at ih
      rw [if_neg habs, if_neg habs]
      exact ih
  case case10 s n names entries _ hentry hdot hdots hfits e hnot hn ih =>
    have hfits' := (s.refuses_emptied room n).not.mpr hfits
    have hnot' : ∀ target, e.emptied ≠ .link target := by
      intro target he
      cases e with
      | link other => exact hnot other rfl
      | _ => cases he
    have hn' : (Listing.emptied entries).lookup n = some e.emptied := by
      rw [Listing.lookup_emptied, hn, Option.map_some]
    rw [follow_child last (Standing.entry_emptied_of_directory hentry) hdot hdots hfits' hn' hnot',
      Standing.child_emptied, ih]
  case case11 s n names hnot =>
    have hnot' : ∀ l fault, s.emptied.entry ≠ .directory l fault := by
      intro l fault hl
      obtain ⟨l', hl'⟩ := exists_directory_of_emptied hl
      exact hnot l' fault hl'
    rw [follow]
    split
    · exact absurd ‹_› (hnot' _ _)
    · rfl

theorem entryOf_emptied (a : Except IoError Arrival) :
    entryOf (a.map Arrival.emptied) = (entryOf a).map Standing.emptied := by
  cases a with
  | error e => rfl
  | ok arrival => cases arrival <;> rfl

theorem standingAt_emptied (p : RealPath) : fs.emptied.standingAt p = (fs.standingAt p).emptied := by
  unfold standingAt
  rw [top_emptied, follow_emptied]
  cases fs.follow false none 0 fs.top p with
  | error e => rfl
  | ok arrival => cases arrival <;> rfl

theorem start_emptied (p : Path) : fs.emptied.start p = (fs.start p).emptied := by
  unfold start
  split
  · rfl
  · exact fs.standingAt_emptied fs.current

theorem arrive_emptied (last : Bool) (p : Path) :
    fs.emptied.arrive last p = (fs.arrive last p).map Arrival.emptied := by
  unfold arrive
  rw [start_emptied, follow_emptied]
  repeat' split
  all_goals rfl

theorem stat_emptied (p : Path) : fs.emptied.stat p = (fs.stat p).map Standing.emptied := by
  unfold stat
  rw [arrive_emptied, entryOf_emptied]

theorem lstat_emptied (p : Path) : fs.emptied.lstat p = (fs.lstat p).map Standing.emptied := by
  unfold lstat
  rw [arrive_emptied, entryOf_emptied]

theorem resolve_emptied (p : Path) : fs.emptied.resolve p = (fs.resolve p).map Standing.emptied := by
  unfold resolve
  rw [start_emptied, follow_emptied, entryOf_emptied]
  repeat' split
  all_goals rfl

theorem isDirectory_emptied (p : Path) : fs.emptied.isDirectory p = fs.isDirectory p := by
  unfold isDirectory
  rw [stat_emptied]
  cases fs.stat p with
  | error e => rfl
  | ok s => exact s.entry.isDirectory_emptied

theorem isLink_emptied (p : Path) : fs.emptied.isLink p = fs.isLink p := by
  unfold isLink
  rw [lstat_emptied]
  cases fs.lstat p with
  | error e => rfl
  | ok s => exact s.entry.isLink_emptied

theorem list_emptied (p : Path) : fs.emptied.list p = (fs.list p).map Listing.emptied := by
  unfold list
  rw [stat_emptied]
  cases fs.stat p with
  | error e => rfl
  | ok s => exact s.entry.listing_emptied

theorem directoriesBelow_emptied (above : RealPath) (l : Listing) :
    directoriesBelow above (Listing.emptied l) = directoriesBelow above l := by
  fun_induction directoriesBelow above l with
  | case1 => rw [Listing.emptied, directoriesBelow]
  | case2 above n inner _ rest hinner hrest =>
    rw [Listing.emptied_cons, Entry.emptied, directoriesBelow, hinner, hrest]
  | case3 above item rest hnot ih =>
    obtain ⟨n, e⟩ := item
    rw [Listing.emptied_cons]
    cases e with
    | directory inner fault => exact absurd rfl (hnot n inner fault)
    | _ =>
      rw [Entry.emptied, directoriesBelow, ih]
      intro m inner fault h
      cases h

theorem directories_emptied : fs.emptied.directories = fs.directories :=
  congrArg ([] :: ·) (directoriesBelow_emptied [] fs.entries)

end FileSystem

end RepoSurvey
