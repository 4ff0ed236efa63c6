import RepoSurvey.Proofs.Snapshot

/-!
Snapshots that differ only in the orders in which their directories list what they hold. Following a
path leads to the same place in both, and a file read under a path is the same file.
-/

namespace RepoSurvey

/-- Two entries that are the same but for the orders of the listings in them. No listing has a name
twice. -/
inductive Entry.Reordered : Entry → Entry → Prop where
  | file (content : Except IoError (List UInt8)) : Reordered (.file content) (.file content)
  | special : Reordered .special .special
  | link (target : Path) : Reordered (.link target) (.link target)
  | directory {l l' : Listing} {fault : Option IoError} (distinct : (l.map Prod.fst).Nodup)
      (names : (l.map Prod.fst).Perm (l'.map Prod.fst))
      (entries : ∀ n e e', (n, e) ∈ l → (n, e') ∈ l' → Reordered e e') :
      Reordered (.directory l fault) (.directory l' fault)

/-- Two items of listings have the same name and, but for orders, the same entry. -/
def SameItem (i i' : FileName × Entry) : Prop := i.1 = i'.1 ∧ i.2.Reordered i'.2

theorem map_fst_eq_of_sameItem {l l' : Listing} (h : List.Forall₂ SameItem l l') :
    l.map Prod.fst = l'.map Prod.fst := by
  induction h with
  | nil => rfl
  | cons hi _ ih => rw [List.map_cons, List.map_cons, hi.1, ih]

/-- Two standings at the same place, but for orders. -/
structure Standing.Reordered (s s' : Standing) : Prop where
  entry : s.entry.Reordered s'.entry
  above : List.Forall₂ SameItem s.above s'.above

/-- Two arrivals at the same place, but for orders. -/
inductive Arrival.Reordered : Arrival → Arrival → Prop where
  | reached {s s' : Standing} (h : s.Reordered s') : Reordered (.reached s) (.reached s')
  | vacant {s s' : Standing} (h : s.Reordered s') (n : FileName) :
      Reordered (.vacant s n) (.vacant s' n)

/-- Two results that are the same failure, or values in a relation. -/
inductive Agree {α : Type} (R : α → α → Prop) : Except IoError α → Except IoError α → Prop where
  | error (e : IoError) : Agree R (.error e) (.error e)
  | ok {a a' : α} (h : R a a') : Agree R (.ok a) (.ok a')

/-- Two snapshots that are the same but for the orders in which their directories list what they
hold. -/
structure FileSystem.Reordered (fs fs' : FileSystem) : Prop where
  entries : (Entry.directory fs.entries fs.fault).Reordered (.directory fs'.entries fs'.fault)
  current : fs.current = fs'.current

section

variable {l l' : Listing} {fault fault' : Option IoError} {e e' : Entry} {n : FileName}

theorem Entry.Reordered.isDirectory_eq (h : e.Reordered e') : e.isDirectory = e'.isDirectory := by
  cases h <;> rfl

theorem Entry.Reordered.isLink_eq (h : e.Reordered e') : e.isLink = e'.isLink := by
  cases h <;> rfl

theorem Entry.Reordered.exists_directory (h : (Entry.directory l fault).Reordered e') :
    ∃ l', e' = .directory l' fault := by
  cases h with
  | directory _ _ _ => exact ⟨_, rfl⟩

theorem Entry.Reordered.distinct (h : (Entry.directory l fault).Reordered e') :
    (l.map Prod.fst).Nodup := by
  cases h with
  | directory distinct _ _ => exact distinct

/-- The items of a directory, put in the order of another, are those of the other. -/
theorem Entry.Reordered.exists_perm (h : (Entry.directory l fault).Reordered (.directory l' fault')) :
    ∃ m : Listing, m.Perm l' ∧ List.Forall₂ SameItem l m := by
  cases h with
  | directory distinct names entries =>
    have hdistinct' : (l'.map Prod.fst).Nodup := names.nodup_iff.mp distinct
    have hitem : ∀ i ∈ l, ∃ e', (i.1, e') ∈ l' := by
      intro i hi
      obtain ⟨⟨_, e'⟩, he', hname⟩ := List.mem_map.mp (names.mem_iff.mp (List.mem_map_of_mem hi))
      exact ⟨e', hname ▸ he'⟩
    choose! f hf using hitem
    refine ⟨l.map fun i => (i.1, f i), ?_, ?_⟩
    · have hnames : ((l.map fun i => (i.1, f i)).map Prod.fst) = l.map Prod.fst := by
        simp [Function.comp_def]
      refine (List.perm_ext_iff_of_nodup (.of_map Prod.fst (hnames ▸ distinct))
        (.of_map Prod.fst hdistinct')).mpr fun a => ?_
      constructor
      · intro ha
        obtain ⟨i, hi, rfl⟩ := List.mem_map.mp ha
        exact hf i hi
      · intro ha
        obtain ⟨i, hi, hname⟩ := List.mem_map.mp (names.mem_iff.mpr (List.mem_map_of_mem ha))
        refine List.mem_map.mpr ⟨i, hi, ?_⟩
        have hlook := Listing.lookup_of_mem hdistinct' (hf i hi)
        rw [hname, Listing.lookup_of_mem hdistinct' ha] at hlook
        exact Prod.ext hname (Option.some.inj hlook).symm
    · refine List.forall₂_map_right_iff.mpr (List.forall₂_same.mpr fun i hi => ?_)
      exact ⟨rfl, entries i.1 i.2 (f i) hi (hf i hi)⟩

/-- Under each name, two listings have nothing or the same entry. -/
theorem Entry.Reordered.lookup (h : (Entry.directory l fault).Reordered (.directory l' fault'))
    (n : FileName) :
    (l.lookup n = none ∧ l'.lookup n = none) ∨
      ∃ e e', l.lookup n = some e ∧ l'.lookup n = some e' ∧ e.Reordered e' := by
  cases h with
  | directory distinct names entries =>
    have hdistinct' : (l'.map Prod.fst).Nodup := names.nodup_iff.mp distinct
    by_cases hn : n ∈ l.map Prod.fst
    · obtain ⟨⟨_, e⟩, he, rfl⟩ := List.mem_map.mp hn
      obtain ⟨⟨m, e'⟩, he', hm⟩ := List.mem_map.mp (names.mem_iff.mp hn)
      obtain rfl : m = _ := hm
      exact Or.inr ⟨e, e', Listing.lookup_of_mem distinct he, Listing.lookup_of_mem hdistinct' he',
        entries _ e e' he he'⟩
    · have hnone (k : Listing) (hk : n ∉ k.map Prod.fst) : k.lookup n = none := by
        cases hlook : k.lookup n with
        | none => rfl
        | some e => exact absurd (List.mem_map_of_mem (Listing.mem_of_lookup hlook)) hk
      exact Or.inl ⟨hnone l hn, hnone l' fun hn' => hn (names.mem_iff.mpr hn')⟩

end

namespace Standing.Reordered

variable {s s' : Standing} {fault : Option IoError}

theorem realPath_eq (h : s.Reordered s') : s.realPath = s'.realPath := by
  rw [realPath, realPath, map_fst_eq_of_sameItem h.above]

theorem refuses_iff (h : s.Reordered s') (room : Option Nat) (n : FileName) :
    s.Refuses room n ↔ s'.Refuses room n := by
  rw [Refuses, Refuses, h.realPath_eq]

theorem exists_directory {l : Listing} (h : s.Reordered s') (hl : s.entry = .directory l fault) :
    ∃ l', s'.entry = .directory l' fault := (hl ▸ h.entry).exists_directory

theorem exists_lookup_none {l : Listing} {n : FileName} (h : s.Reordered s')
    (hl : s.entry = .directory l fault) (hn : l.lookup n = none) :
    ∃ l', s'.entry = .directory l' fault ∧ l'.lookup n = none := by
  obtain ⟨l', hl'⟩ := h.exists_directory hl
  obtain ⟨-, hn'⟩ | ⟨e, e', he, -, -⟩ := (hl' ▸ hl ▸ h.entry).lookup n
  · exact ⟨l', hl', hn'⟩
  · rw [hn] at he
    cases he

theorem exists_lookup_some {l : Listing} {n : FileName} {e : Entry} (h : s.Reordered s')
    (hl : s.entry = .directory l fault) (hn : l.lookup n = some e) :
    ∃ l' e', s'.entry = .directory l' fault ∧ l'.lookup n = some e' ∧ e.Reordered e' := by
  obtain ⟨l', hl'⟩ := h.exists_directory hl
  obtain ⟨he, -⟩ | ⟨e₁, e', he, he', hee⟩ := (hl' ▸ hl ▸ h.entry).lookup n
  · rw [hn] at he
    cases he
  · obtain rfl := Option.some.inj (hn.symm.trans he)
    exact ⟨l', e', hl', he', hee⟩

theorem parent (h : s.Reordered s') : s.parent.Reordered s'.parent := by
  obtain ⟨e, above⟩ := s
  obtain ⟨e', above'⟩ := s'
  obtain ⟨hentry, habove⟩ := h
  cases habove with
  | nil => exact ⟨hentry, .nil⟩
  | cons hi habove => exact ⟨hi.2, habove⟩

theorem child (h : s.Reordered s') {e e' : Entry} (he : e.Reordered e') (n : FileName) :
    (s.child n e).Reordered (s'.child n e') :=
  ⟨he, .cons ⟨rfl, h.entry⟩ h.above⟩

end Standing.Reordered

namespace FileSystem

variable {fs fs' : FileSystem} {s s' : Standing}

theorem Reordered.top (h : fs.Reordered fs') : fs.top.Reordered fs'.top := ⟨h.entries, .nil⟩

/-- Following the same names from the same place leads to the same place. -/
theorem Reordered.follow (h : fs.Reordered fs') (last : Bool) (room : Option Nat) (links : Nat)
    (hs : s.Reordered s') (names : List FileName) :
    Agree Arrival.Reordered (fs.follow last room links s names)
      (fs'.follow last room links s' names) := by
  -- Both snapshots take the same branch: it depends on the name, the real path and on which kind of
  -- entry has the name, and none of these depends on an order.
  fun_induction FileSystem.follow fs last room links s names generalizing s'
  case case1 =>
    rw [FileSystem.follow]
    exact .ok (.reached hs)
  case case2 links s names entries _ hentry ih =>
    obtain ⟨entries', hentry'⟩ := hs.exists_directory hentry
    rw [follow_here last hentry']
    exact ih hs
  case case3 links s names entries _ hentry _ ih =>
    obtain ⟨entries', hentry'⟩ := hs.exists_directory hentry
    rw [follow_up last hentry']
    exact ih hs.parent
  case case4 links s n names entries _ hentry hdot hdots hrefuses =>
    obtain ⟨entries', hentry'⟩ := hs.exists_directory hentry
    rw [follow_refused last hentry' hdot hdots ((hs.refuses_iff room n).mp hrefuses)]
    exact .error _
  case case5 links s n entries _ hentry hdot hdots hfits hn =>
    obtain ⟨entries', hentry', hn'⟩ := hs.exists_lookup_none hentry hn
    rw [follow_name last hentry' hdot hdots ((hs.refuses_iff room n).not.mp hfits), hn']
    exact .ok (.vacant hs n)
  case case6 links s n names entries _ hentry hdot hdots hfits hn hmore =>
    obtain ⟨entries', hentry', hn'⟩ := hs.exists_lookup_none hentry hn
    rw [follow_name last hentry' hdot hdots ((hs.refuses_iff room n).not.mp hfits), hn']
    dsimp only
    rw [if_neg hmore]
    exact .error _
  case case7 links s n names entries _ hentry hdot hdots hfits target hn hlast =>
    obtain ⟨entries', e', hentry', hn', he⟩ := hs.exists_lookup_some hentry hn
    cases he
    rw [follow_name last hentry' hdot hdots ((hs.refuses_iff room n).not.mp hfits), hn']
    dsimp only
    rw [if_pos hlast]
    exact .ok (.reached (hs.child (.link target) n))
  case case8 s n names entries _ hentry hdot hdots hfits target hn hlast =>
    obtain ⟨entries', e', hentry', hn', he⟩ := hs.exists_lookup_some hentry hn
    cases he
    rw [follow_name last hentry' hdot hdots ((hs.refuses_iff room n).not.mp hfits), hn']
    dsimp only
    rw [if_neg hlast]
    exact .error _
  case case9 s n names entries _ hentry hdot hdots hfits target hn hlast links ih =>
    obtain ⟨entries', e', hentry', hn', he⟩ := hs.exists_lookup_some hentry hn
    cases he
    rw [follow_name last hentry' hdot hdots ((hs.refuses_iff room n).not.mp hfits), hn']
    dsimp only
    rw [if_neg hlast]
    by_cases habs : target.isAbsolute = true
    · rw [if_pos habs, if_pos habs]
      rw [dif_pos habs] at ih
      exact ih h.top
    · rw [if_neg habs, if_neg habs]
      rw [dif_neg habs] at ih
      exact ih hs
  case case10 links s n names entries _ hentry hdot hdots hfits e hnot hn ih =>
    obtain ⟨entries', e', hentry', hn', he⟩ := hs.exists_lookup_some hentry hn
    have hnot' : ∀ target, e' ≠ .link target := by
      rintro target rfl
      cases he
      exact hnot target rfl
    rw [follow_child last hentry' hdot hdots ((hs.refuses_iff room n).not.mp hfits) hn' hnot']
    exact ih (hs.child he n)
  case case11 links s n names hnot =>
    have hnot' : ∀ l' fault, s'.entry ≠ .directory l' fault := by
      intro l' fault hl'
      obtain ⟨l, hl⟩ : ∃ l, s.entry = .directory l fault := by
        have hentry := hl' ▸ hs.entry
        generalize s.entry = e at hentry
        cases hentry
        exact ⟨_, rfl⟩
      exact hnot l fault hl
    rw [FileSystem.follow]
    split
    · exact absurd ‹_› (hnot' _ _)
    · exact .error _

theorem Agree.entryOf {a a' : Except IoError Arrival} (h : Agree Arrival.Reordered a a') :
    Agree Standing.Reordered (entryOf a) (entryOf a') := by
  cases h with
  | error e => exact .error e
  | ok h =>
    cases h with
    | reached hs => exact .ok hs
    | vacant _ _ => exact .error _

theorem Reordered.standingAt (h : fs.Reordered fs') (p : RealPath) :
    (fs.standingAt p).Reordered (fs'.standingAt p) := by
  have hfollow := h.follow false none 0 h.top p
  unfold FileSystem.standingAt
  generalize fs.follow false none 0 fs.top p = a at hfollow
  generalize fs'.follow false none 0 fs'.top p = a' at hfollow
  cases hfollow with
  | error e => exact h.top
  | ok hs =>
    cases hs with
    | reached hs => exact hs
    | vacant _ _ => exact h.top

theorem Reordered.start (h : fs.Reordered fs') (p : Path) : (fs.start p).Reordered (fs'.start p) := by
  unfold FileSystem.start
  split
  · exact h.top
  · rw [← h.current]
    exact h.standingAt fs.current

theorem Reordered.arrive (h : fs.Reordered fs') (last : Bool) (p : Path) :
    Agree Arrival.Reordered (fs.arrive last p) (fs'.arrive last p) := by
  unfold FileSystem.arrive
  split
  · exact .error _
  · split
    · exact .error _
    · split
      · exact .error _
      · exact h.follow last none linkLimit (h.start p) p.names

/-- A path leads to the same place in both snapshots. -/
theorem Reordered.stat (h : fs.Reordered fs') (p : Path) :
    Agree Standing.Reordered (fs.stat p) (fs'.stat p) :=
  Agree.entryOf (h.arrive true p)

theorem Reordered.lstat (h : fs.Reordered fs') (p : Path) :
    Agree Standing.Reordered (fs.lstat p) (fs'.lstat p) :=
  Agree.entryOf (h.arrive false p)

theorem Reordered.resolve (h : fs.Reordered fs') (p : Path) :
    Agree Standing.Reordered (fs.resolve p) (fs'.resolve p) := by
  unfold FileSystem.resolve
  split
  · exact .error _
  · split
    · exact .error _
    · exact Agree.entryOf (h.follow true (some pathLimit) linkLimit (h.start p) p.names)

theorem Reordered.isDirectory (h : fs.Reordered fs') (p : Path) : fs.isDirectory p = fs'.isDirectory p := by
  have hstat := h.stat p
  unfold FileSystem.isDirectory
  generalize fs.stat p = a at hstat
  generalize fs'.stat p = a' at hstat
  cases hstat with
  | error e => rfl
  | ok hs => exact hs.entry.isDirectory_eq

theorem Reordered.isLink (h : fs.Reordered fs') (p : Path) : fs.isLink p = fs'.isLink p := by
  have hlstat := h.lstat p
  unfold FileSystem.isLink
  generalize fs.lstat p = a at hlstat
  generalize fs'.lstat p = a' at hlstat
  cases hlstat with
  | error e => rfl
  | ok hs => exact hs.entry.isLink_eq

/-- A path leads to a file of the same content in both snapshots. -/
theorem Reordered.read (h : fs.Reordered fs') (p : Path) : fs.read p = fs'.read p := by
  have hstat := h.stat p
  unfold FileSystem.read
  generalize fs.stat p = a at hstat
  generalize fs'.stat p = a' at hstat
  cases hstat with
  | error e => rfl
  | @ok s s' hs =>
    have hentry := hs.entry
    obtain ⟨e, above⟩ := s
    obtain ⟨e', above'⟩ := s'
    cases hentry <;> rfl

theorem directoriesBelow_eq_flatMap (above : RealPath) (l : Listing) :
    directoriesBelow above l = l.flatMap fun i =>
      match i.2 with
      | .directory inner _ => (above ++ [i.1]) :: directoriesBelow (above ++ [i.1]) inner
      | _ => [] := by
  induction l with
  | nil => simp [directoriesBelow]
  | cons i rest ih =>
    obtain ⟨n, e⟩ := i
    rw [List.flatMap_cons, ← ih]
    cases e <;> simp [directoriesBelow]

/-- Lists that are made item by item of the same items are permutations of each other if those of each
item are. -/
theorem perm_flatMap {β : Type} {l m : Listing} {f : FileName × Entry → List β}
    (h : List.Forall₂ SameItem l m)
    (hf : ∀ i ∈ l, ∀ i', SameItem i i' → (f i).Perm (f i')) : (l.flatMap f).Perm (m.flatMap f) := by
  induction h with
  | nil => exact .nil
  | @cons i i' l m hi _ ih =>
    rw [List.flatMap_cons, List.flatMap_cons]
    exact (hf i List.mem_cons_self i' hi).append
      (ih fun j hj => hf j (List.mem_cons_of_mem i hj))

/-- Listings of the same items have the same directories below them. -/
theorem perm_directoriesBelow {l l' : Listing} {fault fault' : Option IoError}
    (h : (Entry.directory l fault).Reordered (.directory l' fault')) (above : RealPath) :
    (directoriesBelow above l).Perm (directoriesBelow above l') := by
  -- First the items are put in the order of the other listing, then each is compared with its like.
  obtain ⟨m, hm, hitems⟩ := h.exists_perm
  rw [directoriesBelow_eq_flatMap, directoriesBelow_eq_flatMap above l']
  refine (perm_flatMap hitems ?_).trans (hm.flatMap_right _)
  rintro ⟨n, e⟩ hi ⟨n', e'⟩ ⟨hname, he⟩
  obtain rfl : n = n' := hname
  cases e with
  | directory inner _ =>
    obtain ⟨inner', rfl⟩ := Entry.Reordered.exists_directory he
    exact (perm_directoriesBelow he (above ++ [n])).cons _
  | file content =>
    cases he
    exact .nil
  | special =>
    cases he
    exact .nil
  | link target =>
    cases he
    exact .nil
termination_by sizeOf l
decreasing_by
  have := List.sizeOf_lt_of_mem hi
  simp at this
  omega

theorem Reordered.perm_directories (h : fs.Reordered fs') : fs.directories.Perm fs'.directories :=
  (perm_directoriesBelow h.entries []).cons []

end FileSystem

end RepoSurvey
