import RepoSurvey.Proofs.EntryOrder

/-!
Listing one directory of a snapshot in another order. A name is put before all others in the directory of
a real path. That gives a snapshot which is the same but for the order of this listing.
-/

namespace RepoSurvey

/-- Changes what a directory lists. -/
def Entry.mapListing (f : Listing → Listing) : Entry → Entry
  | directory l fault => directory (f l) fault
  | e => e

/-- Under one name stands one entry. -/
theorem Listing.eq_of_mem {l : Listing} (hl : (l.map Prod.fst).Nodup) {n : FileName} {e e' : Entry}
    (he : (n, e) ∈ l) (he' : (n, e') ∈ l) : e = e' :=
  Option.some.inj ((lookup_of_mem hl he).symm.trans (lookup_of_mem hl he'))

/-- Where no listing has a name twice, an entry is itself but for the orders of the listings in it. -/
theorem Listing.Throughout.reordered_self {l : Listing} (h : Throughout IsProper l)
    (fault : Option IoError) : (Entry.directory l fault).Reordered (.directory l fault) := by
  induction h generalizing fault with
  | @intro l hl _ ih =>
    refine .directory hl.nodup (.refl _) fun n e e' he he' => ?_
    obtain rfl := eq_of_mem hl.nodup he he'
    cases e with
    | directory inner fault => exact ih n inner fault he fault
    | file content => exact .file content
    | special => exact .special
    | link target => exact .link target

namespace Listing

/-- Puts the entry of a name before all others. -/
def putFirst (q : FileName) (l : Listing) : Listing :=
  l.filter (fun i => i.1 == q) ++ l.filter fun i => !(i.1 == q)

/-- Puts a name first in the directory to which a real path leads. -/
def relist (q : FileName) : RealPath → Listing → Listing
  | [], l => putFirst q l
  | n :: p, l => l.map fun (m, e) => (m, if m = n then e.mapListing (relist q p) else e)

/-- What the directory lists to which a real path leads. -/
def descend : RealPath → Listing → Option Listing
  | [], l => some l
  | n :: p, l =>
    match l.lookup n with
    | some (.directory inner _) => descend p inner
    | _ => none

variable {q n : FileName} {p d : RealPath} {l k : Listing}

theorem putFirst_perm (q : FileName) (l : Listing) : (putFirst q l).Perm l :=
  List.filter_append_perm _ l

/-- The name that is put first comes first. -/
theorem exists_map_fst_putFirst (h : q ∈ l.map Prod.fst) :
    ∃ rest, (putFirst q l).map Prod.fst = q :: rest := by
  obtain ⟨i, hi, hname⟩ := List.mem_map.mp h
  cases hfirst : l.filter (fun i => i.1 == q) with
  | nil => exact absurd (List.filter_eq_nil_iff.mp hfirst i hi) (by simp [hname])
  | cons j rest =>
    have hj : j ∈ l.filter (fun i => i.1 == q) := hfirst ▸ List.mem_cons_self
    rw [putFirst, hfirst, List.cons_append, List.map_cons, eq_of_beq (List.mem_filter.mp hj).2]
    exact ⟨_, rfl⟩

theorem lookup_eq_of_perm (hl : (l.map Prod.fst).Nodup) (h : k.Perm l) (n : FileName) :
    k.lookup n = l.lookup n := by
  have hk : (k.map Prod.fst).Nodup := (h.map Prod.fst).nodup_iff.mpr hl
  ext e
  constructor
  · exact fun he => lookup_of_mem hl (h.mem_iff.mp (mem_of_lookup he))
  · exact fun he => lookup_of_mem hk (h.mem_iff.mpr (mem_of_lookup he))

theorem lookup_map (g : FileName → Entry → Entry) (l : Listing) (n : FileName) :
    (l.map fun (m, e) => (m, g m e)).lookup n = (l.lookup n).map (g n) := by
  induction l with
  | nil => rfl
  | cons i rest ih =>
    obtain ⟨m, e⟩ := i
    rw [List.map_cons, List.lookup_cons, List.lookup_cons, ih]
    by_cases hn : n = m
    · subst hn
      rw [beq_self_eq_true]
      rfl
    · rw [beq_eq_false_iff_ne.mpr hn]

theorem lookup_relist (m : FileName) :
    (l.relist q (n :: d)).lookup m =
      (l.lookup m).map fun e => if m = n then e.mapListing (relist q d) else e :=
  lookup_map (fun m e => if m = n then e.mapListing (relist q d) else e) l m

theorem descend_concat (p : RealPath) (n : FileName) (l : Listing) :
    l.descend (p ++ [n]) = (l.descend p).bind (descend [n]) := by
  induction p generalizing l with
  | nil => rfl
  | cons m p ih =>
    rw [List.cons_append, descend, descend]
    split
    · exact ih _
    · rfl

/-- Only the order of one listing changes. -/
theorem Throughout.reordered_relist (h : Throughout IsProper l) (fault : Option IoError) (q : FileName)
    (d : RealPath) : (Entry.directory l fault).Reordered (.directory (l.relist q d) fault) := by
  -- By induction on the real path; what stands beside it is as it was.
  induction d generalizing l fault with
  | nil =>
    have hself := h.reordered_self fault
    rw [relist]
    cases hself with
    | directory distinct _ entries =>
      refine .directory distinct ((putFirst_perm q l).map Prod.fst).symm fun n e e' he he' => ?_
      exact entries n e e' he ((putFirst_perm q l).mem_iff.mp he')
  | cons n d ih =>
    have hnames : (l.relist q (n :: d)).map Prod.fst = l.map Prod.fst := by
      simp [relist, Function.comp_def]
    refine .directory h.here.nodup (hnames ▸ .refl _) fun m e e' he he' => ?_
    obtain ⟨⟨m', e₁⟩, he₁, heq⟩ := List.mem_map.mp he'
    obtain ⟨rfl, rfl⟩ := Prod.mk.inj heq
    obtain rfl := eq_of_mem h.here.nodup he he₁
    have hself : e.Reordered e := by
      cases h.reordered_self fault with
      | directory _ _ entries => exact entries _ e e he he
    split
    · cases e with
      | directory inner fault => exact ih (h.inside he) fault
      | file content => exact .file content
      | special => exact .special
      | link target => exact .link target
    · exact hself

/-- In the listing that changes a name is put first, and every other one has the names that it had. -/
theorem Throughout.descend_relist (h : Throughout IsProper l) (hk : l.descend p = some k) (q : FileName)
    (d : RealPath) :
    (p = d → (l.relist q d).descend p = some (k.putFirst q)) ∧
      (p ≠ d → ∃ k', (l.relist q d).descend p = some k' ∧ k'.map Prod.fst = k.map Prod.fst) := by
  induction d generalizing l p with
  | nil =>
    cases p with
    | nil =>
      obtain rfl := Option.some.inj hk
      exact ⟨fun _ => rfl, fun hne => absurd rfl hne⟩
    | cons m p =>
      refine ⟨fun heq => (List.cons_ne_nil _ _ heq).elim, fun _ => ⟨k, ?_, rfl⟩⟩
      rw [relist, descend, lookup_eq_of_perm h.here.nodup (putFirst_perm q l)]
      exact hk
  | cons n d ih =>
    cases p with
    | nil =>
      obtain rfl := Option.some.inj hk
      refine ⟨fun heq => (List.cons_ne_nil _ _ heq.symm).elim, fun _ => ⟨_, rfl, ?_⟩⟩
      simp [relist, Function.comp_def]
    | cons m p =>
      rw [descend] at hk
      rw [descend, lookup_relist]
      split at hk
      case h_2 => cases hk
      case h_1 inner _ hlook =>
        rw [hlook]
        by_cases hm : m = n
        · subst hm
          have hbelow := ih (h.inside (mem_of_lookup hlook)) hk
          simpa [Entry.mapListing] using hbelow
        · refine ⟨fun heq => absurd (List.cons.inj heq).1 hm, fun _ => ⟨k, ?_, rfl⟩⟩
          simpa [hm] using hk

end Listing

/-- Along a real path stand listings with the same names, in whatever orders. -/
theorem Entry.Reordered.descend {l l' k : Listing} {fault fault' : Option IoError} {p : RealPath}
    (h : (Entry.directory l fault).Reordered (.directory l' fault')) (hk : l.descend p = some k) :
    ∃ k', l'.descend p = some k' ∧ (k.map Prod.fst).Perm (k'.map Prod.fst) := by
  induction p generalizing l l' fault fault' with
  | nil =>
    obtain rfl := Option.some.inj hk
    cases h with
    | directory _ names _ => exact ⟨l', rfl, names⟩
  | cons n p ih =>
    rw [Listing.descend] at hk
    rw [Listing.descend]
    split at hk
    case h_2 => cases hk
    case h_1 inner _ hlook =>
      obtain ⟨hnone, -⟩ | ⟨e, e', he, he', hee⟩ := h.lookup n
      · rw [hnone] at hlook
        cases hlook
      · obtain rfl := Option.some.inj (he.symm.trans hlook)
        obtain ⟨inner', rfl⟩ := hee.exists_directory
        rw [he']
        exact ih hee hk

namespace FileSystem

variable {fs : FileSystem} {s s' : Standing} {q : FileName} {d : RealPath} {l l' : Listing}
  {fault fault' : Option IoError}

/-- A snapshot with a name put first in one of its directories. -/
def relist (fs : FileSystem) (d : RealPath) (q : FileName) : FileSystem :=
  { fs with entries := Listing.relist q d fs.entries }

theorem WellFormed.reordered_relist (h : fs.WellFormed) (d : RealPath) (q : FileName) :
    fs.Reordered (fs.relist d q) :=
  ⟨Listing.Throughout.reordered_relist h fs.fault q d, rfl⟩

/-- A directory that stands in a snapshot is found along its real path. -/
theorem Placed.descend (h : Placed fs s) (hs : s.entry = .directory l fault) :
    Listing.descend s.realPath fs.entries = some l := by
  induction h generalizing l fault with
  | top =>
    obtain ⟨rfl, -⟩ := Entry.directory.inj hs
    rfl
  | @child s n e entries _ h hparent hn ih =>
    obtain rfl : e = .directory l fault := hs
    rw [realPath_child, Listing.descend_concat, ih hparent, Option.bind_some, Listing.descend, hn]
    rfl

/-- The names in a directory where one name is put first. -/
theorem names_relist (hfs : fs.WellFormed) (h : Placed fs s) (hs : s.entry = .directory l fault)
    (h' : Placed (fs.relist d q) s') (hs' : s'.entry = .directory l' fault')
    (hreal : s.realPath = s'.realPath) :
    (s.realPath = d → l' = l.putFirst q) ∧
      (s.realPath ≠ d → l'.map Prod.fst = l.map Prod.fst) := by
  have hk : Listing.descend s.realPath (fs.relist d q).entries = some l' := hreal ▸ h'.descend hs'
  obtain ⟨hhere, helsewhere⟩ := Listing.Throughout.descend_relist hfs (h.descend hs) q d
  constructor
  · intro hd
    exact Option.some.inj (hk.symm.trans (hhere hd))
  · intro hd
    obtain ⟨k, hk', hnames⟩ := helsewhere hd
    obtain rfl := Option.some.inj (hk.symm.trans hk')
    exact hnames

end FileSystem

end RepoSurvey
