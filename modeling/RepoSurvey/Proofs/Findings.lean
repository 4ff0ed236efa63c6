import RepoSurvey.Proofs.WalkPruning
import RepoSurvey.Proofs.WayEnds

/-!
The order in which a walk finds what it finds. Two ways share some names and then part, and how they stand to
each other is settled in the directory where they part: what is no directory itself comes before directories,
and each group goes by name.
-/

namespace RepoSurvey

/-- Two ways part in the directory behind the names that they share. What is next in each of them, the name
and what follows it, is in a relation. -/
inductive Parted (R : List FileName → FileName × List FileName → FileName × List FileName → Prop) :
    List FileName → List FileName → Prop where
  | apart {shared : List FileName} {n m : FileName} {way way' : List FileName} (hne : n ≠ m)
      (h : R shared (n, way) (m, way')) : Parted R (shared ++ n :: way) (shared ++ m :: way')

namespace Parted

variable {R S : List FileName → FileName × List FileName → FileName × List FileName → Prop}
  {shared way way' : List FileName} {n m : FileName}

theorem not_nil_left (h : Parted R [] way) : False := by
  generalize hnil : ([] : List FileName) = a at h
  cases h
  simp at hnil

theorem not_nil_right (h : Parted R way []) : False := by
  generalize hnil : ([] : List FileName) = a at h
  cases h
  simp at hnil

/-- Ways that begin alike part further down. -/
theorem cons_iff :
    Parted R (n :: way) (n :: way') ↔ Parted (fun shared => R (n :: shared)) way way' := by
  constructor
  · intro h
    generalize ha : n :: way = a at h
    generalize hb : n :: way' = b at h
    cases h with
    | @apart shared k l v v' hne h =>
      cases shared with
      | nil => exact absurd ((List.cons.inj ha).1.symm.trans (List.cons.inj hb).1) hne
      | cons s shared =>
        obtain ⟨rfl, rfl⟩ := List.cons.inj ha
        obtain ⟨-, rfl⟩ := List.cons.inj hb
        exact .apart hne h
  · intro h
    cases h with
    | @apart shared k l v v' hne h => exact @apart R (n :: shared) k l v v' hne h

/-- Ways part where their names first differ. -/
theorem cons_cons_iff (hne : n ≠ m) :
    Parted R (n :: way) (m :: way') ↔ R [] (n, way) (m, way') := by
  constructor
  · intro h
    generalize ha : n :: way = a at h
    generalize hb : m :: way' = b at h
    cases h with
    | @apart shared k l v v' _ h =>
      cases shared with
      | nil =>
        obtain ⟨rfl, rfl⟩ := List.cons.inj ha
        obtain ⟨rfl, rfl⟩ := List.cons.inj hb
        exact h
      | cons s shared => exact absurd ((List.cons.inj ha).1.trans (List.cons.inj hb).1.symm) hne
  · exact fun h => @apart R [] n m way way' hne h

theorem append_iff (hne : n ≠ m) :
    Parted R (shared ++ n :: way) (shared ++ m :: way') ↔ R shared (n, way) (m, way') := by
  induction shared generalizing R with
  | nil => exact cons_cons_iff hne
  | cons s shared ih => exact cons_iff.trans ih

/-- A way does not part from one that goes on where it ends. -/
theorem not_append {more : List FileName} :
    ¬ (Parted R way (way ++ more) ∨ Parted R (way ++ more) way) := by
  induction way generalizing R with
  | nil => exact fun h => h.elim not_nil_left not_nil_right
  | cons n way ih =>
    rw [List.cons_append, cons_iff, cons_iff]
    exact ih

theorem irrefl : ¬ Parted R way way := by
  intro h
  have hsame : Parted R way (way ++ []) := by rwa [List.append_nil]
  exact not_append (Or.inl hsame)

theorem nodup_of_pairwise {ways : List (List FileName)} (h : ways.Pairwise (Parted R)) : ways.Nodup := by
  apply h.imp
  rintro way _ hparted rfl
  exact irrefl hparted

/-- Where no directory has its names both ways round, no two ways stand both ways round. -/
theorem asymm (hR : ∀ shared a b, R shared a b → ¬ R shared b a) (h : Parted R way way') :
    ¬ Parted R way' way := by
  cases h with
  | @apart shared n m way way' hne h =>
    rw [append_iff hne.symm]
    exact hR shared _ _ h

end Parted

/-- Of two different elements of a list, one stands before the other. -/
theorem either_of_pairwise {α : Type} {R : α → α → Prop} {l : List α} (h : l.Pairwise R) {a b : α}
    (ha : a ∈ l) (hb : b ∈ l) (hne : a ≠ b) : R a b ∨ R b a := by
  have heither : l.Pairwise fun a b => R a b ∨ R b a := h.imp Or.inl
  have : Std.Symm fun a b => R a b ∨ R b a := ⟨fun _ _ => Or.symm⟩
  exact heither.forall ha hb hne

/-- The order of a walk within a directory tells entries of different names apart. -/
theorem Listing.lt_of_before {i j : FileName × Entry} (h : before i j = true) (hne : i.1 ≠ j.1) :
    (i.2.isDirectory = false ∧ j.2.isDirectory = true) ∨
      (i.2.isDirectory = j.2.isDirectory ∧ i.1 < j.1) := by
  unfold before Meeting.before at h
  dsimp only at h
  split at h
  case isTrue heq =>
    refine Or.inr ⟨heq, ?_⟩
    by_contra hnot
    exact hne (List.le_antisymm (of_decide_eq_true h) (List.not_lt.mp hnot))
  case isFalse hdiffers =>
    rw [h] at hdiffers ⊢
    exact Or.inl ⟨by simpa using hdiffers, rfl⟩

namespace FileSystem

/-- Whether the directory at a path lists a directory itself under a name, and no link to one. -/
def listsDirectory (fs : FileSystem) (p : Path) (n : FileName) : Bool :=
  match fs.list p with
  | .ok l => ((l.lookup n).map Entry.isDirectory).getD false
  | .error _ => false

/-- The order of a walk for two ways that part in a directory: an entry that is no directory itself comes
before one that is, and otherwise the names decide. -/
def DirectoriesLast (fs : FileSystem) (root : Path) (shared : List FileName)
    (a b : FileName × List FileName) : Prop :=
  (fs.listsDirectory (root.below shared) a.1 = false ∧
      fs.listsDirectory (root.below shared) b.1 = true) ∨
    (fs.listsDirectory (root.below shared) a.1 = fs.listsDirectory (root.below shared) b.1 ∧ a.1 < b.1)

variable {fs : FileSystem} {scope : Scope} {fresh : List RealPath} {path root : Path}
  {entries : Listing} {s : Standing} {n : FileName} {way way' : List FileName} {e : Entry}
  {sight : Sight}

theorem DirectoriesLast.asymm {shared : List FileName} {a b : FileName × List FileName}
    (h : fs.DirectoriesLast root shared a b) : ¬ fs.DirectoriesLast root shared b a := by
  rcases h with ⟨ha, hb⟩ | ⟨hab, hlt⟩
  · simp [DirectoriesLast, ha, hb]
  · rintro (⟨hb, ha⟩ | ⟨-, hgt⟩)
    · rw [ha, hb] at hab
      cases hab
    · exact List.lt_asymm hlt hgt

theorem listsDirectory_eq (hs : fs.stat path = .ok s) (hdir : s.entry = .directory entries none)
    (hl : entries.IsProper) (he : (n, e) ∈ entries) : fs.listsDirectory path n = e.isDirectory := by
  unfold listsDirectory
  rw [list_of_directory hs hdir]
  dsimp only
  rw [Listing.lookup_of_mem hl.nodup he]
  rfl

theorem findsIn_eq_flatMap (p : Path) (items : List (FileName × Sight)) :
    findsIn p items = items.flatMap fun (n, sight) =>
      (sight.finds (p.join n)).map fun (way, d) => (n :: way, d) := by
  induction items with
  | nil => rfl
  | cons i rest ih =>
    obtain ⟨n, sight⟩ := i
    rw [findsIn, List.flatMap_cons, ih]

/-- A walk finds what there is in a directory in its own order. -/
theorem pairwise_findsIn_sightsIn {fresh : List RealPath} {path : Path} {entries : Listing} {s : Standing}
    {items : List (FileName × Sight)} (hfs : fs.WellFormed) (hs : fs.stat path = .ok s)
    (hdir : s.entry = .directory entries none) (hitems : fs.sightsIn scope fresh path entries = items) :
    ((findsIn path items).map Prod.fst).Pairwise (Parted (fs.DirectoriesLast path)) := by
  have hl : entries.IsProper := ((Placed.of_stat hs).throughout hfs hdir).here
  rw [List.pairwise_map, findsIn_eq_flatMap, List.pairwise_flatMap]
  constructor
  · -- Ways through one name part further down, in a directory with fewer sights.
    rintro ⟨n, sight⟩ hn
    rw [List.pairwise_map]
    simp only [Parted.cons_iff]
    cases sight with
    | file => simp [Sight.finds]
    | broken message => simp [Sight.finds]
    | folder inner =>
      obtain ⟨-, e, t, l, -, ht, htl, hinner, -⟩ := folder_mem_sightsIn hl hs hdir (hitems ▸ hn)
      rw [Sight.finds]
      exact List.pairwise_map.mp (pairwise_findsIn_sightsIn hfs ht htl hinner.symm)
  · -- Different names part here, and the directory is sorted by what its entries are themselves.
    have hnames : entries.inWalkOrder.Pairwise fun i j => i.1 ≠ j.1 :=
      List.pairwise_map.mp (((List.mergeSort_perm entries Listing.before).map Prod.fst).nodup_iff.mpr
        hl.nodup)
    rw [← hitems, sightsIn_eq_filterMap hl.nodup, List.pairwise_filterMap]
    refine ((Listing.pairwise_inWalkOrder entries).and hnames).imp_of_mem ?_
    rintro ⟨n, e⟩ ⟨m, e'⟩ he he' ⟨hbefore, hne⟩ i hi j hj a ha b hb
    obtain ⟨sight, -, rfl⟩ := Option.map_eq_some_iff.mp hi
    obtain ⟨sight', -, rfl⟩ := Option.map_eq_some_iff.mp hj
    obtain ⟨⟨way, d⟩, -, rfl⟩ := List.mem_map.mp ha
    obtain ⟨⟨way', d'⟩, -, rfl⟩ := List.mem_map.mp hb
    rw [Parted.cons_cons_iff hne]
    have hown := listsDirectory_eq hs hdir hl (List.mem_mergeSort.mp he)
    have hown' := listsDirectory_eq hs hdir hl (List.mem_mergeSort.mp he')
    change (fs.listsDirectory path n = false ∧ fs.listsDirectory path m = true) ∨
      (fs.listsDirectory path n = fs.listsDirectory path m ∧ n < m)
    rw [hown, hown']
    exact Listing.lt_of_before hbefore hne
termination_by sizeOf items
decreasing_by
  have := List.sizeOf_lt_of_mem hn
  simp only [Prod.mk.sizeOf_spec, Sight.folder.sizeOf_spec] at this
  omega

/-- A walk finds what there is below its root in its own order. -/
theorem pairwise_finds_of_rootSight (hfs : fs.WellFormed) (h : fs.rootSight scope root = .ok sight) :
    ((sight.finds root).map Prod.fst).Pairwise (Parted (fs.DirectoriesLast root)) := by
  rcases rootSight_eq_ok h with ⟨s, entries, hs, hdir, rfl⟩ | rfl | ⟨message, rfl⟩
  · exact pairwise_findsIn_sightsIn hfs hs hdir rfl
  · exact List.Pairwise.nil
  · exact List.pairwise_singleton _ _

/-- The names on a way to something that is met are such as entries can have. -/
theorem proper_of_at (hfs : fs.WellFormed) (hroot : fs.rootSight scope root = .ok sight) {last : Sight}
    (h : sight.At way last) : ∀ n ∈ way, FileName.IsProper n := by
  -- The last name is an entry of a directory that was entered, and so is each name before it.
  rcases List.eq_nil_or_concat way with rfl | ⟨way, n, rfl⟩
  · simp
  · rw [List.concat_eq_append] at h ⊢
    obtain ⟨s, entries, hs, hdir, rfl⟩ := exists_directory_of_at hroot h
    obtain ⟨hnames, hn, -⟩ := exists_sightOf_of_at hfs hs hdir h
    intro m hm
    rcases List.mem_append.mp hm with hm | hm
    · exact (hnames m hm).1
    · obtain rfl := List.mem_singleton.mp hm
      exact hn

end FileSystem

mutual

/-- The ways to files are those on which files are found. -/
theorem Sight.ways_eq_map_fst_finds (p : Path) (sight : Sight) :
    sight.ways = ((sight.finds p).filter fun f => f.2.isFile).map Prod.fst := by
  cases sight with
  | file => rfl
  | broken message => rfl
  | folder items => exact waysIn_eq_map_fst_findsIn p items

theorem waysIn_eq_map_fst_findsIn (p : Path) (items : List (FileName × Sight)) :
    waysIn items = ((findsIn p items).filter fun f => f.2.isFile).map Prod.fst := by
  cases items with
  | nil => rfl
  | cons i rest =>
    obtain ⟨n, sight⟩ := i
    rw [waysIn, findsIn, List.filter_append, List.map_append, ← waysIn_eq_map_fst_findsIn p rest,
      sight.ways_eq_map_fst_finds (p.join n), List.filter_map, List.map_map, List.map_map]
    rfl

end

end RepoSurvey
