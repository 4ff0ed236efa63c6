import RepoSurvey.Proofs.Ways

/-!
Where the ways through what a walk meets end. Whatever is met at the end of a way is an entry of a
directory that the walk has entered, and no name on the way to that directory is left out.
-/

namespace RepoSurvey

/-- A way through what is met leads to something that is met. -/
inductive Sight.At : Sight → List FileName → Sight → Prop where
  | here {sight : Sight} : At sight [] sight
  | inside {items : List (FileName × Sight)} {n : FileName} {sight last : Sight}
      {way : List FileName} (hn : (n, sight) ∈ items) (h : At sight way last) :
      At (.folder items) (n :: way) last

namespace Sight

theorem at_nil {sight last : Sight} : sight.At [] last ↔ sight = last := by
  constructor
  · intro h
    cases h
    rfl
  · rintro rfl
    exact .here

theorem at_folder_cons {items : List (FileName × Sight)} {n : FileName} {way : List FileName}
    {last : Sight} : (folder items).At (n :: way) last ↔ ∃ sight, (n, sight) ∈ items ∧ sight.At way last := by
  constructor
  · intro h
    cases h with
    | inside hn h => exact ⟨_, hn, h⟩
  · rintro ⟨sight, hn, h⟩
    exact .inside hn h

theorem fileAt_iff_at {sight : Sight} {way : List FileName} : sight.FileAt way ↔ sight.At way file := by
  induction way generalizing sight with
  | nil => rw [fileAt_nil, at_nil]
  | cons n way ih =>
    constructor
    · intro h
      cases h with
      | inside hn h => exact .inside hn (ih.mp h)
    · intro h
      cases h with
      | inside hn h => exact .inside hn (ih.mpr h)

/-- A way that goes on passes what is met where its first part ends. -/
theorem at_append {sight last : Sight} {way more : List FileName} :
    sight.At (way ++ more) last ↔ ∃ mid, sight.At way mid ∧ mid.At more last := by
  induction way generalizing sight with
  | nil =>
    constructor
    · exact fun h => ⟨sight, .here, h⟩
    · rintro ⟨mid, h, hmore⟩
      exact at_nil.mp h ▸ hmore
  | cons n way ih =>
    constructor
    · intro h
      cases h with
      | inside hn h =>
        obtain ⟨mid, hway, hmore⟩ := ih.mp h
        exact ⟨mid, .inside hn hway, hmore⟩
    · rintro ⟨mid, h, hmore⟩
      cases h with
      | inside hn h => exact .inside hn (ih.mpr ⟨mid, h, hmore⟩)

/-- The last step of a way goes from a directory to one of its items. -/
theorem at_concat {sight last : Sight} {way : List FileName} {n : FileName} :
    sight.At (way ++ [n]) last ↔ ∃ items, sight.At way (folder items) ∧ (n, last) ∈ items := by
  rw [at_append]
  constructor
  · rintro ⟨mid, h, hlast⟩
    cases hlast with
    | inside hn hend => exact ⟨_, h, at_nil.mp hend ▸ hn⟩
  · rintro ⟨items, h, hn⟩
    exact ⟨folder items, h, .inside hn .here⟩

end Sight

theorem Path.below_concat (p : Path) (way : List FileName) (n : FileName) :
    p.below (way ++ [n]) = (p.below way).join n := by
  simp [below, List.foldl_append]

/-- What is found at a path under which something is met. -/
def Sight.found (path : Path) : Sight → Option Discovery
  | .file => some (.file path)
  | .broken message => some (.broken path message)
  | .folder _ => none

mutual

/-- What is found at a path, in order, each with the way that leads to it. -/
def Sight.finds (path : Path) : Sight → List (List FileName × Discovery)
  | .file => [([], .file path)]
  | .broken message => [([], .broken path message)]
  | .folder items => findsIn path items

/-- What is found in a directory at a path, in order, each with the way that leads to it. -/
def findsIn (path : Path) : List (FileName × Sight) → List (List FileName × Discovery)
  | [] => []
  | (n, sight) :: rest =>
    (sight.finds (path.join n)).map (fun (way, d) => (n :: way, d)) ++ findsIn path rest

end

theorem mem_findsIn {items : List (FileName × Sight)} {p : Path} {way : List FileName} {d : Discovery} :
    (way, d) ∈ findsIn p items ↔ ∃ n sight rest, (n, sight) ∈ items ∧
      (rest, d) ∈ sight.finds (p.join n) ∧ way = n :: rest := by
  induction items with
  | nil => simp [findsIn]
  | cons i items ih =>
    obtain ⟨m, s⟩ := i
    rw [findsIn, List.mem_append, ih, List.mem_map]
    constructor
    · rintro (⟨⟨rest, d'⟩, hrest, heq⟩ | ⟨n, sight, rest, hn, hrest⟩)
      · obtain ⟨rfl, rfl⟩ := Prod.mk.inj heq
        exact ⟨m, s, rest, List.mem_cons_self, hrest, rfl⟩
      · exact ⟨n, sight, rest, List.mem_cons_of_mem _ hn, hrest⟩
    · rintro ⟨n, sight, rest, hn, hrest, rfl⟩
      rcases List.mem_cons.mp hn with heq | hn
      · obtain ⟨rfl, rfl⟩ := Prod.mk.inj heq
        exact Or.inl ⟨(rest, d), hrest, rfl⟩
      · exact Or.inr ⟨n, sight, rest, hn, hrest, rfl⟩

/-- What is found is what is met at the ends of ways. -/
theorem Sight.mem_finds {sight : Sight} {p : Path} {way : List FileName} {d : Discovery} :
    (way, d) ∈ sight.finds p ↔ ∃ last, sight.At way last ∧ last.found (p.below way) = some d := by
  induction way generalizing sight p with
  | nil =>
    simp only [at_nil, exists_eq_left']
    cases sight with
    | file => simp [finds, found, Path.below, eq_comm]
    | broken message => simp [finds, found, Path.below, eq_comm]
    | folder items => simp [finds, found, mem_findsIn]
  | cons n way ih =>
    cases sight with
    | file =>
      rw [finds]
      exact ⟨fun h => by simp at h, fun ⟨_, h, _⟩ => by cases h⟩
    | broken message =>
      rw [finds]
      exact ⟨fun h => by simp at h, fun ⟨_, h, _⟩ => by cases h⟩
    | folder items =>
      rw [finds, mem_findsIn]
      constructor
      · rintro ⟨_, sight, _, hn, hrest, heq⟩
        obtain ⟨rfl, rfl⟩ := List.cons.inj heq
        obtain ⟨last, hlast, hd⟩ := ih.mp hrest
        exact ⟨last, .inside hn hlast, hd⟩
      · rintro ⟨last, h, hd⟩
        obtain ⟨sight, hn, hway⟩ := at_folder_cons.mp h
        exact ⟨n, sight, way, hn, ih.mpr ⟨last, hway, hd⟩, rfl⟩

mutual

/-- What is found on ways is what is found. -/
theorem Sight.map_snd_finds (p : Path) (sight : Sight) :
    (sight.finds p).map Prod.snd = sight.discoveries p := by
  cases sight with
  | file => rfl
  | broken message => rfl
  | folder items => exact map_snd_findsIn p items

theorem map_snd_findsIn (p : Path) (items : List (FileName × Sight)) :
    (findsIn p items).map Prod.snd = discoveriesIn p items := by
  cases items with
  | nil => rfl
  | cons i rest =>
    obtain ⟨n, sight⟩ := i
    rw [findsIn, discoveriesIn, List.map_append, List.map_map, map_snd_findsIn p rest,
      ← sight.map_snd_finds (p.join n)]
    rfl

end

theorem Sight.mem_discoveries {d : Discovery} {p : Path} {sight : Sight} :
    d ∈ sight.discoveries p ↔ ∃ way last, sight.At way last ∧ last.found (p.below way) = some d := by
  rw [← map_snd_finds, List.mem_map]
  constructor
  · rintro ⟨⟨way, _⟩, h, rfl⟩
    exact ⟨way, mem_finds.mp h⟩
  · rintro ⟨way, h⟩
    exact ⟨(way, d), mem_finds.mpr h, rfl⟩

namespace FileSystem

variable {fs : FileSystem} {scope : Scope} {fresh : List RealPath} {path root : Path}
  {entries : Listing} {s : Standing} {n : FileName} {way : List FileName} {sight : Sight}

/-- A way that leads to a directory leads to the one that its path leads to, and no name on it is left
out. -/
theorem folderAt_sightsIn (hfs : fs.WellFormed) (hs : fs.stat path = .ok s)
    (hdir : s.entry = .directory entries none) {inner : List (FileName × Sight)}
    (h : (Sight.folder (fs.sightsIn scope fresh path entries)).At way (.folder inner)) :
    (∀ m ∈ way, FileName.IsProper m ∧ scope.excludes m = false) ∧
      ∃ t l fresh', fs.stat (path.below way) = .ok t ∧ t.entry = .directory l none ∧
        inner = fs.sightsIn scope fresh' (path.below way) l := by
  induction way generalizing path s entries fresh with
  | nil =>
    obtain rfl := Sight.folder.inj (Sight.at_nil.mp h)
    exact ⟨by simp, s, entries, fresh, hs, hdir, rfl⟩
  | cons m way ih =>
    have hl : entries.IsProper := ((Placed.of_stat hs).throughout hfs hdir).here
    obtain ⟨sight, hm, hway⟩ := Sight.at_folder_cons.mp h
    -- Only through a directory does a way lead on.
    obtain ⟨items, rfl⟩ : ∃ items, sight = .folder items := by
      cases hway with
      | here => exact ⟨inner, rfl⟩
      | inside _ _ => exact ⟨_, rfl⟩
    obtain ⟨hex, e, t, l, he, ht, htl, rfl, -⟩ := folder_mem_sightsIn hl hs hdir hm
    obtain ⟨hnames, hend⟩ := ih ht htl hway
    refine ⟨?_, hend⟩
    intro k hk
    rcases List.mem_cons.mp hk with rfl | hk
    · exact ⟨hl.proper k (List.mem_map.mpr ⟨(k, e), he, rfl⟩), hex⟩
    · exact hnames k hk

/-- What is met at the end of a way is what an entry is taken for, in a directory that the walk has
entered. -/
theorem exists_sightOf_of_at (hfs : fs.WellFormed) (hs : fs.stat path = .ok s)
    (hdir : s.entry = .directory entries none) {last : Sight}
    (h : (Sight.folder (fs.sightsIn scope fresh path entries)).At (way ++ [n]) last) :
    (∀ m ∈ way, FileName.IsProper m ∧ scope.excludes m = false) ∧ n.IsProper ∧
      ∃ t l e fresh', fs.stat (path.below way) = .ok t ∧ t.entry = .directory l none ∧
        Listing.IsProper l ∧ (n, e) ∈ l ∧
        fs.sightOf scope fresh' (path.below (way ++ [n])) (scope.excludes n) e = some last := by
  obtain ⟨items, hway, hn⟩ := Sight.at_concat.mp h
  obtain ⟨hnames, t, l, fresh', ht, htl, rfl⟩ := folderAt_sightsIn hfs hs hdir hway
  have hl : Listing.IsProper l := ((Placed.of_stat ht).throughout hfs htl).here
  obtain ⟨e, he, hsight⟩ := mem_sightsIn.mp hn
  refine ⟨hnames, hl.proper n (List.mem_map.mpr ⟨(n, e), he, rfl⟩), t, l, e, fresh', ht, htl, hl, he, ?_⟩
  rw [Path.below_concat]
  exact hsight

/-- What is met at the end of a way of names is met below a root that can be listed. -/
theorem exists_directory_of_at (hsight : fs.rootSight scope root = .ok sight) {last : Sight}
    (h : sight.At (way ++ [n]) last) :
    ∃ s entries, fs.stat root = .ok s ∧ s.entry = .directory entries none ∧
      sight = .folder (fs.sightsIn scope (fs.directories.erase s.realPath) root entries) := by
  obtain ⟨items, hway, hn⟩ := Sight.at_concat.mp h
  rcases rootSight_eq_ok hsight with hlisted | rfl | ⟨message, rfl⟩
  · exact hlisted
  · -- In a root that is passed over there is nothing, so no way leads on from it.
    cases hway with
    | here => cases hn
    | inside hm _ => cases hm
  · cases hway

/-- A walk that has come to a directory that can be listed has started at one. -/
theorem exists_directory_of_at_folder (hsight : fs.rootSight scope root = .ok sight)
    {inner : List (FileName × Sight)} (h : sight.At way (.folder inner)) {l : Listing}
    (hl : fs.list (root.below way) = .ok l) :
    ∃ s entries, fs.stat root = .ok s ∧ s.entry = .directory entries none ∧
      sight = .folder (fs.sightsIn scope (fs.directories.erase s.realPath) root entries) := by
  rcases List.eq_nil_or_concat way with rfl | ⟨way, m, rfl⟩
  · obtain ⟨s, hs, hdir⟩ := exists_stat_of_list hl
    exact ⟨s, l, hs, hdir, Except.ok.inj (hsight.symm.trans (rootSight_of_directory hs hdir))⟩
  · rw [List.concat_eq_append] at h
    exact exists_directory_of_at hsight h

end FileSystem

end RepoSurvey
