import RepoSurvey.Proofs.Outcome
import RepoSurvey.Proofs.Snapshot
import RepoSurvey.Walk.Basic

/-!
What a walk meets, way by way: which entries are taken for regular files, which directories are entered,
and where the ways through them lead.
-/

namespace RepoSurvey

/-- A way through what is met to a regular file. -/
inductive Sight.FileAt : Sight → List FileName → Prop where
  | here : FileAt .file []
  | inside {items : List (FileName × Sight)} {n : FileName} {sight : Sight} {way : List FileName}
      (hn : (n, sight) ∈ items) (h : FileAt sight way) : FileAt (.folder items) (n :: way)

theorem Sight.fileAt_nil {sight : Sight} : sight.FileAt [] ↔ sight = file := by
  constructor
  · intro h
    cases h
    rfl
  · rintro rfl
    exact .here

theorem Sight.fileAt_cons {items : List (FileName × Sight)} {n : FileName} {way : List FileName} :
    (folder items).FileAt (n :: way) ↔ ∃ sight, (n, sight) ∈ items ∧ sight.FileAt way := by
  constructor
  · intro h
    cases h with
    | inside hn h => exact ⟨_, hn, h⟩
  · rintro ⟨sight, hn, h⟩
    exact .inside hn h

namespace FileSystem

variable {fs : FileSystem} {scope : Scope} {fresh : List RealPath} {path : Path}
  {entries : Listing} {fault : Option IoError} {s t : Standing} {n : FileName} {e : Entry}
  {sight : Sight}

theorem meetings_eq_filterMap (fs : FileSystem) (scope : Scope) (fresh : List RealPath)
    (path : Path) (entries : Listing) :
    fs.meetings scope fresh path entries = entries.filterMap fun (n, e) =>
      (fs.sightOf scope fresh (path.join n) (scope.excludes n) e).map (⟨e.isDirectory, n, ·⟩) := by
  induction entries with
  | nil => rw [meetings]; rfl
  | cons a rest ih =>
    obtain ⟨n, e⟩ := a
    rw [meetings, List.filterMap_cons, ih]
    cases hsight : fs.sightOf scope fresh (path.join n) (scope.excludes n) e <;> simp [hsight]

theorem nodup_meetings (hdistinct : (entries.map Prod.fst).Nodup) (path : Path) :
    ((fs.meetings scope fresh path entries).map Meeting.name).Nodup := by
  refine List.Nodup.sublist ?_ hdistinct
  induction entries with
  | nil => simp [meetings]
  | cons i rest ih =>
    obtain ⟨n, e⟩ := i
    rw [meetings]
    have hrest := ih (List.nodup_cons.mp hdistinct).2
    split
    · exact hrest.cons_cons n
    · exact hrest.cons n

/-- What is met in a directory is what its entries are taken for. -/
theorem mem_sightsIn :
    (n, sight) ∈ fs.sightsIn scope fresh path entries ↔
      ∃ e, (n, e) ∈ entries ∧
        fs.sightOf scope fresh (path.join n) (scope.excludes n) e = some sight := by
  rw [sightsIn, Meeting.inOrder, meetings_eq_filterMap]
  simp only [List.mem_map, List.mem_mergeSort, List.mem_filterMap, Option.map_eq_some_iff]
  constructor
  · rintro ⟨m, ⟨⟨n', e⟩, he, sight', hsight, rfl⟩, heq⟩
    obtain ⟨rfl, rfl⟩ := Prod.mk.inj heq
    exact ⟨e, he, hsight⟩
  · rintro ⟨e, he, hsight⟩
    exact ⟨⟨e.isDirectory, n, sight⟩, ⟨(n, e), he, sight, hsight, rfl⟩, rfl⟩

/-- What is taken for a regular file. -/
theorem sightOf_eq_file {excluded : Bool} :
    fs.sightOf scope fresh path excluded e = some .file ↔
      excluded = false ∧ ((∃ c, e = .file c) ∨
        ∃ target t c, e = .link target ∧ fs.stat path = .ok t ∧ t.entry = .file c) := by
  cases e with
  | file c => cases excluded <;> simp [sightOf]
  | special => simp [sightOf]
  | directory l fault =>
    rw [sightOf]
    cases excluded with
    | true => simp
    | false => cases fs.stat path <;> cases fault <;> simp
  | link target =>
    rw [sightOf]
    cases hstat : fs.stat path with
    | error err => cases scope.followLinks <;> cases excluded <;> simp
    | ok t =>
      cases excluded with
      | true => simp
      | false =>
        cases hentry : t.entry with
        | file c => simp [hentry]
        | special => simp [hentry]
        | link target => simp [hentry]
        | directory l fault =>
          by_cases hfresh : t.realPath ∈ fresh <;> cases scope.followLinks <;> cases fault <;>
            simp [hentry, hfresh]

/-- What is entered, if it can be listed: a directory wherever it stands, and behind a link one that the
way has not passed. -/
theorem sightOf_eq_folder {excluded : Bool} {items : List (FileName × Sight)} :
    fs.sightOf scope fresh path excluded e = some (.folder items) ↔
      excluded = false ∧ ∃ t l, fs.stat path = .ok t ∧
        items = fs.sightsIn scope (fresh.erase t.realPath) path l ∧
        (e = .directory l none ∨ (∃ target, e = .link target) ∧ t.entry = .directory l none ∧
          t.realPath ∈ fresh ∧ scope.followLinks = true) := by
  cases e with
  | file c => cases excluded <;> simp [sightOf]
  | special => simp [sightOf]
  | directory l fault =>
    rw [sightOf]
    cases excluded with
    | true => simp
    | false =>
      cases hstat : fs.stat path with
      | error err => simp
      | ok t =>
        cases fault with
        | some err => simp
        | none =>
          simp only [Bool.false_eq_true, ↓reduceIte, Option.some.injEq, Sight.folder.injEq, true_and]
          constructor
          · rintro rfl
            exact ⟨t, l, rfl, rfl, Or.inl rfl⟩
          · rintro ⟨t', l', ht, rfl, he | ⟨⟨target, he⟩, -⟩⟩
            · rw [Except.ok.inj ht, (Entry.directory.inj he).1]
            · cases he
  | link target =>
    rw [sightOf]
    cases hstat : fs.stat path with
    | error err => cases scope.followLinks <;> cases excluded <;> simp
    | ok t =>
      cases excluded with
      | true => simp
      | false =>
        cases hentry : t.entry with
        | file c => simp [hentry]
        | special => simp [hentry]
        | link target => simp [hentry]
        | directory l fault =>
          by_cases hfresh : t.realPath ∈ fresh <;> cases scope.followLinks <;> cases fault <;>
            simp [hentry, hfresh, eq_comm]

/-- A directory that is entered is the one to which its path leads. -/
theorem folder_mem_sightsIn (hl : entries.IsProper) (hs : fs.stat path = .ok s)
    (hdir : s.entry = .directory entries fault) {inner : List (FileName × Sight)}
    (h : (n, Sight.folder inner) ∈ fs.sightsIn scope fresh path entries) :
    scope.excludes n = false ∧ ∃ e t l, (n, e) ∈ entries ∧ fs.stat (path.join n) = .ok t ∧
      t.entry = .directory l none ∧
      inner = fs.sightsIn scope (fresh.erase t.realPath) (path.join n) l ∧
      ((e = .directory l none ∧ t = s.child n e) ∨
        (∃ target, e = .link target) ∧ t.realPath ∈ fresh ∧ scope.followLinks = true) := by
  obtain ⟨e, he, hsight⟩ := mem_sightsIn.mp h
  have hproper := hl.proper n (List.mem_map.mpr ⟨(n, e), he, rfl⟩)
  obtain ⟨hex, t, l, ht, rfl, rfl | ⟨hlink, htl, hfresh, hfollow⟩⟩ := sightOf_eq_folder.mp hsight
  · obtain rfl := eq_child_of_stat_join hs hdir hproper (Listing.lookup_of_mem hl.nodup he)
      (by simp) ht
    exact ⟨hex, _, _, l, he, ht, rfl, rfl, Or.inl ⟨rfl, rfl⟩⟩
  · exact ⟨hex, e, t, l, he, ht, htl, rfl, Or.inr ⟨hlink, hfresh, hfollow⟩⟩

/-- A way to a regular file has proper names, and what can be looked up at its end is such a file. -/
theorem fileAt_sightsIn (hfs : fs.WellFormed) (hs : fs.stat path = .ok s)
    (hdir : s.entry = .directory entries fault) {way : List FileName}
    (h : (Sight.folder (fs.sightsIn scope fresh path entries)).FileAt way) :
    (∀ n ∈ way, n.IsProper) ∧
      ∀ t, fs.stat (path.below way) = .ok t → ∃ content, t.entry = .file content := by
  induction way generalizing path s entries fault fresh with
  | nil => cases h
  | cons n way ih =>
    have hl : entries.IsProper := ((Placed.of_stat hs).throughout hfs hdir).here
    obtain ⟨sight, hsight, hway⟩ := Sight.fileAt_cons.mp h
    obtain ⟨e, he, hof⟩ := mem_sightsIn.mp hsight
    have hn : n.IsProper := hl.proper n (List.mem_map.mpr ⟨(n, e), he, rfl⟩)
    cases hway with
    | here =>
      refine ⟨by simpa using hn, fun t ht => ?_⟩
      obtain ⟨-, ⟨content, rfl⟩ | ⟨target, t', content, -, ht', hc⟩⟩ := sightOf_eq_file.mp hof
      · obtain rfl := eq_child_of_stat_join hs hdir hn (Listing.lookup_of_mem hl.nodup he)
          (by simp) ht
        exact ⟨content, rfl⟩
      · obtain rfl := Except.ok.inj (ht'.symm.trans ht)
        exact ⟨content, hc⟩
    | inside hm hrest =>
      obtain ⟨-, e, t, l, -, ht, htl, rfl, -⟩ := folder_mem_sightsIn hl hs hdir hsight
      obtain ⟨hnames, hend⟩ := ih ht htl (.inside hm hrest)
      refine ⟨?_, hend⟩
      intro k hk
      rcases List.mem_cons.mp hk with rfl | hk
      · exact hn
      · exact hnames k hk

end FileSystem

end RepoSurvey
