import RepoSurvey.Proofs.AncestorStack

/-!
When the folder tree of a repository fails to be built. On the way down every directory is resolved and
listed, and what cannot be is an obstacle, be it that the directory has a fault or that its path is too
long. An obstacle fails the building if its path can be looked up. If its path is too long for that, or
takes too many links, the directory is taken for a file, and the building goes on.
-/

namespace RepoSurvey

theorem Path.length_le_join (p : Path) {n : FileName} (hn : n.IsProper) : p.length ≤ (p.join n).length := by
  rcases join_cases p hn.solidus_not_mem with ⟨rfl, -⟩ | ⟨q, rfl, hjoin⟩ | ⟨-, hjoin⟩
  · exact Nat.zero_le _
  · rw [hjoin]
    simp
  · rw [hjoin]
    simp

namespace FileSystem

/-- A directory without a fault lists an entry of a name that is not left out, and the entry is a directory
or a link to one that is followed. -/
inductive Holds (fs : FileSystem) (scope : Scope) (s : Standing) (n : FileName) : Standing → Prop where
  | directory {entries inner : Listing} {fault : Option IoError} (hs : s.entry = .directory entries none)
      (hn : (n, .directory inner fault) ∈ entries) (hex : scope.excludes n = false) :
      Holds fs scope s n (s.child n (.directory inner fault))
  | link {entries inner : Listing} {fault : Option IoError} {target : Path} {t : Standing}
      (hs : s.entry = .directory entries none) (hn : (n, .link target) ∈ entries)
      (hex : scope.excludes n = false) (hfollow : scope.followLinks = true)
      (hreach : fs.follow true none linkLimit s [n] = .ok (.reached t))
      (ht : t.entry = .directory inner fault) : Holds fs scope s n t

/-- At or below the directory `s`, which stands at `path`, there is one that cannot be resolved or listed at its
path `p`. On the way to it no directory is entered that has been passed. -/
inductive Obstacle (fs : FileSystem) (scope : Scope) :
    (passed : List RealPath) → (path : Path) → (s : Standing) → (p : Path) → IoError → Prop where
  | unresolved {passed : List RealPath} {path : Path} {s : Standing} {e : IoError}
      (h : fs.resolve path = .error e) : Obstacle fs scope passed path s path e
  | unlisted {passed : List RealPath} {path : Path} {s : Standing} {e : IoError}
      (hnew : s.realPath ∉ passed) (h : fs.list path = .error e) : Obstacle fs scope passed path s path e
  | inside {passed : List RealPath} {path p : Path} {s t : Standing} {n : FileName} {e : IoError}
      (hnew : s.realPath ∉ passed) (hn : fs.Holds scope s n t)
      (h : Obstacle fs scope (s.realPath :: passed) (path.join n) t p e) : Obstacle fs scope passed path s p e

/-- Some directory that is reached from a root, itself perhaps, cannot be resolved or listed. -/
def Obstructed (fs : FileSystem) (scope : Scope) (root p : Path) (e : IoError) : Prop :=
  ∃ s l fault, fs.stat root = .ok s ∧ s.entry = .directory l fault ∧ fs.Obstacle scope [] root s p e

variable {fs : FileSystem} {scope : Scope} {fresh passed : List RealPath} {path root p : Path}
  {entries : Listing} {fault : Option IoError} {s t : Standing} {n : FileName} {e : IoError} {f : Failure}
  {room : Option Nat} {links left : Nat} {names more : List FileName}

/-! ### Looking up a path and its beginning -/

theorem leads_iff : fs.leads p = true ↔ ∃ s, fs.stat p = .ok s := by
  unfold leads
  cases fs.stat p with
  | error e => simp [Except.toBool]
  | ok s => simp [Except.toBool]

/-- Where more links may be followed, as many more are left. -/
theorem Leads.add (h : Leads fs room links s names left t) (k : Nat) :
    Leads fs room (links + k) s names (left + k) t := by
  induction h with
  | done => exact .done
  | here hs _ ih => exact .here hs ih
  | up hs _ ih => exact .up hs ih
  | @link links _ _ _ _ _ _ _ _ hs hdot hdots hfits hn _ ih =>
    have hlinks : links + 1 + k = links + k + 1 := by omega
    rw [hlinks]
    exact .link hs hdot hdots hfits hn ih
  | child hs hdot hdots hfits hn he _ ih => exact .child hs hdot hdots hfits hn he ih

theorem Leads.left_le (h : Leads fs room links s names left t) : left ≤ links := by
  induction h with
  | done => exact Nat.le_refl _
  | here _ _ ih => exact ih
  | up _ _ ih => exact ih
  | link _ _ _ _ _ _ ih => exact Nat.le_succ_of_le ih
  | child _ _ _ _ _ _ _ ih => exact ih

/-- However many links may be followed, names lead to one entry only. -/
theorem Leads.eq_of_links {links' left' : Nat} {t' : Standing} (h : Leads fs room links s names left t)
    (h' : Leads fs room links' s names left' t') : t = t' := by
  have hmore := h'.add links
  rw [Nat.add_comm] at hmore
  exact (h.add links').eq hmore

/-- What leads through some names and on leads through the names first. -/
theorem Leads.split {links left : Nat} {s t : Standing} {names more : List FileName}
    (h : Leads fs room links s (names ++ more) left t) :
    ∃ mid u, Leads fs room links s names mid u ∧ Leads fs room mid u more left t := by
  match names with
  | [] => exact ⟨links, s, .done, h⟩
  | n :: names =>
    cases h with
    | here hs h =>
      obtain ⟨mid, u, hfirst, hrest⟩ := h.split
      exact ⟨mid, u, .here hs hfirst, hrest⟩
    | up hs h =>
      obtain ⟨mid, u, hfirst, hrest⟩ := h.split
      exact ⟨mid, u, .up hs hfirst, hrest⟩
    | link hs hdot hdots hfits hn h =>
      -- The names of the target come before those that are left, so they belong to the first part.
      rw [List.append_eq, ← List.append_assoc] at h
      obtain ⟨mid, u, hfirst, hrest⟩ := h.split
      exact ⟨mid, u, .link hs hdot hdots hfits hn hfirst, hrest⟩
    | child hs hdot hdots hfits hn he h =>
      obtain ⟨mid, u, hfirst, hrest⟩ := h.split
      exact ⟨mid, u, .child hs hdot hdots hfits hn he hfirst, hrest⟩
termination_by (links, names.length)

/-- Names are followed from a directory only. -/
theorem Leads.exists_directory (h : Leads fs room links s (n :: names) left t) :
    ∃ l fault, s.entry = .directory l fault := by
  cases h with
  | here hs _ => exact ⟨_, _, hs⟩
  | up hs _ => exact ⟨_, _, hs⟩
  | link hs _ _ _ _ _ => exact ⟨_, _, hs⟩
  | child hs _ _ _ _ _ _ => exact ⟨_, _, hs⟩

/-- If a path below another can be looked up, so can the other. -/
theorem leads_of_leads_join (hp : p ≠ []) (hn : n.IsProper) (h : fs.leads (p.join n) = true) :
    fs.leads p = true := by
  obtain ⟨t, ht⟩ := leads_iff.mp h
  obtain ⟨hzero, left, hleft⟩ := leads_of_stat ht
  rw [Path.contains_zero_join p hn] at hzero
  rw [start_join p hn, Path.spelled_join p hn] at hleft
  -- The names of the longer path end in one that is looked up in a directory, and the shorter path leads there.
  obtain ⟨mid, u, hfirst, hlast⟩ := hleft.split
  obtain ⟨l, fault, hu⟩ := hlast.exists_directory
  have hshort : ¬ pathLimit ≤ p.length := by
    intro hlong
    have hjoin := Nat.le_trans hlong (Path.length_le_join p hn)
    have harrive : fs.arrive true (p.join n) = .error .nameTooLong := by
      unfold arrive
      rw [if_neg (by rw [Path.contains_zero_join p hn, hzero]; exact Bool.false_ne_true),
        if_neg (Path.join_ne_nil p hn), if_pos hjoin]
    rw [stat, harrive] at ht
    cases ht
  -- A dot behind the names, if the path ends in a solidus, stays in the directory.
  have hfollow : fs.follow true none linkLimit (fs.start p) p.names = .ok (.reached u) := by
    rcases p.names_eq with hnames | hnames
    · rw [hnames, hfirst.follow_eq]
    · rw [hnames, hfirst.follow_append true (List.cons_ne_nil _ _), follow_here true hu, follow]
  refine leads_iff.mpr ⟨u, ?_⟩
  unfold stat arrive
  rw [if_neg (by rw [hzero]; exact Bool.false_ne_true), if_neg hp, if_neg hshort, hfollow]
  rfl

/-! ### Directories that are held -/

theorem Holds.exists_directory (h : fs.Holds scope s n t) : ∃ l fault, t.entry = .directory l fault := by
  cases h with
  | directory _ _ _ => exact ⟨_, _, rfl⟩
  | link _ _ _ _ _ ht => exact ⟨_, _, ht⟩

theorem Holds.exists_entry (h : fs.Holds scope s n t) :
    ∃ entries e, s.entry = .directory entries none ∧ (n, e) ∈ entries ∧ scope.excludes n = false ∧
      ((∃ inner fault, e = .directory inner fault) ∨
        (∃ target, e = .link target) ∧ scope.followLinks = true) := by
  cases h with
  | directory hs hn hex => exact ⟨_, _, hs, hn, hex, Or.inl ⟨_, _, rfl⟩⟩
  | link hs hn hex hfollow _ _ => exact ⟨_, _, hs, hn, hex, Or.inr ⟨⟨_, rfl⟩, hfollow⟩⟩

theorem Holds.isProper (hfs : fs.WellFormed) (hplaced : fs.Placed s) (h : fs.Holds scope s n t) :
    n.IsProper := by
  obtain ⟨entries, e, hs, hn, -⟩ := h.exists_entry
  exact (hplaced.throughout hfs hs).here.proper n (List.mem_map.mpr ⟨(n, e), hn, rfl⟩)

theorem Holds.placed (hfs : fs.WellFormed) (hplaced : fs.Placed s) (h : fs.Holds scope s n t) :
    fs.Placed t := by
  cases h with
  | directory hs hn _ =>
    have hl := (hplaced.throughout hfs hs).here
    exact hplaced.child hs (Listing.lookup_of_mem hl.nodup hn)
  | link _ _ _ _ hreach _ => exact hplaced.of_follow hreach

/-- A directory that is held is what is looked up at its path, if anything is. -/
theorem Holds.eq_of_stat {u : Standing} (hfs : fs.WellFormed) (hs : fs.stat path = .ok s)
    (h : fs.Holds scope s n t) (hu : fs.stat (path.join n) = .ok u) : u = t := by
  have hproper := h.isProper hfs (Placed.of_stat hs)
  cases h with
  | directory hdir hn _ =>
    have hl := ((Placed.of_stat hs).throughout hfs hdir).here
    exact eq_child_of_stat_join hs hdir hproper (Listing.lookup_of_mem hl.nodup hn) (by simp) hu
  | link _ _ _ _ hreach _ =>
    -- On the way to the directory some links may have been followed, but the way on from it is the same.
    obtain ⟨links, harrive⟩ := exists_arrive_join hs hproper
    have hreached := reached_of_entryOf hu
    rw [harrive] at hreached
    split at hreached
    · cases hreached
    · obtain ⟨_, hleads⟩ := exists_leads_of_follow hreached
      obtain ⟨_, hheld⟩ := exists_leads_of_follow hreach
      exact hleads.eq_of_links hheld

/-- What is shown as a folder is held, and it can be looked up. -/
theorem exists_holds_of_shownAt (hs : fs.stat path = .ok s) (hdir : s.entry = .directory entries none)
    (hl : entries.IsProper) (hn : n ∈ entries.map Prod.fst) (hex : scope.excludes n = false)
    (h : fs.shownAt scope (path.join n) = some .folder) :
    ∃ t, fs.Holds scope s n t ∧ fs.stat (path.join n) = .ok t := by
  obtain ⟨e, he, hlook⟩ := FileSystem.exists_entry hl hn
  obtain ⟨hseen, hkind⟩ := (shownAt_join_eq_folder_iff hs hdir hl he).mp h
  obtain ⟨t, inner, fault, ht, hinner⟩ := isDirectory_iff.mp hseen
  refine ⟨t, ?_, ht⟩
  have hproper := hl.proper n hn
  rcases hkind with ⟨l, fault', rfl⟩ | ⟨⟨target, rfl⟩, hfollow⟩
  · obtain rfl := eq_child_of_stat_join hs hdir hproper hlook (by simp) ht
    exact .directory hdir he hex
  · refine .link hdir he hex hfollow ?_ hinner
    -- From the directory itself no fewer links may be followed than are left on the way to it.
    obtain ⟨-, left, hleft⟩ := leads_of_stat ht
    rw [start_join path hproper, Path.spelled_join path hproper] at hleft
    obtain ⟨mid, u, hfirst, hlast⟩ := hleft.split
    obtain ⟨-, left', hleft'⟩ := leads_of_stat hs
    obtain rfl := hfirst.eq hleft'
    have hmore := hlast.add (linkLimit - mid)
    rw [Nat.add_sub_cancel' hfirst.left_le] at hmore
    exact hmore.follow_eq

/-! ### Obstacles fail the building -/

/-- A failure names an obstacle, whose path can be looked up. -/
theorem exists_obstacle_of_chartOf (hfs : fs.WellFormed) {fresh passed : List RealPath} {path : Path}
    {s : Standing} {entries : Listing} {fault : Option IoError} {f : Failure} (hs : fs.stat path = .ok s)
    (hdir : s.entry = .directory entries fault) (hsplits : fs.Splits fresh passed)
    (h : fs.chartOf scope fresh path = .error f) :
    ∃ p e, fs.Obstacle scope passed path s p e ∧ fs.leads p = true ∧ f = .directoryRead p.shown e := by
  have hplaced := Placed.of_stat hs
  obtain ⟨e, hreal, hf⟩ | ⟨real, hreal, hfresh, hbelow⟩ := exists_of_chartOf_eq_error h
  · exact ⟨path, e, .unresolved hreal, leads_iff.mpr ⟨s, hs⟩, hf⟩
  · obtain rfl := resolve_eq_stat hreal hs
    have hnew := (hsplits.mem_iff _ (hplaced.mem_directories hdir).1).mp hfresh
    obtain ⟨e, hlist, hf⟩ | ⟨listed, n, hlist, hn, hex, hshown, hchart⟩ := hbelow
    · exact ⟨path, e, .unlisted hnew hlist, leads_iff.mpr ⟨real, hs⟩, hf⟩
    · -- The directory itself is listed, so it is below one of its names that something fails.
      obtain ⟨_, hs', hlisted⟩ := exists_stat_of_list hlist
      obtain rfl := Except.ok.inj (hs.symm.trans hs')
      obtain ⟨t, hheld, ht⟩ := exists_holds_of_shownAt hs hlisted
        (hplaced.throughout hfs hlisted).here hn hex hshown
      obtain ⟨l, fault', hl⟩ := hheld.exists_directory
      obtain ⟨p, e, hobstacle, hp, hf⟩ := exists_obstacle_of_chartOf hfs ht hl
        (hsplits.erase real.realPath) hchart
      exact ⟨p, e, .inside hnew hheld hobstacle, hp, hf⟩
termination_by fresh.length
decreasing_by exact length_erase_lt hfresh

/-- If an obstacle can be looked up, so can all directories on the way to it. -/
theorem Obstacle.leads (hfs : fs.WellFormed) (h : fs.Obstacle scope passed path s p e)
    (hplaced : fs.Placed s) (hpath : path ≠ []) (hp : fs.leads p = true) : fs.leads path = true := by
  induction h with
  | unresolved _ => exact hp
  | unlisted _ _ => exact hp
  | inside _ hheld _ ih =>
    have hn := hheld.isProper hfs hplaced
    have hjoin := ih (hheld.placed hfs hplaced) (Path.join_ne_nil _ hn) hp
    exact leads_of_leads_join hpath hn hjoin

/-- An obstacle whose path can be looked up fails the building. -/
theorem exists_failure_of_obstacle (hfs : fs.WellFormed) (h : fs.Obstacle scope passed path s p e)
    (hs : fs.stat path = .ok s) (hdir : s.entry = .directory entries fault)
    (hsplits : fs.Splits fresh passed) (hp : fs.leads p = true) :
    ∃ f, fs.chartOf scope fresh path = .error f := by
  induction h generalizing fresh entries fault with
  | unresolved hreal => exact ⟨_, chartOf_of_unresolved hreal⟩
  | @unlisted passed path s e hnew hlist =>
    -- The directory is resolved first, which may fail already.
    cases hreal : fs.resolve path with
    | error e => exact ⟨_, chartOf_of_unresolved hreal⟩
    | ok real =>
      obtain rfl := resolve_eq_stat hreal hs
      have hfresh := (hsplits.mem_iff _ ((Placed.of_stat hs).mem_directories hdir).1).mpr hnew
      exact ⟨_, chartOf_of_unlisted hreal hfresh hlist⟩
  | @inside passed path p s t n e hnew hheld hobstacle ih =>
    cases hreal : fs.resolve path with
    | error e => exact ⟨_, chartOf_of_unresolved hreal⟩
    | ok real =>
      obtain rfl := resolve_eq_stat hreal hs
      have hplaced := Placed.of_stat hs
      have hfresh := (hsplits.mem_iff _ (hplaced.mem_directories hdir).1).mpr hnew
      -- Below the directory the obstacle can be reached only by its own path, which can be looked up.
      have hn := hheld.isProper hfs hplaced
      have hjoin := hobstacle.leads hfs (hheld.placed hfs hplaced) (Path.join_ne_nil path hn) hp
      obtain ⟨u, hu⟩ := leads_iff.mp hjoin
      obtain rfl := hheld.eq_of_stat hfs hs hu
      obtain ⟨l, fault', hl⟩ := hheld.exists_directory
      obtain ⟨f, hf⟩ := ih hu hl (hsplits.erase real.realPath) hp
      -- So the entry is shown as a folder, and its failure is that of the whole directory.
      obtain ⟨listed, e', hlisted, he, hex, hkind⟩ := hheld.exists_entry
      have hproper := (hplaced.throughout hfs hlisted).here
      have hshown : fs.shownAt scope (path.join n) = some .folder :=
        (shownAt_join_eq_folder_iff hs hlisted hproper he).mpr
          ⟨isDirectory_iff.mpr ⟨u, l, fault', hu, hl⟩, hkind⟩
      have hchart : fs.chartAt scope (fresh.erase real.realPath) (path.join n) = .error f := by
        rw [chartAt_eq_shownAt, hshown]
        exact hf
      exact exists_failure_of_chartAt hreal (list_of_directory hs hlisted) hfresh
        (List.mem_map.mpr ⟨(n, e'), he, rfl⟩) hex hchart

/-- What a failure says: that the root is no directory, or which obstacle there is. -/
theorem folderTree_eq_error (hfs : fs.WellFormed) (h : fs.folderTree scope root = .error f) :
    f = .invalidPath root.shown ∧ fs.isDirectory root = false ∨
      ∃ p e, fs.Obstructed scope root p e ∧ fs.leads p = true ∧ f = .directoryRead p.shown e := by
  rw [folderTree_eq_chart] at h
  unfold chart at h
  by_cases hroot : fs.isDirectory root = true
  · obtain ⟨s, l, fault, hs, hdir⟩ := isDirectory_iff.mp hroot
    rw [if_pos hroot] at h
    cases hc : fs.chartOf scope fs.directories root with
    | error f' =>
      rw [hc] at h
      obtain rfl := Except.error.inj h
      obtain ⟨p, e, hobstacle, hp, hf⟩ :=
        exists_obstacle_of_chartOf hfs hs hdir (splits_directories hfs) hc
      exact Or.inr ⟨p, e, ⟨s, l, fault, hs, hdir, hobstacle⟩, hp, hf⟩
    | ok c? =>
      cases c? with
      | none =>
        have hmem := ((Placed.of_stat hs).mem_directories hdir).1
        exact absurd hmem (mem_of_chartOf_eq_none hc hs)
      | some c => simp [hc, Except.map] at h
  · rw [if_neg hroot] at h
    exact Or.inl ⟨(Except.error.inj h).symm, by simpa using hroot⟩

/-- A tree fails to be built exactly if its root is no directory or there is an obstacle that can be looked up. -/
theorem exists_failure_iff (hfs : fs.WellFormed) :
    (∃ f, fs.folderTree scope root = .error f) ↔
      fs.isDirectory root = false ∨ ∃ p e, fs.Obstructed scope root p e ∧ fs.leads p = true := by
  constructor
  · rintro ⟨f, hf⟩
    rcases folderTree_eq_error hfs hf with ⟨-, hroot⟩ | ⟨p, e, hobstructed, hp, -⟩
    · exact Or.inl hroot
    · exact Or.inr ⟨p, e, hobstructed, hp⟩
  · rintro (hroot | ⟨p, e, ⟨s, l, fault, hs, hdir, hobstacle⟩, hp⟩)
    · unfold folderTree
      rw [hroot]
      exact ⟨_, rfl⟩
    · obtain ⟨f, hf⟩ := exists_failure_of_obstacle hfs hobstacle hs hdir (splits_directories hfs) hp
      rw [folderTree_eq_chart]
      unfold chart
      rw [if_pos (isDirectory_iff.mpr ⟨s, l, fault, hs, hdir⟩), hf]
      exact ⟨f, rfl⟩

/-- Building a tree ends, however links lead round, and a tree that is built leaves the stack empty. No directory is
entered twice on a way down, so no tree is deeper than there are directories. The building fails exactly if the root
is no directory or there is an obstacle that can be looked up, so obstacles fail it unless none of them can be. -/
theorem folderTree_ends (hfs : fs.WellFormed) (scope : Scope) (root : Path) :
    (∀ room, fs.directories.length < room →
      (fs.treeOnStack scope room root).Gives (fs.folderTree scope root) []) ∧
    (∀ tree, fs.folderTree scope root = .ok tree → tree.folderDepth ≤ fs.directories.length ∧
      ∃ c : Chart, tree = c.node (rootName root) ∧ ∀ way, c.At way .folder →
        (fs.trail root way).Nodup ∧ (fs.trail root way).length = way.length + 1 ∧
          ∀ q ∈ fs.trail root way, q ∈ fs.directories) ∧
    (∀ f, fs.folderTree scope root = .error f →
      f = .invalidPath root.shown ∧ fs.isDirectory root = false ∨
        ∃ p e, fs.Obstructed scope root p e ∧ fs.leads p = true ∧ f = .directoryRead p.shown e) ∧
    ((∃ f, fs.folderTree scope root = .error f) ↔
      fs.isDirectory root = false ∨ ∃ p e, fs.Obstructed scope root p e ∧ fs.leads p = true) ∧
    (((∃ f, fs.folderTree scope root = .error f) ↔
        fs.isDirectory root = false ∨ ∃ p e, fs.Obstructed scope root p e) ↔
      ((∃ p e, fs.Obstructed scope root p e) →
        ∃ p e, fs.Obstructed scope root p e ∧ fs.leads p = true)) := by
  have hfails : (∃ f, fs.folderTree scope root = .error f) ↔
      fs.isDirectory root = false ∨ ∃ p e, fs.Obstructed scope root p e ∧ fs.leads p = true :=
    exists_failure_iff hfs
  refine ⟨fun room hroom => treeOnStack_gives hfs hroom, fun tree h => ?_, fun f h => ?_, hfails, ?_⟩
  · exact ⟨folderDepth_le_of_folderTree hfs h, exists_trails_of_folderTree hfs h⟩
  · exact folderTree_eq_error hfs h
  · rw [hfails]
    constructor
    · rintro hiff ⟨p, e, hobstructed⟩
      have hroot : fs.isDirectory root ≠ false := by
        obtain ⟨s, l, fault, hs, hdir, -⟩ := hobstructed
        simp [isDirectory_iff.mpr ⟨s, l, fault, hs, hdir⟩]
      exact (hiff.mpr (Or.inr ⟨p, e, hobstructed⟩)).resolve_left hroot
    · intro hseen
      apply or_congr_right
      exact ⟨fun ⟨p, e, hobstructed, _⟩ => ⟨p, e, hobstructed⟩, hseen⟩

/-- A directory `r` that holds a directory `d`, where one source file is, which must not be listed. -/
def locked : FileSystem where
  entries := [([0x72], .directory
    [([0x64], .directory [([0x61, dot, 0x70, 0x79], .file (.ok []))] (some (.system 13)))])]
  current := []

theorem obstructed_locked :
    locked.Obstructed ⟨[], true⟩ [0x72] (Path.join [0x72] [0x64]) (.system 13) := by
  have hs : locked.stat [0x72] = .ok (locked.top.child [0x72] (.directory
      [([0x64], .directory [([0x61, dot, 0x70, 0x79], .file (.ok []))] (some (.system 13)))])) := by
    cbv
  have hlist : locked.list (Path.join [0x72] [0x64]) = .error (.system 13) := by cbv
  refine ⟨_, _, _, hs, rfl, ?_⟩
  exact .inside (by simp) (.directory rfl List.mem_cons_self rfl) (.unlisted (by decide) hlist)

theorem folderTree_ends_climbing_locked :
    (climbing.WellFormed ∧
      (climbing.treeOnStack ⟨[], true⟩ 3 [0x72]).Gives
        (.ok (.folder "r" [.file "a.py", .folder "up" []])) [] ∧
      (Node.folder "r" [.file "a.py", .folder "up" []]).folderDepth ≤ 2) ∧
    locked.WellFormed ∧
      locked.Obstructed ⟨[], true⟩ [0x72] (Path.join [0x72] [0x64]) (.system 13) ∧
      ∃ p e, locked.Obstructed ⟨[], true⟩ [0x72] p e ∧ locked.leads p = true ∧
        locked.folderTree ⟨[], true⟩ [0x72] = .error (.directoryRead p.shown e) := by
  refine ⟨?_, ?_⟩
  · have hfs : climbing.WellFormed := by decide
    have hdirs : climbing.directories = [[], [[0x72]]] := by cbv
    obtain ⟨hends, hdepth, -⟩ := folderTree_ends hfs ⟨[], true⟩ [0x72]
    rw [folderTree_climbing, hdirs] at hends hdepth
    exact ⟨hfs, hends 3 (by decide), (hdepth _ rfl).1⟩
  · have hfs : locked.WellFormed := by decide
    obtain ⟨-, -, hfailure, hfails, -⟩ := folderTree_ends hfs ⟨[], true⟩ [0x72]
    have hseen : locked.leads (Path.join [0x72] [0x64]) = true := by cbv
    have hroot : locked.isDirectory [0x72] = true := by cbv
    -- The directory can be looked up, so its fault fails the building.
    obtain ⟨f, hf⟩ := hfails.mpr (Or.inr ⟨_, _, obstructed_locked, hseen⟩)
    obtain ⟨-, hnot⟩ | ⟨p, e, hp, hleads, rfl⟩ := hfailure f hf
    · rw [hroot] at hnot
      cases hnot
    · exact ⟨hfs, obstructed_locked, p, e, hp, hleads, hf⟩

section

/-- A directory `r` that holds an empty directory `d`. -/
def nested : FileSystem where
  entries := [([0x72], .directory [([0x64], .directory [])])]
  current := []

/-- The directory `r`, with a solidus behind it and so many more. -/
def padded (count : Nat) : Path := 0x72 :: solidus :: List.replicate count solidus

theorem segments_solidi (count : Nat) :
    Path.segments (List.replicate count solidus) = List.replicate (count + 1) [] := by
  induction count with
  | zero => rfl
  | succ count ih =>
    rw [List.replicate_succ, Path.segments, if_pos rfl, ih]
    rfl

theorem names_padded (count : Nat) : (padded count).names = [[0x72], [dot]] := by
  have hsegments : (padded count).segments = [0x72] :: List.replicate (count + 1) [] := by
    have hroot : padded count = [0x72] ++ solidus :: List.replicate count solidus := rfl
    rw [hroot, Path.segments_append_solidus, segments_solidi]
    rfl
  have hnames : (padded count).segments.filter (· != []) = [[0x72]] := by
    rw [hsegments, List.filter_cons, List.filter_replicate]
    rfl
  have hlast : (padded count).getLast? = some solidus := by
    cases count with
    | zero => rfl
    | succ count => simp [padded, List.getLast?_cons, List.getLast?_replicate]
  unfold Path.names
  dsimp only
  rw [hnames, if_pos ⟨hlast, by simp⟩]
  rfl

theorem length_padded (count : Nat) : (padded count).length = count + 2 := by
  simp [padded]

theorem contains_zero_padded (count : Nat) : (padded count).contains 0 = false := by
  simp [padded, solidus]

/-- Solidi behind a directory lead nowhere else. -/
theorem follow_padded (room : Option Nat) (count : Nat) (hroom : room = none ∨ room = some pathLimit) :
    nested.follow true room linkLimit (nested.start (padded count)) (padded count).names =
      .ok (.reached (nested.top.child [0x72] (.directory [([0x64], .directory [])]))) := by
  have hstart : nested.start (padded count) = nested.top := by
    unfold start
    rw [if_neg (by rw [Path.isAbsolute, padded, List.head?_cons]; decide)]
    cbv
  rw [hstart, names_padded]
  rcases hroom with rfl | rfl
  · cbv
  · cbv

theorem stat_padded (count : Nat) (h : count + 2 < pathLimit) : nested.stat (padded count) =
    .ok (nested.top.child [0x72] (.directory [([0x64], .directory [])])) := by
  have hlength : ¬ pathLimit ≤ (padded count).length := by
    rw [length_padded]
    omega
  unfold stat arrive
  rw [contains_zero_padded, if_neg Bool.false_ne_true, if_neg (by simp [padded]), if_neg hlength,
    follow_padded none count (Or.inl rfl)]
  rfl

theorem resolve_padded (count : Nat) : nested.resolve (padded count) =
    .ok (nested.top.child [0x72] (.directory [([0x64], .directory [])])) := by
  unfold resolve
  rw [contains_zero_padded, if_neg Bool.false_ne_true, if_neg (by simp [padded]),
    follow_padded _ count (Or.inr rfl)]
  rfl

/-- With enough solidi, there is no room for a name behind them. -/
theorem stat_join_padded (count : Nat) (h : count + 2 < pathLimit) (hlong : pathLimit ≤ count + 3) :
    nested.stat ((padded count).join [0x64]) = .error .nameTooLong ∧
      nested.lstat ((padded count).join [0x64]) = .error .nameTooLong := by
  have hn : FileName.IsProper [0x64] := by decide
  have hlength : pathLimit ≤ ((padded count).join [0x64]).length := by
    rcases Path.join_cases (padded count) hn.solidus_not_mem with
      ⟨hnil, -⟩ | ⟨q, hq, hjoin⟩ | ⟨-, hjoin⟩
    · simp [padded] at hnil
    · have hlength := congrArg List.length hq
      rw [length_padded, List.length_append, List.length_singleton] at hlength
      rw [hjoin, List.length_append, List.length_cons, List.length_singleton]
      omega
    · rw [hjoin, List.length_append, length_padded, List.length_cons]
      omega
  obtain ⟨left, harrive⟩ := exists_arrive_join (stat_padded count h) hn
  simp [stat, lstat, harrive, hlength, entryOf]

/-- A directory that cannot be listed does not fail the building if it cannot be looked up either: it is shown as
a file. -/
theorem folderTree_hides_obstacle : nested.WellFormed ∧ nested.isDirectory (padded 4093) = true ∧
    nested.Obstructed ⟨[], true⟩ (padded 4093) ((padded 4093).join [0x64]) .nameTooLong ∧
    nested.folderTree ⟨[], true⟩ (padded 4093) = .ok (.folder (rootName (padded 4093)) [.file "d"]) := by
  have hs := stat_padded 4093 (by decide)
  obtain ⟨hstat, hlstat⟩ := stat_join_padded 4093 (by decide) (by decide)
  have hroot : nested.isDirectory (padded 4093) = true := isDirectory_iff.mpr ⟨_, _, _, hs, rfl⟩
  refine ⟨by decide, hroot, ⟨_, _, _, hs, rfl, ?_⟩, ?_⟩
  · have hlist : nested.list ((padded 4093).join [0x64]) = .error .nameTooLong := by
      unfold list
      rw [hstat]
      rfl
    exact .inside (by simp) (.directory rfl List.mem_cons_self rfl) (.unlisted (by decide) hlist)
  · have hnames : shownOrder [([0x64], Entry.directory [])] = [[0x64]] :=
      List.mergeSort_of_pairwise (by simp)
    have hfresh : (nested.top.child [0x72] (.directory [([0x64], .directory [])])).realPath ∈
        nested.directories := by
      have hdirs : nested.directories = [[], [[0x72]], [[0x72], [0x64]]] := by cbv
      rw [hdirs]
      decide
    have htext : Utf8.decodeLossy [0x64] = "d" := by cbv
    -- No room is left for the path of `d`, so nothing is found out about it and it is shown as a file.
    have hnodes (fresh : List RealPath) : nested.nodesAt ⟨[], true⟩ fresh (padded 4093)
        (shownOrder [([0x64], .directory [])]) = .ok [.file "d"] := by
      rw [hnames, nodesAt, if_neg (by decide), nodeAt, hlstat, nodesAt, htext]
      rfl
    exact folderTree_of_list hroot (resolve_padded 4093) hfresh (list_of_directory hs rfl) (hnodes _)

end

end FileSystem

end RepoSurvey
