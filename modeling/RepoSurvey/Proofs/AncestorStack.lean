import RepoSurvey.Proofs.Admissible

/-!
Building the folder tree of a repository with a stack of the directories on the way down. A directory is put on
the stack when it is entered and taken off when it is left, so each part of the building leaves the stack as it
has found it. None of the directories on the stack occurs twice, and this bounds how deep the building goes and
how deep a tree can be.
-/

namespace RepoSurvey

/-- What a part of the building comes to, and the stack that it leaves behind. There is nothing if the part would
have had to go deeper than it may. -/
abbrev Descent (α : Type) := Option (Except Failure α × List RealPath)

namespace Descent

variable {α β : Type}

def andThen (d : Descent α) (f : α → List RealPath → Descent β) : Descent β :=
  match d with
  | none => none
  | some (.error e, left) => some (.error e, left)
  | some (.ok a, left) => f a left

/-- A part of the building has come to a result, and where this is no failure the stack is as it was. -/
def Gives (d : Descent α) (r : Except Failure α) (stack : List RealPath) : Prop :=
  ∃ left, d = some (r, left) ∧ ∀ a, r = .ok a → left = stack

theorem gives_some (r : Except Failure α) (stack : List RealPath) : Gives (some (r, stack)) r stack :=
  ⟨stack, rfl, fun _ _ => rfl⟩

/-- What follows a part of the building begins with the stack with which the part has begun. -/
theorem Gives.andThen {d : Descent α} {r : Except Failure α} {stack stack' : List RealPath}
    {f : α → List RealPath → Descent β} {g : α → Except Failure β} (h : d.Gives r stack)
    (hf : ∀ a, r = .ok a → (f a stack).Gives (g a) stack') : (d.andThen f).Gives (r.bind g) stack' := by
  obtain ⟨left, rfl, hleft⟩ := h
  cases r with
  | error e => exact ⟨left, rfl, fun b hb => by cases hb⟩
  | ok a =>
    obtain rfl := hleft a rfl
    exact hf a rfl

end Descent

namespace FileSystem

/-- The node of an entry, where `enter` builds the folder of a directory. -/
def nodeOnStack (fs : FileSystem) (scope : Scope)
    (enter : List RealPath → Path → String → Descent (Option Node)) (stack : List RealPath) (path : Path)
    (name : String) : Descent (Option Node) :=
  match fs.lstat path with
  | .error _ => some (.ok (some (.file name)), stack)
  | .ok s =>
    match s.entry with
    | .directory _ _ => enter stack path name
    | .link _ =>
      if fs.isDirectory path then
        if scope.followLinks then enter stack path name else some (.ok none, stack)
      else some (.ok (some (.file name)), stack)
    | _ => some (.ok (some (.file name)), stack)

/-- The nodes of some names in a directory, where `enter` builds the folders. Each name finds the stack that the
one before has left. -/
def nodesOnStack (fs : FileSystem) (scope : Scope)
    (enter : List RealPath → Path → String → Descent (Option Node)) (path : Path) :
    List FileName → List RealPath → Descent (List Node)
  | [], stack => some (.ok [], stack)
  | n :: names, stack =>
    if scope.excludes n then fs.nodesOnStack scope enter path names stack
    else
      (fs.nodeOnStack scope enter stack (path.join n) (Utf8.decodeLossy n)).andThen fun node left =>
        (fs.nodesOnStack scope enter path names left).andThen fun nodes left =>
          some (.ok (node.toList ++ nodes), left)

/-- The folder of the directory at a path, unless the directory is on the stack. At most `room` calls may stand
within each other. -/
def folderOnStack (fs : FileSystem) (scope : Scope) :
    (room : Nat) → List RealPath → Path → String → Descent (Option Node)
  | 0, _, _, _ => none
  | room + 1, stack, path, name =>
    match fs.resolve path with
    | .error e => some (.error (.directoryRead path.shown e), stack)
    | .ok real =>
      if real.realPath ∈ stack then some (.ok none, stack)
      else
        match fs.list path with
        | .error e => some (.error (.directoryRead path.shown e), stack)
        | .ok entries =>
          (fs.nodesOnStack scope (fs.folderOnStack scope room) path (shownOrder entries)
            (real.realPath :: stack)).andThen fun nodes left =>
              some (.ok (some (.folder name nodes)), left.tail)

/-- The folder tree of a repository, built with a stack that is empty at first. -/
def treeOnStack (fs : FileSystem) (scope : Scope) (room : Nat) (root : Path) : Descent Node :=
  if fs.isDirectory root then
    (fs.folderOnStack scope room [] root (rootName root)).andThen fun node? left =>
      match node? with
      | none => some (.error (.invalidPath root.shown), left)
      | some node => some (.ok node, left)
  else some (.error (.invalidPath root.shown), [])

variable {fs : FileSystem} {scope : Scope} {fresh stack : List RealPath} {path root : Path}
  {entries : Listing} {fault : Option IoError} {s t : Standing} {n : FileName} {name : String} {room : Nat}

/-! ### The building ends -/

theorem nodeOnStack_eq_shownAt (enter : List RealPath → Path → String → Descent (Option Node)) :
    fs.nodeOnStack scope enter stack path name =
      match fs.shownAt scope path with
      | none => some (.ok none, stack)
      | some .file => some (.ok (some (.file name)), stack)
      | some .folder => enter stack path name := by
  rw [nodeOnStack, shownAt]
  cases fs.lstat path with
  | error e => rfl
  | ok s => exact match_shownAs fs scope path s.entry _ _ _

theorem nodesAt_cons_of_not_excludes (names : List FileName) (hex : ¬ scope.excludes n = true) :
    fs.nodesAt scope fresh path (n :: names) =
      (fs.nodeAt scope fresh (path.join n) (Utf8.decodeLossy n)).bind fun node =>
        (fs.nodesAt scope fresh path names).bind fun nodes => .ok (node.toList ++ nodes) := by
  rw [nodesAt, if_neg hex]
  cases fs.nodeAt scope fresh (path.join n) (Utf8.decodeLossy n) with
  | error e => rfl
  | ok node =>
    cases fs.nodesAt scope fresh path names with
    | error e => rfl
    | ok nodes => rfl

/-- If each folder that is entered in a directory is built as it should be, so are all nodes in the directory. -/
theorem nodesOnStack_gives {enter : List RealPath → Path → String → Descent (Option Node)}
    {names : List FileName}
    (henter : ∀ n ∈ names, fs.shownAt scope (path.join n) = some .folder → ∀ name,
      (enter stack (path.join n) name).Gives (fs.folderAt scope fresh (path.join n) name) stack) :
    (fs.nodesOnStack scope enter path names stack).Gives (fs.nodesAt scope fresh path names) stack := by
  induction names with
  | nil =>
    rw [nodesAt]
    exact Descent.gives_some _ stack
  | cons n names ih =>
    obtain ⟨hn, hnames⟩ := List.forall_mem_cons.mp henter
    rw [nodesOnStack]
    by_cases hex : scope.excludes n = true
    · rw [if_pos hex, nodesAt, if_pos hex]
      exact ih hnames
    · rw [if_neg hex, nodesAt_cons_of_not_excludes names hex]
      have hnode : (fs.nodeOnStack scope enter stack (path.join n) (Utf8.decodeLossy n)).Gives
          (fs.nodeAt scope fresh (path.join n) (Utf8.decodeLossy n)) stack := by
        rw [nodeOnStack_eq_shownAt, nodeAt_eq_shownAt]
        cases hshown : fs.shownAt scope (path.join n) with
        | none => exact Descent.gives_some _ stack
        | some kind =>
          cases kind with
          | file => exact Descent.gives_some _ stack
          | folder => exact hn hshown _
      -- The entry leaves the stack as it was, so the next name finds it as this one has.
      refine hnode.andThen fun node _ => ?_
      exact (ih hnames).andThen fun nodes _ => Descent.gives_some _ stack

/-- Under a name in a directory stands what is shown as a folder exactly if a directory is looked up there, by
its own name or through a link that is followed. -/
theorem shownAt_join_eq_folder_iff {e : Entry} (hs : fs.stat path = .ok s)
    (hdir : s.entry = .directory entries fault) (hl : entries.IsProper) (he : (n, e) ∈ entries) :
    fs.shownAt scope (path.join n) = some .folder ↔ fs.isDirectory (path.join n) = true ∧
      ((∃ inner fault, e = .directory inner fault) ∨
        (∃ target, e = .link target) ∧ scope.followLinks = true) := by
  have hn := hl.proper n (List.mem_map.mpr ⟨(n, e), he, rfl⟩)
  have hlook := Listing.lookup_of_mem hl.nodup he
  have hunseen {err : IoError} (h : fs.stat (path.join n) = .error err) :
      fs.isDirectory (path.join n) = false := by
    rw [isDirectory, h]
  rw [shownAt]
  by_cases hlink : ∃ target, e = .link target
  · obtain ⟨target, rfl⟩ := hlink
    rcases lstat_join_of_link hs hdir hn hlook with hlstat | ⟨hlstat, hstat⟩
    · rw [hlstat]
      dsimp only [shownAs, Standing.child]
      split
      · simp [*]
      · simp [*]
    · simp [hlstat, hunseen hstat]
  · obtain ⟨hlstat, hstat⟩ := stat_join_of_not_link hs hdir hn hlook fun target he => hlink ⟨target, he⟩
    rcases hstat with hstat | hstat
    · simp [hlstat, hstat, hunseen hstat]
    · have hseen : fs.isDirectory (path.join n) = e.isDirectory := by
        rw [isDirectory, hstat]
        rfl
      rw [hlstat, hstat, hseen]
      cases e with
      | link target => exact absurd ⟨target, rfl⟩ hlink
      | _ => simp [shownAs, Standing.child, Entry.isDirectory]

/-- A folder is built with one call less within it, and with its real path on the stack. -/
theorem folderOnStack_succ (fs : FileSystem) (scope : Scope) (room : Nat) (stack : List RealPath)
    (path : Path) (name : String) :
    fs.folderOnStack scope (room + 1) stack path name =
      match fs.resolve path with
      | .error e => some (.error (.directoryRead path.shown e), stack)
      | .ok real =>
        if real.realPath ∈ stack then some (.ok none, stack)
        else
          match fs.list path with
          | .error e => some (.error (.directoryRead path.shown e), stack)
          | .ok entries =>
            (fs.nodesOnStack scope (fs.folderOnStack scope room) path (shownOrder entries)
              (real.realPath :: stack)).andThen fun nodes left =>
                some (.ok (some (.folder name nodes)), left.tail) := rfl

/-- As long as there is more room than directories that have not been passed, a folder is built, and the stack is
left as it is found. -/
theorem folderOnStack_gives (hfs : fs.WellFormed) (hs : fs.stat path = .ok s)
    (hdir : s.entry = .directory entries fault) (hsplits : fs.Splits fresh stack)
    (hroom : fresh.length < room) :
    (fs.folderOnStack scope room stack path name).Gives (fs.folderAt scope fresh path name) stack := by
  -- On the room. What is put on the stack is taken out of `fresh`, so both become less.
  induction room generalizing fresh stack path s entries fault name with
  | zero => cases hroom
  | succ room ih =>
    rw [folderOnStack_succ, folderAt]
    cases hreal : fs.resolve path with
    | error e => exact Descent.gives_some _ stack
    | ok real =>
      obtain rfl := resolve_eq_stat hreal hs
      have hplaced := Placed.of_stat hs
      have hfresh := hsplits.mem_iff _ (hplaced.mem_directories hdir).1
      dsimp only
      by_cases hpassed : real.realPath ∈ stack
      · rw [if_pos hpassed, dif_neg (hfresh.not.mpr (not_not.mpr hpassed))]
        exact Descent.gives_some _ stack
      · have hmem := hfresh.mpr hpassed
        have hless := length_erase_lt hmem
        rw [if_neg hpassed, dif_pos hmem]
        cases hlist : fs.list path with
        | error e => exact Descent.gives_some _ stack
        | ok listed =>
          obtain ⟨_, hs', hlisted⟩ := exists_stat_of_list hlist
          obtain rfl := Except.ok.inj (hs.symm.trans hs')
          dsimp only
          have henter : ∀ n ∈ shownOrder listed, fs.shownAt scope (path.join n) = some .folder → ∀ name,
              (fs.folderOnStack scope room (real.realPath :: stack) (path.join n) name).Gives
                (fs.folderAt scope (fresh.erase real.realPath) (path.join n) name)
                (real.realPath :: stack) := by
            intro n hn hshown name
            have hl := (hplaced.throughout hfs hlisted).here
            obtain ⟨e, he, -⟩ := exists_entry hl (mem_shownOrder.mp hn)
            obtain ⟨hseen, -⟩ := (shownAt_join_eq_folder_iff hs hlisted hl he).mp hshown
            obtain ⟨t, inner, fault', ht, hinner⟩ := isDirectory_iff.mp hseen
            exact ih ht hinner (hsplits.erase real.realPath) (by omega)
          exact (nodesOnStack_gives henter).andThen fun nodes _ => Descent.gives_some _ stack

/-- More room than there are directories is enough for any tree. -/
theorem treeOnStack_gives (hfs : fs.WellFormed) (hroom : fs.directories.length < room) :
    (fs.treeOnStack scope room root).Gives (fs.folderTree scope root) [] := by
  unfold treeOnStack folderTree
  by_cases hroot : fs.isDirectory root = true
  · rw [if_pos hroot, if_pos hroot]
    obtain ⟨s, entries, fault, hs, hdir⟩ := isDirectory_iff.mp hroot
    have hfolder : (fs.folderOnStack scope room [] root (rootName root)).Gives
        (fs.folderAt scope fs.directories root (rootName root)) [] :=
      folderOnStack_gives hfs hs hdir (splits_directories hfs) hroom
    obtain ⟨left, hbuilt, hleft⟩ := hfolder
    rw [hbuilt]
    -- After a failure the stack may hold anything, as nothing looks at it any more.
    cases hfolderAt : fs.folderAt scope fs.directories root (rootName root) with
    | error e => exact ⟨left, rfl, fun _ h => by cases h⟩
    | ok node? =>
      obtain rfl := hleft node? hfolderAt
      cases node? with
      | none => exact Descent.gives_some _ []
      | some node => exact Descent.gives_some _ []
  · rw [if_neg hroot, if_neg hroot]
    exact Descent.gives_some _ []

/-! ### Each way down enters a directory once -/

/-- The real directories on a way below the one at a path, that one first, as far as they can be looked up. -/
def trail (fs : FileSystem) (path : Path) : List FileName → List RealPath
  | [] => fs.realPathAt path
  | n :: way => fs.realPathAt path ++ fs.trail (path.join n) way

/-- On a way to a folder of a chart all directories can be looked up, and each is one that has not been passed. -/
theorem trail_of_chartOf {c : Chart} {way : List FileName} (hfresh : fresh.Nodup)
    (hc : fs.chartOf scope fresh path = .ok (some c)) (hway : c.At way .folder) :
    (fs.trail path way).Nodup ∧ (fs.trail path way).length = way.length + 1 ∧
      ∀ q ∈ fs.trail path way, q ∈ fresh := by
  induction way generalizing path fresh c with
  | nil =>
    obtain ⟨s, entries, items, hs, hdir, hmem, hitems, rfl⟩ := eq_folder_of_chartOf hc
    simp [trail, realPathAt, hs, hmem]
  | cons n way ih =>
    obtain ⟨s, entries, items, hs, hdir, hmem, hitems, rfl⟩ := eq_folder_of_chartOf hc
    obtain ⟨c, hn, hat⟩ := Chart.at_folder_cons.mp hway
    obtain ⟨-, -, hchart⟩ := ((chartsAt_eq_ok hitems).2 n c).mp hn
    rw [chartAt_eq_shownAt] at hchart
    have hc' : fs.chartOf scope (fresh.erase s.realPath) (path.join n) = .ok (some c) := by
      split at hchart
      · cases hchart
      · obtain rfl : Chart.file = c := by simpa using hchart
        exact absurd (Chart.at_file_iff.mp hat).2 (by decide)
      · exact hchart
    -- The directory itself is taken out of `fresh`, so no way below comes back to it.
    obtain ⟨hnodup, hlength, hall⟩ := ih (hfresh.erase s.realPath) hc' hat
    have hreal : fs.realPathAt path = [s.realPath] := by rw [realPathAt, hs]
    rw [trail, hreal, List.singleton_append]
    refine ⟨List.nodup_cons.mpr ⟨fun hmem => ?_, hnodup⟩, by simp [hlength], ?_⟩
    · exact (hfresh.mem_erase_iff.mp (hall _ hmem)).1 rfl
    · intro q hq
      rcases List.mem_cons.mp hq with rfl | hq
      · exact hmem
      · exact List.mem_of_mem_erase (hall q hq)

end FileSystem

/-! ### How deep a tree is -/

namespace Node

mutual

/-- The number of folders on the longest way down from a node, itself included. -/
def folderDepth : Node → Nat
  | mk _ .file _ => 0
  | mk _ .folder none => 1
  | mk _ .folder (some ns) => 1 + folderDepths ns

def folderDepths : List Node → Nat
  | [] => 0
  | n :: ns => max (folderDepth n) (folderDepths ns)

end

theorem folderDepths_le_iff {ns : List Node} {bound : Nat} :
    folderDepths ns ≤ bound ↔ ∀ n ∈ ns, n.folderDepth ≤ bound := by
  induction ns with
  | nil => simp [folderDepths]
  | cons n ns ih => simp [folderDepths, ih]

end Node

mutual

/-- A tree is as deep as the ways to its folders are long. -/
theorem Chart.folderDepth_node_le {bound : Nat} {name : String} (c : Chart)
    (h : ∀ way, c.At way .folder → way.length < bound) : (c.node name).folderDepth ≤ bound := by
  match c with
  | .file =>
    rw [node]
    exact Nat.zero_le bound
  | .folder real items =>
    -- The way of no names leads to the folder itself, so there is room for one.
    have hpos : 0 < bound := h [] .folder
    obtain ⟨bound, rfl⟩ : ∃ b, bound = b + 1 := ⟨bound - 1, by omega⟩
    have hitems : ∀ i ∈ items, ∀ way, i.2.At way .folder → way.length < bound := by
      rintro ⟨n, c⟩ hn way hway
      have hlength : (n :: way).length < bound + 1 := h (n :: way) (.inside hn hway)
      simpa using hlength
    have hnodes : Node.folderDepths ((nodes items).mergeSort Node.byName) ≤ bound := by
      rw [Node.folderDepths_le_iff]
      intro n hn
      exact folderDepth_nodes_le items hitems n (List.mem_mergeSort.mp hn)
    rw [node, Node.folder, Node.folderDepth]
    omega

theorem Chart.folderDepth_nodes_le {bound : Nat} (items : List (FileName × Chart))
    (h : ∀ i ∈ items, ∀ way, i.2.At way .folder → way.length < bound) :
    ∀ n ∈ nodes items, n.folderDepth ≤ bound := by
  match items with
  | [] => simp [nodes]
  | (n, c) :: rest =>
    obtain ⟨hc, hrest⟩ := List.forall_mem_cons.mp h
    rw [nodes, List.forall_mem_cons]
    exact ⟨folderDepth_node_le c hc, folderDepth_nodes_le rest hrest⟩

end

namespace FileSystem

/-- A tree that is built is shown from a chart whose folders stand on ways that enter no directory twice. -/
theorem exists_trails_of_folderTree {fs : FileSystem} {scope : Scope} {root : Path} {tree : Node}
    (hfs : fs.WellFormed) (h : fs.folderTree scope root = .ok tree) :
    ∃ c : Chart, tree = c.node (rootName root) ∧ ∀ way, c.At way .folder →
      (fs.trail root way).Nodup ∧ (fs.trail root way).length = way.length + 1 ∧
        ∀ q ∈ fs.trail root way, q ∈ fs.directories := by
  rw [folderTree_eq_chart] at h
  unfold chart at h
  split at h
  · cases hc : fs.chartOf scope fs.directories root with
    | error e => simp [hc, Except.map] at h
    | ok c? =>
      cases c? with
      | none => simp [hc, Except.map] at h
      | some c =>
        obtain rfl : c.node (rootName root) = tree := by simpa [hc, Except.map] using h
        exact ⟨c, rfl, fun way hway => trail_of_chartOf hfs.nodup_directories hc hway⟩
  · cases h

/-- No more folders of a tree stand within each other than there are directories. -/
theorem folderDepth_le_of_folderTree {fs : FileSystem} {scope : Scope} {root : Path} {tree : Node}
    (hfs : fs.WellFormed) (h : fs.folderTree scope root = .ok tree) :
    tree.folderDepth ≤ fs.directories.length := by
  obtain ⟨c, rfl, htrails⟩ := exists_trails_of_folderTree hfs h
  apply c.folderDepth_node_le
  intro way hway
  obtain ⟨hnodup, hlength, hall⟩ := htrails way hway
  have hle : (fs.trail root way).length ≤ fs.directories.length := (hnodup.subperm hall).length_le
  omega

end FileSystem

end RepoSurvey
