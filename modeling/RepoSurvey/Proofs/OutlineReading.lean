import RepoSurvey.Proofs.NodeShape
import RepoSurvey.Tree.Outline

/-!
Outlines, read. A line shows the depth of a node, its name and whether it is a folder. From the last line to
the first, a folder takes the nodes that follow it and stand deeper, up to the first that does not. For trees
that are built, with names that are told from indentation and from each other, this gives the tree back.
-/

namespace RepoSurvey

/-- A name that a line of an outline can show. -/
structure Node.IsPlainName (name : String) : Prop where
  ne_nil : name.toList ≠ []
  not_blank : name.toList.head? ≠ some ' '
  solidus_not_mem : '/' ∉ name.toList
  newline_not_mem : '\n' ∉ name.toList

/-- What a line of an outline shows. -/
structure OutlineLine where
  depth : Nat
  kind : NodeKind
  name : String
  deriving Repr, DecidableEq

namespace OutlineLine

def text (l : OutlineLine) : String :=
  match l.kind with
  | .file => Node.indentation l.depth ++ l.name
  | .folder => Node.indentation l.depth ++ l.name ++ "/"

def ofText (line : List Char) : OutlineLine :=
  let shown := line.dropWhile (· = ' ')
  let depth := (line.takeWhile (· = ' ')).length / 2
  if shown.getLast? = some '/' then ⟨depth, .folder, String.ofList shown.dropLast⟩
  else ⟨depth, .file, String.ofList shown⟩

/-- Puts the node of a line before nodes that follow it, which come with their depths. -/
def put (l : OutlineLine) (following : List (Nat × Node)) : List (Nat × Node) :=
  match l.kind with
  | .file => (l.depth, .file l.name) :: following
  | .folder =>
    let (inside, after) := following.span fun n => l.depth < n.1
    (l.depth, .mk l.name .folder (some (inside.map Prod.snd))) :: after

end OutlineLine

namespace Node

/-- The tree that an outline shows. -/
def ofOutline? (text : String) : Option Node :=
  match ((text.toList.splitOn '\n').map OutlineLine.ofText).foldr OutlineLine.put [] with
  | [(0, n)] => some n
  | _ => none

mutual

/-- The nodes of a tree with their depths, each before what lies below it. -/
def listed (depth : Nat) : Node → List (Nat × Node)
  | mk name .file c? => [(depth, mk name .file c?)]
  | mk name .folder none => [(depth, mk name .folder none)]
  | mk name .folder (some ns) => (depth, mk name .folder (some ns)) :: listedAll (depth + 1) ns

def listedAll (depth : Nat) : List Node → List (Nat × Node)
  | [] => []
  | n :: ns => listed depth n ++ listedAll depth ns

end

/-- The line of a node at a depth. -/
def line (n : Node) (depth : Nat) : OutlineLine := ⟨depth, n.kind, n.name⟩

/-! ### Lines -/

variable {n m : Node} {name : String} {depth : Nat}

theorem toList_indentation (depth : Nat) :
    (indentation depth).toList = List.replicate (2 * depth) ' ' := by
  rw [indentation, String.toList_ofList]

mutual

/-- An outline has a line for each node. -/
theorem outlineLines_eq (depth : Nat) (n : Node) :
    outlineLines depth n = (n.listed depth).map fun i => (i.2.line i.1).text := by
  match n with
  | mk name .file c? => rw [outlineLines, listed]; rfl
  | mk name .folder none => rw [outlineLines, listed]; rfl
  | mk name .folder (some ns) =>
    rw [outlineLines, listed, List.map_cons, outlinesLines_eq]
    rfl

theorem outlinesLines_eq (depth : Nat) (ns : List Node) :
    outlinesLines depth ns = (listedAll depth ns).map fun i => (i.2.line i.1).text := by
  match ns with
  | [] => rw [outlinesLines, listedAll]; rfl
  | n :: ns => rw [outlinesLines, listedAll, List.map_append, outlineLines_eq, outlinesLines_eq]

end

mutual

theorem length_listed (depth : Nat) (n : Node) :
    (n.listed depth).length = n.fileCount + n.folderCount := by
  match n with
  | mk name .file c? => rw [listed, fileCount, folderCount]; rfl
  | mk name .folder none => rw [listed, fileCount, folderCount]; rfl
  | mk name .folder (some ns) =>
    rw [listed, fileCount, folderCount, List.length_cons, length_listedAll]
    omega

theorem length_listedAll (depth : Nat) (ns : List Node) :
    (listedAll depth ns).length = fileCounts ns + folderCounts ns := by
  match ns with
  | [] => rw [listedAll, fileCounts, folderCounts]; rfl
  | n :: ns =>
    rw [listedAll, fileCounts, folderCounts, List.length_append, length_listed, length_listedAll]
    omega

end

mutual

/-- What lies below a node is listed right behind it. -/
theorem exists_listed_eq {depth i d : Nat} {m : Node} (n : Node)
    (h : (n.listed depth)[i]? = some (d, m)) :
    ∃ before after, n.listed depth = before ++ m.listed d ++ after ∧ before.length = i := by
  match n with
  | mk name .file c? =>
    rw [listed] at h
    obtain ⟨rfl, hm⟩ : i = 0 ∧ (depth, mk name .file c?) = (d, m) := by
      cases i <;> simp_all
    obtain ⟨rfl, rfl⟩ := Prod.mk.inj hm
    exact ⟨[], [], by simp, rfl⟩
  | mk name .folder none =>
    rw [listed] at h
    obtain ⟨rfl, hm⟩ : i = 0 ∧ (depth, mk name .folder none) = (d, m) := by
      cases i <;> simp_all
    obtain ⟨rfl, rfl⟩ := Prod.mk.inj hm
    exact ⟨[], [], by simp, rfl⟩
  | mk name .folder (some ns) =>
    cases i with
    | zero =>
      obtain ⟨rfl, rfl⟩ : depth = d ∧ mk name .folder (some ns) = m := by
        simpa [listed] using h
      exact ⟨[], [], by simp, rfl⟩
    | succ i =>
      rw [listed, List.getElem?_cons_succ] at h
      obtain ⟨before, after, hlisted, hlength⟩ := exists_listedAll_eq ns h
      refine ⟨(depth, mk name .folder (some ns)) :: before, after, ?_, congrArg (· + 1) hlength⟩
      rw [listed, hlisted]
      rfl

theorem exists_listedAll_eq {depth i d : Nat} {m : Node} (ns : List Node)
    (h : (listedAll depth ns)[i]? = some (d, m)) :
    ∃ before after, listedAll depth ns = before ++ m.listed d ++ after ∧ before.length = i := by
  match ns with
  | [] => simp [listedAll] at h
  | n :: ns =>
    rw [listedAll] at h ⊢
    -- The place is either among the nodes of the first tree or behind them.
    by_cases hi : i < (n.listed depth).length
    · rw [List.getElem?_append_left hi] at h
      obtain ⟨before, after, hlisted, hlength⟩ := exists_listed_eq n h
      exact ⟨before, after ++ listedAll depth ns, by simp [hlisted], hlength⟩
    · have hle := Nat.le_of_not_lt hi
      rw [List.getElem?_append_right hle] at h
      obtain ⟨before, after, hlisted, hlength⟩ := exists_listedAll_eq ns h
      refine ⟨n.listed depth ++ before, after, by simp [hlisted], ?_⟩
      rw [List.length_append]
      omega

end

/-! ### Reading -/

/-- A text that does not begin with a blank, behind some blanks. -/
theorem splits_blanks (count : Nat) {shown : List Char} (h : shown.head? ≠ some ' ') :
    (List.replicate count ' ' ++ shown).takeWhile (· = ' ') = List.replicate count ' ' ∧
      (List.replicate count ' ' ++ shown).dropWhile (· = ' ') = shown := by
  induction count with
  | zero =>
    cases shown with
    | nil => exact ⟨rfl, rfl⟩
    | cons c cs =>
      have hc : c ≠ ' ' := fun hc => h (congrArg some hc)
      simp [hc]
  | succ count ih =>
    obtain ⟨htake, hdrop⟩ := ih
    simp [List.replicate_succ, htake, hdrop]

theorem IsPlainName.head?_append (h : IsPlainName name) (more : List Char) :
    (name.toList ++ more).head? ≠ some ' ' := by
  have hne := h.ne_nil
  have hhead := h.not_blank
  cases hname : name.toList with
  | nil => exact absurd hname hne
  | cons c cs =>
    rw [hname] at hhead
    exact hhead

end Node

namespace OutlineLine

variable {l : OutlineLine}

theorem toList_text (l : OutlineLine) : l.text.toList = List.replicate (2 * l.depth) ' ' ++
    (l.name.toList ++ if l.kind = .folder then ['/'] else []) := by
  obtain ⟨depth, kind, name⟩ := l
  cases kind <;> simp [text, Node.toList_indentation]

/-- A line begins with two blanks a level and with no more. -/
theorem takeWhile_text (h : Node.IsPlainName l.name) :
    l.text.toList.takeWhile (· = ' ') = List.replicate (2 * l.depth) ' ' := by
  rw [toList_text]
  exact (Node.splits_blanks _ (h.head?_append _)).1

theorem ofText_text (h : Node.IsPlainName l.name) : ofText l.text.toList = l := by
  obtain ⟨htake, hdrop⟩ := Node.splits_blanks (2 * l.depth)
    (h.head?_append (if l.kind = .folder then ['/'] else []))
  have hdepth : (List.replicate (2 * l.depth) ' ').length / 2 = l.depth := by
    rw [List.length_replicate]
    omega
  unfold ofText
  rw [toList_text, htake, hdrop, hdepth]
  obtain ⟨depth, kind, name⟩ := l
  cases kind with
  | folder => simp
  | file =>
    have hlast : name.toList.getLast? ≠ some '/' := fun hlast =>
      h.solidus_not_mem (List.mem_of_getLast? hlast)
    simp [hlast]

theorem newline_not_mem_text (h : Node.IsPlainName l.name) : '\n' ∉ l.text.toList := by
  rw [toList_text]
  have hname := h.newline_not_mem
  split <;> simp [hname]

/-- A folder takes the nodes that follow it one level deeper, up to one that stands no deeper than itself. -/
theorem put_folder (depth : Nat) (name : String) (ns : List Node) {following : List (Nat × Node)}
    (h : ∀ i ∈ following.head?, i.1 ≤ depth) :
    put ⟨depth, .folder, name⟩ (ns.map (depth + 1, ·) ++ following) =
      (depth, .mk name .folder (some ns)) :: following := by
  have hspan : (ns.map (depth + 1, ·) ++ following).span (fun i => depth < i.1) =
      (ns.map (depth + 1, ·), following) := by
    rw [List.span_eq_takeWhile_dropWhile]
    induction ns with
    | nil =>
      cases following with
      | nil => rfl
      | cons i following =>
        have hi : ¬ depth < i.1 := Nat.not_lt.mpr (h i rfl)
        simp [hi]
    | cons n ns ih =>
      obtain ⟨htake, hdrop⟩ := Prod.mk.inj ih
      simp [htake, hdrop]
  unfold put
  dsimp only
  rw [hspan]
  simp [Function.comp_def]

end OutlineLine

namespace Node

variable {n m : Node} {name : String} {depth : Nat}

/-- If the lines of each tree are put together to the tree, so are those of some trees of one depth. -/
theorem foldr_put_listedAll {ns : List Node}
    (h : ∀ n ∈ ns, ∀ following : List (Nat × Node), (∀ i ∈ following.head?, i.1 ≤ depth) →
      ((n.listed depth).map fun i => i.2.line i.1).foldr OutlineLine.put following = (depth, n) :: following)
    {following : List (Nat × Node)} (hfollowing : ∀ i ∈ following.head?, i.1 ≤ depth) :
    ((listedAll depth ns).map fun i => i.2.line i.1).foldr OutlineLine.put following =
      ns.map (depth, ·) ++ following := by
  induction ns with
  | nil => rw [listedAll]; rfl
  | cons n ns ih =>
    obtain ⟨hn, hns⟩ := List.forall_mem_cons.mp h
    -- What follows the first tree is the next one, or what follows them all. Neither stands deeper.
    have hrest : ∀ i ∈ (ns.map (depth, ·) ++ following).head?, i.1 ≤ depth := by
      cases ns with
      | nil => exact hfollowing
      | cons n' ns => simp
    rw [listedAll, List.map_append, List.foldr_append, ih hns, hn _ hrest]
    rfl

/-- The lines of a tree are put together to the tree, and what follows it is left as it is. -/
theorem IsBuilt.foldr_put (h : n.IsBuilt) (depth : Nat) {following : List (Nat × Node)}
    (hfollowing : ∀ i ∈ following.head?, i.1 ≤ depth) :
    ((n.listed depth).map fun i => i.2.line i.1).foldr OutlineLine.put following =
      (depth, n) :: following := by
  induction h generalizing depth following with
  | file name => rfl
  | @folder name ns _ ih =>
    -- The children stand deeper than the folder, so what stands no deeper than it stands no deeper than they.
    have hsorted : ∀ n ∈ ns.mergeSort byName, ∀ following : List (Nat × Node),
        (∀ i ∈ following.head?, i.1 ≤ depth + 1) →
        ((n.listed (depth + 1)).map fun i => i.2.line i.1).foldr OutlineLine.put following =
          (depth + 1, n) :: following := by
      intro n hn following hle
      exact ih n (List.mem_mergeSort.mp hn) (depth + 1) hle
    have hle : ∀ i ∈ following.head?, i.1 ≤ depth + 1 := fun i hi =>
      Nat.le_succ_of_le (hfollowing i hi)
    rw [Node.folder, listed, List.map_cons, List.foldr_cons, foldr_put_listedAll hsorted hle]
    exact OutlineLine.put_folder depth name _ hfollowing

mutual

theorem within_of_mem_listed {depth d : Nat} {m : Node} (n : Node) (h : (d, m) ∈ n.listed depth) :
    m.Within n := by
  match n with
  | mk name .file c? =>
    obtain ⟨rfl, rfl⟩ := Prod.mk.inj (List.mem_singleton.mp h)
    exact .here
  | mk name .folder none =>
    obtain ⟨rfl, rfl⟩ := Prod.mk.inj (List.mem_singleton.mp h)
    exact .here
  | mk name .folder (some ns) =>
    rw [listed] at h
    rcases List.mem_cons.mp h with hself | hbelow
    · obtain ⟨rfl, rfl⟩ := Prod.mk.inj hself
      exact .here
    · obtain ⟨n, hn, hm⟩ := exists_within_of_mem_listedAll ns hbelow
      exact .inside hn hm

theorem exists_within_of_mem_listedAll {depth d : Nat} {m : Node} (ns : List Node)
    (h : (d, m) ∈ listedAll depth ns) : ∃ n ∈ ns, m.Within n := by
  match ns with
  | [] => simp [listedAll] at h
  | n :: ns =>
    rw [listedAll] at h
    rcases List.mem_append.mp h with hm | hm
    · exact ⟨n, List.mem_cons_self, within_of_mem_listed n hm⟩
    · obtain ⟨n', hn', hm⟩ := exists_within_of_mem_listedAll ns hm
      exact ⟨n', List.mem_cons_of_mem n hn', hm⟩

end

theorem mem_listedAll {depth : Nat} {ns : List Node} {i : Nat × Node} :
    i ∈ listedAll depth ns ↔ ∃ n ∈ ns, i ∈ n.listed depth := by
  induction ns with
  | nil => simp [listedAll]
  | cons n ns ih => simp [listedAll, ih]

theorem self_mem_listed (depth : Nat) (n : Node) : (depth, n) ∈ n.listed depth := by
  match n with
  | mk name .file c? => simp [listed]
  | mk name .folder none => simp [listed]
  | mk name .folder (some ns) => simp [listed]

/-- Every node of a tree is listed. -/
theorem exists_mem_listed (hm : m.Within n) (hsound : n.IsSoundThroughout) (depth : Nat) :
    ∃ d, (d, m) ∈ n.listed depth := by
  induction hm generalizing depth with
  | here => exact ⟨depth, self_mem_listed depth m⟩
  | @inside name kind ns n hn _ ih =>
    obtain ⟨rfl, -, hinner⟩ := isSoundThroughout_mk_some_iff.mp hsound
    obtain ⟨d, hd⟩ := ih (hinner n hn) (depth + 1)
    refine ⟨d, ?_⟩
    rw [listed]
    exact List.mem_cons_of_mem _ (mem_listedAll.mpr ⟨n, hn, hd⟩)

/-- The lines of the text of an outline. -/
def textLines (n : Node) : List (List Char) := n.outline.toList.splitOn '\n'

theorem textLines_eq (hnames : ∀ m : Node, m.Within n → IsPlainName m.name) :
    n.textLines = (n.listed 0).map fun i => (i.2.line i.1).text.toList := by
  have hlines : (outlineLines 0 n).map String.toList =
      (n.listed 0).map fun i => (i.2.line i.1).text.toList := by
    rw [outlineLines_eq, List.map_map]
    rfl
  have hnewline : ∀ l ∈ (outlineLines 0 n).map String.toList, '\n' ∉ l := by
    intro l hl
    rw [hlines] at hl
    obtain ⟨i, hi, rfl⟩ := List.mem_map.mp hl
    exact OutlineLine.newline_not_mem_text (hnames i.2 (within_of_mem_listed n hi))
  have hne : (outlineLines 0 n).map String.toList ≠ [] := by
    rw [hlines]
    exact List.ne_nil_of_mem (List.mem_map_of_mem (self_mem_listed 0 n))
  rw [textLines, outline, String.toList_intercalate]
  exact (List.splitOn_intercalate '\n' hnewline hne).trans hlines

/-- A tree that is built, of names that can be shown, is read from its outline. -/
theorem IsBuilt.ofOutline?_outline (h : n.IsBuilt) (hnames : ∀ m : Node, m.Within n → IsPlainName m.name) :
    ofOutline? n.outline = some n := by
  have hread : n.textLines.map OutlineLine.ofText = (n.listed 0).map fun i => i.2.line i.1 := by
    rw [textLines_eq hnames, List.map_map]
    apply List.map_congr_left
    intro i hi
    exact OutlineLine.ofText_text (hnames i.2 (within_of_mem_listed n hi))
  have hput : ((n.listed 0).map fun i => i.2.line i.1).foldr OutlineLine.put [] = [(0, n)] :=
    h.foldr_put 0 (by simp)
  rw [← hread] at hput
  unfold ofOutline?
  rw [← textLines, hput]
  rfl

/-- The line of a node begins with two blanks for each level above it, and is followed by the lines of all
that lies below the node and of nothing else. -/
structure ShowsAt (lines : List (List Char)) (i d : Nat) (m : Node) : Prop where
  line : lines[i]?.map OutlineLine.ofText = some (m.line d)
  blanks : lines[i]?.map (fun l => (l.takeWhile (· = ' ')).length) = some (2 * d)
  below : (lines.drop i).take (m.fileCount + m.folderCount) =
    (m.listed d).map fun j => (j.2.line j.1).text.toList

theorem showsAt_textLines (hnames : ∀ m : Node, m.Within n → IsPlainName m.name) {i d : Nat}
    (hi : (n.listed 0)[i]? = some (d, m)) : ShowsAt n.textLines i d m := by
  have hname := hnames m (within_of_mem_listed n (List.mem_of_getElem? hi))
  have hline : n.textLines[i]? = some (m.line d).text.toList := by
    rw [textLines_eq hnames, List.getElem?_map, hi]
    rfl
  refine ⟨?_, ?_, ?_⟩
  · rw [hline, Option.map_some]
    exact congrArg some (OutlineLine.ofText_text hname)
  · have hblanks := OutlineLine.takeWhile_text (l := m.line d) hname
    rw [hline, Option.map_some, hblanks, List.length_replicate]
    rfl
  · obtain ⟨before, after, hlisted, rfl⟩ := exists_listed_eq n hi
    rw [textLines_eq hnames, hlisted, ← length_listed d m]
    simp

/-- A tree that is built, of names that can be shown, is read from its outline, so no other such tree has the
same outline. There is a line for each file and folder, and it is found at the place of its node. -/
theorem IsBuilt.outline_read (h : n.IsBuilt) (hnames : ∀ m : Node, m.Within n → IsPlainName m.name) :
    ofOutline? n.outline = some n ∧
    (∀ n' : Node, n'.IsBuilt → (∀ m : Node, m.Within n' → IsPlainName m.name) →
      n.outline = n'.outline → n = n') ∧
    n.textLines.length = n.fileCount + n.folderCount ∧
    (∀ m : Node, m.Within n → ∃ i d : Nat, (n.listed 0)[i]? = some (d, m)) ∧
    ∀ (i d : Nat) (m : Node), (n.listed 0)[i]? = some (d, m) → ShowsAt n.textLines i d m := by
  have hread := h.ofOutline?_outline hnames
  refine ⟨hread, ?_, ?_, ?_, ?_⟩
  · intro n' h' hnames' houtline
    have hread' := h'.ofOutline?_outline hnames'
    rw [← houtline, hread] at hread'
    exact Option.some.inj hread'
  · rw [textLines_eq hnames, List.length_map, length_listed]
  · intro m hm
    obtain ⟨d, hd⟩ := exists_mem_listed hm h.isSoundThroughout 0
    obtain ⟨i, hi⟩ := List.mem_iff_getElem?.mp hd
    exact ⟨i, d, hi⟩
  · exact fun i d m hi => showsAt_textLines hnames hi

section

/-- An empty folder before a file. -/
def emptyBeforeFile : Node := folder "r" [folder "a" [], file "b"]

theorem emptyBeforeFile_eq :
    emptyBeforeFile = mk "r" .folder (some [mk "a" .folder (some []), mk "b" .file none]) := by
  rw [emptyBeforeFile, folder_of_pairwise (by decide), folder_of_pairwise (by decide)]
  rfl

theorem isBuilt_emptyBeforeFile : emptyBeforeFile.IsBuilt := by
  refine .folder "r" fun n hn => ?_
  simp only [List.mem_cons, List.not_mem_nil, or_false] at hn
  rcases hn with rfl | rfl
  · exact .folder "a" (by simp)
  · exact .file "b"

theorem within_emptyBeforeFile (hm : m.Within emptyBeforeFile) : m.name ∈ ["r", "a", "b"] := by
  obtain ⟨d, hd⟩ := exists_mem_listed hm isBuilt_emptyBeforeFile.isSoundThroughout 0
  rw [emptyBeforeFile_eq] at hd
  simp [listed, listedAll] at hd
  rcases hd with ⟨-, rfl⟩ | ⟨-, rfl⟩ | ⟨-, rfl⟩
  all_goals decide

theorem outline_read_emptyBeforeFile :
    emptyBeforeFile.IsBuilt ∧ (∀ m : Node, m.Within emptyBeforeFile → IsPlainName m.name) ∧
      emptyBeforeFile.outline = "r/\n  a/\n  b" ∧ ofOutline? "r/\n  a/\n  b" = some emptyBeforeFile := by
  have hnames : ∀ m : Node, m.Within emptyBeforeFile → IsPlainName m.name := by
    intro m hm
    have hname : ∀ name ∈ ["r", "a", "b"], IsPlainName name := by
      simp only [List.mem_cons, List.not_mem_nil, or_false]
      rintro name (rfl | rfl | rfl)
      all_goals exact ⟨by decide, by decide, by decide, by decide⟩
    exact hname _ (within_emptyBeforeFile hm)
  have houtline : emptyBeforeFile.outline = "r/\n  a/\n  b" := by
    rw [emptyBeforeFile_eq]
    decide
  have hread := (isBuilt_emptyBeforeFile.outline_read hnames).1
  rw [houtline] at hread
  exact ⟨isBuilt_emptyBeforeFile, hnames, houtline, hread⟩

end

end Node
end RepoSurvey
