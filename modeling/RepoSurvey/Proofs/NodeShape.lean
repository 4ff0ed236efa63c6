import RepoSurvey.Proofs.DocumentReading
import RepoSurvey.Proofs.Pruning

/-!
The shape of the nodes of a tree. Files carry no list of children, and folders carry one in the order of its
names. What is built keeps to this, and nothing else is built. But a node that is read from a document is what
the document says, and a document may say anything.
-/

namespace RepoSurvey

namespace Node

/-- A node stands in a tree, as its root or below it. -/
inductive Within (m : Node) : Node → Prop where
  | here : Within m m
  | inside {name : String} {kind : NodeKind} {ns : List Node} {n : Node} (hn : n ∈ ns) (h : Within m n) :
      Within m (mk name kind (some ns))

/-- A file carries no list of children, and a folder carries one in the order of its names. -/
def IsSound (n : Node) : Prop :=
  match n.kind with
  | .file => n.children? = none
  | .folder => ∃ ns, n.children? = some ns ∧ (ns.map name).Pairwise fun a b => a ≤ b

def IsSoundThroughout (n : Node) : Prop := ∀ m : Node, m.Within n → m.IsSound

/-- Trees that are built from files and folders. -/
inductive IsBuilt : Node → Prop where
  | file (name : String) : IsBuilt (file name)
  | folder (name : String) {ns : List Node} (h : ∀ n ∈ ns, IsBuilt n) : IsBuilt (folder name ns)

/-- A node without a list of children is sound if it is a file. -/
theorem isSoundThroughout_mk_none_iff {name : String} {kind : NodeKind} :
    (mk name kind none).IsSoundThroughout ↔ kind = .file := by
  constructor
  · intro h
    have hself := h _ .here
    cases kind with
    | file => rfl
    | folder =>
      obtain ⟨ns, hns, -⟩ := hself
      cases hns
  · rintro rfl m hm
    cases hm
    rfl

/-- A node with a list of children is sound if it is a folder, and the children are in order and sound. -/
theorem isSoundThroughout_mk_some_iff {name : String} {kind : NodeKind} {ns : List Node} :
    (mk name kind (some ns)).IsSoundThroughout ↔
      kind = .folder ∧ ((ns.map Node.name).Pairwise fun a b => a ≤ b) ∧ ∀ n ∈ ns, n.IsSoundThroughout := by
  constructor
  · intro h
    have hself := h _ .here
    cases kind with
    | file => cases hself
    | folder =>
      obtain ⟨ns', hns, hsorted⟩ := hself
      obtain rfl := Option.some.inj hns
      exact ⟨rfl, hsorted, fun n hn m hm => h m (.inside hn hm)⟩
  · rintro ⟨rfl, hsorted, hinner⟩ m hm
    cases hm with
    | here => exact ⟨ns, rfl, hsorted⟩
    | inside hn hm => exact hinner _ hn m hm

/-- A folder is sound in whatever order its children are given, as it puts them in order itself. -/
theorem isSoundThroughout_folder_iff {name : String} {ns : List Node} :
    (folder name ns).IsSoundThroughout ↔ ∀ n ∈ ns, n.IsSoundThroughout := by
  have hsorted : ((ns.mergeSort byName).map Node.name).Pairwise fun a b => a ≤ b :=
    pairwise_mergeSort_key Node.name ns
  rw [folder, isSoundThroughout_mk_some_iff]
  simp [hsorted]

theorem IsBuilt.isSoundThroughout {n : Node} (h : n.IsBuilt) : n.IsSoundThroughout := by
  induction h with
  | file name => exact isSoundThroughout_mk_none_iff.mpr rfl
  | folder name _ ih => exact isSoundThroughout_folder_iff.mpr ih

/-- Whatever is sound could have been built: children that are in order stay as they are. -/
theorem IsSoundThroughout.isBuilt : {n : Node} → n.IsSoundThroughout → n.IsBuilt
  | mk name kind none, h => by
    obtain rfl := isSoundThroughout_mk_none_iff.mp h
    exact .file name
  | mk name kind (some ns), h => by
    obtain ⟨rfl, hsorted, hinner⟩ := isSoundThroughout_mk_some_iff.mp h
    rw [← folder_of_pairwise hsorted]
    exact .folder name fun n hn => (hinner n hn).isBuilt

end Node

/-! ### What a document says -/

theorem NodeKind.eq_text_of_ofJson? {v : Json} {k : NodeKind} (h : ofJson? v = some k) :
    v = .text k.tag := by
  obtain ⟨tag, htag, h⟩ := Option.bind_eq_some_iff.mp h
  cases v with
  | text s =>
    obtain rfl := Option.some.inj htag
    split at h
    · obtain rfl := Option.some.inj h
      rfl
    · obtain rfl := Option.some.inj h
      rfl
    · cases h
  | _ => cases htag

/-- The name that a value gives to a node. -/
def Json.nodeName? : Json → Option String
  | .record ((_, .text name) :: _) => some name
  | _ => none

/-- A value says that a node is a file without children, or a folder whose children are in the order of their
names, and says so of all nodes below. -/
inductive Json.ShowsBuilt : Json → Prop where
  | file {a b c name : String} :
      ShowsBuilt (.record [(a, .text name), (b, .text NodeKind.file.tag), (c, .null)])
  | folder {a b c name : String} {items : List Json} {names : List String}
      (hnames : items.map nodeName? = names.map some) (hsorted : names.Pairwise fun s t => s ≤ t)
      (hinner : ∀ item ∈ items, ShowsBuilt item) :
      ShowsBuilt (.record [(a, .text name), (b, .text NodeKind.folder.tag), (c, .list items)])

theorem NodeKind.eq_of_tag_eq {k l : NodeKind} (h : k.tag = l.tag) : k = l := by
  revert h
  cases k <;> cases l <;> decide

namespace Json

variable {a b c name : String} {kind : NodeKind} {items : List Json}

theorem showsBuilt_null_iff :
    (record [(a, .text name), (b, .text kind.tag), (c, .null)]).ShowsBuilt ↔ kind = .file := by
  constructor
  · intro h
    generalize hv : record [(a, .text name), (b, .text kind.tag), (c, .null)] = v at h
    cases h with
    | file =>
      simp only [record.injEq, List.cons.injEq, Prod.mk.injEq, text.injEq] at hv
      exact NodeKind.eq_of_tag_eq hv.2.1.2
    | folder hnames hsorted hinner => simp at hv
  · rintro rfl
    exact .file

theorem showsBuilt_list_iff :
    (record [(a, .text name), (b, .text kind.tag), (c, .list items)]).ShowsBuilt ↔
      kind = .folder ∧ (∃ names : List String, items.map nodeName? = names.map some ∧
        names.Pairwise fun s t => s ≤ t) ∧ ∀ item ∈ items, item.ShowsBuilt := by
  constructor
  · intro h
    generalize hv : record [(a, .text name), (b, .text kind.tag), (c, .list items)] = v at h
    cases h with
    | file => simp at hv
    | folder hnames hsorted hinner =>
      simp only [record.injEq, List.cons.injEq, Prod.mk.injEq, text.injEq, list.injEq] at hv
      obtain rfl := hv.2.2.1.2
      exact ⟨NodeKind.eq_of_tag_eq hv.2.1.2, ⟨_, hnames, hsorted⟩, hinner⟩
  · rintro ⟨rfl, ⟨names, hnames, hsorted⟩, hinner⟩
    exact .folder hnames hsorted hinner

end Json

namespace Node

theorem map_ofJson?_of_ofJsons? {items : List Json} {ns : List Node} (h : ofJsons? items = some ns) :
    items.map ofJson? = ns.map some := by
  induction items generalizing ns with
  | nil =>
    obtain rfl := Option.some.inj h
    rfl
  | cons item items ih =>
    rw [ofJsons?] at h
    obtain ⟨n, hn, h⟩ := Option.bind_eq_some_iff.mp h
    obtain ⟨ns', hns, h⟩ := Option.bind_eq_some_iff.mp h
    obtain rfl := Option.some.inj h
    rw [List.map_cons, List.map_cons, hn, ih hns]

/-- A node is what a value says of it, with or without a list of children. -/
theorem exists_record_of_ofJson? {v : Json} {n : Node} (h : ofJson? v = some n) :
    ∃ a b c, (v = .record [(a, .text n.name), (b, .text n.kind.tag), (c, .null)] ∧ n.children? = none) ∨
      ∃ items ns, v = .record [(a, .text n.name), (b, .text n.kind.tag), (c, .list items)] ∧
        n.children? = some ns ∧ items.map ofJson? = ns.map some := by
  unfold ofJson? at h
  split at h
  · obtain ⟨k, hk, h⟩ := Option.bind_eq_some_iff.mp h
    obtain rfl := Option.some.inj h
    rw [NodeKind.eq_text_of_ofJson? hk]
    exact ⟨_, _, _, Or.inl ⟨rfl, rfl⟩⟩
  · obtain ⟨k, hk, h⟩ := Option.bind_eq_some_iff.mp h
    obtain ⟨ns, hns, h⟩ := Option.bind_eq_some_iff.mp h
    obtain rfl := Option.some.inj h
    rw [NodeKind.eq_text_of_ofJson? hk]
    exact ⟨_, _, _, Or.inr ⟨_, ns, rfl, rfl, map_ofJson?_of_ofJsons? hns⟩⟩
  · cases h

theorem nodeName?_of_ofJson? {v : Json} {n : Node} (h : ofJson? v = some n) :
    v.nodeName? = some n.name := by
  obtain ⟨a, b, c, ⟨rfl, -⟩ | ⟨items, ns, rfl, -⟩⟩ := exists_record_of_ofJson? h
  · rfl
  · rfl

/-- The values of children say what the children are called. -/
theorem map_nodeName?_eq {items : List Json} {ns : List Node} (h : items.map ofJson? = ns.map some) :
    items.map Json.nodeName? = (ns.map name).map some := by
  have hitem : ∀ item ∈ items, item.nodeName? = (ofJson? item).map name := by
    intro item hitem
    obtain ⟨n, -, hn⟩ := List.mem_map.mp (h ▸ List.mem_map_of_mem hitem)
    rw [nodeName?_of_ofJson? hn.symm, ← hn, Option.map_some]
  have hread : items.map (fun item => (ofJson? item).map name) = (items.map ofJson?).map (Option.map name) := by
    rw [List.map_map]
    rfl
  rw [List.map_congr_left hitem, hread, h, List.map_map, List.map_map]
  rfl

/-- A node that is read is sound exactly if its value says so. -/
theorem isSoundThroughout_iff_showsBuilt : {n : Node} → {v : Json} → ofJson? v = some n →
    (n.IsSoundThroughout ↔ v.ShowsBuilt)
  | mk name kind none, v, h => by
    obtain ⟨a, b, c, ⟨rfl, -⟩ | ⟨items, ns, -, hns, -⟩⟩ := exists_record_of_ofJson? h
    · rw [isSoundThroughout_mk_none_iff]
      exact Json.showsBuilt_null_iff.symm
    · cases hns
  | mk name kind (some ns), v, h => by
    obtain ⟨a, b, c, ⟨-, hns⟩ | ⟨items, ns', rfl, hns, hitems⟩⟩ := exists_record_of_ofJson? h
    · cases hns
    · obtain rfl := Option.some.inj hns
      have hnames := map_nodeName?_eq hitems
      have hinner : (∀ n ∈ ns, n.IsSoundThroughout) ↔ ∀ item ∈ items, item.ShowsBuilt := by
        constructor
        · intro hns item hitem
          obtain ⟨n, hn, hread⟩ := List.mem_map.mp (hitems ▸ List.mem_map_of_mem hitem)
          exact (isSoundThroughout_iff_showsBuilt hread.symm).mp (hns n hn)
        · intro hitem n hn
          obtain ⟨item, hmem, hread⟩ := List.mem_map.mp (hitems ▸ List.mem_map_of_mem hn)
          exact (isSoundThroughout_iff_showsBuilt hread).mpr (hitem item hmem)
      have hsorted : ((ns.map Node.name).Pairwise fun s t => s ≤ t) ↔ ∃ names : List String,
          items.map Json.nodeName? = names.map some ∧ names.Pairwise fun s t => s ≤ t := by
        constructor
        · exact fun h => ⟨_, hnames, h⟩
        · rintro ⟨names, hsame, h⟩
          -- The values have one list of names only, which is that of the children.
          have heq := List.map_injective_iff.mpr (Option.some_injective String) (hnames.symm.trans hsame)
          exact heq ▸ h
      rw [isSoundThroughout_mk_some_iff, hinner, hsorted]
      exact Json.showsBuilt_list_iff.symm

/-- Both texts of a node are read as the node, whatever it is. -/
theorem read_texts {n : Node} (h : n.toJson.depth ≤ Json.nestingLimit) :
    read n.toJson.prettyText = .ok n ∧ read n.toJson.compactText = .ok n := by
  have hread {style : Json.Style} (hstyle : style.Blank) :
      read (String.ofList (n.toJson.write style 0)) = .ok n := by
    rw [read, readPart, Json.readDocument_write (DocumentPart.legibleAs_node hstyle n h)]
    dsimp only
    rw [ofJson?_filledJson]
  exact ⟨hread Json.pretty_blank, hread Json.compact_blank⟩

/-- What is read is what the value of the text says. -/
theorem exists_value_of_read {text : String} {n : Node} (h : read text = .ok n) :
    ∃ v, Json.readDocument DocumentPart.shape .node text = .ok v ∧ ofJson? v = some n := by
  unfold read readPart at h
  split at h
  · cases h
  · next v hv =>
    split at h
    · next n' hn =>
      obtain rfl := Except.ok.inj h
      exact ⟨v, hv, hn⟩
    · cases h

/-- Of the trees that are built all nodes are sound, and no other trees have only sound nodes; so a folder of
any trees is sound if they are. Of a tree that is read all nodes are sound exactly if the document says so, and
any tree can be read. -/
theorem isSoundThroughout_built_and_read (n : Node) (ns : List Node) :
    (n.IsSoundThroughout ↔ n.IsBuilt) ∧
    (∀ name, (folder name ns).IsSoundThroughout ↔ ∀ m ∈ ns, m.IsSoundThroughout) ∧
    (∀ text, read text = .ok n → ∃ v, Json.readDocument DocumentPart.shape .node text = .ok v ∧
      (n.IsSoundThroughout ↔ v.ShowsBuilt)) ∧
    (n.toJson.depth ≤ Json.nestingLimit →
      read n.toJson.prettyText = .ok n ∧ read n.toJson.compactText = .ok n) := by
  refine ⟨⟨IsSoundThroughout.isBuilt, IsBuilt.isSoundThroughout⟩, ?_, ?_, read_texts⟩
  · intro name
    exact isSoundThroughout_folder_iff
  · intro text h
    obtain ⟨v, hv, hn⟩ := exists_value_of_read h
    exact ⟨v, hv, isSoundThroughout_iff_showsBuilt hn⟩

section

/-- A folder whose children are not in the order of their names. -/
def disordered : Node := mk "r" .folder (some [file "b", file "a"])

/-- A file that carries a list of children. -/
def ladenFile : Node := mk "f" .file (some [])

/-- A folder that carries no list of children. -/
def bareFolder : Node := mk "d" .folder none

theorem compactText_disordered : disordered.toJson.compactText =
    "\x7b\"name\":\"r\",\"type\":\"folder\",\"children\":[" ++
      "\x7b\"name\":\"b\",\"type\":\"file\"\x7d,\x7b\"name\":\"a\",\"type\":\"file\"\x7d]\x7d" := by
  decide

theorem compactText_ladenFile : ladenFile.toJson.compactText =
    "\x7b\"name\":\"f\",\"type\":\"file\",\"children\":[]\x7d" := by
  decide

theorem compactText_bareFolder : bareFolder.toJson.compactText =
    "\x7b\"name\":\"d\",\"type\":\"folder\"\x7d" := by
  decide

/-- Each part of soundness fails for some tree that is read. -/
theorem read_unsound :
    (read ("\x7b\"name\":\"r\",\"type\":\"folder\",\"children\":[" ++
        "\x7b\"name\":\"b\",\"type\":\"file\"\x7d,\x7b\"name\":\"a\",\"type\":\"file\"\x7d]\x7d") =
      .ok disordered ∧ ¬ disordered.IsSoundThroughout) ∧
    (read "\x7b\"name\":\"f\",\"type\":\"file\",\"children\":[]\x7d" = .ok ladenFile ∧
      ¬ ladenFile.IsSoundThroughout) ∧
    (read "\x7b\"name\":\"d\",\"type\":\"folder\"\x7d" = .ok bareFolder ∧
      ¬ bareFolder.IsSoundThroughout) := by
  refine ⟨⟨?_, fun h => ?_⟩, ⟨?_, fun h => ?_⟩, ?_, fun h => ?_⟩
  · rw [← compactText_disordered]
    exact (read_texts (by decide)).2
  · have hsorted := (isSoundThroughout_mk_some_iff.mp h).2.1
    revert hsorted
    decide
  · rw [← compactText_ladenFile]
    exact (read_texts (by decide)).2
  · cases (isSoundThroughout_mk_some_iff.mp h).1
  · rw [← compactText_bareFolder]
    exact (read_texts (by decide)).2
  · cases isSoundThroughout_mk_none_iff.mp h

theorem isSoundThroughout_built_and_read_ordered :
    (folder "r" [file "a", file "b"]).IsBuilt ∧ (folder "r" [file "a", file "b"]).IsSoundThroughout ∧
      ∃ v, Json.readDocument DocumentPart.shape .node
        (folder "r" [file "a", file "b"]).toJson.compactText = .ok v ∧ v.ShowsBuilt := by
  obtain ⟨hbuilt, -, hread, htexts⟩ :=
    isSoundThroughout_built_and_read (folder "r" [file "a", file "b"]) [file "a", file "b"]
  have hfolder : (folder "r" [file "a", file "b"]).IsBuilt := by
    refine .folder "r" fun n hn => ?_
    simp only [List.mem_cons, List.not_mem_nil, or_false] at hn
    rcases hn with rfl | rfl
    · exact .file "a"
    · exact .file "b"
  have hdepth : (folder "r" [file "a", file "b"]).toJson.depth ≤ Json.nestingLimit := by
    rw [folder_of_pairwise (by decide)]
    decide
  have hsound := hbuilt.mpr hfolder
  obtain ⟨v, hv, hiff⟩ := hread _ (htexts hdepth).2
  exact ⟨hfolder, hsound, v, hv, hiff.mp hsound⟩

end

end Node

end RepoSurvey
