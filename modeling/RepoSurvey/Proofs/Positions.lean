import RepoSurvey.Proofs.Chart

/-!
Positions in folder trees and charts. The names on the way to a node of a tree are what is shown of the
names on the way to an entry of its chart, and the children of every folder are in order.
-/

namespace RepoSurvey

namespace Node

/-- Some names lead from the root of a tree down to a node of a kind. -/
inductive At : Node → List String → NodeKind → Prop where
  | here {name : String} {kind : NodeKind} {ns? : Option (List Node)} : At (mk name kind ns?) [] kind
  | inside {name : String} {kind kind' : NodeKind} {ns : List Node} {n : Node} {texts : List String}
      (hn : n ∈ ns) (h : At n texts kind') : At (mk name kind (some ns)) (n.name :: texts) kind'

/-- In every folder of a tree the children are in the order of their names. -/
inductive Ordered : Node → Prop where
  | leaf {name : String} {kind : NodeKind} : Ordered (mk name kind none)
  | inner {name : String} {kind : NodeKind} {ns : List Node}
      (h : (ns.map Node.name).Pairwise fun a b => a ≤ b) (hinner : ∀ n ∈ ns, Ordered n) :
      Ordered (mk name kind (some ns))

theorem at_file_iff {name : String} {texts : List String} {kind : NodeKind} :
    (file name).At texts kind ↔ texts = [] ∧ kind = .file := by
  constructor
  · intro h
    cases h
    exact ⟨rfl, rfl⟩
  · rintro ⟨rfl, rfl⟩
    exact .here

theorem at_folder_nil {name : String} {ns : List Node} {kind : NodeKind} :
    (folder name ns).At [] kind ↔ kind = .folder := by
  constructor
  · intro h
    cases h
    rfl
  · rintro rfl
    exact .here

/-- Putting children in order moves none of them. -/
theorem at_folder_cons {name text : String} {ns : List Node} {texts : List String} {kind : NodeKind} :
    (folder name ns).At (text :: texts) kind ↔ ∃ n ∈ ns, n.name = text ∧ n.At texts kind := by
  constructor
  · intro h
    cases h with
    | inside hn h => exact ⟨_, List.mem_mergeSort.mp hn, rfl, h⟩
  · rintro ⟨n, hn, rfl, h⟩
    exact .inside (List.mem_mergeSort.mpr hn) h

theorem ordered_folder {name : String} {ns : List Node} (h : ∀ n ∈ ns, n.Ordered) :
    (folder name ns).Ordered := by
  refine .inner (pairwise_mergeSort_key Node.name ns) fun n hn => ?_
  exact h n (List.mem_mergeSort.mp hn)

end Node

namespace Chart

/-- A way through the folders of a chart to an entry that is shown as a node of a kind. -/
inductive At : Chart → List FileName → NodeKind → Prop where
  | file : At file [] .file
  | folder {real : RealPath} {items : List (FileName × Chart)} : At (folder real items) [] .folder
  | inside {real : RealPath} {items : List (FileName × Chart)} {n : FileName} {c : Chart}
      {way : List FileName} {kind : NodeKind} (hn : (n, c) ∈ items) (h : At c way kind) :
      At (folder real items) (n :: way) kind

/-- In every folder of a chart each entry stands once. -/
inductive Distinct : Chart → Prop where
  | file : Distinct file
  | folder {real : RealPath} {items : List (FileName × Chart)} (h : (items.map Prod.fst).Nodup)
      (hinner : ∀ i ∈ items, Distinct i.2) : Distinct (folder real items)

theorem at_file_iff {way : List FileName} {kind : NodeKind} :
    file.At way kind ↔ way = [] ∧ kind = .file := by
  constructor
  · intro h
    cases h
    exact ⟨rfl, rfl⟩
  · rintro ⟨rfl, rfl⟩
    exact .file

theorem at_folder_nil {real : RealPath} {items : List (FileName × Chart)} {kind : NodeKind} :
    (folder real items).At [] kind ↔ kind = .folder := by
  constructor
  · intro h
    cases h
    rfl
  · rintro rfl
    exact .folder

theorem at_folder_cons {real : RealPath} {items : List (FileName × Chart)} {n : FileName}
    {way : List FileName} {kind : NodeKind} :
    (folder real items).At (n :: way) kind ↔ ∃ c, (n, c) ∈ items ∧ c.At way kind := by
  constructor
  · intro h
    cases h with
    | inside hn h => exact ⟨_, hn, h⟩
  · rintro ⟨c, hn, h⟩
    exact .inside hn h

theorem mem_nodes {items : List (FileName × Chart)} {node' : Node} :
    node' ∈ nodes items ↔ ∃ n c, (n, c) ∈ items ∧ c.node (Utf8.decodeLossy n) = node' := by
  rw [nodes_eq_map, List.mem_map]
  constructor
  · rintro ⟨⟨n, c⟩, hn, rfl⟩
    exact ⟨n, c, hn, rfl⟩
  · rintro ⟨n, c, hn, rfl⟩
    exact ⟨(n, c), hn, rfl⟩

/-- The positions in a tree are those in its chart, as they are shown. -/
theorem at_node_iff {c : Chart} {name : String} {texts : List String} {kind : NodeKind} :
    (c.node name).At texts kind ↔ ∃ way, way.map Utf8.decodeLossy = texts ∧ c.At way kind := by
  -- On the names, as several children may be shown under one name and each of them may lead on.
  induction texts generalizing c name with
  | nil =>
    have hroot : (c.node name).At [] kind ↔ c.At [] kind := by
      cases c with
      | file => simp [node, Node.at_file_iff, at_file_iff]
      | folder real items => rw [node, Node.at_folder_nil, at_folder_nil]
    rw [hroot]
    simp
  | cons text texts ih =>
    cases c with
    | file => simp [node, Node.at_file_iff, at_file_iff]
    | folder real items =>
      rw [node, Node.at_folder_cons]
      constructor
      · rintro ⟨child, hchild, rfl, hat⟩
        obtain ⟨n, c, hn, rfl⟩ := mem_nodes.mp hchild
        obtain ⟨way, rfl, hway⟩ := ih.mp hat
        exact ⟨n :: way, by rw [name_node, List.map_cons], .inside hn hway⟩
      · rintro ⟨way, hway, hat⟩
        cases hat with
        | folder => simp at hway
        | @inside _ _ n c way _ hn h =>
          obtain ⟨rfl, rfl⟩ := List.cons.inj hway
          exact ⟨_, mem_nodes.mpr ⟨n, c, hn, rfl⟩, name_node _ c, ih.mpr ⟨way, rfl, h⟩⟩

mutual

theorem ordered_node (name : String) (c : Chart) : (c.node name).Ordered := by
  cases c with
  | file =>
    rw [node]
    exact .leaf
  | folder real items =>
    rw [node]
    exact Node.ordered_folder (ordered_nodes items)

theorem ordered_nodes (items : List (FileName × Chart)) : ∀ n ∈ nodes items, n.Ordered := by
  cases items with
  | nil => simp [nodes]
  | cons i rest =>
    obtain ⟨m, c⟩ := i
    intro n hn
    rw [nodes] at hn
    rcases List.mem_cons.mp hn with rfl | hn
    · exact ordered_node (Utf8.decodeLossy m) c
    · exact ordered_nodes rest n hn

end

end Chart

end RepoSurvey
