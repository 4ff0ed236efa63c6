import RepoSurvey.Proofs.DrawingReading

/-!
The identifiers in the text of a graph. A node of the graph is a file or a module and has a name, but the text
tells it by its name alone. So the nodes are told apart exactly where no file has the name of a module, and
anywhere else one identifier stands for two nodes.
-/

namespace RepoSurvey

namespace Graph

/-- No file has the name of a module. -/
def SharesNoName (g : Graph) : Prop := ∀ e ∈ g.edges, ∀ e' ∈ g.edges, e.source ≠ e'.target

variable {g : Graph} {n : String}

theorem mem_ends_iff {a : Endpoint} {e : Edge} :
    a ∈ e.ends ↔ a = .file e.source ∨ a = .module e.target := by
  rw [Edge.ends, List.mem_pair]

theorem mem_view_iff {a : Endpoint} : a ∈ g.view.nodes ↔ ∃ e ∈ g.edges, a ∈ e.ends := by
  rw [g.shows_view.nodes, List.mem_eraseDups, List.mem_flatMap]

theorem file_mem_view_iff : Endpoint.file n ∈ g.view.nodes ↔ ∃ e ∈ g.edges, e.source = n := by
  simp [mem_view_iff, mem_ends_iff, eq_comm]

theorem module_mem_view_iff : Endpoint.module n ∈ g.view.nodes ↔ ∃ e ∈ g.edges, e.target = n := by
  simp [mem_view_iff, mem_ends_iff, eq_comm]

theorem nodup_view (g : Graph) : g.view.nodes.Nodup := g.shows_view.nodes ▸ nodup_eraseDups _

/-- Two nodes of one name are a file and a module. -/
theorem exists_names_of_ne {a b : Endpoint} (hne : a ≠ b) (hname : a.name = b.name) :
    ∃ n, (a = .file n ∧ b = .module n) ∨ (a = .module n ∧ b = .file n) := by
  cases a with
  | file n =>
    cases b with
    | file m => exact absurd (congrArg Endpoint.file hname) hne
    | module m => exact ⟨n, Or.inl ⟨rfl, congrArg Endpoint.module hname.symm⟩⟩
  | module n =>
    cases b with
    | file m => exact ⟨n, Or.inr ⟨rfl, congrArg Endpoint.file hname.symm⟩⟩
    | module m => exact absurd (congrArg Endpoint.module hname) hne

/-- The names of the nodes are different exactly if no file has the name of a module. -/
theorem nodup_map_name_iff (g : Graph) : (g.view.nodes.map Endpoint.name).Nodup ↔ g.SharesNoName := by
  rw [List.nodup_map_iff_inj_on g.nodup_view]
  constructor
  · intro hinj e he e' he' hname
    have hfile : Endpoint.file e.source ∈ g.view.nodes := file_mem_view_iff.mpr ⟨e, he, rfl⟩
    have hmodule : Endpoint.module e'.target ∈ g.view.nodes := module_mem_view_iff.mpr ⟨e', he', rfl⟩
    exact Endpoint.noConfusion (hinj _ hfile _ hmodule hname)
  · intro happart a ha b hb hname
    by_contra hne
    obtain ⟨n, ⟨rfl, rfl⟩ | ⟨rfl, rfl⟩⟩ := exists_names_of_ne hne hname
    · obtain ⟨e, he, hsource⟩ := file_mem_view_iff.mp ha
      obtain ⟨e', he', htarget⟩ := module_mem_view_iff.mp hb
      exact happart e he e' he' (hsource.trans htarget.symm)
    · obtain ⟨e, he, hsource⟩ := file_mem_view_iff.mp hb
      obtain ⟨e', he', htarget⟩ := module_mem_view_iff.mp ha
      exact happart e he e' he' (hsource.trans htarget.symm)

end Graph

namespace Drawing

/-- No arrow starts at the identifier of a module. -/
def StartsAtNoModule (d : Drawing) : Prop := ∀ a ∈ d.arrows, (a.1, "ellipse") ∉ d.shapes

/-- No arrow ends at the identifier of a file. -/
def EndsAtNoFile (d : Drawing) : Prop := ∀ a ∈ d.arrows, (a.2, "box") ∉ d.shapes

variable {d : Drawing} {g : Graph} {n : String}

theorem Tells.shapes_eq (h : d.Tells g) : d.shapes = g.view.nodes.map fun a => (a.name, a.shape) := by
  rw [h.shapes, g.shows_view.nodes]

theorem Tells.box_mem_iff (h : d.Tells g) : (n, "box") ∈ d.shapes ↔ ∃ e ∈ g.edges, e.source = n := by
  rw [h.shapes_eq, ← Graph.file_mem_view_iff, List.mem_map]
  constructor
  · rintro ⟨a, ha, hpair⟩
    obtain ⟨hname, hshape⟩ := Prod.mk.inj hpair
    cases a with
    | file m => exact hname ▸ ha
    | module m => simp [Endpoint.shape] at hshape
  · exact fun ha => ⟨_, ha, rfl⟩

theorem Tells.ellipse_mem_iff (h : d.Tells g) :
    (n, "ellipse") ∈ d.shapes ↔ ∃ e ∈ g.edges, e.target = n := by
  rw [h.shapes_eq, ← Graph.module_mem_view_iff, List.mem_map]
  constructor
  · rintro ⟨a, ha, hpair⟩
    obtain ⟨hname, hshape⟩ := Prod.mk.inj hpair
    cases a with
    | file m => simp [Endpoint.shape] at hshape
    | module m => exact hname ▸ ha
  · exact fun ha => ⟨_, ha, rfl⟩

theorem Tells.arrow_mem_iff (h : d.Tells g) {a : String × String} :
    a ∈ d.arrows ↔ ∃ e ∈ g.edges, (e.source, e.target) = a := by
  rw [h.arrows]
  simp

/-- What always holds: no identifier is given the same shape twice, and an arrow leads from what is shown as
a file, perhaps among others, to what is shown as a module. -/
structure IsSound (d : Drawing) : Prop where
  nodup : d.shapes.Nodup
  starts : ∀ a ∈ d.arrows, (a.1, "box") ∈ d.shapes
  ends : ∀ a ∈ d.arrows, (a.2, "ellipse") ∈ d.shapes

theorem Tells.isSound (h : d.Tells g) : d.IsSound where
  nodup := by
    rw [h.shapes_eq]
    refine g.nodup_view.map ?_
    intro a b hpair
    obtain ⟨hname, hshape⟩ := Prod.mk.inj hpair
    by_contra hne
    obtain ⟨n, ⟨rfl, rfl⟩ | ⟨rfl, rfl⟩⟩ := Graph.exists_names_of_ne hne hname
    all_goals simp [Endpoint.shape] at hshape
  starts a ha := by
    obtain ⟨e, he, rfl⟩ := h.arrow_mem_iff.mp ha
    exact h.box_mem_iff.mpr ⟨e, he, rfl⟩
  ends a ha := by
    obtain ⟨e, he, rfl⟩ := h.arrow_mem_iff.mp ha
    exact h.ellipse_mem_iff.mpr ⟨e, he, rfl⟩

theorem Tells.map_fst_shapes (h : d.Tells g) : d.shapes.map Prod.fst = g.view.nodes.map Endpoint.name := by
  rw [h.shapes_eq, List.map_map]
  rfl

theorem Tells.startsAtNoModule_iff (h : d.Tells g) : d.StartsAtNoModule ↔ g.SharesNoName := by
  constructor
  · intro hstarts e he e' he' hname
    have harrow : (e.source, e.target) ∈ d.arrows := h.arrow_mem_iff.mpr ⟨e, he, rfl⟩
    exact hstarts _ harrow (h.ellipse_mem_iff.mpr ⟨e', he', hname.symm⟩)
  · intro happart a ha hmodule
    obtain ⟨e, he, rfl⟩ := h.arrow_mem_iff.mp ha
    obtain ⟨e', he', hname⟩ := h.ellipse_mem_iff.mp hmodule
    exact happart e he e' he' hname.symm

theorem Tells.endsAtNoFile_iff (h : d.Tells g) : d.EndsAtNoFile ↔ g.SharesNoName := by
  constructor
  · intro hends e he e' he' hname
    have harrow : (e'.source, e'.target) ∈ d.arrows := h.arrow_mem_iff.mpr ⟨e', he', rfl⟩
    exact hends _ harrow (h.box_mem_iff.mpr ⟨e, he, hname⟩)
  · intro happart a ha hfile
    obtain ⟨e', he', rfl⟩ := h.arrow_mem_iff.mp ha
    obtain ⟨e, he, hname⟩ := h.box_mem_iff.mp hfile
    exact happart e he e' he' hname

/-- The identifiers of a graph are different exactly if the names are. -/
theorem nodup_identifiers_iff (g : Graph) :
    (g.view.nodes.map fun a => Graph.dotIdentifier a.name).Nodup ↔ g.SharesNoName := by
  have hmap : (g.view.nodes.map fun a => Graph.dotIdentifier a.name) =
      (g.view.nodes.map Endpoint.name).map Graph.dotIdentifier := by
    rw [List.map_map]
    rfl
  have hinj : Function.Injective Graph.dotIdentifier := fun _ _ h => dotIdentifier_injective h
  rw [hmap, List.nodup_map_iff hinj, g.nodup_map_name_iff]

/-- The nodes of a graph, which are different, have different identifiers in its text exactly if no file has
the name of a module. Exactly then no identifier is given two shapes, no arrow starts at a module, and none ends
at a file. -/
theorem identifiers_apart_iff (g : Graph) :
    g.view.nodes.Nodup ∧
    ((g.view.nodes.map fun a => Graph.dotIdentifier a.name).Nodup ↔ g.SharesNoName) ∧
    ∃ d, read g.dot = some d ∧ d.IsSound ∧
      ((d.shapes.map Prod.fst).Nodup ↔ g.SharesNoName) ∧
      (d.StartsAtNoModule ↔ g.SharesNoName) ∧ (d.EndsAtNoFile ↔ g.SharesNoName) := by
  obtain ⟨d, hread, h⟩ := tells_read g
  refine ⟨g.nodup_view, nodup_identifiers_iff g, d, hread, h.isSound, ?_, h.startsAtNoModule_iff,
    h.endsAtNoFile_iff⟩
  rw [h.map_fst_shapes]
  exact g.nodup_map_name_iff

section

/-- A file that imports a module of its own name. -/
def namesake : Graph := ⟨[⟨"util", "util"⟩]⟩

theorem nodes_namesake : namesake.view.nodes = [.file "util", .module "util"] := by
  decide

theorem dot_namesake : namesake.dot =
    "digraph dependencies \x7b\n  rankdir=LR;\n  node [shape=box];\n\n" ++
      "  \"util\" [shape=box];\n  \"util\" [shape=ellipse];\n\n  \"util\" -> \"util\";\n\x7d\n" := by
  decide +kernel

/-- The file and the module are two nodes of one identifier. It is given both shapes, and the arrow leads from
itself to itself. -/
theorem identifiers_namesake : namesake.view.nodes = [.file "util", .module "util"] ∧
    namesake.dot =
      "digraph dependencies \x7b\n  rankdir=LR;\n  node [shape=box];\n\n" ++
        "  \"util\" [shape=box];\n  \"util\" [shape=ellipse];\n\n  \"util\" -> \"util\";\n\x7d\n" ∧
    ¬ (namesake.view.nodes.map fun a => Graph.dotIdentifier a.name).Nodup ∧
    read namesake.dot = some ⟨[("util", "box"), ("util", "ellipse")], [("util", "util")]⟩ ∧
    ¬ StartsAtNoModule ⟨[("util", "box"), ("util", "ellipse")], [("util", "util")]⟩ ∧
    ¬ EndsAtNoFile ⟨[("util", "box"), ("util", "ellipse")], [("util", "util")]⟩ := by
  refine ⟨nodes_namesake, dot_namesake, ?_, ?_, ?_, ?_⟩
  · rw [nodes_namesake]
    decide
  · rw [read_dot_view, nodes_namesake]
    decide
  · intro hstarts
    exact hstarts ("util", "util") (by decide) (by decide)
  · intro hends
    exact hends ("util", "util") (by decide) (by decide)

end

end Drawing

end RepoSurvey
