import Mathlib
import RepoSurvey.Proofs.GraphView

/-!
What the statistics of a graph are, said of its edges alone: how many files and modules there are, how many
different modules a file refers to and how many different files refer to a module, and which of them comes
first among those with the most.
-/

namespace RepoSurvey

/-- A name is the first of those with the largest size: no name has a larger one, and none that has the
same stands before it. -/
structure IsFirstLargest (size : String → Nat) (names : List String) (n : String) : Prop where
  mem : n ∈ names
  largest : ∀ x ∈ names, size x ≤ size n
  first : ∀ x ∈ names, size x = size n → names.idxOf n ≤ names.idxOf x

namespace IsFirstLargest

variable {size : String → Nat} {names : List String} {n n' : String}

theorem unique (h : IsFirstLargest size names n) (h' : IsFirstLargest size names n') : n = n' := by
  have hsize : size n = size n' := Nat.le_antisymm (h'.largest n h.mem) (h.largest n' h'.mem)
  have hplace : names.idxOf n = names.idxOf n' :=
    Nat.le_antisymm (h.first n' h'.mem hsize.symm) (h'.first n h.mem hsize)
  exact (List.idxOf_inj h.mem).mp hplace

/-- A larger name that comes last is the first of its size. -/
theorem concat_of_lt (h : ∀ x ∈ names, size x < size n) : IsFirstLargest size (names ++ [n]) n := by
  refine ⟨by simp, fun x hx => ?_, fun x hx heq => ?_⟩
  · rcases List.mem_append.mp hx with hx | hx
    · exact Nat.le_of_lt (h x hx)
    · exact Nat.le_of_eq (congrArg size (List.mem_singleton.mp hx))
  · rcases List.mem_append.mp hx with hx | hx
    · exact absurd heq (Nat.ne_of_lt (h x hx))
    · rw [List.mem_singleton.mp hx]

/-- A name that comes last does not displace one that is as large. -/
theorem concat_of_le (h : IsFirstLargest size names n) (hle : size n' ≤ size n) :
    IsFirstLargest size (names ++ [n']) n := by
  have hplace := List.idxOf_lt_length_of_mem h.mem
  refine ⟨List.mem_append_left _ h.mem, fun x hx => ?_, fun x hx heq => ?_⟩
  · rcases List.mem_append.mp hx with hx | hx
    · exact h.largest x hx
    · exact List.mem_singleton.mp hx ▸ hle
  · rw [List.idxOf_append_of_mem h.mem]
    by_cases hold : x ∈ names
    · rw [List.idxOf_append_of_mem hold]
      exact h.first x hold heq
    · rw [List.idxOf_append_of_notMem hold]
      omega

/-- Repetitions do not matter. -/
theorem eraseDups_iff : IsFirstLargest size names.eraseDups n ↔ IsFirstLargest size names n := by
  constructor
  · rintro ⟨hmem, hlargest, hfirst⟩
    have hn : n ∈ names := List.mem_eraseDups.mp hmem
    exact ⟨hn, fun x hx => hlargest x (List.mem_eraseDups.mpr hx), fun x hx heq =>
      (idxOf_eraseDups_le_iff hn hx).mp (hfirst x (List.mem_eraseDups.mpr hx) heq)⟩
  · rintro ⟨hmem, hlargest, hfirst⟩
    refine ⟨List.mem_eraseDups.mpr hmem, fun x hx => hlargest x (List.mem_eraseDups.mp hx),
      fun x hx heq => ?_⟩
    have hx' := List.mem_eraseDups.mp hx
    exact (idxOf_eraseDups_le_iff hmem hx').mpr (hfirst x hx' heq)

end IsFirstLargest

namespace Graph

/-! ### Sizes -/

/-- The modules that a file refers to. -/
def targetsOf (g : Graph) (file : String) : Finset String :=
  ((g.edges.filter fun e => e.source = file).map Edge.target).toFinset

/-- The files that refer to a module. -/
def sourcesOf (g : Graph) (module : String) : Finset String :=
  ((g.edges.filter fun e => e.target = module).map Edge.source).toFinset

/-- The files that refer to some module. -/
def sources (g : Graph) : Finset String := (g.edges.map Edge.source).toFinset

/-- The modules that some file refers to. -/
def targets (g : Graph) : Finset String := (g.edges.map Edge.target).toFinset

variable {g : Graph} {n : String}

theorem card_targetsOf_pos (h : n ∈ g.edges.map Edge.source) : 0 < (g.targetsOf n).card := by
  obtain ⟨e, he, rfl⟩ := List.mem_map.mp h
  exact Finset.card_pos.mpr ⟨e.target, by simpa [targetsOf] using ⟨e, ⟨he, rfl⟩, rfl⟩⟩

theorem card_sourcesOf_pos (h : n ∈ g.edges.map Edge.target) : 0 < (g.sourcesOf n).card := by
  obtain ⟨e, he, rfl⟩ := List.mem_map.mp h
  exact Finset.card_pos.mpr ⟨e.source, by simpa [sourcesOf] using ⟨e, ⟨he, rfl⟩, rfl⟩⟩

/-! ### The nodes of the view -/

def fileName? : Endpoint → Option String
  | .file n => some n
  | .module _ => none

def moduleName? : Endpoint → Option String
  | .file _ => none
  | .module n => some n

theorem files_view (g : Graph) :
    g.view.nodes.filterMap fileName? = (g.edges.map Edge.source).eraseDups := by
  have hfiles : (g.edges.flatMap Edge.ends).filterMap fileName? = g.edges.map Edge.source := by
    rw [List.filterMap_flatMap, ← List.flatMap_pure_eq_map]
    rfl
  rw [g.shows_view.nodes, filterMap_eraseDups, hfiles]
  intro a b c ha hb
  cases a <;> cases b <;> simp_all [fileName?]

theorem modules_view (g : Graph) :
    g.view.nodes.filterMap moduleName? = (g.edges.map Edge.target).eraseDups := by
  have hmodules : (g.edges.flatMap Edge.ends).filterMap moduleName? = g.edges.map Edge.target := by
    rw [List.filterMap_flatMap, ← List.flatMap_pure_eq_map]
    rfl
  rw [g.shows_view.nodes, filterMap_eraseDups, hmodules]
  intro a b c ha hb
  cases a <;> cases b <;> simp_all [moduleName?]

/-- Of some edges without repetitions, those with one end in common are as many as their other ends. -/
theorem countP_eraseDups_eq_card (near far : Edge → String) (edges : List Edge)
    (hends : ∀ e e', near e = near e' → far e = far e' → e = e') (n : String) :
    edges.eraseDups.countP (fun e => near e = n) =
      ((edges.filter fun e => near e = n).map far).toFinset.card := by
  let once := (edges.eraseDups.filter fun e => near e = n).map far
  have hnodup : once.Nodup := by
    refine ((nodup_eraseDups edges).filter _).map_on fun e he e' he' hfar => ?_
    have hnear : near e = n := by simpa using (List.mem_filter.mp he).2
    have hnear' : near e' = n := by simpa using (List.mem_filter.mp he').2
    exact hends e e' (hnear.trans hnear'.symm) hfar
  have hsame : ((edges.filter fun e => near e = n).map far).toFinset = once.toFinset := by
    ext x
    simp [once]
  rw [hsame, List.toFinset_card_of_nodup hnodup, List.length_map, List.countP_eq_length_filter]

/-- The place of a node in a view tells the node. -/
theorem idxOf_view_eq_iff {i : Nat} {a b : Endpoint} (ha : a ∈ g.view.nodes)
    (h : g.view.nodes[i]? = some b) : g.view.nodes.idxOf a = i ↔ a = b := by
  obtain ⟨hi, rfl⟩ := List.getElem?_eq_some_iff.mp h
  have hnodup : g.view.nodes.Nodup := g.shows_view.nodes ▸ nodup_eraseDups _
  have hplace : g.view.nodes.idxOf g.view.nodes[i] = i := hnodup.idxOf_getElem i hi
  rw [← List.idxOf_inj ha, hplace]

theorem mem_view_of_mem_ends {e : Edge} (he : e ∈ g.edges) {a : Endpoint} (ha : a ∈ e.ends) :
    a ∈ g.view.nodes := by
  rw [g.shows_view.nodes, List.mem_eraseDups]
  exact List.mem_flatMap.mpr ⟨e, he, ha⟩

theorem fanOut_view {i : Nat} (h : g.view.nodes[i]? = some (.file n)) :
    g.view.fanOut i = (g.targetsOf n).card := by
  have hcount := countP_eraseDups_eq_card Edge.source Edge.target g.edges
    (by rintro ⟨⟩ ⟨⟩ rfl rfl; rfl) n
  rw [View.fanOut, g.shows_view.links, List.countP_map, targetsOf, ← hcount]
  refine List.countP_congr fun e he => ?_
  have hmem := mem_view_of_mem_ends (List.mem_eraseDups.mp he) (a := .file e.source)
    (by simp [Edge.ends])
  simp [Edge.placesIn, idxOf_view_eq_iff hmem h]

theorem fanIn_view {i : Nat} (h : g.view.nodes[i]? = some (.module n)) :
    g.view.fanIn i = (g.sourcesOf n).card := by
  have hcount := countP_eraseDups_eq_card Edge.target Edge.source g.edges
    (by rintro ⟨⟩ ⟨⟩ rfl rfl; rfl) n
  rw [View.fanIn, g.shows_view.links, List.countP_map, sourcesOf, ← hcount]
  refine List.countP_congr fun e he => ?_
  have hmem := mem_view_of_mem_ends (List.mem_eraseDups.mp he) (a := .module e.target)
    (by simp [Edge.ends])
  simp [Edge.placesIn, idxOf_view_eq_iff hmem h]

/-! ### The lead -/

/-- A lead is that of some names with sizes: nobody leads before a name of size 1 or more has come, and
then the first of the largest. -/
structure Lead.IsOf (l : Lead) (size : String → Nat) (names : List String) : Prop where
  bound : ∀ x ∈ names, size x ≤ l.count
  unnamed : l.name = none → l.count = 0
  named : ∀ n, l.name = some n → l.count = size n ∧ IsFirstLargest size names n

variable {size : String → Nat} {names : List String} {l : Lead}

theorem Lead.isOf_nil : Lead.IsOf {} size [] := by
  refine ⟨?_, fun _ => rfl, ?_⟩ <;> simp

theorem Lead.IsOf.offer (h : l.IsOf size names) (n : String) :
    (l.offer n (size n)).IsOf size (names ++ [n]) := by
  unfold Lead.offer
  split
  · next hlt =>
    have hall : ∀ x ∈ names, size x < size n := fun x hx => Nat.lt_of_le_of_lt (h.bound x hx) hlt
    have hfirst := IsFirstLargest.concat_of_lt hall
    refine ⟨hfirst.largest, by simp, fun m hm => ?_⟩
    obtain rfl : n = m := Option.some.inj hm
    exact ⟨rfl, hfirst⟩
  · next hle =>
    refine ⟨fun x hx => ?_, h.unnamed, fun m hm => ?_⟩
    · rcases List.mem_append.mp hx with hx | hx
      · exact h.bound x hx
      · rw [List.mem_singleton.mp hx]
        exact Nat.le_of_not_lt hle
    · obtain ⟨hcount, hfirst⟩ := h.named m hm
      exact ⟨hcount, hfirst.concat_of_le (hcount ▸ Nat.le_of_not_lt hle)⟩

/-- If all names have sizes, somebody leads unless there are no names. -/
theorem Lead.IsOf.name_eq_none_iff (h : l.IsOf size names) (hpos : ∀ x ∈ names, 0 < size x) :
    l.name = none ↔ names = [] := by
  constructor
  · intro hnone
    refine List.eq_nil_iff_forall_not_mem.mpr fun x hx => ?_
    have hbound := h.bound x hx
    have hx' := hpos x hx
    rw [h.unnamed hnone] at hbound
    omega
  · rintro rfl
    cases hname : l.name with
    | none => rfl
    | some n => exact absurd (h.named n hname).2.mem (List.not_mem_nil)

theorem Lead.IsOf.name_eq_some_iff (h : l.IsOf size names) (hpos : ∀ x ∈ names, 0 < size x)
    (n : String) : l.name = some n ↔ IsFirstLargest size names n := by
  constructor
  · exact fun hn => (h.named n hn).2
  · intro hn
    cases hname : l.name with
    | none =>
      have hnil := (h.name_eq_none_iff hpos).mp hname
      exact absurd hn.mem (by simp [hnil])
    | some m => rw [(h.named m hname).2.unique hn]

theorem Lead.IsOf.count_eq_sup (h : l.IsOf size names) : l.count = names.toFinset.sup size := by
  refine Nat.le_antisymm ?_ (Finset.sup_le fun x hx => h.bound x (List.mem_toFinset.mp hx))
  cases hname : l.name with
  | none => rw [h.unnamed hname]; exact Nat.zero_le _
  | some n =>
    obtain ⟨hcount, hfirst⟩ := h.named n hname
    rw [hcount]
    exact Finset.le_sup (f := size) (List.mem_toFinset.mpr hfirst.mem)

/-! ### The census -/

/-- A census of the first nodes of the view of a graph. -/
structure Census.IsOf (c : Census) (g : Graph) (seen : List Endpoint) : Prop where
  sources : c.sources = (seen.filterMap fileName?).length
  targets : c.targets = (seen.filterMap moduleName?).length
  out : c.out.IsOf (fun n => (g.targetsOf n).card) (seen.filterMap fileName?)
  into : c.into.IsOf (fun n => (g.sourcesOf n).card) (seen.filterMap moduleName?)

theorem Census.IsOf.add {c : Census} {seen : List Endpoint} {a : Endpoint} (h : c.IsOf g seen)
    (ha : g.view.nodes[seen.length]? = some a) :
    (Census.add g.view c (a, seen.length)).IsOf g (seen ++ [a]) := by
  cases a with
  | file n =>
    have hfiles : (seen ++ [Endpoint.file n]).filterMap fileName? = seen.filterMap fileName? ++ [n] := by
      simp [fileName?]
    have hmodules : (seen ++ [Endpoint.file n]).filterMap moduleName? = seen.filterMap moduleName? := by
      simp [moduleName?]
    refine ⟨?_, ?_, ?_, ?_⟩
    · rw [hfiles, List.length_append, ← h.sources]
      rfl
    · rw [hmodules, ← h.targets]
      rfl
    · rw [hfiles, Census.add, fanOut_view ha]
      exact h.out.offer n
    · rw [hmodules]
      exact h.into
  | module n =>
    have hfiles : (seen ++ [Endpoint.module n]).filterMap fileName? = seen.filterMap fileName? := by
      simp [fileName?]
    have hmodules : (seen ++ [Endpoint.module n]).filterMap moduleName? =
        seen.filterMap moduleName? ++ [n] := by
      simp [moduleName?]
    refine ⟨?_, ?_, ?_, ?_⟩
    · rw [hfiles, ← h.sources]
      rfl
    · rw [hmodules, List.length_append, ← h.targets]
      rfl
    · rw [hfiles]
      exact h.out
    · rw [hmodules, Census.add, fanIn_view ha]
      exact h.into.offer n

/-- The census of a view is one of all of its nodes. -/
theorem census_view (g : Graph) : g.view.census.IsOf g g.view.nodes := by
  -- On the nodes that were counted so far, which are the first ones of the view.
  have hseen (seen : List Endpoint) (hbegins : seen <+: g.view.nodes) :
      (seen.zipIdx.foldl (Census.add g.view) {}).IsOf g seen := by
    induction seen using List.reverseRecOn with
    | nil => exact ⟨rfl, rfl, Lead.isOf_nil, Lead.isOf_nil⟩
    | append_singleton seen a ih =>
      obtain ⟨rest, hrest⟩ := hbegins
      have ha : g.view.nodes[seen.length]? = some a := by
        simp [← hrest]
      have hbegins' : seen <+: g.view.nodes := ⟨a :: rest, by simpa using hrest⟩
      rw [List.zipIdx_append, List.foldl_append]
      simpa using (ih hbegins').add ha
  exact hseen _ (List.prefix_refl _)

/-! ### Statistics -/

theorem toFinset_eraseDups (names : List String) : names.eraseDups.toFinset = names.toFinset := by
  ext
  simp

theorem length_eraseDups_eq_card (names : List String) :
    names.eraseDups.length = names.toFinset.card := by
  rw [← toFinset_eraseDups, List.toFinset_card_of_nodup (nodup_eraseDups names)]

theorem map_eraseDups_eq_nil_iff {f : Edge → String} :
    (g.edges.map f).eraseDups = [] ↔ g.edges = [] := by
  cases g.edges <;> simp [List.eraseDups_cons]

/-- What statistics have to say of the edges of a graph. Of a file and a module of the same name each is
counted for itself. -/
structure Statistics.Describes (s : Statistics) (g : Graph) : Prop where
  totalEdges : s.totalEdges = g.edges.length
  distinctSources : s.distinctSources = g.sources.card
  distinctTargets : s.distinctTargets = g.targets.card
  maxFanOut : s.maxFanOut = g.sources.sup fun n => (g.targetsOf n).card
  /-- Of the files with the most targets, the one whose first edge comes first. -/
  maxFanOutFile : ∀ n, s.maxFanOutFile = some n ↔
    IsFirstLargest (fun n => (g.targetsOf n).card) (g.edges.map Edge.source) n
  maxFanIn : s.maxFanIn = g.targets.sup fun n => (g.sourcesOf n).card
  /-- Of the modules with the most sources, the one whose first edge comes first. -/
  mostReferencedModule : ∀ n, s.mostReferencedModule = some n ↔
    IsFirstLargest (fun n => (g.sourcesOf n).card) (g.edges.map Edge.target) n
  maxFanOutFile_none : s.maxFanOutFile = none ↔ g.edges = []
  mostReferencedModule_none : s.mostReferencedModule = none ↔ g.edges = []

/-- The statistics of a graph are what they are said to be. Two graphs with the same edges, repetitions left
out, differ in the total only. -/
theorem describes_statistics (g : Graph) :
    g.statistics.Describes g ∧
      ∀ h : Graph, h.edges.eraseDups = g.edges.eraseDups →
        h.statistics = { g.statistics with totalEdges := h.edges.length } := by
  constructor
  · have hcensus := census_view g
    have hout := hcensus.out
    have hinto := hcensus.into
    have hsources := hcensus.sources
    have htargets := hcensus.targets
    rw [files_view] at hout hsources
    rw [modules_view] at hinto htargets
    have hpos : ∀ x ∈ (g.edges.map Edge.source).eraseDups, 0 < (g.targetsOf x).card :=
      fun x hx => card_targetsOf_pos (List.mem_eraseDups.mp hx)
    have hpos' : ∀ x ∈ (g.edges.map Edge.target).eraseDups, 0 < (g.sourcesOf x).card :=
      fun x hx => card_sourcesOf_pos (List.mem_eraseDups.mp hx)
    exact {
      totalEdges := rfl
      distinctSources := hsources.trans (length_eraseDups_eq_card _)
      distinctTargets := htargets.trans (length_eraseDups_eq_card _)
      maxFanOut := hout.count_eq_sup.trans (by rw [toFinset_eraseDups]; rfl)
      maxFanOutFile := fun n => (hout.name_eq_some_iff hpos n).trans IsFirstLargest.eraseDups_iff
      maxFanIn := hinto.count_eq_sup.trans (by rw [toFinset_eraseDups]; rfl)
      mostReferencedModule := fun n =>
        (hinto.name_eq_some_iff hpos' n).trans IsFirstLargest.eraseDups_iff
      maxFanOutFile_none := (hout.name_eq_none_iff hpos).trans map_eraseDups_eq_nil_iff
      mostReferencedModule_none := (hinto.name_eq_none_iff hpos').trans map_eraseDups_eq_nil_iff }
  · intro h hedges
    have hview : h.view = g.view := by
      rw [← view_eraseDups h.edges, hedges, view_eraseDups]
    rw [statistics, statistics, hview]
    rfl

end Graph

end RepoSurvey
