import Mathlib.Data.List.Induction
import Mathlib.Data.List.Nodup
import RepoSurvey.Graph.Basic

/-!
The view of a graph, edge by edge: after any edges its nodes are the ends of these edges and its links are
the edges themselves, each once and in the order in which they first occur.
-/

namespace RepoSurvey

/-! ### Lists without repetitions -/

section

variable {α β : Type} [DecidableEq α] [DecidableEq β]

theorem eraseDups_concat (l : List α) (a : α) :
    (l ++ [a]).eraseDups = if a ∈ l then l.eraseDups else l.eraseDups ++ [a] := by
  rw [List.eraseDups_append]
  split <;> simp_all [List.removeAll, List.eraseDups_cons]

theorem nodup_eraseDups (l : List α) : l.eraseDups.Nodup := by
  induction l using List.reverseRecOn with
  | nil => exact List.nodup_nil
  | append_singleton l a ih =>
    rw [eraseDups_concat]
    split
    · exact ih
    · next hnew =>
      rw [← List.concat_eq_append]
      exact ih.concat fun hmem => hnew (List.mem_eraseDups.mp hmem)

/-- What is added at the end does not change the places of what was there. -/
theorem idxOf_eraseDups_append {l : List α} {a : α} (h : a ∈ l) (more : List α) :
    (l ++ more).eraseDups.idxOf a = l.eraseDups.idxOf a := by
  rw [List.eraseDups_append, List.idxOf_append_of_mem (List.mem_eraseDups.mpr h)]

/-- Leaving out repetitions keeps the order of first occurrences. -/
theorem idxOf_eraseDups_le_iff {l : List α} {a b : α} (ha : a ∈ l) (hb : b ∈ l) :
    l.eraseDups.idxOf a ≤ l.eraseDups.idxOf b ↔ l.idxOf a ≤ l.idxOf b := by
  induction l using List.reverseRecOn with
  | nil => simp at ha
  | append_singleton l c ih =>
    -- Only the last item can be new, and then it comes last in both lists.
    have hlast (d : α) (hd : d ∈ l) (hnew : c ∉ l) :
        (l ++ [c]).eraseDups.idxOf d < (l ++ [c]).eraseDups.idxOf c ∧
          (l ++ [c]).idxOf d < (l ++ [c]).idxOf c := by
      have hnew' : c ∉ l.eraseDups := fun h => hnew (List.mem_eraseDups.mp h)
      rw [idxOf_eraseDups_append hd, eraseDups_concat, if_neg hnew,
        List.idxOf_append_of_notMem hnew', List.idxOf_append_of_mem hd,
        List.idxOf_append_of_notMem hnew]
      have hplace := List.idxOf_lt_length_of_mem (List.mem_eraseDups.mpr hd)
      have hplace' := List.idxOf_lt_length_of_mem hd
      omega
    by_cases hal : a ∈ l <;> by_cases hbl : b ∈ l
    · rw [idxOf_eraseDups_append hal, idxOf_eraseDups_append hbl, List.idxOf_append_of_mem hal,
        List.idxOf_append_of_mem hbl]
      exact ih hal hbl
    · obtain rfl : b = c := by simpa [hbl] using hb
      have h := hlast a hal hbl
      omega
    · obtain rfl : a = c := by simpa [hal] using ha
      have h := hlast b hbl hal
      omega
    · obtain rfl : a = c := by simpa [hal] using ha
      obtain rfl : b = a := by simpa [hbl] using hb
      simp

/-- A part of a list that is told apart by its values can be taken before or after repetitions are left
out. -/
theorem filterMap_eraseDups {f : α → Option β} (hf : ∀ a b c, f a = some c → f b = some c → a = b)
    (l : List α) : l.eraseDups.filterMap f = (l.filterMap f).eraseDups := by
  induction l using List.reverseRecOn with
  | nil => rfl
  | append_singleton l a ih =>
    rw [eraseDups_concat, List.filterMap_append]
    cases ha : f a with
    | none =>
      have hnone : [a].filterMap f = [] := by simp [ha]
      rw [hnone, List.append_nil, ← ih]
      split
      · rfl
      · rw [List.filterMap_append, hnone, List.append_nil]
    | some b =>
      have hsome : [a].filterMap f = [b] := by simp [ha]
      have hmem : b ∈ l.filterMap f ↔ a ∈ l := by
        rw [List.mem_filterMap]
        constructor
        · rintro ⟨a', ha', hb⟩
          exact hf a' a b hb ha ▸ ha'
        · exact fun h => ⟨a, h, ha⟩
      rw [hsome, eraseDups_concat, ← ih]
      by_cases hold : a ∈ l
      · rw [if_pos hold, if_pos (hmem.mpr hold)]
      · rw [if_neg hold, if_neg (hmem.not.mpr hold), List.filterMap_append, hsome]

end

/-! ### The view after some edges -/

/-- The nodes that an edge joins. -/
def Edge.ends (e : Edge) : List Endpoint := [.file e.source, .module e.target]

/-- The places of the nodes that an edge joins. -/
def Edge.placesIn (nodes : List Endpoint) (e : Edge) : Nat × Nat :=
  (nodes.idxOf (.file e.source), nodes.idxOf (.module e.target))

theorem Edge.placesIn_inj {nodes : List Endpoint} {e e' : Edge} (h : ∀ n ∈ e.ends, n ∈ nodes) :
    e.placesIn nodes = e'.placesIn nodes ↔ e = e' := by
  have hsource : Endpoint.file e.source ∈ nodes := h _ (by simp [ends])
  have htarget : Endpoint.module e.target ∈ nodes := h _ (by simp [ends])
  rw [placesIn, placesIn, Prod.mk.injEq, List.idxOf_inj hsource, List.idxOf_inj htarget,
    Endpoint.file.injEq, Endpoint.module.injEq]
  cases e
  cases e'
  simp

namespace Graph.View

/-- A view shows some edges: their ends are its nodes, and they are its links. -/
structure Shows (v : View) (edges : List Edge) : Prop where
  nodes : v.nodes = (edges.flatMap Edge.ends).eraseDups
  links : v.links = edges.eraseDups.map (Edge.placesIn v.nodes)

variable {v : View} {edges : List Edge}

theorem place_eq {l : List Endpoint} (h : v.nodes = l.eraseDups) (n : Endpoint) :
    v.place n = ((l ++ [n]).eraseDups.idxOf n, { v with nodes := (l ++ [n]).eraseDups }) := by
  have hmem : n ∈ v.nodes ↔ n ∈ l := by rw [h, List.mem_eraseDups]
  rw [eraseDups_concat, place]
  cases hfind : v.nodes.idxOf? n with
  | none =>
    have hnew : n ∉ v.nodes := List.idxOf?_eq_none_iff.mp hfind
    rw [if_neg (hmem.not.mp hnew), ← h, List.idxOf_append_of_notMem hnew]
    simp
  | some i =>
    have hold : n ∈ v.nodes := by
      by_contra hnew
      simp [List.idxOf?_eq_none_iff.mpr hnew] at hfind
    rw [if_pos (hmem.mp hold), ← h, List.idxOf_eq_getD_idxOf?, hfind]
    rfl

theorem flatMap_ends_concat (edges : List Edge) (e : Edge) :
    (edges ++ [e]).flatMap Edge.ends =
      (edges.flatMap Edge.ends ++ [.file e.source]) ++ [.module e.target] := by
  simp [Edge.ends]

/-- Adding an edge adds its ends, and then links them. -/
theorem add_eq (h : v.nodes = (edges.flatMap Edge.ends).eraseDups) (e : Edge)
    {nodes : List Endpoint} (hnodes : nodes = ((edges ++ [e]).flatMap Edge.ends).eraseDups) :
    v.add e = link ⟨nodes, v.links⟩ (e.placesIn nodes).1 (e.placesIn nodes).2 := by
  have hfile : (edges.flatMap Edge.ends ++ [Endpoint.file e.source]).eraseDups.idxOf
      (.file e.source) = nodes.idxOf (.file e.source) := by
    rw [hnodes, flatMap_ends_concat, idxOf_eraseDups_append (List.mem_append_right _ (by simp))]
  simp only [View.add, place_eq h]
  rw [place_eq rfl, hfile, ← flatMap_ends_concat, ← hnodes]
  rfl

/-- The edges that were there keep their places when nodes are added. -/
theorem Shows.links_eq_map (h : v.Shows edges) (e : Edge) {nodes : List Endpoint}
    (hnodes : nodes = ((edges ++ [e]).flatMap Edge.ends).eraseDups) :
    v.links = edges.eraseDups.map (Edge.placesIn nodes) := by
  rw [h.links]
  refine List.map_congr_left fun e' he' => ?_
  have hends {n : Endpoint} (hn : n ∈ e'.ends) : v.nodes.idxOf n = nodes.idxOf n := by
    rw [h.nodes, hnodes, List.flatMap_append]
    exact (idxOf_eraseDups_append
      (List.mem_flatMap.mpr ⟨e', List.mem_eraseDups.mp he', hn⟩) _).symm
  rw [Edge.placesIn, Edge.placesIn, hends (by simp [Edge.ends]), hends (by simp [Edge.ends])]

/-- One more edge is shown after it was added. -/
theorem Shows.add (h : v.Shows edges) (e : Edge) : (v.add e).Shows (edges ++ [e]) := by
  generalize hnodes : ((edges ++ [e]).flatMap Edge.ends).eraseDups = nodes
  have hlinks := h.links_eq_map e hnodes.symm
  have hlinked : e.placesIn nodes ∈ v.links ↔ e ∈ edges := by
    rw [hlinks, List.mem_map]
    constructor
    · rintro ⟨e', he', heq⟩
      have hmem : e' ∈ edges := List.mem_eraseDups.mp he'
      have hends : ∀ n ∈ e'.ends, n ∈ nodes := by
        intro n hn
        rw [← hnodes, List.mem_eraseDups]
        exact List.mem_flatMap.mpr ⟨e', List.mem_append_left _ hmem, hn⟩
      exact (Edge.placesIn_inj hends).mp heq ▸ hmem
    · exact fun he => ⟨e, List.mem_eraseDups.mpr he, rfl⟩
  have hadd : v.add e = ⟨nodes, (edges ++ [e]).eraseDups.map (Edge.placesIn nodes)⟩ := by
    rw [add_eq h.nodes e hnodes.symm, link, eraseDups_concat]
    by_cases he : e ∈ edges
    · rw [if_pos (hlinked.mpr he), if_pos he, hlinks]
    · rw [if_neg (hlinked.not.mpr he), if_neg he, List.map_append, hlinks]
      rfl
  rw [hadd]
  exact ⟨hnodes.symm, rfl⟩

/-- An edge that is shown changes nothing when it is added once more. -/
theorem Shows.add_eq_self (h : v.Shows edges) {e : Edge} (he : e ∈ edges) : v.add e = v := by
  have hadd := h.add e
  have hedges : (edges ++ [e]).eraseDups = edges.eraseDups := by
    rw [eraseDups_concat, if_pos he]
  have hends {n : Endpoint} (hn : n ∈ e.ends) : n ∈ edges.flatMap Edge.ends :=
    List.mem_flatMap.mpr ⟨e, he, hn⟩
  have hnodes : (v.add e).nodes = v.nodes := by
    rw [hadd.nodes, h.nodes, flatMap_ends_concat, eraseDups_concat,
      if_pos (List.mem_append_left _ (hends (by simp [Edge.ends]))), eraseDups_concat,
      if_pos (hends (by simp [Edge.ends]))]
  have hlinks : (v.add e).links = v.links := by
    rw [hadd.links, h.links, hedges, hnodes]
  cases hv : v.add e
  cases v
  simp_all

end Graph.View

namespace Graph

/-- The view of a graph shows its edges. -/
theorem shows_view (g : Graph) : g.view.Shows g.edges := by
  obtain ⟨edges⟩ := g
  induction edges using List.reverseRecOn with
  | nil => exact ⟨rfl, rfl⟩
  | append_singleton edges e ih =>
    have hstep : view ⟨edges ++ [e]⟩ = (view ⟨edges⟩).add e := List.foldl_concat ..
    rw [hstep]
    exact ih.add e

theorem view_eraseDups (edges : List Edge) : view ⟨edges.eraseDups⟩ = view ⟨edges⟩ := by
  induction edges using List.reverseRecOn with
  | nil => rfl
  | append_singleton edges e ih =>
    have hstep (edges : List Edge) : view ⟨edges ++ [e]⟩ = (view ⟨edges⟩).add e :=
      List.foldl_concat ..
    rw [eraseDups_concat, hstep]
    split
    · next he => rw [ih, (shows_view ⟨edges⟩).add_eq_self he]
    · rw [hstep, ih]

end Graph

end RepoSurvey
