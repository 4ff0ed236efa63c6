import Mathlib.Data.List.Nodup
import RepoSurvey.Analysis.Document
import RepoSurvey.Proofs.JsonReading
import RepoSurvey.Proofs.MomentText

/-!
Every part of a result can be read from its text: counts that fit a word, ledgers that name nothing
twice, plain moments, and a folder tree of any shape whose brackets do not nest too deeply.
-/

namespace RepoSurvey

/-! ### Depth -/

mutual

/-- How deep the brackets of a value nest. -/
def Json.depth : Json → Nat
  | .list items => Json.itemsDepth items + 1
  | .record fields => Json.fieldsDepth fields + 1
  | _ => 0

def Json.itemsDepth : List Json → Nat
  | [] => 0
  | item :: items => max item.depth (Json.itemsDepth items)

def Json.fieldsDepth : List (String × Json) → Nat
  | [] => 0
  | (_, value) :: fields => max value.depth (Json.fieldsDepth fields)

end

/-- A field's brackets nest less deeply than those of its record. -/
theorem Json.depth_lt_of_mem {name : String} {v : Json} {fields : List (String × Json)}
    (h : (name, v) ∈ fields) : v.depth < (Json.record fields).depth := by
  have hle : v.depth ≤ Json.fieldsDepth fields := by
    induction fields with
    | nil => cases h
    | cons field fields ih =>
      rcases List.mem_cons.mp h with rfl | h
      · exact Nat.le_max_left ..
      · exact Nat.le_trans (ih h) (Nat.le_max_right ..)
  exact Nat.lt_succ_of_le hle

/-! ### Numbers -/

/-- The counts of a graph. -/
def Graph.Statistics.counts (s : Graph.Statistics) : List Nat :=
  [s.totalEdges, s.distinctSources, s.distinctTargets, s.maxFanOut, s.maxFanIn]

/-- A stretch of time that is written as it is: no second is left among the billionths. -/
structure Duration.Fits (d : Duration) : Prop where
  seconds : d.seconds < Json.wordBound
  nanoseconds : d.nanoseconds < 1000000000

/-- All counts of a summary, those of languages and of the graph among them. -/
def Summary.counts (s : Summary) : List Nat :=
  [s.filesScanned, s.sourceFiles, s.filesSkipped, s.parseFailures, s.folders, s.warnings] ++
    s.languages.map Prod.snd ++ s.graph.counts

namespace DocumentPart

open Json

variable {style : Style} {levels : Nat}

/-- A value that is read as a part of a document, in which brackets may nest some levels deep. -/
abbrev LegibleAs (style : Style) (levels : Nat) (part : DocumentPart) (v v' : Json) : Prop :=
  Legible style (readKind shape levels part) v v'

/-! ### Simple parts -/

theorem legibleAs_count {n : Nat} (h : n < wordBound) :
    LegibleAs style levels .count (.natural n) (.natural n) := by
  have hshape : count.shape = .natural "usize" wordBound := rfl
  exact legible_natural hshape h h

theorem legibleAs_text (s : String) : LegibleAs style levels .text (.text s) (.text s) :=
  legible_text rfl s

theorem legibleAs_language (l : Language) :
    LegibleAs style levels .language (.text l.tag) (.text l.tag) := by
  have hshape : language.shape = .choice (Language.all.map Language.tag) := rfl
  refine legible_choice hshape (List.mem_map_of_mem ?_)
  cases l <;> decide

theorem legibleAs_severity (s : Severity) :
    LegibleAs style levels .severity (.text s.word) (.text s.word) := by
  have hshape : severity.shape = .choice ["Warning", "Error", "Critical"] := rfl
  refine legible_choice hshape ?_
  cases s <;> decide

theorem legibleAs_nodeKind (k : NodeKind) :
    LegibleAs style levels .nodeKind (.text k.tag) (.text k.tag) := by
  have hshape : nodeKind.shape = .choice ["folder", "file"] := rfl
  refine legible_choice hshape ?_
  cases k <;> decide

theorem legibleAs_moment {m : Moment} (h : m.Plain) :
    LegibleAs style levels .moment (.text m.text) (.text m.text) := by
  have hcheck : momentCheck m.text = .ok (.text m.text) := by
    rw [momentCheck, h.read_text]
  have hshape :
      moment.shape = .coded "an RFC 3339 formatted date and time string" momentCheck := rfl
  exact legible_coded hshape hcheck

/-! ### Lists and maps -/

variable (hstyle : style.Blank)
include hstyle

theorem legibleAs_list {α : Type} {item part : DocumentPart} (hshape : part.shape = .list item)
    (f : α → Json) {as : List α} (h : ∀ a ∈ as, LegibleAs style levels item (f a) (f a)) :
    LegibleAs style (levels + 1) part (.list (as.map f)) (.list (as.map f)) := by
  refine legible_list hstyle hshape (List.forall₂_same.mpr fun v hv => ?_)
  obtain ⟨a, ha, rfl⟩ := List.mem_map.mp hv
  exact h a ha

theorem legibleAs_texts (ss : List String) :
    LegibleAs style (levels + 1) .texts (.texts ss) (.texts ss) :=
  legibleAs_list hstyle rfl .text fun s _ => legibleAs_text s

theorem legibleAs_ledger {α : Type} {value part : DocumentPart}
    (hshape : part.shape = .map .any value) {f : α → Json} {l : Ledger α} (hnodup : l.keys.Nodup)
    (h : ∀ a, LegibleAs style levels value (f a) (f a)) :
    LegibleAs style (levels + 1) part (l.toJson f) (l.toJson f) := by
  have hnames : (l.entries.map fun e => (e.1, f e.2)).map Prod.fst = l.keys := by
    rw [List.map_map]
    rfl
  refine legible_map hstyle hshape (hnames ▸ hnodup) (fun _ _ => rfl) fun e he => ?_
  obtain ⟨e', -, rfl⟩ := List.mem_map.mp he
  exact h e'.2

theorem legibleAs_languageCounts {counts : LanguageCounts} (hnodup : (counts.map Prod.fst).Nodup)
    (h : ∀ c ∈ counts, c.2 < wordBound) :
    LegibleAs style (levels + 1) .languageCounts
      (.record (counts.map fun c => (c.1.tag, .natural c.2)))
      (.record (counts.map fun c => (c.1.tag, .natural c.2))) := by
  have htags : Function.Injective Language.tag := by
    intro a b hab
    cases a <;> cases b <;> first | rfl | exact absurd hab (by decide)
  have hnames : (counts.map fun c => (c.1.tag, Json.natural c.2)).map Prod.fst =
      (counts.map Prod.fst).map Language.tag := by
    rw [List.map_map, List.map_map]
    rfl
  have hshape :
      languageCounts.shape = .map (.oneOf (Language.all.map Language.tag)) count := rfl
  refine legible_map hstyle hshape (hnames ▸ List.Nodup.map htags hnodup) (fun e he => ?_)
    fun e he => ?_
  · obtain ⟨⟨l, n⟩, -, rfl⟩ := List.mem_map.mp he
    cases l <;> rfl
  · obtain ⟨c, hc, rfl⟩ := List.mem_map.mp he
    exact legibleAs_count (h c hc)

/-! ### Records -/

theorem legibleAs_edge (e : Edge) :
    LegibleAs style (levels + 1) .edge e.toJson e.toJson :=
  legible_record hstyle rfl (by decide)
    (.given (legibleAs_text _).takes_field <| .given (legibleAs_text _).takes_field .nil) rfl

theorem legibleAs_graph (g : Graph) :
    LegibleAs style (levels + 2) .graph g.toJson g.toJson :=
  legibleAs_list hstyle rfl Edge.toJson fun e _ => legibleAs_edge hstyle e

theorem legibleAs_notice (n : Notice) :
    LegibleAs style (levels + 1) .notice n.toJson n.toJson :=
  legible_record hstyle rfl (by decide)
    (.given (legibleAs_text _).takes_field <| .given (legibleAs_text _).takes_field <|
      .given (legibleAs_severity _).takes_field .nil) rfl

omit hstyle in
theorem takes_text? (name : String) (s : Option String) :
    Takes style (readFieldValue (readKind shape levels) ⟨name, .nullable, .text⟩) (.text? s)
      (.text? s) := by
  cases s with
  | none => exact takes_null Presence.noConfusion
  | some s => exact (legibleAs_text s).takes_field

theorem legibleAs_statistics {s : Graph.Statistics} (h : ∀ n ∈ s.counts, n < wordBound) :
    LegibleAs style (levels + 1) .statistics s.toJson s.toJson := by
  simp only [Graph.Statistics.counts, List.forall_mem_cons] at h
  obtain ⟨htotal, hsources, htargets, hout, hin, -⟩ := h
  exact legible_record hstyle rfl (by decide)
    (.given (legibleAs_count htotal).takes_field <| .given (legibleAs_count hsources).takes_field <|
      .given (legibleAs_count htargets).takes_field <| .given (legibleAs_count hout).takes_field <|
      .given (takes_text? _ _) <| .given (legibleAs_count hin).takes_field <|
      .given (takes_text? _ _) .nil) rfl

omit hstyle in
theorem durationCheck_eq_none {s n : Int} (h : s + n / 1000000000 < (wordBound : Nat)) :
    durationCheck [("secs", .integer s), ("nanos", .integer n)] = none := by
  rw [durationCheck, if_pos h]

theorem legibleAs_duration {d : Duration} (h : d.Fits) :
    LegibleAs style (levels + 1) .duration d.toJson d.toJson := by
  have hseconds : LegibleAs style levels .seconds (.natural d.seconds) (.natural d.seconds) := by
    have hshape : seconds.shape = .natural "u64" wordBound := rfl
    exact legible_natural hshape h.seconds h.seconds
  have hnanoseconds :
      LegibleAs style levels .nanoseconds (.natural d.nanoseconds) (.natural d.nanoseconds) := by
    have hshape : nanoseconds.shape = .natural "u32" (twoTo 32) := rfl
    exact legible_natural hshape (Nat.lt_trans h.nanoseconds (by decide))
      (Nat.lt_trans h.nanoseconds (by decide))
  have hwhole : (d.seconds : Int) + (d.nanoseconds : Int) / 1000000000 < (wordBound : Nat) := by
    have hseconds := h.seconds
    have hnanoseconds := h.nanoseconds
    generalize wordBound = bound at *
    omega
  have hcheck : durationCheck [("secs", .natural d.seconds), ("nanos", .natural d.nanoseconds)] =
      none := by
    unfold natural
    exact durationCheck_eq_none hwhole
  have hshape : duration.shape = .record
      { name := "Duration"
        fields := [required "secs" seconds, required "nanos" nanoseconds]
        closed := true
        check := durationCheck } := rfl
  refine legible_record hstyle hshape (by decide)
    (.given hseconds.takes_field <| .given hnanoseconds.takes_field .nil) ?_
  dsimp only
  exact hcheck

theorem legibleAs_summary {s : Summary} (hcounts : ∀ n ∈ s.counts, n < wordBound)
    (hlanguages : (s.languages.map Prod.fst).Nodup) (hduration : s.scanDuration.Fits) :
    LegibleAs style (levels + 2) .summary s.toJson s.toJson := by
  simp only [Summary.counts, List.forall_mem_append, List.forall_mem_cons] at hcounts
  obtain ⟨⟨⟨hscanned, hsource, hskipped, hfailures, hfolders, hwarnings, -⟩, hlanguage⟩, hgraph⟩ :=
    hcounts
  have hlanguage' : ∀ c ∈ s.languages, c.2 < wordBound := fun c hc =>
    hlanguage c.2 (List.mem_map_of_mem hc)
  exact legible_record hstyle rfl (by decide)
    (.given (legibleAs_count hscanned).takes_field <| .given (legibleAs_count hsource).takes_field <|
      .given (legibleAs_count hskipped).takes_field <|
      .given (legibleAs_count hfailures).takes_field <|
      .given (legibleAs_count hfolders).takes_field <|
      .given (legibleAs_languageCounts hstyle hlanguages hlanguage').takes_field <|
      .given (legibleAs_statistics hstyle hgraph).takes_field <|
      .given (legibleAs_duration hstyle hduration).takes_field <|
      .given (legibleAs_count hwarnings).takes_field .nil) rfl

end DocumentPart

/-! ### Trees -/

mutual

/-- What is read of the text of a tree: a node without a list of children has `null` in its place. -/
def Node.filledJson : Node → Json
  | .mk name kind none =>
    .record [("name", .text name), ("type", .text kind.tag), ("children", .null)]
  | .mk name kind (some ns) =>
    .record [("name", .text name), ("type", .text kind.tag),
      ("children", .list (Node.filledJsons ns))]

def Node.filledJsons : List Node → List Json
  | [] => []
  | n :: ns => n.filledJson :: Node.filledJsons ns

end

namespace DocumentPart

open Json

variable {style : Style}

mutual

theorem legibleAs_node (hstyle : style.Blank) : (n : Node) → {levels : Nat} →
    n.toJson.depth ≤ levels → LegibleAs style levels .node n.toJson n.filledJson
  | .mk name kind none, levels, h => by
    -- A record is one level of brackets, and a list of children in it another one.
    obtain ⟨levels, rfl⟩ := Nat.exists_eq_succ_of_ne_zero (Nat.ne_of_gt (Nat.lt_of_lt_of_le
      (Nat.succ_pos _) h))
    exact legible_record hstyle rfl (by decide)
      (.given (legibleAs_text _).takes_field <| .given (legibleAs_nodeKind _).takes_field <|
        .leftOut Presence.noConfusion .nil) rfl
  | .mk name kind (some ns), levels, h => by
    have hdepth : itemsDepth (Node.toJsons ns) + 2 ≤ levels := by
      have heq : (Node.mk name kind (some ns)).toJson.depth =
          itemsDepth (Node.toJsons ns) + 2 := by simp [Node.toJson, depth, fieldsDepth]
      exact heq ▸ h
    obtain ⟨levels, rfl⟩ := Nat.exists_eq_add_of_le' (Nat.le_trans (Nat.le_add_left ..) hdepth)
    have hshape : nodes.shape = .list node := rfl
    have hchildren := legible_list hstyle hshape
      (legibleAs_nodes hstyle ns (Nat.le_of_add_le_add_right hdepth))
    exact legible_record hstyle rfl (by decide)
      (.given (legibleAs_text _).takes_field <| .given (legibleAs_nodeKind _).takes_field <|
        .given hchildren.takes_field .nil) rfl

theorem legibleAs_nodes (hstyle : style.Blank) : (ns : List Node) → {levels : Nat} →
    itemsDepth (Node.toJsons ns) ≤ levels →
    List.Forall₂ (LegibleAs style levels .node) (Node.toJsons ns) (Node.filledJsons ns)
  | [], _, _ => .nil
  | n :: ns, _, h =>
    .cons (legibleAs_node hstyle n (Nat.le_trans (Nat.le_max_left ..) h))
      (legibleAs_nodes hstyle ns (Nat.le_trans (Nat.le_max_right ..) h))

end

end DocumentPart

end RepoSurvey
