import RepoSurvey.Proofs.Bookkeeping
import RepoSurvey.Proofs.DocumentText

/-!
Reading the document of a result gives back the result. What is written of each part is understood as
this part, and of everything that can be done to a result nothing is lost in its text, on one line or
on many.
-/

namespace RepoSurvey

/-! ### Understanding what was written -/

theorem mapM_map_eq_some {α β : Type} {f : α → β} {g : β → Option α} {as : List α}
    (h : ∀ a ∈ as, g (f a) = some a) : (as.map f).mapM g = some as := by
  induction as with
  | nil => rfl
  | cons a as ih =>
    rw [List.map_cons, List.mapM_cons, h a (List.mem_cons_self ..),
      ih fun b hb => h b (List.mem_cons_of_mem _ hb)]
    rfl

theorem Ledger.ofJson?_toJson {α : Type} {f : α → Json} {g : Json → Option α}
    (h : ∀ a, g (f a) = some a) (l : Ledger α) : Ledger.ofJson? g (l.toJson f) = some l := by
  have hentries : (l.entries.map fun e => (e.1, f e.2)).mapM
      (fun e => do return (e.1, ← g e.2)) = some l.entries := by
    refine mapM_map_eq_some fun e _ => ?_
    dsimp only
    rw [h]
    rfl
  have hread : Ledger.ofJson? g (l.toJson f) = Option.bind
      ((l.entries.map fun e => (e.1, f e.2)).mapM fun e => do return (e.1, ← g e.2))
      fun entries => some ⟨entries⟩ := rfl
  rw [hread, hentries]
  rfl

theorem NodeKind.ofJson?_text (k : NodeKind) : NodeKind.ofJson? (.text k.tag) = some k := by
  cases k <;> rfl

mutual

theorem Node.ofJson?_filledJson : (n : Node) → Node.ofJson? n.filledJson = some n
  | .mk name kind none => by
    rw [Node.filledJson, Node.ofJson?, NodeKind.ofJson?_text]
    rfl
  | .mk name kind (some ns) => by
    rw [Node.filledJson, Node.ofJson?, NodeKind.ofJson?_text, Node.ofJsons?_filledJsons ns]
    rfl

theorem Node.ofJsons?_filledJsons : (ns : List Node) →
    Node.ofJsons? (Node.filledJsons ns) = some ns
  | [] => rfl
  | n :: ns => by
    rw [Node.filledJsons, Node.ofJsons?, Node.ofJson?_filledJson n, Node.ofJsons?_filledJsons ns]
    rfl

end

theorem Json.asNatural?_natural (n : Nat) : (Json.natural n).asNatural? = some n := by
  simp [Json.natural, Json.asNatural?]

theorem Json.asTexts?_texts (ss : List String) : (Json.texts ss).asTexts? = some ss :=
  mapM_map_eq_some fun _ _ => rfl

theorem Edge.ofJson?_toJson (e : Edge) : Edge.ofJson? e.toJson = some e := by
  rfl

theorem Graph.ofJson?_toJson (g : Graph) : Graph.ofJson? g.toJson = some g := by
  have hedges : (g.edges.map Edge.toJson).mapM Edge.ofJson? = some g.edges :=
    mapM_map_eq_some fun e _ => e.ofJson?_toJson
  simp [Graph.ofJson?, Graph.toJson, Json.asList?, hedges]

theorem Language.ofTag?_tag (l : Language) : Language.ofTag? l.tag = some l := by
  cases l <;> rfl

theorem Notice.ofJson?_toJson (n : Notice) : Notice.ofJson? n.toJson = some n := by
  obtain ⟨path, message, severity⟩ := n
  cases severity <;> rfl

theorem Graph.Statistics.ofJson?_toJson (s : Graph.Statistics) :
    Graph.Statistics.ofJson? s.toJson = some s := by
  obtain ⟨total, sources, targets, out, file, into, module⟩ := s
  cases file <;> cases module <;> rfl

theorem Duration.ofJson?_toJson {d : Duration} (h : d.nanoseconds < 1000000000) :
    Duration.ofJson? d.toJson = some d := by
  have hparts : Duration.ofParts d.seconds d.nanoseconds = d := by
    rw [Duration.ofParts, Nat.div_eq_of_lt h, Nat.mod_eq_of_lt h]
    rfl
  have hread : Duration.ofJson? d.toJson = some (.ofParts d.seconds d.nanoseconds) := rfl
  rw [hread, hparts]

/-- Counts that stand in the order of their languages are not put in another order. -/
theorem LanguageCounts.ofJson?_record {counts : LanguageCounts} (h : counts.Ordered) :
    LanguageCounts.ofJson? (.record (counts.map fun c => (c.1.tag, .natural c.2))) =
      some counts := by
  have hentries : (counts.map fun c => (c.1.tag, Json.natural c.2)).mapM
      (fun e => do return (← Language.ofTag? e.1, ← e.2.asNatural?)) = some counts := by
    refine mapM_map_eq_some fun c _ => ?_
    dsimp only
    rw [Language.ofTag?_tag]
    rfl
  have hsorted : counts.mergeSort (fun a b => a.1.rank ≤ b.1.rank) = counts :=
    List.mergeSort_of_pairwise (h.imp fun hlt => decide_eq_true (Nat.le_of_lt hlt))
  have hread : LanguageCounts.ofJson? (.record (counts.map fun c => (c.1.tag, .natural c.2))) =
      Option.bind ((counts.map fun c => (c.1.tag, Json.natural c.2)).mapM
          fun e => do return (← Language.ofTag? e.1, ← e.2.asNatural?))
        fun read => some (read.mergeSort fun a b => a.1.rank ≤ b.1.rank) := rfl
  rw [hread, hentries]
  exact congrArg some hsorted

theorem LanguageCounts.Ordered.nodup {counts : LanguageCounts} (h : counts.Ordered) :
    (counts.map Prod.fst).Nodup := by
  refine List.pairwise_map.mpr (h.imp fun {a b} hlt heq => ?_)
  rw [heq] at hlt
  exact Nat.lt_irrefl _ hlt

theorem Summary.ofJson?_toJson {s : Summary} (hcounts : s.languages.Ordered)
    (hduration : s.scanDuration.nanoseconds < 1000000000) :
    Summary.ofJson? s.toJson = some s := by
  have hlanguages := LanguageCounts.ofJson?_record hcounts
  have hgraph := s.graph.ofJson?_toJson
  have helapsed := Duration.ofJson?_toJson hduration
  simp [Summary.ofJson?, Summary.toJson, Json.naturalField?, Json.field?, List.lookup_cons,
    hlanguages, hgraph, helapsed, Json.asNatural?_natural]

/-! ### Results -/

namespace Analysis

open Json DocumentPart

/-- No ledger has a name twice, and the counts of languages are in order. -/
structure Tidy (a : Analysis) : Prop where
  languages : a.languages.keys.Nodup
  imports : a.imports.keys.Nodup
  explanations : a.explanations.keys.Nodup
  securityReports : a.securityReports.keys.Nodup
  tests : a.tests.keys.Nodup
  counts : a.summary.languages.Ordered

theorem Recorded.tidy {a : Analysis} {reports : List FileReport}
    {failures : List (String × Failure)} (h : a.Recorded reports failures) : a.Tidy where
  languages := h.languages ▸ (Ledger.keys_ofList _).1
  imports := h.imports ▸ (Ledger.keys_ofList _).1
  explanations := h.explanations ▸ (Ledger.keys_ofList _).1
  securityReports := h.securityReports ▸ (Ledger.keys_ofList _).1
  tests := h.tests ▸ (Ledger.keys_ofList _).1
  counts := h.tally.ordered

/-- What a document can hold: counts that fit a word, a stretch of time and a moment in their usual
forms, and brackets that nest no deeper than a reader follows them. -/
structure Fits (a : Analysis) : Prop where
  counts : ∀ n ∈ a.summary.counts, n < wordBound
  scanDuration : a.summary.scanDuration.Fits
  generatedAt : a.generatedAt.Plain
  depth : a.toJson.depth ≤ nestingLimit

/-- The text of a result can be read, and what is read is understood as the result. -/
theorem exists_legibleAs {style : Style} (hstyle : style.Blank) {a : Analysis} (htidy : a.Tidy)
    (h : a.Fits) :
    ∃ v, LegibleAs style nestingLimit .analysis a.toJson v ∧ Analysis.ofJson? v = some a := by
  have htree : a.tree.toJson.depth ≤ 126 := by
    have hlt : a.tree.toJson.depth < a.toJson.depth :=
      depth_lt_of_mem (List.mem_cons_of_mem _ (List.mem_cons_self ..))
    exact Nat.le_of_lt_succ (Nat.lt_of_lt_of_le hlt h.depth)
  refine ⟨_, legible_record hstyle rfl (by decide)
    (.given (legibleAs_text _).takes_field <|
      .given (legibleAs_node hstyle a.tree htree).takes_field <|
      .given (legibleAs_text _).takes_field <|
      .given (legibleAs_ledger hstyle rfl htidy.languages legibleAs_language).takes_field <|
      .given (legibleAs_ledger hstyle rfl htidy.imports (legibleAs_texts hstyle)).takes_field <|
      .given (legibleAs_ledger hstyle rfl htidy.explanations legibleAs_text).takes_field <|
      .given (legibleAs_ledger hstyle rfl htidy.securityReports legibleAs_text).takes_field <|
      .given (legibleAs_ledger hstyle rfl htidy.tests legibleAs_text).takes_field <|
      .given (legibleAs_graph hstyle a.graph).takes_field <|
      .given (legibleAs_text _).takes_field <|
      .given (legibleAs_summary hstyle h.counts htidy.counts.nodup h.scanDuration).takes_field <|
      .given (legibleAs_list hstyle rfl Notice.toJson
        fun n _ => legibleAs_notice hstyle n).takes_field <|
      .given (legibleAs_moment h.generatedAt).takes_field .nil) rfl, ?_⟩
  have htree := a.tree.ofJson?_filledJson
  have hlanguages := Ledger.ofJson?_toJson (f := fun l : Language => .text l.tag)
    (g := fun w => w.asText?.bind Language.ofTag?) Language.ofTag?_tag a.languages
  have himports := Ledger.ofJson?_toJson asTexts?_texts a.imports
  have htexts (l : Ledger String) :=
    Ledger.ofJson?_toJson (f := Json.text) (g := asText?) (fun _ => rfl) l
  have hgraph := a.graph.ofJson?_toJson
  have hsummary := Summary.ofJson?_toJson htidy.counts h.scanDuration.nanoseconds
  have hnotices : (a.notices.map Notice.toJson).mapM Notice.ofJson? = some a.notices :=
    mapM_map_eq_some fun n _ => n.ofJson?_toJson
  have hmoment : (Moment.read a.generatedAt.text).toOption = some a.generatedAt := by
    rw [h.generatedAt.read_text]
    rfl
  have htext (s : String) : (Json.text s).asText? = some s := rfl
  simp [Analysis.ofJson?, required, textField?, field?, List.lookup_cons, htext, asList?, htree,
    hlanguages, himports, htexts, hgraph, hsummary, hnotices, hmoment]

/-- Both texts of a result are read as the result. -/
theorem Tidy.read_texts {a : Analysis} (htidy : a.Tidy) (h : a.Fits) :
    read a.toJson.prettyText = .ok a ∧ read a.toJson.compactText = .ok a := by
  have hread {style : Style} (hstyle : style.Blank) :
      read (String.ofList (a.toJson.write style 0)) = .ok a := by
    obtain ⟨v, hlegible, hunderstood⟩ := exists_legibleAs hstyle htidy h
    rw [read, readPart, readDocument_write hlegible]
    dsimp only
    rw [hunderstood]
  exact ⟨hread pretty_blank, hread compact_blank⟩

/-- Whatever is done to a new result, its text is read as the result, if the document can hold it; hence
writing it again gives the same text. -/
theorem read_performAll (repository : String) (tree : Node) (outline : String) (now : Moment)
    (ops : List Operation) (h : ((start repository tree outline now).performAll ops).Fits) :
    let a := (start repository tree outline now).performAll ops
    (read a.toJson.prettyText = .ok a ∧ read a.toJson.compactText = .ok a) ∧
      (read a.toJson.prettyText).map (fun b => b.toJson.prettyText) = .ok a.toJson.prettyText ∧
      (read a.toJson.compactText).map (fun b => b.toJson.compactText) = .ok a.toJson.compactText := by
  have hrecorded := (recorded_start repository tree outline now).performAll ops
  obtain ⟨hpretty, hcompact⟩ := hrecorded.tidy.read_texts h
  refine ⟨⟨hpretty, hcompact⟩, ?_, ?_⟩
  · rw [hpretty]
    rfl
  · rw [hcompact]
    rfl

/-- A file that imports a module is entered, another one cannot be read, and the edge, the number of
files seen and the time that it took are set. -/
def oneFile : List Operation :=
  [.addFile ⟨"a.py", .python, ["os"], "", "", ""⟩, .setGraph ⟨[⟨"a.py", "os"⟩]⟩,
    .addFailure "b.py" (.permissionDenied "b.py"), .setFilesScanned 2, .setScanDuration ⟨1, 5⟩]

theorem read_performAll_oneFile :
    let a := (start "r" (.folder "r" [.file "a.py"]) "r" ⟨20000, 5, 1⟩).performAll oneFile
    a.Fits ∧
    (read a.toJson.prettyText = .ok a ∧ read a.toJson.compactText = .ok a) ∧
      (read a.toJson.prettyText).map (fun b => b.toJson.prettyText) = .ok a.toJson.prettyText ∧
      (read a.toJson.compactText).map (fun b => b.toJson.compactText) = .ok a.toJson.compactText := by
  have h : ((start "r" (.folder "r" [.file "a.py"]) "r" ⟨20000, 5, 1⟩).performAll oneFile).Fits := by
    refine ⟨?_, ⟨?_, ?_⟩, ⟨?_, ?_, ?_⟩, ?_⟩
    · decide +kernel
    · decide
    · decide
    · decide
    · decide
    · decide
    · decide +kernel
  exact ⟨h, read_performAll "r" (.folder "r" [.file "a.py"]) "r" ⟨20000, 5, 1⟩ oneFile h⟩

end Analysis

end RepoSurvey
