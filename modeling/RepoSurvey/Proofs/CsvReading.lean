import RepoSurvey.Report.Csv

/-!
The form of a table of comma-separated values, said without its reader: which texts show a field, a
record, and a table. A text shows one table at most, the reader finds it, and what is written of a graph
shows its edges.
-/

namespace RepoSurvey.Csv

/-- Characters with every quotation mark among them doubled. -/
def doubled (cs : List Char) : List Char :=
  cs.flatMap fun c => if c = '"' then ['"', '"'] else [c]

/-- A field stands bare if nothing in it is special. Between quotation marks anything can stand. -/
inductive ShowsField : List Char → String → Prop where
  | bare {s : String} (hplain : ∀ c ∈ s.toList, isSpecial c = false) : ShowsField s.toList s
  | quoted (s : String) : ShowsField ('"' :: doubled s.toList ++ ['"']) s

/-- The fields of a record have commas between them, and a line feed ends it. -/
inductive ShowsRecord : List Char → List String → Prop where
  | last {text : List Char} {s : String} (h : ShowsField text s) : ShowsRecord (text ++ ['\n']) [s]
  | field {text rest : List Char} {s : String} {ss : List String} (h : ShowsField text s)
      (hrest : ShowsRecord rest ss) : ShowsRecord (text ++ ',' :: rest) (s :: ss)

inductive ShowsTable : List Char → List (List String) → Prop where
  | nil : ShowsTable [] []
  | record {text rest : List Char} {r : List String} {rs : List (List String)}
      (h : ShowsRecord text r) (hrest : ShowsTable rest rs) : ShowsTable (text ++ rest) (r :: rs)

/-! ### The reader -/

def Place.advance (p : Place) (cs : List Char) : Place := cs.foldl Place.after p

variable {field text rest : List Char} {fields : List String} {start here : Place}

/-- One step over a character, unless it begins a pair of quotation marks. -/
theorem scan_cons {inQuotes : Bool} {c : Char} (hpair : c = '"' → rest.head? ≠ some '"') :
    scan inQuotes field fields start here (c :: rest) =
      if c = '"' then scan (!inQuotes) field fields start (here.after c) rest
      else if inQuotes then scan true (c :: field) fields start (here.after c) rest
      else if c = ',' then
        scan false [] (fields ++ [String.ofList field.reverse]) start (here.after c) rest
      else if c = '\n' then
        ⟨start, fields ++ [String.ofList field.reverse]⟩ ::
          scan false [] [] (here.after c) (here.after c) rest
      else scan false (c :: field) fields start (here.after c) rest := by
  refine scan.eq_3 _ _ _ _ _ _ _ fun t hc ht => ?_
  subst ht
  exact hpair hc rfl

/-- A quotation mark outside of quotation marks opens them, whatever follows it. -/
theorem scan_open (rest : List Char) :
    scan false field fields start here ('"' :: rest) =
      scan true field fields start (here.after '"') rest := by
  match rest with
  | [] => simp [scan]
  | c :: rest =>
    by_cases hc : c = '"'
    · subst hc
      rw [scan, if_neg Bool.false_ne_true]
    · rw [scan_cons (by simp [hc]), if_pos rfl, Bool.not_false]

/-- Between quotation marks the reader takes a doubled one for one, up to the one that stands alone. -/
theorem scan_doubled (cs : List Char) (hrest : rest.head? ≠ some '"') :
    scan true field fields start here (doubled cs ++ '"' :: rest) =
      scan false (cs.reverse ++ field) fields start (here.advance (doubled cs ++ ['"'])) rest := by
  induction cs generalizing field here with
  | nil =>
    rw [doubled, List.flatMap_nil, List.nil_append, scan_cons fun _ => hrest, if_pos rfl]
    rfl
  | cons c cs ih =>
    by_cases hc : c = '"'
    · subst hc
      have hsplit : doubled ('"' :: cs) = '"' :: '"' :: doubled cs := rfl
      rw [hsplit, List.cons_append, List.cons_append, scan, if_pos rfl, ih]
      simp [Place.advance]
    · have hsplit : doubled (c :: cs) = c :: doubled cs := by simp [doubled, hc]
      rw [hsplit, List.cons_append, scan_cons (absurd · hc), if_neg hc, if_pos rfl, ih]
      simp [Place.advance]

theorem scan_bare (cs : List Char) (hplain : ∀ c ∈ cs, isSpecial c = false) :
    scan false field fields start here (cs ++ rest) =
      scan false (cs.reverse ++ field) fields start (here.advance cs) rest := by
  induction cs generalizing field here with
  | nil => rfl
  | cons c cs ih =>
    obtain ⟨hc, hcs⟩ := List.forall_mem_cons.mp hplain
    obtain ⟨⟨⟨hcomma, hquote⟩, -⟩, hline⟩ :
        ((c ≠ ',' ∧ c ≠ '"') ∧ c ≠ '\r') ∧ c ≠ '\n' := by simpa [isSpecial] using hc
    rw [List.cons_append, scan_cons (absurd · hquote)]
    simp [hquote, hcomma, hline, ih hcs, Place.advance]

/-- A field is read up to the comma or line feed behind it. -/
theorem ShowsField.scan_eq {s : String} (h : ShowsField text s) (hrest : rest.head? ≠ some '"') :
    scan false [] fields start here (text ++ rest) =
      scan false s.toList.reverse fields start (here.advance text) rest := by
  cases h with
  | bare hplain => rw [scan_bare _ hplain, List.append_nil]
  | quoted s =>
    rw [List.append_assoc, List.cons_append, scan_open, List.singleton_append,
      scan_doubled _ hrest, List.append_nil]
    rfl

theorem ShowsRecord.scan_eq {ss : List String} (h : ShowsRecord text ss) (rest : List Char) :
    scan false [] fields start here (text ++ rest) =
      ⟨start, fields ++ ss⟩ :: scan false [] [] (here.advance text) (here.advance text) rest := by
  induction h generalizing fields here with
  | @last text s hfield =>
    rw [List.append_assoc, hfield.scan_eq (by simp), List.singleton_append, scan_cons (by simp)]
    simp [Place.advance]
  | @field text more s ss hfield _ ih =>
    rw [List.append_assoc, List.cons_append, hfield.scan_eq (by simp), scan_cons (by simp)]
    simp [ih, Place.advance]

theorem ShowsTable.map_fields_scan {rs : List (List String)} (h : ShowsTable text rs)
    (here : Place) :
    (scan false [] [] here here text).map Record.fields = rs := by
  induction h generalizing here with
  | nil => simp [scan]
  | record hrecord _ ih => rw [hrecord.scan_eq, List.map_cons, ih, List.nil_append]

/-- A text shows one table at most. -/
theorem ShowsTable.unique {rs rs' : List (List String)} (h : ShowsTable text rs)
    (h' : ShowsTable text rs') : rs = rs' := by
  have hscan := h.map_fields_scan ⟨1, 0⟩
  rw [h'.map_fields_scan] at hscan
  exact hscan.symm

theorem checkWidths_eq_ok {index width : Nat} {records : List Record}
    (h : ∀ r ∈ records, r.fields.length = width) : checkWidths index width records = .ok () := by
  induction records generalizing index with
  | nil => rfl
  | cons r records ih =>
    obtain ⟨hr, hrecords⟩ := List.forall_mem_cons.mp h
    rw [checkWidths, if_pos hr, ih hrecords]

/-- The reader finds the table that a text shows, if all of its records are equally wide. -/
theorem ShowsTable.read_eq {rs : List (List String)} {width : Nat} (h : ShowsTable text rs)
    (hwidth : ∀ r ∈ rs, r.length = width) : Csv.read (String.ofList text) = .ok rs := by
  have hscan := h.map_fields_scan ⟨1, 0⟩
  rw [Csv.read, String.toList_ofList]
  generalize scan false [] [] ⟨1, 0⟩ ⟨1, 0⟩ text = records at hscan
  subst hscan
  match records with
  | [] => rfl
  | r :: records =>
    obtain ⟨hr, hrecords⟩ := List.forall_mem_cons.mp hwidth
    have hcheck : checkWidths 1 r.fields.length records = .ok () := by
      apply checkWidths_eq_ok
      intro r' hr'
      rw [hr]
      exact hrecords r'.fields (List.mem_map_of_mem hr')
    simp only [hcheck]

/-! ### The writer -/

theorem showsField_field (s : String) : ShowsField (Csv.field s) s := by
  unfold Csv.field
  split
  · exact .quoted s
  · next hplain =>
    refine .bare fun c hc => ?_
    have hnone := List.any_eq_false.mp (Bool.eq_false_iff.mpr hplain) c hc
    exact Bool.eq_false_iff.mpr hnone

theorem showsRecord_recordLine (a b : String) : ShowsRecord (recordLine a b) [a, b] := by
  have hlast := ShowsRecord.last (showsField_field b)
  simpa [recordLine] using ShowsRecord.field (showsField_field a) hlast

/-- The records of a graph: the heads of the columns, and for each edge its source and its target. -/
def rows (g : Graph) : List (List String) :=
  ["source", "target"] :: g.edges.map fun e => [e.source, e.target]

theorem rows_injective {g h : Graph} (heq : rows g = rows h) : g.edges = h.edges := by
  refine (List.map_inj_right fun e e' hedge => ?_).mp (List.cons.inj heq).2
  cases e
  cases e'
  simpa using hedge

theorem showsTable_ofGraph (g : Graph) : ShowsTable (ofGraph g).toList (rows g) := by
  have hedges (edges : List Edge) :
      ShowsTable (edges.flatMap fun e => recordLine e.source e.target)
        (edges.map fun e => [e.source, e.target]) := by
    induction edges with
    | nil => exact .nil
    | cons e edges ih => exact .record (showsRecord_recordLine e.source e.target) ih
  rw [ofGraph, String.toList_ofList]
  exact .record (showsRecord_recordLine "source" "target") (hedges g.edges)

/-- What is written of a graph is a table of its edges, each once for each time it is found, and of
nothing else. It is read back, so the texts of two graphs are equal only if their edges are. -/
theorem read_ofGraph (g : Graph) :
    ShowsTable (ofGraph g).toList (rows g) ∧
      (∀ rs, ShowsTable (ofGraph g).toList rs → rs = rows g) ∧
      Csv.read (ofGraph g) = .ok (rows g) ∧
      ∀ h : Graph, ofGraph g = ofGraph h ↔ g.edges = h.edges := by
  have hshows := showsTable_ofGraph g
  have hwidth : ∀ r ∈ rows g, r.length = 2 := by
    simp [rows]
  have hread : Csv.read (ofGraph g) = .ok (rows g) := by
    simpa using hshows.read_eq hwidth
  refine ⟨hshows, fun rs hrs => hrs.unique hshows, hread, fun h => ⟨fun heq => ?_, fun heq => ?_⟩⟩
  · have hother := showsTable_ofGraph h
    rw [← heq] at hother
    exact rows_injective (hshows.unique hother)
  · rw [ofGraph, ofGraph, heq]

end RepoSurvey.Csv
