import RepoSurvey.Proofs.DrawingReading
import RepoSurvey.Proofs.ReportColors
import RepoSurvey.Proofs.SettingsChecks
import RepoSurvey.Proofs.TextBytes
import RepoSurvey.Proofs.Writing
import RepoSurvey.Report.Output

/-!
Handing out a result to two files, the report to one and the drawing of the graph to the other. The report
is written first. So it is still there afterwards exactly if the two paths lead to two files, for no report
of any form reads like the drawing of its graph.
-/

namespace RepoSurvey

/-! ### No report is a drawing -/

/-- How many characters stand before the first head of an arrow. -/
def untilArrow (cs : List Char) : Nat := (cs.takeWhile (· != '>')).length

theorem untilArrow_append {cs : List Char} (h : '>' ∉ cs) (rest : List Char) :
    untilArrow (cs ++ rest) = cs.length + untilArrow rest := by
  have hcs : ∀ c ∈ cs, (c != '>') = true := by
    intro c hc
    exact bne_iff_ne.mpr fun he => h (he ▸ hc)
  rw [untilArrow, List.takeWhile_append_of_pos hcs, List.length_append, untilArrow]

theorem untilArrow_append_arrow (cs rest : List Char) :
    untilArrow (cs ++ ' ' :: '-' :: '>' :: rest) ≤ untilArrow cs + 2 := by
  induction cs with
  | nil => simp [untilArrow]
  | cons c cs ih =>
    unfold untilArrow at ih ⊢
    rw [List.cons_append, List.takeWhile_cons, List.takeWhile_cons]
    split
    · simp only [List.length_cons]
      omega
    · simp

/-- A name in quotation marks is not shorter than the name. -/
theorem untilArrow_le_quoted (cs rest : List Char) :
    untilArrow cs ≤
      untilArrow (cs.flatMap (fun c => if c = '\\' ∨ c = '"' then ['\\', c] else [c]) ++ rest) := by
  induction cs with
  | nil => exact Nat.zero_le _
  | cons c cs ih =>
    unfold untilArrow at ih ⊢
    rw [List.flatMap_cons]
    by_cases hc : c = '\\' ∨ c = '"'
    · have hplain : (c != '>') = true := by rcases hc with rfl | rfl <;> rfl
      rw [if_pos hc]
      simp only [List.cons_append, List.nil_append, List.takeWhile_cons, hplain, if_true,
        List.length_cons, show ('\\' != '>') = true from rfl]
      omega
    · rw [if_neg hc, List.cons_append, List.nil_append, List.cons_append, List.takeWhile_cons,
        List.takeWhile_cons]
      split
      · simpa using ih
      · exact Nat.le_refl _

namespace Graph

/-- A drawing begins with its head, and the first name in it is that of the first source. -/
theorem exists_toList_dot (e : Edge) (edges : List Edge) :
    ∃ rest, (dot ⟨e :: edges⟩).toList =
      "digraph dependencies \x7b\n  rankdir=LR;\n  node [shape=box];\n\n".toList ++ ([' ', ' ', '"'] ++
        (e.source.toList.flatMap (fun c => if c = '\\' ∨ c = '"' then ['\\', c] else [c]) ++ rest)) := by
  obtain ⟨nodes, hnodes⟩ : ∃ nodes, (view ⟨e :: edges⟩).nodes = .file e.source :: nodes := by
    rw [(shows_view ⟨e :: edges⟩).nodes, List.flatMap_cons, Edge.ends, List.cons_append,
      List.eraseDups_cons]
    exact ⟨_, rfl⟩
  rw [toList_dot, hnodes, List.flatMap_cons, dotNode, dotIdentifier_eq, Endpoint.name]
  simp only [List.append_assoc, List.cons_append, List.nil_append, List.append_cancel_left_eq,
    List.cons.injEq, true_and]
  exact ⟨_, rfl⟩

/-- A text that begins with another letter is no drawing. -/
theorem ne_dot_of_head? {s : String} {c : Char} (h : s.toList.head? = some c) (hc : c ≠ 'd') (g : Graph) :
    s ≠ g.dot := by
  rintro rfl
  rw [toList_dot, List.head?_append] at h
  exact hc (Option.some.inj h).symm

end Graph

namespace Analysis

/-- The listing of the edges is no drawing: its first arrow comes right after the first source, and in the
drawing more than two characters come before this source. -/
theorem edgeLines_ne_dot (g : Graph) : edgeLines g ≠ g.dot := by
  obtain ⟨edges⟩ := g
  intro h
  have htext := congrArg String.toList h
  cases edges with
  | nil =>
    rw [Graph.toList_dot] at htext
    cases htext
  | cons e edges =>
    obtain ⟨rest, hdot⟩ := Graph.exists_toList_dot e edges
    obtain ⟨rest', hlines⟩ : ∃ rest', (edgeLines ⟨e :: edges⟩).toList =
        e.source.toList ++ ' ' :: '-' :: '>' :: rest' := by
      rw [edgeLines, List.map_cons, String.join_cons, String.toList_append]
      simp only [List.append_assoc, String.toList_append]
      exact ⟨_, rfl⟩
    have hquote : '>' ∉ [' ', ' ', '"'] := by decide
    have hhead : '>' ∉ "digraph dependencies \x7b\n  rankdir=LR;\n  node [shape=box];\n\n".toList := by decide
    have hlisting := untilArrow_append_arrow e.source.toList rest'
    have hdrawing := untilArrow_le_quoted e.source.toList rest
    have hplace := congrArg untilArrow htext
    rw [hlines, hdot, untilArrow_append hhead, untilArrow_append hquote] at hplace
    simp only [List.length_cons, List.length_nil] at hplace
    omega

theorem head?_textReport (a : Analysis) (verbose : Bool) :
    (a.textReport false verbose false).toList.head? = some 'R' := by
  rw [textReport, if_neg Bool.false_ne_true, fullReport]
  simp only [heading, Bool.false_eq_true, ↓reduceIte, String.toList_append]
  rfl

end Analysis

/-- No report is the drawing of its graph, whatever its form. -/
theorem OutputFormat.render_ne_dot (format : OutputFormat) (verbose quiet : Bool) (a : Analysis) :
    format.render false verbose quiet a ≠ a.graph.dot := by
  cases format with
  | text =>
    cases quiet with
    | true => exact Analysis.edgeLines_ne_dot a.graph
    | false => exact Graph.ne_dot_of_head? (a.head?_textReport verbose) (by decide) a.graph
  | json =>
    have hhead : (OutputFormat.json.render false verbose quiet a).toList.head? = some '{' := by
      rw [render, Json.prettyText, String.toList_ofList]
      rfl
    exact Graph.ne_dot_of_head? hhead (by decide) a.graph
  | csv =>
    have hhead : (OutputFormat.csv.render false verbose quiet a).toList.head? = some 's' := by
      rw [render, Csv.ofGraph, String.toList_ofList]
      rfl
    exact Graph.ne_dot_of_head? hhead (by decide) a.graph

/-! ### Two files -/

namespace World

open FileSystem

variable {fs fs' : FileSystem} {w w' : World} {s : Settings} {a : Analysis} {p q : Path} {text : String}

/-- A snapshot `fs`, and the snapshot `fs'` after a text has been delivered to a path. -/
structure Delivered (fs : FileSystem) (p : Path) (text : String) (fs' : FileSystem) : Prop where
  hasCurrent : fs'.HasCurrent
  filePlace?_eq : ∀ q, filePlace? (fs'.arrive true q) = filePlace? (fs.arrive true q)
  isDirectory_eq : ∀ q, fs'.isDirectory q = fs.isDirectory q
  /-- A path that leads to the same file holds the text, and every other path what it held. -/
  holdsText_iff : ∀ q other, fs'.HoldsText q other ↔
    if (∃ r, filePlace? (fs.arrive true p) = some r ∧ filePlace? (fs.arrive true q) = some r) then
      text = other
    else fs.HoldsText q other

/-- What is delivered to a path is written, and nothing else is done. -/
theorem write_of_deliver (h : w.deliver (some p) text = .ok w') :
    ∃ fs', w.files.write p (Utf8.encode text) = .ok fs' ∧ w' = { w with files := fs' } := by
  unfold deliver writeText at h
  dsimp only at h
  split at h
  · cases h
  · cases hwrite : w.files.write p (Utf8.encode text) with
    | error e =>
      rw [hwrite] at h
      cases h
    | ok fs' =>
      rw [hwrite] at h
      exact ⟨fs', rfl, (Except.ok.inj h).symm⟩

theorem delivered_of_deliver (hcurrent : w.files.HasCurrent) (h : w.deliver (some p) text = .ok w') :
    Delivered w.files p text w'.files := by
  obtain ⟨fs', hwrite, rfl⟩ := write_of_deliver h
  rcases wrote_of_write hwrite with ⟨r, hplace, hwrote⟩ | ⟨hnone, hsame⟩
  · refine ⟨hwrote.hasCurrent hcurrent, hwrote.filePlace?_eq hcurrent, hwrote.isDirectory_path hcurrent,
      fun q other => ?_⟩
    rw [hwrote.holdsText_iff hcurrent, hplace]
    by_cases hq : filePlace? (w.files.arrive true q) = some r
    · rw [if_pos hq, if_pos ⟨r, rfl, hq⟩]
      exact ⟨Utf8.encode_injective, congrArg Utf8.encode⟩
    · rw [if_neg hq, if_neg]
      rintro ⟨r', hr, hr'⟩
      exact hq (hr'.trans hr.symm)
  · subst hsame
    refine ⟨hcurrent, fun _ => rfl, fun _ => rfl, fun q other => ?_⟩
    rw [hnone, if_neg]
    rintro ⟨r, hr, -⟩
    cases hr

theorem exists_deliver {r : RealPath} (hroom : w.files.HasRoomFor p)
    (hplace : filePlace? (w.files.arrive true p) = some r) (hlast : p.getLast? ≠ some solidus)
    (text : String) : ∃ w', w.deliver (some p) text = .ok w' := by
  unfold deliver writeText
  dsimp only
  rw [outputFlaw?_eq_none_iff.mpr hroom, write_eq_ok hplace hlast]
  exact ⟨_, rfl⟩

theorem deliver_of_handOut (hfile : s.outputFile = some p) (hdot : s.dotFile = some q)
    (h : w.handOut s a = (w', .ok ())) :
    ∃ w₁, w.deliver (some p) (s.outputFormat.render false s.verbose s.quiet a) = .ok w₁ ∧
      w₁.deliver (some q) a.graph.dot = .ok w' := by
  have htext : resultText s a = s.outputFormat.render false s.verbose s.quiet a := by
    rw [resultText, hfile, Option.isNone_some, Bool.and_false]
  rw [handOut, hfile, hdot, htext] at h
  split at h
  · cases h
  · next w₁ h₁ =>
    dsimp only at h
    split at h
    · cases h
    · next w₂ h₂ =>
      obtain rfl : w₂ = w' := congrArg Prod.fst h
      exact ⟨w₁, h₁, h₂⟩

/-- With settings that pass the check a result can be handed out, if both paths lead to files or to directories
in which these are to be made. -/
theorem exists_handOut {r r' : RealPath} (hcurrent : w.files.HasCurrent) (hpasses : s.Passes w.files)
    (hfile : s.outputFile = some p) (hdot : s.dotFile = some q)
    (hp : filePlace? (w.files.arrive true p) = some r) (hplast : p.getLast? ≠ some solidus)
    (hq : filePlace? (w.files.arrive true q) = some r') (hqlast : q.getLast? ≠ some solidus)
    (a : Analysis) : ∃ w', w.handOut s a = (w', .ok ()) := by
  obtain ⟨w₁, h₁⟩ := exists_deliver (hpasses.outputFile p hfile) hp hplast (resultText s a)
  have hreport := delivered_of_deliver hcurrent h₁
  have hroom : w₁.files.HasRoomFor q := by
    intro d hd
    -- The check was made before the report was written, and no directory has gone since.
    rw [hreport.isDirectory_eq]
    exact hpasses.dotFile q hdot d hd
  obtain ⟨w₂, h₂⟩ := exists_deliver hroom ((hreport.filePlace?_eq q).trans hq) hqlast a.graph.dot
  refine ⟨w₂, ?_⟩
  rw [handOut, hfile, h₁]
  dsimp only
  rw [hdot]
  dsimp only
  rw [h₂]

/-- Where both paths lead to one file, the drawing takes the place of the report. -/
theorem not_holdsText_report {r : RealPath} (hcurrent : w.files.HasCurrent) (hfile : s.outputFile = some p)
    (hdot : s.dotFile = some q) (h : w.handOut s a = (w', .ok ()))
    (hp : filePlace? (w.files.arrive true p) = some r)
    (hq : filePlace? (w.files.arrive true q) = some r) :
    ¬ w'.files.HoldsText p (s.outputFormat.render false s.verbose s.quiet a) := by
  obtain ⟨w₁, h₁, h₂⟩ := deliver_of_handOut hfile hdot h
  have hreport := delivered_of_deliver hcurrent h₁
  have hdrawing := delivered_of_deliver hreport.hasCurrent h₂
  rw [← hreport.filePlace?_eq] at hp hq
  rw [hdrawing.holdsText_iff, if_pos ⟨r, hq, hp⟩]
  exact fun he => s.outputFormat.render_ne_dot s.verbose s.quiet a he.symm

/-- A snapshot of one directory, the current one, in which there is a repository `r`. -/
def desk : FileSystem where
  entries := [([0x72], .directory [])]
  current := []

theorem hasCurrent_desk : desk.HasCurrent := ⟨desk.top, by rw [desk, follow]⟩

/-- The wish for a table in one file and the drawing in another. -/
def tableAndDrawing (p q : Path) : Layer :=
  { scanPath := some [0x72], outputFormat := some .csv, outputFile := some p, dotFile := some q }

/-- A result with one import. -/
def oneImport : Analysis :=
  (Analysis.start "r" (.folder "r" [.file "a.js"]) "r/\n  a.js\n" .epoch).setGraph ⟨[⟨"a.js", "b"⟩]⟩

theorem passes_tableAndDrawing {p q : Path} (hp : desk.HasRoomFor p) (hq : desk.HasRoomFor q) :
    (tableAndDrawing p q).settings.Passes desk := by
  refine ⟨by cbv, plainName_of_mem_default, by simp [tableAndDrawing, Layer.settings, Layer.resolve], ?_, ?_⟩
  · intro p' hp'
    obtain rfl : p = p' := Option.some.inj hp'
    exact hp
  · intro q' hq'
    obtain rfl : q = q' := Option.some.inj hq'
    exact hq

theorem hasRoomFor_desk {p : Path} (h : p.parent? = some []) : desk.HasRoomFor p := by
  intro d hd
  exact Or.inl (Option.some.inj (hd.symm.trans h))

/-- Where a result has been handed out to two files, the report is in the one and the drawing in the other
exactly if the two paths led to two files, links followed, be it that these were only to be made. -/
theorem handOut_leaves_both_iff (hcurrent : w.files.HasCurrent) (hfile : s.outputFile = some p)
    (hdot : s.dotFile = some q) (h : w.handOut s a = (w', .ok ())) :
    (w'.files.HoldsText p (s.outputFormat.render false s.verbose s.quiet a) ∧
        w'.files.HoldsText q a.graph.dot) ↔
      ∃ r r', filePlace? (w.files.arrive true p) = some r ∧
        filePlace? (w.files.arrive true q) = some r' ∧ r ≠ r' := by
  obtain ⟨w₁, h₁, h₂⟩ := deliver_of_handOut hfile hdot h
  have hreport := delivered_of_deliver hcurrent h₁
  have hdrawing := delivered_of_deliver hreport.hasCurrent h₂
  constructor
  · rintro ⟨hp, hq⟩
    obtain ⟨r, hr⟩ := hp.exists_filePlace?
    obtain ⟨r', hr'⟩ := hq.exists_filePlace?
    rw [hdrawing.filePlace?_eq, hreport.filePlace?_eq] at hr hr'
    refine ⟨r, r', hr, hr', ?_⟩
    rintro rfl
    exact not_holdsText_report hcurrent hfile hdot h hr hr' hp
  · rintro ⟨r, r', hr, hr', hne⟩
    constructor
    · -- The drawing goes elsewhere, so the report is still there.
      rw [hdrawing.holdsText_iff, if_neg, hreport.holdsText_iff, if_pos ⟨r, hr, hr⟩]
      rintro ⟨r'', hq, hp⟩
      rw [hreport.filePlace?_eq] at hq hp
      exact hne (Option.some.inj (hr.symm.trans (hp.trans (hq.symm.trans hr'))))
    · have hq : filePlace? (w₁.files.arrive true q) = some r' := by rw [hreport.filePlace?_eq, hr']
      rw [hdrawing.holdsText_iff, if_pos ⟨r', hq, hq⟩]

theorem handOut_leaves_both_apart :
    ∃ w', desk.HasCurrent ∧
      (World.mk desk "").handOut (tableAndDrawing [0x6f] [0x64]).settings oneImport = (w', .ok ()) ∧
      w'.files.HoldsText [0x6f] (OutputFormat.csv.render false false false oneImport) ∧
      w'.files.HoldsText [0x64] oneImport.graph.dot := by
  have hp : filePlace? (desk.arrive true [0x6f]) = some [[0x6f]] := by cbv
  have hq : filePlace? (desk.arrive true [0x64]) = some [[0x64]] := by cbv
  have hpasses := passes_tableAndDrawing (p := [0x6f]) (q := [0x64]) (hasRoomFor_desk (by decide))
    (hasRoomFor_desk (by decide))
  obtain ⟨w', h⟩ := exists_handOut (w := ⟨desk, ""⟩) hasCurrent_desk hpasses rfl rfl hp (by decide) hq
    (by decide) oneImport
  have hboth := handOut_leaves_both_iff hasCurrent_desk rfl rfl h
  exact ⟨w', hasCurrent_desk, h, hboth.mpr ⟨_, _, hp, hq, by decide⟩⟩

/-- Settings that name one file twice pass the check, a result is handed out to it without a failure, and the
report is gone. -/
theorem handOut_overwrites_report :
    ∃ w', Machine.build { files := desk } (tableAndDrawing [0x6f] [0x6f]) =
        .ok (tableAndDrawing [0x6f] [0x6f]).settings ∧
      (World.mk desk "").handOut (tableAndDrawing [0x6f] [0x6f]).settings oneImport = (w', .ok ()) ∧
      ¬ w'.files.HoldsText [0x6f] (OutputFormat.csv.render false false false oneImport) := by
  have hp : filePlace? (desk.arrive true [0x6f]) = some [[0x6f]] := by cbv
  have hroom : desk.HasRoomFor [0x6f] := hasRoomFor_desk (by decide)
  have hpasses := passes_tableAndDrawing hroom hroom
  obtain ⟨w', h⟩ := exists_handOut (w := ⟨desk, ""⟩) hasCurrent_desk hpasses rfl rfl hp (by decide) hp
    (by decide) oneImport
  have hbuild : Machine.build { files := desk } (tableAndDrawing [0x6f] [0x6f]) =
      .ok (tableAndDrawing [0x6f] [0x6f]).settings :=
    Machine.build_eq_ok_iff.mpr ⟨rfl, Settings.flaw?_eq_none_iff.mpr hpasses⟩
  exact ⟨w', hbuild, h, not_holdsText_report hasCurrent_desk rfl rfl h hp hp⟩

end World

end RepoSurvey
