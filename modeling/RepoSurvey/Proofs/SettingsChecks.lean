import Mathlib
import RepoSurvey.Proofs.Precedence

/-!
The two checks of settings: that of a layer in a configuration file, and that of the settings which all
layers choose together. Whatever the first refuses is refused by the second too, but for a file to be
written whose path is empty: the second takes it for a file in the current directory.
-/

namespace RepoSurvey

/-! ### What the checks ask for -/

/-- A name that entries can be left out by. -/
structure PlainName (n : String) : Prop where
  ne_empty : n ≠ ""
  undivided : ∀ c ∈ n.toList, isLocationSeparator c = false

/-- What the check of a configuration file asks of a layer. -/
structure Layer.Passes (l : Layer) : Prop where
  scanPath : l.scanPath ≠ some []
  excludedNames : ∀ n ∈ l.excludedNames.getD [], PlainName n
  threads : l.threads ≠ some 0
  outputFile : l.outputFile ≠ some []
  dotFile : l.dotFile ≠ some []

/-- The directory that is to hold the file at a path is there, or is the current one. -/
def FileSystem.HasRoomFor (fs : FileSystem) (p : Path) : Prop :=
  ∀ d, p.parent? = some d → d = [] ∨ fs.isDirectory d = true

/-- What the check of settings asks of them. -/
structure Settings.Passes (fs : FileSystem) (s : Settings) : Prop where
  scanPath : fs.leads s.scanPath = true
  excludedNames : ∀ n ∈ s.excludedNames, PlainName n
  threads : s.threads ≠ some 0
  outputFile : ∀ p ∈ s.outputFile, fs.HasRoomFor p
  dotFile : ∀ p ∈ s.dotFile, fs.HasRoomFor p

/-- A layer gives an empty path to a file that is to be written. -/
def Layer.NamesEmptyFile (l : Layer) : Prop := l.outputFile = some [] ∨ l.dotFile = some []

/-! ### The checks -/

/-- Both checks look at a name in the same way, whatever they say of it. -/
theorem nameFlaw_eq_none_iff {α : Type} {a b : α} {n : String} :
    (if n = "" then some a else if n.toList.any isLocationSeparator then some b else none) = none ↔
      PlainName n := by
  constructor
  · intro h
    split at h
    · simp at h
    next hne =>
    have hany : n.toList.any isLocationSeparator = false := by
      cases hany : n.toList.any isLocationSeparator with
      | false => rfl
      | true => simp [hany] at h
    exact ⟨hne, fun c hc => Bool.eq_false_iff.mpr (List.any_eq_false.mp hany c hc)⟩
  · rintro ⟨hne, hundivided⟩
    have hany : n.toList.any isLocationSeparator = false :=
      List.any_eq_false.mpr fun c hc => Bool.eq_false_iff.mp (hundivided c hc)
    rw [if_neg hne, hany]
    rfl

theorem Layer.flaw?_eq_none_iff {l : Layer} {path : String} : l.flaw? path = none ↔ l.Passes := by
  simp only [flaw?, Option.orElse_eq_orElse, Option.orElse_eq_or, Option.or_eq_none_iff,
    ite_eq_right_iff, reduceCtorEq, imp_false, List.findSome?_eq_none_iff, nameFlaw_eq_none_iff]
  constructor
  · rintro ⟨hscan, hnames, hthreads, houtput, hdot⟩
    exact ⟨hscan, hnames, hthreads, houtput, hdot⟩
  · intro h
    exact ⟨h.scanPath, h.excludedNames, h.threads, h.outputFile, h.dotFile⟩

theorem FileSystem.outputFlaw?_eq_none_iff {fs : FileSystem} {p : Path} :
    fs.outputFlaw? p = none ↔ fs.HasRoomFor p := by
  unfold outputFlaw? HasRoomFor
  cases p.parent? with
  | none => simp
  | some d => simp only [ite_eq_left_iff, reduceCtorEq, imp_false, not_not, Option.some.injEq,
      forall_eq']

theorem Settings.flaw?_eq_none_iff {fs : FileSystem} {s : Settings} :
    s.flaw? fs = none ↔ s.Passes fs := by
  have hfile (file : Option Path) :
      file.bind fs.outputFlaw? = none ↔ ∀ p ∈ file, fs.HasRoomFor p := by
    simp only [Option.bind_eq_none_iff, FileSystem.outputFlaw?_eq_none_iff, Option.mem_def]
  simp only [flaw?, Option.orElse_eq_orElse, Option.orElse_eq_or, Option.or_eq_none_iff,
    ite_eq_left_iff, ite_eq_right_iff, reduceCtorEq, imp_false, not_not,
    List.findSome?_eq_none_iff, excludedNameFlaw?, nameFlaw_eq_none_iff, hfile]
  constructor
  · rintro ⟨hscan, hnames, hthreads, houtput, hdot⟩
    exact ⟨hscan, hnames, hthreads, houtput, hdot⟩
  · intro h
    exact ⟨h.scanPath, h.excludedNames, h.threads, h.outputFile, h.dotFile⟩

/-- The names that everyone starts with pass. -/
theorem plainName_of_mem_default : ∀ n ∈ ({} : Settings).excludedNames, PlainName n := by
  have hall : ∀ n ∈ ({} : Settings).excludedNames,
      n ≠ "" ∧ ∀ c ∈ n.toList, isLocationSeparator c = false := by
    simp [isLocationSeparator]
  exact fun n hn => ⟨(hall n hn).1, (hall n hn).2⟩

/-! ### One check and the other -/

theorem FileSystem.leads_nil (fs : FileSystem) : fs.leads [] = false := by
  simp [leads, stat, arrive, entryOf, Except.toBool]

/-- An empty path has no directory above it, so nothing is asked of one. -/
theorem FileSystem.hasRoomFor_nil (fs : FileSystem) : fs.HasRoomFor [] := by
  intro d hd
  have hnone : Path.parent? [] = none := by decide
  simp [hnone] at hd

/-- Settings that pass come from a layer that passes, unless it names an empty file. -/
theorem Layer.Passes.of_settings {fs : FileSystem} {l : Layer} (h : l.settings.Passes fs)
    (hfiles : ¬ l.NamesEmptyFile) : l.Passes := by
  obtain ⟨houtput, hdot⟩ := not_or.mp hfiles
  refine ⟨fun hscan => ?_, fun n hn => ?_, fun hthreads => ?_, houtput, hdot⟩
  · have hleads := h.scanPath
    rw [settings, resolve, hscan, Option.getD_some, fs.leads_nil] at hleads
    exact Bool.false_ne_true hleads
  · refine h.excludedNames n ?_
    cases hnames : l.excludedNames with
    | none => simp [hnames] at hn
    | some names => simpa [settings, resolve, hnames] using hn
  · exact h.threads (by simp [settings, resolve, hthreads])

theorem Settings.settings_asLayer (s : Settings) : s.asLayer.settings = s := by
  cases s
  simp [asLayer, Layer.settings, Layer.resolve]

/-- If the settings of a layer pass, then the layer passes exactly if it names no empty file. -/
theorem Layer.passes_iff_of_settings {fs : FileSystem} {l : Layer} (h : l.settings.Passes fs) :
    l.Passes ↔ ¬ l.NamesEmptyFile := by
  constructor
  · rintro hpasses (houtput | hdot)
    · exact hpasses.outputFile houtput
    · exact hpasses.dotFile hdot
  · exact .of_settings h

/-- A layer that the check of a configuration file refuses has settings that are refused too, except
exactly where the layer names an empty file and nothing else is wrong with its settings. So settings that
are loaded, whatever source they come from, would be refused in a configuration file exactly if they name
an empty file. -/
theorem Layer.refusals_agree_iff (l : Layer) (path : String) (fs : FileSystem) :
    ((l.flaw? path ≠ none → l.settings.flaw? fs ≠ none) ↔
      ¬ (l.NamesEmptyFile ∧ l.settings.Passes fs)) ∧
    ∀ (m : Machine) (first : String) (a : Arguments) (s : Settings), m.load first a = .ok s →
      (s.asLayer.flaw? path ≠ none ↔ s.asLayer.NamesEmptyFile) := by
  constructor
  · rw [Ne, Ne, flaw?_eq_none_iff, Settings.flaw?_eq_none_iff, not_imp_not]
    constructor
    · rintro hboth ⟨hempty, hpasses⟩
      exact (passes_iff_of_settings hpasses).mp (hboth hpasses) hempty
    · intro hnot hpasses
      exact .of_settings hpasses fun hempty => hnot ⟨hempty, hpasses⟩
  · intro m first a s hload
    rw [Machine.load_eq] at hload
    obtain ⟨file, -, env, -, hbuild⟩ :
        ∃ file, m.fileLayer a = .ok file ∧ ∃ env, m.environment.layer first = .ok env ∧
          m.build (a.layer.overlay (env.overlay file)) = .ok s := by
      simpa only [bind_eq_ok_iff] using hload
    have hpasses := Settings.flaw?_eq_none_iff.mp (Machine.build_eq_ok_iff.mp hbuild).2
    rw [← s.settings_asLayer] at hpasses
    rw [Ne, flaw?_eq_none_iff, passes_iff_of_settings hpasses, not_not]

/-! ### An empty file -/

section

def bareFiles : FileSystem where
  entries := []
  current := []

/-- A layer with an empty path for the file that takes the result. -/
def emptyOutput : Layer := { outputFile := some [] }

/-- A machine without files on which a variable gives the file that takes the result an empty path. -/
def emptyOutputMachine : Machine where
  files := bareFiles
  environment := [("REPOSCOPE_OUTPUT_FILE", "")]

theorem passes_emptyOutput : emptyOutput.settings.Passes bareFiles := by
  refine ⟨by cbv, plainName_of_mem_default, by decide, fun p hp => ?_, fun p hp => ?_⟩
  · obtain rfl : [] = p := Option.some.inj hp
    exact bareFiles.hasRoomFor_nil
  · exact absurd hp (by simp [emptyOutput, Layer.settings, Layer.resolve])

theorem load_emptyOutputMachine :
    emptyOutputMachine.load environmentWord {} = .ok emptyOutput.settings := by
  have hfile : emptyOutputMachine.fileLayer {} = .ok .empty := by cbv
  have henv : emptyOutputMachine.environment.layer environmentWord = .ok emptyOutput := by cbv
  have hbuild : emptyOutputMachine.build emptyOutput = .ok emptyOutput.settings :=
    Machine.build_eq_ok_iff.mpr ⟨rfl, Settings.flaw?_eq_none_iff.mpr passes_emptyOutput⟩
  rw [Machine.load_eq, hfile, henv]
  exact hbuild

/-- An empty path is refused in a configuration file, and it is accepted in settings and from the
environment. -/
theorem emptyOutput_accepted :
    emptyOutput.flaw? "c.toml" ≠ none ∧ emptyOutput.settings.flaw? bareFiles = none ∧
      emptyOutputMachine.load environmentWord {} = .ok emptyOutput.settings := by
  refine ⟨fun hnone => ?_, ?_, load_emptyOutputMachine⟩
  · exact (Layer.flaw?_eq_none_iff.mp hnone).outputFile rfl
  · exact Settings.flaw?_eq_none_iff.mpr passes_emptyOutput

theorem refusals_agree_iff_emptyOutput :
    ((emptyOutput.flaw? "c.toml" ≠ none → emptyOutput.settings.flaw? bareFiles ≠ none) ↔
      ¬ (emptyOutput.NamesEmptyFile ∧ emptyOutput.settings.Passes bareFiles)) ∧
    emptyOutputMachine.load environmentWord {} = .ok emptyOutput.settings ∧
    (emptyOutput.settings.asLayer.flaw? "c.toml" ≠ none ↔
      emptyOutput.settings.asLayer.NamesEmptyFile) := by
  obtain ⟨hchecks, hload⟩ := emptyOutput.refusals_agree_iff "c.toml" bareFiles
  exact ⟨hchecks, load_emptyOutputMachine, hload _ _ _ _ load_emptyOutputMachine⟩

end

end RepoSurvey
