import RepoSurvey.Proofs.Precedence
import RepoSurvey.Proofs.SettingsChecks

/-!
The ranks that sources of settings declare, and which source decides. Of two sources that set a setting,
the one that declares the higher rank is to win. That is so unless a configuration file competes with the
environment: the file declares the higher rank, and the environment is put over it.
-/

namespace RepoSurvey

/-! ### Single settings -/

/-- The settings, each with the type of its values. -/
inductive Setting : Type → Type where
  | scanPath : Setting Path
  | repositoryName : Setting String
  | excludedNames : Setting (List String)
  | followLinks : Setting Bool
  | parallel : Setting Bool
  | threads : Setting Nat
  | outputFormat : Setting OutputFormat
  | outputFile : Setting Path
  | dotFile : Setting Path
  | quiet : Setting Bool
  | verbose : Setting Bool
  | useColors : Setting Bool
  | showProgress : Setting Bool

namespace Setting

variable {α : Type}

/-- The value that a layer gives to a setting. -/
def set? : Setting α → Layer → Option α
  | scanPath, l => l.scanPath
  | repositoryName, l => l.repositoryName
  | excludedNames, l => l.excludedNames
  | followLinks, l => l.followLinks
  | parallel, l => l.parallel
  | threads, l => l.threads
  | outputFormat, l => l.outputFormat
  | outputFile, l => l.outputFile
  | dotFile, l => l.dotFile
  | quiet, l => l.quiet
  | verbose, l => l.verbose
  | useColors, l => l.useColors
  | showProgress, l => l.showProgress

/-- The value that a setting has in the end. Some settings can be without one. -/
def value? : Setting α → Settings → Option α
  | scanPath, s => some s.scanPath
  | repositoryName, s => s.repositoryName
  | excludedNames, s => some s.excludedNames
  | followLinks, s => some s.followLinks
  | parallel, s => some s.parallel
  | threads, s => s.threads
  | outputFormat, s => some s.outputFormat
  | outputFile, s => s.outputFile
  | dotFile, s => s.dotFile
  | quiet, s => some s.quiet
  | verbose, s => some s.verbose
  | useColors, s => some s.useColors
  | showProgress, s => some s.showProgress

theorem set?_overlay (f : Setting α) (upper lower : Layer) :
    f.set? (upper.overlay lower) = (f.set? upper).or (f.set? lower) := by
  cases f <;> rfl

theorem value?_settings {f : Setting α} {l : Layer} {v : α} (h : f.set? l = some v) :
    f.value? l.settings = some v := by
  cases f <;> simp_all [set?, value?, Layer.settings, Layer.resolve]

end Setting

/-! ### Sources -/

namespace Machine

variable {m : Machine} {first : String} {a : Arguments} {α : Type}

/-- The sources that are consulted: the configuration file, if there is one, the environment and the
command line. -/
def sources (m : Machine) (first : String) (a : Arguments) : List SettingsSource :=
  (a.config.or (m.configLocations.find? m.files.isFile)).toList.map (fun path => .file (some path)) ++
    [.environment first, .commandLine a]

/-- A source gives a value to a setting. -/
def Sets (m : Machine) (source : SettingsSource) (f : Setting α) (v : α) : Prop :=
  ∃ l, m.layer source = .ok l ∧ f.set? l = some v

/-- Two sources set a setting. One of them declares a higher rank than the other, and no source of a
still higher rank sets it. -/
structure Contest (m : Machine) (first : String) (a : Arguments) (f : Setting α)
    (high low : SettingsSource) (v w : α) : Prop where
  high_mem : high ∈ m.sources first a
  low_mem : low ∈ m.sources first a
  lower : low.priority < high.priority
  high_sets : m.Sets high f v
  low_sets : m.Sets low f w
  unopposed : ∀ source ∈ m.sources first a, high.priority < source.priority → ∀ u, ¬ m.Sets source f u

theorem mem_sources {source : SettingsSource} (h : source ∈ m.sources first a) :
    (∃ path, source = .file (some path) ∧ m.layer source = m.fileLayer a) ∨
      source = .environment first ∨ source = .commandLine a := by
  simp only [sources, List.mem_append, List.mem_map, Option.mem_toList,
    List.mem_cons, List.not_mem_nil, or_false] at h
  refine h.imp_left ?_
  rintro ⟨path, hpath, rfl⟩
  refine ⟨path, rfl, ?_⟩
  unfold fileLayer layer filePath
  cases hconfig : a.config with
  | some named =>
    obtain rfl : named = path := by simpa [hconfig] using hpath
    rfl
  | none =>
    have hfind : m.configLocations.find? m.files.isFile = some path := by
      simpa [hconfig] using hpath
    have hfile : m.files.isFile path = true := List.find?_some hfind
    simp [hfind, hfile]

theorem environment_mem_sources : .environment first ∈ m.sources first a := by
  simp [sources]

theorem commandLine_mem_sources : .commandLine a ∈ m.sources first a := by
  simp [sources]

theorem sets_commandLine_iff {f : Setting α} {v : α} :
    m.Sets (.commandLine a) f v ↔ f.set? a.layer = some v := by
  simp [Sets, layer]

/-- A setting that is set by some source has the value of the last of them. -/
theorem value?_of_load {s : Settings} (h : m.load first a = .ok s) (f : Setting α) :
    ∃ file env, m.fileLayer a = .ok file ∧ m.environment.layer first = .ok env ∧
      ∀ v, (f.set? a.layer).or ((f.set? env).or (f.set? file)) = some v → f.value? s = some v := by
  rw [load_eq] at h
  obtain ⟨file, hfile, env, henv, hbuild⟩ :
      ∃ file, m.fileLayer a = .ok file ∧ ∃ env, m.environment.layer first = .ok env ∧
        m.build (a.layer.overlay (env.overlay file)) = .ok s := by
    simpa only [bind_eq_ok_iff] using h
  obtain ⟨rfl, -⟩ := build_eq_ok_iff.mp hbuild
  refine ⟨file, env, hfile, henv, fun v hv => Setting.value?_settings ?_⟩
  rw [Setting.set?_overlay, Setting.set?_overlay, hv]

/-- Of two sources that set a setting, the one that declares the higher rank decides, if no source of a
still higher rank sets it, except exactly where a configuration file and the environment give it different
values. Between these two the environment decides. -/
theorem contest_decided_iff {f : Setting α} {high low : SettingsSource} {v w : α} {s : Settings}
    (hload : m.load first a = .ok s) (h : m.Contest first a f high low v w) :
    (f.value? s = some v ↔
      ¬ ((∃ path, high = .file path) ∧ low = .environment first ∧ v ≠ w)) ∧
    ((∃ path, high = .file path) → f.value? s = some w) := by
  obtain ⟨file, env, hfile, henv, hvalue⟩ := value?_of_load hload f
  obtain ⟨l, hl, hv⟩ := h.high_sets
  obtain ⟨l', hl', hw⟩ := h.low_sets
  rcases mem_sources h.high_mem with ⟨path, rfl, hsource⟩ | rfl | rfl
  · -- Only the environment ranks below a file, and the command line, which ranks above it, is silent.
    obtain rfl : low = .environment first := by
      rcases mem_sources h.low_mem with ⟨path', rfl, -⟩ | rfl | rfl
      · exact absurd h.lower (Nat.lt_irrefl _)
      · rfl
      · exact absurd h.lower (by simp [SettingsSource.priority])
    have hcommand : f.set? a.layer = none := by
      refine Option.eq_none_iff_forall_ne_some.mpr fun u hu => ?_
      exact h.unopposed _ commandLine_mem_sources (by simp [SettingsSource.priority]) u
        (sets_commandLine_iff.mpr hu)
    obtain rfl : env = l' := Except.ok.inj (henv.symm.trans hl')
    have hheld : f.value? s = some w := hvalue w (by rw [hcommand, hw]; rfl)
    refine ⟨?_, fun _ => hheld⟩
    rw [hheld, Option.some.injEq]
    constructor
    · rintro rfl ⟨-, -, hne⟩
      exact hne rfl
    · intro hnot
      exact Classical.byContradiction fun hne => hnot ⟨⟨_, rfl⟩, rfl, Ne.symm hne⟩
  · rcases mem_sources h.low_mem with ⟨path', rfl, -⟩ | rfl | rfl
    · exact absurd h.lower (by simp [SettingsSource.priority])
    · exact absurd h.lower (Nat.lt_irrefl _)
    · exact absurd h.lower (by simp [SettingsSource.priority])
  · have hset : f.set? a.layer = some v := sets_commandLine_iff.mp ⟨l, hl, hv⟩
    have hheld : f.value? s = some v := hvalue v (by rw [hset]; rfl)
    exact ⟨by simp [hheld], by simp⟩

section

/-- A machine with a configuration file that asks for eight workers and a variable that asks for two. -/
def contestedMachine : Machine where
  files := { entries := [([0x63], .file (.ok (Utf8.encode "threads = 8\n")))], current := [] }
  environment := [("REPOSCOPE_THREADS", "2")]

/-- A command line that names the configuration file and nothing else. -/
def onlyConfig : Arguments := { config := some [0x63] }

theorem fileLayer_contestedMachine :
    contestedMachine.fileLayer onlyConfig = .ok { threads := some 8 } := by
  have hfile : contestedMachine.files.isFile [0x63] = true := by cbv
  have htext : contestedMachine.files.configText [0x63] = .ok "threads = 8\n" := by cbv
  have hlayer : (Layer.ofText "threads = 8\n" (Path.shown [0x63])).toOption =
      some { threads := some 8 } := by
    decide +kernel
  simp only [fileLayer, onlyConfig, hfile, if_true, FileSystem.configLayer, htext]
  cases hread : Layer.ofText "threads = 8\n" (Path.shown [0x63]) with
  | error e => simp [hread, Except.toOption] at hlayer
  | ok l =>
    rw [hread] at hlayer
    exact hread.trans (congrArg Except.ok (Option.some.inj hlayer))

theorem environment_contestedMachine :
    contestedMachine.environment.layer environmentWord = .ok { threads := some 2 } := by
  have hthreads : Environment.Stands readCount
      (contestedMachine.environment.textOf? environmentWord "THREADS") (some 2) := by
    have htext : contestedMachine.environment.textOf? environmentWord "THREADS" = some "2" := by cbv
    rw [htext]
    exact .some rfl
  have hall : ∀ name ∈ Environment.settingNames, name ≠ "THREADS" →
      none = contestedMachine.environment.textOf? environmentWord name := by
    decide +kernel
  have hunset {name : String} (hname : name ∈ Environment.settingNames ∧ name ≠ "THREADS") :
      none = contestedMachine.environment.textOf? environmentWord name :=
    hall name hname.1 hname.2
  have hopen {β : Type} {read : String → Except String β} {name : String}
      (hname : name ∈ Environment.settingNames ∧ name ≠ "THREADS") :
      Environment.Stands read (contestedMachine.environment.textOf? environmentWord name) none :=
    hunset hname ▸ .none
  have hpath {name : String} (hname : name ∈ Environment.settingNames ∧ name ≠ "THREADS") :
      none = (contestedMachine.environment.textOf? environmentWord name).map Path.ofString :=
    congrArg (Option.map Path.ofString) (hunset hname)
  exact Environment.layer_eq_ok_iff.mpr ⟨hpath (by decide), hunset (by decide),
    congrArg (Option.map splitNames) (hunset (by decide)), hopen (by decide), hopen (by decide),
    hthreads, hopen (by decide), hpath (by decide), hpath (by decide), rfl, rfl, rfl, rfl⟩

theorem file_mem_sources_contestedMachine :
    .file (some [0x63]) ∈ contestedMachine.sources environmentWord onlyConfig := by
  simp [sources, onlyConfig]

theorem contest_contestedMachine :
    contestedMachine.Contest environmentWord onlyConfig .threads (.file (some [0x63]))
      (.environment environmentWord) 8 2 where
  high_mem := file_mem_sources_contestedMachine
  low_mem := environment_mem_sources
  lower := by decide
  high_sets := by
    rcases mem_sources file_mem_sources_contestedMachine with ⟨path, -, hlayer⟩ | h | h
    · exact ⟨_, hlayer.trans fileLayer_contestedMachine, rfl⟩
    · simp at h
    · simp at h
  low_sets := ⟨_, environment_contestedMachine, rfl⟩
  unopposed := by
    intro source hsource hrank u hsets
    rcases mem_sources hsource with ⟨path, rfl, -⟩ | rfl | rfl
    · exact Nat.lt_irrefl _ hrank
    · exact absurd hrank (by decide)
    · exact absurd (sets_commandLine_iff.mp hsets) (by simp [onlyConfig, Arguments.layer, Setting.set?])

theorem load_contestedMachine :
    contestedMachine.load environmentWord onlyConfig = .ok { threads := some 2 } := by
  have hpasses : Settings.Passes contestedMachine.files { threads := some 2 } :=
    ⟨by cbv, plainName_of_mem_default, by decide, by simp, by simp⟩
  rw [load_eq, fileLayer_contestedMachine, environment_contestedMachine]
  exact build_eq_ok_iff.mpr ⟨rfl, Settings.flaw?_eq_none_iff.mpr hpasses⟩

/-- The file declares the higher rank and asks for eight workers, and two are taken. -/
theorem contest_lost :
    contestedMachine.Contest environmentWord onlyConfig .threads (.file (some [0x63]))
      (.environment environmentWord) 8 2 ∧
    contestedMachine.load environmentWord onlyConfig = .ok { threads := some 2 } ∧
    Setting.threads.value? { threads := some 2 } ≠ some 8 :=
  ⟨contest_contestedMachine, load_contestedMachine, by decide⟩

theorem contest_decided_iff_contestedMachine :
    contestedMachine.load environmentWord onlyConfig = .ok { threads := some 2 } ∧
    contestedMachine.Contest environmentWord onlyConfig .threads (.file (some [0x63]))
      (.environment environmentWord) 8 2 ∧
    (Setting.threads.value? { threads := some 2 } = some 8 ↔
      ¬ ((∃ path, SettingsSource.file (some [0x63]) = .file path) ∧
        SettingsSource.environment environmentWord = .environment environmentWord ∧ 8 ≠ 2)) ∧
    ((∃ path, SettingsSource.file (some [0x63]) = .file path) →
      Setting.threads.value? { threads := some 2 } = some 2) :=
  ⟨load_contestedMachine, contest_contestedMachine,
    contest_decided_iff load_contestedMachine contest_contestedMachine⟩

end

end Machine

end RepoSurvey
