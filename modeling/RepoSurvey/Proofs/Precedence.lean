import RepoSurvey.Settings.Load

/-!
Which source decides a setting. The settings that are loaded take each value from the command line, or
from the environment where the command line leaves it open, or from the configuration file where both
do, and from what everyone starts with where none says anything. A source that cannot be read stops the
loading with its own failure.
-/

namespace RepoSurvey

theorem bind_eq_ok_iff {ε α β : Type} {x : Except ε α} {f : α → Except ε β} {b : β} :
    x >>= f = .ok b ↔ ∃ a, x = .ok a ∧ f a = .ok b := by
  cases x with
  | error e => simp [bind, Except.bind]
  | ok a => simp [bind, Except.bind]

/-! ### The environment -/

namespace Environment

variable {env : Environment} {first : String}

/-- A variable that is not set leaves its setting open, and the text of one that is set stands for a
value, blanks around it left out. -/
abbrev Stands {α : Type} (read : String → Except String α) (raw : Option String)
    (value : Option α) : Prop :=
  Option.Rel (fun raw a => read (trimStart (trimEnd raw)) = .ok a) raw value

/-- A layer is what the variables of an environment say. -/
structure Sets (env : Environment) (first : String) (l : Layer) : Prop where
  scanPath : l.scanPath = (env.textOf? first "SCAN_PATH").map Path.ofString
  repositoryName : l.repositoryName = env.textOf? first "REPO_NAME"
  excludedNames : l.excludedNames = (env.textOf? first "EXCLUDE").map splitNames
  followLinks : Stands readFlag (env.textOf? first "FOLLOW_LINKS") l.followLinks
  parallel : Stands readFlag (env.textOf? first "PARALLEL") l.parallel
  threads : Stands readCount (env.textOf? first "THREADS") l.threads
  outputFormat : Stands OutputFormat.ofName (env.textOf? first "OUTPUT_FORMAT") l.outputFormat
  outputFile : l.outputFile = (env.textOf? first "OUTPUT_FILE").map Path.ofString
  dotFile : l.dotFile = (env.textOf? first "DOT_FILE").map Path.ofString
  quiet : l.quiet = none
  verbose : l.verbose = none
  useColors : l.useColors = none
  showProgress : l.showProgress = none

theorem parsed_eq_ok_iff {α : Type} {name : String} {read : String → Except String α}
    {value : Option α} :
    env.parsed first name read = .ok value ↔ Stands read (env.textOf? first name) value := by
  unfold parsed
  cases env.textOf? first name with
  | none => cases value <;> simp
  | some raw =>
    cases hread : read (trimStart (trimEnd raw)) with
    | error message => cases value <;> simp [hread]
    | ok a => cases value <;> simp [hread]

theorem layer_eq_ok_iff {l : Layer} : env.layer first = .ok l ↔ env.Sets first l := by
  simp only [layer, bind_eq_ok_iff, parsed_eq_ok_iff, pure, Except.pure, Except.ok.injEq]
  constructor
  · rintro ⟨followLinks, hfollow, parallel, hparallel, threads, hthreads, format, hformat, rfl⟩
    exact ⟨rfl, rfl, rfl, hfollow, hparallel, hthreads, hformat, rfl, rfl, rfl, rfl, rfl, rfl⟩
  · intro h
    refine ⟨l.followLinks, h.followLinks, l.parallel, h.parallel, l.threads, h.threads,
      l.outputFormat, h.outputFormat, ?_⟩
    cases l
    simp only [Layer.mk.injEq, true_and]
    exact ⟨h.scanPath.symm, h.repositoryName.symm, h.excludedNames.symm, h.outputFile.symm,
      h.dotFile.symm, h.quiet.symm, h.verbose.symm, h.useColors.symm, h.showProgress.symm⟩

/-- Where no variable is set, the environment leaves everything open. -/
theorem layer_eq_empty (h : env.isAvailable first = false) : env.layer first = .ok .empty := by
  have hnone : ∀ name ∈ settingNames, env.textOf? first name = none := by
    intro name hname
    simpa using List.any_eq_false.mp h name hname
  have hall : ∀ name ∈ settingNames, ∀ {α : Type} (read : String → Except String α),
      Stands read (env.textOf? first name) none := by
    intro name hname α read
    rw [hnone name hname]
    exact .none
  refine layer_eq_ok_iff.mpr
    ⟨?_, ?_, ?_, hall _ (by decide) _, hall _ (by decide) _, hall _ (by decide) _,
      hall _ (by decide) _, ?_, ?_, rfl, rfl, rfl, rfl⟩
  all_goals rw [hnone _ (by decide)]; rfl

end Environment

/-! ### Settings of several sources -/

/-- The first of some sources to set something decides. -/
abbrev firstSet {α : Type} (sources : List (Option α)) : Option α := sources.findSome? id

/-- The value of a setting if a switch is given. -/
abbrev Arguments.switched (a : Arguments) (s : Switch) (value : Bool) : Option Bool :=
  if s ∈ a.switches then some value else none

/-- Settings of which each has the value that the command line gives it, or else the environment, or
else the configuration file, or else the one that it has for everyone. -/
structure Settings.ChosenFrom (s : Settings) (a : Arguments) (env file : Layer) : Prop where
  scanPath : s.scanPath = (firstSet [a.path, env.scanPath, file.scanPath]).getD (.ofString ".")
  repositoryName : s.repositoryName = firstSet [a.name, env.repositoryName, file.repositoryName]
  /-- A list of names takes the place of a lower one as a whole, unless no name is given. -/
  excludedNames : s.excludedNames =
    (firstSet [if a.excludedNames = [] then none else some a.excludedNames, env.excludedNames,
      file.excludedNames]).getD [".git", "__pycache__", ".venv", "venv"]
  followLinks : s.followLinks =
    (firstSet [a.switched .noFollowLinks false, env.followLinks, file.followLinks]).getD true
  parallel : s.parallel =
    (firstSet [a.switched .noParallel false, env.parallel, file.parallel]).getD true
  threads : s.threads = firstSet [a.threads, env.threads, file.threads]
  outputFormat : s.outputFormat =
    (firstSet [a.output, env.outputFormat, file.outputFormat]).getD .text
  outputFile : s.outputFile = firstSet [a.outputFile, env.outputFile, file.outputFile]
  dotFile : s.dotFile = firstSet [a.dot, env.dotFile, file.dotFile]
  quiet : s.quiet = (firstSet [a.switched .quiet true, env.quiet, file.quiet]).getD false
  verbose : s.verbose = (firstSet [a.switched .verbose true, env.verbose, file.verbose]).getD false
  useColors : s.useColors =
    (firstSet [a.switched .noColors false, env.useColors, file.useColors]).getD true
  showProgress : s.showProgress =
    (firstSet [a.switched .noProgress false, env.showProgress, file.showProgress]).getD true

theorem Settings.ChosenFrom.unique {s s' : Settings} {a : Arguments} {env file : Layer}
    (h : s.ChosenFrom a env file) (h' : s'.ChosenFrom a env file) : s = s' := by
  cases s
  cases s'
  simp only [Settings.mk.injEq]
  exact ⟨h.scanPath.trans h'.scanPath.symm, h.repositoryName.trans h'.repositoryName.symm,
    h.excludedNames.trans h'.excludedNames.symm, h.followLinks.trans h'.followLinks.symm,
    h.parallel.trans h'.parallel.symm, h.threads.trans h'.threads.symm,
    h.outputFormat.trans h'.outputFormat.symm, h.outputFile.trans h'.outputFile.symm,
    h.dotFile.trans h'.dotFile.symm, h.quiet.trans h'.quiet.symm,
    h.verbose.trans h'.verbose.symm, h.useColors.trans h'.useColors.symm,
    h.showProgress.trans h'.showProgress.symm⟩

namespace Machine

/-- The layer of the configuration file: of the one that is named, which has to be there, or else of
the first one that stands in a usual place, or else an empty one. -/
def fileLayer (m : Machine) (a : Arguments) : Except Failure Layer :=
  match a.config with
  | some path =>
    if m.files.isFile path then m.files.configLayer path else .error (.configNotFound path.shown)
  | none =>
    match m.configLocations.find? m.files.isFile with
    | some path => m.files.configLayer path
    | none => .ok .empty

theorem putFile_empty (m : Machine) (path : Path) :
    m.putFile path .empty =
      if m.files.isFile path then m.files.configLayer path
      else .error (.configNotFound path.shown) := by
  unfold putFile put
  split
  · next hfile =>
    simp only [isAvailable, layer, filePath, Option.getD_some, hfile, if_true]
    cases m.files.configLayer path <;> simp [Except.map]
  · rfl

theorem putDefault_empty (m : Machine) :
    m.putDefault .empty =
      match m.configLocations.find? m.files.isFile with
      | some path => m.files.configLayer path
      | none => .ok .empty := by
  unfold putDefault defaultLayer?
  cases m.configLocations.find? m.files.isFile with
  | none => rfl
  | some path =>
    cases hlayer : m.files.configLayer path <;>
      simp [hlayer, Except.map, bind, Except.bind, pure, Except.pure]

theorem put_environment (m : Machine) (first : String) (l : Layer) :
    m.put (.environment first) l = (m.environment.layer first).map (·.overlay l) := by
  unfold put
  split
  · rfl
  · next hnone =>
    have hempty := Environment.layer_eq_empty (Bool.eq_false_iff.mpr hnone)
    simp [hempty, Except.map]

/-- The configuration file is read first, then the environment, and then the settings are checked. -/
theorem load_eq (m : Machine) (first : String) (a : Arguments) :
    m.load first a = m.fileLayer a >>= fun file => m.environment.layer first >>= fun env =>
      m.build (a.layer.overlay (env.overlay file)) := by
  have hover (x : Except Failure Layer) :
      ((x >>= fun file => m.put (.environment first) file >>= m.put (.commandLine a)) >>= m.build) =
        x >>= fun file => m.environment.layer first >>= fun env =>
          m.build (a.layer.overlay (env.overlay file)) := by
    simp only [put_environment]
    cases x with
    | error e => rfl
    | ok file => cases m.environment.layer first <;> rfl
  unfold load layered fileLayer
  cases a.config with
  | none => exact (hover (m.putDefault .empty)).trans (by rw [putDefault_empty])
  | some path => exact (hover (m.putFile path .empty)).trans (by simp only [putFile_empty])

theorem build_eq_ok_iff {m : Machine} {l : Layer} {s : Settings} :
    m.build l = .ok s ↔ s = l.settings ∧ s.flaw? m.files = none := by
  unfold build Settings.sound
  cases hflaw : l.settings.flaw? m.files with
  | some e =>
    simp only [reduceCtorEq, false_iff, not_and]
    rintro rfl hnone
    simp [hflaw] at hnone
  | none =>
    simp only [Except.ok.injEq]
    constructor
    · rintro rfl
      exact ⟨rfl, hflaw⟩
    · rintro ⟨rfl, -⟩
      rfl

end Machine

end RepoSurvey
