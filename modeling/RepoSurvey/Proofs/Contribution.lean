import RepoSurvey.Proofs.FileExtensions
import RepoSurvey.Proofs.Isolation
import RepoSurvey.Proofs.WalkOrder

/-!
What each candidate adds to what a walk brings home. A candidate ends in one of three ways, and the files,
the batches of edges and the failures of a walk are what its candidates add, one after the other.
-/

namespace RepoSurvey

/-- Only of Python files is it ever not known what they import. -/
theorem Language.eq_python_of_imports_error {l : Language} {text : String} {e : Python.SyntaxError}
    (h : l.strategy.imports text = .error e) : l = .python := by
  cases l with
  | python => rfl
  | _ => cases h

namespace Candidate

/-- The report on a candidate with a text and the modules that it imports. -/
def report (c : Candidate) (narrator : Narrator) (text : String) (imports : List String) :
    FileReport where
  path := c.relative
  language := c.language
  imports
  explanation := narrator.explain text c.relative
  security := narrator.security text c.relative c.language
  tests := narrator.tests text c.relative c.language

end Candidate

/-- What one candidate adds to what a walk brings home. -/
structure Contribution where
  files : List FileReport
  batches : List (List Edge)
  failures : List (String × Failure)

/-- The three ways in which a candidate can end. What is read is reported, and the report has one edge for
each module that is imported. What is read but is no Python is reported all the same, without imports, and
noted as a failure. What cannot be read is noted as a failure and not reported. -/
inductive Candidate.Adds (c : Candidate) (narrator : Narrator) (fs : FileSystem) :
    Contribution → Prop where
  | told {bytes : List UInt8} {imports : List String} (hread : fs.read c.path = .ok bytes)
      (himports : c.language.strategy.imports (Utf8.decodeLossy bytes) = .ok imports) :
      Adds c narrator fs
        { files := [c.report narrator (Utf8.decodeLossy bytes) imports]
          batches := [imports.map fun m => ⟨c.relative, m⟩]
          failures := [] }
  | untold {bytes : List UInt8} {e : Python.SyntaxError} (hread : fs.read c.path = .ok bytes)
      (himports : c.language.strategy.imports (Utf8.decodeLossy bytes) = .error e)
      (hpython : c.language = .python) :
      Adds c narrator fs
        { files := [c.report narrator (Utf8.decodeLossy bytes) []]
          batches := [[]]
          failures := [(c.relative, .parse c.relative e.message)] }
  | unread {e : IoError} {failure : Failure} (hread : fs.read c.path = .error e)
      (hfailure : failure = .permissionDenied c.relative ∨
        failure = .fileRead c.relative e.message) :
      Adds c narrator fs { files := [], batches := [], failures := [(c.relative, failure)] }

/-- What a candidate adds for which some outcome is known. -/
def Outcome.contribution (o : Outcome) (c : Candidate) : Contribution where
  files := o.report?.toList
  batches := o.edges?.toList
  failures := (o.failure?.map (c.relative, ·)).toList

/-- Each candidate ends in one of the three ways. -/
theorem Candidate.adds_contribution (c : Candidate) (narrator : Narrator) (fs : FileSystem) :
    c.Adds narrator fs ((c.process narrator fs).contribution c) := by
  unfold process
  cases hread : fs.read c.path with
  | error e =>
    refine .unread hread ?_
    unfold Failure.ofFile
    split
    · exact Or.inl rfl
    · exact Or.inr rfl
  | ok bytes =>
    dsimp only
    unfold examine
    cases himports : c.language.strategy.imports (Utf8.decodeLossy bytes) with
    | ok imports => exact .told hread himports
    | error e => exact .untold hread himports (Language.eq_python_of_imports_error himports)

namespace Candidate.Adds

variable {c : Candidate} {narrator : Narrator} {fs : FileSystem} {a : Contribution} {f : FileReport}

/-- The report on a candidate bears its path and its language. -/
theorem path_and_language (h : c.Adds narrator fs a) (hf : f ∈ a.files) :
    f.path = c.relative ∧ f.language = c.language := by
  cases h with
  | told hread himports =>
    obtain rfl := List.mem_singleton.mp hf
    exact ⟨rfl, rfl⟩
  | untold hread himports hpython =>
    obtain rfl := List.mem_singleton.mp hf
    exact ⟨rfl, rfl⟩
  | unread hread hfailure => cases hf

/-- Without a way to read imports from a file there are none. -/
theorem imports_eq_nil (h : c.Adds narrator fs a) (hf : f ∈ a.files)
    (hnone : f.language.strategy = .none) : f.imports = [] := by
  have hlanguage := (h.path_and_language hf).2
  cases h with
  | told hread himports =>
    obtain rfl := List.mem_singleton.mp hf
    rw [← hlanguage, hnone] at himports
    exact (Except.ok.inj himports).symm
  | untold hread himports hpython =>
    obtain rfl := List.mem_singleton.mp hf
    rfl
  | unread hread hfailure => cases hf

end Candidate.Adds

/-- What a walk has brought home that made some discoveries, candidate by candidate. -/
structure WalkOutcome.Accounts (w : WalkOutcome) (fs : FileSystem) (narrator : Narrator) (root : Path)
    (ds : List Discovery) : Prop where
  added : ∃ added : List Contribution,
    List.Forall₂ (fun c a => c.Adds narrator fs a) (candidatesOf root ds) added ∧
      w.files = added.flatMap Contribution.files ∧
      w.batches = added.flatMap Contribution.batches ∧
      w.failures = ds.filterMap (Discovery.failure? root) ++ added.flatMap Contribution.failures
  length_batches : w.batches.length = w.files.length
  batch : ∀ i (hi : i < w.files.length),
    w.batches[i]? = some (w.files[i].imports.map fun m => ⟨w.files[i].path, m⟩)
  language : ∀ f ∈ w.files, f.language ≠ .code ∧
    ∃ c ∈ candidatesOf root ds, f.path = c.relative ∧ f.language = .ofExtension c.path.extension
  imports_eq_nil : ∀ f ∈ w.files, f.language.strategy = .none → f.imports = []
  assemble : Graph.assemble w.batches = ⟨w.edges⟩
  edges : w.edges = w.files.flatMap fun f => Graph.edgesFor f.path f.imports
  source : ∀ e ∈ w.edges, ∃ f ∈ w.files, f.path = e.source

/-- The language of a candidate is that of its extension, which is that of a source file. -/
theorem language_of_mem_candidatesOf {root : Path} {ds : List Discovery} {c : Candidate}
    (h : c ∈ candidatesOf root ds) :
    c.language = .ofExtension c.path.extension ∧ c.language ≠ .code := by
  obtain ⟨d, -, hd⟩ := List.mem_filterMap.mp h
  cases d with
  | file path =>
    rw [Discovery.candidate?] at hd
    split at hd
    · next hsource =>
      obtain rfl := Option.some.inj hd
      exact ⟨rfl, Language.isSourceExtension_iff.mp hsource⟩
    · cases hd
  | broken path message => cases hd

namespace WalkOutcome.MadeOf

variable {w : WalkOutcome} {unvisited : List (String × Failure)} {trace : List (Candidate × Outcome)}

theorem edges_eq (h : w.MadeOf unvisited trace) :
    w.edges = w.files.flatMap fun f => Graph.edgesFor f.path f.imports := by
  rw [WalkOutcome.edges, h.batches_eq, List.flatMap_def]

/-- Every edge comes from a file that is reported. -/
theorem exists_file_of_mem_edges (h : w.MadeOf unvisited trace) {e : Edge} (he : e ∈ w.edges) :
    ∃ f ∈ w.files, f.path = e.source := by
  rw [h.edges_eq] at he
  obtain ⟨f, hf, hef⟩ := List.mem_flatMap.mp he
  obtain ⟨m, -, rfl⟩ := List.mem_map.mp hef
  exact ⟨f, hf, rfl⟩

/-- Every report bears the path of a candidate. -/
theorem exists_candidate_of_mem_files (h : w.MadeOf unvisited trace) {f : FileReport}
    (hf : f ∈ w.files) : ∃ c ∈ trace.map Prod.fst, f.path = c.relative := by
  rw [h.files] at hf
  obtain ⟨⟨c, o⟩, hc, hr⟩ := List.mem_filterMap.mp hf
  exact ⟨c, List.mem_map_of_mem hc, h.paths c o f hc hr⟩

/-- Every failure concerns something that could not be visited, or a candidate. -/
theorem mem_unvisited_or_exists_candidate (h : w.MadeOf unvisited trace) {f : String × Failure}
    (hf : f ∈ w.failures) : f ∈ unvisited ∨ ∃ c ∈ trace.map Prod.fst, f.1 = c.relative := by
  rw [h.failures] at hf
  rcases List.mem_append.mp hf with hf | hf
  · exact Or.inl hf
  · obtain ⟨⟨c, o⟩, hc, ho⟩ := List.mem_filterMap.mp hf
    obtain ⟨failure, -, rfl⟩ := Option.map_eq_some_iff.mp ho
    exact Or.inr ⟨c, List.mem_map_of_mem hc, rfl⟩

end WalkOutcome.MadeOf

namespace FileSystem

variable {fs : FileSystem} {scope : Scope} {narrator : Narrator} {mode : Mode} {root : Path}

/-- What is collected is what the candidates add, in their order. -/
theorem accounts_collect (fs : FileSystem) (narrator : Narrator) (root : Path)
    (ds : List Discovery) :
    (WalkOutcome.collect root ds (fs.outcomesOf narrator root ds)).Accounts fs narrator root ds := by
  have hmade := fs.collect_madeOf narrator root ds
  -- From here on only the trace of the walk matters, not how it was collected.
  generalize WalkOutcome.collect root ds (fs.outcomesOf narrator root ds) = w at hmade
  have hadds (c : Candidate) : c.Adds narrator fs ((c.process narrator fs).contribution c) :=
    c.adds_contribution narrator fs
  have hfiles : w.files = (candidatesOf root ds).flatMap fun c =>
      ((c.process narrator fs).contribution c).files := by
    rw [hmade.files, traceOf, List.filterMap_map,
      List.filterMap_eq_flatMap_toList]
    rfl
  have hfile : ∀ f ∈ w.files, ∃ c ∈ candidatesOf root ds,
      f ∈ ((c.process narrator fs).contribution c).files := by
    intro f hf
    rw [hfiles] at hf
    exact List.mem_flatMap.mp hf
  refine ⟨⟨(candidatesOf root ds).map fun c => (c.process narrator fs).contribution c,
    ?_, ?_, ?_, ?_⟩, ?_, ?_, ?_, ?_, rfl, hmade.edges_eq, ?_⟩
  · exact List.forall₂_map_right_iff.mpr (List.forall₂_same.mpr fun c _ => hadds c)
  · rw [List.flatMap_map, hfiles]
  · rw [List.flatMap_map, hmade.batches, traceOf, List.filterMap_map,
      List.filterMap_eq_flatMap_toList]
    rfl
  · rw [List.flatMap_map, hmade.failures, traceOf, List.filterMap_map]
    exact congrArg (_ ++ ·) (List.filterMap_eq_flatMap_toList _ _)
  · rw [hmade.batches_eq, List.length_map]
  · intro i hi
    rw [hmade.batches_eq, List.getElem?_map, List.getElem?_eq_getElem hi]
    rfl
  · intro f hf
    obtain ⟨c, hc, hfc⟩ := hfile f hf
    obtain ⟨hpath, hlanguage⟩ := (hadds c).path_and_language hfc
    obtain ⟨hext, hcode⟩ := language_of_mem_candidatesOf hc
    exact ⟨hlanguage ▸ hcode, c, hc, hpath, hlanguage.trans hext⟩
  · intro f hf hnone
    obtain ⟨c, -, hfc⟩ := hfile f hf
    exact (hadds c).imports_eq_nil hfc hnone
  · intro e he
    exact hmade.exists_file_of_mem_edges he

/-- Whatever the mode and the schedule of its workers, a walk brings home what its candidates add: each ends
in exactly one of the three ways. -/
theorem walk_accounts {w : WalkOutcome} (h : fs.WalksTo scope narrator mode root (.ok w)) :
    (fs.walk scope narrator mode root).map Prod.fst = .ok w ∧
      ∃ ds, fs.discoveries scope root = .ok ds ∧ w.Accounts fs narrator root ds := by
  have hwalk : fs.WalksTo scope narrator mode root ((fs.walk scope narrator mode root).map Prod.fst) :=
    walksTo_walk
  refine ⟨hwalk.eq.trans h.eq.symm, ?_⟩
  have hcollected := h.eq
  cases hds : fs.discoveries scope root with
  | error failure =>
    rw [hds] at hcollected
    cases hcollected
  | ok ds =>
    rw [hds] at hcollected
    obtain rfl := Except.ok.inj hcollected
    exact ⟨ds, rfl, fs.accounts_collect narrator root ds⟩

section

/-- A repository of a script, a file in a language whose imports are not read, and a file that cannot be
read. -/
def assorted : FileSystem where
  entries := [([0x61, dot, 0x6A, 0x73], .file (.ok (Path.ofString "require('b')"))),
    ([0x63, dot, 0x67, 0x6F], .file (.ok (Path.ofString "import \"fmt\""))),
    ([0x64, dot, 0x70, 0x79], .file (.error (.system 13)))]
  current := []

def assortedOutcome : WalkOutcome where
  files := [⟨"a.js", .javaScript, ["b"], "", "", ""⟩, ⟨"c.go", .go, [], "", "", ""⟩]
  batches := [[⟨"a.js", "b"⟩], []]
  failures := [("d.py", .permissionDenied "d.py")]
  scanned := 3

theorem walksTo_assorted : assorted.WalksTo ⟨[], false⟩ .silent (.parallel 2) [solidus] (.ok assortedOutcome) := by
  have hwalk : (assorted.walk ⟨[], false⟩ .silent (.parallel 2) [solidus]).map Prod.fst =
      .ok assortedOutcome := by cbv
  exact hwalk ▸ walksTo_walk

theorem walk_accounts_assorted :
    assorted.WalksTo ⟨[], false⟩ .silent (.parallel 2) [solidus] (.ok assortedOutcome) ∧
      (assorted.walk ⟨[], false⟩ .silent (.parallel 2) [solidus]).map Prod.fst = .ok assortedOutcome ∧
      ∃ ds, assorted.discoveries ⟨[], false⟩ [solidus] = .ok ds ∧
        assortedOutcome.Accounts assorted .silent [solidus] ds :=
  ⟨walksTo_assorted, walk_accounts walksTo_assorted⟩

end

end FileSystem

end RepoSurvey
