import RepoSurvey.Path
import RepoSurvey.Report.Format

/-!
Settings of a survey, and layers of them. A layer sets some of the settings and leaves others open.
Layers are put over one another, an upper one deciding wherever it sets something, and what no
layer sets has a value of its own.
-/

namespace RepoSurvey

/-- The settings of a survey. -/
structure Settings where
  scanPath : Path := [dot]
  /-- The name to report; the root is asked for one if there is none. -/
  repositoryName : Option String := none
  excludedNames : List String := [".git", "__pycache__", ".venv", "venv"]
  /-- Whether links to directories are entered. -/
  followLinks : Bool := true
  parallel : Bool := true
  /-- The number of workers; one for each processor if there is none. -/
  threads : Option Nat := none
  outputFormat : OutputFormat := .text
  /-- The file that takes the result; otherwise it is printed. -/
  outputFile : Option Path := none
  /-- The file that takes the drawing of the graph, if one is wanted. -/
  dotFile : Option Path := none
  quiet : Bool := false
  verbose : Bool := false
  useColors : Bool := true
  showProgress : Bool := true
  deriving Repr, DecidableEq

/-- The number of workers on a machine with some processors, at least one. -/
def Settings.workers (s : Settings) (processors : Nat) : Nat :=
  max (s.threads.getD processors) 1

/-- A layer of settings. -/
structure Layer where
  scanPath : Option Path := none
  repositoryName : Option String := none
  excludedNames : Option (List String) := none
  followLinks : Option Bool := none
  parallel : Option Bool := none
  threads : Option Nat := none
  outputFormat : Option OutputFormat := none
  outputFile : Option Path := none
  dotFile : Option Path := none
  quiet : Option Bool := none
  verbose : Option Bool := none
  useColors : Option Bool := none
  showProgress : Option Bool := none
  deriving Repr, DecidableEq

namespace Layer

def empty : Layer := {}

/-- A layer over another one, which decides only where the upper one leaves a setting open. -/
def overlay (upper lower : Layer) : Layer where
  scanPath := upper.scanPath.or lower.scanPath
  repositoryName := upper.repositoryName.or lower.repositoryName
  excludedNames := upper.excludedNames.or lower.excludedNames
  followLinks := upper.followLinks.or lower.followLinks
  parallel := upper.parallel.or lower.parallel
  threads := upper.threads.or lower.threads
  outputFormat := upper.outputFormat.or lower.outputFormat
  outputFile := upper.outputFile.or lower.outputFile
  dotFile := upper.dotFile.or lower.dotFile
  quiet := upper.quiet.or lower.quiet
  verbose := upper.verbose.or lower.verbose
  useColors := upper.useColors.or lower.useColors
  showProgress := upper.showProgress.or lower.showProgress

@[simp] theorem empty_overlay (l : Layer) : empty.overlay l = l := rfl

@[simp] theorem overlay_empty (l : Layer) : l.overlay empty = l := by
  simp [overlay, empty]

/-- The settings of a layer, where `base` decides what is left open. -/
def resolve (base : Settings) (l : Layer) : Settings where
  scanPath := l.scanPath.getD base.scanPath
  repositoryName := l.repositoryName.or base.repositoryName
  excludedNames := l.excludedNames.getD base.excludedNames
  followLinks := l.followLinks.getD base.followLinks
  parallel := l.parallel.getD base.parallel
  threads := l.threads.or base.threads
  outputFormat := l.outputFormat.getD base.outputFormat
  outputFile := l.outputFile.or base.outputFile
  dotFile := l.dotFile.or base.dotFile
  quiet := l.quiet.getD base.quiet
  verbose := l.verbose.getD base.verbose
  useColors := l.useColors.getD base.useColors
  showProgress := l.showProgress.getD base.showProgress

def settings (l : Layer) : Settings := l.resolve {}

end Layer

end RepoSurvey
