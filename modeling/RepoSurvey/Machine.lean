import RepoSurvey.Duration
import RepoSurvey.FileSystem.Basic
import RepoSurvey.Moment
import RepoSurvey.Settings.Environment

/-!
What the program finds around it when it is called.
-/

namespace RepoSurvey

/-- A file system, the variables of an environment, and what the clock says. -/
structure Machine where
  files : FileSystem
  environment : Environment := []
  /-- The home directory on record for the user, if there is one. -/
  recordedHome : Option Path := none
  /-- How many workers run side by side when nobody says how many. -/
  processors : Nat := 1
  now : Moment := .epoch
  elapsed : Duration := .zero

end RepoSurvey
