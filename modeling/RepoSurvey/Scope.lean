import RepoSurvey.Settings.Basic

/-!
What of a repository a survey covers.
-/

namespace RepoSurvey

/-- Which entries of a repository count. -/
structure Scope where
  /-- Names of entries that are left out wherever they stand below the root. -/
  excludedNames : List String
  /-- Whether links to directories are entered. -/
  followLinks : Bool
  deriving Repr, DecidableEq

namespace Scope

def excludesName (s : Scope) (name : String) : Bool := s.excludedNames.contains name

/-- Whether entries of a name are left out, the name taken as it is shown. -/
def excludes (s : Scope) (name : FileName) : Bool := s.excludesName (Utf8.decodeLossy name)

end Scope

def Settings.scope (s : Settings) : Scope := ⟨s.excludedNames, s.followLinks⟩

end RepoSurvey
