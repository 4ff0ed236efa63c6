import RepoSurvey.Language

/-!
Narrators, which write about the files of a repository and about the repository as a whole.
-/

namespace RepoSurvey

/-- Someone who writes about a repository. -/
structure Narrator where
  explain : String → String → String
  /-- What is doubtful in a file: given its text, its path and its language. -/
  security : String → String → Language → String
  /-- Tests for a file: given its text, its path and its language. -/
  tests : String → String → Language → String
  /-- How a repository is built: given its name and the outline of its folders. -/
  architecture : String → String → String

def Narrator.silent : Narrator :=
  ⟨fun _ _ => "", fun _ _ _ => "", fun _ _ _ => "", fun _ _ => ""⟩

end RepoSurvey
