import RepoSurvey.Machine
import RepoSurvey.Tree.Build
import RepoSurvey.Tree.Outline
import RepoSurvey.Walk.Basic

/-!
The survey of a repository: its folder tree, what was found in its files, its dependency graph and a
description of the whole, in one result.
-/

namespace RepoSurvey

namespace FileSystem

/-- The name of the repository at a root: that of the real directory, if there is one. -/
def repositoryNameAt (fs : FileSystem) (root : Path) : String :=
  let resolved := (fs.canonical root).toOption.getD root
  repositoryName (rootName resolved)

end FileSystem

/-- How settings ask for files to be read on a machine with some processors. -/
def Settings.mode (s : Settings) (processors : Nat) : Mode :=
  if s.parallel then .parallel (s.workers processors) else .sequential

namespace Machine

/-- The result of a survey that has built a tree and walked through the repository. -/
def assemble (m : Machine) (narrator : Narrator) (repository : String) (tree : Node)
    (outcome : WalkOutcome) : Analysis :=
  let a := Analysis.start repository tree tree.outline m.now
  let a := outcome.files.foldl Analysis.addFile a
  let a := outcome.failures.foldl (fun a (path, e) => a.addFailure path e) a
  let a := a.setGraph (.assemble outcome.batches)
  let a := a.setArchitecture (narrator.architecture repository tree.outline)
  (a.setFilesScanned outcome.scanned).setScanDuration m.elapsed

def survey (m : Machine) (narrator : Narrator) (s : Settings) : Except Failure Analysis := do
  let tree ← m.files.folderTree s.scope s.scanPath
  let repository := s.repositoryName.getD (m.files.repositoryNameAt s.scanPath)
  let (outcome, _) ← m.files.walk s.scope narrator (s.mode m.processors) s.scanPath
  return m.assemble narrator repository tree outcome

end Machine

end RepoSurvey
