import RepoSurvey.Proofs.Locations
import RepoSurvey.Proofs.Path
import RepoSurvey.Proofs.TextBytes
import RepoSurvey.Survey

/-!
The name of a repository after its root. The name of the directory is read like a location, in which a backslash
separates as a solidus does. So it is taken as it is, less one `.git`, exactly if it holds no backslash.
-/

namespace RepoSurvey

namespace Path

theorem solidus_not_mem_of_mem_segments {p : Path} {n : FileName} (h : n ∈ segments p) : solidus ∉ n := by
  induction p generalizing n with
  | nil =>
    rw [segments, List.mem_singleton] at h
    rw [h]
    exact List.not_mem_nil
  | cons b p ih =>
    rw [segments] at h
    split at h
    · rcases List.mem_cons.mp h with rfl | htail
      · exact List.not_mem_nil
      · exact ih htail
    · next hb =>
      cases hp : segments p with
      | nil => exact absurd hp (segments_ne_nil p)
      | cons s more =>
        rw [hp] at h
        rcases List.mem_cons.mp h with rfl | htail
        · intro hmem
          rcases List.mem_cons.mp hmem with heq | hs
          · exact hb heq.symm
          · exact ih (hp ▸ List.mem_cons_self) hs
        · exact ih (hp ▸ List.mem_cons_of_mem s htail)

theorem isStep_of_stepOf? {s n : FileName} (h : stepOf? s = some (.name n)) (hs : solidus ∉ s) :
    n.IsStep := by
  unfold stepOf? at h
  split at h
  · simp at h
  next hone =>
  split at h
  · simp at h
  next hup =>
  obtain rfl : s = n := PathStep.name.inj (Option.some.inj h)
  exact ⟨fun hnil => hone (Or.inl hnil), hs, fun hdot => hone (Or.inr hdot), hup⟩

/-- The name that a path ends in is a step of its own. -/
theorem isStep_of_fileName? {p : Path} {n : FileName} (h : p.fileName? = some n) : n.IsStep := by
  have hlast : p.steps.getLast? = some (.name n) := by
    unfold fileName? at h
    split at h
    · next m hm => rw [hm, Option.some.inj h]
    · simp at h
  have hmem : PathStep.name n ∈ p.steps := List.mem_of_getLast? hlast
  unfold steps at hmem
  rcases List.mem_append.mp hmem with hstart | hnames
  · -- The beginning of a path is no name.
    split at hstart
    · simp at hstart
    split at hstart
    · simp at hstart
    · simp at hstart
  · obtain ⟨s, hs, hstep⟩ := List.mem_filterMap.mp hnames
    exact isStep_of_stepOf? hstep (solidus_not_mem_of_mem_segments hs)

end Path

/-- Where there is no solidus, only backslashes separate. -/
theorem isLocationSeparator_iff_of_mem {name : String} (hname : '/' ∉ name.toList) {c : Char}
    (hc : c ∈ name.toList) : isLocationSeparator c = true ↔ c = '\\' := by
  have hne : c ≠ '/' := fun heq => hname (heq ▸ hc)
  simp [isLocationSeparator, hne]

/-- A name without a solidus is taken as it is exactly if it holds no backslash. -/
theorem repositoryName_eq_lessGit_iff {name : String} (hne : name ≠ "") (hname : '/' ∉ name.toList) :
    repositoryName name = lessGit name ↔ '\\' ∉ name.toList := by
  constructor
  · intro heq hmem
    have hkept : '\\' ∈ (lessGit name).toList := mem_lessGit (by decide) hmem
    rw [← heq] at hkept
    exact absurd (not_isLocationSeparator_of_mem hkept) (by decide)
  · intro hplain
    have hwhole : ∀ c ∈ name.toList, isLocationSeparator c = false := by
      intro c hc
      rw [Bool.eq_false_iff]
      exact fun hsep => hplain ((isLocationSeparator_iff_of_mem hname hc).mp hsep ▸ hc)
    have hfalls : Falls name "" name "" := ⟨by simp, by simp, hne, hwhole, by simp⟩
    exact repositoryName_of_falls hfalls

namespace FileSystem

/-- The path by which a root is named: the real one, if there is one. -/
def resolved (fs : FileSystem) (root : Path) : Path := (fs.canonical root).toOption.getD root

theorem repositoryNameAt_eq {fs : FileSystem} {root : Path} {n : FileName}
    (h : (fs.resolved root).fileName? = some n) :
    fs.repositoryNameAt root = repositoryName (Utf8.decodeLossy n) := by
  have hroot : rootName (fs.resolved root) = Utf8.decodeLossy n := by
    unfold rootName
    rw [h]
  exact congrArg repositoryName hroot

/-- A root whose resolved path ends in a name gives the repository that name, less one `.git` unless that is
all of it, exactly if the name holds no backslash. In any case the repository is called after the last part of the
name that no backslash divides, and it is called nothing exactly for backslashes alone. -/
theorem repositoryNameAt_ownName_iff {fs : FileSystem} {root : Path} {n : FileName} {name : String}
    (h : (fs.resolved root).fileName? = some n) (hname : Utf8.decodeLossy n = name) :
    (fs.repositoryNameAt root = lessGit name ↔ '\\' ∉ name.toList) ∧
    (fs.repositoryNameAt root = "" ↔ ∀ c ∈ name.toList, c = '\\') ∧
    ∀ before segment after, Falls name before segment after →
      fs.repositoryNameAt root = lessGit segment := by
  subst hname
  have hn : n.IsStep := Path.isStep_of_fileName? h
  have hslash : '/' ∉ (Utf8.decodeLossy n).toList := fun hmem =>
    hn.solidus_not_mem (Utf8.solidus_mem_of_mem_decodeLossy hmem)
  rw [repositoryNameAt_eq h]
  refine ⟨repositoryName_eq_lessGit_iff (Utf8.decodeLossy_ne_empty hn.ne_nil) hslash, ?_,
    fun before segment after => repositoryName_of_falls⟩
  rw [repositoryName_eq_empty_iff]
  exact forall₂_congr fun c hc => isLocationSeparator_iff_of_mem hslash hc

section

/-- Three directories: `a\b`, `\` and `a.git.git`. -/
def backslashed : FileSystem where
  entries := [(Utf8.encode "a\\b", .directory []), (Utf8.encode "\\", .directory []),
    (Utf8.encode "a.git.git", .directory [])]
  current := []

/-- The directory `a\b` gives its repository the name `b`, and the directory `\` gives none. -/
theorem repositoryNameAt_backslashed :
    (backslashed.resolved (.ofString "a\\b")).fileName? = some (Utf8.encode "a\\b") ∧
      backslashed.repositoryNameAt (.ofString "a\\b") = "b" ∧ lessGit "a\\b" = "a\\b" ∧
      (backslashed.resolved (.ofString "\\")).fileName? = some (Utf8.encode "\\") ∧
      backslashed.repositoryNameAt (.ofString "\\") = "" :=
  ⟨by cbv, by cbv, by decide +kernel, by cbv, by cbv⟩

/-- The root is written with a solidus and a dot behind its name. -/
theorem repositoryNameAt_ownName_iff_dotted :
    (backslashed.resolved (.ofString "a.git.git/.")).fileName? = some (Utf8.encode "a.git.git") ∧
      Utf8.decodeLossy (Utf8.encode "a.git.git") = "a.git.git" ∧
      backslashed.repositoryNameAt (.ofString "a.git.git/.") = "a.git" := by
  have hname : (backslashed.resolved (.ofString "a.git.git/.")).fileName? =
      some (Utf8.encode "a.git.git") := by cbv
  have hshown := Utf8.decodeLossy_encode "a.git.git"
  have hless : lessGit "a.git.git" = "a.git" := by decide +kernel
  have hplain : '\\' ∉ "a.git.git".toList := by decide
  exact ⟨hname, hshown, ((repositoryNameAt_ownName_iff hname hshown).1.mpr hplain).trans hless⟩

end

end FileSystem

end RepoSurvey
