import Mathlib.Data.List.DropRight
import RepoSurvey.Path

/-!
The name of the repository at a location. A location that is not made of separators alone falls in one way
into its last segment, what stands before it, and separators behind it. The name is the last segment less one
`.git`, so it holds no separator, and it is empty only for separators alone.
-/

namespace RepoSurvey

section LastPart

variable {α : Type} {p : α → Bool} {l t : List α}

/-- What ends a list, and would be dropped at its end, leaves no trace. -/
theorem rdropWhile_append_of_pos (h : ∀ a ∈ t, p a = true) :
    (l ++ t).rdropWhile p = l.rdropWhile p := by
  have hback : ∀ a ∈ t.reverse, p a = true := fun a ha => h a (List.mem_reverse.mp ha)
  rw [List.rdropWhile, List.rdropWhile, List.reverse_append, List.dropWhile_append_of_pos hback]

theorem rtakeWhile_append_of_pos (h : ∀ a ∈ t, p a = true) :
    (l ++ t).rtakeWhile p = l.rtakeWhile p ++ t := by
  have hback : ∀ a ∈ t.reverse, p a = true := fun a ha => h a (List.mem_reverse.mp ha)
  rw [List.rtakeWhile, List.rtakeWhile, List.reverse_append, List.takeWhile_append_of_pos hback,
    List.reverse_append, List.reverse_reverse]

end LastPart

/-! ### Less one `.git` -/

/-- What the names of bare repositories end in. -/
def gitEnding : List Char := ['.', 'g', 'i', 't']

/-- A segment less one `.git` at its end, unless that is all of it. -/
def lessGit (segment : String) : String :=
  if gitEnding <:+ segment.toList ∧ segment ≠ ".git" then
    String.ofList (segment.toList.rdrop gitEnding.length)
  else segment

theorem lessGit_append_git {name : String} (h : name ≠ "") : lessGit (name ++ ".git") = name := by
  have hlist : (name ++ ".git").toList = name.toList ++ gitEnding := String.toList_append
  have hne : name ++ ".git" ≠ ".git" := by
    intro heq
    have hlength := congrArg String.length heq
    rw [String.length_append] at hlength
    exact h (String.length_eq_zero_iff.mp (by omega))
  have hends : gitEnding <:+ (name ++ ".git").toList := ⟨name.toList, hlist.symm⟩
  rw [lessGit, if_pos ⟨hends, hne⟩, hlist, List.rdrop_append_length, String.ofList_toList]

theorem lessGit_of_not_suffix {segment : String} (h : ¬ gitEnding <:+ segment.toList) :
    lessGit segment = segment :=
  if_neg fun hends => h hends.1

/-- Either there is a name before a `.git` at the end, or the segment stays as it is. -/
theorem lessGit_cases (segment : String) :
    (lessGit segment ≠ "" ∧ segment = lessGit segment ++ ".git") ∨ lessGit segment = segment := by
  by_cases h : gitEnding <:+ segment.toList ∧ segment ≠ ".git"
  · obtain ⟨⟨name, hname⟩, hne⟩ := h
    have hsegment : segment = String.ofList name ++ ".git" := by
      apply String.toList_inj.mp
      rw [String.toList_append, String.toList_ofList, ← hname]
      rfl
    have hfull : String.ofList name ≠ "" := by
      intro hempty
      rw [hempty] at hsegment
      exact hne hsegment
    have hless : lessGit segment = String.ofList name := by
      rw [hsegment, lessGit_append_git hfull]
    rw [hless]
    exact Or.inl ⟨hfull, hsegment⟩
  · exact Or.inr (if_neg h)

theorem lessGit_ne_empty {segment : String} (h : segment ≠ "") : lessGit segment ≠ "" := by
  rcases lessGit_cases segment with ⟨hne, -⟩ | heq
  · exact hne
  · rw [heq]
    exact h

theorem mem_of_mem_lessGit {segment : String} {c : Char} (h : c ∈ (lessGit segment).toList) :
    c ∈ segment.toList := by
  rcases lessGit_cases segment with ⟨-, heq⟩ | heq
  · rw [heq, String.toList_append]
    exact List.mem_append_left _ h
  · rwa [heq] at h

/-- Only characters of `.git` can be lost. -/
theorem mem_lessGit {segment : String} {c : Char} (hc : c ∉ gitEnding) (h : c ∈ segment.toList) :
    c ∈ (lessGit segment).toList := by
  rcases lessGit_cases segment with ⟨-, heq⟩ | heq
  · rw [heq, String.toList_append] at h
    exact (List.mem_append.mp h).resolve_right hc
  · rwa [heq]

/-! ### The last segment -/

/-- The last segment of a location, and nothing if there is none. -/
def lastSegment (location : String) : String :=
  String.ofList ((location.toList.rdropWhile isLocationSeparator).rtakeWhile (!isLocationSeparator ·))

theorem repositoryName_eq (location : String) : repositoryName location = lessGit (lastSegment location) := by
  rw [lastSegment, List.rtakeWhile, List.rdropWhile, List.reverse_reverse]
  unfold repositoryName
  dsimp only
  generalize (location.toList.reverse.dropWhile isLocationSeparator).takeWhile
    (!isLocationSeparator ·) = segment
  split
  · next c name =>
    have hgit : String.ofList ('t' :: 'i' :: 'g' :: '.' :: c :: name).reverse =
        String.ofList (c :: name).reverse ++ ".git" := by
      apply String.toList_inj.mp
      simp
    rw [hgit, lessGit_append_git (by simp)]
  · next hother =>
    rcases lessGit_cases (String.ofList segment.reverse) with ⟨hne, heq⟩ | heq
    · -- What ends in `.git` would have been seen from behind.
      have hback : segment =
          't' :: 'i' :: 'g' :: '.' :: (lessGit (String.ofList segment.reverse)).toList.reverse := by
        have hlist := congrArg (fun s => s.toList.reverse) heq
        simpa using hlist
      cases hrest : (lessGit (String.ofList segment.reverse)).toList.reverse with
      | nil => simp [hne] at hrest
      | cons c name =>
        rw [hrest] at hback
        exact absurd hback (hother c name)
    · exact heq.symm

/-- A location falls into what stands before its last segment, that segment, and separators behind it. -/
structure Falls (location before segment after : String) : Prop where
  eq : location = before ++ segment ++ after
  before_ends : ∀ c ∈ before.toList.getLast?, isLocationSeparator c = true
  segment_ne : segment ≠ ""
  segment_whole : ∀ c ∈ segment.toList, isLocationSeparator c = false
  after_bare : ∀ c ∈ after.toList, isLocationSeparator c = true

namespace Falls

variable {location before segment after : String}

/-- The separators at the end of a location are those behind its last segment. -/
theorem cut (h : Falls location before segment after) :
    location.toList.rdropWhile isLocationSeparator = before.toList ++ segment.toList ∧
      location.toList.rtakeWhile isLocationSeparator = after.toList := by
  have hsegment : segment.toList ≠ [] := fun hnil => h.segment_ne (String.toList_eq_nil_iff.mp hnil)
  have hlast : ∀ hne : before.toList ++ segment.toList ≠ [],
      ¬ isLocationSeparator ((before.toList ++ segment.toList).getLast hne) = true := by
    intro hne
    rw [List.getLast_append_of_ne_nil _ hsegment]
    simp [h.segment_whole _ (List.getLast_mem hsegment)]
  rw [h.eq, String.toList_append, String.toList_append]
  constructor
  · rw [rdropWhile_append_of_pos h.after_bare, List.rdropWhile_eq_self_iff.mpr hlast]
  · rw [rtakeWhile_append_of_pos h.after_bare, List.rtakeWhile_eq_nil_iff.mpr hlast, List.nil_append]

theorem lastSegment_eq (h : Falls location before segment after) : lastSegment location = segment := by
  have hbefore : before.toList.rtakeWhile (!isLocationSeparator ·) = [] := by
    refine List.rtakeWhile_eq_nil_iff.mpr fun hne => ?_
    simp [h.before_ends _ (List.getLast_mem_getLast? hne)]
  have hsegment : ∀ c ∈ segment.toList, (!isLocationSeparator c) = true := by
    intro c hc
    rw [h.segment_whole c hc]
    rfl
  rw [lastSegment, h.cut.1, rtakeWhile_append_of_pos hsegment, hbefore, List.nil_append,
    String.ofList_toList]

theorem unique {before' segment' after' : String} (h : Falls location before segment after)
    (h' : Falls location before' segment' after') :
    before = before' ∧ segment = segment' ∧ after = after' := by
  obtain rfl : segment = segment' := h.lastSegment_eq.symm.trans h'.lastSegment_eq
  obtain rfl : after = after' := String.toList_inj.mp (h.cut.2.symm.trans h'.cut.2)
  have hbefore : before.toList = before'.toList :=
    List.append_cancel_right (h.cut.1.symm.trans h'.cut.1)
  exact ⟨String.toList_inj.mp hbefore, rfl, rfl⟩

/-- Separators behind a location belong to those behind its last segment. -/
theorem append (h : Falls location before segment after) {more : String}
    (hmore : ∀ c ∈ more.toList, isLocationSeparator c = true) :
    Falls (location ++ more) before segment (after ++ more) where
  eq := by rw [h.eq, String.append_assoc]
  before_ends := h.before_ends
  segment_ne := h.segment_ne
  segment_whole := h.segment_whole
  after_bare := by
    intro c hc
    rw [String.toList_append] at hc
    exact (List.mem_append.mp hc).elim (h.after_bare c) (hmore c)

/-- A last segment can be written with a `.git` behind it. -/
theorem append_git (h : Falls location before segment after) :
    Falls (before ++ (segment ++ ".git") ++ after) before (segment ++ ".git") after where
  eq := rfl
  before_ends := h.before_ends
  segment_ne := by simp
  segment_whole := by
    intro c hc
    rw [String.toList_append] at hc
    rcases List.mem_append.mp hc with hsegment | hgit
    · exact h.segment_whole c hsegment
    · have hnone : ∀ d ∈ gitEnding, isLocationSeparator d = false := by
        simp [gitEnding, isLocationSeparator]
      exact hnone c hgit
  after_bare := h.after_bare

end Falls

/-- A location that is more than separators has a last segment. -/
theorem exists_falls {location : String} (h : ∃ c ∈ location.toList, isLocationSeparator c = false) :
    ∃ before segment after, Falls location before segment after := by
  -- What is left without the separators at the end ends in no separator. It falls after its last one.
  let kept := location.toList.rdropWhile isLocationSeparator
  have hkept : kept ≠ [] := by
    obtain ⟨c, hc, hfalse⟩ := h
    intro hnil
    have htrue := List.rdropWhile_eq_nil_iff.mp hnil c hc
    rw [hfalse] at htrue
    exact Bool.false_ne_true htrue
  have hlast : isLocationSeparator (kept.getLast hkept) = false :=
    Bool.eq_false_iff.mpr (List.rdropWhile_last_not _ _ hkept)
  refine ⟨String.ofList (kept.rdropWhile (!isLocationSeparator ·)),
    String.ofList (kept.rtakeWhile (!isLocationSeparator ·)),
    String.ofList (location.toList.rtakeWhile isLocationSeparator), ?_, ?_, ?_, ?_, ?_⟩
  · apply String.toList_inj.mp
    simp [kept]
  · intro c hc
    rw [String.toList_ofList] at hc
    obtain ⟨hne, rfl⟩ := List.mem_getLast?_eq_getLast hc
    simpa using List.rdropWhile_last_not _ _ hne
  · intro hempty
    have hnil : kept.rtakeWhile (!isLocationSeparator ·) = [] := by simpa using hempty
    have hnot := List.rtakeWhile_eq_nil_iff.mp hnil hkept
    rw [hlast] at hnot
    exact hnot rfl
  · intro c hc
    rw [String.toList_ofList] at hc
    simpa using List.mem_rtakeWhile_imp hc
  · intro c hc
    rw [String.toList_ofList] at hc
    exact List.mem_rtakeWhile_imp hc

theorem repositoryName_of_falls {location before segment after : String}
    (h : Falls location before segment after) : repositoryName location = lessGit segment := by
  rw [repositoryName_eq, h.lastSegment_eq]

/-- Separators alone have no last segment. -/
theorem repositoryName_of_separators {location : String}
    (h : ∀ c ∈ location.toList, isLocationSeparator c = true) : repositoryName location = "" := by
  have hnil : location.toList.rdropWhile isLocationSeparator = [] := List.rdropWhile_eq_nil_iff.mpr h
  rw [repositoryName_eq, lastSegment, hnil]
  rfl

theorem separators_or_exists_falls (location : String) :
    (∀ c ∈ location.toList, isLocationSeparator c = true) ∨
      ∃ before segment after, Falls location before segment after := by
  by_cases h : ∃ c ∈ location.toList, isLocationSeparator c = false
  · exact Or.inr (exists_falls h)
  · refine Or.inl fun c hc => ?_
    rw [← Bool.not_eq_false]
    exact fun hfalse => h ⟨c, hc, hfalse⟩

theorem repositoryName_eq_empty_iff (location : String) :
    repositoryName location = "" ↔ ∀ c ∈ location.toList, isLocationSeparator c = true := by
  constructor
  · intro hempty
    rcases separators_or_exists_falls location with hall | ⟨before, segment, after, h⟩
    · exact hall
    · rw [repositoryName_of_falls h] at hempty
      exact absurd hempty (lessGit_ne_empty h.segment_ne)
  · exact repositoryName_of_separators

theorem not_isLocationSeparator_of_mem {location : String} {c : Char}
    (hc : c ∈ (repositoryName location).toList) : isLocationSeparator c = false := by
  rcases separators_or_exists_falls location with hall | ⟨before, segment, after, h⟩
  · rw [repositoryName_of_separators hall] at hc
    simp at hc
  · rw [repositoryName_of_falls h] at hc
    exact h.segment_whole c (mem_of_mem_lessGit hc)

theorem repositoryName_append {location more : String}
    (hmore : ∀ c ∈ more.toList, isLocationSeparator c = true) :
    repositoryName (location ++ more) = repositoryName location := by
  rcases separators_or_exists_falls location with hall | ⟨before, segment, after, h⟩
  · rw [repositoryName_of_separators hall]
    refine repositoryName_of_separators fun c hc => ?_
    rw [String.toList_append] at hc
    exact (List.mem_append.mp hc).elim (hall c) (hmore c)
  · rw [repositoryName_of_falls (h.append hmore), repositoryName_of_falls h]

/-- The repository at a location has the name of its last segment, less one `.git` unless that is all of it.
There is one last segment but for separators alone, and exactly for these the name is empty. It never holds a
separator, and neither separators behind the location nor a first `.git` behind the segment change it. -/
theorem repositoryName_location (location : String) :
    (∀ before segment after, Falls location before segment after →
      repositoryName location = lessGit segment ∧
      (¬ gitEnding <:+ segment.toList →
        repositoryName (before ++ (segment ++ ".git") ++ after) = repositoryName location)) ∧
    ((∃ c ∈ location.toList, isLocationSeparator c = false) →
      ∃! parts : String × String × String, Falls location parts.1 parts.2.1 parts.2.2) ∧
    (repositoryName location = "" ↔ ∀ c ∈ location.toList, isLocationSeparator c = true) ∧
    (∀ c ∈ (repositoryName location).toList, isLocationSeparator c = false) ∧
    ∀ more : String, (∀ c ∈ more.toList, isLocationSeparator c = true) →
      repositoryName (location ++ more) = repositoryName location := by
  refine ⟨?_, ?_, repositoryName_eq_empty_iff location, fun c => not_isLocationSeparator_of_mem,
    fun more => repositoryName_append⟩
  · intro before segment after h
    refine ⟨repositoryName_of_falls h, fun hplain => ?_⟩
    rw [repositoryName_of_falls h.append_git, repositoryName_of_falls h,
      lessGit_append_git h.segment_ne, lessGit_of_not_suffix hplain]
  · intro hmore
    obtain ⟨before, segment, after, h⟩ := exists_falls hmore
    refine ⟨(before, segment, after), h, ?_⟩
    rintro ⟨before', segment', after'⟩ h'
    obtain ⟨hbefore, hsegment, hafter⟩ := h'.unique h
    exact Prod.ext hbefore (Prod.ext hsegment hafter)

/-- A clone address of a repository that is itself called `a.git`, with separators of both kinds in it and
behind it. -/
theorem falls_cloneAddress :
    Falls "https://host/org\\a.git.git/\\" "https://host/org\\" "a.git.git" "/\\" where
  eq := by decide
  before_ends := by simp [isLocationSeparator]
  segment_ne := by decide
  segment_whole := by simp [isLocationSeparator]
  after_bare := by simp [isLocationSeparator]

theorem repositoryName_location_cloneAddress :
    Falls "https://host/org\\a.git.git/\\" "https://host/org\\" "a.git.git" "/\\" ∧
      repositoryName "https://host/org\\a.git.git/\\" = "a.git" := by
  have hless : lessGit "a.git.git" = "a.git" := by decide +kernel
  have hname := (repositoryName_location "https://host/org\\a.git.git/\\").1 _ _ _ falls_cloneAddress
  exact ⟨falls_cloneAddress, hname.1.trans hless⟩

end RepoSurvey
