import RepoSurvey.Proofs.Path

/-!
Following a path name by name. Where the names of a path lead, and how many links may still be
followed from there, decides where every path below it leads.
-/

namespace RepoSurvey

/-- Only a directory without a fault lists anything. -/
theorem Entry.eq_directory_of_listing {e : Entry} {entries : List (FileName × Entry)}
    (h : e.listing = .ok entries) : e = .directory entries none := by
  unfold listing at h
  split at h
  · rw [Except.ok.inj h]
  · cases h
  · cases h

/-- Whether a name is too long to be looked up in the directory at `s`. -/
def Standing.Refuses (s : Standing) (room : Option Nat) (n : FileName) : Prop :=
  nameLimit < n.length ∨ FileSystem.outgrows room (s.realPath.width + n.length + 1) = true

namespace FileSystem

/-- Some names lead from one entry to another, every link on the way followed: from `links` links that
may be followed, `left` are left. -/
inductive Leads (fs : FileSystem) (room : Option Nat) :
    (links : Nat) → Standing → List FileName → (left : Nat) → Standing → Prop where
  | done {links : Nat} {s : Standing} : Leads fs room links s [] links s
  | here {links left : Nat} {s t : Standing} {names : List FileName}
      {entries : List (FileName × Entry)} {fault : Option IoError}
      (hs : s.entry = .directory entries fault)
      (h : Leads fs room links s names left t) : Leads fs room links s ([dot] :: names) left t
  | up {links left : Nat} {s t : Standing} {names : List FileName}
      {entries : List (FileName × Entry)} {fault : Option IoError}
      (hs : s.entry = .directory entries fault)
      (h : Leads fs room links s.parent names left t) :
      Leads fs room links s ([dot, dot] :: names) left t
  | link {links left : Nat} {s t : Standing} {n : FileName} {names : List FileName}
      {entries : List (FileName × Entry)} {fault : Option IoError} {target : Path}
      (hs : s.entry = .directory entries fault)
      (hdot : n ≠ [dot]) (hdots : n ≠ [dot, dot]) (hfits : ¬ s.Refuses room n)
      (hn : entries.lookup n = some (.link target))
      (h : Leads fs room links (if target.isAbsolute then fs.top else s) (target.names ++ names)
        left t) : Leads fs room (links + 1) s (n :: names) left t
  | child {links left : Nat} {s t : Standing} {n : FileName} {names : List FileName}
      {entries : List (FileName × Entry)} {fault : Option IoError} {e : Entry}
      (hs : s.entry = .directory entries fault)
      (hdot : n ≠ [dot]) (hdots : n ≠ [dot, dot]) (hfits : ¬ s.Refuses room n)
      (hn : entries.lookup n = some e) (he : ∀ target, e ≠ .link target)
      (h : Leads fs room links (s.child n e) names left t) : Leads fs room links s (n :: names) left t

section

variable {fs : FileSystem} {room : Option Nat} {links left : Nat} {s t : Standing}
  {n : FileName} {names more : List FileName} {entries : List (FileName × Entry)} {fault : Option IoError}

theorem follow_here (last : Bool) (hs : s.entry = .directory entries fault) :
    fs.follow last room links s ([dot] :: names) = fs.follow last room links s names := by
  rw [follow, hs]
  exact if_pos rfl

theorem follow_up (last : Bool) (hs : s.entry = .directory entries fault) :
    fs.follow last room links s ([dot, dot] :: names) = fs.follow last room links s.parent names := by
  rw [follow, hs]
  exact (if_neg (by simp)).trans (if_pos rfl)

/-- What following a name does that no directory has of itself. -/
theorem follow_name (last : Bool) (hs : s.entry = .directory entries fault) (hdot : n ≠ [dot])
    (hdots : n ≠ [dot, dot]) (hfits : ¬ s.Refuses room n) :
    fs.follow last room links s (n :: names) =
      match entries.lookup n with
      | none => if names = [] then .ok (.vacant s n) else .error .noEntry
      | some (.link target) =>
        if names = [] ∧ ¬ last then .ok (.reached (s.child n (.link target)))
        else
          match links with
          | 0 => .error .tooManyLinks
          | links + 1 =>
            fs.follow last room links (if target.isAbsolute then fs.top else s)
              (target.names ++ names)
      | some e => fs.follow last room links (s.child n e) names := by
  rw [follow, hs]
  exact (if_neg hdot).trans ((if_neg hdots).trans (if_neg hfits))

theorem follow_child {e : Entry} (last : Bool) (hs : s.entry = .directory entries fault) (hdot : n ≠ [dot])
    (hdots : n ≠ [dot, dot]) (hfits : ¬ s.Refuses room n) (hn : entries.lookup n = some e)
    (he : ∀ target, e ≠ .link target) :
    fs.follow last room links s (n :: names) = fs.follow last room links (s.child n e) names := by
  rw [follow_name last hs hdot hdots hfits, hn]
  cases e with
  | link target => exact absurd rfl (he target)
  | file content => rfl
  | special => rfl
  | directory inner fault => rfl

theorem follow_refused (last : Bool) (hs : s.entry = .directory entries fault) (hdot : n ≠ [dot])
    (hdots : n ≠ [dot, dot]) (hrefuses : s.Refuses room n) :
    fs.follow last room links s (n :: names) = .error .nameTooLong := by
  rw [follow, hs]
  exact (if_neg hdot).trans ((if_neg hdots).trans (if_pos hrefuses))

/-- After names that have been followed, the rest is followed from where they end. -/
theorem Leads.follow_append (h : Leads fs room links s names left t) (last : Bool) (hmore : more ≠ []) :
    fs.follow last room links s (names ++ more) = fs.follow last room left t more := by
  induction h with
  | done => rfl
  | here hs _ ih => rw [List.cons_append, follow_here last hs, ih]
  | up hs _ ih => rw [List.cons_append, follow_up last hs, ih]
  | link hs hdot hdots hfits hn _ ih =>
    rw [List.cons_append, follow_name last hs hdot hdots hfits, hn]
    simp only [List.append_eq_nil_iff, hmore, and_false, false_and, if_false]
    rw [← List.append_assoc, ih]
  | child hs hdot hdots hfits hn he _ ih =>
    rw [List.cons_append, follow_child last hs hdot hdots hfits hn he, ih]

theorem Leads.follow_eq (h : Leads fs room links s names left t) :
    fs.follow true room links s names = .ok (.reached t) := by
  induction h with
  | done => rw [follow]
  | here hs _ ih => rw [follow_here true hs, ih]
  | up hs _ ih => rw [follow_up true hs, ih]
  | link hs hdot hdots hfits hn _ ih =>
    rw [follow_name true hs hdot hdots hfits, hn]
    simpa using ih
  | child hs hdot hdots hfits hn he _ ih =>
    rw [follow_child true hs hdot hdots hfits hn he, ih]

theorem exists_leads_of_follow (h : fs.follow true room links s names = .ok (.reached t)) :
    ∃ left, Leads fs room links s names left t := by
  fun_induction follow fs true room links s names
  -- The cases that are not named fail, or stop where there is no entry.
  case case1 links s =>
    obtain rfl : s = t := by simpa using h
    exact ⟨links, .done⟩
  case case2 hs ih =>
    obtain ⟨left, hleft⟩ := ih h
    exact ⟨left, .here hs hleft⟩
  case case3 hs _ ih =>
    obtain ⟨left, hleft⟩ := ih h
    exact ⟨left, .up hs hleft⟩
  case case7 hlast => exact absurd rfl hlast.2
  case case9 hs hdot hdots hfits target hn _ links ih =>
    obtain ⟨left, hleft⟩ := ih h
    exact ⟨left, .link hs hdot hdots hfits hn hleft⟩
  case case10 hs hdot hdots hfits e he hn ih =>
    obtain ⟨left, hleft⟩ := ih h
    exact ⟨left, .child hs hdot hdots hfits hn (fun target h => he target h) hleft⟩
  all_goals cases h

/-- A dot at the end leads nowhere else. -/
theorem Leads.of_append_dot (h : Leads fs room links s (names ++ [[dot]]) left t) :
    Leads fs room links s names left t := by
  generalize hall : names ++ [[dot]] = all at h
  induction h generalizing names with
  | done => simp at hall
  | here hs h ih =>
    cases names with
    | nil =>
      obtain rfl := (List.cons.inj hall).2
      exact h
    | cons n names =>
      obtain ⟨rfl, hrest⟩ := List.cons.inj hall
      exact .here hs (ih hrest)
  | up hs h ih =>
    cases names with
    | nil => simp at hall
    | cons n names =>
      obtain ⟨rfl, hrest⟩ := List.cons.inj hall
      exact .up hs (ih hrest)
  | link hs hdot hdots hfits hn h ih =>
    cases names with
    | nil => exact absurd (List.cons.inj hall).1.symm hdot
    | cons n names =>
      obtain ⟨rfl, hrest⟩ := List.cons.inj hall
      exact .link hs hdot hdots hfits hn (ih (by rw [← hrest, List.append_assoc]; rfl))
  | child hs hdot hdots hfits hn he h ih =>
    cases names with
    | nil => exact absurd (List.cons.inj hall).1.symm hdot
    | cons n names =>
      obtain ⟨rfl, hrest⟩ := List.cons.inj hall
      exact .child hs hdot hdots hfits hn he (ih hrest)

/-- Where there is a bound of real paths, names lead to the same entry as without one. -/
theorem Leads.unbounded (h : Leads fs room links s names left t) :
    Leads fs none links s names left t := by
  have hfits {s : Standing} {n : FileName} (h : ¬ s.Refuses room n) : ¬ s.Refuses none n := by
    simp only [Standing.Refuses, not_or] at h
    simp [Standing.Refuses, outgrows, h.1]
  induction h with
  | done => exact .done
  | here hs _ ih => exact .here hs ih
  | up hs _ ih => exact .up hs ih
  | link hs hdot hdots hf hn _ ih => exact .link hs hdot hdots (hfits hf) hn ih
  | child hs hdot hdots hf hn he _ ih => exact .child hs hdot hdots (hfits hf) hn he ih

theorem Leads.eq {left' : Nat} {t' : Standing} (h : Leads fs room links s names left t)
    (h' : Leads fs room links s names left' t') : t = t' := by
  have he := h.follow_eq.symm.trans h'.follow_eq
  simpa using he

end

variable {fs : FileSystem} {p : Path} {n : FileName} {s t : Standing} {left : Nat}
  {entries : List (FileName × Entry)} {fault : Option IoError} {e : Entry} {target : Path}

theorem reached_of_entryOf {a : Except IoError Arrival} (h : entryOf a = .ok s) :
    a = .ok (.reached s) := by
  unfold entryOf at h
  split at h
  · simpa using h
  · cases h
  · cases h

theorem leads_spelled {room : Option Nat} {links : Nat}
    (h : fs.follow true room links s p.names = .ok (.reached t)) :
    ∃ left, Leads fs room links s p.spelled left t := by
  obtain ⟨left, hleft⟩ := exists_leads_of_follow h
  rcases p.names_eq with he | he
  · exact ⟨left, he ▸ hleft⟩
  · rw [he] at hleft
    exact ⟨left, hleft.of_append_dot⟩

theorem list_of_stat (h : fs.stat p = .ok s) : fs.list p = s.entry.listing := by
  unfold list
  rw [h]
  rfl

/-- A listing is that of the directory to which the path leads. -/
theorem exists_stat_of_list (h : fs.list p = .ok entries) :
    ∃ s, fs.stat p = .ok s ∧ s.entry = .directory entries none := by
  cases hs : fs.stat p with
  | error e =>
    unfold list at h
    rw [hs] at h
    cases h
  | ok s =>
    rw [list_of_stat hs] at h
    exact ⟨s, rfl, Entry.eq_directory_of_listing h⟩

/-- A directory is listed unless there is a fault. -/
theorem list_of_directory (h : fs.stat p = .ok s) (hs : s.entry = .directory entries none) :
    fs.list p = .ok entries := by
  rw [list_of_stat h, hs, Entry.listing]

/-- A path that can be looked up: it is short enough, and its names lead to the entry. -/
theorem leads_of_stat (h : fs.stat p = .ok s) :
    p.contains 0 = false ∧ ∃ left, Leads fs none linkLimit (fs.start p) p.spelled left s := by
  have hreached := reached_of_entryOf h
  unfold arrive at hreached
  split at hreached
  · cases hreached
  · rename_i hzero
    refine ⟨by simpa using hzero, ?_⟩
    split at hreached
    · cases hreached
    · split at hreached
      · cases hreached
      · exact leads_spelled hreached

theorem leads_of_resolve (h : fs.resolve p = .ok s) :
    ∃ left, Leads fs (some pathLimit) linkLimit (fs.start p) p.spelled left s := by
  unfold resolve at h
  split at h
  · cases h
  · split at h
    · cases h
    · exact leads_spelled (reached_of_entryOf h)

/-- A path that can be looked up in both ways leads to the same entry in both. -/
theorem resolve_eq_stat (hresolve : fs.resolve p = .ok t) (hstat : fs.stat p = .ok s) : t = s := by
  obtain ⟨left, hleft⟩ := leads_of_resolve hresolve
  obtain ⟨-, left', hleft'⟩ := leads_of_stat hstat
  exact hleft.unbounded.eq hleft'

theorem start_join (p : Path) (hn : n.IsProper) : fs.start (p.join n) = fs.start p := by
  simp only [start, Path.isAbsolute_join p hn.solidus_not_mem]

/-- Below a path that can be looked up, one more name is followed from its entry. -/
theorem exists_arrive_join (h : fs.stat p = .ok s) (hn : n.IsProper) :
    ∃ left, ∀ last, fs.arrive last (p.join n) =
      if pathLimit ≤ (p.join n).length then .error .nameTooLong
      else fs.follow last none left s [n] := by
  obtain ⟨hzero, left, hleft⟩ := leads_of_stat h
  refine ⟨left, fun last => ?_⟩
  have hz : ¬ (p.join n).contains 0 = true := by
    rw [Path.contains_zero_join p hn, hzero]
    exact Bool.false_ne_true
  unfold arrive
  rw [if_neg hz, if_neg (Path.join_ne_nil p hn), start_join p hn, Path.names_join p hn,
    hleft.follow_append last (List.cons_ne_nil n [])]

/-- An entry that is no link is found under its name, unless the path to it is too long. -/
theorem stat_join_of_not_link (h : fs.stat p = .ok s) (hs : s.entry = .directory entries fault)
    (hn : n.IsProper) (he : entries.lookup n = some e) (hlink : ∀ target, e ≠ .link target) :
    fs.lstat (p.join n) = fs.stat (p.join n) ∧
      (fs.stat (p.join n) = .error .nameTooLong ∨ fs.stat (p.join n) = .ok (s.child n e)) := by
  obtain ⟨left, harrive⟩ := exists_arrive_join h hn
  by_cases hlong : pathLimit ≤ (p.join n).length
  · simp [stat, lstat, harrive, hlong, entryOf]
  by_cases hrefuses : s.Refuses none n
  · have hfollow (last : Bool) : fs.follow last none left s [n] = .error .nameTooLong :=
      follow_refused last hs hn.ne_dot hn.ne_dots hrefuses
    simp [stat, lstat, harrive, hlong, hfollow, entryOf]
  · have hfollow (last : Bool) : fs.follow last none left s [n] = .ok (.reached (s.child n e)) := by
      rw [follow_child last hs hn.ne_dot hn.ne_dots hrefuses he hlink, follow]
    simp [stat, lstat, harrive, hlong, hfollow, entryOf]

theorem eq_child_of_stat_join (h : fs.stat p = .ok s) (hs : s.entry = .directory entries fault)
    (hn : n.IsProper) (he : entries.lookup n = some e) (hlink : ∀ target, e ≠ .link target)
    (ht : fs.stat (p.join n) = .ok t) : t = s.child n e := by
  have hstat := (stat_join_of_not_link h hs hn he hlink).2
  rw [ht] at hstat
  rcases hstat with hstat | hstat
  · cases hstat
  · exact Except.ok.inj hstat

/-- A link is found under its name, unless the path to it is too long. -/
theorem lstat_join_of_link (h : fs.stat p = .ok s) (hs : s.entry = .directory entries fault)
    (hn : n.IsProper) (he : entries.lookup n = some (.link target)) :
    fs.lstat (p.join n) = .ok (s.child n (.link target)) ∨
      fs.lstat (p.join n) = .error .nameTooLong ∧ fs.stat (p.join n) = .error .nameTooLong := by
  obtain ⟨left, harrive⟩ := exists_arrive_join h hn
  by_cases hlong : pathLimit ≤ (p.join n).length
  · exact Or.inr (by simp [stat, lstat, harrive, hlong, entryOf])
  by_cases hrefuses : s.Refuses none n
  · have hfollow (last : Bool) : fs.follow last none left s [n] = .error .nameTooLong :=
      follow_refused last hs hn.ne_dot hn.ne_dots hrefuses
    exact Or.inr (by simp [stat, lstat, harrive, hlong, hfollow, entryOf])
  · have hfollow : fs.follow false none left s [n] = .ok (.reached (s.child n (.link target))) := by
      rw [follow_name false hs hn.ne_dot hn.ne_dots hrefuses, he]
      simp
    exact Or.inl (by simp [lstat, harrive, hlong, hfollow, entryOf])

end FileSystem

end RepoSurvey
