import RepoSurvey.FileSystem.Change
import RepoSurvey.Proofs.Snapshot

/-!
Writing a file. What a path leads to is told by real paths, and writing a file changes what stands at one of
them. So every path leads to where it led before, except that those that ended at the vacant place of the new
file now reach it, and of all paths only those that lead to this place find other contents.
-/

namespace RepoSurvey

namespace Entry

/-- An entry without what it lists. -/
def shallow : Entry → Entry
  | directory _ fault => directory [] fault
  | e => e

/-- The entry of a name in a directory; in anything else there is none. -/
def lookup? : Entry → FileName → Option Entry
  | directory l _, n => l.lookup n
  | _, _ => none

/-- The entry at the end of a real path that starts at an entry. -/
def entryAt? (e : Entry) (p : RealPath) : Option Entry := p.foldlM lookup? e

section

variable {e : Entry} {l k : Listing} {fault : Option IoError} {n : FileName} {p d : RealPath}
  {content : Except IoError (List UInt8)}

theorem shallow_eq_file : e.shallow = .file content ↔ e = .file content := by
  cases e <;> simp [shallow]

theorem shallow_eq_link {target : Path} : e.shallow = .link target ↔ e = .link target := by
  cases e <;> simp [shallow]

theorem exists_of_shallow_eq_directory (h : e.shallow = .directory l fault) :
    ∃ l', e = .directory l' fault := by
  cases e with
  | directory l' fault' =>
    obtain ⟨-, rfl⟩ := Entry.directory.inj h
    exact ⟨l', rfl⟩
  | _ => cases h

theorem isFile_shallow : e.shallow.isFile = e.isFile := by
  cases e <;> rfl

theorem isDirectory_shallow : e.shallow.isDirectory = e.isDirectory := by
  cases e <;> rfl

theorem exists_directory (h : e.isDirectory = true) : ∃ l fault, e = .directory l fault := by
  cases e with
  | directory l fault => exact ⟨l, fault, rfl⟩
  | _ => cases h

theorem isDirectory_of_lookup? {f : Entry} (h : e.lookup? n = some f) : e.isDirectory = true := by
  cases e with
  | directory l fault => rfl
  | _ => cases h

@[simp]
theorem entryAt?_nil : e.entryAt? [] = some e := rfl

@[simp]
theorem entryAt?_cons : e.entryAt? (n :: p) = (e.lookup? n).bind fun f => f.entryAt? p := rfl

theorem entryAt?_concat : e.entryAt? (p ++ [n]) = (e.entryAt? p).bind fun f => f.lookup? n := by
  induction p generalizing e with
  | nil => cases h : e.lookup? n <;> simp [h]
  | cons m p ih =>
    rw [List.cons_append, entryAt?_cons, entryAt?_cons]
    cases h : e.lookup? m with
    | none => rfl
    | some f => exact ih

/-- Only a directory has an entry that is a directory below it. -/
theorem isDirectory_of_entryAt? (h : e.entryAt? p = some (.directory k fault)) :
    e.isDirectory = true := by
  cases p with
  | nil =>
    obtain rfl : e = .directory k fault := by simpa using h
    rfl
  | cons n p =>
    cases hf : e.lookup? n with
    | none => simp [hf] at h
    | some f => exact isDirectory_of_lookup? hf

end

end Entry

/-! ### Listings -/

theorem lookup_cons_eq_ite (n : FileName) (e : Entry) (l : Listing) (m : FileName) :
    List.lookup m ((n, e) :: l) = if m = n then some e else l.lookup m := by
  by_cases hm : m = n
  · rw [hm, List.lookup_cons_self, if_pos rfl]
  · rw [List.lookup_cons, beq_eq_false_iff_ne.mpr hm, if_neg hm]

theorem lookup_setNamed (name : FileName) (e : Entry) (l : Listing) (m : FileName) :
    (setNamed name e l).lookup m = if m = name then some e else l.lookup m := by
  induction l with
  | nil => exact lookup_cons_eq_ite name e [] m
  | cons item rest ih =>
    obtain ⟨n, old⟩ := item
    rw [setNamed]
    split
    case isTrue h =>
      subst h
      rw [lookup_cons_eq_ite, lookup_cons_eq_ite]
      split <;> rfl
    case isFalse h =>
      rw [lookup_cons_eq_ite, lookup_cons_eq_ite, ih]
      by_cases hm : m = n
      · rw [if_pos hm, if_pos hm, if_neg (hm ▸ h)]
      · rw [if_neg hm, if_neg hm]

theorem setAt_cons (e : Entry) (name : FileName) {rest : RealPath} (hrest : rest ≠ []) (l : Listing) :
    setAt e (name :: rest) l =
      match l.lookup name with
      | some (.directory inner fault) => setNamed name (.directory (setAt e rest inner) fault) l
      | _ => l := by
  cases rest with
  | nil => exact absurd rfl hrest
  | cons m rest => rfl

/-- A file that is written in a directory is found at its real path. All that stands elsewhere is what it
was, but for what directories list. -/
theorem shallow_entryAt?_setAt {content : Except IoError (List UInt8)} {l k : Listing}
    {fault fault' : Option IoError} {d : RealPath} {n : FileName}
    (hd : (Entry.directory l fault).entryAt? d = some (.directory k fault'))
    (hn : ∀ e, k.lookup n = some e → e.isFile = true) (p : RealPath) :
    ((Entry.directory (setAt (.file content) (d ++ [n]) l) fault).entryAt? p).map Entry.shallow =
      if p = d ++ [n] then some (.file content)
      else ((Entry.directory l fault).entryAt? p).map Entry.shallow := by
  -- By induction on the way to the directory. Each directory on it is replaced by a directory, so the listing
  -- that is looked up first has changed under one name only.
  induction d generalizing l fault p with
  | nil =>
    obtain ⟨rfl, rfl⟩ : l = k ∧ fault = fault' := by simpa using hd
    cases p with
    | nil => simp [Entry.shallow]
    | cons m p =>
      rw [List.nil_append, setAt, Entry.entryAt?_cons, Entry.entryAt?_cons, Entry.lookup?, Entry.lookup?,
        lookup_setNamed]
      by_cases hm : m = n
      · subst hm
        rw [if_pos rfl, Option.bind_some]
        cases p with
        | nil => simp [Entry.shallow]
        | cons x p =>
          -- Neither the file nor what stood in its place has anything below it.
          have hnone : (l.lookup m).bind (fun f => f.entryAt? (x :: p)) = none := by
            cases hold : l.lookup m with
            | none => rfl
            | some e => cases e <;> first | rfl | cases hn _ hold
          rw [hnone]
          simp [Entry.lookup?]
      · rw [if_neg hm, if_neg (by simp [hm])]
  | cons m d ih =>
    cases hm : l.lookup m with
    | none => simp [Entry.lookup?, hm] at hd
    | some e =>
      have hbelow : e.entryAt? d = some (.directory k fault') := by simpa [Entry.lookup?, hm] using hd
      obtain ⟨inner, innerFault, rfl⟩ := Entry.exists_directory (Entry.isDirectory_of_entryAt? hbelow)
      rw [List.cons_append, setAt_cons _ _ (by simp), hm]
      cases p with
      | nil => simp [Entry.shallow]
      | cons x p =>
        rw [Entry.entryAt?_cons, Entry.entryAt?_cons, Entry.lookup?, Entry.lookup?, lookup_setNamed]
        by_cases hx : x = m
        · subst hx
          rw [if_pos rfl, hm, Option.bind_some, Option.bind_some, ih hbelow p]
          simp
        · rw [if_neg hx, if_neg (by simp [hx])]

namespace FileSystem

def entryAt? (fs : FileSystem) (p : RealPath) : Option Entry := fs.top.entry.entryAt? p

section

variable {fs : FileSystem} {s : Standing} {l : Listing} {fault : Option IoError}

/-- What stands in a snapshot is found at its real path. -/
theorem Placed.entryAt?_eq (h : Placed fs s) : fs.entryAt? s.realPath = some s.entry := by
  induction h with
  | top => rfl
  | child h hparent hn ih =>
    rw [realPath_child, entryAt?, Entry.entryAt?_concat]
    rw [entryAt?] at ih
    rw [ih, Option.bind_some, hparent]
    exact hn

theorem Placed.entryAt?_concat (h : Placed fs s) (hs : s.entry = .directory l fault) (n : FileName) :
    fs.entryAt? (s.realPath ++ [n]) = l.lookup n := by
  have hhere := h.entryAt?_eq
  rw [entryAt?] at hhere
  rw [entryAt?, Entry.entryAt?_concat, hhere, Option.bind_some, hs]
  rfl

end

/-! ### A snapshot before and after -/

/-- A snapshot `fs`, and the same snapshot `fs'` after some bytes have been written to the file at a real
path. -/
structure Wrote (fs : FileSystem) (r : RealPath) (bytes : List UInt8) (fs' : FileSystem) : Prop where
  current_eq : fs'.current = fs.current
  entryAt?_eq : ∀ p, (fs'.entryAt? p).map Entry.shallow =
    if p = r then some (.file (.ok bytes)) else (fs.entryAt? p).map Entry.shallow
  /-- Nothing but a file has been written over. -/
  isFile_of_entryAt? : ∀ e, fs.entryAt? r = some e → e.isFile = true

theorem wrote_set {fs : FileSystem} {s : Standing} {l : Listing} {fault : Option IoError} {n : FileName}
    (h : Placed fs s) (hs : s.entry = .directory l fault) (hn : ∀ e, l.lookup n = some e → e.isFile = true)
    (bytes : List UInt8) :
    Wrote fs (s.realPath ++ [n]) bytes (fs.set (s.realPath ++ [n]) (.file (.ok bytes))) where
  current_eq := rfl
  entryAt?_eq := shallow_entryAt?_setAt (hs ▸ h.entryAt?_eq) hn
  isFile_of_entryAt? := by
    rw [h.entryAt?_concat hs]
    exact hn

/-- Where an arrival leads after a file has been written at `r`: to the same place, and to the new file if
this place was vacant. -/
inductive Carries (fs' : FileSystem) (r : RealPath) :
    Except IoError Arrival → Except IoError Arrival → Prop where
  | reached {s s' : Standing} (h' : Placed fs' s') (hreal : s'.realPath = s.realPath) :
    Carries fs' r (.ok (.reached s)) (.ok (.reached s'))
  | filled {d s' : Standing} {n : FileName} (hplace : d.realPath ++ [n] = r) (h' : Placed fs' s')
    (hreal : s'.realPath = r) : Carries fs' r (.ok (.vacant d n)) (.ok (.reached s'))
  | vacant {d d' : Standing} {n : FileName} (hplace : d.realPath ++ [n] ≠ r)
    (hreal : d'.realPath = d.realPath) : Carries fs' r (.ok (.vacant d n)) (.ok (.vacant d' n))
  | error {e e' : IoError} : Carries fs' r (.error e) (.error e')

section

variable {fs fs' : FileSystem} {r : RealPath} {bytes : List UInt8} {room : Option Nat}
  {s s' : Standing} {l : Listing} {fault : Option IoError} {p : Path}

theorem realPath_parent (s : Standing) : s.parent.realPath = s.realPath.dropLast := by
  obtain ⟨e, above⟩ := s
  cases above <;> simp [Standing.parent, Standing.realPath]

/-- Only a directory can be passed. -/
theorem follow_of_not_directory (fs : FileSystem) (last : Bool) (room : Option Nat) (links : Nat)
    {s : Standing} (hs : s.entry.isDirectory = false) (n : FileName) (names : List FileName) :
    fs.follow last room links s (n :: names) = .error .notDirectory := by
  rw [follow]
  split
  · next hentry =>
    rw [hentry] at hs
    cases hs
  · rfl

theorem Wrote.shallow_entry (h : Wrote fs r bytes fs') (hs : Placed fs s) (hs' : Placed fs' s')
    (hreal : s'.realPath = s.realPath) :
    s'.entry.shallow = if s.realPath = r then .file (.ok bytes) else s.entry.shallow := by
  have hhere := h.entryAt?_eq s.realPath
  rw [hs.entryAt?_eq, ← hreal, hs'.entryAt?_eq, hreal] at hhere
  split
  · next hr =>
    rw [if_pos hr] at hhere
    exact Option.some.inj hhere
  · next hr =>
    rw [if_neg hr] at hhere
    exact Option.some.inj hhere

theorem Wrote.isFile_eq (h : Wrote fs r bytes fs') (hs : Placed fs s) (hs' : Placed fs' s')
    (hreal : s'.realPath = s.realPath) : s'.entry.isFile = s.entry.isFile := by
  rw [← Entry.isFile_shallow, h.shallow_entry hs hs' hreal]
  split
  · next hr => exact (h.isFile_of_entryAt? s.entry (hr ▸ hs.entryAt?_eq)).symm
  · exact Entry.isFile_shallow

theorem Wrote.isDirectory_eq (h : Wrote fs r bytes fs') (hs : Placed fs s) (hs' : Placed fs' s')
    (hreal : s'.realPath = s.realPath) : s'.entry.isDirectory = s.entry.isDirectory := by
  rw [← Entry.isDirectory_shallow, h.shallow_entry hs hs' hreal]
  split
  · next hr =>
    have hfile := h.isFile_of_entryAt? s.entry (hr ▸ hs.entryAt?_eq)
    cases he : s.entry <;> rw [he] at hfile <;> first | rfl | cases hfile
  · exact Entry.isDirectory_shallow

theorem Wrote.entry_eq (h : Wrote fs r bytes fs') (hs' : Placed fs' s') (hr : s'.realPath = r) :
    s'.entry = .file (.ok bytes) := by
  have hhere := h.entryAt?_eq s'.realPath
  rw [hs'.entryAt?_eq, if_pos hr] at hhere
  exact Entry.shallow_eq_file.mp (Option.some.inj hhere)

/-- A directory is still one, and its entries are what they were. -/
theorem Wrote.directory (h : Wrote fs r bytes fs') (hs : Placed fs s) (hs' : Placed fs' s')
    (hreal : s'.realPath = s.realPath) (hentry : s.entry = .directory l fault) :
    ∃ l', s'.entry = .directory l' fault ∧ ∀ n, (l'.lookup n).map Entry.shallow =
      if s.realPath ++ [n] = r then some (.file (.ok bytes)) else (l.lookup n).map Entry.shallow := by
  -- A directory is no file, so it does not stand where the file has been written.
  have hplace : s.realPath ≠ r := by
    intro hr
    have hfile := h.isFile_of_entryAt? s.entry (hr ▸ hs.entryAt?_eq)
    rw [hentry] at hfile
    cases hfile
  have hshallow := h.shallow_entry hs hs' hreal
  rw [if_neg hplace, hentry, Entry.shallow] at hshallow
  obtain ⟨l', hl'⟩ := Entry.exists_of_shallow_eq_directory hshallow
  refine ⟨l', hl', fun n => ?_⟩
  have hname := h.entryAt?_eq (s.realPath ++ [n])
  rwa [hs.entryAt?_concat hentry, ← hreal, hs'.entryAt?_concat hl', hreal] at hname

/-- A name that had an entry still has one, and links are the same. -/
theorem Wrote.exists_lookup (h : Wrote fs r bytes fs') (hs : Placed fs s) (hs' : Placed fs' s')
    (hreal : s'.realPath = s.realPath) (hentry : s.entry = .directory l fault) {n : FileName} {e : Entry}
    (hn : l.lookup n = some e) :
    ∃ l', s'.entry = .directory l' fault ∧ ∃ e', l'.lookup n = some e' ∧
      ∀ target, e' = .link target ↔ e = .link target := by
  obtain ⟨l', hentry', hnames⟩ := h.directory hs hs' hreal hentry
  have hname := hnames n
  rw [hn, Option.map_some] at hname
  refine ⟨l', hentry', ?_⟩
  split at hname
  · next hplace =>
    obtain ⟨e', he', hshallow⟩ := Option.map_eq_some_iff.mp hname
    obtain rfl := Entry.shallow_eq_file.mp hshallow
    have hfile := h.isFile_of_entryAt? e (by rw [← hplace, hs.entryAt?_concat hentry, hn])
    refine ⟨_, he', fun target => ⟨nofun, ?_⟩⟩
    rintro rfl
    cases hfile
  · obtain ⟨e', he', hshallow⟩ := Option.map_eq_some_iff.mp hname
    exact ⟨e', he', fun target => by
      rw [← Entry.shallow_eq_link, hshallow, Entry.shallow_eq_link]⟩

/-- A name that had no entry has one only if the file has been made under it. -/
theorem Wrote.lookup_of_none (h : Wrote fs r bytes fs') (hs : Placed fs s) (hs' : Placed fs' s')
    (hreal : s'.realPath = s.realPath) (hentry : s.entry = .directory l fault) {n : FileName}
    (hn : l.lookup n = none) :
    ∃ l', s'.entry = .directory l' fault ∧
      l'.lookup n = if s.realPath ++ [n] = r then some (.file (.ok bytes)) else none := by
  obtain ⟨l', hentry', hnames⟩ := h.directory hs hs' hreal hentry
  have hname := hnames n
  refine ⟨l', hentry', ?_⟩
  split at hname
  · next hplace =>
    obtain ⟨e, he, hshallow⟩ := Option.map_eq_some_iff.mp hname
    rw [if_pos hplace, he, Entry.shallow_eq_file.mp hshallow]
  · next hplace =>
    rw [hn, Option.map_none, Option.map_eq_none_iff] at hname
    rw [if_neg hplace, hname]

theorem refuses_iff (hreal : s'.realPath = s.realPath) (n : FileName) :
    s'.Refuses room n ↔ s.Refuses room n := by
  rw [Standing.Refuses, Standing.Refuses, hreal]

/-- A link is followed as it was. -/
theorem Wrote.follow_link (h : Wrote fs r bytes fs') (hs : Placed fs s) (hs' : Placed fs' s')
    (hreal : s'.realPath = s.realPath) (hentry : s.entry = .directory l fault) {n : FileName}
    {target : Path} (hdot : n ≠ [dot]) (hdots : n ≠ [dot, dot]) (hfits : ¬ s.Refuses room n)
    (hn : l.lookup n = some (.link target)) (last : Bool) (links : Nat) (names : List FileName) :
    Placed fs' (s'.child n (.link target)) ∧
      fs'.follow last room links s' (n :: names) =
        if names = [] ∧ ¬ last then .ok (.reached (s'.child n (.link target)))
        else
          match links with
          | 0 => .error .tooManyLinks
          | links + 1 =>
            fs'.follow last room links (if target.isAbsolute then fs'.top else s')
              (target.names ++ names) := by
  obtain ⟨l', hentry', e', he', hlink⟩ := h.exists_lookup hs hs' hreal hentry hn
  obtain rfl := (hlink target).mpr rfl
  have hfits' := (refuses_iff hreal n).not.mpr hfits
  have hname : fs'.follow last room links s' (n :: names) = _ := follow_name last hentry' hdot hdots hfits'
  rw [he'] at hname
  exact ⟨hs'.child hentry' he', hname⟩

/-- Names lead to the same place before and after, and to the new file where they led to its vacant
place. -/
theorem Wrote.carries_follow (h : Wrote fs r bytes fs') (last : Bool) (links : Nat)
    (names : List FileName) (hs : Placed fs s) (hs' : Placed fs' s')
    (hreal : s'.realPath = s.realPath) :
    Carries fs' r (fs.follow last room links s names) (fs'.follow last room links s' names) := by
  -- Both go through directories that stand under the same real paths, and only a name whose place is `r` can be
  -- looked up differently: there a file stands now, where a file or nothing stood before.
  fun_induction follow fs last room links s names generalizing s'
  case case1 =>
    rw [follow]
    exact .reached hs' hreal
  case case2 hentry ih =>
    obtain ⟨l', hentry', -⟩ := h.directory hs hs' hreal hentry
    rw [follow_here last hentry']
    exact ih hs hs' hreal
  case case3 hentry _ ih =>
    obtain ⟨l', hentry', -⟩ := h.directory hs hs' hreal hentry
    rw [follow_up last hentry']
    exact ih hs.parent hs'.parent (by rw [realPath_parent, realPath_parent, hreal])
  case case4 s n names l _ hentry hdot hdots hrefused =>
    obtain ⟨l', hentry', -⟩ := h.directory hs hs' hreal hentry
    rw [follow_refused last hentry' hdot hdots ((refuses_iff hreal n).mpr hrefused)]
    exact .error
  case case5 s n l _ hentry hdot hdots hfits hn =>
    obtain ⟨l', hentry', hname⟩ := h.lookup_of_none hs hs' hreal hentry hn
    have hfits' := (refuses_iff hreal n).not.mpr hfits
    by_cases hplace : s.realPath ++ [n] = r
    · rw [if_pos hplace] at hname
      rw [follow_child last hentry' hdot hdots hfits' hname (by simp), follow]
      exact .filled hplace (hs'.child hentry' hname) (by rw [realPath_child, hreal, hplace])
    · rw [if_neg hplace] at hname
      rw [follow_name last hentry' hdot hdots hfits', hname]
      exact .vacant hplace hreal
  case case6 s n names l _ hentry hdot hdots hfits hn hmore =>
    obtain ⟨l', hentry', hname⟩ := h.lookup_of_none hs hs' hreal hentry hn
    have hfits' := (refuses_iff hreal n).not.mpr hfits
    by_cases hplace : s.realPath ++ [n] = r
    · -- Nothing stands below the new file, so the failure is another one.
      rw [if_pos hplace] at hname
      obtain ⟨m, names, rfl⟩ := List.exists_cons_of_ne_nil hmore
      rw [follow_child last hentry' hdot hdots hfits' hname (by simp), follow_of_not_directory _ _ _ _ rfl]
      exact .error
    · rw [if_neg hplace] at hname
      rw [follow_name last hentry' hdot hdots hfits', hname]
      dsimp only
      rw [if_neg hmore]
      exact .error
  case case7 s n names l _ hentry hdot hdots hfits target hn hlast =>
    obtain ⟨hchild, hfollow⟩ := h.follow_link hs hs' hreal hentry hdot hdots hfits hn last _ names
    rw [hfollow, if_pos hlast]
    exact .reached hchild (by rw [realPath_child, realPath_child, hreal])
  case case8 s n names l _ hentry hdot hdots hfits target hn hlast =>
    obtain ⟨-, hfollow⟩ := h.follow_link hs hs' hreal hentry hdot hdots hfits hn last 0 names
    rw [hfollow, if_neg hlast]
    exact .error
  case case9 s n names l _ hentry hdot hdots hfits target hn hlast links ih =>
    obtain ⟨-, hfollow⟩ := h.follow_link hs hs' hreal hentry hdot hdots hfits hn last (links + 1) names
    rw [hfollow, if_neg hlast]
    dsimp only
    by_cases habs : target.isAbsolute = true
    · rw [if_pos habs, if_pos habs]
      rw [dif_pos habs] at ih
      exact ih .top .top rfl
    · rw [if_neg habs, if_neg habs]
      rw [dif_neg habs] at ih
      exact ih hs hs' hreal
  case case10 s n names l _ hentry hdot hdots hfits e hnot hn ih =>
    obtain ⟨l', hentry', e', he', hlink⟩ := h.exists_lookup hs hs' hreal hentry hn
    have hnot' (target : Path) : e' ≠ .link target := fun he => hnot target ((hlink target).mp he)
    rw [follow_child last hentry' hdot hdots ((refuses_iff hreal n).not.mpr hfits) he' hnot']
    exact ih (hs.child hentry hn) (hs'.child hentry' he') (by rw [realPath_child, realPath_child, hreal])
  case case11 s n names hnot =>
    have hdirectory : s'.entry.isDirectory = false := by
      rw [h.isDirectory_eq hs hs' hreal]
      cases he : s.entry with
      | directory l fault => exact absurd he (hnot l fault)
      | _ => rfl
    rw [follow_of_not_directory _ _ _ _ hdirectory]
    exact .error

/-! ### Paths before and after -/

/-- The current directory is there. -/
def HasCurrent (fs : FileSystem) : Prop :=
  ∃ s, fs.follow false none 0 fs.top fs.current = .ok (.reached s)

theorem Wrote.carries_current (h : Wrote fs r bytes fs') :
    Carries fs' r (fs.follow false none 0 fs.top fs.current)
      (fs'.follow false none 0 fs'.top fs'.current) := by
  rw [h.current_eq]
  exact h.carries_follow false 0 fs.current .top .top rfl

theorem Wrote.hasCurrent (h : Wrote fs r bytes fs') (hcurrent : fs.HasCurrent) : fs'.HasCurrent := by
  obtain ⟨s, hs⟩ := hcurrent
  have hcarries := h.carries_current
  rw [hs] at hcarries
  generalize ha : fs'.follow false none 0 fs'.top fs'.current = a at hcarries
  cases hcarries with
  | reached h' hreal => exact ⟨_, ha⟩

/-- A path starts at the same directory before and after. -/
theorem Wrote.realPath_start (h : Wrote fs r bytes fs') (hcurrent : fs.HasCurrent) (p : Path) :
    (fs'.start p).realPath = (fs.start p).realPath := by
  unfold start
  split
  · rfl
  · obtain ⟨s, hs⟩ := hcurrent
    have hcarries := h.carries_current
    unfold standingAt
    rw [hs] at hcarries ⊢
    generalize fs'.follow false none 0 fs'.top fs'.current = a at hcarries ⊢
    cases hcarries with
    | reached h' hreal => exact hreal

theorem Wrote.carries_arrive (h : Wrote fs r bytes fs') (hcurrent : fs.HasCurrent) (last : Bool)
    (p : Path) : Carries fs' r (fs.arrive last p) (fs'.arrive last p) := by
  unfold arrive
  split
  · exact .error
  · split
    · exact .error
    · split
      · exact .error
      · exact h.carries_follow last linkLimit p.names (placed_start fs p) (placed_start fs' p)
          (h.realPath_start hcurrent p)

/-- The real path of the file to which an arrival leads, be it that the file is only to be made. -/
def filePlace? : Except IoError Arrival → Option RealPath
  | .ok (.reached s) => if s.entry.isFile then some s.realPath else none
  | .ok (.vacant d n) => some (d.realPath ++ [n])
  | .error _ => none

/-- Whether a path leads to a file with a text. -/
def HoldsText (fs : FileSystem) (p : Path) (text : String) : Prop :=
  ∃ s, fs.stat p = .ok s ∧ s.entry = .file (.ok (Utf8.encode text))

theorem holdsText_iff_arrive {text : String} :
    fs.HoldsText p text ↔
      ∃ s, fs.arrive true p = .ok (.reached s) ∧ s.entry = .file (.ok (Utf8.encode text)) := by
  constructor
  · rintro ⟨s, hs, hentry⟩
    exact ⟨s, reached_of_entryOf hs, hentry⟩
  · rintro ⟨s, hs, hentry⟩
    exact ⟨s, by rw [stat, hs, entryOf], hentry⟩

theorem HoldsText.exists_filePlace? {text : String} (h : fs.HoldsText p text) :
    ∃ r, filePlace? (fs.arrive true p) = some r := by
  obtain ⟨s, hs, hentry⟩ := holdsText_iff_arrive.mp h
  rw [hs, filePlace?, hentry]
  exact ⟨s.realPath, rfl⟩

/-- A path leads to the same file before and after, be it that the file is made by this. -/
theorem Wrote.filePlace?_eq (h : Wrote fs r bytes fs') (hcurrent : fs.HasCurrent) (p : Path) :
    filePlace? (fs'.arrive true p) = filePlace? (fs.arrive true p) := by
  have hcarries := h.carries_arrive hcurrent true p
  generalize ha : fs.arrive true p = a at hcarries ⊢
  generalize fs'.arrive true p = a' at hcarries ⊢
  cases hcarries with
  | reached h' hreal => rw [filePlace?, filePlace?, h.isFile_eq (.of_arrive ha) h' hreal, hreal]
  | filled hplace h' hreal =>
    rw [filePlace?, filePlace?, h.entry_eq h' hreal, hplace, hreal]
    rfl
  | vacant hplace hreal => rw [filePlace?, filePlace?, hreal]
  | error => rfl

/-- The paths that lead to the file hold what has been written, and all others what they held. -/
theorem Wrote.holdsText_iff (h : Wrote fs r bytes fs') (hcurrent : fs.HasCurrent) (p : Path)
    (text : String) :
    fs'.HoldsText p text ↔ if filePlace? (fs.arrive true p) = some r then bytes = Utf8.encode text
      else fs.HoldsText p text := by
  have hcarries := h.carries_arrive hcurrent true p
  rw [holdsText_iff_arrive, holdsText_iff_arrive]
  generalize ha : fs.arrive true p = a at hcarries ⊢
  generalize fs'.arrive true p = a' at hcarries ⊢
  cases hcarries with
  | @reached s s' h' hreal =>
    have hs : Placed fs s := .of_arrive ha
    by_cases hr : s.realPath = r
    · have hfile := h.isFile_of_entryAt? s.entry (hr ▸ hs.entryAt?_eq)
      have hentry := h.entry_eq h' (hreal.trans hr)
      rw [filePlace?, if_pos hfile, if_pos (congrArg some hr)]
      simp [hentry]
    · have hplace : filePlace? (.ok (.reached s)) ≠ some r := by
        rw [filePlace?]
        split
        · exact fun he => hr (Option.some.inj he)
        · nofun
      have hshallow := h.shallow_entry hs h' hreal
      rw [if_neg hr] at hshallow
      have hentry (content : Except IoError (List UInt8)) :
          s'.entry = .file content ↔ s.entry = .file content := by
        rw [← Entry.shallow_eq_file, hshallow, Entry.shallow_eq_file]
      rw [if_neg hplace]
      simp [hentry]
  | filled hplace h' hreal =>
    have hentry := h.entry_eq h' hreal
    rw [filePlace?, if_pos (congrArg some hplace)]
    simp [hentry]
  | vacant hplace hreal =>
    rw [filePlace?, if_neg fun he => hplace (Option.some.inj he)]
    simp
  | error =>
    rw [filePlace?, if_neg nofun]
    simp

theorem withoutSolidus_of_getLast? (h : p.getLast? ≠ some solidus) : withoutSolidus p = p := by
  unfold withoutSolidus
  rw [← List.head?_reverse] at h
  cases hback : p.reverse with
  | nil => rfl
  | cons b back =>
    have hb : ¬ (b == solidus) = true := by simpa [hback] using h
    rw [List.dropWhile_cons_of_neg (p := (· == solidus)) hb]
    change (b :: back).reverse = p
    rw [← hback, List.reverse_reverse]

/-- The directory in which a name is vacant stands in the snapshot. -/
theorem Placed.of_follow_vacant {last : Bool} {links : Nat} {names : List FileName} {d : Standing}
    {n : FileName} (hs : Placed fs s) (h : fs.follow last room links s names = .ok (.vacant d n)) :
    Placed fs d ∧ ∃ l fault, d.entry = .directory l fault ∧ l.lookup n = none := by
  fun_induction follow fs last room links s names
  case case2 ih => exact ih hs h
  case case3 ih => exact ih hs.parent h
  case case5 hentry _ _ _ hn =>
    obtain ⟨rfl, rfl⟩ := Arrival.vacant.inj (Except.ok.inj h)
    exact ⟨hs, _, _, hentry, hn⟩
  case case9 target _ _ _ ih =>
    refine ih ?_ h
    by_cases habs : target.isAbsolute = true
    · simpa [habs] using Placed.top
    · simpa [habs] using hs
  case case10 hentry _ _ _ _ _ hn ih => exact ih (hs.child hentry hn) h
  all_goals cases h

theorem Placed.of_arrive_vacant {last : Bool} {d : Standing} {n : FileName}
    (h : fs.arrive last p = .ok (.vacant d n)) :
    Placed fs d ∧ ∃ l fault, d.entry = .directory l fault ∧ l.lookup n = none := by
  unfold arrive at h
  split at h
  · cases h
  · split at h
    · cases h
    · split at h
      · cases h
      · exact (placed_start fs p).of_follow_vacant h

/-- The place of a file that is written is in a directory, under the name of a file or one that is vacant. -/
theorem wrote_of_filePlace? (hplace : filePlace? (fs.arrive true p) = some r) (bytes : List UInt8) :
    Wrote fs r bytes (fs.set r (.file (.ok bytes))) := by
  cases ha : fs.arrive true p with
  | error e =>
    rw [ha] at hplace
    cases hplace
  | ok a =>
    rw [ha] at hplace
    cases a with
    | vacant d n =>
      obtain rfl := Option.some.inj hplace
      obtain ⟨hd, l, fault, hentry, hn⟩ := Placed.of_arrive_vacant ha
      exact wrote_set hd hentry (fun e he => absurd (hn.symm.trans he) nofun) bytes
    | reached s =>
      have hs : Placed fs s := .of_arrive ha
      rw [filePlace?] at hplace
      split at hplace
      · next hfile =>
        obtain rfl := Option.some.inj hplace
        cases hs with
        | top => cases hfile
        | @child t n e l _ ht hparent hn =>
          rw [realPath_child]
          refine wrote_set ht hparent (fun e' he' => ?_) bytes
          obtain rfl := Option.some.inj (hn.symm.trans he')
          exact hfile
      · cases hplace

theorem getLast?_of_write (h : fs.write p bytes = .ok fs') : p.getLast? ≠ some solidus := by
  intro hlast
  unfold write at h
  cases ha : fs.arrive true (withoutSolidus p) with
  | error e => simp [ha, bind, Except.bind] at h
  | ok a => cases a <;> simp [ha, hlast, bind, Except.bind] at h

/-- What writing to a path does that does not end in a solidus. -/
theorem write_eq (hlast : p.getLast? ≠ some solidus) (bytes : List UInt8) :
    fs.write p bytes = (fs.arrive true p).bind fun
      | .vacant d n => .ok (fs.set (d.realPath ++ [n]) (.file (.ok bytes)))
      | .reached s =>
        match s.entry with
        | .directory _ _ => .error .isDirectory
        | .file _ => .ok (fs.set s.realPath (.file (.ok bytes)))
        | .special | .link _ => .ok fs := by
  unfold write
  rw [withoutSolidus_of_getLast? hlast]
  simp only [hlast, if_false]
  rfl

/-- A path that leads to a file, or to a directory in which the file is to be made, can be written. -/
theorem write_eq_ok (hplace : filePlace? (fs.arrive true p) = some r) (hlast : p.getLast? ≠ some solidus)
    (bytes : List UInt8) : fs.write p bytes = .ok (fs.set r (.file (.ok bytes))) := by
  rw [write_eq hlast]
  cases ha : fs.arrive true p with
  | error e =>
    rw [ha] at hplace
    cases hplace
  | ok a =>
    rw [ha] at hplace
    cases a with
    | vacant d n =>
      obtain rfl := Option.some.inj hplace
      rfl
    | reached s =>
      obtain ⟨e, above⟩ := s
      cases e with
      | file content =>
        obtain rfl := Option.some.inj hplace
        rfl
      | _ => cases hplace

/-- What is written to a special file is lost, and nothing else can be written but files. -/
theorem eq_of_write (hnone : filePlace? (fs.arrive true p) = none) (h : fs.write p bytes = .ok fs') :
    fs' = fs := by
  rw [write_eq (getLast?_of_write h)] at h
  cases ha : fs.arrive true p with
  | error e =>
    rw [ha] at h
    cases h
  | ok a =>
    rw [ha] at h hnone
    cases a with
    | vacant d n => cases hnone
    | reached s =>
      obtain ⟨e, above⟩ := s
      cases e with
      | directory l fault => cases h
      | file content => cases hnone
      | special => exact (Except.ok.inj h).symm
      | link target => exact (Except.ok.inj h).symm

/-- A file that is written is found at the real path to which its path leads. Otherwise nothing changes. -/
theorem wrote_of_write (h : fs.write p bytes = .ok fs') :
    (∃ r, filePlace? (fs.arrive true p) = some r ∧ Wrote fs r bytes fs') ∨
      filePlace? (fs.arrive true p) = none ∧ fs' = fs := by
  cases hplace : filePlace? (fs.arrive true p) with
  | none => exact Or.inr ⟨rfl, eq_of_write hplace h⟩
  | some r =>
    rw [write_eq_ok hplace (getLast?_of_write h)] at h
    obtain rfl := Except.ok.inj h
    exact Or.inl ⟨r, rfl, wrote_of_filePlace? hplace bytes⟩

/-- A path leads to a directory after a file has been written if it did before. -/
theorem Wrote.isDirectory_path (h : Wrote fs r bytes fs') (hcurrent : fs.HasCurrent) (p : Path) :
    fs'.isDirectory p = fs.isDirectory p := by
  have hcarries := h.carries_arrive hcurrent true p
  unfold isDirectory stat
  generalize ha : fs.arrive true p = a at hcarries ⊢
  generalize fs'.arrive true p = a' at hcarries ⊢
  cases hcarries with
  | reached h' hreal => exact h.isDirectory_eq (.of_arrive ha) h' hreal
  | filled hplace h' hreal =>
    dsimp only [entryOf]
    rw [h.entry_eq h' hreal]
    rfl
  | vacant hplace hreal => rfl
  | error => rfl

end

end FileSystem

end RepoSurvey
