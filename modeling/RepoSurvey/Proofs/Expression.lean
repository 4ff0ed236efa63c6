import Mathlib
import RepoSurvey.Proofs.Preference
import RepoSurvey.Text.Blank

/-!
Regular expressions and the successive places where they match a text, said without a matcher. A
search takes the first place at which an expression matches at all, and there the preferred way; the
next search begins where the match ends. Searching for the rows of an expression finds these matches.
-/

namespace RepoSurvey.Pattern

/-! ### Expressions -/

/-- A class of characters. -/
inductive CharClass where
  | char (c : Char)
  | either (a b : Char)
  | blank
  /-- All characters but the line feed. -/
  | sameLine

def CharClass.has : CharClass → Char → Bool
  | char a, c => c == a
  | either a b, c => c == a || c == b
  | blank, c => isBlank c
  | sameLine, c => c != '\n'

inductive Item where
  | one (k : CharClass)
  /-- At least one character, as many as possible. -/
  | oneOrMore (k : CharClass)
  /-- Any number of characters, as few as possible. -/
  | few (k : CharClass)

/-- A part of a branch: an item, or a group of items that captures what they take. -/
inductive Part where
  | item (i : Item)
  | group (items : List Item)

abbrev Branch := List Part

/-- Branches of which an earlier one is preferred to a later one. -/
abbrev Expression := List Branch

/-! ### What an expression takes -/

/-- An item takes some characters with some choices: how many more than one, or how many. -/
inductive Item.Takes : Item → List Char → List Choice → Prop where
  | one {k : CharClass} {c : Char} (h : k.has c) : Takes (.one k) [c] []
  | oneOrMore {k : CharClass} {c : Char} {cs : List Char} (h : ∀ d ∈ c :: cs, k.has d) :
      Takes (.oneOrMore k) (c :: cs) [.most cs.length]
  | few {k : CharClass} {cs : List Char} (h : ∀ d ∈ cs, k.has d) :
      Takes (.few k) cs [.fewest cs.length]

inductive TakesAll : List Item → List Char → List Choice → Prop where
  | nil : TakesAll [] [] []
  | cons {i : Item} {is : List Item} {cs ds : List Char} {xs ys : List Choice} (h : i.Takes cs xs)
      (hrest : TakesAll is ds ys) : TakesAll (i :: is) (cs ++ ds) (xs ++ ys)

/-- What a branch takes, with what its groups capture. -/
inductive Branch.Takes : Branch → List Char → List Choice → List (List Char) → Prop where
  | nil : Takes [] [] [] []
  | item {i : Item} {ps : Branch} {cs ds : List Char} {xs ys : List Choice}
      {captured : List (List Char)} (h : i.Takes cs xs) (hrest : Takes ps ds ys captured) :
      Takes (.item i :: ps) (cs ++ ds) (xs ++ ys) captured
  | group {is : List Item} {ps : Branch} {cs ds : List Char} {xs ys : List Choice}
      {captured : List (List Char)} (h : TakesAll is cs xs) (hrest : Takes ps ds ys captured) :
      Takes (.group is :: ps) (cs ++ ds) (xs ++ ys) (cs :: captured)

/-- What was found at a place of a text. -/
structure Found where
  taken : List Char
  captured : List (List Char)

namespace Expression

/-- An expression matches the head of a text with some choices, the first of which is the branch. -/
def Matches (e : Expression) (cs : List Char) (xs : List Choice) (r : Found) : Prop :=
  ∃ i b ys rest, e[i]? = some b ∧ xs = .fewest i :: ys ∧ cs = r.taken ++ rest ∧
    Branch.Takes b r.taken ys r.captured

def MatchesAt (e : Expression) (cs : List Char) : Prop := ∃ xs r, e.Matches cs xs r

/-- The matches that follow each other in a text. No place before a match has one, and at its place it
is the preferred one. -/
inductive Successive (e : Expression) : List Char → List Found → Prop where
  | done {text : List Char} (h : ∀ skipped rest, text = skipped ++ rest → ¬ e.MatchesAt rest) :
      Successive e text []
  | found {text skipped rest : List Char} {r : Found} {rs : List Found}
      (htext : text = skipped ++ (r.taken ++ rest))
      (hskipped : ∀ earlier later, skipped = earlier ++ later → later ≠ [] →
        ¬ e.MatchesAt (later ++ (r.taken ++ rest)))
      (h : IsPreferred (e.Matches (r.taken ++ rest)) (some r))
      (hrest : Successive e rest rs) : Successive e text (r :: rs)

end Expression

/-! ### Rows of pieces -/

def Item.row : Item → List Piece
  | one k => [.one k.has]
  | oneOrMore k => [.one k.has, .many true k.has]
  | few k => [.many false k.has]

def Part.row : Part → List Piece
  | item i => i.row
  | group is => .mark :: is.flatMap Item.row ++ [.mark]

def Branch.row (b : Branch) : List Piece := b.flatMap Part.row

theorem Branch.row_item (i : Item) (b : Branch) : row (.item i :: b) = i.row ++ b.row := rfl

theorem Branch.row_group (is : List Item) (b : Branch) :
    row (.group is :: b) = .mark :: (is.flatMap Item.row ++ .mark :: b.row) := by
  simp [row, Part.row]

variable {ps : List Piece} {cs : List Char} {xs : List Choice} {m : Match}

theorem goes_item (i : Item) : Goes (i.row ++ ps) cs xs m ↔
    ∃ taken rest ys zs, cs = taken ++ rest ∧ xs = ys ++ zs ∧ i.Takes taken ys ∧
      Goes ps rest zs m := by
  cases i with
  | one k =>
    constructor
    · rintro ⟨c, rest, rfl, hc, hrest⟩
      exact ⟨[c], rest, [], xs, rfl, rfl, .one hc, hrest⟩
    · rintro ⟨_, rest, _, zs, rfl, rfl, htakes, hrest⟩
      cases htakes with
      | one hc => exact ⟨_, rest, rfl, hc, hrest⟩
  | oneOrMore k =>
    constructor
    · rintro ⟨c, _, rfl, hc, taken, rest, zs, rfl, hall, rfl, hrest⟩
      exact ⟨c :: taken, rest, _, zs, rfl, rfl,
        .oneOrMore (List.forall_mem_cons.mpr ⟨hc, hall⟩), hrest⟩
    · rintro ⟨_, rest, _, zs, rfl, rfl, htakes, hrest⟩
      cases htakes with
      | oneOrMore hall =>
        obtain ⟨hc, hall⟩ := List.forall_mem_cons.mp hall
        exact ⟨_, _, rfl, hc, _, rest, zs, rfl, hall, rfl, hrest⟩
  | few k =>
    constructor
    · rintro ⟨taken, rest, zs, rfl, hall, rfl, hrest⟩
      exact ⟨taken, rest, _, zs, rfl, rfl, .few hall, hrest⟩
    · rintro ⟨taken, rest, _, zs, rfl, rfl, htakes, hrest⟩
      cases htakes with
      | few hall => exact ⟨taken, rest, zs, rfl, hall, rfl, hrest⟩

theorem goes_items (is : List Item) : Goes (is.flatMap Item.row ++ ps) cs xs m ↔
    ∃ taken rest ys zs, cs = taken ++ rest ∧ xs = ys ++ zs ∧ TakesAll is taken ys ∧
      Goes ps rest zs m := by
  induction is generalizing cs xs with
  | nil =>
    constructor
    · exact fun h => ⟨[], cs, [], xs, rfl, rfl, .nil, h⟩
    · rintro ⟨_, rest, _, zs, rfl, rfl, ⟨⟩, hrest⟩
      exact hrest
  | cons i is ih =>
    rw [List.flatMap_cons, List.append_assoc, goes_item]
    constructor
    · rintro ⟨taken, _, ys, _, rfl, rfl, hi, hrest⟩
      obtain ⟨taken', rest, ys', zs, rfl, rfl, his, hrest⟩ := ih.mp hrest
      exact ⟨taken ++ taken', rest, ys ++ ys', zs, by simp, by simp, .cons hi his, hrest⟩
    · rintro ⟨_, rest, _, zs, rfl, rfl, his, hrest⟩
      cases his with
      | @cons _ _ taken taken' ys ys' hi his =>
        exact ⟨taken, taken' ++ rest, ys, ys' ++ zs, by simp, by simp, hi,
          ih.mpr ⟨taken', rest, ys', zs, rfl, rfl, his, hrest⟩⟩

/-- The parts of a text between the marked places, two by two. -/
def cuts (text : List Char) : List Nat → List (List Char)
  | a :: b :: rest => text.extract (text.length - a) (text.length - b) :: cuts text rest
  | _ => []

theorem extract_append_append (before taken rest : List Char) :
    (before ++ (taken ++ rest)).extract
      ((before ++ (taken ++ rest)).length - (taken ++ rest).length)
      ((before ++ (taken ++ rest)).length - rest.length) = taken := by
  have hstart : (before ++ (taken ++ rest)).length - (taken ++ rest).length = before.length := by
    simp
  have hstop : (before ++ (taken ++ rest)).length - rest.length =
      before.length + taken.length := by
    simp only [List.length_append]
    omega
  rw [hstart, hstop, List.extract_eq_take_drop, List.drop_left, Nat.add_sub_cancel_left,
    List.take_left]

/-- A way through the row of a branch takes what the branch takes, and the marks are set around what is
captured. -/
theorem takes_of_goes {b : Branch} (h : Goes b.row cs xs m) :
    ∃ taken rest captured, cs = taken ++ rest ∧ b.Takes taken xs captured ∧
      m.stop = rest.length ∧ ∀ before, cuts (before ++ cs) m.marks = captured := by
  induction b generalizing cs xs m with
  | nil =>
    obtain ⟨rfl, rfl⟩ := h
    exact ⟨[], cs, [], rfl, .nil, rfl, fun _ => rfl⟩
  | cons p b ih =>
    cases p with
    | item i =>
      rw [Branch.row_item] at h
      obtain ⟨taken, _, ys, zs, rfl, rfl, hi, hrest⟩ := (goes_item i).mp h
      obtain ⟨taken', rest, captured, rfl, hb, hstop, hcuts⟩ := ih hrest
      refine ⟨taken ++ taken', rest, captured, by simp, .item hi hb, hstop, fun before => ?_⟩
      rw [← List.append_assoc]
      exact hcuts (before ++ taken)
    | group is =>
      rw [Branch.row_group] at h
      obtain ⟨m, hitems, rfl⟩ := h
      obtain ⟨taken, _, ys, zs, rfl, rfl, his, m, hrest, rfl⟩ := (goes_items is).mp hitems
      obtain ⟨taken', rest, captured, rfl, hb, hstop, hcuts⟩ := ih hrest
      refine ⟨taken ++ taken', rest, taken :: captured, by simp, .group his hb, hstop,
        fun before => ?_⟩
      have hmore := hcuts (before ++ taken)
      rw [List.append_assoc] at hmore
      rw [Match.withMark, Match.withMark, cuts, extract_append_append, hmore]

theorem goes_of_takes {b : Branch} {taken : List Char} {captured : List (List Char)}
    (h : b.Takes taken xs captured) (rest : List Char) :
    ∃ m, Goes b.row (taken ++ rest) xs m ∧ m.stop = rest.length ∧
      ∀ before, cuts (before ++ (taken ++ rest)) m.marks = captured := by
  induction h with
  | nil => exact ⟨⟨[], rest.length⟩, ⟨rfl, rfl⟩, rfl, fun _ => rfl⟩
  | @item i b cs ds xs ys captured hi _ ih =>
    obtain ⟨m, hm, hstop, hcuts⟩ := ih
    rw [Branch.row_item, List.append_assoc]
    refine ⟨m, (goes_item i).mpr ⟨cs, ds ++ rest, xs, ys, rfl, rfl, hi, hm⟩, hstop,
      fun before => ?_⟩
    rw [← List.append_assoc]
    exact hcuts (before ++ cs)
  | @group is b cs ds xs ys captured his _ ih =>
    obtain ⟨m, hm, hstop, hcuts⟩ := ih
    refine ⟨(m.withMark (ds ++ rest).length).withMark (cs ++ (ds ++ rest)).length, ?_, hstop,
      fun before => ?_⟩
    · rw [Branch.row_group, List.append_assoc]
      exact ⟨_, (goes_items is).mpr ⟨cs, ds ++ rest, xs, ys, rfl, rfl, his, m, hm, rfl⟩, rfl⟩
    · have hmore := hcuts (before ++ cs)
      rw [List.append_assoc] at hmore
      rw [Match.withMark, Match.withMark, List.append_assoc, cuts, extract_append_append, hmore]

/-! ### The preferred match -/

/-- What a match of pieces at the head of a text takes and captures. -/
def Match.found (cs : List Char) (m : Match) : Found :=
  ⟨cs.take (cs.length - m.stop), cuts cs m.marks⟩

theorem Match.found_eq {taken rest : List Char} {captured : List (List Char)}
    (hstop : m.stop = rest.length)
    (hcuts : ∀ before, cuts (before ++ (taken ++ rest)) m.marks = captured) :
    m.found (taken ++ rest) = ⟨taken, captured⟩ := by
  have htake : (taken ++ rest).take ((taken ++ rest).length - m.stop) = taken := by
    rw [hstop, List.length_append, Nat.add_sub_cancel, List.take_left]
  rw [found, htake]
  exact congrArg (Found.mk taken) (hcuts [])

theorem isPreferred_branch (b : Branch) (cs : List Char) :
    IsPreferred (fun xs r => ∃ rest, cs = r.taken ++ rest ∧ b.Takes r.taken xs r.captured)
      ((first? b.row cs).map (Match.found cs)) := by
  have hmap := (isPreferred_first? b.row cs).map (Match.found cs) fun _ _ => id
  refine hmap.of_iff fun xs r => ⟨?_, ?_⟩
  · rintro ⟨_, m, rfl, rfl, hgoes⟩
    obtain ⟨taken, rest, captured, rfl, htakes, hstop, hcuts⟩ := takes_of_goes hgoes
    rw [Match.found_eq hstop hcuts]
    exact ⟨rest, rfl, htakes⟩
  · rintro ⟨rest, rfl, htakes⟩
    obtain ⟨m, hgoes, hstop, hcuts⟩ := goes_of_takes htakes rest
    exact ⟨xs, m, rfl, (Match.found_eq hstop hcuts).symm, hgoes⟩

namespace Expression

variable {e : Expression}

/-- The match of the first branch that has one. -/
def match? (e : Expression) (cs : List Char) : Option Match :=
  e.findSome? fun b => first? b.row cs

theorem match?_cons (b : Branch) (e : Expression) (cs : List Char) :
    match? (b :: e) cs = (first? b.row cs).or (match? e cs) := by
  unfold match?
  rw [List.findSome?_cons]
  cases first? b.row cs <;> rfl

theorem isPreferred_match? (e : Expression) (cs : List Char) :
    IsPreferred (e.Matches cs) ((e.match? cs).map (Match.found cs)) := by
  induction e with
  | nil =>
    rintro xs r ⟨i, b, ys, rest, hb, -⟩
    simp at hb
  | cons b e ih =>
    have hfirst := (isPreferred_branch b cs).cons (.fewest 0)
    have hlater := ih.map id fun _ _ => Earlier.modifyHead_more
    rw [Option.map_id, id] at hlater
    rw [match?_cons, Option.map_or]
    refine (hfirst.or hlater ?_).of_iff fun xs r => ?_
    · rintro _ _ _ _ ⟨ys, rfl, -⟩ ⟨_, _, rfl, rfl, i, b, zs, rest, -, rfl, -⟩
      exact .rel (.fewest (Nat.zero_lt_succ i))
    · constructor
      · rintro (⟨ys, rfl, rest, hcs, htakes⟩ |
          ⟨_, _, rfl, rfl, i, b', ys, rest, hb', rfl, hcs, htakes⟩)
        · exact ⟨0, b, ys, rest, rfl, rfl, hcs, htakes⟩
        · exact ⟨i + 1, b', ys, rest, hb', rfl, hcs, htakes⟩
      · rintro ⟨i, b', ys, rest, hb', rfl, hcs, htakes⟩
        cases i with
        | zero =>
          obtain rfl : b = b' := by simpa using hb'
          exact .inl ⟨ys, rfl, rest, hcs, htakes⟩
        | succ i => exact .inr ⟨_, r, rfl, rfl, i, b', ys, rest, hb', rfl, hcs, htakes⟩

end Expression

/-! ### One match for each choice -/

variable {ds cs' ds' : List Char} {ys xs' ys' : List Choice}

theorem Item.Takes.unique {i : Item} (h : i.Takes cs xs) (h' : i.Takes cs' xs')
    (hcs : cs ++ ds = cs' ++ ds') (hxs : xs ++ ys = xs' ++ ys') :
    (cs = cs' ∧ ds = ds') ∧ xs = xs' ∧ ys = ys' := by
  have hlength : cs.length = cs'.length ∧ xs.length = xs'.length := by
    cases h <;> cases h' <;> simp_all
  exact ⟨List.append_inj hcs hlength.1, List.append_inj hxs hlength.2⟩

theorem TakesAll.unique {is : List Item} (h : TakesAll is cs xs) (h' : TakesAll is cs' xs')
    (hcs : cs ++ ds = cs' ++ ds') (hxs : xs ++ ys = xs' ++ ys') :
    (cs = cs' ∧ ds = ds') ∧ xs = xs' ∧ ys = ys' := by
  induction h generalizing cs' xs' ds ds' ys ys' with
  | nil =>
    cases h'
    exact ⟨⟨rfl, hcs⟩, rfl, hxs⟩
  | cons hi _ ih =>
    cases h' with
    | cons hi' hrest' =>
      simp only [List.append_assoc] at hcs hxs
      obtain ⟨⟨rfl, hcs'⟩, rfl, hxs'⟩ := hi.unique hi' hcs hxs
      obtain ⟨⟨rfl, hds⟩, rfl, hys⟩ := ih hrest' hcs' hxs'
      exact ⟨⟨rfl, hds⟩, rfl, hys⟩

theorem Branch.Takes.unique {b : Branch} {captured captured' : List (List Char)}
    (h : b.Takes cs xs captured) (h' : b.Takes cs' xs' captured') (hcs : cs ++ ds = cs' ++ ds')
    (hxs : xs ++ ys = xs' ++ ys') : cs = cs' ∧ captured = captured' := by
  induction h generalizing cs' xs' captured' with
  | nil =>
    cases h'
    exact ⟨rfl, rfl⟩
  | item hi _ ih =>
    cases h' with
    | item hi' hrest' =>
      simp only [List.append_assoc] at hcs hxs
      obtain ⟨⟨rfl, hcs'⟩, rfl, hxs'⟩ := hi.unique hi' hcs hxs
      obtain ⟨rfl, rfl⟩ := ih hrest' hcs' hxs'
      exact ⟨rfl, rfl⟩
  | group his _ ih =>
    cases h' with
    | group his' hrest' =>
      simp only [List.append_assoc] at hcs hxs
      obtain ⟨⟨rfl, hcs'⟩, rfl, hxs'⟩ := his.unique his' hcs hxs
      obtain ⟨rfl, rfl⟩ := ih hrest' hcs' hxs'
      exact ⟨rfl, rfl⟩

/-! ### How much is taken at least -/

def Item.least : Item → Nat
  | one _ | oneOrMore _ => 1
  | few _ => 0

def Part.least : Part → Nat
  | item i => i.least
  | group is => (is.map Item.least).sum

/-- How many characters a branch takes at least. -/
def Branch.least (b : Branch) : Nat := (b.map Part.least).sum

theorem Item.Takes.least_le {i : Item} (h : i.Takes cs xs) : i.least ≤ cs.length := by
  cases h <;> simp [least]

theorem TakesAll.least_le {is : List Item} (h : TakesAll is cs xs) :
    (is.map Item.least).sum ≤ cs.length := by
  induction h with
  | nil => rfl
  | cons hi _ ih =>
    rw [List.map_cons, List.sum_cons, List.length_append]
    exact Nat.add_le_add hi.least_le ih

theorem Branch.Takes.least_le {b : Branch} {captured : List (List Char)}
    (h : b.Takes cs xs captured) : b.least ≤ cs.length := by
  induction h with
  | nil => rfl
  | item hi _ ih =>
    rw [least, List.map_cons, List.sum_cons, List.length_append]
    exact Nat.add_le_add hi.least_le ih
  | group his _ ih =>
    rw [least, List.map_cons, List.sum_cons, List.length_append]
    exact Nat.add_le_add his.least_le ih

/-! ### Successive matches -/

namespace Expression

variable {e : Expression} {text : List Char} {r r' : Found} {rs rs' : List Found}

theorem Matches.unique (h : e.Matches cs xs r) (h' : e.Matches cs xs r') : r = r' := by
  obtain ⟨i, b, ys, rest, hb, rfl, hcs, htakes⟩ := h
  obtain ⟨i', b', ys', rest', hb', hxs, hcs', htakes'⟩ := h'
  obtain ⟨hi, rfl⟩ := List.cons.inj hxs
  obtain rfl : i = i' := Choice.fewest.inj hi
  obtain rfl : b = b' := Option.some.inj (hb.symm.trans hb')
  obtain ⟨htaken, hcaptured⟩ := htakes.unique htakes' (hcs.symm.trans hcs') (rfl : ys ++ [] = ys ++ [])
  cases r
  cases r'
  exact Found.mk.injEq .. ▸ ⟨htaken, hcaptured⟩

theorem Matches.least_le {k : Nat} (hk : ∀ b ∈ e, k ≤ b.least) (h : e.Matches cs xs r) :
    k ≤ r.taken.length := by
  obtain ⟨i, b, ys, rest, hb, -, -, htakes⟩ := h
  exact Nat.le_trans (hk b (List.mem_of_getElem? hb)) htakes.least_le

theorem matchesAt_of_isPreferred (h : IsPreferred (e.Matches cs) (some r)) : e.MatchesAt cs := by
  obtain ⟨xs, hxs, -⟩ := h
  exact ⟨xs, r, hxs⟩

/-- There is one list of successive matches. -/
theorem Successive.unique (h : e.Successive text rs) (h' : e.Successive text rs') : rs = rs' := by
  induction h generalizing rs' with
  | done hnone =>
    cases h' with
    | done => rfl
    | found htext _ hpref _ => exact absurd (matchesAt_of_isPreferred hpref) (hnone _ _ htext)
  | @found text skipped rest r rs htext hskipped hpref hrest ih =>
    cases h' with
    | done hnone => exact absurd (matchesAt_of_isPreferred hpref) (hnone _ _ htext)
    | @found _ skipped' rest' r' rs' htext' hskipped' hpref' hrest' =>
      -- Neither of the two places can lie before the other.
      have hplace : skipped = skipped' ∧ r.taken ++ rest = r'.taken ++ rest' := by
        rcases List.append_eq_append_iff.mp (htext.symm.trans htext') with
          ⟨later, hsplit, heq⟩ | ⟨later, hsplit, heq⟩
        · by_cases hlater : later = []
          · subst hlater
            exact ⟨by simpa using hsplit.symm, by simpa using heq⟩
          · exact absurd (heq ▸ matchesAt_of_isPreferred hpref)
              (hskipped' skipped later hsplit hlater)
        · by_cases hlater : later = []
          · subst hlater
            exact ⟨by simpa using hsplit, by simpa using heq.symm⟩
          · exact absurd (heq ▸ matchesAt_of_isPreferred hpref')
              (hskipped skipped' later hsplit hlater)
      obtain ⟨rfl, hcs⟩ := hplace
      rw [← hcs] at hpref'
      obtain rfl : r = r' :=
        Option.some.inj (hpref.unique hpref' fun xs a b ha hb => ha.unique hb)
      rw [ih (List.append_cancel_left hcs ▸ hrest')]

theorem Successive.mul_length_le {k : Nat} (hk : ∀ b ∈ e, k ≤ b.least)
    (h : e.Successive text rs) : k * rs.length ≤ text.length := by
  induction h with
  | done => simp
  | found htext _ hpref _ ih =>
    obtain ⟨xs, hxs, -⟩ := hpref
    have htaken := hxs.least_le hk
    simp only [htext, List.length_append, List.length_cons, Nat.mul_succ]
    omega

/-- A place without a match is passed over. -/
theorem Successive.pass {c : Char} (h : e.Successive cs rs) (hnone : ¬ e.MatchesAt (c :: cs)) :
    e.Successive (c :: cs) rs := by
  cases h with
  | done h =>
    refine .done fun skipped rest heq => ?_
    cases skipped with
    | nil => exact (List.nil_append rest ▸ heq) ▸ hnone
    | cons d skipped => exact h skipped rest (List.cons.inj heq).2
  | @found _ skipped rest r rs htext hskipped hpref hrest =>
    have htext' : c :: cs = (c :: skipped) ++ (r.taken ++ rest) := congrArg (c :: ·) htext
    refine .found htext' (fun earlier later heq hne => ?_)
      hpref hrest
    cases earlier with
    | nil =>
      rw [List.nil_append] at heq
      rw [← heq, List.cons_append, ← htext]
      exact hnone
    | cons d earlier => exact hskipped earlier later (List.cons.inj heq).2 hne

/-! ### The search -/

theorem findAll_eq (e : Expression) (text : List Char) :
    findAll (e.map Branch.row) text = successive 0 text.length ((suffixes text).map e.match?) := by
  have hlength : text.length + 1 = (suffixes text).length := by
    induction text with
    | nil => rfl
    | cons c text ih => rw [List.length_cons, ih]; rfl
  have hfound : (e.map Branch.row).foldr
      (fun ps others => List.zipWith Option.or (matchesOf ps text) others)
      (List.replicate (text.length + 1) none) = (suffixes text).map e.match? := by
    induction e with
    | nil => rw [List.map_nil, List.foldr_nil, hlength, ← List.map_const']; rfl
    | cons b e ih =>
      rw [List.map_cons, List.foldr_cons, ih, matchesOf_eq, List.zipWith_map, List.zipWith_self]
      exact List.map_congr_left fun cs _ => (match?_cons b e cs).symm
  exact congrArg (successive 0 text.length) hfound

/-- The places that a match takes are passed over. -/
theorem successive_append (f : List Char → Option Match) (taken rest : List Char) :
    successive taken.length (taken ++ rest).length ((suffixes (taken ++ rest)).map f) =
      successive 0 rest.length ((suffixes rest).map f) := by
  induction taken with
  | nil => rfl
  | cons c taken ih =>
    rw [List.length_cons, List.cons_append, suffixes, List.map_cons, successive, List.length_cons,
      Nat.add_sub_cancel]
    exact ih

theorem exists_found_of_match? (h : e.match? cs = some m) :
    ∃ r rest, cs = r.taken ++ rest ∧ IsPreferred (e.Matches cs) (some r) ∧ m.stop = rest.length ∧
      ∀ before, cuts (before ++ cs) m.marks = r.captured := by
  obtain ⟨b, -, hb⟩ := List.exists_of_findSome?_eq_some h
  have hfirst := isPreferred_first? b.row cs
  rw [hb] at hfirst
  obtain ⟨xs, hgoes, -⟩ := hfirst
  obtain ⟨taken, rest, captured, rfl, -, hstop, hcuts⟩ := takes_of_goes hgoes
  have hpref := e.isPreferred_match? (taken ++ rest)
  rw [h, Option.map_some, Match.found_eq hstop hcuts] at hpref
  exact ⟨⟨taken, captured⟩, rest, rfl, hpref, hstop, hcuts⟩

theorem exists_successive (hleast : ∀ b ∈ e, 1 ≤ b.least) (before cs : List Char) :
    ∃ rs, e.Successive cs rs ∧
      (successive 0 cs.length ((suffixes cs).map e.match?)).map
        (fun m => cuts (before ++ cs) m.marks) = rs.map Found.captured := by
  -- On what is left of the text, which is what follows a match or a place without one.
  induction hn : cs.length using Nat.strongRecOn generalizing before cs with
  | _ n ih =>
    cases hmatch : e.match? cs with
    | none =>
      have hpref := e.isPreferred_match? cs
      rw [hmatch] at hpref
      have hnone : ¬ e.MatchesAt cs := fun ⟨xs, r, hr⟩ => hpref xs r hr
      match cs with
      | [] =>
        refine ⟨[], .done fun skipped rest heq => ?_, by simp [suffixes, successive, hmatch]⟩
        rw [(List.append_eq_nil_iff.mp heq.symm).2]
        exact hnone
      | c :: cs =>
        obtain ⟨rs, hrs, hmap⟩ := ih cs.length (by simp [← hn]) (before ++ [c]) cs rfl
        refine ⟨rs, hrs.pass hnone, ?_⟩
        rw [List.append_assoc, List.singleton_append] at hmap
        rw [suffixes, List.map_cons, hmatch, successive, ← hn, List.length_cons,
          Nat.add_sub_cancel, hmap]
    | some m =>
      obtain ⟨r, rest, rfl, hpref, hstop, hcuts⟩ := exists_found_of_match? hmatch
      have htaken : 1 ≤ r.taken.length := by
        obtain ⟨xs, hxs, -⟩ := hpref
        exact hxs.least_le hleast
      obtain ⟨rs, hrs, hmap⟩ := ih rest.length (by simp [← hn]; omega) (before ++ r.taken) rest rfl
      refine ⟨r :: rs, .found (List.nil_append _).symm ?_ hpref hrs, ?_⟩
      · intro earlier later heq hne
        exact absurd (List.append_eq_nil_iff.mp heq.symm).2 hne
      · rw [List.append_assoc] at hmap
        obtain ⟨c, taken, hcons⟩ := List.exists_cons_of_length_pos htaken
        have hskip : n - m.stop - 1 = taken.length := by
          rw [← hn, hstop, hcons]
          simp only [List.length_append, List.length_cons]
          omega
        have hleft : n - 1 = (taken ++ rest).length := by
          rw [← hn, hcons]
          simp
        have hsplit : suffixes (r.taken ++ rest) =
            (r.taken ++ rest) :: suffixes (taken ++ rest) := by
          rw [hcons]
          rfl
        rw [hsplit, List.map_cons, hmatch, successive, hskip, hleft, successive_append,
          List.map_cons, hmap, hcuts, List.map_cons]

end Expression

end RepoSurvey.Pattern
