/-!
Search patterns: rows of pieces that a text has to go through, with choices of which the preferred
one counts, and the successive places where a text matches. The matches at all places of a text are
found in one pass from its end; `matchesOf_eq` says that the pass finds the preferred ones.
-/

namespace RepoSurvey.Pattern

/-- A piece of a pattern. -/
inductive Piece where
  | one (p : Char → Bool)
  /-- Any number of characters of a class, as many as possible if `greedy`, otherwise as few as
  possible. -/
  | many (greedy : Bool) (p : Char → Bool)
  /-- No character; the place is remembered. -/
  | mark

def literal (s : String) : List Piece := s.toList.map fun c => .one (· == c)

/-- A match: the places that were marked, and where it ends. Places are told by how much text is
left after them. -/
structure Match where
  marks : List Nat
  stop : Nat
  deriving Repr, DecidableEq

def Match.withMark (place : Nat) (m : Match) : Match := { m with marks := place :: m.marks }

/-- The preferred of all ways to match pieces at the head of a text. -/
def first? : List Piece → List Char → Option Match
  | [], cs => some ⟨[], cs.length⟩
  | .mark :: ps, cs => (first? ps cs).map (Match.withMark cs.length)
  | .one _ :: _, [] => none
  | .one p :: ps, c :: cs => if p c then first? ps cs else none
  | .many _ _ :: ps, [] => first? ps []
  | .many true p :: ps, c :: cs =>
    (if p c then first? (.many true p :: ps) cs else none).or (first? ps (c :: cs))
  | .many false p :: ps, c :: cs =>
    (first? ps (c :: cs)).or (if p c then first? (.many false p :: ps) cs else none)
termination_by ps cs => (ps.length, cs.length)

/-- The matches at the end of a text: of all the pieces, of all but the first, and so on. -/
def lastRow : List Piece → List (Option Match)
  | [] => [some ⟨[], 0⟩]
  | .mark :: ps =>
    let row := lastRow ps
    (row.head?.join.map (Match.withMark 0)) :: row
  | .one _ :: ps => none :: lastRow ps
  | .many _ _ :: ps =>
    let row := lastRow ps
    row.head?.join :: row

/-- The matches at a place of a text, from those one character later. `left` is how much text is
left, and `c` the character at the place. -/
def row (left : Nat) (c : Char) : List Piece → (later : List (Option Match)) → List (Option Match)
  | [], _ => [some ⟨[], left⟩]
  | .mark :: ps, later =>
    let r := row left c ps later.tail
    (r.head?.join.map (Match.withMark left)) :: r
  | .one p :: ps, later =>
    (if p c then later.tail.head?.join else none) :: row left c ps later.tail
  | .many greedy p :: ps, later =>
    let r := row left c ps later.tail
    let more := if p c then later.head?.join else none
    (if greedy then more.or r.head?.join else r.head?.join.or more) :: r

/-- The matches of the pieces, of all but the first, and so on, at the head of a text and at every
place after it, and how long the text is. -/
def rows (ps : List Piece) (cs : List Char) : List (List (Option Match)) × Nat :=
  cs.foldr
    (fun c (later, left) => (row (left + 1) c ps (later.headD []) :: later, left + 1))
    ([lastRow ps], 0)

/-- The preferred matches at the head of a text and at every place after it. -/
def matchesOf (ps : List Piece) (cs : List Char) : List (Option Match) :=
  (rows ps cs).1.map fun r => r.head?.join

/-- A list and what is left of it after one, two and more, down to none. -/
def suffixes {α : Type} : List α → List (List α)
  | [] => [[]]
  | a :: as => (a :: as) :: suffixes as

theorem head?_suffixes {α : Type} (as : List α) : (suffixes as).head? = some as := by
  cases as <;> rfl

theorem lastRow_eq (ps : List Piece) : lastRow ps = (suffixes ps).map (first? · []) := by
  induction ps with
  | nil => simp [lastRow, suffixes, first?]
  | cons p ps ih =>
    cases p <;> simp [lastRow, suffixes, first?, ih, head?_suffixes]

theorem row_eq (c : Char) (cs : List Char) (ps : List Piece) :
    row (cs.length + 1) c ps ((suffixes ps).map (first? · cs))
      = (suffixes ps).map (first? · (c :: cs)) := by
  induction ps with
  | nil => simp [row, suffixes, first?]
  | cons p ps ih =>
    cases p with
    | one p => simp [row, suffixes, first?, ih, head?_suffixes]
    | many greedy p => cases greedy <;> simp [row, suffixes, first?, ih, head?_suffixes]
    | mark => simp [row, suffixes, first?, ih, head?_suffixes]

theorem rows_eq (ps : List Piece) (cs : List Char) :
    rows ps cs = ((suffixes cs).map fun t => (suffixes ps).map (first? · t), cs.length) := by
  induction cs with
  | nil => simp [rows, lastRow_eq, suffixes]
  | cons c cs ih =>
    simp only [rows, List.foldr_cons] at ih ⊢
    rw [ih]
    simp [row_eq, suffixes, head?_suffixes]

/-- The pass from the end finds the preferred match at every place. -/
theorem matchesOf_eq (ps : List Piece) (cs : List Char) :
    matchesOf ps cs = (suffixes cs).map (first? ps) := by
  simp [matchesOf, rows_eq, Function.comp_def, head?_suffixes]

def Match.captured (text : Array Char) (m : Match) : List Char :=
  match m.marks with
  | a :: b :: _ => (text.extract (text.size - a) (text.size - b)).toList
  | _ => []

/-- The matches that follow each other in a text: each search begins where the match before it
ended. `skip` places are left out, and `found` has the match at each place, if there is one; `left`
is how much text is left after the first of them. -/
def successive (skip left : Nat) : (found : List (Option Match)) → List Match
  | [] => []
  | m :: found =>
    match skip, m with
    | skip + 1, _ => successive skip (left - 1) found
    | 0, none => successive 0 (left - 1) found
    | 0, some m => m :: successive (left - m.stop - 1) (left - 1) found

/-- The matches that follow each other in a text. Of several patterns the first one that matches at
a place counts there. -/
def findAll (patterns : List (List Piece)) (text : List Char) : List Match :=
  let found := patterns.foldr
    (fun ps others => List.zipWith Option.or (matchesOf ps text) others)
    (List.replicate (text.length + 1) none)
  successive 0 text.length found

end RepoSurvey.Pattern
