import RepoSurvey.JavaScript.Imports
import RepoSurvey.Proofs.Expression

/-!
The imports of a script are what the successive matches of one regular expression capture.
-/

namespace RepoSurvey.Pattern

/-! ### How an expression is written -/

def CharClass.text : CharClass → List Char
  | char c => if c = '(' ∨ c = ')' then ['\\', c] else [c]
  | either a b => ['[', a, b, ']']
  | blank => ['\\', 's']
  | sameLine => ['.']

def Item.text : Item → List Char
  | one k => k.text
  | oneOrMore k => k.text ++ ['+']
  | few k => k.text ++ ['*', '?']

def Part.text : Part → List Char
  | item i => i.text
  | group is => '(' :: is.flatMap Item.text ++ [')']

def Expression.text (e : Expression) : String :=
  String.ofList (['|'].intercalate (e.map fun b => b.flatMap Part.text))

/-- The characters of a word, one after the other. -/
def word (s : String) : Branch := s.toList.map fun c => .item (.one (.char c))

theorem Match.captured_eq (text : Array Char) (m : Match) :
    m.captured text = (cuts text.toList m.marks).headD [] := by
  obtain ⟨marks, stop⟩ := m
  match marks with
  | [] | [_] => rfl
  | a :: b :: rest => simp [captured, cuts]

end RepoSurvey.Pattern

namespace RepoSurvey.JavaScript

open Pattern

def blankRun : Part := .item (.oneOrMore .blank)

def anyQuote : Part := .item (.one (.either '\'' '"'))

def someOfLine : Item := .few .sameLine

def importExpression : Expression :=
  [word "import" ++ [blankRun, .item someOfLine, blankRun] ++ word "from" ++
      [blankRun, anyQuote, .group [someOfLine], anyQuote],
    word "require(" ++ [anyQuote, .group [someOfLine], anyQuote] ++ word ")"]

example : importExpression.text =
    "import\\s+.*?\\s+from\\s+['\"](.*?)['\"]|require\\(['\"](.*?)['\"]\\)" := by
  decide +kernel

theorem rows_importExpression : importExpression.map Branch.row = [importFrom, requireCall] := by
  rfl

/-- No branch takes fewer than the eleven characters of the shortest call. -/
theorem le_least_of_mem_importExpression : ∀ b ∈ importExpression, 11 ≤ b.least := by
  decide

/-- Dropping the empty ones drops the matches that capture nothing. -/
theorem filter_map_headD (ls : List (List (List Char))) :
    (ls.map fun l => l.headD []).filter (· ≠ []) =
      (ls.filterMap List.head?).filter (· ≠ []) := by
  induction ls with
  | nil => rfl
  | cons l ls ih =>
    cases l with
    | nil => exact ih
    | cons cs l =>
      have hhead : (cs :: l).head? = some cs := rfl
      rw [List.map_cons, List.filterMap_cons_some hhead, List.filter_cons, List.filter_cons, ih]
      rfl

/-- The imports of a script are the texts, in their order and without the empty ones, that the
successive matches of the expression capture. There are fewer matches than characters. -/
theorem imports_eq_captures (source : String) :
    ∃ rs, importExpression.Successive source.toList rs ∧
      (∀ rs', importExpression.Successive source.toList rs' → rs' = rs) ∧
      imports source =
        ((rs.filterMap fun r => r.captured.head?).filter (· ≠ [])).map String.ofList ∧
      rs.length ≤ source.toList.length ∧
      (source ≠ "" → rs.length + 1 ≤ source.toList.length) := by
  have hleast := le_least_of_mem_importExpression
  obtain ⟨rs, hrs, hmap⟩ := Expression.exists_successive
    (fun b hb => Nat.le_trans (by decide) (hleast b hb)) [] source.toList
  have hlength := hrs.mul_length_le hleast
  refine ⟨rs, hrs, fun rs' h => h.unique hrs, ?_, by omega, fun hne => ?_⟩
  · rw [← Expression.findAll_eq, rows_importExpression] at hmap
    have hfound : (findAll [importFrom, requireCall] source.toList).map
        (fun m => m.captured source.toList.toArray) = rs.map fun r => r.captured.headD [] := by
      have hheads := congrArg (List.map fun l => l.headD []) hmap
      rw [List.map_map, List.map_map] at hheads
      simp only [Match.captured_eq]
      exact hheads
    have hcaptures : (rs.filterMap fun r => r.captured.head?).filter (· ≠ []) =
        (rs.map fun r => r.captured.headD []).filter (· ≠ []) := by
      have hheads := filter_map_headD (rs.map Found.captured)
      rw [List.map_map, List.filterMap_map] at hheads
      exact hheads.symm
    have hempty (cs : List Char) : (!(String.ofList cs).isEmpty) = decide (cs ≠ []) := by
      rw [Bool.eq_iff_iff]
      simp
    rw [hcaptures, ← hfound]
    simp only [imports, List.filter_map, List.map_map, Function.comp_def, hempty]
  · have hpos : 0 < source.toList.length := by
      rw [List.length_pos_iff]
      simpa using hne
    omega

end RepoSurvey.JavaScript
