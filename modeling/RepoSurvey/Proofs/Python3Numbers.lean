import Mathlib
import RepoSurvey.Proofs.IntegerTokens
import RepoSurvey.Proofs.Python2Forms

/-!
The integers and imaginary numbers of Python 3, and which integers of the grammar are none of them. Where the
underscores of an integer separate its digits, it is taken for one of Python 2 if and only if Python 3 does
not know it.
-/

namespace RepoSurvey.Python

/-! ### Numbers of Python 3 -/

namespace Python3

def digitPart : RegularExpression Char :=
  oneOf decimalDigits * (maybe underscore * oneOf decimalDigits).star

/-- An integer that does not start with a zero, or a row of zeros. -/
def decimalInteger : RegularExpression Char :=
  oneOf decimalDigits.tail * (maybe underscore * oneOf decimalDigits).star +
    repeated (oneOf ['0']) * (maybe underscore * oneOf ['0']).star

def basedInteger (b : Base) : RegularExpression Char :=
  b.start * repeated (maybe underscore * oneOf b.digits)

def integer : RegularExpression Char :=
  decimalInteger + basedInteger .binary + basedInteger .octal + basedInteger .hexadecimal

def fraction : RegularExpression Char := .char '.' * digitPart

def exponent : RegularExpression Char := oneOf ['e', 'E'] * maybe (oneOf ['+', '-']) * digitPart

def pointFloat : RegularExpression Char := maybe digitPart * fraction + digitPart * .char '.'

def exponentFloat : RegularExpression Char := (digitPart + pointFloat) * exponent

def imaginary : RegularExpression Char := (pointFloat + exponentFloat + digitPart) * oneOf ['j', 'J']

/-- An integer or an imaginary number. -/
def number : RegularExpression Char := integer + imaginary

end Python3

open Python3 SyntaxTree

variable {cs w : List Char} {c : Char} {text : String}

theorem mem_number : w ∈ number.matches' ↔ w ∈ decimalInteger.matches' ∨
    (∃ b, w ∈ (basedInteger b).matches') ∨ w ∈ imaginary.matches' := by
  simp only [number, integer, RegularExpression.matches'_add, Language.mem_add]
  constructor
  · rintro ((((h | h) | h) | h) | h)
    exacts [.inl h, .inr (.inl ⟨_, h⟩), .inr (.inl ⟨_, h⟩), .inr (.inl ⟨_, h⟩), .inr (.inr h)]
  · rintro (h | ⟨b, h⟩ | h)
    · exact .inl (.inl (.inl (.inl h)))
    · cases b with
      | binary => exact .inl (.inl (.inl (.inr h)))
      | octal => exact .inl (.inl (.inr h))
      | hexadecimal => exact .inl (.inr h)
    · exact .inr h

/-- An integer of the grammar to a base is one of Python 3 that may be long. -/
theorem Base.matches'_token (b : Base) :
    b.token.matches' = (basedInteger b * maybe (oneOf ['l', 'L'])).matches' :=
  congrArg (fun l => b.start.matches' * l * (maybe (oneOf ['l', 'L'])).matches') b.matches'_groups

/-- A decimal integer of the grammar is a part of digits, perhaps an underscore, and perhaps a letter. -/
theorem matches'_decimalToken : decimalToken.matches' = (digitPart * maybe underscore *
    (maybe (oneOf ['l', 'L']) + maybe (oneOf ['j', 'J']))).matches' := by
  have hpart : decimalGroups.matches' = (digitPart * maybe underscore).matches' := by
    simp only [matches'_decimalGroups, repeated, digitPart, RegularExpression.matches'_mul,
      RegularExpression.matches'_star]
    rw [mul_kstar_comm, ← mul_assoc, ← mul_kstar_slide]
  exact congrArg (· * (maybe (oneOf ['l', 'L']) + maybe (oneOf ['j', 'J'])).matches') hpart

theorem isDigit_of_digitPart (h : w ∈ digitPart.matches') (hc : c ∈ w) (hgap : c ≠ '_') :
    c.isDigit = true := by
  have hcharacters : characters digitPart = decimalDigits ++ '_' :: decimalDigits := rfl
  have hmem := mem_characters h hc
  rw [hcharacters, List.mem_append, List.mem_cons] at hmem
  rw [isDigit_iff]
  tauto

/-! ### Numbers of Python 3 are not refused -/

theorem not_long_of_number (h : w ∈ number.matches') : 'l' ∉ w ∧ 'L' ∉ w :=
  ⟨fun hc => absurd (mem_characters h hc) (by decide), fun hc => absurd (mem_characters h hc) (by decide)⟩

/-- A decimal integer starts with a digit other than zero, or has no other digit than zero. -/
theorem starts_or_zeros_of_decimalInteger (h : w ∈ decimalInteger.matches') :
    (∃ c ∈ decimalDigits.tail, ∃ rest, w = c :: rest) ∨ ∀ c ∈ w, c = '0' ∨ c = '_' := by
  rcases h with ⟨_, hfirst, rest, -, rfl⟩ | h
  · obtain ⟨c, hc, rfl⟩ := mem_oneOf.mp hfirst
    exact .inl ⟨c, hc, rest, rfl⟩
  · right
    intro c hc
    have hcharacters : characters (repeated (oneOf ['0']) * (maybe underscore * oneOf ['0']).star) =
        ['0', '0', '_', '0'] := rfl
    have hmem := mem_characters h hc
    rw [hcharacters] at hmem
    simp only [List.mem_cons, List.not_mem_nil, or_false] at hmem
    tauto

/-- An integer to a base and an imaginary number hold a letter. -/
theorem exists_letter_of_number (h : w ∈ number.matches') :
    w ∈ decimalInteger.matches' ∨ ∃ c ∈ w, c ≠ '_' ∧ c.isDigit = false := by
  rcases mem_number.mp h with hdecimal | ⟨b, _, hstart, v, -, rfl⟩ | ⟨u, -, _, hlast, rfl⟩
  · exact .inl hdecimal
  · obtain ⟨c, hc, rfl⟩ := Base.mem_start.mp hstart
    refine .inr ⟨c, by simp, ?_⟩
    cases b <;> fin_cases hc <;> decide
  · obtain ⟨c, hc, rfl⟩ := mem_oneOf.mp hlast
    refine .inr ⟨c, by simp, ?_⟩
    fin_cases hc <;> decide

/-- No number of Python 3 is taken for an integer of Python 2. -/
theorem isPython2Integer_of_number (h : text.toList ∈ number.matches') : isPython2Integer text = false := by
  rw [Bool.eq_false_iff, ne_eq, isPython2Integer_iff]
  rintro (⟨hhead, hdigits, d, hd, hne⟩ | hlong | hlong)
  -- Numerals that are all digits are those of a decimal integer, which has none but zeros behind a zero.
  · rcases exists_letter_of_number h with hdecimal | ⟨c, hc, hgap, hletter⟩
    · rcases starts_or_zeros_of_decimalInteger hdecimal with ⟨c, hc, rest, heq⟩ | hzeros
      · rw [numerals, heq] at hhead
        fin_cases hc <;> simp at hhead
      · obtain ⟨hmem, hgap⟩ := List.mem_filter.mp hd
        rcases hzeros d hmem with rfl | rfl
        · exact hne rfl
        · simp at hgap
    · have hdigit := hdigits c (List.mem_filter.mpr ⟨hc, by simpa using hgap⟩)
      rw [hletter] at hdigit
      cases hdigit
  · exact (not_long_of_number h).1 (List.mem_of_mem_filter (List.mem_of_getLast? hlong))
  · exact (not_long_of_number h).2 (List.mem_of_mem_filter (List.mem_of_getLast? hlong))

/-! ### Other integers are refused -/

theorem isPython2Integer_of_long (h : text.toList = w ++ [c]) (hc : c ∈ ['l', 'L']) :
    isPython2Integer text = true := by
  rw [isPython2Integer_iff]
  right
  have hgap : (c != '_') = true := by fin_cases hc <;> decide
  rw [numerals, h, List.filter_append, List.filter_singleton, hgap, cond_true, List.getLast?_concat]
  simpa using hc

/-- Digits that are all zeros are zeros with underscores. -/
theorem mem_star_zero (h : w ∈ (maybe underscore * oneOf cs).star.matches')
    (hzeros : ∀ c ∈ w, c ∈ cs → c = '0') : w ∈ (maybe underscore * oneOf ['0']).star.matches' := by
  obtain ⟨parts, rfl, hparts⟩ := h
  refine ⟨parts, rfl, fun part hpart => ?_⟩
  obtain ⟨gap, hgap, _, hlast, rfl⟩ := hparts part hpart
  obtain ⟨c, hc, rfl⟩ := mem_oneOf.mp hlast
  obtain rfl := hzeros c (List.mem_flatten.mpr ⟨_, hpart, by simp⟩) hc
  exact mem_mul.mpr ⟨gap, hgap, ['0'], singleton_mem_oneOf (by simp), rfl⟩

/-- Digits that are no decimal integer start with a zero and have another digit. -/
theorem isPython2Integer_of_digitPart (h : text.toList ∈ digitPart.matches')
    (hnot : text.toList ∉ decimalInteger.matches') : isPython2Integer text = true := by
  rw [isPython2Integer_iff]
  left
  obtain ⟨_, hfirst, rest, hrest, heq⟩ := mem_mul.mp h
  obtain ⟨c, hc, rfl⟩ := mem_oneOf.mp hfirst
  obtain rfl : c = '0' := by
    by_contra hne
    have htail : c ∈ decimalDigits.tail := (List.mem_cons.mp hc).resolve_left hne
    exact hnot (.inl ⟨[c], singleton_mem_oneOf htail, rest, hrest, heq⟩)
  refine ⟨?_, fun d hd => ?_, ?_⟩
  · rw [numerals, ← heq]
    rfl
  · obtain ⟨hmem, hgap⟩ := List.mem_filter.mp hd
    exact isDigit_of_digitPart h hmem (by simpa using hgap)
  · by_contra hall
    push Not at hall
    have hzero : ['0'] ∈ (repeated (oneOf ['0'])).matches' :=
      ⟨['0'], singleton_mem_oneOf (by simp), [], Language.nil_mem_kstar _, rfl⟩
    refine hnot (.inr ⟨['0'], hzero, rest, mem_star_zero hrest fun d hd hdigit => ?_, heq⟩)
    refine hall d (List.mem_filter.mpr ⟨heq ▸ List.mem_cons_of_mem '0' hd, ?_⟩)
    fin_cases hdigit <;> decide

/-! ### Underscores -/

/-- Each underscore stands between two digits or right after the zero and the letter that tell a base. -/
def SeparatesDigits (text : List Char) : Prop :=
  ∀ before after, text = before ++ '_' :: after → (∃ b : Base, before ∈ b.start.matches') ∨
    (∃ c ∈ before.getLast?, Lexer.isHex c) ∧ ∃ c ∈ after.head?, Lexer.isHex c

/-- Where underscores separate digits, none stands behind the digits of a decimal integer. -/
theorem exists_digitPart_of_decimalToken (h : w ∈ decimalToken.matches') (hseparates : SeparatesDigits w) :
    ∃ part ∈ digitPart.matches', ∃ suffix, w = part ++ suffix ∧
      (suffix = [] ∨ ∃ c, suffix = [c] ∧ (c ∈ ['l', 'L'] ∨ c ∈ ['j', 'J'])) := by
  rw [matches'_decimalToken] at h
  obtain ⟨_, ⟨part, hpart, gap, hgap, rfl⟩, suffix, hsuffix, rfl⟩ := h
  have hletter : suffix = [] ∨ ∃ c, suffix = [c] ∧ (c ∈ ['l', 'L'] ∨ c ∈ ['j', 'J']) := by
    rcases hsuffix with (hnil | hlong) | (hnil | himaginary)
    · exact .inl hnil
    · obtain ⟨c, hc, rfl⟩ := mem_oneOf.mp hlong
      exact .inr ⟨c, rfl, .inl hc⟩
    · exact .inl hnil
    · obtain ⟨c, hc, rfl⟩ := mem_oneOf.mp himaginary
      exact .inr ⟨c, rfl, .inr hc⟩
  rcases mem_maybe.mp hgap with rfl | rfl
  · exact ⟨part, hpart, suffix, by simp, hletter⟩
  · rcases hseparates part suffix (by simp) with ⟨b, hstart⟩ | ⟨-, c, hc, hhex⟩
    · -- The digits before the underscore hold no letter that tells a base.
      obtain ⟨c, hc, rfl⟩ := Base.mem_start.mp hstart
      have hdigit := isDigit_of_digitPart hpart (c := c) (by simp)
      cases b <;> fin_cases hc <;> simp at hdigit
    · -- What may stand behind the underscore is no digit.
      rcases hletter with rfl | ⟨d, rfl, hd⟩
      · cases hc
      · cases hc
        rcases hd with hd | hd <;> fin_cases hd <;> cases hhex

/-- What is no number of Python 3 is long, or digits with a zero before others. -/
theorem isPython2Integer_of_not_number (htoken : text.toList ∈ integerToken.matches')
    (hseparates : SeparatesDigits text.toList) (hnot : text.toList ∉ number.matches') :
    isPython2Integer text = true := by
  rcases mem_integerToken.mp htoken with ⟨b, hbased⟩ | hdecimal
  · rw [Base.matches'_token] at hbased
    obtain ⟨u, hu, suffix, hsuffix, heq⟩ := mem_mul.mp hbased
    rcases mem_maybe.mp hsuffix with rfl | hlong
    · refine absurd (mem_number.mpr (.inr (.inl ⟨b, ?_⟩))) hnot
      rwa [← heq, List.append_nil]
    · obtain ⟨c, hc, rfl⟩ := mem_oneOf.mp hlong
      exact isPython2Integer_of_long heq.symm hc
  · obtain ⟨part, hpart, suffix, heq, rfl | ⟨c, rfl, hc | hc⟩⟩ :=
      exists_digitPart_of_decimalToken hdecimal hseparates
    · rw [List.append_nil] at heq
      refine isPython2Integer_of_digitPart (heq ▸ hpart) fun hinteger => ?_
      exact hnot (mem_number.mpr (.inl hinteger))
    · exact isPython2Integer_of_long heq hc
    · refine absurd (mem_number.mpr (.inr (.inr ?_))) hnot
      exact ⟨part, .inr hpart, [c], singleton_mem_oneOf hc, heq.symm⟩

/-! ### The integers of a source -/

/-- A text is read whole as an integer. -/
def Lexer.ReadsInteger (text : String) : Prop :=
  ∃ stop, Lexer.integerEnd text.toList.toArray .start = some stop ∧
    Lexer.textBetween text.toList.toArray .start stop = text

theorem readsInteger_iff : Lexer.ReadsInteger text ↔ text.toList ∈ integerToken.matches' := by
  have hread := reads_integerEnd text.toList.toArray .start
  have hahead : Source.ahead text.toList.toArray .start = text.toList := rfl
  constructor
  · rintro ⟨stop, hstop, htext⟩
    rw [hstop] at hread
    rw [← htext]
    exact hread.isLongest_textBetween.mem
  · intro htoken
    cases hend : Lexer.integerEnd text.toList.toArray .start with
    | none =>
      rw [hend] at hread
      cases hread with
      | nothing h => exact absurd (List.prefix_refl text.toList) (h _ htoken)
    | some stop =>
      rw [hend] at hread
      have hlongest := hread.isLongest_textBetween
      have hle := hlongest.length_le _ htoken (List.prefix_refl text.toList)
      exact ⟨stop, hend, String.toList_inj.mp
        (hlongest.begins.eq_of_length (Nat.le_antisymm hlongest.begins.length_le hle))⟩

/-- The texts that are read whole as integers are the integers of the grammar. Of those whose underscores
separate digits, the ones taken for integers of Python 2 are those that are no number of Python 3. -/
theorem isPython2Integer_iff_not_number (text : String) :
    (Lexer.ReadsInteger text ↔ text.toList ∈ integerToken.matches') ∧
      (text.toList ∈ integerToken.matches' → SeparatesDigits text.toList →
        (isPython2Integer text = true ↔ text.toList ∉ number.matches')) := by
  refine ⟨readsInteger_iff, fun htoken hseparates => ⟨fun h hnumber => ?_, ?_⟩⟩
  · rw [isPython2Integer_of_number hnumber] at h
    cases h
  · exact isPython2Integer_of_not_number htoken hseparates

/-- A zero before other digits is of Python 2 alone, but not in an imaginary number. -/
theorem isPython2Integer_iff_not_number_leadingZeros :
    ("00_7".toList ∈ integerToken.matches' ∧ SeparatesDigits "00_7".toList ∧
      isPython2Integer "00_7" = true ∧ "00_7".toList ∉ number.matches') ∧
    ("00_7j".toList ∈ integerToken.matches' ∧ SeparatesDigits "00_7j".toList ∧
      isPython2Integer "00_7j" = false ∧ "00_7j".toList ∈ number.matches') := by
  have hseparates (rest : List Char) (hrest : '_' ∉ rest) :
      SeparatesDigits (['0', '0'] ++ '_' :: '7' :: rest) := by
    intro before after h
    obtain ⟨rfl, -, rfl⟩ := (List.append_cons_inj_of_notMem (by decide) (by simpa using hrest)).mp h
    exact .inr ⟨⟨'0', rfl, rfl⟩, '7', rfl, rfl⟩
  have hoctal : "00_7".toList ∈ integerToken.matches' := by decide
  have himaginary : "00_7j".toList ∈ integerToken.matches' := by decide
  have hrefused : isPython2Integer "00_7" = true := by decide
  have hkept : isPython2Integer "00_7j" = false := by decide
  refine ⟨⟨hoctal, hseparates [] (by decide), hrefused, ?_⟩,
    himaginary, hseparates ['j'] (by decide), hkept, ?_⟩
  · exact ((isPython2Integer_iff_not_number "00_7").2 hoctal (hseparates [] (by decide))).mp hrefused
  · by_contra hnot
    have hpython2 := ((isPython2Integer_iff_not_number "00_7j").2 himaginary
      (hseparates ['j'] (by decide))).mpr hnot
    rw [hkept] at hpython2
    cases hpython2

end RepoSurvey.Python
