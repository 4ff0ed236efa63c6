import RepoSurvey.Python.Layout
import RepoSurvey.Text.Identifier

/-!
The plain tokens of Python sources. At each place the longest expected token is read, but where the
text of a format specifier may stand it wins over all others.
-/

namespace RepoSurvey.Python

open RepoSurvey.Parsing

namespace Lexer

/-- The numbers of the tokens that are not written literally. -/
structure Tokens where
  identifier : Nat
  integer : Nat
  float : Nat
  comment : Nat
  lineContinuation : Nat
  escapeSequence : Nat
  notEscapeSequence : Nat
  formatText : Nat
  typeConversion : Nat

def tokens : Tokens where
  identifier := table.find false "identifier"
  integer := table.find false "integer"
  float := table.find false "float"
  comment := table.find false "comment"
  lineContinuation := table.find false "line_continuation"
  escapeSequence := table.find false "escape_sequence"
  notEscapeSequence := table.find false "_not_escape_sequence"
  formatText := table.find false "format text"
  typeConversion := table.find false "type_conversion"

/-- The tokens of one spelling, with their numbers: those spelt like names, and the others. -/
def spelt : List (String × Nat) × List (List Char × Nat) :=
  let all := table.symbols.toList.zipIdx.filterMap fun (s, i) => s.spelling.map (·, i)
  (all.filter fun (_, i) => table.keywords.contains i,
    (all.filter fun (_, i) => !table.keywords.contains i).map fun (text, i) => (text.toList, i))

def keywords : Std.HashMap String Nat := .ofList spelt.1

def marks : List (List Char × Nat) := spelt.2

def isSpace (c : Char) : Bool :=
  c == ' ' || ('\t' ≤ c && c ≤ '\r') || c == '\u200b' || c == '\u2060' || c == '\ufeff'

/-- The place after the longest run of characters of a class. -/
def skipWhile (s : Source) (p : Char → Bool) : Nat → Place → Place
  | 0, here => here
  | fuel + 1, here =>
    match s[here.index]? with
    | some c => if p c then skipWhile s p fuel (here.next c) else here
    | none => here

/-- A digit to the base sixteen. -/
def isHex (c : Char) : Bool :=
  c.isDigit || ('a' ≤ c && c ≤ 'f') || ('A' ≤ c && c ≤ 'F')

/-- Digits, with single underscores after some of them. -/
def skipDigits (s : Source) : Nat → Place → Option Place
  | 0, _ => none
  | fuel + 1, here =>
    let p := skipWhile s Char.isDigit s.size here
    if p.index == here.index then none
    else
      let q := if s.peek p == '_' then s.skip p else p
      some ((skipDigits s fuel q).getD q)

/-- Digits of a class, with single underscores before some of them. -/
def skipBased (s : Source) (digit : Char → Bool) : Nat → Place → Option Place
  | 0, _ => none
  | fuel + 1, here =>
    let p := if s.peek here == '_' then s.skip here else here
    let q := skipWhile s digit s.size p
    if q.index == p.index then none else some ((skipBased s digit fuel q).getD q)

/-- The place after one character of a class, if it stands here. -/
def skipOne (s : Source) (p : Char → Bool) (here : Place) : Place :=
  if p (s.peek here) then s.skip here else here

/-- An integer: with a base, or decimal; perhaps long or imaginary. -/
def integerEnd (s : Source) (here : Place) : Option Place :=
  let n := s.size + 1
  let isLong := fun c => c == 'l' || c == 'L'
  let next := s.skip here
  let digit : Option (Char → Bool) :=
    if s.peek here == '0' then
      match s.peek next with
      | 'x' | 'X' => some isHex
      | 'o' | 'O' => some fun c => '0' ≤ c && c ≤ '7'
      | 'b' | 'B' => some fun c => c == '0' || c == '1'
      | _ => none
    else none
  let based := digit.bind fun d => skipBased s d n (s.skip next)
  match based with
  | some p => some (skipOne s isLong p)
  | none => (skipDigits s n here).map (skipOne s fun c => isLong c || c == 'j' || c == 'J')

/-- An exponent, if one stands here. -/
def exponentEnd (s : Source) (here : Place) : Option Place :=
  if s.peek here == 'e' || s.peek here == 'E' then
    skipDigits s (s.size + 1) (skipOne s (fun c => c == '+' || c == '-') (s.skip here))
  else none

def floatEnd (s : Source) (here : Place) : Option Place :=
  let n := s.size + 1
  let whole := skipDigits s n here
  let p := whole.getD here
  let body : Option Place :=
    if s.peek p == '.' then
      let q := s.skip p
      match skipDigits s n q with
      | some r => some ((exponentEnd s r).getD r)
      | none => if whole.isSome then some ((exponentEnd s q).getD q) else none
    else whole.bind (exponentEnd s)
  body.map (skipOne s fun c => c == 'j' || c == 'J')

def escapeEnd (s : Source) (here : Place) : Option Place :=
  let next := s.skip here
  let exactly := fun (n : Nat) (p : Place) =>
    let q := skipWhile s isHex n p
    if q.index == p.index + n then some q else none
  match s.peek here with
  | 'u' => exactly 4 next
  | 'U' => exactly 8 next
  | 'x' => exactly 2 next
  | '\r' => if s.peek next == '\n' then some (s.skip next) else none
  | 'N' =>
    if s.peek next == '\x7b' then
      let p := s.skip next
      let q := skipWhile s (fun c => c != '\x7d' && c != '\x00') s.size p
      if q.index > p.index && s.peek q == '\x7d' then some (s.skip q) else none
    else none
  | c =>
    if c.isDigit then some (skipWhile s Char.isDigit 3 here)
    else if "\n'\"abfrntv\\".toList.contains c then some next
    else none

/-- Whether the text at a place starts with the given characters. -/
def startsWith (s : Source) : List Char → Place → Option Place
  | [], p => some p
  | c :: cs, p => if s[p.index]? == some c then startsWith s cs (p.next c) else none

/-- The candidates at a place after the space. `spaced` tells that there is space before it. -/
def candidates (s : Source) (expected : TokenSet) (spaced : Bool) (here : Place) :
    List (Nat × Place) :=
  let t := tokens
  let wants := expected.contains
  let c := s.peek here
  let one := fun symbol (stop : Option Place) =>
    if wants symbol then (stop.map (symbol, ·)).toList else []
  if Text.isIdentifierStart c then
    let stop := skipWhile s Text.isIdentifierRest s.size here
    let word := wants t.identifier ||
      (expected.low &&& table.keywords.low != 0) || (expected.high &&& table.keywords.high != 0)
    (if word then [(t.identifier, stop)] else []) ++
      (if c == 'e' then
        marks.filterMap fun (text, n) =>
          if wants n then (startsWith s text here).map (n, ·) else none
      else [])
  else if c.isDigit then
    one t.integer (integerEnd s here) ++ one t.float (floatEnd s here)
  else
    (marks.filterMap fun (text, n) =>
      if text.head? == some c && wants n then (startsWith s text here).map (n, ·) else none) ++
    match c with
    | '.' => one t.float (floatEnd s here)
    | '#' => one t.comment (some (skipWhile s (fun c => c != '\n' && c != '\x00') s.size here))
    | '!' =>
      let next := s.skip here
      one t.typeConversion (if 'a' ≤ s.peek next && s.peek next ≤ 'z' then some (s.skip next) else none)
    | '\\' =>
      let next := s.skip here
      let continued :=
        if s.peek next == '\r' && s.peek (s.skip next) == '\n' then some (s.skip (s.skip next))
        else if s.peek next == '\n' then some (s.skip next)
        else if s.peek next == '\x00' && !s.atEnd next then some (s.skip next)
        else none
      one t.lineContinuation continued ++
        if spaced then []
        else one t.escapeSequence (escapeEnd s next) ++ one t.notEscapeSequence (some next)
    | _ => []

def formatTextEnd (s : Source) (here : Place) : Option Place :=
  let stop := skipWhile s (fun c => c != '\x7b' && c != '\x7d' && c != '\n' && c != '\x00') s.size here
  if stop.index > here.index then some stop else none

/-- Skips space, but stops where format text can begin. -/
def skipSpace (s : Source) (formatText : Bool) : Nat → Place → Place
  | 0, here => here
  | fuel + 1, here =>
    match s[here.index]? with
    | some c =>
      if isSpace c && !(formatText && c != '\n') then skipSpace s formatText fuel (here.next c)
      else here
    | none => here

/-- The plain reader: format text where it is expected and stands, and else the longest expected token. -/
def read (s : Source) (expected : TokenSet) (here : Place) : Scanned :=
  let t := tokens
  let text := expected.contains t.formatText
  let start := skipSpace s text (s.size + 1) here
  if s.atEnd start then
    if expected.contains 0 then .token 0 start start else .nothing start start
  else
    let found := match if text then formatTextEnd s start else none with
      | some stop => [(t.formatText, stop)]
      | none => candidates s expected (start.index != here.index) start
    let best := found.foldl (fun (best : Option (Nat × Place)) x =>
      match best with
      | none => some x
      | some y => if x.2.index > y.2.index then some x else some y) none
    match best with
    | some (symbol, stop) => .token symbol start stop
    | none =>
      let c := s.peek start
      .nothing start (if c == '!' || c == '\\' then s.skip start else start)

def textBetween (s : Source) (start stop : Place) : String :=
  String.ofList (s.extract start.index stop.index).toList

end Lexer

def reader (s : Source) : Reader Layout where
  layout := Layout.read s
  plain := Lexer.read s
  keyword start stop := Lexer.keywords[Lexer.textBetween s start stop]?
  after p := s[p.index]?.map p.next
  recoverable :=
    (List.range table.tokenCount).foldl (fun acc n =>
      if n == Lexer.tokens.formatText then acc else acc.insert n) TokenSet.empty
  steps := 200 * s.size + 2000

end RepoSurvey.Python
