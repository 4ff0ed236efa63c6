import RepoSurvey.Parsing.Engine
import RepoSurvey.Python.Grammar

/-!
The layout of Python sources: line ends, indentation and string literals, which depend on what came
before and on what the grammar expects.
-/

namespace RepoSurvey.Python

open RepoSurvey.Parsing

/-- The characters of a source. -/
abbrev Source := Array Char

namespace Source

/-- The character at a place; NUL where the text ends. -/
def peek (s : Source) (p : Place) : Char := s[p.index]?.getD '\x00'

def atEnd (s : Source) (p : Place) : Bool := p.index ≥ s.size

def skip (s : Source) (p : Place) : Place :=
  match s[p.index]? with
  | some c => p.next c
  | none => p

end Source

/-- An open string literal. -/
structure Delimiter where
  quote : Char
  triple : Bool
  raw : Bool
  format : Bool
  bytes : Bool
  deriving BEq, Repr, Inhabited

/-- What the layout reader remembers: open literals and open indentations, innermost first. -/
structure Layout where
  insideFormat : Bool
  delimiters : List Delimiter
  indents : List Nat
  deriving BEq, Repr, Inhabited

namespace Layout

def initial : Layout := ⟨false, [], []⟩

/-- The numbers of the tokens that the layout reader knows. -/
structure Tokens where
  newline : Nat
  indent : Nat
  dedent : Nat
  stringStart : Nat
  stringContent : Nat
  escapeInterpolation : Nat
  stringEnd : Nat
  closeParen : Nat
  closeBracket : Nat
  closeBrace : Nat
  except : Nat

def tokens : Tokens where
  newline := table.find false "_newline"
  indent := table.find false "_indent"
  dedent := table.find false "_dedent"
  stringStart := table.find false "string_start"
  stringContent := table.find false "_string_content"
  escapeInterpolation := table.find false "escape_interpolation"
  stringEnd := table.find false "string_end"
  closeParen := table.find true ")"
  closeBracket := table.find true "]"
  closeBrace := table.find true "\x7d"
  except := table.find true "except"

/-- What a scan inside a string literal found. -/
inductive Inside where
  | content (stop : Place)
  | closed (stop : Place)
  | nothing
  | unfinished (stop : Place)

def scanContent (s : Source) (d : Delimiter) : Nat → Bool → Place → Inside
  | 0, _, p => .unfinished p
  | fuel + 1, any, p =>
    let c := s.peek p
    let found := fun (stop : Place) => if any then Inside.content stop else .nothing
    if c == '\x00' then .unfinished p
    else if d.format && (c == '\x7b' || c == '\x7d') then found p
    else if c == '\\' then
      if d.raw then
        let p := s.skip p
        let c := s.peek p
        let p := if c == d.quote || c == '\\' then s.skip p else p
        let c := s.peek p
        let p :=
          if c == '\r' then
            let p := s.skip p
            if s.peek p == '\n' then s.skip p else p
          else if c == '\n' then s.skip p
          else p
        scanContent s d fuel any p
      else if d.bytes then
        let q := s.skip p
        let c := s.peek q
        if c == 'N' || c == 'u' || c == 'U' then scanContent s d fuel true (s.skip (s.skip q))
        else found p
      else found p
    else if c == d.quote then
      if d.triple then
        let q := s.skip p
        if s.peek q == d.quote then
          let q' := s.skip q
          if s.peek q' == d.quote then
            if any then .content p else .closed (s.skip q')
          else .content q'
        else .content q
      else if any then .content p
      else .closed (s.skip p)
    else if c == '\n' && any && !d.triple then .nothing
    else scanContent s d fuel true (s.skip p)

/-- The space before a token: where it ends, the width of its last line, whether it holds a line end,
and the width before its first comment. `none` where a backslash stands before other text. -/
structure Space where
  stop : Place
  width : Nat
  lineEnd : Bool
  comment : Option Nat

def skipLine (s : Source) : Nat → Place → Place
  | 0, p => p
  | fuel + 1, p =>
    let c := s.peek p
    if c == '\x00' || c == '\n' then p else skipLine s fuel (s.skip p)

/-- Skips space, and comments where `comments` allows. -/
def scanSpace (s : Source) (comments : Bool) : Nat → Space → Option Space
  | 0, x => some x
  | fuel + 1, x =>
    let p := x.stop
    if s.atEnd p then some { x with width := 0, lineEnd := true }
    else
      match s.peek p with
      | '\n' => scanSpace s comments fuel { x with stop := s.skip p, width := 0, lineEnd := true }
      | ' ' => scanSpace s comments fuel { x with stop := s.skip p, width := x.width + 1 }
      | '\t' => scanSpace s comments fuel { x with stop := s.skip p, width := x.width + 8 }
      | '\r' => scanSpace s comments fuel { x with stop := s.skip p, width := 0 }
      | '\x0c' => scanSpace s comments fuel { x with stop := s.skip p, width := 0 }
      | '\\' =>
        let q := s.skip p
        let q := if s.peek q == '\r' then s.skip q else q
        if s.peek q == '\n' || s.atEnd q then scanSpace s comments fuel { x with stop := s.skip q }
        else none
      | '#' =>
        if comments then
          if x.lineEnd then
            let q := s.skip (skipLine s s.size p)
            scanSpace s comments fuel
              { x with stop := q, width := 0, comment := x.comment.or (some x.width) }
          else none
        else some x
      | _ => some x

/-- Reads the letters and quotes that open a string literal. -/
def scanOpening (s : Source) : Nat → Delimiter → Place → Option (Delimiter × Place)
  | 0, _, _ => none
  | fuel + 1, d, p =>
    match s.peek p with
    | 'f' | 'F' => scanOpening s fuel { d with format := true } (s.skip p)
    | 'r' | 'R' => scanOpening s fuel { d with raw := true } (s.skip p)
    | 'b' | 'B' => scanOpening s fuel { d with bytes := true } (s.skip p)
    | 'u' | 'U' => scanOpening s fuel d (s.skip p)
    | '\x60' => some ({ d with quote := '\x60' }, s.skip p)
    | c =>
      if c == '\'' || c == '"' then
        let one := s.skip p
        let two := s.skip one
        if s.peek one == c && s.peek two == c then
          some ({ d with quote := c, triple := true }, s.skip two)
        else some ({ d with quote := c }, one)
      else none

/-- Reads a line end, a change of indentation or the start of a literal. -/
def readBetween (s : Source) (expected : TokenSet) (repairing : Bool) (state : Layout)
    (start here : Place) : Option (LayoutToken Layout) :=
  let t := tokens
  let wants := expected.contains
  let comments := wants t.indent || wants t.dedent || wants t.newline || wants t.except
  match scanSpace s comments (s.size + 2) ⟨here, 0, false, none⟩ with
  | none => none
  | some space =>
    let current := state.indents.headD 0
    let next := s.peek space.stop
    let brackets := wants t.closeBrace || wants t.closeParen || wants t.closeBracket
    let quoteNext := next == '"' || next == '\'' || next == '\x60'
    let emptyToken := fun symbol (layout : Layout) =>
      some (LayoutToken.mk symbol here here layout)
    if space.lineEnd && wants t.indent && space.width > current then
      emptyToken t.indent { state with indents := space.width % 65536 :: state.indents }
    else if space.lineEnd &&
        (wants t.dedent ||
          (!wants t.newline && !(wants t.stringStart && quoteNext) && !brackets)) &&
        space.width < current && !state.insideFormat &&
        space.comment.all (· < current) then
      emptyToken t.dedent { state with indents := state.indents.tail }
    else if space.lineEnd && wants t.newline && !repairing then
      emptyToken t.newline state
    else if space.comment.isNone && wants t.stringStart then
      match scanOpening s (s.size + 1) ⟨'\x00', false, false, false, false⟩ space.stop with
      | some (d, stop) =>
        let start := if start.byte > space.stop.byte then start else space.stop
        some ⟨t.stringStart, start, stop,
          { state with insideFormat := d.format, delimiters := d :: state.delimiters }⟩
      | none => none
    else none

def read (s : Source) (expected : TokenSet) (state : Option Layout) (here : Place) :
    Option (LayoutToken Layout) :=
  let t := tokens
  let state := state.getD initial
  let wants := expected.contains
  let repairing := wants t.stringContent && wants t.indent
  let here := if here.byte == 0 && s.peek here == '\ufeff' then s.skip here else here
  let c := s.peek here
  match (if repairing then none else state.delimiters.head?) with
  | some d =>
    if wants t.escapeInterpolation && (c == '\x7b' || c == '\x7d') && d.format then
      let next := s.skip here
      if s.peek next == c then some ⟨t.escapeInterpolation, here, s.skip next, state⟩ else none
    else if wants t.stringContent then
      match scanContent s d (s.size + 1) false here with
      | .content stop => some ⟨t.stringContent, here, stop, state⟩
      | .closed stop => some ⟨t.stringEnd, here, stop,
          { state with insideFormat := false, delimiters := state.delimiters.tail }⟩
      | .nothing => none
      | .unfinished stop => readBetween s expected repairing state stop stop
    else readBetween s expected repairing state here here
  | none => readBetween s expected repairing state here here

end Layout

end RepoSurvey.Python
