/-!
UTF-8 text as bytes: what stands at the head of a byte string, the reading that replaces what is
no character, and where a strict reading stops.

A faulty stretch is as long as the longest beginning of a character that it holds, and at least
one byte; each such stretch is read as one replacement character.
-/

namespace RepoSurvey.Utf8

/-- The bytes of a text. -/
def encode (s : String) : List UInt8 :=
  s.toList.flatMap String.utf8EncodeChar

/-- What stands at the head of a byte string. -/
inductive Piece where
  | scalar (c : Char)
  /-- A stretch of `length` bytes that no character continues. -/
  | invalid (length : Nat)
  /-- The bytes end after the first `length` bytes of a character. -/
  | truncated (length : Nat)
  deriving Repr, DecidableEq

/-- The bytes after a lead byte, of which `needed` are still missing. The first of them lies between
`low` and `high`, which shuts out overlong forms, surrogates and values past the last character. -/
def continuation : (needed : Nat) → (low high : UInt8) → (value taken : Nat) → List UInt8 →
    Piece × List UInt8
  | 0, _, _, value, _, rest => (.scalar (Char.ofNat value), rest)
  | _ + 1, _, _, _, taken, [] => (.truncated taken, [])
  | n + 1, low, high, value, taken, b :: rest =>
    if low ≤ b ∧ b ≤ high then
      continuation n 0x80 0xBF (value * 64 + (b.toNat - 0x80)) (taken + 1) rest
    else (.invalid taken, b :: rest)

/-- The piece that begins with the byte `b`, and what follows it. -/
def piece (b : UInt8) (rest : List UInt8) : Piece × List UInt8 :=
  if b < 0x80 then (.scalar (Char.ofNat b.toNat), rest)
  else if b < 0xC2 then (.invalid 1, rest)
  else if b < 0xE0 then continuation 1 0x80 0xBF (b.toNat - 0xC0) 1 rest
  else if b = 0xE0 then continuation 2 0xA0 0xBF 0 1 rest
  else if b = 0xED then continuation 2 0x80 0x9F 0xD 1 rest
  else if b < 0xF0 then continuation 2 0x80 0xBF (b.toNat - 0xE0) 1 rest
  else if b = 0xF0 then continuation 3 0x90 0xBF 0 1 rest
  else if b < 0xF4 then continuation 3 0x80 0xBF (b.toNat - 0xF0) 1 rest
  else if b = 0xF4 then continuation 3 0x80 0x8F 4 1 rest
  else (.invalid 1, rest)

theorem length_continuation (n : Nat) (low high : UInt8) (value taken : Nat) (bs : List UInt8) :
    (continuation n low high value taken bs).2.length ≤ bs.length := by
  induction n generalizing low high value taken bs with
  | zero => simp [continuation]
  | succ n ih =>
    cases bs with
    | nil => simp [continuation]
    | cons b rest =>
      unfold continuation
      split
      · exact Nat.le_succ_of_le (ih ..)
      · exact Nat.le_refl _

theorem length_piece (b : UInt8) (rest : List UInt8) : (piece b rest).2.length ≤ rest.length := by
  unfold piece
  repeat' split
  all_goals first | exact length_continuation .. | exact Nat.le_refl _

/-- The pieces of a byte string, from left to right. -/
def pieces : List UInt8 → List Piece
  | [] => []
  | b :: rest => (piece b rest).1 :: pieces (piece b rest).2
termination_by bs => bs.length
decreasing_by exact Nat.lt_succ_of_le (length_piece b rest)

def Piece.shown : Piece → Char
  | .scalar c => c
  | .invalid _ | .truncated _ => '\uFFFD'

/-- The text of a byte string, each faulty stretch read as one replacement character. -/
def decodeLossy (bs : List UInt8) : String :=
  String.ofList ((pieces bs).map Piece.shown)

/-- How many bytes a piece covers. -/
def Piece.width : Piece → Nat
  | .scalar c => c.utf8Size
  | .invalid n | .truncated n => n

/-- The first faulty stretch of some pieces and the index at which it begins. -/
def firstFault (index : Nat) : List Piece → Option (Nat × Piece)
  | [] => none
  | .scalar c :: rest => firstFault (index + c.utf8Size) rest
  | p :: _ => some (index, p)

/-- A strict reading: the text, or where and why it is none. -/
def decode (bs : List UInt8) : Except String String :=
  match firstFault 0 (pieces bs) with
  | none => .ok (decodeLossy bs)
  | some (index, .truncated _) => .error s!"incomplete utf-8 byte sequence from index {index}"
  | some (index, p) => .error s!"invalid utf-8 sequence of {p.width} bytes from index {index}"

end RepoSurvey.Utf8
