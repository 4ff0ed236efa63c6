import Mathlib
import RepoSurvey.Path

/-!
The bytes of a text and what is read from them. The bytes of a text are read as that text, and an ASCII byte
is never part of anything longer: what stands before it and what follows it are read apart. A solidus is shown
only where there is one among the bytes.
-/

namespace RepoSurvey.Utf8

/-! ### What is read from the bytes of one character -/

/-- The byte that carries the last six bits of a number, behind the lead byte of a character. -/
def follower (k : Nat) : UInt8 := UInt8.ofNat (k % 64 + 128)

theorem toNat_follower (k : Nat) : (follower k).toNat = k % 64 + 128 := by
  rw [follower, UInt8.toNat_ofNat']
  omega

/-- With a byte that lies within the bounds, the value takes in six bits more. -/
theorem continuation_within {low high : UInt8} {n k taken : Nat} {rest : List UInt8}
    (hlow : low.toNat ≤ k % 64 + 128) (hhigh : k % 64 + 128 ≤ high.toNat) :
    continuation (n + 1) low high (k / 64) taken (follower k :: rest) =
      continuation n 0x80 0xBF k (taken + 1) rest := by
  have hbyte := toNat_follower k
  have hrange : low ≤ follower k ∧ follower k ≤ high :=
    ⟨show low.toNat ≤ (follower k).toNat by omega, show (follower k).toNat ≤ high.toNat by omega⟩
  have hvalue : k / 64 * 64 + ((follower k).toNat - 0x80) = k := by omega
  rw [continuation, if_pos hrange, hvalue]

/-- Behind the second byte of a character, the bounds leave all bytes in that can follow. -/
theorem continuation_follower (n k taken : Nat) (rest : List UInt8) :
    continuation (n + 1) 0x80 0xBF (k / 64) taken (follower k :: rest) =
      continuation n 0x80 0xBF k (taken + 1) rest := by
  have hhigh : (0xBF : UInt8).toNat = 191 := rfl
  exact continuation_within (Nat.le_add_left 128 _) (by omega)

theorem piece_one {b : UInt8} (h : b.toNat < 0x80) (rest : List UInt8) :
    piece b rest = (.scalar (Char.ofNat b.toNat), rest) :=
  if_pos h

theorem piece_two {b : UInt8} (hlow : 0xC2 ≤ b.toNat) (hhigh : b.toNat < 0xE0) (rest : List UInt8) :
    piece b rest = continuation 1 0x80 0xBF (b.toNat - 0xC0) 1 rest := by
  have hascii : ¬ b < 0x80 := fun h : b.toNat < 0x80 => by omega
  have hlead : ¬ b < 0xC2 := fun h : b.toNat < 0xC2 => by omega
  have htwo : b < 0xE0 := hhigh
  rw [piece, if_neg hascii, if_neg hlead, if_pos htwo]

theorem piece_three {b : UInt8} (hlow : 0xE0 ≤ b.toNat) (hhigh : b.toNat < 0xF0) (rest : List UInt8) :
    piece b rest = continuation 2 (if b = 0xE0 then 0xA0 else 0x80) (if b = 0xED then 0x9F else 0xBF)
      (b.toNat - 0xE0) 1 rest := by
  have hascii : ¬ b < 0x80 := fun h : b.toNat < 0x80 => by omega
  have hlead : ¬ b < 0xC2 := fun h : b.toNat < 0xC2 => by omega
  have htwo : ¬ b < 0xE0 := fun h : b.toNat < 0xE0 => by omega
  have hthree : b < 0xF0 := hhigh
  rw [piece, if_neg hascii, if_neg hlead, if_neg htwo]
  by_cases hfirst : b = 0xE0
  · rw [if_pos hfirst, if_pos hfirst, hfirst]
    rfl
  by_cases hsurrogate : b = 0xED
  · rw [if_neg hfirst, if_neg hfirst, if_pos hsurrogate, if_pos hsurrogate, hsurrogate]
    rfl
  · rw [if_neg hfirst, if_neg hfirst, if_neg hsurrogate, if_neg hsurrogate, if_pos hthree]

theorem piece_four {b : UInt8} (hlow : 0xF0 ≤ b.toNat) (hhigh : b.toNat < 0xF5) (rest : List UInt8) :
    piece b rest = continuation 3 (if b = 0xF0 then 0x90 else 0x80) (if b = 0xF4 then 0x8F else 0xBF)
      (b.toNat - 0xF0) 1 rest := by
  have hascii : ¬ b < 0x80 := fun h : b.toNat < 0x80 => by omega
  have hlead : ¬ b < 0xC2 := fun h : b.toNat < 0xC2 => by omega
  have htwo : ¬ b < 0xE0 := fun h : b.toNat < 0xE0 => by omega
  have hthree : ¬ b < 0xF0 := fun h : b.toNat < 0xF0 => by omega
  have hnot {k : UInt8} (hk : k.toNat < 0xF0) : b ≠ k := fun h => by
    rw [h] at hlow
    omega
  rw [piece, if_neg hascii, if_neg hlead, if_neg htwo, if_neg (hnot (by decide)),
    if_neg (hnot (by decide)), if_neg hthree]
  by_cases hfirst : b = 0xF0
  · rw [if_pos hfirst, if_pos hfirst, hfirst]
    rfl
  by_cases hlast : b = 0xF4
  · rw [if_neg hfirst, if_neg hfirst, if_pos hlast, if_pos hlast, hlast]
    rfl
  · have hfour : b < 0xF4 := by
      have hne : b.toNat ≠ 0xF4 := fun h => hlast (UInt8.toNat_inj.mp h)
      exact show b.toNat < 0xF4 by omega
    rw [if_neg hfirst, if_neg hfirst, if_neg hlast, if_neg hlast, if_pos hfour]

theorem piece_lead_two {v : Nat} (hlow : 127 < v) (hhigh : v ≤ 2047) (rest : List UInt8) :
    piece (UInt8.ofNat (v / 64 % 32 + 192)) (follower v :: rest) = (.scalar (Char.ofNat v), rest) := by
  have hlead := UInt8.toNat_ofNat_of_lt' (show v / 64 % 32 + 192 < 256 by omega)
  have hvalue : v / 64 % 32 + 192 - 0xC0 = v / 64 := by omega
  rw [piece_two (by omega) (by omega), hlead, hvalue, continuation_follower, continuation]

/-- Three bytes: the bounds behind the lead byte leave out what two bytes can carry, and the surrogates. -/
theorem piece_lead_three {v : Nat} (hlow : 2047 < v) (hhigh : v ≤ 65535)
    (hvalid : v < 0xD800 ∨ 0xDFFF < v) (rest : List UInt8) :
    piece (UInt8.ofNat (v / 4096 % 16 + 224)) (follower (v / 64) :: follower v :: rest) =
      (.scalar (Char.ofNat v), rest) := by
  have hlead := UInt8.toNat_ofNat_of_lt' (show v / 4096 % 16 + 224 < 256 by omega)
  have hvalue : v / 4096 % 16 + 224 - 0xE0 = v / 64 / 64 := by omega
  rw [piece_three (by omega) (by omega), hlead, hvalue, continuation_within, continuation_follower,
    continuation]
  · split
    · next heq =>
      have hfirst : (0xE0 : UInt8).toNat = 224 := rfl
      have hbound : (0xA0 : UInt8).toNat = 160 := rfl
      rw [heq] at hlead
      omega
    · exact Nat.le_add_left 128 _
  · split
    · next heq =>
      have hsurrogate : (0xED : UInt8).toNat = 237 := rfl
      have hbound : (0x9F : UInt8).toNat = 159 := rfl
      rw [heq] at hlead
      omega
    · exact Nat.le_of_lt_succ (show v / 64 % 64 + 128 < 192 by omega)

/-- Four bytes: the bounds behind the lead byte leave out what three bytes can carry, and all values past
the last character. -/
theorem piece_lead_four {v : Nat} (hlow : 65535 < v) (hhigh : v < 0x110000) (rest : List UInt8) :
    piece (UInt8.ofNat (v / 262144 % 8 + 240))
        (follower (v / 4096) :: follower (v / 64) :: follower v :: rest) =
      (.scalar (Char.ofNat v), rest) := by
  have hlead := UInt8.toNat_ofNat_of_lt' (show v / 262144 % 8 + 240 < 256 by omega)
  have hvalue : v / 262144 % 8 + 240 - 0xF0 = v / 4096 / 64 := by omega
  have hmiddle : v / 4096 = v / 64 / 64 := by omega
  rw [piece_four (by omega) (by omega), hlead, hvalue, continuation_within, hmiddle,
    continuation_follower, continuation_follower, continuation]
  · split
    · next heq =>
      have hfirst : (0xF0 : UInt8).toNat = 240 := rfl
      have hbound : (0x90 : UInt8).toNat = 144 := rfl
      rw [heq] at hlead
      omega
    · exact Nat.le_add_left 128 _
  · split
    · next heq =>
      have hlast : (0xF4 : UInt8).toNat = 244 := rfl
      have hbound : (0x8F : UInt8).toNat = 143 := rfl
      rw [heq] at hlead
      omega
    · exact Nat.le_of_lt_succ (show v / 4096 % 64 + 128 < 192 by omega)

/-- From the bytes of a character, that character is read, whatever follows them. -/
theorem exists_piece_encodeChar (c : Char) : ∃ b tail, String.utf8EncodeChar c = b :: tail ∧
    ∀ rest, piece b (tail ++ rest) = (.scalar c, rest) := by
  have hchar : Char.ofNat c.toNat = c := Char.ofNat_toNat c
  have hvalid : c.toNat < 0xD800 ∨ 0xDFFF < c.toNat ∧ c.toNat < 0x110000 := c.valid
  have hbytes : String.utf8EncodeChar c =
      if c.toNat ≤ 127 then [UInt8.ofNat c.toNat]
      else if c.toNat ≤ 2047 then [UInt8.ofNat (c.toNat / 64 % 32 + 192), follower c.toNat]
      else if c.toNat ≤ 65535 then
        [UInt8.ofNat (c.toNat / 4096 % 16 + 224), follower (c.toNat / 64), follower c.toNat]
      else [UInt8.ofNat (c.toNat / 262144 % 8 + 240), follower (c.toNat / 4096),
        follower (c.toNat / 64), follower c.toNat] := rfl
  rw [hbytes]
  generalize c.toNat = v at hchar hvalid
  subst hchar
  split
  · next hone =>
    have hlead := UInt8.toNat_ofNat_of_lt' (show v < 256 by omega)
    refine ⟨_, [], rfl, fun rest => ?_⟩
    rw [List.nil_append, piece_one (by omega), hlead]
  split
  · exact ⟨_, _, rfl, piece_lead_two (by omega) (by omega)⟩
  split
  · exact ⟨_, _, rfl, piece_lead_three (by omega) (by omega) (by omega)⟩
  · exact ⟨_, _, rfl, piece_lead_four (by omega) (by omega)⟩

theorem pieces_encodeChar_append (c : Char) (rest : List UInt8) :
    pieces (String.utf8EncodeChar c ++ rest) = .scalar c :: pieces rest := by
  obtain ⟨b, tail, hbytes, hpiece⟩ := exists_piece_encodeChar c
  rw [hbytes, List.cons_append, pieces, hpiece]

/-- The bytes of a text are read as that text. -/
theorem decodeLossy_encode (s : String) : decodeLossy (encode s) = s := by
  have hpieces (cs : List Char) :
      (pieces (cs.flatMap String.utf8EncodeChar)).map Piece.shown = cs := by
    induction cs with
    | nil => rw [List.flatMap_nil, pieces, List.map_nil]
    | cons c cs ih =>
      rw [List.flatMap_cons, pieces_encodeChar_append, List.map_cons, ih]
      rfl
  rw [decodeLossy, encode, hpieces, String.ofList_toList]

theorem encode_injective {s t : String} (h : encode s = encode t) : s = t := by
  rw [← decodeLossy_encode s, h, decodeLossy_encode]

theorem decodeLossy_nil : decodeLossy [] = "" := by
  rw [decodeLossy, pieces]
  rfl

theorem decodeLossy_ne_empty {bs : List UInt8} (h : bs ≠ []) : decodeLossy bs ≠ "" := by
  cases bs with
  | nil => exact absurd rfl h
  | cons b rest =>
    rw [decodeLossy, pieces]
    simp

theorem encode_ne_nil {s : String} (h : s ≠ "") : encode s ≠ [] := by
  intro heq
  have hread := decodeLossy_encode s
  rw [heq, decodeLossy_nil] at hread
  exact h hread.symm

/-! ### What is read on the two sides of an ASCII byte -/

/-- A character that an ASCII byte cuts off is shown as one that the end of the bytes cuts off. -/
theorem continuation_append {low b : UInt8} (hlow : b < low) (hb : b < 0x80) (n : Nat) (high : UInt8)
    (value taken : Nat) (bs rest : List UInt8) :
    (continuation n low high value taken (bs ++ b :: rest)).1.shown =
        (continuation n low high value taken bs).1.shown ∧
      (continuation n low high value taken (bs ++ b :: rest)).2 =
        (continuation n low high value taken bs).2 ++ b :: rest := by
  -- The induction is on the bytes that are still missing. After the first of them, all bounds begin at 0x80.
  induction n generalizing low high value taken bs with
  | zero => exact ⟨rfl, rfl⟩
  | succ n ih =>
    cases bs with
    | nil =>
      have hrange : ¬ (low ≤ b ∧ b ≤ high) := fun h => absurd h.1 (UInt8.not_le.mpr hlow)
      rw [List.nil_append, continuation, continuation, if_neg hrange]
      exact ⟨rfl, rfl⟩
    | cons c bs =>
      rw [List.cons_append, continuation, continuation]
      split
      · exact ih hb ..
      · exact ⟨rfl, rfl⟩

theorem piece_append {b : UInt8} (hb : b < 0x80) (c : UInt8) (bs rest : List UInt8) :
    (piece c (bs ++ b :: rest)).1.shown = (piece c bs).1.shown ∧
      (piece c (bs ++ b :: rest)).2 = (piece c bs).2 ++ b :: rest := by
  have hlow {k : UInt8} (hk : 0x80 ≤ k) : b < k := Nat.lt_of_lt_of_le hb hk
  unfold piece
  repeat' split
  all_goals first | exact continuation_append (hlow (by decide)) hb .. | exact ⟨rfl, rfl⟩

/-- An ASCII byte is read as its character, what stands before it and what follows it apart. -/
theorem toList_decodeLossy_append {b : UInt8} (hb : b < 0x80) (bs rest : List UInt8) :
    (decodeLossy (bs ++ b :: rest)).toList =
      (decodeLossy bs).toList ++ Char.ofNat b.toNat :: (decodeLossy rest).toList := by
  simp only [decodeLossy, String.toList_ofList]
  fun_induction pieces bs with
  | case1 =>
    rw [List.nil_append, pieces, piece_one hb]
    rfl
  | case2 c bs ih =>
    obtain ⟨hshown, hrest⟩ := piece_append hb c bs rest
    rw [List.cons_append, pieces, List.map_cons, hshown, hrest, ih, List.map_cons, List.cons_append]

/-- An ASCII byte stands in the bytes of a text only for its character. -/
theorem mem_of_mem_encode {b : UInt8} (hb : b < 0x80) {s : String} (h : b ∈ encode s) :
    Char.ofNat b.toNat ∈ s.toList := by
  obtain ⟨before, after, hbytes⟩ := List.append_of_mem h
  have hread := toList_decodeLossy_append hb before after
  rw [← hbytes, decodeLossy_encode] at hread
  rw [hread]
  exact List.mem_append_right _ List.mem_cons_self

theorem encode_append (s t : String) : encode (s ++ t) = encode s ++ encode t := by
  rw [encode, String.toList_append, List.flatMap_append, encode, encode]

/-! ### Where a solidus is shown -/

theorem ofNat_ne_solidus {value : Nat} (h : value ≠ 47) : Char.ofNat value ≠ '/' := by
  intro heq
  have hvalue : (Char.ofNat value).toNat = 47 := congrArg Char.toNat heq
  rw [Char.toNat_ofNat] at hvalue
  split at hvalue
  · exact h hvalue
  · -- What is no character is read as the first of all characters.
    exact absurd hvalue (by decide)

theorem replacement_ne_solidus : '\uFFFD' ≠ '/' := by decide

/-- No character of two bytes or more is a solidus: with the lead byte and the bound of the byte after
it, its value is too high. -/
theorem shown_continuation_ne (n : Nat) (low high : UInt8) (value taken : Nat) (bs : List UInt8)
    (h : 128 ≤ (value * 64 + (low.toNat - 128)) * 64 ^ n) :
    (continuation (n + 1) low high value taken bs).1.shown ≠ '/' := by
  -- The invariant is a lower bound of the value: every byte that is taken only raises it.
  induction n generalizing low high value taken bs with
  | zero =>
    cases bs with
    | nil => exact replacement_ne_solidus
    | cons b rest =>
      unfold continuation
      split
      · next hrange =>
        have hlow : low.toNat ≤ b.toNat := hrange.1
        unfold continuation
        exact ofNat_ne_solidus (by omega)
      · exact replacement_ne_solidus
  | succ n ih =>
    cases bs with
    | nil => exact replacement_ne_solidus
    | cons b rest =>
      unfold continuation
      split
      · next hrange =>
        have hlow : low.toNat ≤ b.toNat := hrange.1
        have hvalue : value * 64 + (low.toNat - 128) ≤ value * 64 + (b.toNat - 0x80) := by omega
        have hbound : 128 ≤ (value * 64 + (b.toNat - 0x80)) * 64 ^ (n + 1) :=
          Nat.le_trans h (Nat.mul_le_mul_right _ hvalue)
        have hzero : (0x80 : UInt8).toNat - 128 = 0 := rfl
        rw [Nat.pow_succ', ← Nat.mul_assoc] at hbound
        apply ih
        rw [hzero, Nat.add_zero]
        exact hbound
      · exact replacement_ne_solidus

/-- No byte but an ASCII one begins a solidus. -/
theorem shown_piece_ne_of_le {b : UInt8} (h : 128 ≤ b.toNat) (rest : List UInt8) :
    (piece b rest).1.shown ≠ '/' := by
  have hlow : (0x80 : UInt8).toNat - 128 = 0 := rfl
  unfold piece
  -- One case for each range of lead bytes, with its bounds of the byte after it. Without these bounds a
  -- low value could be written in more bytes than it needs.
  split
  · next hascii =>
    have hlt : b.toNat < 128 := hascii
    omega
  split
  · exact replacement_ne_solidus
  next hlead =>
  have hlead : ¬ b.toNat < 0xC2 := hlead
  split
  · exact shown_continuation_ne _ _ _ _ _ _ (by omega)
  next htwo =>
  have htwo : ¬ b.toNat < 0xE0 := htwo
  split
  · exact shown_continuation_ne _ _ _ _ _ _ (by decide)
  next hthree =>
  have hthree : b.toNat ≠ 0xE0 := fun heq => hthree (UInt8.toNat_inj.mp heq)
  split
  · exact shown_continuation_ne _ _ _ _ _ _ (by decide)
  split
  · exact shown_continuation_ne _ _ _ _ _ _ (by omega)
  next hfour =>
  have hfour : ¬ b.toNat < 0xF0 := hfour
  split
  · exact shown_continuation_ne _ _ _ _ _ _ (by decide)
  next hfirst =>
  have hfirst : b.toNat ≠ 0xF0 := fun heq => hfirst (UInt8.toNat_inj.mp heq)
  split
  · exact shown_continuation_ne _ _ _ _ _ _ (by omega)
  split
  · exact shown_continuation_ne _ _ _ _ _ _ (by decide)
  · exact replacement_ne_solidus

theorem eq_solidus_of_shown_piece {b : UInt8} {rest : List UInt8} (h : (piece b rest).1.shown = '/') :
    b = solidus := by
  by_cases hascii : b < 0x80
  · have hshown : Char.ofNat b.toNat = '/' := by
      unfold piece at h
      rw [if_pos hascii] at h
      exact h
    by_cases hvalue : b.toNat = 47
    · exact UInt8.toNat_inj.mp hvalue
    · exact absurd hshown (ofNat_ne_solidus hvalue)
  · have hnot : ¬ b.toNat < 128 := hascii
    exact absurd h (shown_piece_ne_of_le (by omega) rest)

theorem continuation_suffix (n : Nat) (low high : UInt8) (value taken : Nat) (bs : List UInt8) :
    (continuation n low high value taken bs).2 <:+ bs := by
  induction n generalizing low high value taken bs with
  | zero => exact List.suffix_refl bs
  | succ n ih =>
    cases bs with
    | nil => exact List.suffix_refl []
    | cons b rest =>
      unfold continuation
      split
      · exact (ih ..).trans (List.suffix_cons b rest)
      · exact List.suffix_refl _

theorem piece_suffix (b : UInt8) (rest : List UInt8) : (piece b rest).2 <:+ rest := by
  unfold piece
  repeat' split
  all_goals first | exact continuation_suffix .. | exact List.suffix_refl rest

/-- A solidus is shown only where the bytes have one. -/
theorem solidus_mem_of_mem_decodeLossy {bs : List UInt8} (h : '/' ∈ (decodeLossy bs).toList) :
    solidus ∈ bs := by
  rw [decodeLossy, String.toList_ofList] at h
  fun_induction pieces bs with
  | case1 => simp at h
  | case2 b rest ih =>
    rw [List.map_cons] at h
    rcases List.mem_cons.mp h with hhead | htail
    · rw [eq_solidus_of_shown_piece hhead.symm]
      exact List.mem_cons_self
    · have hrest := ih htail
      exact List.mem_cons_of_mem b ((piece_suffix b rest).subset hrest)

end RepoSurvey.Utf8
