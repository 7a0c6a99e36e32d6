import UrlScan.Text.Utf8

/-!
# UTF-8 both ways

Reading and writing UTF-8 are inverse to each other. A byte sequence that decodes is the encoding of
what it decodes to, so there is only one way to write a text; and what is written is always read
back.

Results:
1. `encode_of_decode`: bytes that decode to a text are the bytes of that text.
2. `decode_encode`: the bytes of a text decode to that text.
3. `decode_eq_ok_iff`: the two together.
-/

namespace UrlScan.Utf8

namespace Utf8Lemmas

theorem ofNat_eq {n : Nat} {b : UInt8} (same : n = b.toNat) : UInt8.ofNat n = b := by
  rw [same]
  exact UInt8.ofNat_toNat

theorem toNat_ofNat_byte {n : Nat} (small : n < 256) : (UInt8.ofNat n).toNat = n := by
  rw [UInt8.toNat_ofNat']
  exact Nat.mod_eq_of_lt small

theorem toNat_ofNat_char {n : Nat} (valid : n < 0xD800 ∨ 0xE000 ≤ n ∧ n < 0x110000) :
    (Char.ofNat n).toNat = n := by
  have isValid : n.isValidChar := by
    unfold Nat.isValidChar
    omega
  rw [Char.ofNat, dif_pos isValid]
  rfl

theorem char_range (c : Char) : c.toNat < 0xD800 ∨ 0xE000 ≤ c.toNat ∧ c.toNat < 0x110000 := by
  have valid : c.toNat.isValidChar := c.valid
  unfold Nat.isValidChar at valid
  omega

/-! ### The bytes of one character -/

theorem encodeChar_one {c : Char} (small : c.toNat < 0x80) :
    encodeChar c = [UInt8.ofNat c.toNat] := by
  rw [encodeChar, if_pos small]

theorem encodeChar_two {c : Char} (low : 0x80 ≤ c.toNat) (high : c.toNat < 0x800) :
    encodeChar c =
      [UInt8.ofNat (0xC0 + c.toNat / 64), UInt8.ofNat (0x80 + c.toNat % 64)] := by
  rw [encodeChar, if_neg (by omega), if_pos high]

theorem encodeChar_three {c : Char} (low : 0x800 ≤ c.toNat) (high : c.toNat < 0x10000) :
    encodeChar c =
      [UInt8.ofNat (0xE0 + c.toNat / 4096), UInt8.ofNat (0x80 + c.toNat / 64 % 64),
        UInt8.ofNat (0x80 + c.toNat % 64)] := by
  rw [encodeChar, if_neg (by omega), if_neg (by omega), if_pos high]

theorem encodeChar_four {c : Char} (low : 0x10000 ≤ c.toNat) :
    encodeChar c =
      [UInt8.ofNat (0xF0 + c.toNat / 262144), UInt8.ofNat (0x80 + c.toNat / 4096 % 64),
        UInt8.ofNat (0x80 + c.toNat / 64 % 64), UInt8.ofNat (0x80 + c.toNat % 64)] := by
  rw [encodeChar, if_neg (by omega), if_neg (by omega), if_neg (by omega)]

/-! ### Lead bytes and continuation bytes -/

/-- The lead bytes by the number of their continuation bytes. The range of the first continuation
byte is the one that leaves no other lead byte, no surrogate and nothing above U+10FFFF. -/
theorem lead?_cases {b : UInt8} {lead : Lead} (found : lead? b = some lead) :
    (b.toNat < 0x80 ∧ lead.continuations = 0 ∧ lead.bits = b.toNat) ∨
    (0xC2 ≤ b.toNat ∧ b.toNat < 0xE0 ∧ lead.continuations = 1 ∧ lead.bits = b.toNat - 0xC0 ∧
      lead.low = 0x80 ∧ lead.high = 0xBF) ∨
    (0xE0 ≤ b.toNat ∧ b.toNat < 0xF0 ∧ lead.continuations = 2 ∧ lead.bits = b.toNat - 0xE0 ∧
      (b.toNat = 0xE0 ∧ lead.low = 0xA0 ∨ b.toNat ≠ 0xE0 ∧ lead.low = 0x80) ∧
      (b.toNat = 0xED ∧ lead.high = 0x9F ∨ b.toNat ≠ 0xED ∧ lead.high = 0xBF)) ∨
    (0xF0 ≤ b.toNat ∧ b.toNat < 0xF5 ∧ lead.continuations = 3 ∧ lead.bits = b.toNat - 0xF0 ∧
      (b.toNat = 0xF0 ∧ lead.low = 0x90 ∨ b.toNat ≠ 0xF0 ∧ lead.low = 0x80) ∧
      (b.toNat = 0xF4 ∧ lead.high = 0x8F ∨ b.toNat ≠ 0xF4 ∧ lead.high = 0xBF)) := by
  unfold lead? at found
  generalize b.toNat = n at found ⊢
  dsimp only at found
  repeat' split at found
  all_goals first | obtain rfl := Option.some.inj found | exact absurd found.symm nofun
  all_goals dsimp only
  all_goals omega

/-- What reading one more continuation byte needs. -/
theorem continuations_succ_iff {low high count bits value : Nat} {bytes rest : Bytes} :
    continuations low high (count + 1) bits bytes = .ok (value, rest) ↔
      ∃ b tail, bytes = b :: tail ∧ low ≤ b.toNat ∧ b.toNat ≤ high ∧
        continuations 0x80 0xBF count (bits * 64 + b.toNat % 64) tail = .ok (value, rest) := by
  cases bytes with
  | nil => simp [continuations]
  | cons b tail =>
    simp only [continuations, List.cons.injEq]
    constructor
    · intro read
      split at read
      next within =>
        split at read
        next result found =>
          cases read
          exact ⟨b, tail, ⟨rfl, rfl⟩, within.1, within.2, found⟩
        next => cases read
      next => cases read
    · rintro ⟨_, _, ⟨rfl, rfl⟩, atLeast, atMost, found⟩
      rw [if_pos ⟨atLeast, atMost⟩, found]

/-- One lead byte and its continuation bytes are the encoding of the character they stand for. -/
theorem encodeChar_of_read {b : UInt8} {lead : Lead} {value : Nat} {bytes rest : Bytes}
    (begins : lead? b = some lead)
    (read : continuations lead.low lead.high lead.continuations lead.bits bytes
      = .ok (value, rest)) :
    b :: bytes = encodeChar (Char.ofNat value) ++ rest := by
  rcases lead?_cases begins with ⟨small, count, bits⟩ |
    ⟨low, high, count, bits, lowest, highest⟩ | ⟨low, high, count, bits, lowest, highest⟩ |
    ⟨low, high, count, bits, lowest, highest⟩
  -- One case for each number of continuation bytes. The bounds on the first of them are what keeps
  -- the code point in the range of its width.
  · rw [count, bits, continuations] at read
    cases read
    have same := toNat_ofNat_char (n := b.toNat) (by omega)
    rw [encodeChar_one (by omega), same, ofNat_eq rfl]
    rfl
  · rw [count, bits, continuations_succ_iff] at read
    obtain ⟨b₁, tail, rfl, low₁, high₁, read⟩ := read
    rw [continuations] at read
    cases read
    have same := toNat_ofNat_char (n := (b.toNat - 0xC0) * 64 + b₁.toNat % 64) (by omega)
    rw [encodeChar_two (by omega) (by omega), same, ofNat_eq (b := b) (by omega),
      ofNat_eq (b := b₁) (by omega)]
    rfl
  · rw [count, bits, continuations_succ_iff] at read
    obtain ⟨b₁, tail, rfl, low₁, high₁, read⟩ := read
    obtain ⟨b₂, tail, rfl, low₂, high₂, read⟩ := continuations_succ_iff.mp read
    rw [continuations] at read
    cases read
    have same := toNat_ofNat_char
      (n := ((b.toNat - 0xE0) * 64 + b₁.toNat % 64) * 64 + b₂.toNat % 64) (by omega)
    rw [encodeChar_three (by omega) (by omega), same, ofNat_eq (b := b) (by omega),
      ofNat_eq (b := b₁) (by omega), ofNat_eq (b := b₂) (by omega)]
    rfl
  · rw [count, bits, continuations_succ_iff] at read
    obtain ⟨b₁, tail, rfl, low₁, high₁, read⟩ := read
    obtain ⟨b₂, tail, rfl, low₂, high₂, read⟩ := continuations_succ_iff.mp read
    obtain ⟨b₃, tail, rfl, low₃, high₃, read⟩ := continuations_succ_iff.mp read
    rw [continuations] at read
    cases read
    have same := toNat_ofNat_char
      (n := (((b.toNat - 0xF0) * 64 + b₁.toNat % 64) * 64 + b₂.toNat % 64) * 64 + b₃.toNat % 64)
      (by omega)
    rw [encodeChar_four (by omega), same, ofNat_eq (b := b) (by omega),
      ofNat_eq (b := b₁) (by omega), ofNat_eq (b := b₂) (by omega), ofNat_eq (b := b₃) (by omega)]
    rfl

theorem exists_lead {b : UInt8} (begins : b.toNat < 0x80 ∨ 0xC2 ≤ b.toNat ∧ b.toNat < 0xF5) :
    ∃ lead, lead? b = some lead := by
  unfold lead?
  generalize b.toNat = n at begins ⊢
  dsimp only
  repeat' split
  all_goals first | exact ⟨_, rfl⟩ | omega

/-- The encoding of a character is a lead byte and the continuation bytes it announces. -/
theorem read_of_encodeChar (c : Char) (rest : Bytes) :
    ∃ b bytes lead, encodeChar c ++ rest = b :: bytes ∧ lead? b = some lead ∧
      continuations lead.low lead.high lead.continuations lead.bits bytes
        = .ok (c.toNat, rest) := by
  have range := char_range c
  rcases Nat.lt_or_ge c.toNat 0x80 with one | more
  · have first := toNat_ofNat_byte (n := c.toNat) (by omega)
    obtain ⟨lead, begins⟩ := exists_lead (b := UInt8.ofNat c.toNat) (by omega)
    refine ⟨_, _, lead, by rw [encodeChar_one one]; rfl, begins, ?_⟩
    have cases := lead?_cases begins
    have count : lead.continuations = 0 := by omega
    have bits : lead.bits = c.toNat := by omega
    rw [count, bits]
    rfl
  -- From here on there is a last continuation byte, which carries the lowest six bits.
  have last := toNat_ofNat_byte (n := 0x80 + c.toNat % 64) (by omega)
  rcases Nat.lt_or_ge c.toNat 0x800 with two | more
  · have first := toNat_ofNat_byte (n := 0xC0 + c.toNat / 64) (by omega)
    obtain ⟨lead, begins⟩ := exists_lead (b := UInt8.ofNat (0xC0 + c.toNat / 64)) (by omega)
    refine ⟨_, _, lead, by rw [encodeChar_two (by omega) two]; rfl, begins, ?_⟩
    have cases := lead?_cases begins
    have count : lead.continuations = 1 := by omega
    rw [count, continuations_succ_iff]
    refine ⟨_, _, rfl, by omega, by omega, ?_⟩
    rw [continuations]
    congr 2
    omega
  have third := toNat_ofNat_byte (n := 0x80 + c.toNat / 64 % 64) (by omega)
  rcases Nat.lt_or_ge c.toNat 0x10000 with three | four
  · have first := toNat_ofNat_byte (n := 0xE0 + c.toNat / 4096) (by omega)
    obtain ⟨lead, begins⟩ := exists_lead (b := UInt8.ofNat (0xE0 + c.toNat / 4096)) (by omega)
    refine ⟨_, _, lead, by rw [encodeChar_three (by omega) three]; rfl, begins, ?_⟩
    have cases := lead?_cases begins
    have count : lead.continuations = 2 := by omega
    rw [count, continuations_succ_iff]
    refine ⟨_, _, rfl, by omega, by omega, continuations_succ_iff.mpr ?_⟩
    refine ⟨_, _, rfl, by omega, by omega, ?_⟩
    rw [continuations]
    congr 2
    omega
  · have second := toNat_ofNat_byte (n := 0x80 + c.toNat / 4096 % 64) (by omega)
    have first := toNat_ofNat_byte (n := 0xF0 + c.toNat / 262144) (by omega)
    obtain ⟨lead, begins⟩ := exists_lead (b := UInt8.ofNat (0xF0 + c.toNat / 262144)) (by omega)
    refine ⟨_, _, lead, by rw [encodeChar_four four]; rfl, begins, ?_⟩
    have cases := lead?_cases begins
    have count : lead.continuations = 3 := by omega
    rw [count, continuations_succ_iff]
    refine ⟨_, _, rfl, by omega, by omega, continuations_succ_iff.mpr ?_⟩
    refine ⟨_, _, rfl, by omega, by omega, continuations_succ_iff.mpr ?_⟩
    refine ⟨_, _, rfl, by omega, by omega, ?_⟩
    rw [continuations]
    congr 2
    omega

end Utf8Lemmas

open Utf8Lemmas

/-! ## Whole texts -/

theorem decodeFrom_cons {b : UInt8} {lead : Lead} {bytes rest : Bytes} {value start : Nat}
    (begins : lead? b = some lead)
    (read : continuations lead.low lead.high lead.continuations lead.bits bytes
      = .ok (value, rest)) :
    decodeFrom start (b :: bytes) =
      (decodeFrom (start + 1 + lead.continuations) rest).map (Char.ofNat value :: ·) := by
  rw [decodeFrom, begins]
  dsimp only
  split
  next failed => cases read.symm.trans failed
  next value' rest' read' =>
    cases read.symm.trans read'
    cases decodeFrom (start + 1 + lead.continuations) rest <;> rfl

/-- Bytes that decode to a text, wherever they begin, are the bytes of that text. -/
theorem encode_of_decodeFrom {start : Nat} {bytes : Bytes} {t : Text}
    (read : decodeFrom start bytes = .ok t) : encode t = bytes := by
  induction start, bytes using decodeFrom.induct generalizing t with
  | case1 start =>
    rw [decodeFrom] at read
    cases read
    rfl
  | case2 start b rest none =>
    rw [decodeFrom, none] at read
    cases read
  | case3 start b rest lead begins fault valid failed =>
    rw [decodeFrom, begins] at read
    dsimp only at read
    split at read
    next => cases read
    next found => cases failed.symm.trans found
  | case4 start b rest lead begins value rest' found e failed ih =>
    rw [decodeFrom_cons begins found, failed] at read
    cases read
  | case5 start b rest lead begins value rest' found t' read' ih =>
    rw [decodeFrom_cons begins found, read'] at read
    cases read
    rw [encodeChar_of_read begins found, ← ih read']
    rfl

/-- The bytes of a text decode to the text, wherever they begin. -/
theorem decodeFrom_encode (start : Nat) (t : Text) : decodeFrom start (encode t) = .ok t := by
  induction t generalizing start with
  | nil => rw [encode, List.flatMap_nil, decodeFrom]
  | cons c rest ih =>
    obtain ⟨b, bytes, lead, whole, begins, read⟩ := read_of_encodeChar c (encode rest)
    have split : encode (c :: rest) = encodeChar c ++ encode rest := rfl
    rw [split, whole, decodeFrom_cons begins read, ih, Char.ofNat_toNat]
    rfl

theorem encode_of_decode {bytes : Bytes} {t : Text} (read : decode bytes = .ok t) :
    encode t = bytes :=
  encode_of_decodeFrom read

theorem decode_encode (t : Text) : decode (encode t) = .ok t :=
  decodeFrom_encode 0 t

theorem decode_eq_ok_iff {bytes : Bytes} {t : Text} : decode bytes = .ok t ↔ encode t = bytes :=
  ⟨encode_of_decode, fun written => written ▸ decode_encode t⟩

theorem encodeChar_length_pos (c : Char) : 0 < (encodeChar c).length := by
  obtain ⟨b, bytes, lead, whole, begins, read⟩ := read_of_encodeChar c []
  rw [List.append_nil] at whole
  rw [whole]
  exact Nat.succ_pos _

end UrlScan.Utf8
