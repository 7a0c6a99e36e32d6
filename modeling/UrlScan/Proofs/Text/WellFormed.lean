import UrlScan.Proofs.Text.Utf8

/-!
# Which bytes are UTF-8

Decoding decides with a table of lead bytes whether bytes are UTF-8. This file says it without the
table. The highest bits of a lead byte tell how many continuation bytes follow it, and the other bits
of all these bytes are a number, which they spell (`Spells`). As far as this goes, a small number is
spelled in several ways, and surrogates and numbers beyond the last code point are spelled as well.
Bytes are well formed if they are made of spellings that are the shortest ones of their numbers and
whose numbers are characters (`WellFormed`).

Results:
1. `Spells.unique`: a number has one spelling of each length at most.
2. `isCharacter_encodeChar`, `eq_encodeChar`: the spellings of characters are what is written.
3. `wellFormed_iff`: the well-formed bytes are those that decode.
-/

namespace UrlScan.Utf8

def IsContinuation (b : UInt8) : Prop :=
  0x80 ≤ b.toNat ∧ b.toNat < 0xC0

/-- `Spells bytes n`: a lead byte and the continuation bytes that its highest bits announce. Their
other bits, five, four or three of the lead byte and six of each continuation byte, are the number
`n`. A byte whose highest bit is zero is a number by itself. -/
inductive Spells : Bytes → Nat → Prop
  | one {a : UInt8} {n : Nat} : a.toNat < 0x80 → n = a.toNat → Spells [a] n
  | two {a b : UInt8} {n : Nat} : 0xC0 ≤ a.toNat → a.toNat < 0xE0 → IsContinuation b →
      n = (a.toNat - 0xC0) * 64 + (b.toNat - 0x80) → Spells [a, b] n
  | three {a b c : UInt8} {n : Nat} : 0xE0 ≤ a.toNat → a.toNat < 0xF0 → IsContinuation b →
      IsContinuation c →
      n = ((a.toNat - 0xE0) * 64 + (b.toNat - 0x80)) * 64 + (c.toNat - 0x80) → Spells [a, b, c] n
  | four {a b c d : UInt8} {n : Nat} : 0xF0 ≤ a.toNat → a.toNat < 0xF8 → IsContinuation b →
      IsContinuation c → IsContinuation d →
      n = (((a.toNat - 0xF0) * 64 + (b.toNat - 0x80)) * 64 + (c.toNat - 0x80)) * 64
        + (d.toNat - 0x80) → Spells [a, b, c, d] n

/-- The bytes of one character: no shorter bytes spell the same number, and the number is neither a
surrogate nor above the last code point. -/
structure IsCharacter (bytes : Bytes) (n : Nat) : Prop where
  spells : Spells bytes n
  shortest : ∀ other, Spells other n → bytes.length ≤ other.length
  not_surrogate : n < 0xD800 ∨ 0xE000 ≤ n
  not_above : n ≤ 0x10FFFF

inductive WellFormed : Bytes → Prop
  | nil : WellFormed []
  | cons {bytes rest : Bytes} {n : Nat} : IsCharacter bytes n → WellFormed rest →
      WellFormed (bytes ++ rest)

open Utf8Lemmas

section
variable {bytes other : Bytes} {n : Nat}

/-- How large a number can be that is spelled with so many bytes. -/
theorem Spells.bounds (spells : Spells bytes n) :
    (bytes.length = 1 ∧ n < 0x80) ∨ (bytes.length = 2 ∧ n < 0x800) ∨
      (bytes.length = 3 ∧ n < 0x10000) ∨ (bytes.length = 4 ∧ n < 0x200000) := by
  cases spells with
  | one small value => exact .inl ⟨rfl, by omega⟩
  | two low high b value =>
    unfold IsContinuation at b
    exact .inr (.inl ⟨rfl, by omega⟩)
  | three low high b c value =>
    unfold IsContinuation at b c
    exact .inr (.inr (.inl ⟨rfl, by omega⟩))
  | four low high b c d value =>
    unfold IsContinuation at b c d
    exact .inr (.inr (.inr ⟨rfl, by omega⟩))

/-- A number has at most one spelling of each length. -/
theorem Spells.unique (first : Spells bytes n) (second : Spells other n)
    (length : bytes.length = other.length) : bytes = other := by
  have same {a b : UInt8} (equal : a.toNat = b.toNat) : a = b := UInt8.toNat_inj.mp equal
  cases first with
  | one small value =>
    cases second with
    | one small' value' => rw [same (value.symm.trans value')]
    | two | three | four => cases length
  | two low high b value =>
    cases second with
    | two low' high' b' value' =>
      unfold IsContinuation at b b'
      simp only [List.cons.injEq, and_true]
      exact ⟨same (by omega), same (by omega)⟩
    | one | three | four => cases length
  | three low high b c value =>
    cases second with
    | three low' high' b' c' value' =>
      unfold IsContinuation at b c b' c'
      simp only [List.cons.injEq, and_true]
      exact ⟨same (by omega), same (by omega), same (by omega)⟩
    | one | two | four => cases length
  | four low high b c d value =>
    cases second with
    | four low' high' b' c' d' value' =>
      unfold IsContinuation at b c d b' c' d'
      simp only [List.cons.injEq, and_true]
      exact ⟨same (by omega), same (by omega), same (by omega), same (by omega)⟩
    | one | two | three => cases length

end

theorem spells_encodeChar (c : Char) : Spells (encodeChar c) c.toNat := by
  have range := char_range c
  have last := toNat_ofNat_byte (n := 0x80 + c.toNat % 64) (by omega)
  have third := toNat_ofNat_byte (n := 0x80 + c.toNat / 64 % 64) (by omega)
  have second := toNat_ofNat_byte (n := 0x80 + c.toNat / 4096 % 64) (by omega)
  rcases Nat.lt_or_ge c.toNat 0x80 with one | more
  · have first := toNat_ofNat_byte (n := c.toNat) (by omega)
    rw [encodeChar_one one]
    exact .one (by omega) first.symm
  rcases Nat.lt_or_ge c.toNat 0x800 with two | more
  · have first := toNat_ofNat_byte (n := 0xC0 + c.toNat / 64) (by omega)
    rw [encodeChar_two (by omega) two]
    exact .two (by omega) (by omega) ⟨by omega, by omega⟩ (by omega)
  rcases Nat.lt_or_ge c.toNat 0x10000 with three | four
  · have first := toNat_ofNat_byte (n := 0xE0 + c.toNat / 4096) (by omega)
    rw [encodeChar_three (by omega) three]
    exact .three (by omega) (by omega) ⟨by omega, by omega⟩ ⟨by omega, by omega⟩ (by omega)
  · have first := toNat_ofNat_byte (n := 0xF0 + c.toNat / 262144) (by omega)
    rw [encodeChar_four four]
    exact .four (by omega) (by omega) ⟨by omega, by omega⟩ ⟨by omega, by omega⟩
      ⟨by omega, by omega⟩ (by omega)

/-- As many bytes are written for a character as its code point needs. -/
theorem length_encodeChar_cases (c : Char) :
    (encodeChar c).length = 1 ∨ ((encodeChar c).length = 2 ∧ 0x80 ≤ c.toNat) ∨
      ((encodeChar c).length = 3 ∧ 0x800 ≤ c.toNat) ∨
      ((encodeChar c).length = 4 ∧ 0x10000 ≤ c.toNat) := by
  rcases Nat.lt_or_ge c.toNat 0x80 with one | more
  · exact .inl (by rw [encodeChar_one one]; rfl)
  rcases Nat.lt_or_ge c.toNat 0x800 with two | more'
  · exact .inr (.inl ⟨by rw [encodeChar_two more two]; rfl, more⟩)
  rcases Nat.lt_or_ge c.toNat 0x10000 with three | four
  · exact .inr (.inr (.inl ⟨by rw [encodeChar_three more' three]; rfl, more'⟩))
  · exact .inr (.inr (.inr ⟨by rw [encodeChar_four four]; rfl, four⟩))

/-- What is written for a character is the shortest spelling of its code point. -/
theorem isCharacter_encodeChar (c : Char) : IsCharacter (encodeChar c) c.toNat where
  spells := spells_encodeChar c
  shortest other spells := by
    have width := length_encodeChar_cases c
    have bounds := spells.bounds
    omega
  not_surrogate := by
    have range := char_range c
    omega
  not_above := by
    have range := char_range c
    omega

/-- The bytes of a character are those that are written for it. -/
theorem IsCharacter.eq_encodeChar {bytes : Bytes} {n : Nat} (isCharacter : IsCharacter bytes n) :
    bytes = encodeChar (Char.ofNat n) := by
  have surrogate := isCharacter.not_surrogate
  have above := isCharacter.not_above
  have value : (Char.ofNat n).toNat = n := toNat_ofNat_char (by omega)
  have written := isCharacter_encodeChar (Char.ofNat n)
  rw [value] at written
  refine isCharacter.spells.unique written.spells (Nat.le_antisymm ?_ ?_)
  · exact isCharacter.shortest _ written.spells
  · exact written.shortest _ isCharacter.spells

/-- Bytes are well formed if and only if they decode. -/
theorem wellFormed_iff {bytes : Bytes} : WellFormed bytes ↔ ∃ t, decode bytes = .ok t := by
  simp only [decode_eq_ok_iff]
  constructor
  · intro wellFormed
    induction wellFormed with
    | nil => exact ⟨[], rfl⟩
    | cons isCharacter _ ih =>
      obtain ⟨t, rfl⟩ := ih
      exact ⟨_ :: t, by rw [isCharacter.eq_encodeChar]; rfl⟩
  · rintro ⟨t, rfl⟩
    induction t with
    | nil => exact .nil
    | cons c rest ih => exact .cons (isCharacter_encodeChar c) ih

instance (bytes : Bytes) : Decidable (WellFormed bytes) :=
  decidable_of_iff ((decode bytes).isOk = true) <| by
    rw [wellFormed_iff]
    cases decode bytes <;> simp [Except.isOk, Except.toBool]

/-- An overlong form, a surrogate, a number above the last code point, and a character without its
last byte. -/
example : [[0xC1, 0x81], [0xED, 0xA0, 0x80], [0xF4, 0x90, 0x80, 0x80], [0xE2, 0x82]].all
    (fun bytes => ¬WellFormed bytes) = true := by
  decide +kernel

end UrlScan.Utf8
