import UrlScan.Proofs.Text.Utf8
import UrlScan.Source.Document

/-!
# From bytes to characters

A document holds the bytes of its own text (`Document.Agrees`). In such a document every byte offset
from the beginning of the file to its end has a character offset: the number of the character whose
bytes it falls into (`Reaches`). The short cut for documents of single-byte characters gives the
same answer as the table.

Results:
1. `charOffset?_eq_some`: every byte offset inside the document has the character offset it reaches.
2. `Reaches.mono`: later bytes reach later characters, or the same one.
3. `ofBytes_eq_ofText`: the bytes of any encoding yield the document of their text.
4. `charOffset?_ofText`: which character each byte offset leads to, with and without the table.
-/

namespace UrlScan

namespace Document

/-- What a document says about its text holds of the text: the bytes are the bytes of the text, and
the lines are its lines. -/
structure Agrees (d : Document) : Prop where
  bytes_eq : d.bytes = Utf8.encode d.text
  lines_eq : d.lines = LineIndex.ofText d.text

/-- `Reaches t offset k`: the byte at `offset` belongs to character number `k` of the text; the end
of the bytes belongs to the end of the text. -/
structure Reaches (t : Text) (offset k : Nat) : Prop where
  inside : k ≤ t.length
  after : (Utf8.encode (t.take k)).length ≤ offset
  before : k < t.length → offset < (Utf8.encode (t.take (k + 1))).length

namespace OffsetLemmas

theorem encode_append (s t : Text) : Utf8.encode (s ++ t) = Utf8.encode s ++ Utf8.encode t :=
  List.flatMap_append

theorem encode_cons (c : Char) (t : Text) :
    Utf8.encode (c :: t) = Utf8.encodeChar c ++ Utf8.encode t :=
  rfl

theorem length_le_length_encode (t : Text) : t.length ≤ (Utf8.encode t).length := by
  induction t with
  | nil => exact Nat.le_refl _
  | cons c rest ih =>
    have positive := Utf8.encodeChar_length_pos c
    rw [encode_cons, List.length_append, List.length_cons]
    omega

theorem length_encode_take_mono (t : Text) {i j : Nat} (order : i ≤ j) :
    (Utf8.encode (t.take i)).length ≤ (Utf8.encode (t.take j)).length := by
  have split : t.take j = t.take i ++ (t.take j).drop i := by
    have parts := List.take_append_drop i (t.take j)
    rw [List.take_take, Nat.min_eq_left order] at parts
    exact parts.symm
  rw [split, encode_append, List.length_append]
  exact Nat.le_add_right _ _

/-- When a text has as many bytes as characters, so has every beginning of it. -/
theorem length_encode_take {t : Text} (single : (Utf8.encode t).length = t.length) {k : Nat}
    (inside : k ≤ t.length) : (Utf8.encode (t.take k)).length = k := by
  have front := length_le_length_encode (t.take k)
  have back := length_le_length_encode (t.drop k)
  have whole : (Utf8.encode (t.take k)).length + (Utf8.encode (t.drop k)).length = t.length := by
    rw [← List.length_append, ← encode_append, List.take_append_drop, single]
  rw [List.length_take, Nat.min_eq_left inside] at front
  rw [List.length_drop] at back
  omega

theorem length_charsFrom (index : Nat) (t : Text) :
    (charsFrom index t).length = (Utf8.encode t).length := by
  induction t generalizing index with
  | nil => rfl
  | cons c rest ih =>
    rw [charsFrom, encode_cons, List.length_append, List.length_append, List.length_replicate, ih]

/-- The table of a text, at the offset of one of its bytes, holds the number of the character that
the byte belongs to. -/
theorem charsFrom_reaches (index : Nat) {t : Text} {offset : Nat}
    (inside : offset < (Utf8.encode t).length) :
    ∃ k, k < t.length ∧ Reaches t offset k ∧ (charsFrom index t)[offset]? = some (index + k) := by
  induction t generalizing index offset with
  | nil => exact absurd inside (Nat.not_lt_zero _)
  | cons c rest ih =>
    rw [encode_cons, List.length_append] at inside
    rw [charsFrom]
    -- The byte belongs to the first character, or to one of those behind it.
    rcases Nat.lt_or_ge offset (Utf8.encodeChar c).length with first | later
    · refine ⟨0, Nat.succ_pos _, ⟨Nat.zero_le _, Nat.zero_le _, fun _ => ?_⟩, ?_⟩
      · simpa [encode_cons, Utf8.encode] using first
      · rw [List.getElem?_append_left (by simpa using first), List.getElem?_replicate,
          if_pos first, Nat.add_zero]
    · have behind : offset - (Utf8.encodeChar c).length < (Utf8.encode rest).length := by omega
      obtain ⟨k, short, reaches, found⟩ := ih (index + 1) behind
      have after := reaches.after
      have before := reaches.before short
      refine ⟨k + 1, Nat.succ_lt_succ short, ⟨Nat.succ_le_succ reaches.inside, ?_, fun _ => ?_⟩, ?_⟩
      · rw [List.take_succ_cons, encode_cons, List.length_append]
        omega
      · rw [List.take_succ_cons, encode_cons, List.length_append]
        omega
      · rw [List.getElem?_append_right (by simpa using later), List.length_replicate, found]
        congr 1
        omega

end OffsetLemmas

open OffsetLemmas

/-- Later bytes reach later characters, or the same one. -/
theorem Reaches.mono {t : Text} {i j k l : Nat} (first : Reaches t i k) (second : Reaches t j l)
    (order : i ≤ j) : k ≤ l := by
  refine Nat.le_of_not_lt fun backwards => ?_
  have short : l < t.length := Nat.lt_of_lt_of_le backwards first.inside
  have next := length_encode_take_mono t (i := l + 1) backwards
  have before := second.before short
  have after := first.after
  omega

theorem Reaches.unique {t : Text} {offset k l : Nat} (first : Reaches t offset k)
    (second : Reaches t offset l) : k = l :=
  Nat.le_antisymm (first.mono second (Nat.le_refl _)) (second.mono first (Nat.le_refl _))

/-- The bytes of a beginning of the text reach up to the character behind it. -/
theorem reaches_length_encode_take {t : Text} {k : Nat} (inside : k ≤ t.length) :
    Reaches t (Utf8.encode (t.take k)).length k where
  inside := inside
  after := Nat.le_refl _
  before short := by
    have positive := Utf8.encodeChar_length_pos t[k]
    have one : Utf8.encode [t[k]] = Utf8.encodeChar t[k] := List.flatMap_singleton _ _
    rw [List.take_succ_eq_append_getElem short, encode_append, one, List.length_append]
    omega

/-- The table of a text holds, for every byte offset and for the end of the bytes, the number of the
character that is reached. -/
theorem charTable_reaches {t : Text} {offset : Nat} (inside : offset ≤ (Utf8.encode t).length) :
    ∃ k, (charTable t)[offset]? = some k ∧ Reaches t offset k := by
  rw [charTable]
  rcases Nat.lt_or_eq_of_le inside with short | atEnd
  · obtain ⟨k, -, reaches, found⟩ := charsFrom_reaches 0 short
    refine ⟨k, ?_, reaches⟩
    rw [List.getElem?_append_left (by rwa [length_charsFrom]), found, Nat.zero_add]
  · refine ⟨t.length, ?_, Nat.le_refl _, ?_, fun absurdity => ?_⟩
    · rw [atEnd, ← length_charsFrom 0]
      exact List.getElem?_concat_length
    · exact Nat.le_of_eq (by rw [List.take_length, atEnd])
    · exact absurd absurdity (Nat.lt_irrefl _)

/-- With as many bytes as characters every byte offset is a character offset. -/
theorem reaches_self {t : Text} (single : (Utf8.encode t).length = t.length) {offset : Nat}
    (inside : offset ≤ t.length) : Reaches t offset offset := by
  have reaches := reaches_length_encode_take inside
  rwa [length_encode_take single inside] at reaches

/-- Every byte offset inside a document, its end included, has a character offset: the number of the
character it reaches. -/
theorem charOffset?_eq_some {d : Document} (agrees : d.Agrees) {offset : Nat}
    (inside : offset ≤ d.bytes.length) :
    ∃ k : Nat, d.charOffset? offset = some (k : Int) ∧ Reaches d.text offset k := by
  rw [agrees.bytes_eq] at inside
  rw [charOffset?, isAscii, agrees.bytes_eq]
  -- Without a character of several bytes no table is made, and every offset is its own.
  by_cases single : (Utf8.encode d.text).length = d.text.length
  · rw [single] at inside
    exact ⟨offset, if_pos (beq_iff_eq.mpr single), reaches_self single inside⟩
  · obtain ⟨k, found, reaches⟩ := charTable_reaches inside
    refine ⟨k, ?_, reaches⟩
    rw [if_neg (fun same => single (beq_iff_eq.mp same)), signedGet?_natCast, found]
    rfl

theorem charOffset?_of_reaches {d : Document} (agrees : d.Agrees) {offset k : Nat}
    (inside : offset ≤ d.bytes.length) (reaches : Reaches d.text offset k) :
    d.charOffset? offset = some (k : Int) := by
  obtain ⟨l, found, reaches'⟩ := charOffset?_eq_some agrees inside
  rw [found, reaches.unique reaches']

/-- A byte that is not behind the end belongs to a character: it is one of the bytes that the
character is written as, behind those of the characters before it. -/
theorem Reaches.exists_char {t : Text} {offset k : Nat} (reaches : Reaches t offset k)
    (inside : offset < (Utf8.encode t).length) :
    ∃ before c after i, t = before ++ c :: after ∧ before.length = k ∧
      i < (Utf8.encodeChar c).length ∧ offset = (Utf8.encode before).length + i := by
  have short : k < t.length := by
    refine Nat.lt_of_le_of_ne reaches.inside fun atEnd => ?_
    have after := reaches.after
    rw [atEnd, List.take_length] at after
    omega
  have after := reaches.after
  have before := reaches.before short
  have one : Utf8.encode [t[k]] = Utf8.encodeChar t[k] := List.flatMap_singleton _ _
  rw [List.take_succ_eq_append_getElem short, encode_append, one, List.length_append] at before
  refine ⟨t.take k, t[k], t.drop (k + 1), offset - (Utf8.encode (t.take k)).length, ?_, ?_, ?_, ?_⟩
  · rw [← List.drop_eq_getElem_cons short, List.take_append_drop]
  · exact List.length_take_of_le reaches.inside
  · omega
  · omega

/-- Bytes that are UTF-8 yield a document of exactly these bytes. -/
theorem ofBytes_agrees {bytes : Bytes} {d : Document} (read : ofBytes .utf8 bytes = .ok d) :
    d.Agrees ∧ d.bytes = bytes ∧ Utf8.decode bytes = .ok d.text := by
  rw [ofBytes] at read
  split at read
  next t decoded =>
    cases read
    exact ⟨⟨(Utf8.encode_of_decode decoded).symm, rfl⟩, rfl, decoded⟩
  next => cases read

/-- Whatever the encoding of the bytes, the document is the one of its text. -/
theorem ofBytes_eq_ofText {encoding : Encoding} {bytes : Bytes} {d : Document}
    (read : ofBytes encoding bytes = .ok d) : d = ofText d.text := by
  by_cases isUtf8 : encoding = .utf8
  · subst isUtf8
    obtain ⟨agrees, -, -⟩ := ofBytes_agrees read
    obtain ⟨text, bytes', lines⟩ := d
    rw [ofText, ← agrees.bytes_eq, ← agrees.lines_eq]
  · rw [ofBytes] at read
    split at read
    next t decoded =>
      cases read
      rw [if_neg isUtf8]
      rfl
    next => cases read

/-- The byte offsets of a document lead back to its characters, however the document came about: a
byte to the character that is written with it, the place behind any beginning of the text to the
character there, later bytes to later characters. A document of single-byte characters needs no
table for that, but the table would say the same. -/
theorem charOffset?_ofText (t : Text) :
    let d := ofText t
    (∀ (encoding : Encoding) (bytes : Bytes) (made : Document),
      ofBytes encoding bytes = .ok made → made.text = t → made = d) ∧
    (∀ offset < d.bytes.length, ∃ before c after i, t = before ++ c :: after ∧
      i < (Utf8.encodeChar c).length ∧ offset = (Utf8.encode before).length + i ∧
      d.charOffset? offset = some (before.length : Int)) ∧
    d.charOffset? d.bytes.length = some (t.length : Int) ∧
    (∀ k ≤ t.length, d.charOffset? (Utf8.encode (t.take k)).length = some (k : Int)) ∧
    (∀ offset offset' : Nat, offset ≤ offset' → offset' ≤ d.bytes.length → ∃ k l : Nat,
      d.charOffset? offset = some (k : Int) ∧ d.charOffset? offset' = some (l : Int) ∧ k ≤ l) ∧
    (d.isAscii = true ↔ d.bytes.length = t.length) ∧
    (d.isAscii = true → ∀ offset ≤ d.bytes.length,
      d.charOffset? offset = some (offset : Int) ∧ (charTable t)[offset]? = some offset) := by
  intro d
  have agrees : d.Agrees := ⟨rfl, rfl⟩
  have behind {k : Nat} (inside : k ≤ t.length) :
      d.charOffset? (Utf8.encode (t.take k)).length = some (k : Int) := by
    refine charOffset?_of_reaches agrees ?_ (reaches_length_encode_take inside)
    have shorter := length_encode_take_mono t inside
    rwa [List.take_length] at shorter
  refine ⟨?_, fun offset inside => ?_, ?_, fun k inside => behind inside, ?_, beq_iff_eq, ?_⟩
  · rintro encoding bytes made read rfl
    exact ofBytes_eq_ofText read
  · obtain ⟨k, found, reaches⟩ := charOffset?_eq_some agrees (Nat.le_of_lt inside)
    obtain ⟨before, c, after, i, whole, length, within, place⟩ := reaches.exists_char inside
    exact ⟨before, c, after, i, whole, within, place, by rw [found, length]⟩
  · have whole := behind (Nat.le_refl t.length)
    rwa [List.take_length] at whole
  · intro offset offset' order inside
    obtain ⟨k, found, reaches⟩ := charOffset?_eq_some agrees (Nat.le_trans order inside)
    obtain ⟨l, found', reaches'⟩ := charOffset?_eq_some agrees inside
    exact ⟨k, l, found, found', reaches.mono reaches' order⟩
  · intro ascii offset inside
    have single : (Utf8.encode t).length = t.length := beq_iff_eq.mp ascii
    have reaches : Reaches t offset offset := reaches_self single (single ▸ inside)
    obtain ⟨k, found, reaches'⟩ := charTable_reaches inside
    rw [reaches'.unique reaches] at found
    exact ⟨charOffset?_of_reaches agrees inside reaches, found⟩

end Document

end UrlScan
