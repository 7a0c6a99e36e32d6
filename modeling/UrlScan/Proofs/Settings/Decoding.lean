import UrlScan.Proofs.Source.Offsets
import UrlScan.Settings.Layers

/-!
# The text of a configuration file

A configuration file is decoded block by block. The blocks do not show: what is read is the text
whose UTF-8 bytes are in the file, and a file whose bytes are not UTF-8 is refused, wherever the
ends of the blocks fall (`decodeFile_eq_ok_iff`).

1. `decodeFrom_beginning`: what decoding finds in the beginning of the bytes of a text.
2. `encode_of_decodeBlocks`, `decodeBlocks_of_encode`: the blocks from any place on.
3. `decodeFile_eq_ok_iff`: the whole file.
-/

namespace UrlScan

namespace Utf8

open Utf8Lemmas Document.OffsetLemmas

/-! ## The beginning of a text -/

/-- As many bytes are taken as are announced. -/
theorem length_of_continuations {low high count bits value : Nat} {bytes rest : Bytes}
    (read : continuations low high count bits bytes = .ok (value, rest)) :
    bytes.length = count + rest.length := by
  induction count generalizing low high bits bytes with
  | zero =>
    rw [continuations] at read
    cases read
    exact (Nat.zero_add _).symm
  | succ count ih =>
    obtain ⟨first, tail, rfl, -, -, read⟩ := continuations_succ_iff.mp read
    rw [List.length_cons, ih read]
    omega

/-- The beginning of a character lacks continuation bytes, and nothing else is wrong with it. -/
theorem continuations_truncated {low high count bits value : Nat} {bytes lacking rest : Bytes}
    (read : continuations low high count bits (bytes ++ lacking) = .ok (value, rest))
    (short : bytes.length < count) :
    continuations low high count bits bytes = .error (.endOfData, bytes.length) := by
  induction count generalizing low high bits bytes with
  | zero => exact absurd short (Nat.not_lt_zero _)
  | succ count ih =>
    cases bytes with
    | nil => rfl
    | cons b tail =>
      obtain ⟨first, more, same, atLeast, atMost, read⟩ := continuations_succ_iff.mp read
      cases same
      rw [List.length_cons, Nat.add_lt_add_iff_right] at short
      rw [continuations, if_pos ⟨atLeast, atMost⟩, ih read short]
      rfl

/-- Bytes of a character are its bytes up to some place. -/
theorem decodeFrom_truncated {c : Char} {bytes lacking : Bytes} (some : bytes ≠ [])
    (lacks : lacking ≠ []) (whole : bytes ++ lacking = encodeChar c) (start : Nat) :
    ∃ e, decodeFrom start bytes = .error e ∧ e.fault = .endOfData ∧ e.start = start := by
  obtain ⟨b, tail, lead, isWhole, begins, read⟩ := read_of_encodeChar c []
  rw [List.append_nil, ← whole] at isWhole
  obtain ⟨first, bytes, rfl⟩ := List.exists_cons_of_ne_nil some
  rw [List.cons_append] at isWhole
  obtain ⟨rfl, rfl⟩ := List.cons.inj isWhole
  have length := length_of_continuations read
  have short : bytes.length < lead.continuations := by
    have missing := List.length_pos_iff.mpr lacks
    rw [List.length_append, List.length_nil] at length
    omega
  refine ⟨⟨"utf-8", first, start, 1 + bytes.length, .endOfData⟩, ?_, rfl, rfl⟩
  have truncated := continuations_truncated read short
  rw [decodeFrom, begins]
  dsimp only
  split
  next failed =>
    cases truncated.symm.trans failed
    rfl
  next found => cases truncated.symm.trans found

/-- The beginning of the bytes of a text, wherever they stand. It ends with a character, or within
one; then decoding stops there, at the beginning of this character. -/
theorem decodeFrom_beginning {t : Text} {bytes rest : Bytes} (whole : bytes ++ rest = encode t)
    (start : Nat) :
    ∃ before after, t = before ++ after ∧ (bytes = encode before ∨
      ∃ e, decodeFrom start bytes = .error e ∧ e.fault = .endOfData ∧ start ≤ e.start ∧
        bytes.take (e.start - start) = encode before) := by
  induction t generalizing start bytes with
  | nil => exact ⟨[], [], rfl, .inl (List.append_eq_nil_iff.mp whole).1⟩
  | cons c t ih =>
    have first : encode (c :: t) = encodeChar c ++ encode t := rfl
    rw [first] at whole
    rcases List.append_eq_append_iff.mp whole with ⟨lacking, isChar, -⟩ | ⟨more, isBytes, isRest⟩
    · cases lacking with
      | nil =>
        rw [List.append_nil] at isChar
        exact ⟨[c], t, rfl, .inl (isChar ▸ (List.append_nil _).symm)⟩
      | cons missing lacking =>
        refine ⟨[], c :: t, rfl, ?_⟩
        cases bytes with
        | nil => exact .inl rfl
        | cons b bytes =>
          obtain ⟨e, stops, isEnd, isStart⟩ := decodeFrom_truncated (List.cons_ne_nil b bytes)
            (List.cons_ne_nil missing lacking) isChar.symm start
          refine .inr ⟨e, stops, isEnd, Nat.le_of_eq isStart.symm, ?_⟩
          rw [isStart, Nat.sub_self]
          rfl
    · subst isBytes
      obtain ⟨b, bytes, lead, isChar, begins, read⟩ := read_of_encodeChar c more
      have length := length_of_continuations read
      have charLength : (encodeChar c).length = 1 + lead.continuations := by
        have lengths := congrArg List.length isChar
        rw [List.length_append, List.length_cons] at lengths
        omega
      obtain ⟨before, after, rfl, inside⟩ := ih isRest.symm (start + 1 + lead.continuations)
      refine ⟨c :: before, after, rfl, ?_⟩
      rcases inside with rfl | ⟨e, stops, isEnd, isLater, isBefore⟩
      · exact .inl rfl
      · refine .inr ⟨e, ?_, isEnd, by omega, ?_⟩
        · rw [isChar, decodeFrom_cons begins read, stops]
          rfl
        · have places : e.start - start =
              (encodeChar c).length + (e.start - (start + 1 + lead.continuations)) := by omega
          rw [places, List.take_length_add_append, isBefore]
          rfl

/-- The beginning of the bytes of a text decodes, or it does so up to the character within which it
ends. What is left stands for the rest of the text. -/
theorem decode_beginning {t : Text} {bytes rest : Bytes} (whole : bytes ++ rest = encode t) :
    ∃ before after, t = before ++ after ∧
      (decode bytes = .ok before ∧ rest = encode after ∨
        ∃ e, decode bytes = .error e ∧ e.fault = .endOfData ∧
          decode (bytes.take e.start) = .ok before ∧
          bytes.drop e.start ++ rest = encode after) := by
  obtain ⟨before, after, rfl, inside⟩ := decodeFrom_beginning whole 0
  refine ⟨before, after, rfl, ?_⟩
  rw [encode_append] at whole
  rcases inside with rfl | ⟨e, stops, isEnd, -, isBefore⟩
  · exact .inl ⟨decode_encode before, List.append_cancel_left whole⟩
  · refine .inr ⟨e, stops, isEnd, decode_eq_ok_iff.mpr isBefore.symm, ?_⟩
    rw [← List.take_append_drop e.start bytes, List.append_assoc] at whole
    exact List.append_cancel_left (isBefore ▸ whole)

end Utf8

/-! ## Blocks -/

namespace Settings

open Document.OffsetLemmas

theorem ok_of_map {α β ε : Type} {f : α → β} {x : Except ε α} {b : β} (mapped : x.map f = .ok b) :
    ∃ a, x = .ok a ∧ f a = b := by
  cases x with
  | error e => cases mapped
  | ok a => exact ⟨a, rfl, Except.ok.inj mapped⟩

theorem block_append_rest (pending bytes : Bytes) :
    pending ++ bytes.take blockSize ++ bytes.drop blockSize = pending ++ bytes := by
  rw [List.append_assoc, List.take_append_drop]

theorem block_of_last {bytes : Bytes} (last : (bytes.drop blockSize).isEmpty = true)
    (pending : Bytes) : pending ++ bytes.take blockSize = pending ++ bytes := by
  have whole := block_append_rest pending bytes
  rwa [List.isEmpty_iff.mp last, List.append_nil] at whole

theorem length_rest_lt {fuel : Nat} {bytes : Bytes} (enough : bytes.length < fuel + 1)
    (some : bytes ≠ []) : (bytes.drop blockSize).length < fuel := by
  have length := List.length_pos_iff.mpr some
  rw [List.length_drop, blockSize]
  omega

theorem ne_nil_of_rest {bytes : Bytes} (more : ¬(bytes.drop blockSize).isEmpty = true) :
    bytes ≠ [] := by
  rintro rfl
  exact more rfl

/-- Bytes that are decoded from some place on are the bytes of the text that is read. -/
theorem encode_of_decodeBlocks {fuel : Nat} {pending bytes : Bytes} {t : Text}
    (enough : bytes.length < fuel) (read : decodeBlocks fuel pending bytes = .ok t) :
    Utf8.encode t = pending ++ bytes := by
  fun_induction decodeBlocks fuel pending bytes generalizing t with
  | case1 pending bytes => exact absurd enough (Nat.not_lt_zero _)
  | case2 fuel pending bytes block rest first decoded =>
    rename_i last
    cases read
    exact (Utf8.encode_of_decode decoded).trans (block_of_last last pending)
  | case3 fuel pending bytes block rest first decoded more =>
    rename_i ih
    obtain ⟨later, readLater, rfl⟩ := ok_of_map read
    have isRest := ih (length_rest_lt enough (ne_nil_of_rest more)) readLater
    rw [encode_append, Utf8.encode_of_decode decoded, isRest]
    exact block_append_rest pending bytes
  | case4 fuel pending bytes block rest e stops isEnd first decoded =>
    rename_i ih
    obtain ⟨later, readLater, rfl⟩ := ok_of_map read
    have isRest := ih (length_rest_lt enough fun none => isEnd.2 (none ▸ rfl)) readLater
    rw [encode_append, Utf8.encode_of_decode decoded, isRest, ← List.append_assoc,
      List.take_append_drop, block_append_rest]
  | case5 => cases read
  | case6 => cases read

/-- The bytes of a text are decoded to the text, from any place on. -/
theorem decodeBlocks_of_encode {fuel : Nat} {pending bytes : Bytes} {t : Text}
    (enough : bytes.length < fuel) (whole : pending ++ bytes = Utf8.encode t) :
    decodeBlocks fuel pending bytes = .ok t := by
  fun_induction decodeBlocks fuel pending bytes generalizing t with
  | case1 pending bytes => exact absurd enough (Nat.not_lt_zero _)
  | case2 fuel pending bytes block rest first decoded =>
    rename_i last
    have isBlock : block = Utf8.encode t := (block_of_last last pending).trans whole
    exact decoded.symm.trans (isBlock ▸ Utf8.decode_encode t)
  | case3 fuel pending bytes block rest first decoded more =>
    rename_i ih
    rw [← block_append_rest] at whole
    obtain ⟨before, after, rfl, ⟨isBefore, isAfter⟩ | ⟨e, stops, -⟩⟩ := Utf8.decode_beginning whole
    · cases decoded.symm.trans isBefore
      rw [ih (length_rest_lt enough (ne_nil_of_rest more)) isAfter]
      rfl
    · cases decoded.symm.trans stops
  | case4 fuel pending bytes block rest e stops isEnd first decoded =>
    rename_i ih
    rw [← block_append_rest] at whole
    obtain ⟨before, after, rfl, ⟨isBefore, -⟩ | ⟨e', stops', -, isBefore, isAfter⟩⟩ :=
      Utf8.decode_beginning whole
    · cases stops.symm.trans isBefore
    · cases stops.symm.trans stops'
      cases decoded.symm.trans isBefore
      rw [ih (length_rest_lt enough fun none => isEnd.2 (none ▸ rfl)) isAfter]
      rfl
  | case5 fuel pending bytes block e stops isEnd e' =>
    rename_i stopsBefore
    rw [← block_append_rest] at whole
    obtain ⟨before, after, rfl, ⟨isBefore, -⟩ | ⟨e'', stops', -, isBefore, -⟩⟩ :=
      Utf8.decode_beginning whole
    · cases stops.symm.trans isBefore
    · cases stops.symm.trans stops'
      cases stopsBefore.symm.trans isBefore
  | case6 fuel pending bytes block e stops =>
    rename_i notEnd
    have wholeBlocks := block_append_rest pending bytes ▸ whole
    obtain ⟨before, after, rfl, ⟨isBefore, -⟩ | ⟨e', stops', isEnd, -⟩⟩ :=
      Utf8.decode_beginning wholeBlocks
    · cases stops.symm.trans isBefore
    · cases stops.symm.trans stops'
      cases bytes with
      | nil => cases stops.symm.trans (Utf8.decode_eq_ok_iff.mpr whole.symm)
      | cons b tail => exact absurd ⟨isEnd, Bool.false_ne_true⟩ notEnd

theorem decodeFile_eq_ok_iff {bytes : Bytes} {t : Text} :
    decodeFile bytes = .ok t ↔ ∃ u, bytes = Utf8.encode u ∧ t = Text.unifyLineEnds u := by
  have enough : bytes.length < bytes.length + 2 := Nat.lt_add_of_pos_right (Nat.succ_pos 1)
  unfold decodeFile
  constructor
  · intro read
    obtain ⟨u, readBlocks, rfl⟩ := ok_of_map read
    exact ⟨u, (encode_of_decodeBlocks enough readBlocks).symm, rfl⟩
  · rintro ⟨u, whole, rfl⟩
    have whole : [] ++ bytes = Utf8.encode u := whole
    rw [decodeBlocks_of_encode enough whole]
    rfl

end Settings

end UrlScan
