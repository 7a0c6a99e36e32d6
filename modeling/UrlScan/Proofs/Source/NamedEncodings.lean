import UrlScan.Proofs.Source.Offsets
import UrlScan.Proofs.Text.CaseFree
import UrlScan.Proofs.Text.WellFormed

/-!
# Bytes and text of a document in a named encoding

A document has its text and the UTF-8 bytes of its text. When it is read from bytes, a comparison of
texts decides whether these bytes are kept or made anew: they are kept if the name of the encoding,
without hyphens and letter case, is `utf8`. The names that an encoding has are looked up differently,
with other separators and with aliases. The two need not go together. This file shows that they go
together as far as it matters.

* Bytes are kept only under names of UTF-8, or under names of no encoding
  (`eq_utf8_of_keepsBytes`). A name without its separators is the same for both, and no other
  encoding is called `utf8`, `utf_8`, `u_tf8` and so on.
* Bytes that are made anew although they are UTF-8 come out as they were, because a text has only
  one encoding.

Results:
1. `filter_normalizeName`, `filter_lowercase`: the two readings of a name, without separators.
2. `ofBytesNamed_eq`: reading under a name is reading in the encoding of that name.
3. `ofBytesNamed_bytes`: bytes and text of what is read.
-/

namespace UrlScan

/-! ## Names -/

namespace Encoding

open Text Text.CaseFreeLemmas

/-- Usual names of the encodings, in lower case. -/
def usualNames : List (String × Encoding) :=
  [("utf-8", utf8), ("utf8", utf8), ("utf_8", utf8), ("utf-8-sig", utf8Signature),
   ("latin-1", latin1), ("iso-8859-1", latin1), ("ascii", ascii), ("utf-16-le", utf16LittleEndian)]

/-- The letters `u`, `t` and `f`, the digit `8`, and the hyphen. -/
def utf8Letters : Text :=
  "utf8-".toList

/-- Characters that are dropped anyway may be put between the parts of a text. -/
theorem filter_join {p : Char → Bool} {c : Char} (dropped : p c = false) (parts : List Text) :
    (Text.join [c] parts).filter p = parts.flatMap (List.filter p) := by
  induction parts with
  | nil => rfl
  | cons part rest ih =>
    unfold Text.join at ih ⊢
    cases rest with
    | nil => rw [List.intercalate_singleton, List.flatMap_singleton]
    | cons next rest =>
      have none : [c].filter p = [] := List.filter_cons_of_neg (by rw [dropped]; decide)
      rw [List.intercalate_cons_cons, List.filter_append, List.filter_append, ih, none,
        List.append_nil]
      rfl

/-- Nor does it matter whether empty parts are left out first. -/
theorem flatMap_filter_nonempty (p : Char → Bool) (parts : List Text) :
    (parts.filter (!·.isEmpty)).flatMap (List.filter p) = parts.flatMap (List.filter p) := by
  induction parts with
  | nil => rfl
  | cons part rest ih =>
    cases part with
    | nil => exact ih
    | cons c part => rw [List.filter_cons_of_pos rfl, List.flatMap_cons, ih, List.flatMap_cons]

theorem toLower_ne_separator {c : Char} (isName : isNameChar c = true) : c.toLower ≠ '_' := by
  rcases toLower_cases c with same | ⟨upper, lowered⟩
  · rw [same]
    rintro rfl
    exact absurd isName (by decide)
  · intro equal
    rw [equal] at lowered
    have value : '_'.toNat = 95 := rfl
    omega

/-- A normalized name has the characters of the name in lower case, but for the separators. -/
theorem filter_normalizeName (name : Text) :
    (normalizeName name).filter (· != '_') = (name.filter isNameChar).map Char.toLower := by
  have dropped : ('_' != '_') = false := rfl
  rw [normalizeName, filter_join (p := (· != '_')) dropped, flatMap_filter_nonempty,
    ← filter_join (p := (· != '_')) dropped, Text.join, List.intercalate_splitOn]
  induction name with
  | nil => rfl
  | cons c rest ih =>
    rw [List.map_cons]
    cases isName : isNameChar c with
    | true =>
      have kept : (c.toLower != '_') = true := bne_iff_ne.mpr (toLower_ne_separator isName)
      rw [if_pos rfl, List.filter_cons, if_pos kept, ih, List.filter_cons_of_pos isName,
        List.map_cons]
    | false =>
      rw [if_neg Bool.false_ne_true, List.filter_cons_of_neg (by decide), ih,
        List.filter_cons_of_neg (by rw [isName]; exact Bool.false_ne_true)]

/-- Only ASCII characters become one of these characters in lower case. -/
theorem ascii_of_lowerChar {c : Char} (lowered : lowerChar c ∈ utf8Letters) : c.toNat < 128 := by
  have outside : capitalRuns.all (fun run => utf8Letters.all fun x =>
      !(run.2.2.2 ≤ x.toNat && x.toNat ≤ run.2.2.2 + (run.2.1 - run.1))) = true := by
    decide +kernel
  have ascii : utf8Letters.all (·.toNat < 128) = true := by decide
  rcases lowerChar_cases c with same | ⟨upper, -⟩ | ⟨run, member, -, image⟩
  · exact of_decide_eq_true (List.all_eq_true.mp ascii c (same ▸ lowered))
  · omega
  · have apart := List.all_eq_true.mp (List.all_eq_true.mp outside run member) _ lowered
    simp [image] at apart

/-- A text whose lower case is made of these characters: without hyphens on the one side, and
without the separators of names on the other. -/
theorem filter_lowercaseAfter {t previous : Text}
    (plain : ∀ x ∈ lowercaseAfter previous t, x ∈ utf8Letters) :
    (lowercaseAfter previous t).filter (· != '-') = (t.filter isNameChar).map Char.toLower := by
  induction t generalizing previous with
  | nil => rfl
  | cons c rest ih =>
    rw [lowercaseAfter_cons] at plain ⊢
    -- The capital sigma and the dotted capital I become other characters.
    have notSigma : c ≠ '\u03A3' := by
      rintro rfl
      rw [if_pos rfl] at plain
      split at plain <;>
        exact absurd (plain _ (List.mem_append_left _ List.mem_cons_self)) (by decide)
    have notDotted : c ≠ '\u0130' := by
      rintro rfl
      rw [if_neg notSigma, if_pos rfl] at plain
      exact absurd (plain 'i' (List.mem_append_left _ List.mem_cons_self)) (by decide)
    rw [if_neg notSigma, if_neg notDotted] at plain ⊢
    have here := plain (lowerChar c) (List.mem_append_left _ List.mem_cons_self)
    have ascii := ascii_of_lowerChar here
    have lowered : lowerChar c = c.toLower := by rw [lowerChar, if_pos ascii]
    have sameTest : isNameChar c = (c.toLower != '-') :=
      ascii_of_forall (P := fun c => c.toLower ∈ utf8Letters → isNameChar c = (c.toLower != '-'))
        (by decide) ascii (lowered ▸ here)
    rw [List.singleton_append, List.filter_cons, List.filter_cons, lowered, ← sameTest,
      ih fun x later => plain x (List.mem_append_right _ later)]
    split
    · rfl
    · rfl

/-- In the tables of names, only UTF-8 has a name that is `utf8` without its separators. -/
theorem eq_utf8_of_lookup {table : List (String × Encoding)} {name : Text} {encoding : Encoding}
    (listed : table ⊆ aliases ++ standardNames)
    (letters : name.filter (· != '_') = "utf8".toList)
    (found : table.lookup (String.ofList name) = some encoding) : encoding = utf8 := by
  have checked : (aliases ++ standardNames).all (fun pair =>
      pair.2 = utf8 || pair.1.toList.filter (· != '_') != "utf8".toList) = true := by
    decide +kernel
  obtain ⟨before, after, isTable, -⟩ := List.lookup_eq_some_iff.mp found
  have member : (String.ofList name, encoding) ∈ table := by simp [isTable]
  have test := List.all_eq_true.mp checked _ (listed member)
  rw [String.toList_ofList, letters] at test
  simpa using test

/-- The encoding under whose names the bytes of a document are kept. -/
theorem eq_utf8_of_keepsBytes {name : Text} {encoding : Encoding}
    (kept : Document.keepsBytes name = true) (named : ofName? name = some encoding) :
    encoding = utf8 := by
  have letters : (lowercase name).filter (· != '-') = "utf8".toList := beq_iff_eq.mp kept
  have plain : ∀ x ∈ lowercase name, x ∈ utf8Letters := by
    intro x member
    by_cases hyphen : x = '-'
    · rw [hyphen]
      decide
    · have found : x ∈ (lowercase name).filter (· != '-') :=
        List.mem_filter.mpr ⟨member, bne_iff_ne.mpr hyphen⟩
      rw [letters] at found
      exact List.mem_append_left ['-'] found
  have normalized : (normalizeName name).filter (· != '_') = "utf8".toList := by
    rw [filter_normalizeName, ← filter_lowercaseAfter plain]
    exact letters
  have undotted : ((normalizeName name).map fun c => if c = '.' then '_' else c) =
      normalizeName name := by
    refine (List.map_congr_left fun c member => if_neg ?_).trans (List.map_id _)
    rintro rfl
    have found : '.' ∈ (normalizeName name).filter (· != '_') :=
      List.mem_filter.mpr ⟨member, rfl⟩
    rw [normalized] at found
    exact absurd found (by decide)
  unfold ofName? at named
  dsimp only at named
  rw [undotted, Option.or_eq_some_iff, Option.or_eq_some_iff] at named
  rcases named with found | ⟨-, found | ⟨-, found⟩⟩
  · exact eq_utf8_of_lookup (List.subset_append_left _ _) normalized found
  · exact eq_utf8_of_lookup (List.subset_append_left _ _) normalized found
  · exact eq_utf8_of_lookup (List.subset_append_right _ _) normalized found

/-- A name is found in every letter case. -/
theorem ofName?_map_toLower (name : Text) : ofName? (name.map Char.toLower) = ofName? name := by
  have same (c : Char) : (if isNameChar c.toLower then c.toLower.toLower else '_') =
      if isNameChar c then c.toLower else '_' := by
    rcases toLower_cases c with same | ⟨upper, -⟩
    · rw [same, same]
    · exact ascii_of_forall
        (P := fun c => (if isNameChar c.toLower then c.toLower.toLower else '_') =
          if isNameChar c then c.toLower else '_') (by decide) (by omega)
  have sameWords : normalizeName (name.map Char.toLower) = normalizeName name := by
    rw [normalizeName, normalizeName, List.map_map]
    congr 4
    funext c
    exact same c
  rw [ofName?, ofName?, sameWords]

end Encoding

/-! ## Documents -/

namespace Document

open Encoding

/-- Reading under a name is reading in the encoding that has the name: the bytes that are kept, and
those that are made anew, are the bytes of the text. -/
theorem ofBytesNamed_eq {name : Text} {encoding : Encoding}
    (named : ofName? name = some encoding) (bytes : Bytes) :
    ofBytesNamed name bytes = (ofBytes encoding bytes).mapError .undecodable := by
  rw [ofBytesNamed, decodeNamed, named, ofBytes]
  dsimp only
  cases decoded : encoding.decode bytes with
  | error e => rfl
  | ok t =>
    have sameBytes : (if keepsBytes name then bytes else Utf8.encode t) =
        if encoding = .utf8 then bytes else Utf8.encode t := by
      by_cases isUtf8 : encoding = .utf8
      · subst isUtf8
        rw [if_pos rfl, Utf8.encode_of_decode decoded, ite_self]
      · rw [if_neg isUtf8, if_neg fun kept => isUtf8 (eq_utf8_of_keepsBytes kept named)]
    show Except.ok _ = Except.ok _
    rw [sameBytes]

theorem ok_of_mapError {α ε ε' : Type} {f : ε → ε'} {x : Except ε α} {a : α}
    (mapped : x.mapError f = .ok a) : x = .ok a := by
  cases x with
  | error e => cases mapped
  | ok b =>
    cases mapped
    rfl

/-- Whatever the name, the document is the one of its text. -/
theorem ofBytesNamed_eq_ofText {name : Text} {bytes : Bytes} {d : Document}
    (read : ofBytesNamed name bytes = .ok d) : d = ofText d.text := by
  cases named : ofName? name with
  | some encoding =>
    rw [ofBytesNamed_eq named] at read
    exact ofBytes_eq_ofText (ok_of_mapError read)
  | none =>
    -- Under an unknown name only the empty text is read.
    rw [ofBytesNamed, decodeNamed, named] at read
    dsimp only at read
    split at read
    next t decoded =>
      cases read
      split at decoded
      next empty =>
        cases decoded
        rw [List.isEmpty_iff.mp empty, ofText, Utf8.encode, List.flatMap_nil, ite_self]
      next => cases decoded
    next => cases read

section
variable {name : Text} (named : ofName? name = some .utf8)
include named

/-- Under a name of UTF-8, bytes that decode are kept. -/
theorem ofBytesNamed_of_decode {bytes : Bytes} {t : Text} (decoded : Utf8.decode bytes = .ok t) :
    ofBytesNamed name bytes = .ok (ofText t) := by
  rw [ofBytesNamed_eq named, ofBytes, Encoding.decode, decoded, ofText,
    Utf8.encode_of_decode decoded]
  rfl

/-- Under a name of UTF-8, what is read has decoded. -/
theorem decode_of_ofBytesNamed {bytes : Bytes} {d : Document}
    (read : ofBytesNamed name bytes = .ok d) :
    d.bytes = bytes ∧ Utf8.decode bytes = .ok d.text := by
  rw [ofBytesNamed_eq named] at read
  exact (ofBytes_agrees (ok_of_mapError read)).2

theorem exists_ofBytesNamed_iff {bytes : Bytes} :
    (∃ d, ofBytesNamed name bytes = .ok d) ↔ Utf8.WellFormed bytes := by
  rw [Utf8.wellFormed_iff]
  constructor
  · rintro ⟨d, read⟩
    exact ⟨d.text, (decode_of_ofBytesNamed named read).2⟩
  · rintro ⟨t, decoded⟩
    exact ⟨_, ofBytesNamed_of_decode named decoded⟩

end

/-- What is read from bytes under some name of an encoding has the UTF-8 bytes of its text. Under a
name of UTF-8 exactly the well-formed bytes are read, they stay as they are, and the bytes of a text
lead back to the document of the text. The usual names are names in every letter case. -/
theorem ofBytesNamed_bytes (name : Text) :
    (∀ bytes d, ofBytesNamed name bytes = .ok d → d.bytes = Utf8.encode d.text) ∧
    (ofName? name = some .utf8 →
      (∀ bytes, (∃ d, ofBytesNamed name bytes = .ok d) ↔ Utf8.WellFormed bytes) ∧
      (∀ bytes d, ofBytesNamed name bytes = .ok d → d.bytes = bytes) ∧
      ∀ t, ofBytesNamed name (ofText t).bytes = .ok (ofText t)) ∧
    ∀ usual ∈ usualNames, name.map Char.toLower = usual.1.toList →
      ofName? name = some usual.2 := by
  refine ⟨fun bytes d read => ?_, fun named => ⟨?_, ?_, ?_⟩, fun usual member same => ?_⟩
  · rw [ofBytesNamed_eq_ofText read]
    rfl
  · exact fun bytes => exists_ofBytesNamed_iff named
  · exact fun bytes d read => (decode_of_ofBytesNamed named read).1
  · exact fun t => ofBytesNamed_of_decode named (Utf8.decode_encode t)
  · rw [← ofName?_map_toLower, same]
    have known : ∀ usual ∈ usualNames, ofName? usual.1.toList = some usual.2 := by decide +kernel
    exact known usual member

/-- A name of UTF-8 under which the bytes are made anew. -/
theorem ofBytesNamed_bytes_alias :
    let bytes : Bytes := [0x61, 0xC3, 0xA9]
    ofName? "U8".toList = some .utf8 ∧ keepsBytes "U8".toList = false ∧
    ofBytesNamed "U8".toList bytes = .ok (ofText "aé".toList) ∧ Utf8.WellFormed bytes ∧
    ∀ d, ofBytesNamed "U8".toList bytes = .ok d → d.bytes = bytes := by
  have named : ofName? "U8".toList = some .utf8 := by decide +kernel
  obtain ⟨wellFormed, kept, written⟩ := (ofBytesNamed_bytes "U8".toList).2.1 named
  have read := written "aé".toList
  exact ⟨named, by decide +kernel, read, (wellFormed _).mp ⟨_, read⟩, kept _⟩

end Document

end UrlScan
