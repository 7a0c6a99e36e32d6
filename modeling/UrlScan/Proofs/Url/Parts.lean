import UrlScan.Proofs.Url.Delimiters
import UrlScan.Proofs.Url.Places

/-!
# The parts of a found URL

A URL that is found in a text consists of the parts that the grammar names: the spelling of one of
the schemes, labels, a port, and a tail (`HasParts`). What is reported of it is without the
punctuation at its end, but a host ends with a letter, a digit or a hyphen and a port with a digit,
so only the tail may be shortened.

Results:
1. `findAll_hasParts`: the parts of what a matcher finds.
2. `HasParts.trimmed_eq`: scheme, host and port are reported as they stand in the text.
3. `HasParts.isWord`: the URL is a word of the grammar.
-/

namespace UrlScan.Url

open ReadingLemmas

/-- The parts of a URL, where the text `following` comes behind it. -/
structure HasParts (schemes : List Text) (singleLabel : Bool) (u : Url) (following : Text) :
    Prop where
  spells : ∃ scheme ∈ schemes, Spells (Text.lowercase scheme) u.scheme
  isLabel : ∀ label ∈ u.labels, IsLabel label
  enough : minLabels singleLabel ≤ u.labels.length
  isPort : IsPort u.port (u.tail ++ following)
  isTail : IsTail u.tail

section
variable {schemes : List Text} {singleLabel : Bool}

theorem readHost_labels {spelled atHost : Text} {u : Url}
    (read : readHost spelled singleLabel atHost = some u) :
    (∀ label ∈ u.labels, IsLabel label) ∧ minLabels singleLabel ≤ u.labels.length := by
  rw [readHost, host?_eq] at read
  split at read
  next enough =>
    cases read
    exact ⟨(labelsOf_sound atHost).1, enough⟩
  next => cases read

theorem read?_hasParts {scheme t : Text} {u : Url} (member : scheme ∈ schemes)
    (read : read? (Text.lowercase scheme) singleLabel t = some u) :
    ∃ following, t = u.text ++ following ∧ HasParts schemes singleLabel u following := by
  obtain ⟨spelled, atHost, rfl, spells, found⟩ := read?_eq_some_iff.mp read
  obtain ⟨rfl, -, isTail, rest, whole, isPort⟩ := readHost_sound found
  obtain ⟨isLabel, enough⟩ := readHost_labels found
  refine ⟨rest, ?_, ⟨scheme, member, spells⟩, isLabel, enough, isPort, isTail⟩
  rw [whole, text]
  simp only [List.append_assoc]

/-- Every URL that is found in a text was read at some place of it. -/
theorem findFrom_reads (m : Matcher) (previous : Option Char) (offset : Nat) (t : Text) :
    ∀ found ∈ m.findFrom previous offset t,
      m.read? (t.drop (found.start - offset)) = some found.raw := by
  fun_induction m.findFrom previous offset t with
  | case1 => exact fun _ member => absurd member List.not_mem_nil
  | case2 previous offset c rest url read ih =>
    intro found member
    rcases List.mem_cons.mp member with rfl | later
    · rw [Nat.sub_self, List.drop_zero]
      split at read
      next => exact read
      next => cases read
    · obtain ⟨after, -⟩ := m.findFrom_places _ _ _ found later
      have isRead := ih found later
      have place : url.text.length + (found.start - (offset + url.text.length)) =
        found.start - offset := by omega
      rwa [List.drop_drop, place] at isRead
  | case3 previous offset c rest none ih =>
    intro found later
    obtain ⟨after, -⟩ := m.findFrom_places _ _ _ found later
    have isRead := ih found later
    have place : found.start - offset = found.start - (offset + 1) + 1 := by omega
    rwa [place, List.drop_succ_cons]

/-- The parts of a URL that a matcher finds. -/
theorem findAll_hasParts {t : Text} {found : Found}
    (member : found ∈ (Matcher.ofSchemes schemes singleLabel).findAll t) :
    ∃ following, t.drop found.start = found.raw.text ++ following ∧
      HasParts schemes singleLabel found.raw following := by
  have isRead := findFrom_reads _ none 0 t found member
  rw [Nat.sub_zero] at isRead
  obtain ⟨lowered, inMatcher, read⟩ := List.exists_of_findSome?_eq_some isRead
  obtain ⟨scheme, schemeMember, rfl⟩ := mem_ofSchemes.mp inMatcher
  exact read?_hasParts schemeMember read

/-! ## Hosts and ports -/

theorem IsLabel.ne_nil {label : Text} (isLabel : IsLabel label) : label ≠ [] :=
  List.length_pos_iff.mp isLabel.length_pos

end

namespace HasParts

variable {schemes : List Text} {singleLabel : Bool} {u : Url} {following : Text}
  (parts : HasParts schemes singleLabel u following)
include parts

theorem labels_ne_nil : u.labels ≠ [] := by
  have enough := parts.enough
  unfold minLabels at enough
  refine List.length_pos_iff.mp ?_
  split at enough <;> omega

theorem isWord : IsWord schemes singleLabel u.text following := by
  obtain ⟨scheme, member, spells⟩ := parts.spells
  refine ⟨scheme, u.scheme, u.host, u.port, u.tail, member, spells,
    ⟨u.labels, parts.isLabel, parts.enough, rfl⟩, parts.isPort, parts.isTail, ?_⟩
  simp only [text, separator, List.append_assoc]

theorem host_ne_nil : u.host ≠ [] := by
  obtain ⟨start, label, member, whole⟩ := Text.join_eq_append_last parts.labels_ne_nil
  rw [host, whole]
  exact List.append_ne_nil_of_right_ne_nil _ (parts.isLabel label member).ne_nil

/-- A character of a host is a dot, a hyphen, a letter or a digit. -/
theorem host_char {c : Char} (member : c ∈ u.host) : c = '.' ∨ isLabelChar c = true := by
  rcases Text.mem_join member with dot | ⟨label, labelMember, inLabel⟩
  · exact Or.inl dot
  · exact Or.inr (isLabelChar_iff.mpr ((parts.isLabel label labelMember).chars c inLabel))

theorem port_char {c : Char} (member : c ∈ u.port) : c = ':' ∨ Text.isDecimalDigit c = true := by
  rcases parts.isPort with none | ⟨digits, whole, -, -, allDigits, -⟩
  · rw [none] at member
    cases member
  · rw [whole] at member
    rcases List.mem_cons.mp member with colon | inDigits
    · exact Or.inl colon
    · exact Or.inr (allDigits c inDigits)

/-- Host and port end with a hyphen, a letter or a digit. -/
theorem last_char {c : Char} (last : (u.host ++ u.port).getLast? = some c) :
    isLabelChar c = true ∨ Text.isDecimalDigit c = true := by
  rcases parts.isPort with none | ⟨digits, whole, atLeast, -, allDigits, -⟩
  · left
    obtain ⟨start, label, member, isHost⟩ := Text.join_eq_append_last parts.labels_ne_nil
    rw [none, List.append_nil, host, isHost,
      List.getLast?_append_of_ne_nil _ (parts.isLabel label member).ne_nil] at last
    exact isLabelChar_iff.mpr ((parts.isLabel label member).chars c (List.mem_of_getLast? last))
  · right
    have someDigits : digits ≠ [] := List.length_pos_iff.mp atLeast
    rw [whole, ← List.singleton_append, ← List.append_assoc,
      List.getLast?_append_of_ne_nil _ someDigits] at last
    exact allDigits c (List.mem_of_getLast? last)

theorem last_not_isTrailing {c : Char} (last : (u.host ++ u.port).getLast? = some c) :
    isTrailing c = false := by
  have marks : ['.', ',', ';', ':', '!', '?', '*'].all
      (fun mark => !(isLabelChar mark || Text.isDecimalDigit mark)) = true := by decide +kernel
  rw [← Bool.not_eq_true, isTrailing_iff]
  intro isMark
  have neither := List.all_eq_true.mp marks c isMark
  rw [Bool.or_eq_true_iff.mpr (parts.last_char last)] at neither
  cases neither

/-- Only the tail of a URL may be shortened when the punctuation at its end is left out. -/
theorem trimmed_eq : ∃ kept, kept <+: u.tail ∧
    u.trimmed = u.scheme ++ (separator ++ ((u.host ++ u.port) ++ kept)) := by
  have whole : u.text = (u.scheme ++ (separator ++ (u.host ++ u.port))) ++ u.tail := by
    simp only [text, List.append_assoc]
  have hostAndPort : u.host ++ u.port ≠ [] :=
    List.append_ne_nil_of_left_ne_nil parts.host_ne_nil _
  have stays : u.scheme ++ (separator ++ (u.host ++ u.port)) <+: u.trimmed := by
    refine isPrefix_trimEnd ⟨u.tail, whole.symm⟩ fun c last => ?_
    rw [← List.append_assoc, List.getLast?_append_of_ne_nil _ hostAndPort] at last
    exact parts.last_not_isTrailing last
  obtain ⟨kept, isTrimmed⟩ := stays
  refine ⟨kept, ?_, ?_⟩
  · have begins := u.trimmed_isPrefix
    rw [← isTrimmed, whole] at begins
    exact (List.prefix_append_right_inj _).mp begins
  · rw [← isTrimmed]
    simp only [List.append_assoc]

end HasParts

end UrlScan.Url
