import UrlScan.Proofs.Text.LowerCase
import UrlScan.Proofs.Url.Parts

/-!
# Reported URLs

What is reported of a URL is the URL without the sentence punctuation at its end. This file looks at
a reported URL without the text that it was found in, and at the place where it ends.

A word of the grammar is made of path characters and closed bracket groups (`IsWord.isPath`).
Punctuation is never a bracket, so trimming takes characters off the end of the last run of path
characters, and a group stays whole. What is left of the tail is a tail again, and the port needs no
following text to end where it ends. So a reported URL is a word by itself, the longest one in
itself, and a search in it finds just that.

A host may end where the text goes on with a letter or a digit. This happens for one reason only: a
label takes no more than 63 characters.

1. `bracketsClosed_of_isPath`, `IsPath.of_append_trailing`: brackets, and trimming.
2. `HasParts.trimmed_hasParts`: the parts of a reported URL.
3. `findAll_reported`: a reported URL is a URL by itself.
4. `labelsOf_full`: the labels in front of a letter or a digit.
5. `findAll_hostEnd`: what follows a reported host or port.
-/

namespace UrlScan.Url

open ReadingLemmas

/-! ## Brackets -/

def brackets : Text :=
  ['(', ')', '[', ']', '\x7b', '\x7d']

/-- Every opening bracket of the text is closed in it, and no other bracket stands between the
two. -/
def BracketsClosed (t : Text) : Prop :=
  ∀ before opening closing after,
    (opening, closing) ∈ [('(', ')'), ('[', ']'), ('\x7b', '\x7d')] →
    t = before ++ opening :: after →
    ∃ inside rest, after = inside ++ closing :: rest ∧ ∀ c ∈ inside, c ∉ brackets

theorem isPathChar_iff {c : Char} :
    isPathChar c = true ↔ isDelimiter c = false ∧ c ∉ brackets := by
  have marks : "\"'\x60<>\\()[]\x7b\x7d".toList = "\"'\x60<>\\".toList ++ brackets := rfl
  rw [isPathChar, isDelimiter, marks]
  simp [and_assoc]

theorem not_mem_brackets {c : Char} (isChar : isPathChar c = true) : c ∉ brackets :=
  (isPathChar_iff.mp isChar).2

theorem mem_brackets_of_pair {opening closing : Char}
    (pair : (opening, closing) ∈ [('(', ')'), ('[', ']'), ('\x7b', '\x7d')]) :
    opening ∈ brackets ∧ closing ∈ brackets := by
  simp only [List.mem_cons, Prod.mk.injEq, List.not_mem_nil, or_false] at pair
  rcases pair with ⟨rfl, rfl⟩ | ⟨rfl, rfl⟩ | ⟨rfl, rfl⟩
  all_goals decide

/-- An opening bracket closes nothing, and each has its own partner. -/
theorem pair_unique {opening closing opening' closing' : Char}
    (pair : (opening, closing) ∈ [('(', ')'), ('[', ']'), ('\x7b', '\x7d')])
    (pair' : (opening', closing') ∈ [('(', ')'), ('[', ']'), ('\x7b', '\x7d')]) :
    opening ≠ closing' ∧ (opening = opening' → closing = closing') := by
  simp only [List.mem_cons, Prod.mk.injEq, List.not_mem_nil, or_false] at pair pair'
  rcases pair with ⟨rfl, rfl⟩ | ⟨rfl, rfl⟩ | ⟨rfl, rfl⟩ <;>
    rcases pair' with ⟨rfl, rfl⟩ | ⟨rfl, rfl⟩ | ⟨rfl, rfl⟩ <;> decide

theorem bracketsClosed_of_isPath {path : Text} (isPath : IsPath path) : BracketsClosed path := by
  intro before opening closing after pair whole
  induction isPath generalizing before with
  | nil => simp at whole
  | @char c path isChar _ ih =>
    cases before with
    | nil =>
      cases whole
      exact absurd (mem_brackets_of_pair pair).1 (not_mem_brackets isChar)
    | cons d before => exact ih before (List.cons.inj whole).2
  | @group opening' closing' inside path pair' chars _ ih =>
    cases before with
    | nil =>
      cases whole
      rw [(pair_unique pair pair').2 rfl]
      exact ⟨inside, path, rfl, fun c member => not_mem_brackets (chars c member)⟩
    | cons d before =>
      -- The bracket is neither inside the group nor its closing one, so it stands behind the group.
      rcases List.append_eq_append_iff.mp (List.cons.inj whole).2 with
        ⟨more, rfl, later⟩ | ⟨more, rfl, later⟩
      · cases more with
        | nil => exact absurd (List.cons.inj later).1.symm (pair_unique pair pair').1
        | cons e more => exact ih more (List.cons.inj later).2
      · cases more with
        | nil => exact absurd (List.cons.inj later).1 (pair_unique pair pair').1
        | cons e more =>
          obtain rfl := (List.cons.inj later).1
          refine absurd (mem_brackets_of_pair pair).1 (not_mem_brackets (chars _ ?_))
          simp

/-! ## Trimming a path -/

/-- Punctuation at the end of a path belongs to no bracket group. -/
theorem IsPath.of_append_trailing {kept punctuation : Text}
    (isPath : IsPath (kept ++ punctuation)) (trailing : ∀ c ∈ punctuation, isTrailing c = true) :
    IsPath kept := by
  generalize whole : kept ++ punctuation = path at isPath
  induction isPath generalizing kept with
  | nil =>
    rw [(List.append_eq_nil_iff.mp whole).1]
    exact .nil
  | @char c path isChar _ ih =>
    cases kept with
    | nil => exact .nil
    | cons d kept =>
      obtain ⟨rfl, behind⟩ := List.cons.inj whole
      exact .char isChar (ih behind)
  | @group opening closing inside path pair chars _ ih =>
    cases kept with
    | nil => exact .nil
    | cons d kept =>
      obtain ⟨rfl, behind⟩ := List.cons.inj whole
      -- The closing bracket is not trimmed, and so neither is anything before it.
      have closes : isTrailing closing = false := by
        simp only [List.mem_cons, Prod.mk.injEq, List.not_mem_nil, or_false] at pair
        rcases pair with ⟨-, rfl⟩ | ⟨-, rfl⟩ | ⟨-, rfl⟩
        all_goals decide
      have notTrimmed : closing ∉ punctuation := by
        intro member
        rw [trailing closing member] at closes
        cases closes
      rcases List.append_eq_append_iff.mp behind with ⟨more, rfl, later⟩ | ⟨more, rfl, later⟩
      · exact absurd (by simp [later]) notTrimmed
      · cases more with
        | nil =>
          rw [List.nil_append] at later
          exact absurd (by simp [← later]) notTrimmed
        | cons e more =>
          obtain ⟨rfl, inPath⟩ := List.cons.inj later
          exact .group pair chars (ih inPath.symm)

theorem IsTail.of_append_trailing {kept punctuation : Text} (isTail : IsTail (kept ++ punctuation))
    (trailing : ∀ c ∈ punctuation, isTrailing c = true) : IsTail kept := by
  cases kept with
  | nil => exact Or.inl rfl
  | cons c kept =>
    rcases isTail with none | ⟨first, path, opens, isPath, whole⟩
    · cases none
    · obtain ⟨rfl, rfl⟩ := List.cons.inj whole
      exact Or.inr ⟨c, kept, opens, isPath.of_append_trailing trailing, rfl⟩

/-! ## Words are paths -/

theorem IsPath.append_chars {chars path : Text} (all : ∀ c ∈ chars, isPathChar c = true)
    (isPath : IsPath path) : IsPath (chars ++ path) := by
  induction chars with
  | nil => exact isPath
  | cons c chars ih =>
    rw [List.forall_mem_cons] at all
    exact .char all.1 (ih all.2)

theorem IsTail.isPath {tail : Text} (isTail : IsTail tail) : IsPath tail := by
  rcases isTail with rfl | ⟨c, path, opens, isPath, rfl⟩
  · exact .nil
  · refine .char ?_ isPath
    rcases opens with rfl | rfl | rfl
    all_goals decide

section
variable {schemes : List Text} {singleLabel : Bool}

namespace ReadingLemmas

/-- There is no bracket in the spelling of a scheme. -/
theorem spelled_not_bracket {scheme spelled : Text} (valid : isScheme scheme = true)
    (spells : Spells (Text.lowercase scheme) spelled) {c : Char} (member : c ∈ spelled) :
    c ∉ brackets := by
  intro bracket
  have tested : brackets.all (fun c => decide (c.toNat < 128) && !c.isAlphanum &&
      !List.contains ['+', '-', '.'] c) = true := by decide
  have test := List.all_eq_true.mp tested c bracket
  simp only [Bool.and_eq_true, decide_eq_true_eq, Bool.not_eq_true'] at test
  obtain ⟨⟨ascii, punctuation⟩, other⟩ := test
  exact not_mem_spelled valid spells ascii punctuation (by simpa using other) member

/-- There is no bracket in a host and none in a port. -/
theorem host_not_bracket {host : Text} (isHost : IsHost singleLabel host) {c : Char}
    (member : c ∈ host) : c ∉ brackets := by
  obtain ⟨labels, isLabel, -, rfl⟩ := isHost
  intro bracket
  have tested : brackets.all (fun c => !(c == '.' || isLabelChar c)) = true := by decide
  have test := List.all_eq_true.mp tested c bracket
  rcases Text.mem_join member with rfl | ⟨label, labelMember, inLabel⟩
  · simp at test
  · have labelChar := isLabelChar_iff.mpr ((isLabel label labelMember).chars c inLabel)
    simp [labelChar] at test

theorem port_not_bracket {port following : Text} (isPort : IsPort port following) {c : Char}
    (member : c ∈ port) : c ∉ brackets := by
  intro bracket
  have tested : brackets.all (fun c => !(c == ':' || Text.isDecimalDigit c)) = true := by decide
  have test := List.all_eq_true.mp tested c bracket
  rcases isPort with rfl | ⟨digits, rfl, -, -, allDigits, -⟩
  · cases member
  · rcases List.mem_cons.mp member with rfl | inDigits
    · simp at test
    · simp [allDigits c inDigits] at test

end ReadingLemmas

/-- A word consists of path characters and closed bracket groups. -/
theorem IsWord.isPath (valid : ∀ scheme ∈ schemes, isScheme scheme = true) {word following : Text}
    (isWord : IsWord schemes singleLabel word following) : IsPath word := by
  have noDelimiter : ∀ c ∈ word, isDelimiter c = false := fun c => isWord.not_isDelimiter valid
  obtain ⟨scheme, spelled, host, port, tail, member, spells, isHost, isPort, isTail, rfl⟩ := isWord
  rw [show spelled ++ ("://".toList ++ (host ++ (port ++ tail))) =
    (spelled ++ ("://".toList ++ (host ++ port))) ++ tail by simp] at noDelimiter ⊢
  refine isTail.isPath.append_chars fun c inFront => isPathChar_iff.mpr ⟨?_, ?_⟩
  · exact noDelimiter c (List.mem_append_left tail inFront)
  · rcases List.mem_append.mp inFront with inScheme | inFront
    · exact spelled_not_bracket (valid scheme member) spells inScheme
    rcases List.mem_append.mp inFront with inSeparator | inFront
    · have free : "://".toList.all (fun c => !brackets.contains c) = true := by decide
      simpa using List.all_eq_true.mp free c inSeparator
    rcases List.mem_append.mp inFront with inHost | inPort
    · exact host_not_bracket isHost inHost
    · exact port_not_bracket isPort inPort

/-! ## A reported URL is a URL by itself -/

/-- A URL without the punctuation at its end has the same scheme, host and port, and what is left of
its tail is a tail. No text is needed behind it. -/
theorem HasParts.trimmed_hasParts {u : Url} {following : Text}
    (parts : HasParts schemes singleLabel u following) :
    ∃ kept, kept <+: u.tail ∧ u.trimmed = { u with tail := kept }.text ∧
      HasParts schemes singleLabel { u with tail := kept } [] := by
  obtain ⟨kept, begins, isTrimmed⟩ := parts.trimmed_eq
  obtain ⟨punctuation, whole, trailing, -⟩ := isTrimmed_trimmed u
  have tailWhole : u.tail = kept ++ punctuation := by
    rw [isTrimmed, text] at whole
    simpa using whole
  have isTail := parts.isTail
  rw [tailWhole] at isTail
  refine ⟨kept, begins, ?_, parts.spells, parts.isLabel, parts.enough, ?_,
    isTail.of_append_trailing fun c member => isTrailing_iff.mpr (trailing c member)⟩
  · rw [isTrimmed]
    simp [text, Url.host]
  · refine parts.isPort.imp id ?_
    rintro ⟨digits, isPort, atLeast, atMost, allDigits, noDigit⟩
    refine ⟨digits, isPort, atLeast, atMost, allDigits, fun d next => noDigit d ?_⟩
    cases kept with
    | nil => cases next
    | cons c kept =>
      rw [tailWhole]
      exact next

/-- A word by itself is all that there is to find in it. -/
theorem leftmostLongest_word {word : Text} (isWord : IsWord schemes singleLabel word []) :
    LeftmostLongest schemes singleLabel word 0 [(0, word)] := by
  refine .found (Nat.le_refl 0) (fun r _ before => absurd before (Nat.not_lt_zero r))
    (fun c none => by cases none) ⟨⟨[], by simp, isWord⟩, ?_⟩ (.done fun q after => ?_)
  · intro other following whole _
    rw [List.drop_zero] at whole
    rw [whole, List.length_append]
    exact Nat.le_add_right _ _
  · rintro ⟨-, other, following, whole, isOther⟩
    rw [List.drop_eq_nil_of_le (by omega)] at whole
    exact isOther.ne_nil (List.append_eq_nil_iff.mp whole.symm).1

theorem findAll_word (valid : ∀ scheme ∈ schemes, isScheme scheme = true) {word : Text}
    (isWord : IsWord schemes singleLabel word []) :
    ∃ u : Url, u.text = word ∧
      (Matcher.ofSchemes schemes singleLabel).findAll word = [⟨0, u⟩] := by
  have found : LeftmostLongest schemes singleLabel word 0 _ := leftmostLongest_findAll valid word
  have all := leftmostLongest_unique found (leftmostLongest_word isWord)
  obtain ⟨⟨start, u⟩, whole, place⟩ := List.map_eq_singleton_iff.mp all
  obtain ⟨rfl, same⟩ := Prod.mk.inj place
  exact ⟨u, same, whole⟩

theorem trimEnd_trimmed (u : Url) : Text.trimEnd isTrailing u.trimmed = u.trimmed :=
  List.rdropWhile_idempotent isTrailing u.text

/-- A search in a reported URL finds the whole of it and reports it again. It has the scheme, the
host and the port of the URL that was found, and the beginning of its tail, and every bracket that is
opened in it is closed in it. -/
theorem findAll_reported (valid : ∀ scheme ∈ schemes, isScheme scheme = true) {t : Text}
    {found : Found} (member : found ∈ (Matcher.ofSchemes schemes singleLabel).findAll t) :
    ((Matcher.ofSchemes schemes singleLabel).findAll found.url).map
        (fun f => (f.start, f.stop, f.url)) = [(0, found.url.length, found.url)] ∧
      (∃ kept, kept <+: found.raw.tail ∧ found.url =
        found.raw.scheme ++ ("://".toList ++ (found.raw.host ++ (found.raw.port ++ kept)))) ∧
      BracketsClosed found.url := by
  obtain ⟨following, -, parts⟩ := findAll_hasParts member
  obtain ⟨kept, begins, isTrimmed, keptParts⟩ := parts.trimmed_hasParts
  have isWord : IsWord schemes singleLabel found.url [] := by
    rw [Found.url, isTrimmed]
    exact keptParts.isWord
  obtain ⟨u, same, alone⟩ := findAll_word valid isWord
  have reported : u.trimmed = found.url := by
    rw [Url.trimmed, same]
    exact trimEnd_trimmed found.raw
  refine ⟨?_, ⟨kept, begins, ?_⟩, bracketsClosed_of_isPath (isWord.isPath valid)⟩
  · rw [alone, List.map_singleton]
    simp only [Found.stop, Found.url, reported, Nat.zero_add]
  · rw [Found.url, isTrimmed]
    simp [text, separator, Url.host]

/-- A URL with a group in its tail, before the end of a sentence. -/
theorem findAll_reported_group :
    ∃ found : Found, (∀ scheme ∈ ["http".toList], isScheme scheme = true) ∧
      found ∈ (Matcher.ofSchemes ["http".toList] false).findAll
        "(see http://a.b:80/c_(d.)?!)".toList ∧
      found.url = "http://a.b:80/c_(d.)".toList ∧
      ((Matcher.ofSchemes ["http".toList] false).findAll found.url).map
        (fun f => (f.start, f.stop, f.url)) = [(0, 20, found.url)] ∧
      BracketsClosed found.url := by
  let found : Found := ⟨5, ⟨"http".toList, ["a".toList, "b".toList], ":80".toList,
    "/c_(d.)?!".toList⟩⟩
  have valid : ∀ scheme ∈ ["http".toList], isScheme scheme = true := by decide
  have member : found ∈ (Matcher.ofSchemes ["http".toList] false).findAll
      "(see http://a.b:80/c_(d.)?!)".toList := by decide +kernel
  obtain ⟨alone, -, closed⟩ := findAll_reported valid member
  exact ⟨found, valid, member, by decide +kernel, alone, closed⟩

/-! ## Where a host ends -/

/-- A label that is followed by a letter or a digit is as long as a label may be. -/
theorem label?_full {t label : Text} {c : Char} (read : label? t = some label)
    (next : (t.drop label.length).head? = some c) (letter : IsLabelLetter c) :
    label.length = maxLabel := by
  obtain ⟨isLabel, begins⟩ := label?_eq_some read
  refine Nat.le_antisymm isLabel.length_le (Nat.le_of_not_lt fun short => ?_)
  -- Otherwise the letter would belong to the label.
  have longer : IsLabel (label ++ [c]) := by
    obtain ⟨first, rest, rfl⟩ := List.exists_cons_of_ne_nil isLabel.ne_nil
    refine ⟨by simp, ?_, fun d member => ?_, isLabel.head, ?_⟩
    · rw [List.length_append]
      exact short
    · rcases List.mem_append.mp member with inLabel | last
      · exact isLabel.chars d inLabel
      · rw [List.mem_singleton.mp last]
        exact Or.inr letter
    · rw [List.getLast?_concat, ne_eq, Option.some.injEq]
      rintro rfl
      exact absurd (isLabelLetter_iff.mpr letter) (by decide)
  obtain ⟨behind, whole⟩ := begins
  have starts : label ++ [c] <+: t := by
    rw [drop_of_append whole] at next
    obtain ⟨rest, rfl⟩ := List.head?_eq_some_iff.mp next
    exact ⟨rest, by simp [← whole]⟩
  obtain ⟨longest, read', inLongest⟩ := isPrefix_label? longer starts
  rw [read] at read'
  cases read'
  have shorter := inLongest.length_le
  rw [List.length_append, List.length_singleton] at shorter
  omega

/-- When a letter or a digit comes behind all the labels that are read, the last of them is as long
as a label may be. -/
theorem labelsOf_full {t : Text} {c : Char} (letter : IsLabelLetter c)
    (notEmpty : labelsOf t ≠ [])
    (next : (t.drop (Text.join ['.'] (labelsOf t)).length).head? = some c) :
    ∃ label, (labelsOf t).getLast? = some label ∧ label.length = maxLabel := by
  cases read : label? t with
  | none =>
    rw [labelsOf, read] at notEmpty
    exact absurd rfl notEmpty
  | some label =>
    obtain ⟨-, rest, whole⟩ := label?_eq_some read
    rw [← whole] at read next ⊢
    rw [labelsOf_append read] at next ⊢
    rcases moreLabels_cases rest with none | ⟨behind, rfl, more, same⟩
    · rw [none, Text.join_singleton] at next
      exact ⟨label, by rw [none]; rfl, label?_full read next letter⟩
    · rw [same, Text.join_cons more, List.length_append, List.length_cons, ← List.drop_drop,
        List.drop_left, List.drop_succ_cons] at next
      obtain ⟨last, atEnd, full⟩ := labelsOf_full letter more next
      rw [same, List.getLast?_cons_of_ne_nil more]
      exact ⟨last, atEnd, full⟩
termination_by t.length
decreasing_by
  simp [← whole]
  omega

theorem isLabelLetter_of_isAlphanum {c : Char} (alphanumeric : c.isAlphanum = true) :
    IsLabelLetter c := by
  have ascii : c.toNat < 128 := by
    have := Text.range_of_isAlphanum alphanumeric
    omega
  exact isLabelLetter_iff.mp (Text.ascii_of_forall
    (P := fun c => c.isAlphanum = true → isLabelLetter c = true) (by decide) ascii alphanumeric)

/-- Behind the scheme of a URL that is found stands what its other parts are read from. -/
theorem findAll_readHost {t : Text} {found : Found}
    (member : found ∈ (Matcher.ofSchemes schemes singleLabel).findAll t) :
    ∃ atHost, t.drop found.start = found.raw.scheme ++ ("://".toList ++ atHost) ∧
      readHost found.raw.scheme singleLabel atHost = some found.raw := by
  have isRead := findFrom_reads _ none 0 t found member
  rw [Nat.sub_zero] at isRead
  obtain ⟨lowered, -, read⟩ := List.exists_of_findSome?_eq_some isRead
  obtain ⟨spelled, atHost, whole, -, readBehind⟩ := read?_eq_some_iff.mp read
  rw [(readHost_sound readBehind).1]
  exact ⟨atHost, whole, readBehind⟩

/-- The labels of a URL are all labels that its host is read from. -/
theorem labels_eq_labelsOf {spelled atHost : Text} {u : Url}
    (read : readHost spelled singleLabel atHost = some u) : u.labels = labelsOf atHost := by
  rw [readHost, host?_eq] at read
  split at read
  next => rw [← Option.some.inj read]
  next => cases read

/-- The character behind a beginning of what stands at an offset. -/
theorem getElem?_behind {t front rest : Text} {p : Nat} (whole : t.drop p = front ++ rest) :
    t[p + front.length]? = rest.head? := by
  rw [← List.getElem?_drop, whole, List.getElem?_append_right (Nat.le_refl _), Nat.sub_self,
    List.head?_eq_getElem?]

/-- What follows a URL that is reported without a tail. Behind a host there is no ASCII letter or
digit, unless the last label of the host has 63 characters, which is all that a label may have: a
longer one is cut there. Behind a port there is no digit at all. -/
theorem findAll_hostEnd {t : Text} {found : Found}
    (member : found ∈ (Matcher.ofSchemes schemes singleLabel).findAll t) :
    (found.url = found.raw.scheme ++ ("://".toList ++ found.raw.host) →
      ∀ c, t[found.stop]? = some c → c.isAlphanum = true →
        ∃ label, found.raw.labels.getLast? = some label ∧ label.length = 63) ∧
    (found.raw.port ≠ [] →
      found.url = found.raw.scheme ++ ("://".toList ++ (found.raw.host ++ found.raw.port)) →
      ∀ d, t[found.stop]? = some d → Text.isDecimalDigit d = false) := by
  obtain ⟨following, place, parts⟩ := findAll_hasParts member
  constructor
  · intro hostOnly c next alphanumeric
    obtain ⟨atHost, whole, read⟩ := findAll_readHost member
    have labels := labels_eq_labelsOf read
    obtain ⟨-, behind, hostWhole⟩ := labelsOf_sound atHost
    rw [← hostWhole, ← labels, ← List.append_assoc, ← List.append_assoc] at whole
    rw [Found.stop, hostOnly, ← List.append_assoc, Url.host, getElem?_behind whole] at next
    rw [← drop_of_append hostWhole] at next
    have notEmpty : labelsOf atHost ≠ [] := labels ▸ parts.labels_ne_nil
    rw [labels]
    exact labelsOf_full (isLabelLetter_of_isAlphanum alphanumeric) notEmpty next
  · intro somePort hostAndPort d next
    have whole : t.drop found.start =
        (found.raw.scheme ++ ("://".toList ++ (found.raw.host ++ found.raw.port))) ++
          (found.raw.tail ++ following) := by
      rw [place, text, separator]
      simp
    rw [Found.stop, hostAndPort, getElem?_behind whole] at next
    rcases parts.isPort with none | ⟨-, -, -, -, -, noDigit⟩
    · exact absurd none somePort
    · exact noDigit d next

/-- A label of 64 letters is cut behind its 63rd one, and the text goes on with a letter. -/
theorem label_cut :
    ¬∀ (t : Text) (found : Found), found ∈ (Matcher.ofSchemes ["http".toList] false).findAll t →
      found.url = found.raw.scheme ++ ("://".toList ++ found.raw.host) →
      ∀ c, t[found.stop]? = some c → c.isAlphanum = false := by
  intro whole
  let t := "http://a.".toList ++ List.replicate 64 'b'
  let found : Found := ⟨0, "http".toList, ["a".toList, List.replicate 63 'b'], [], []⟩
  have member : found ∈ (Matcher.ofSchemes ["http".toList] false).findAll t := by decide +kernel
  have notAlphanumeric := whole t found member (by decide +kernel) 'b' (by decide +kernel)
  exact absurd notAlphanumeric (by decide)

/-- Behind the 63 characters of the cut label the text goes on with another one; behind a port there
is a bracket. -/
theorem findAll_hostEnd_cut :
    (∃ found ∈ (Matcher.ofSchemes ["http".toList] false).findAll
        ("http://a.".toList ++ List.replicate 64 'b'),
      found.url = "http://a.".toList ++ List.replicate 63 'b' ∧
      ∃ label, found.raw.labels.getLast? = some label ∧ label.length = 63) ∧
    ∃ found ∈ (Matcher.ofSchemes ["http".toList] false).findAll "(http://a.b:80)".toList,
      found.url = "http://a.b:80".toList ∧ Text.isDecimalDigit ')' = false := by
  constructor
  · let found : Found := ⟨0, "http".toList, ["a".toList, List.replicate 63 'b'], [], []⟩
    have member : found ∈ (Matcher.ofSchemes ["http".toList] false).findAll
        ("http://a.".toList ++ List.replicate 64 'b') := by decide +kernel
    have full := (findAll_hostEnd member).1 (by decide +kernel) 'b' (by decide +kernel) (by decide)
    exact ⟨found, member, by decide +kernel, full⟩
  · let found : Found := ⟨1, "http".toList, ["a".toList, "b".toList], ":80".toList, []⟩
    have member : found ∈ (Matcher.ofSchemes ["http".toList] false).findAll
        "(http://a.b:80)".toList := by decide +kernel
    have noDigit := (findAll_hostEnd member).2 (by decide) (by decide +kernel) ')' (by decide +kernel)
    exact ⟨found, member, by decide +kernel, noDigit⟩

end

end UrlScan.Url
