import UrlScan.Filter
import UrlScan.Proofs.Text.LowerCase
import UrlScan.Proofs.Url.Parts

/-!
# The filter sees the host that was found

A URL is taken apart twice: by the matcher that finds it, and by the filter, which looks for the
host in any text (`Host.hostOf`). For a URL that was found, the two agree on the host, if the filter
takes the scheme for a scheme: if it is spelled in ASCII, starts with a letter, and has no other
characters than a scheme may have (`IsAsciiScheme`). The scheme ends at the first colon. Host and
port are made of letters, digits, hyphens, dots and one colon, so the authority ends where the tail
begins; it has no user information, no brackets and no zone, whatever the tail has. None of its
characters is turned into a delimiter by compatibility normalization.

Any other scheme is no scheme for the filter. It then looks for `//` at the very beginning of the
URL, where none stands, and finds no host.

Results:
1. `isAsciiScheme_spelled`: an ASCII scheme that is spelled in ASCII is one again.
2. `hostOf_eq_some`: the host of a URL with the parts of the grammar and an ASCII scheme.
3. `hostOf_eq_none`: a URL with another scheme has no host.
4. `isQualified_lowercase`: a host is fully qualified if it has at least two labels.
5. `hostOf_found`: the host of every URL that is found.
6. `keeps_found`: what a filter keeps of the URLs that are found.
-/

namespace UrlScan

/-! ## Cutting texts -/

namespace Text

theorem cutFirst_append {c : Char} {before : Text} (absent : c ∉ before) (rest : Text) :
    cutFirst c (before ++ c :: rest) = (before, some rest) := by
  induction before with
  | nil => rw [List.nil_append, cutFirst, if_pos rfl]
  | cons d before ih =>
    rw [List.mem_cons, not_or] at absent
    rw [List.cons_append, cutFirst, if_neg (Ne.symm absent.1), ih absent.2]

theorem cutFirst_of_absent {c : Char} {t : Text} (absent : c ∉ t) : cutFirst c t = (t, none) := by
  induction t with
  | nil => rfl
  | cons d rest ih =>
    rw [List.mem_cons, not_or] at absent
    rw [cutFirst, if_neg (Ne.symm absent.1), ih absent.2]

theorem afterLast_of_absent {c : Char} {t : Text} (absent : c ∉ t) : afterLast c t = t := by
  rw [afterLast, List.splitOn_eq_singleton absent]
  rfl

end Text

/-! ## ASCII schemes -/

/-- A scheme that starts with an ASCII letter and goes on with ASCII letters, digits, `+`, `-` and
`.`. -/
structure IsAsciiScheme (scheme : Text) : Prop where
  head : ∃ c, scheme.head? = some c ∧ c.isAlpha = true
  chars : ∀ c ∈ scheme, c.isAlphanum = true ∨ c ∈ ['+', '-', '.']

namespace IsAsciiScheme

theorem isSchemeChar_iff {c : Char} :
    Host.isSchemeChar c = true ↔ c.isAlphanum = true ∨ c ∈ ['+', '-', '.'] := by
  have marks : "+-.".toList = ['+', '-', '.'] := rfl
  rw [Host.isSchemeChar, marks, Bool.or_eq_true, List.contains_iff_mem]

/-- The ASCII schemes are the schemes for the filter. -/
theorem iff_isSchemeChar {scheme : Text} :
    (scheme.head?.any Char.isAlpha && scheme.all Host.isSchemeChar) = true ↔
      IsAsciiScheme scheme := by
  simp only [Bool.and_eq_true, Option.any_eq_true, List.all_eq_true, isSchemeChar_iff]
  exact ⟨fun ⟨head, chars⟩ => ⟨head, chars⟩, fun ⟨head, chars⟩ => ⟨head, chars⟩⟩

theorem isSchemeChar {scheme : Text} (ascii : IsAsciiScheme scheme) {c : Char}
    (member : c ∈ scheme) : Host.isSchemeChar c = true :=
  isSchemeChar_iff.mpr (ascii.chars c member)

theorem lt {scheme : Text} (ascii : IsAsciiScheme scheme) {c : Char} (member : c ∈ scheme) :
    c.toNat < 128 := by
  rcases ascii.chars c member with alphanumeric | mark
  · have := Text.range_of_isAlphanum alphanumeric
    omega
  · simp only [List.mem_cons, List.not_mem_nil, or_false] at mark
    rcases mark with rfl | rfl | rfl
    all_goals decide

/-- An ASCII scheme is a valid one. -/
theorem isScheme {scheme : Text} (ascii : IsAsciiScheme scheme) :
    UrlScan.isScheme scheme = true := by
  obtain ⟨first, head, letter⟩ := ascii.head
  have alphanumeric : first.isAlphanum = true := by rw [Char.isAlphanum, letter, Bool.true_or]
  have notMark {c mark : Char} (isLetter : c.isAlphanum = true) (isMark : mark.isAlphanum = false) :
      c ≠ mark := by
    rintro rfl
    rw [isLetter] at isMark
    cases isMark
  simp only [UrlScan.isScheme, Bool.and_eq_true, Bool.not_eq_true',
    List.isEmpty_eq_false_iff_exists_mem, List.mem_filter, List.all_eq_true, bne_iff_ne]
  refine ⟨⟨first, List.mem_of_head? head, ⟨notMark alphanumeric (by decide),
    notMark alphanumeric (by decide)⟩, notMark alphanumeric (by decide)⟩, ?_⟩
  rintro c ⟨member, ⟨notPlus, notHyphen⟩, notDot⟩
  rw [Text.isAlphanumeric, if_pos (ascii.lt member)]
  refine (ascii.chars c member).resolve_right fun mark => ?_
  simp only [List.mem_cons, List.not_mem_nil, or_false] at mark
  rcases mark with plus | hyphen | dot
  · exact notPlus plus
  · exact notHyphen hyphen
  · exact notDot dot

instance : DecidablePred IsAsciiScheme :=
  fun _ => decidable_of_iff _ iff_isSchemeChar

end IsAsciiScheme

/-! ## The spelling of a scheme -/

namespace HostLemmas

open Url

/-- An ASCII character is allowed in a scheme, or begins one, whatever its case. -/
theorem isSchemeChar_toLower {c : Char} (ascii : c.toNat < 128) :
    Host.isSchemeChar c.toLower = Host.isSchemeChar c ∧ c.toLower.isAlpha = c.isAlpha :=
  Text.ascii_of_forall
    (P := fun c => Host.isSchemeChar c.toLower = Host.isSchemeChar c ∧
      c.toLower.isAlpha = c.isAlpha) (by decide) ascii

/-- The ASCII spelling of ASCII letters has these letters but for their case. -/
theorem toLower_spelled {letters spelled : Text} (spells : Spells letters spelled)
    (asciiLetters : ∀ c ∈ letters, c.toNat < 128) (ascii : ∀ c ∈ spelled, c.toNat < 128) :
    spelled.map Char.toLower = letters.map Char.toLower := by
  induction spells with
  | nil => rfl
  | cons same _ ih =>
    rw [List.forall_mem_cons] at asciiLetters ascii
    rw [List.map_cons, List.map_cons, ih asciiLetters.2 ascii.2,
      Text.toLower_eq_of_sameLetter asciiLetters.1 ascii.1 same]

theorem toLower_spelled_scheme {scheme spelled : Text} (asciiScheme : IsAsciiScheme scheme)
    (spells : Spells (Text.lowercase scheme) spelled) (ascii : ∀ c ∈ spelled, c.toNat < 128) :
    spelled.map Char.toLower = scheme.map Char.toLower := by
  rw [Text.lowercase_ascii fun c member => asciiScheme.lt member] at spells
  rw [toLower_spelled spells ?_ ascii, List.map_map]
  · exact List.map_congr_left fun c member => Text.toLower_toLower (asciiScheme.lt member)
  · intro c member
    obtain ⟨letter, inScheme, rfl⟩ := List.mem_map.mp member
    exact Text.toLower_lt (asciiScheme.lt inScheme)

/-- An ASCII scheme that is spelled in ASCII is one again. -/
theorem isAsciiScheme_spelled {scheme spelled : Text} (asciiScheme : IsAsciiScheme scheme)
    (spells : Spells (Text.lowercase scheme) spelled) (ascii : ∀ c ∈ spelled, c.toNat < 128) :
    IsAsciiScheme spelled := by
  have same := toLower_spelled_scheme asciiScheme spells ascii
  rw [← IsAsciiScheme.iff_isSchemeChar, Bool.and_eq_true]
  constructor
  · obtain ⟨first, head, letter⟩ := asciiScheme.head
    have heads := congrArg List.head? same
    rw [List.head?_map, List.head?_map, head, Option.map_some, Option.map_eq_some_iff] at heads
    obtain ⟨c, isHead, sameLower⟩ := heads
    have inScheme := asciiScheme.lt (List.mem_of_head? head)
    have inSpelled := ascii c (List.mem_of_head? isHead)
    rw [isHead, Option.any_some, ← (isSchemeChar_toLower inSpelled).2, sameLower,
      (isSchemeChar_toLower inScheme).2, letter]
  · rw [List.all_eq_true]
    intro c member
    obtain ⟨letter, inScheme, sameLower⟩ :=
      List.mem_map.mp (same ▸ List.mem_map_of_mem (f := Char.toLower) member)
    rw [← (isSchemeChar_toLower (ascii c member)).1, ← sameLower,
      (isSchemeChar_toLower (asciiScheme.lt inScheme)).1]
    exact asciiScheme.isSchemeChar inScheme

/-! ## The authority -/

/-- Nothing is cleaned away from a text that begins with no control and has no white space. -/
theorem clean_eq {t : Text} (first : ∀ c, t.head? = some c → 0x20 < c.toNat)
    (noDelimiter : ∀ c ∈ t, isDelimiter c = false) : Host.clean t = t := by
  have starts : Text.trimStart (fun c => c.toNat ≤ 0x20) t = t := by
    cases t with
    | nil => rfl
    | cons c rest =>
      have above := first c rfl
      refine List.dropWhile_cons_of_neg ?_
      rw [decide_eq_true_eq]
      omega
  have breaks : "\t\r\n".toList = ['\t', '\r', '\n'] := rfl
  rw [Host.clean, starts, breaks, List.filter_eq_self]
  intro c member
  rw [Bool.not_eq_true', ← Bool.not_eq_true, List.contains_iff_mem]
  intro isBreak
  have ends : ['\t', '\r', '\n'].all isDelimiter = true := by decide
  have delimiter := List.all_eq_true.mp ends c isBreak
  rw [noDelimiter c member] at delimiter
  cases delimiter

/-- The authority ends where path, query or fragment begin. -/
theorem takeWhile_of_absent {authority rest : Text} (noMark : ∀ c ∈ ['/', '?', '#'], c ∉ authority)
    (first : ∀ c, rest.head? = some c → c ∈ ['/', '?', '#']) :
    (authority ++ rest).takeWhile (fun c => !"/?#".toList.contains c) = authority := by
  have marks : "/?#".toList = ['/', '?', '#'] := rfl
  have inAuthority : ∀ c ∈ authority, (!"/?#".toList.contains c) = true := by
    intro c member
    rw [Bool.not_eq_true', ← Bool.not_eq_true, List.contains_iff_mem, marks]
    exact fun mark => noMark c mark member
  have none : rest.takeWhile (fun c => !"/?#".toList.contains c) = [] := by
    cases rest with
    | nil => rfl
    | cons c rest =>
      have mark := first c rfl
      rw [← marks, ← List.contains_iff_mem] at mark
      refine List.takeWhile_cons_of_neg ?_
      show ¬(!"/?#".toList.contains c) = true
      rw [mark]
      exact Bool.false_ne_true
  rw [List.takeWhile_append_of_pos inAuthority, none, List.append_nil]

theorem bracketsFit_of_absent {authority : Text} (noOpening : '[' ∉ authority)
    (noClosing : ']' ∉ authority) : Host.bracketsFit authority = true := by
  have opening : authority.contains '[' = false := by
    rwa [← Bool.not_eq_true, List.contains_iff_mem]
  have closing : authority.contains ']' = false := by
    rwa [← Bool.not_eq_true, List.contains_iff_mem]
  rw [Host.bracketsFit, opening, closing]

/-- Without user information and brackets the host is what stands before the port. -/
theorem hostIn_of_absent {host port : Text} (noUser : '@' ∉ host ++ port)
    (noBracket : '[' ∉ host ++ port) (noColon : ':' ∉ host)
    (isPort : port = [] ∨ ∃ number, port = ':' :: number) : Host.hostIn (host ++ port) = host := by
  rw [Host.hostIn, Host.hostPort, Text.afterLast_of_absent noUser,
    Text.cutFirst_of_absent noBracket]
  dsimp only
  rcases isPort with rfl | ⟨number, rfl⟩
  · rw [List.append_nil, Text.cutFirst_of_absent noColon]
  · rw [Text.cutFirst_append noColon]

/-- The characters of a host and a port. -/
def isAuthorityChar (c : Char) : Bool :=
  c == '.' || isLabelChar c || c == ':' || Text.isDecimalDigit c

/-- A host and a port have none of the characters that the filter looks for in an authority. -/
theorem isAuthorityChar_eq_false {c : Char}
    (special : c ∈ ['/', '?', '#', '@', '[', ']'] ++ Host.delimiterLookalikes) :
    isAuthorityChar c = false := by
  have all : (['/', '?', '#', '@', '[', ']'] ++ Host.delimiterLookalikes).all
      (fun c => !isAuthorityChar c) = true := by decide +kernel
  simpa using List.all_eq_true.mp all c special

section
variable {schemes : List Text} {singleLabel : Bool} {u : Url} {following : Text}
  (parts : HasParts schemes singleLabel u following)
include parts

theorem isAuthorityChar_of_mem {c : Char} (member : c ∈ u.host ++ u.port) :
    isAuthorityChar c = true := by
  rw [isAuthorityChar]
  rcases List.mem_append.mp member with inHost | inPort
  · rcases parts.host_char inHost with rfl | labelChar
    · rfl
    · rw [labelChar, Bool.or_true, Bool.true_or, Bool.true_or]
  · rcases parts.port_char inPort with rfl | digit
    · rw [beq_self_eq_true, Bool.or_true, Bool.true_or]
    · rw [digit, Bool.or_true]

theorem absent_of_special {c : Char}
    (special : c ∈ ['/', '?', '#', '@', '[', ']'] ++ Host.delimiterLookalikes) :
    c ∉ u.host ++ u.port := by
  intro member
  have isChar := isAuthorityChar_of_mem parts member
  rw [isAuthorityChar_eq_false special] at isChar
  cases isChar

/-- The scheme of a URL ends at its first colon. -/
theorem cutFirst_scheme (valid : ∀ scheme ∈ schemes, isScheme scheme = true) (rest : Text) :
    Text.cutFirst ':' (u.scheme ++ ':' :: rest) = (u.scheme, some rest) := by
  obtain ⟨scheme, member, spells⟩ := parts.spells
  exact Text.cutFirst_append (colon_not_mem (valid scheme member) spells) rest

/-- An ASCII scheme is taken for a scheme, and what follows it is looked at; for any other scheme it
is the whole text. -/
theorem afterScheme_eq (valid : ∀ scheme ∈ schemes, isScheme scheme = true) (rest : Text) :
    Host.afterScheme (u.scheme ++ ':' :: rest) =
      if IsAsciiScheme u.scheme then rest else u.scheme ++ ':' :: rest := by
  rw [Host.afterScheme, cutFirst_scheme parts valid]
  exact if_congr IsAsciiScheme.iff_isSchemeChar rfl rfl

/-- A character without letter case stands in the spelling of a scheme only if a scheme may have
it. -/
theorem scheme_char (valid : ∀ scheme ∈ schemes, isScheme scheme = true) {c : Char}
    (free : Text.IsCaseFree c) (spelled : c ∈ u.scheme) :
    Text.isAlphanumeric c = true ∨ c = '+' ∨ c = '-' ∨ c = '.' := by
  obtain ⟨scheme, member, spells⟩ := parts.spells
  exact isScheme_char (valid scheme member) (mem_of_mem_spelled free spells spelled)

/-- Neither a control nor a blank is in the spelling of a scheme. -/
theorem scheme_char_above (valid : ∀ scheme ∈ schemes, isScheme scheme = true) {c : Char}
    (spelled : c ∈ u.scheme) : 0x20 < c.toNat := by
  by_contra notAbove
  have low : c.toNat ≤ 0x20 := Nat.le_of_not_lt notAbove
  have free : Text.IsCaseFree c := ⟨(0, 0x20), by decide +kernel, Nat.zero_le _, low⟩
  rcases scheme_char parts valid free spelled with alphanumeric | rfl | rfl | rfl
  · rw [Text.isAlphanumeric, if_pos (Nat.lt_of_le_of_lt low (by decide))] at alphanumeric
    have := Text.range_of_isAlphanum alphanumeric
    omega
  all_goals exact absurd low (by decide)

/-- A URL begins with the first character of its scheme, or with a colon. -/
theorem above_of_head (valid : ∀ scheme ∈ schemes, isScheme scheme = true) {c : Char}
    (head : u.trimmed.head? = some c) : 0x20 < c.toNat := by
  obtain ⟨kept, -, isTrimmed⟩ := parts.trimmed_eq
  rw [isTrimmed, List.head?_append] at head
  cases begins : u.scheme.head? with
  | none =>
    rw [begins] at head
    cases head
    decide
  | some d =>
    rw [begins] at head
    cases head
    exact scheme_char_above parts valid (List.mem_of_head? begins)

theorem clean_trimmed (valid : ∀ scheme ∈ schemes, isScheme scheme = true) :
    Host.clean u.trimmed = u.trimmed :=
  clean_eq (fun _ head => above_of_head parts valid head) fun _ member =>
    parts.isWord.not_isDelimiter valid (u.trimmed_isPrefix.subset member)

/-- Behind host and port the tail begins, if there is one, and there the authority ends. -/
theorem takeWhile_authority {kept : Text} (begins : kept <+: u.tail) :
    (u.host ++ u.port ++ kept).takeWhile (fun c => !"/?#".toList.contains c) =
      u.host ++ u.port := by
  refine takeWhile_of_absent (fun c mark => absent_of_special parts ?_) fun c first => ?_
  · exact List.mem_append_left _ (List.mem_append_left ['@', '[', ']'] mark)
  · obtain ⟨behind, whole⟩ := begins
    obtain ⟨rest, rfl⟩ := List.head?_eq_some_iff.mp first
    rcases parts.isTail with noTail | ⟨mark, path, opens, -, isTail⟩
    · rw [noTail] at whole
      cases whole
    · rw [isTail] at whole
      cases whole
      simpa using opens

/-- The authority of a URL with an ASCII scheme is its host and its port. -/
theorem authority_eq (valid : ∀ scheme ∈ schemes, isScheme scheme = true)
    (asciiScheme : IsAsciiScheme u.scheme) : Host.authority u.trimmed = u.host ++ u.port := by
  obtain ⟨kept, begins, isTrimmed⟩ := parts.trimmed_eq
  have behind : u.trimmed = u.scheme ++ ':' :: '/' :: '/' :: (u.host ++ u.port ++ kept) := isTrimmed
  rw [Host.authority, clean_trimmed parts valid, behind, afterScheme_eq parts valid,
    if_pos asciiScheme]
  exact takeWhile_authority parts begins

/-- A URL with another scheme does not begin with `//`, and the filter finds no authority in it. -/
theorem authority_eq_nil (valid : ∀ scheme ∈ schemes, isScheme scheme = true)
    (otherScheme : ¬IsAsciiScheme u.scheme) : Host.authority u.trimmed = [] := by
  obtain ⟨kept, -, isTrimmed⟩ := parts.trimmed_eq
  have behind : u.trimmed = u.scheme ++ ':' :: '/' :: '/' :: (u.host ++ u.port ++ kept) := isTrimmed
  rw [Host.authority, clean_trimmed parts valid, behind, afterScheme_eq parts valid,
    if_neg otherScheme]
  obtain ⟨scheme, member, spells⟩ := parts.spells
  have noSlash : '/' ∉ u.scheme :=
    not_mem_spelled (valid scheme member) spells (by decide) (by decide) (by decide)
  cases spelled : u.scheme with
  | nil => rfl
  | cons c rest =>
    rw [spelled, List.mem_cons, not_or] at noSlash
    rw [List.cons_append]
    split
    next whole => exact absurd (List.cons.inj whole).1.symm noSlash.1
    next => rfl

/-! ## The host -/

theorem bracketsFit_authority : Host.bracketsFit (u.host ++ u.port) = true :=
  bracketsFit_of_absent (absent_of_special parts (by decide)) (absent_of_special parts (by decide))

theorem no_lookalike : (u.host ++ u.port).any Host.delimiterLookalikes.contains = false := by
  rw [List.any_eq_false]
  intro c member
  rw [List.contains_iff_mem]
  exact fun lookalike => absent_of_special parts (List.mem_append_right _ lookalike) member

/-- A host has neither a colon nor a percent sign. -/
theorem host_absent {c : Char} (special : c = ':' ∨ c = '%') : c ∉ u.host := by
  intro member
  have allowed := parts.host_char member
  rcases special with rfl | rfl
  · exact absurd allowed (by decide)
  · exact absurd allowed (by decide)

theorem hostIn_authority : Host.hostIn (u.host ++ u.port) = u.host := by
  refine hostIn_of_absent (absent_of_special parts (by decide)) (absent_of_special parts (by decide))
    (host_absent parts (Or.inl rfl)) (parts.isPort.imp id ?_)
  rintro ⟨digits, isPort, -⟩
  exact ⟨digits, isPort⟩

/-- The host of a URL with the parts of the grammar and an ASCII scheme is its host in lower
case. -/
theorem hostOf_eq_some (valid : ∀ scheme ∈ schemes, isScheme scheme = true)
    (asciiScheme : IsAsciiScheme u.scheme) :
    Host.hostOf u.trimmed = some (Text.lowercase u.host) := by
  have noZone : Host.lowerHost u.host = Text.lowercase u.host := by
    rw [Host.lowerHost, Text.cutFirst_of_absent (host_absent parts (Or.inr rfl))]
  have wellFormed : (true && !false) = true := rfl
  unfold Host.hostOf
  dsimp only
  rw [authority_eq parts valid asciiScheme, bracketsFit_authority parts, no_lookalike parts,
    hostIn_authority parts, ← noZone, if_pos wellFormed]
  split
  next none => exact absurd none parts.host_ne_nil
  next => rfl

/-- A URL with another scheme has no host. -/
theorem hostOf_eq_none (valid : ∀ scheme ∈ schemes, isScheme scheme = true)
    (otherScheme : ¬IsAsciiScheme u.scheme) : Host.hostOf u.trimmed = none := by
  unfold Host.hostOf
  dsimp only
  rw [authority_eq_nil parts valid otherScheme]
  rfl

/-- The host of a URL that spells an ASCII scheme in ASCII. -/
theorem hostOf_parts (asciiSchemes : ∀ scheme ∈ schemes, IsAsciiScheme scheme)
    (ascii : ∀ c ∈ u.scheme, c.toNat < 128) :
    Host.hostOf u.trimmed = some (Text.lowercase u.host) := by
  obtain ⟨scheme, member, spells⟩ := parts.spells
  exact hostOf_eq_some parts (fun scheme member => (asciiSchemes scheme member).isScheme)
    (isAsciiScheme_spelled (asciiSchemes scheme member) spells ascii)

end

/-! ## Labels -/

theorem not_mem_of_isLabel {label : Text} (isLabel : IsLabel label) {c : Char}
    (notLabelChar : isLabelChar c = false) : c ∉ label := by
  intro member
  rw [isLabelChar_iff.mpr (isLabel.chars c member)] at notLabelChar
  cases notLabelChar

theorem sigma_not_mem_join {labels : List Text} (isLabel : ∀ label ∈ labels, IsLabel label) :
    '\u03A3' ∉ Text.join ['.'] labels := by
  intro member
  rcases Text.mem_join member with dot | ⟨label, labelMember, inLabel⟩
  · exact absurd dot (by decide)
  · exact not_mem_of_isLabel (isLabel label labelMember) (by decide +kernel) inLabel

/-- The lower case of joined labels is the lower case of each of them. -/
theorem lowercase_join {labels : List Text} (isLabel : ∀ label ∈ labels, IsLabel label) :
    Text.lowercase (Text.join ['.'] labels) = Text.join ['.'] (labels.map Text.lowercase) := by
  induction labels with
  | nil => rfl
  | cons label rest ih =>
    cases rest with
    | nil => rw [List.map_cons, List.map_nil, Text.join_singleton, Text.join_singleton]
    | cons next rest =>
      have whole := sigma_not_mem_join isLabel
      rw [Text.join_cons_cons, ← List.singleton_append] at whole
      have behind : '\u03A3' ∉ ['.'] ++ Text.join ['.'] (next :: rest) :=
        fun member => whole (List.mem_append_right label member)
      have dot : Text.lowercase ['.'] = ['.'] := by decide
      rw [List.forall_mem_cons] at isLabel
      rw [Text.join_cons_cons, ← List.singleton_append, Text.lowercase_append whole,
        Text.lowercase_append behind, dot, ih isLabel.2]
      rfl

/-- A host is fully qualified if it has at least two labels. -/
theorem isQualified_lowercase {labels : List Text} (notEmpty : labels ≠ [])
    (isLabel : ∀ label ∈ labels, IsLabel label) :
    Domain.isQualified (Text.lowercase (Text.join ['.'] labels)) = true ↔ 2 ≤ labels.length := by
  have noDot : ∀ label ∈ labels.map Text.lowercase, '.' ∉ label := by
    rw [List.forall_mem_map]
    intro label member dot
    have notLabelChar : isLabelChar '.' = false := by decide
    refine not_mem_of_isLabel (isLabel label member) notLabelChar ?_
    exact Text.mem_of_mem_lowercase (.of_ascii (by decide) (by decide)) dot
  have split : (Text.join ['.'] (labels.map Text.lowercase)).splitOn '.' =
      labels.map Text.lowercase :=
    List.splitOn_intercalate '.' noDot (List.map_eq_nil_iff.not.mpr notEmpty)
  have full : (labels.map Text.lowercase).filter (!·.isEmpty) = labels.map Text.lowercase := by
    rw [List.filter_eq_self, List.forall_mem_map]
    intro label member
    have notEmpty := Text.lowercase_ne_nil (isLabel label member).ne_nil
    rw [Bool.not_eq_true', List.isEmpty_eq_false_iff]
    exact notEmpty
  rw [Domain.isQualified, lowercase_join isLabel, split, full, List.length_map, decide_eq_true_eq]

end HostLemmas

namespace Url

open HostLemmas

section
variable {schemes : List Text} {singleLabel : Bool} {t : Text} {found : Found}

/-- The filter finds the host of every URL that a matcher with ASCII schemes finds, if the scheme is
spelled in ASCII: the host as it stands in the text, but in lower case. It is fully qualified if it
has at least two labels. The URL is `://` and the host behind the scheme, and then the port and what
is reported of the tail. -/
theorem hostOf_found (asciiSchemes : ∀ scheme ∈ schemes, IsAsciiScheme scheme)
    (member : found ∈ (Matcher.ofSchemes schemes singleLabel).findAll t)
    (ascii : ∀ c ∈ found.raw.scheme, c.toNat < 128) :
    Host.hostOf found.url = some (Text.lowercase found.raw.host) ∧
    (Domain.isQualified (Text.lowercase found.raw.host) = true ↔ 2 ≤ found.raw.labels.length) ∧
    ∃ following kept, t.drop found.start = found.raw.text ++ following ∧
      HasParts schemes singleLabel found.raw following ∧ kept <+: found.raw.tail ∧
      found.url =
        found.raw.scheme ++ ("://".toList ++ (found.raw.host ++ found.raw.port ++ kept)) := by
  obtain ⟨following, whole, parts⟩ := findAll_hasParts member
  obtain ⟨kept, begins, isTrimmed⟩ := parts.trimmed_eq
  exact ⟨hostOf_parts parts asciiSchemes ascii,
    isQualified_lowercase parts.labels_ne_nil parts.isLabel,
    following, kept, whole, parts, begins, isTrimmed⟩

/-- A filter keeps a URL that is found unless its host lies under an ignored domain, or has one
label only and such hosts are not wanted. -/
theorem keeps_found (f : Filter) (asciiSchemes : ∀ scheme ∈ schemes, IsAsciiScheme scheme)
    (member : found ∈ (Matcher.ofSchemes schemes singleLabel).findAll t)
    (ascii : ∀ c ∈ found.raw.scheme, c.toNat < 128) :
    f.keeps found.url = true ↔
      (∀ domain ∈ f.ignored, Domain.covers domain (Text.lowercase found.raw.host) = false) ∧
      (f.singleLabel = true ∨ 2 ≤ found.raw.labels.length) := by
  obtain ⟨following, -, parts⟩ := findAll_hasParts member
  have host : Host.hostOf found.url = some (Text.lowercase found.raw.host) :=
    hostOf_parts parts asciiSchemes ascii
  have qualified : Domain.isQualified (Text.lowercase found.raw.host) = true ↔
      2 ≤ found.raw.labels.length := isQualified_lowercase parts.labels_ne_nil parts.isLabel
  rw [Filter.keeps, host, ← qualified, Bool.and_eq_true, Bool.or_eq_true, Bool.not_eq_true',
    List.any_eq_false]
  simp only [Bool.not_eq_true]

end

/-- The host of a URL whose tail has an at sign, brackets and a colon. -/
theorem hostOf_found_tail :
    ∃ found : Found, (∀ scheme ∈ ["http".toList], IsAsciiScheme scheme) ∧
      found ∈ (Matcher.ofSchemes ["http".toList] false).findAll
        "HTTP://User.Example:80/@[x]:8".toList ∧
      (∀ c ∈ found.raw.scheme, c.toNat < 128) ∧
      Host.hostOf found.url = some "user.example".toList ∧
      (Domain.isQualified "user.example".toList = true ↔ 2 ≤ found.raw.labels.length) := by
  let found : Found := ⟨0, ⟨"HTTP".toList, ["User".toList, "Example".toList], ":80".toList,
    "/@[x]:8".toList⟩⟩
  have asciiSchemes : ∀ scheme ∈ ["http".toList], IsAsciiScheme scheme := by
    intro scheme member
    cases List.mem_singleton.mp member
    have chars : ∀ c ∈ ['h', 't', 't', 'p'], c.isAlphanum = true ∨ c ∈ ['+', '-', '.'] := by simp
    exact ⟨⟨'h', rfl, rfl⟩, chars⟩
  have member : found ∈ (Matcher.ofSchemes ["http".toList] false).findAll
      "HTTP://User.Example:80/@[x]:8".toList := by decide +kernel
  have ascii : ∀ c ∈ ['H', 'T', 'T', 'P'], c.toNat < 128 := by simp
  have lowered : Text.lowercase found.raw.host = "user.example".toList := by decide +kernel
  obtain ⟨host, qualified, -⟩ := hostOf_found asciiSchemes member ascii
  rw [lowered] at host qualified
  exact ⟨found, asciiSchemes, member, ascii, host, qualified⟩

end Url

end UrlScan
