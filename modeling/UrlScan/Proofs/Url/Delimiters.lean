import UrlScan.Proofs.Url.LongestWord

/-!
# Characters that end a URL

White space, quotes, angle brackets and the backslash never occur in a URL, whatever its scheme
(`IsWord.not_isDelimiter`). So no URL crosses a boundary, a place in a text next to which such a
character stands (`IsBoundary`), and a text may be cut at its boundaries: searching one of the parts
finds there what searching the whole text finds.

1. `isDelimiter` and its relations to the other character classes.
2. `begins_append_iff`: behind a boundary the text may go on in any way, the words before it stay
   the same.
3. `LeftmostLongest.dropBefore`: what is found from a boundary on.
4. `LeftmostLongest.between`: what is found between two boundaries.
5. `LeftmostLongest.behind`, `LeftmostLongest.append`: what is found on both sides of a delimiter.
-/

namespace UrlScan.Url

/-! ## The characters -/

/-- White space, a quote, a backtick, an angle bracket or a backslash. -/
def isDelimiter (c : Char) : Bool :=
  Text.isBlank c || "\"'\x60<>\\".toList.contains c

def delimiterRanges : List (Nat × Nat) :=
  (0x22, 0x22) :: (0x27, 0x27) :: (0x60, 0x60) :: (0x3C, 0x3C) :: (0x3E, 0x3E) :: (0x5C, 0x5C) ::
    Text.blankRanges

namespace DelimiterLemmas

theorem exists_range {c : Char} (delimiter : isDelimiter c = true) :
    ∃ range ∈ delimiterRanges, range.1 ≤ c.toNat ∧ c.toNat ≤ range.2 := by
  simp only [isDelimiter, Bool.or_eq_true, List.contains_iff_mem] at delimiter
  rcases delimiter with blank | mark
  · simp only [Text.isBlank, Text.inRanges, List.any_eq_true, Bool.and_eq_true,
      decide_eq_true_eq] at blank
    obtain ⟨range, member, within⟩ := blank
    exact ⟨range, by simp [delimiterRanges, member], within⟩
  · have marks : "\"'\x60<>\\".toList = ['"', '\'', '\x60', '<', '>', '\\'] := rfl
    rw [marks] at mark
    have point : (c.toNat, c.toNat) ∈ delimiterRanges := by
      simp only [List.mem_cons, List.not_mem_nil, or_false] at mark
      rcases mark with rfl | rfl | rfl | rfl | rfl | rfl
      all_goals decide
    exact ⟨_, point, Nat.le_refl _, Nat.le_refl _⟩

/-- A delimiter lies in none of the ranges that are apart from those of the delimiters. -/
theorem not_inRanges {c : Char} (delimiter : isDelimiter c = true) {ranges : List (Nat × Nat)}
    (disjoint : delimiterRanges.all (fun range => ranges.all (Text.apart range)) = true) :
    Text.inRanges ranges c.toNat = false := by
  obtain ⟨range, member, low, high⟩ := exists_range delimiter
  rw [Text.inRanges, List.any_eq_false]
  intro other otherMember
  have isApart := List.all_eq_true.mp (List.all_eq_true.mp disjoint range member) other otherMember
  simpa using Text.CaseFreeLemmas.not_within isApart low high

end DelimiterLemmas

open DelimiterLemmas

section
variable {c : Char} (delimiter : isDelimiter c = true)
include delimiter

theorem isDelimiter_caseFree : Text.IsCaseFree c := by
  have free : ∀ range ∈ delimiterRanges, Text.caseFreeRange range = true := by decide +kernel
  obtain ⟨range, member, low, high⟩ := exists_range delimiter
  exact ⟨range, free range member, low, high⟩

theorem isDelimiter_not_alphanumeric : Text.isAlphanumeric c = false := by
  unfold Text.isAlphanumeric
  split
  next ascii =>
    have outside : Text.inRanges [(65, 90), (97, 122), (48, 57)] c.toNat = false :=
      not_inRanges delimiter (by decide +kernel)
    simp only [Text.inRanges, List.any_cons, List.any_nil, Bool.or_eq_false_iff,
      Bool.and_eq_false_iff, decide_eq_false_iff_not] at outside
    rw [← Bool.not_eq_true, Text.isAlphanum_iff_toNat]
    omega
  next => exact not_inRanges delimiter (by decide +kernel)

theorem isDelimiter_not_digit : Text.isDecimalDigit c = false := by
  have outside : Text.inRanges (Text.decimalZeros.map fun first => (first, first + 9)) c.toNat =
      false := not_inRanges delimiter (by decide +kernel)
  rw [Text.inRanges, List.any_map, List.any_eq_false] at outside
  rw [Text.isDecimalDigit, Text.digitValue?, Option.isSome_map, Option.isSome_eq_false_iff,
    Option.isNone_iff_eq_none, List.find?_eq_none]
  intro first member digit
  refine outside first member ?_
  simp only [Function.comp_apply, Bool.and_eq_true, decide_eq_true_eq] at digit ⊢
  omega

theorem isDelimiter_not_pathChar : isPathChar c = false := by
  simp only [isDelimiter, Bool.or_eq_true, List.contains_iff_mem] at delimiter
  unfold isPathChar
  rcases delimiter with blank | mark
  · rw [blank, Bool.not_true, Bool.false_and]
  · have inside : c ∈ "\"'\x60<>\\()[]\x7b\x7d".toList :=
      List.mem_append_left "()[]\x7b\x7d".toList mark
    rw [List.contains_iff_mem.mpr inside, Bool.not_true, Bool.and_false]

theorem isDelimiter_not_labelLetter : ¬IsLabelLetter c := by
  rintro ⟨letter, range, same⟩
  obtain rfl := Text.eq_of_sameLetter (isDelimiter_caseFree delimiter) same
  have outside : Text.inRanges [('a'.toNat, 'z'.toNat), ('0'.toNat, '9'.toNat)] letter.toNat =
      false := not_inRanges delimiter (by decide +kernel)
  simp only [Text.inRanges, List.any_cons, List.any_nil, Bool.or_eq_false_iff,
    Bool.and_eq_false_iff, decide_eq_false_iff_not] at outside
  simp only [Char.le_def, UInt32.le_iff_toNat_le, Char.toNat_val] at range
  omega

/-- A URL may begin behind a delimiter. -/
theorem isDelimiter_opens : Text.isWordChar c = false ∧ c ∉ ['+', '.', '-'] := by
  have different {d : Char} (other : isDelimiter d = false) : c ≠ d := by
    rintro rfl
    rw [delimiter] at other
    cases other
  constructor
  · rw [Text.isWordChar, isDelimiter_not_alphanumeric delimiter, Bool.or_false, beq_eq_false_iff_ne]
    exact different (by decide)
  · simp only [List.mem_cons, List.not_mem_nil, or_false, not_or]
    exact ⟨different (by decide), different (by decide), different (by decide)⟩

end

/-! ## Words without delimiters -/

section
variable {schemes : List Text} {singleLabel : Bool}

theorem IsHost.not_isDelimiter {host : Text} (isHost : IsHost singleLabel host) {c : Char}
    (member : c ∈ host) : isDelimiter c = false := by
  obtain ⟨labels, isLabel, -, rfl⟩ := isHost
  rw [← Bool.not_eq_true]
  intro delimiter
  rcases Text.mem_join member with rfl | ⟨label, labelMember, inLabel⟩
  · exact absurd delimiter (by decide)
  · rcases (isLabel label labelMember).chars c inLabel with rfl | letter
    · exact absurd delimiter (by decide)
    · exact isDelimiter_not_labelLetter delimiter letter

theorem IsPath.not_isDelimiter {path : Text} (isPath : IsPath path) {c : Char}
    (member : c ∈ path) : isDelimiter c = false := by
  have pathChar {c : Char} (isChar : isPathChar c = true) : isDelimiter c = false := by
    rw [← Bool.not_eq_true]
    intro delimiter
    rw [isDelimiter_not_pathChar delimiter] at isChar
    cases isChar
  induction isPath with
  | nil => cases member
  | char isChar _ ih =>
    rcases List.mem_cons.mp member with rfl | later
    · exact pathChar isChar
    · exact ih later
  | @group opening closing inside path pair chars _ ih =>
    have brackets : isDelimiter opening = false ∧ isDelimiter closing = false := by
      simp only [List.mem_cons, Prod.mk.injEq, List.not_mem_nil, or_false] at pair
      rcases pair with ⟨rfl, rfl⟩ | ⟨rfl, rfl⟩ | ⟨rfl, rfl⟩
      all_goals decide
    rcases List.mem_cons.mp member with rfl | member
    · exact brackets.1
    · rcases List.mem_append.mp member with within | member
      · exact pathChar (chars _ within)
      · rcases List.mem_cons.mp member with rfl | later
        · exact brackets.2
        · exact ih later

theorem IsWord.not_isDelimiter (valid : ∀ scheme ∈ schemes, isScheme scheme = true)
    {word following : Text} (isWord : IsWord schemes singleLabel word following) {c : Char}
    (member : c ∈ word) : isDelimiter c = false := by
  obtain ⟨scheme, spelled, host, port, tail, schemeMember, spells, isHost, isPort, isTail, rfl⟩ :=
    isWord
  have separatorChars : "://".toList.all (isDelimiter · == false) = true := by decide
  rcases List.mem_append.mp member with inScheme | member
  · rw [← Bool.not_eq_true]
    intro delimiter
    have inScheme := mem_of_mem_spelled (isDelimiter_caseFree delimiter) spells inScheme
    rcases isScheme_char (valid scheme schemeMember) inScheme with alphanumeric | rfl | rfl | rfl
    · rw [isDelimiter_not_alphanumeric delimiter] at alphanumeric
      cases alphanumeric
    all_goals exact absurd delimiter (by decide)
  rcases List.mem_append.mp member with inSeparator | member
  · exact beq_iff_eq.mp (List.all_eq_true.mp separatorChars c inSeparator)
  rcases List.mem_append.mp member with inHost | member
  · exact isHost.not_isDelimiter inHost
  rcases List.mem_append.mp member with inPort | inTail
  · rcases isPort with rfl | ⟨digits, rfl, -, -, allDigits, -⟩
    · cases inPort
    · rcases List.mem_cons.mp inPort with rfl | inDigits
      · decide
      · rw [← Bool.not_eq_true]
        intro delimiter
        have digit := allDigits c inDigits
        rw [isDelimiter_not_digit delimiter] at digit
        cases digit
  · rcases isTail with rfl | ⟨first, path, opens, isPath, rfl⟩
    · cases inTail
    · rcases List.mem_cons.mp inTail with rfl | inPath
      · rcases opens with rfl | rfl | rfl
        all_goals decide
      · exact isPath.not_isDelimiter inPath

theorem IsWord.false_of_isDelimiter (valid : ∀ scheme ∈ schemes, isScheme scheme = true)
    {word following : Text} (isWord : IsWord schemes singleLabel word following) {c : Char}
    (member : c ∈ word) (delimiter : isDelimiter c = true) : False := by
  have free := isWord.not_isDelimiter valid member
  rw [delimiter] at free
  cases free

/-! ## Boundaries -/

/-- `IsBoundary t p`: next to the offset `p` the text has a delimiter, or it ends there on one
side. -/
def IsBoundary (t : Text) (p : Nat) : Prop :=
  (∀ c, before? t p = some c → isDelimiter c = true) ∨ ∀ c, t[p]? = some c → isDelimiter c = true

/-- The text behind a word matters only as far as it begins with a digit. -/
theorem IsWord.of_next {word following following' : Text}
    (isWord : IsWord schemes singleLabel word following)
    (next : ∀ d, following'.head? = some d →
      following.head? = some d ∨ Text.isDecimalDigit d = false) :
    IsWord schemes singleLabel word following' := by
  obtain ⟨scheme, spelled, host, port, tail, member, spells, isHost, isPort, isTail, rfl⟩ := isWord
  refine ⟨scheme, spelled, host, port, tail, member, spells, isHost, ?_, isTail, rfl⟩
  rcases isPort with rfl | ⟨digits, rfl, atLeast, atMost, allDigits, noDigit⟩
  · exact Or.inl rfl
  · refine Or.inr ⟨digits, rfl, atLeast, atMost, allDigits, fun d first => ?_⟩
    cases tail with
    | nil =>
      rcases next d first with same | other
      · exact noDigit d same
      · exact other
    | cons c tail => exact noDigit d first

/-- The words that a text begins with do not depend on what comes behind a boundary. Here `a` is the
text before the boundary and `rest` the text behind it. -/
theorem begins_append_iff (valid : ∀ scheme ∈ schemes, isScheme scheme = true) {a rest : Text}
    (notEmpty : a ≠ [])
    (boundary : (∀ c, a.getLast? = some c → isDelimiter c = true) ∨
      ∀ c, rest.head? = some c → isDelimiter c = true) (word : Text) :
    (∃ following, a ++ rest = word ++ following ∧ IsWord schemes singleLabel word following) ↔
      ∃ following, a = word ++ following ∧ IsWord schemes singleLabel word following := by
  have last : a.getLast? = some (a.getLast notEmpty) := List.getLast?_eq_some_getLast notEmpty
  have inside : a.getLast notEmpty ∈ a := List.getLast_mem notEmpty
  constructor
  · rintro ⟨following, whole, isWord⟩
    rcases List.append_eq_append_iff.mp whole with ⟨more, rfl, rfl⟩ | ⟨behind, rfl, rfl⟩
    · -- A word that is longer than `a` would cross the boundary.
      cases more with
      | nil =>
        rw [List.append_nil] at isWord ⊢
        exact ⟨[], (List.append_nil a).symm, isWord.of_next fun d impossible => nomatch impossible⟩
      | cons c more =>
        rcases boundary with delimiter | delimiter
        · exact (isWord.false_of_isDelimiter valid (List.mem_append_left _ inside)
            (delimiter _ last)).elim
        · exact (isWord.false_of_isDelimiter valid (List.mem_append_right a List.mem_cons_self)
            (delimiter c rfl)).elim
    · refine ⟨behind, rfl, isWord.of_next fun d first => Or.inl ?_⟩
      rw [List.head?_append, first]
      rfl
  · rintro ⟨behind, whole, isWord⟩
    refine ⟨behind ++ rest, by rw [whole, List.append_assoc], isWord.of_next fun d first => ?_⟩
    cases behind with
    | cons c behind => exact Or.inl first
    | nil =>
      rw [List.append_nil] at whole
      subst whole
      rcases boundary with delimiter | delimiter
      · exact (isWord.false_of_isDelimiter valid inside (delimiter _ last)).elim
      · exact Or.inr (isDelimiter_not_digit (delimiter d first))

/-- The longest word that a text begins with does not depend on what comes behind a boundary. -/
theorem isLongestWord_append_iff (valid : ∀ scheme ∈ schemes, isScheme scheme = true)
    {a rest : Text} (notEmpty : a ≠ [])
    (boundary : (∀ c, a.getLast? = some c → isDelimiter c = true) ∨
      ∀ c, rest.head? = some c → isDelimiter c = true) (word : Text) :
    IsLongestWord schemes singleLabel (a ++ rest) word ↔
      IsLongestWord schemes singleLabel a word := by
  have begins := @begins_append_iff schemes singleLabel valid a rest notEmpty boundary
  constructor
  · rintro ⟨isWord, longest⟩
    refine ⟨(begins word).mp isWord, fun other following whole isOther => ?_⟩
    obtain ⟨following', whole', isOther'⟩ := (begins other).mpr ⟨following, whole, isOther⟩
    exact longest other following' whole' isOther'
  · rintro ⟨isWord, longest⟩
    refine ⟨(begins word).mpr isWord, fun other following whole isOther => ?_⟩
    obtain ⟨following', whole', isOther'⟩ := (begins other).mp ⟨following, whole, isOther⟩
    exact longest other following' whole' isOther'

/-- A word that begins before a boundary ends there at the latest. -/
theorem IsLongestWord.le_boundary (valid : ∀ scheme ∈ schemes, isScheme scheme = true)
    {t word : Text} {p b : Nat} (longest : IsLongestWord schemes singleLabel (t.drop p) word) (before : p < b)
    (boundary : IsBoundary t b) : p + word.length ≤ b := by
  obtain ⟨following, whole, isWord⟩ := longest.1
  refine Nat.le_of_not_lt fun crosses => ?_
  -- The characters on both sides of the boundary would belong to the word.
  have inWord {i : Nat} (atLeast : p ≤ i) (inside : i < p + word.length) :
      ∃ c, t[i]? = some c ∧ isDelimiter c = false := by
    have short : i - p < word.length := by omega
    refine ⟨word[i - p], ?_, isWord.not_isDelimiter valid (List.getElem_mem short)⟩
    have place : t[i]? = (t.drop p)[i - p]? := by
      rw [List.getElem?_drop]
      congr 1
      omega
    rw [place, whole, List.getElem?_append_left short, List.getElem?_eq_getElem short]
  obtain ⟨b, rfl⟩ := Nat.exists_eq_succ_of_ne_zero (Nat.ne_of_gt (Nat.zero_lt_of_lt before))
  rcases boundary with delimiter | delimiter
  · obtain ⟨c, present, free⟩ := inWord (i := b) (by omega) (by omega)
    rw [delimiter c present] at free
    cases free
  · obtain ⟨c, present, free⟩ := inWord (i := b + 1) (by omega) crosses
    rw [delimiter c present] at free
    cases free

/-! ## What is found from a boundary on -/

theorem LeftmostLongest.le {t : Text} {p : Nat} {words : List (Nat × Text)}
    (found : LeftmostLongest schemes singleLabel t p words) : ∀ word ∈ words, p ≤ word.1 := by
  induction found with
  | done => exact fun _ member => nomatch member
  | found after _ _ _ _ ih =>
    intro other member
    rcases List.mem_cons.mp member with rfl | later
    · exact after
    · have := ih other later
      omega

/-- A search that begins at a boundary finds what a search from further ahead finds behind it. -/
theorem LeftmostLongest.dropBefore (valid : ∀ scheme ∈ schemes, isScheme scheme = true) {t : Text}
    {p start : Nat} {words : List (Nat × Text)} (boundary : IsBoundary t start) (ahead : p ≤ start)
    (found : LeftmostLongest schemes singleLabel t p words) :
    LeftmostLongest schemes singleLabel t start (words.filter fun word => start ≤ word.1) := by
  induction found with
  | done none => exact .done fun q after => none q (Nat.le_trans ahead after)
  | @found p q word rest after first isOpen longest later ih =>
    rcases Nat.lt_or_ge q start with before | behind
    · have ends := longest.le_boundary valid before boundary
      rw [List.filter_cons_of_neg (by simpa using before)]
      exact ih ends
    · have all : ((q, word) :: rest).filter (fun word => start ≤ word.1) = (q, word) :: rest := by
        rw [List.filter_eq_self]
        intro other member
        rcases List.mem_cons.mp member with rfl | inRest
        · exact decide_eq_true behind
        · have := later.le other inRest
          exact decide_eq_true (by omega)
      rw [all]
      exact .found behind (fun r atLeast earlier => first r (by omega) earlier) isOpen longest later

/-! ## What is found between two boundaries -/

section
variable {t : Text} {start stop p : Nat}

/-- The text behind an offset between two places, and what follows the second place. -/
theorem drop_eq_append (first : start + p ≤ stop) (last : stop ≤ t.length) :
    t.drop (start + p) = ((t.take stop).drop start).drop p ++ t.drop stop := by
  have whole := List.take_append_drop stop t
  have inside : start + p ≤ (t.take stop).length := by
    rw [List.length_take, Nat.min_eq_left last]
    exact first
  rw [List.drop_drop, ← List.drop_append_of_le_length inside, whole]

/-- What comes before the second place and behind it, at a boundary. -/
theorem boundary_append (first : start + p < stop) (last : stop ≤ t.length)
    (boundary : IsBoundary t stop) :
    ((t.take stop).drop start).drop p ≠ [] ∧
      ((∀ c, (((t.take stop).drop start).drop p).getLast? = some c → isDelimiter c = true) ∨
        ∀ c, (t.drop stop).head? = some c → isDelimiter c = true) := by
  have inside : start + p < (t.take stop).length := by
    rw [List.length_take, Nat.min_eq_left last]
    exact first
  obtain ⟨stop, rfl⟩ := Nat.exists_eq_succ_of_ne_zero (Nat.ne_of_gt (Nat.zero_lt_of_lt first))
  have lastChar : (((t.take (stop + 1)).drop start).drop p).getLast? = t[stop]? := by
    have present : stop < t.length := last
    rw [List.drop_drop, List.getLast?_drop, if_neg (Nat.not_le_of_lt inside), List.getLast?_take,
      if_neg (Nat.succ_ne_zero _), Nat.add_sub_cancel, List.getElem?_eq_getElem present]
    rfl
  refine ⟨?_, ?_⟩
  · rw [List.drop_drop]
    exact List.ne_nil_of_length_pos (by rw [List.length_drop]; omega)
  · rw [lastChar, List.head?_drop]
    exact boundary

/-- The longest word at an offset between two places does not depend on what comes behind the second
place, when that is a boundary. -/
theorem isLongestWord_between (valid : ∀ scheme ∈ schemes, isScheme scheme = true)
    (first : start + p < stop) (last : stop ≤ t.length) (boundary : IsBoundary t stop)
    (word : Text) :
    IsLongestWord schemes singleLabel (t.drop (start + p)) word ↔
      IsLongestWord schemes singleLabel (((t.take stop).drop start).drop p) word := by
  obtain ⟨notEmpty, delimiter⟩ := boundary_append first last boundary
  rw [drop_eq_append (Nat.le_of_lt first) last]
  exact isLongestWord_append_iff valid notEmpty delimiter word

/-- Whether a word stands at an offset between two boundaries can be seen from the text between
them. -/
theorem wordAt_between (valid : ∀ scheme ∈ schemes, isScheme scheme = true)
    (first : start + p < stop) (last : stop ≤ t.length) (boundary : IsBoundary t start)
    (boundary' : IsBoundary t stop) :
    WordAt schemes singleLabel t (start + p) ↔
      WordAt schemes singleLabel ((t.take stop).drop start) p := by
  obtain ⟨notEmpty, delimiter⟩ := boundary_append first last boundary'
  have begins : (∃ word following, t.drop (start + p) = word ++ following ∧
      IsWord schemes singleLabel word following) ↔
      ∃ word following, ((t.take stop).drop start).drop p = word ++ following ∧
        IsWord schemes singleLabel word following := by
    rw [drop_eq_append (Nat.le_of_lt first) last]
    exact exists_congr (begins_append_iff valid notEmpty delimiter)
  unfold WordAt
  rw [begins]
  refine and_congr_left fun isWord => ?_
  cases p with
  | zero =>
    -- Here the look behind sees a delimiter, or there is one where the word would begin.
    refine ⟨fun _ c impossible => (nomatch impossible), fun _ => ?_⟩
    rcases boundary with behind | ahead
    · exact fun c present => isDelimiter_opens (behind c present)
    · obtain ⟨word, following, whole, isWord⟩ := isWord
      obtain ⟨c, rest, rfl⟩ := List.exists_cons_of_ne_nil isWord.ne_nil
      have present : t[start]? = some c := by
        have head := congrArg List.head? whole
        rw [List.drop_zero, List.head?_drop, List.getElem?_take_of_lt (by omega)] at head
        exact head
      exact (isWord.false_of_isDelimiter valid List.mem_cons_self (ahead c present)).elim
  | succ p =>
    have same : before? ((t.take stop).drop start) (p + 1) = before? t (start + (p + 1)) := by
      rw [before?, List.getElem?_drop, List.getElem?_take_of_lt (by omega)]
      rfl
    rw [OpenAt, OpenAt, same]

/-- Searching the text between two boundaries finds there what searching the whole text finds. -/
theorem LeftmostLongest.between (valid : ∀ scheme ∈ schemes, isScheme scheme = true)
    (last : stop ≤ t.length) (boundary : IsBoundary t start) (boundary' : IsBoundary t stop)
    {q : Nat} {words : List (Nat × Text)} (first : start + p ≤ stop) (place : q = start + p)
    (found : LeftmostLongest schemes singleLabel t q words) :
    LeftmostLongest schemes singleLabel ((t.take stop).drop start) p
      ((words.filter fun word => word.1 < stop).map fun word => (word.1 - start, word.2)) := by
  have length : ((t.take stop).drop start).length = stop - start := by
    rw [List.length_drop, List.length_take, Nat.min_eq_left last]
  have isWordAt {r : Nat} (word : WordAt schemes singleLabel ((t.take stop).drop start) r) :
      start + r < stop ∧ WordAt schemes singleLabel t (start + r) := by
    have inside : start + r < stop := by
      refine Nat.lt_of_not_le fun outside => ?_
      obtain ⟨-, word, following, whole, isWord⟩ := word
      rw [List.drop_eq_nil_of_le (by omega)] at whole
      exact isWord.ne_nil (List.append_eq_nil_iff.mp whole.symm).1
    exact ⟨inside, (wordAt_between valid inside last boundary boundary').mpr word⟩
  induction found generalizing p with
  | done none =>
    subst place
    refine .done fun r after word => ?_
    obtain ⟨inside, isWord⟩ := isWordAt word
    exact none (start + r) (by omega) isWord
  | @found q q' word rest after none isOpen longest later ih =>
    subst place
    rcases Nat.lt_or_ge q' stop with inside | outside
    · obtain ⟨r, rfl⟩ : ∃ r, q' = start + r := ⟨q' - start, by omega⟩
      have ends := longest.le_boundary valid inside boundary'
      have next : LeftmostLongest schemes singleLabel ((t.take stop).drop start) (r + word.length)
          ((rest.filter fun word => word.1 < stop).map fun word => (word.1 - start, word.2)) :=
        ih (by omega) (by omega)
      have here := (wordAt_between valid inside last boundary boundary').mp (longest.wordAt isOpen)
      rw [List.filter_cons_of_pos (by simpa using inside), List.map_cons]
      dsimp only
      rw [Nat.add_sub_cancel_left]
      refine .found (by omega) (fun i atLeast earlier isWord => ?_) here.1
        ((isLongestWord_between valid inside last boundary' word).mp longest) next
      exact none (start + i) (by omega) (by omega) (isWordAt isWord).2
    · -- Everything else is found behind the second boundary.
      have nothing : ((q', word) :: rest).filter (fun word => word.1 < stop) = [] := by
        rw [List.filter_eq_nil_iff]
        intro other member
        rcases List.mem_cons.mp member with rfl | inRest
        · simpa using outside
        · have := later.le other inRest
          simp only [decide_eq_true_eq]
          omega
      rw [nothing]
      refine .done fun r atLeast isWord => ?_
      obtain ⟨inside, isWord⟩ := isWordAt isWord
      exact none (start + r) (by omega) (by omega) isWord

end

/-! ## What is found on both sides of a delimiter -/

section
variable {c : Char} (delimiter : isDelimiter c = true) {a b : Text}

theorem drop_behind (c : Char) (a b : Text) (q : Nat) :
    (a ++ c :: b).drop (a.length + 1 + q) = b.drop q := by
  rw [← List.drop_drop, ← List.drop_drop, List.drop_left]
  rfl

include delimiter

/-- Whether a word stands behind a delimiter can be seen from the text behind it. -/
theorem wordAt_behind (q : Nat) :
    WordAt schemes singleLabel (a ++ c :: b) (a.length + 1 + q) ↔ WordAt schemes singleLabel b q := by
  have isOpen : OpenAt (a ++ c :: b) (a.length + 1 + q) ↔ OpenAt b q := by
    cases q with
    | zero =>
      have previous : before? (a ++ c :: b) (a.length + 1) = some c := by
        rw [before?, List.getElem?_append_right (Nat.le_refl _), Nat.sub_self]
        rfl
      refine ⟨fun _ d none => ?_, fun _ d present => ?_⟩
      · cases none
      · cases previous.symm.trans present
        exact isDelimiter_opens delimiter
    | succ q =>
      have same : before? (a ++ c :: b) (a.length + 1 + (q + 1)) = before? b (q + 1) := by
        rw [← Nat.add_assoc, before?, ← List.getElem?_drop]
        exact congrArg (·[q]?) (drop_behind c a b 0)
      rw [OpenAt, OpenAt, same]
  rw [WordAt, WordAt, isOpen, drop_behind]

/-- Behind a delimiter the search goes on as if the text began there. -/
theorem LeftmostLongest.behind {p : Nat} {words : List (Nat × Text)}
    (found : LeftmostLongest schemes singleLabel b p words) :
    LeftmostLongest schemes singleLabel (a ++ c :: b) (a.length + 1 + p)
      (words.map fun word => (a.length + 1 + word.1, word.2)) := by
  -- Every place behind the delimiter is a place of `b`.
  have place {p r : Nat} (after : a.length + 1 + p ≤ r) : ∃ q, r = a.length + 1 + q ∧ p ≤ q :=
    ⟨r - (a.length + 1), by omega, by omega⟩
  induction found with
  | done none =>
    refine .done fun r after isWord => ?_
    obtain ⟨q, rfl, later⟩ := place after
    exact none q later ((wordAt_behind delimiter q).mp isWord)
  | @found p q word rest after first isOpen longest _ ih =>
    have here := (wordAt_behind delimiter (a := a) q).mpr (longest.wordAt isOpen)
    rw [← drop_behind c a b] at longest
    rw [← Nat.add_assoc] at ih
    refine .found (Nat.add_le_add_left after _) (fun r atLeast earlier isWord => ?_) here.1 longest ih
    obtain ⟨i, rfl, later⟩ := place atLeast
    exact first i later (by omega) ((wordAt_behind delimiter i).mp isWord)

/-- A text may be searched in two parts, cut at a delimiter: first what stands before it, as if the
text ended there, and then what stands behind it. -/
theorem LeftmostLongest.append (valid : ∀ scheme ∈ schemes, isScheme scheme = true) {p : Nat}
    {words later : List (Nat × Text)} (inside : p ≤ a.length)
    (found : LeftmostLongest schemes singleLabel a p words)
    (foundLater : LeftmostLongest schemes singleLabel (a ++ c :: b) (a.length + 1) later) :
    LeftmostLongest schemes singleLabel (a ++ c :: b) p (words ++ later) := by
  have length : a.length ≤ (a ++ c :: b).length := by
    rw [List.length_append]
    exact Nat.le_add_right _ _
  have front : ((a ++ c :: b).take a.length).drop 0 = a := List.take_left
  have atDelimiter : (a ++ c :: b)[a.length]? = some c := by
    rw [List.getElem?_append_right (Nat.le_refl _), Nat.sub_self]
    rfl
  have begins : IsBoundary (a ++ c :: b) 0 := Or.inl fun _ none => by cases none
  have ends : IsBoundary (a ++ c :: b) a.length := by
    refine Or.inr fun d present => ?_
    cases atDelimiter.symm.trans present
    exact delimiter
  have same {r : Nat} (before : r < a.length) :
      WordAt schemes singleLabel (a ++ c :: b) r ↔ WordAt schemes singleLabel a r := by
    have seen : WordAt schemes singleLabel (a ++ c :: b) (0 + r) ↔
        WordAt schemes singleLabel (((a ++ c :: b).take a.length).drop 0) r :=
      wordAt_between valid (by omega) length begins ends
    rwa [front, Nat.zero_add] at seen
  induction found with
  | done none =>
    refine foundLater.skip (by omega) fun r after before isWord => ?_
    rcases Nat.lt_or_eq_of_le (Nat.le_of_lt_succ before) with before | atEnd
    · exact none r after ((same before).mp isWord)
    -- The word would begin with the delimiter.
    · obtain ⟨-, word, following, whole, isWord⟩ := isWord
      obtain ⟨d, rest, rfl⟩ := List.exists_cons_of_ne_nil isWord.ne_nil
      rw [atEnd, List.drop_left] at whole
      cases whole
      exact isWord.false_of_isDelimiter valid List.mem_cons_self delimiter
  | @found p q word rest after first isOpen longest _ ih =>
    obtain ⟨⟨following, whole, isWord⟩, -⟩ := id longest
    have lengths := congrArg List.length whole
    have positive := List.length_pos_iff.mpr isWord.ne_nil
    rw [List.length_drop, List.length_append] at lengths
    have before : q < a.length := by omega
    have here := (same before).mpr (longest.wordAt isOpen)
    have longest' : IsLongestWord schemes singleLabel ((a ++ c :: b).drop (0 + q)) word := by
      refine (isLongestWord_between valid (by omega) length ends word).mpr ?_
      rwa [front]
    rw [Nat.zero_add] at longest'
    refine .found after (fun r atLeast earlier isWord => ?_) here.1 longest' (ih (by omega))
    exact first r atLeast earlier ((same (Nat.lt_trans earlier before)).mp isWord)

end

end

end UrlScan.Url
