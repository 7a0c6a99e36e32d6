import UrlScan.Proofs.Url.Reading
import UrlScan.Settings.Scan
import UrlScan.Url.Matcher

/-!
# A matcher finds the longest words

A matcher never goes back on a part of a URL that it has read. This file shows that it need not: a
shorter part can never be continued, so that the word that is read is the longest one, and a text
that begins with any word at all is read. Schemes that are valid contain no colon; hence the scheme
of a word ends at the first colon of the text, whichever scheme of the matcher is tried.

Results:
1. `read?_sound`, `read?_longest`: what one scheme reads is a word, and the longest one.
2. `matcher_read?_eq_some`, `matcher_read?_ne_none`: a matcher reads the longest word of the text,
   if it has any.
3. `leftmostLongest_unique`: a text has one leftmost-longest list of words.
4. `findFrom_leftmostLongest`, `leftmostLongest_findAll`: a matcher finds this list.
-/

namespace UrlScan.Url

open ReadingLemmas

/-! ## One scheme -/

/-- What is read as the spelling of some letters spells them, and the text begins with it. -/
theorem spelling?_eq_some_iff {letters t spelled : Text} :
    spelling? letters t = some spelled ↔ Spells letters spelled ∧ spelled <+: t := by
  induction letters generalizing t spelled with
  | nil =>
    rw [spelling?, Option.some.injEq, Spells, List.forall₂_nil_left_iff]
    constructor
    · rintro rfl
      exact ⟨rfl, List.nil_prefix⟩
    · rintro ⟨rfl, -⟩
      rfl
  | cons letter letters ih =>
    cases t with
    | nil =>
      rw [spelling?, List.prefix_nil]
      constructor
      · intro impossible
        cases impossible
      · rintro ⟨spells, rfl⟩
        cases spells
    | cons c rest =>
      rw [spelling?]
      constructor
      · intro read
        split at read
        next same =>
          obtain ⟨behind, found, rfl⟩ := Option.map_eq_some_iff.mp read
          obtain ⟨spells, begins⟩ := ih.mp found
          exact ⟨.cons same spells, List.cons_prefix_cons.mpr ⟨rfl, begins⟩⟩
        next => cases read
      · rintro ⟨spells, begins⟩
        cases spells with
        | cons same spells =>
          obtain ⟨rfl, behind⟩ := List.cons_prefix_cons.mp begins
          rw [if_pos same, ih.mpr ⟨spells, behind⟩]
          rfl

/-- The URL whose host begins the text `atHost`. -/
def readHost (spelled : Text) (singleLabel : Bool) (atHost : Text) : Option Url :=
  (host? singleLabel atHost).map fun labels =>
    let afterHost := atHost.drop (Text.join ['.'] labels).length
    { scheme := spelled
      labels
      port := portOf afterHost
      tail := tailOf (afterHost.drop (portOf afterHost).length) }

/-- A URL is read behind the spelling of its scheme and the separator. -/
theorem read?_eq_some_iff {scheme t : Text} {singleLabel : Bool} {u : Url} :
    read? scheme singleLabel t = some u ↔
      ∃ spelled atHost, t = spelled ++ (separator ++ atHost) ∧ Spells scheme spelled ∧
        readHost spelled singleLabel atHost = some u := by
  simp only [read?, Option.bind_eq_bind, Option.bind_eq_some_iff, spelling?_eq_some_iff,
    Text.startsWith, List.isPrefixOf_iff_prefix]
  constructor
  · rintro ⟨spelled, ⟨spells, behind, rfl⟩, read⟩
    rw [List.drop_left] at read
    split at read
    next begins =>
      obtain ⟨atHost, rfl⟩ := begins
      rw [List.drop_left] at read
      refine ⟨spelled, atHost, rfl, spells, ?_⟩
      rw [readHost]
      obtain ⟨labels, found, rest⟩ := Option.bind_eq_some_iff.mp read
      rw [found]
      exact rest
    next => cases read
  · rintro ⟨spelled, atHost, rfl, spells, read⟩
    refine ⟨spelled, ⟨spells, List.prefix_append _ _⟩, ?_⟩
    rw [List.drop_left, if_pos (List.prefix_append _ _), List.drop_left]
    obtain ⟨labels, found, rest⟩ := Option.map_eq_some_iff.mp read
    rw [found]
    exact congrArg some rest

/-- What is read behind a scheme is a host, a port and a tail. -/
theorem readHost_sound {spelled atHost : Text} {singleLabel : Bool} {u : Url}
    (read : readHost spelled singleLabel atHost = some u) :
    u.scheme = spelled ∧ IsHost singleLabel u.host ∧ IsTail u.tail ∧
      ∃ rest, atHost = u.host ++ (u.port ++ (u.tail ++ rest)) ∧ IsPort u.port (u.tail ++ rest) := by
  rw [readHost, host?_eq] at read
  split at read
  next enough =>
    cases read
    obtain ⟨isLabel, afterHost, whole⟩ := labelsOf_sound atHost
    obtain ⟨atTail, portWhole, isPort⟩ := portOf_sound afterHost
    obtain ⟨isTail, rest, tailWhole⟩ := tailOf_sound atTail
    simp only [host, drop_of_append whole, drop_of_append portWhole.symm]
    refine ⟨trivial, ⟨_, isLabel, enough, rfl⟩, isTail, rest, ?_, ?_⟩
    · rw [tailWhole, ← portWhole, whole]
    · rw [tailWhole]
      exact isPort
  next => cases read

theorem IsTail.eq_nil {tail following : Text} {c : Char} (isTail : IsTail tail)
    (next : (tail ++ following).head? = some c) (opensNone : ¬(c = '/' ∨ c = '?' ∨ c = '#')) :
    tail = [] := by
  rcases isTail with rfl | ⟨first, path, opens, -, rfl⟩
  · rfl
  · cases next
    exact absurd opens opensNone

theorem IsPort.eq_nil {port following : Text} {c : Char} (isPort : IsPort port following)
    (next : (port ++ following).head? = some c) (noColon : c ≠ ':') : port = [] := by
  rcases isPort with rfl | ⟨digits, rfl, -⟩
  · rfl
  · cases next
    exact absurd rfl noColon

/-- What is read behind a scheme is longer than any other host, port and tail there. -/
theorem readHost_longest {host port tail following : Text} (spelled : Text) {singleLabel : Bool}
    (isHost : IsHost singleLabel host) (isPort : IsPort port (tail ++ following))
    (isTail : IsTail tail) :
    ∃ u, readHost spelled singleLabel (host ++ (port ++ (tail ++ following))) = some u ∧
      (host ++ (port ++ tail)).length ≤ (u.host ++ (u.port ++ u.tail)).length := by
  obtain ⟨labels, isLabel, enough, rfl⟩ := isHost
  have notEmpty : labels ≠ [] := by
    rintro rfl
    cases singleLabel <;> simp [minLabels] at enough
  generalize whole : Text.join ['.'] labels ++ (port ++ (tail ++ following)) = atHost
  obtain ⟨count, longest⟩ := labelsOf_longest notEmpty isLabel whole.symm
  rw [readHost, host?_eq, if_pos (Nat.le_trans enough count)]
  refine ⟨_, rfl, ?_⟩
  simp only [Url.host, List.length_append]
  rcases longest with same | ⟨shorter, c, next, inHost⟩
  · rw [← same, drop_of_append whole]
    rcases eq_portOf isPort with samePort | ⟨none, colon⟩
    · rw [← samePort, List.drop_left]
      have := (isPrefix_tailOf isTail following).length_le
      omega
    · rw [none, isTail.eq_nil colon (by decide)]
      simp
  · -- The host stops inside the one that is read: there is neither a port nor a tail behind it.
    have noColon : c ≠ ':' := by
      rintro rfl
      exact absurd inHost (by decide)
    have opensNone : ¬(c = '/' ∨ c = '?' ∨ c = '#') := by
      rintro (rfl | rfl | rfl) <;> exact absurd inHost (by decide)
    have noPort := isPort.eq_nil next noColon
    rw [noPort] at next
    rw [noPort, isTail.eq_nil next opensNone]
    simp only [List.length_nil]
    omega

/-! ## Valid schemes -/

/-- A valid scheme has no other characters than letters and numerals, `+`, `-` and `.`. -/
theorem isScheme_char {scheme : Text} {c : Char} (valid : isScheme scheme = true)
    (member : c ∈ scheme) : Text.isAlphanumeric c = true ∨ c = '+' ∨ c = '-' ∨ c = '.' := by
  by_cases mark : c = '+' ∨ c = '-' ∨ c = '.'
  · exact Or.inr mark
  · left
    simp only [not_or] at mark
    simp only [isScheme, Bool.and_eq_true, List.all_eq_true, List.mem_filter, bne_iff_ne] at valid
    exact valid.2 c ⟨member, ⟨mark.1, mark.2.1⟩, mark.2.2⟩

theorem Spells.mem_of_caseFree {letters spelled : Text} {x : Char} (free : Text.IsCaseFree x)
    (spells : Spells letters spelled) (member : x ∈ spelled) : x ∈ letters := by
  induction spells with
  | nil => exact absurd member List.not_mem_nil
  | cons same _ ih =>
    rcases List.mem_cons.mp member with rfl | later
    · rw [Text.eq_of_sameLetter free same]
      exact List.mem_cons_self
    · exact List.mem_cons_of_mem _ (ih later)

theorem mem_of_mem_spelled {scheme spelled : Text} {x : Char} (free : Text.IsCaseFree x)
    (spells : Spells (Text.lowercase scheme) spelled) (member : x ∈ spelled) : x ∈ scheme :=
  Text.mem_of_mem_lowercase free (spells.mem_of_caseFree free member)

/-- Of the ASCII punctuation only `+`, `-` and `.` stand in the spelling of a scheme. -/
theorem not_mem_spelled {scheme spelled : Text} {c : Char} (valid : isScheme scheme = true)
    (spells : Spells (Text.lowercase scheme) spelled) (ascii : c.toNat < 128)
    (punctuation : c.isAlphanum = false) (other : c ∉ ['+', '-', '.']) : c ∉ spelled := by
  intro member
  have noLetter : c.isAlpha = false := (Bool.or_eq_false_iff.mp punctuation).1
  have inScheme := mem_of_mem_spelled (.of_ascii ascii noLetter) spells member
  rcases isScheme_char valid inScheme with alphanumeric | mark
  · rw [Text.isAlphanumeric, if_pos ascii, punctuation] at alphanumeric
    cases alphanumeric
  · exact other (by simpa using mark)

theorem colon_not_mem {scheme spelled : Text} (valid : isScheme scheme = true)
    (spells : Spells (Text.lowercase scheme) spelled) : ':' ∉ spelled :=
  not_mem_spelled valid spells (by decide) (by decide) (by decide)

namespace ReadingLemmas

/-- The part before the first colon is determined by the text. -/
theorem append_colon_inj {before behind before' behind' : Text} (free : ':' ∉ before)
    (free' : ':' ∉ before') (same : before ++ ':' :: behind = before' ++ ':' :: behind') :
    before = before' ∧ behind = behind' := by
  have cut {start : Text} (rest : Text) (noColon : ':' ∉ start) :
      (start ++ ':' :: rest).takeWhile (· != ':') = start := by
    rw [List.takeWhile_append_of_pos, List.takeWhile_cons_of_neg (by decide), List.append_nil]
    intro c member
    rw [bne_iff_ne]
    rintro rfl
    exact noColon member
  have first : before = before' := by
    rw [← cut behind free, same, cut behind' free']
  subst first
  exact ⟨rfl, List.cons_inj_right _ |>.mp (List.append_cancel_left same)⟩

end ReadingLemmas

/-! ## All schemes of a matcher -/

section

variable {schemes : List Text} {singleLabel : Bool}

theorem mem_ofSchemes {lowered : Text} :
    lowered ∈ (Matcher.ofSchemes schemes singleLabel).schemes ↔
      ∃ scheme ∈ schemes, Text.lowercase scheme = lowered := by
  rw [Matcher.ofSchemes]
  simp only [List.mem_mergeSort, List.mem_eraseDups, List.mem_map]

/-- What is read with one of the schemes is a word. -/
theorem read?_sound {scheme t : Text} {u : Url} (member : scheme ∈ schemes)
    (read : read? (Text.lowercase scheme) singleLabel t = some u) :
    ∃ following, t = u.text ++ following ∧ IsWord schemes singleLabel u.text following := by
  obtain ⟨spelled, atHost, rfl, spells, found⟩ := read?_eq_some_iff.mp read
  obtain ⟨rfl, isHost, isTail, rest, rfl, isPort⟩ := readHost_sound found
  refine ⟨rest, ?_, scheme, u.scheme, u.host, u.port, u.tail, member, spells, isHost, isPort,
    isTail, ?_⟩
  · simp [text, separator]
  · simp [text, separator]

/-- Whatever scheme is read, no word at the beginning of the text is longer than what is read. -/
theorem read?_longest (valid : ∀ scheme ∈ schemes, isScheme scheme = true)
    {scheme word following : Text} {u : Url} (member : scheme ∈ schemes)
    (isWord : IsWord schemes singleLabel word following)
    (read : read? (Text.lowercase scheme) singleLabel (word ++ following) = some u) :
    word.length ≤ u.text.length := by
  obtain ⟨other, spelled, host, port, tail, otherMember, spells, isHost, isPort, isTail, rfl⟩ :=
    isWord
  obtain ⟨spelled', atHost, whole, spells', found⟩ := read?_eq_some_iff.mp read
  -- Both schemes end at the first colon of the text.
  simp only [List.append_assoc] at whole
  obtain ⟨rfl, behind⟩ := append_colon_inj (colon_not_mem (valid other otherMember) spells)
    (colon_not_mem (valid scheme member) spells') whole
  obtain rfl : host ++ (port ++ (tail ++ following)) = atHost := by simpa using behind
  obtain ⟨u', read', longest⟩ := readHost_longest spelled isHost isPort isTail
  rw [read'] at found
  cases found
  obtain ⟨schemeSame, -⟩ := readHost_sound read'
  simp only [text, separator, schemeSame, List.length_append] at longest ⊢
  omega

/-- A text that begins with a word is read. -/
theorem matcher_read?_ne_none {word following : Text}
    (isWord : IsWord schemes singleLabel word following) :
    (Matcher.ofSchemes schemes singleLabel).read? (word ++ following) ≠ none := by
  obtain ⟨scheme, spelled, host, port, tail, member, spells, isHost, isPort, isTail, rfl⟩ := isWord
  obtain ⟨u, found, -⟩ := readHost_longest spelled isHost isPort isTail
  have read : read? (Text.lowercase scheme) singleLabel
      ((spelled ++ ("://".toList ++ (host ++ (port ++ tail)))) ++ following) = some u :=
    read?_eq_some_iff.mpr ⟨spelled, _, by simp [separator], spells, found⟩
  intro none
  rw [Matcher.read?, List.findSome?_eq_none_iff] at none
  have noUrl := none _ (mem_ofSchemes.mpr ⟨scheme, member, rfl⟩)
  rw [Matcher.ofSchemes, read] at noUrl
  cases noUrl

/-- What a matcher reads is the longest word that the text begins with. -/
theorem matcher_read?_eq_some (valid : ∀ scheme ∈ schemes, isScheme scheme = true) {t : Text}
    {u : Url} (read : (Matcher.ofSchemes schemes singleLabel).read? t = some u) :
    IsLongestWord schemes singleLabel t u.text := by
  obtain ⟨lowered, inMatcher, found⟩ := List.exists_of_findSome?_eq_some read
  obtain ⟨scheme, member, rfl⟩ := mem_ofSchemes.mp inMatcher
  refine ⟨read?_sound member found, ?_⟩
  rintro other following rfl isWord
  exact read?_longest valid member isWord found

/-! ## The search through a text -/

theorem mayBegin_iff {t : Text} {p : Nat} :
    Matcher.mayBegin (before? t p) = true ↔ OpenAt t p := by
  have marks : "+.-".toList = ['+', '.', '-'] := rfl
  unfold OpenAt
  cases before? t p with
  | none => simp [Matcher.mayBegin]
  | some c => simp [Matcher.mayBegin, isJoining, marks]

theorem IsWord.ne_nil {word following : Text} (isWord : IsWord schemes singleLabel word following) :
    word ≠ [] := by
  obtain ⟨_, _, _, _, _, _, _, _, _, _, rfl⟩ := isWord
  simp

theorem IsLongestWord.wordAt {t word : Text} {p : Nat} (isOpen : OpenAt t p)
    (longest : IsLongestWord schemes singleLabel (t.drop p) word) :
    WordAt schemes singleLabel t p :=
  ⟨isOpen, word, longest.1⟩

theorem IsLongestWord.unique {t word other : Text}
    (longest : IsLongestWord schemes singleLabel t word)
    (longest' : IsLongestWord schemes singleLabel t other) : word = other := by
  obtain ⟨⟨following, whole, isWord⟩, atMost⟩ := longest
  obtain ⟨⟨following', whole', isWord'⟩, atMost'⟩ := longest'
  have sameLength : word.length = other.length :=
    Nat.le_antisymm (atMost' word following whole isWord) (atMost other following' whole' isWord')
  exact (List.append_inj (whole.symm.trans whole') sameLength).1

/-- A text has one leftmost-longest list of words. -/
theorem leftmostLongest_unique {t : Text} {p : Nat} {words words' : List (Nat × Text)}
    (found : LeftmostLongest schemes singleLabel t p words)
    (found' : LeftmostLongest schemes singleLabel t p words') : words = words' := by
  induction found generalizing words' with
  | done none =>
    cases found' with
    | done _ => rfl
    | found after _ isOpen longest _ => exact absurd (longest.wordAt isOpen) (none _ after)
  | @found p q word rest after first isOpen longest _ ih =>
    cases found' with
    | done none => exact absurd (longest.wordAt isOpen) (none q after)
    | @found _ q' word' rest' after' first' isOpen' longest' restFound =>
      -- Neither place lies before the other one, since both are the first with a word.
      rcases Nat.lt_trichotomy q q' with earlier | same | later
      · exact absurd (longest.wordAt isOpen) (first' q after earlier)
      · subst same
        obtain rfl := longest.unique longest'
        rw [ih restFound]
      · exact absurd (longest'.wordAt isOpen') (first q' after' later)

/-- Places without a word may be passed over. -/
theorem LeftmostLongest.skip {t : Text} {p start : Nat} {words : List (Nat × Text)}
    (ahead : p ≤ start) (none : ∀ r, p ≤ r → r < start → ¬WordAt schemes singleLabel t r)
    (found : LeftmostLongest schemes singleLabel t start words) :
    LeftmostLongest schemes singleLabel t p words := by
  cases found with
  | done noneLater =>
    refine .done fun q after => ?_
    rcases Nat.lt_or_ge q start with before | later
    · exact none q after before
    · exact noneLater q later
  | found after first isOpen longest rest =>
    refine .found (Nat.le_trans ahead after) (fun r atLeast earlier => ?_) isOpen longest rest
    rcases Nat.lt_or_ge r start with before | later
    · exact none r atLeast before
    · exact first r later earlier

theorem before?_add_length {t word following : Text} {p : Nat} (notEmpty : word ≠ [])
    (whole : t.drop p = word ++ following) : before? t (p + word.length) = word.getLast? := by
  obtain ⟨start, last⟩ := List.getLast?_eq_some_iff.mp (List.getLast?_eq_some_getLast notEmpty)
  generalize word.getLast notEmpty = c at last
  subst last
  have atEnd : t[p + start.length]? = some c := by
    rw [← List.getElem?_drop, whole]
    simp
  rw [List.length_append, List.length_singleton, ← Nat.add_assoc, before?, atEnd]
  simp

/-- From any offset on, what the matcher finds is the leftmost-longest list of words. -/
theorem findFrom_leftmostLongest (valid : ∀ scheme ∈ schemes, isScheme scheme = true) (t : Text)
    (p : Nat) :
    LeftmostLongest schemes singleLabel t p
      (((Matcher.ofSchemes schemes singleLabel).findFrom (before? t p) p (t.drop p)).map
        fun found => (found.start, found.raw.text)) := by
  rw [Matcher.findFrom.eq_def]
  split
  next none =>
    refine .done fun q after => ?_
    rintro ⟨-, word, following, whole, isWord⟩
    have atEnd : t.length ≤ q := Nat.le_trans (List.drop_eq_nil_iff.mp none) after
    rw [List.drop_eq_nil_iff.mpr atEnd] at whole
    exact isWord.ne_nil (List.append_eq_nil_iff.mp whole.symm).1
  next c rest whole =>
    rw [← whole]
    have inside : p < t.length := by
      by_contra atEnd
      rw [List.drop_eq_nil_iff.mpr (Nat.le_of_not_lt atEnd)] at whole
      cases whole
    split
    next url found =>
      split at found
      next isOpen =>
        have longest := matcher_read?_eq_some valid found
        obtain ⟨⟨following, begins, -⟩, -⟩ := id longest
        have positive := List.length_pos_iff.mpr url.text_ne_nil
        have rest := findFrom_leftmostLongest valid t (p + url.text.length)
        rw [before?_add_length url.text_ne_nil begins, ← List.drop_drop] at rest
        exact .found (q := p) (Nat.le_refl p) (fun r after earlier => by omega)
          (mayBegin_iff.mp isOpen) longest rest
      next => cases found
    next none =>
      have here : ¬WordAt schemes singleLabel t p := by
        rintro ⟨isOpen, word, following, begins, isWord⟩
        rw [if_pos (mayBegin_iff.mpr isOpen), begins] at none
        exact matcher_read?_ne_none isWord none
      have next : before? t (p + 1) = some c := by
        rw [before?, ← Nat.add_zero p, ← List.getElem?_drop, whole]
        rfl
      have behind : t.drop (p + 1) = rest := by
        rw [← List.drop_drop, whole]
        rfl
      have later := findFrom_leftmostLongest valid t (p + 1)
      rw [next, behind] at later
      refine later.skip (Nat.le_succ p) fun r after before => ?_
      rwa [Nat.le_antisymm (Nat.le_of_lt_succ before) after]
termination_by t.length - p

/-- What a matcher finds in a text is the leftmost-longest list of its words. -/
theorem leftmostLongest_findAll (valid : ∀ scheme ∈ schemes, isScheme scheme = true) (t : Text) :
    LeftmostLongest schemes singleLabel t 0
      (((Matcher.ofSchemes schemes singleLabel).findAll t).map
        fun found => (found.start, found.raw.text)) :=
  findFrom_leftmostLongest valid t 0

end

/-! ## The reported URLs -/

theorem isTrailing_iff {c : Char} :
    isTrailing c = true ↔ c ∈ ['.', ',', ';', ':', '!', '?', '*'] := by
  have marks : ".,;:!?*".toList = ['.', ',', ';', ':', '!', '?', '*'] := rfl
  rw [isTrailing, marks, List.contains_iff_mem]

/-- What is reported of a URL is the URL without all the punctuation at its end. -/
theorem isTrimmed_trimmed (u : Url) : IsTrimmed u.text u.trimmed := by
  refine ⟨u.text.rtakeWhile isTrailing, List.rdropWhile_append_rtakeWhile.symm, ?_, ?_⟩
  · exact fun c member => isTrailing_iff.mp (List.mem_rtakeWhile_imp member)
  · intro c last trailing
    have notEmpty : u.text.rdropWhile isTrailing ≠ [] := u.trimmed_ne_nil
    have atEnd : u.trimmed.getLast? = some ((u.text.rdropWhile isTrailing).getLast notEmpty) :=
      List.getLast?_eq_some_getLast notEmpty
    rw [atEnd] at last
    refine List.rdropWhile_last_not isTrailing u.text notEmpty ?_
    rw [Option.some.inj last]
    exact isTrailing_iff.mpr trailing

end UrlScan.Url
