import UrlScan.Proofs.Url.HostAgreement
import UrlScan.Proofs.Url.Reported

/-!
# URLs that begin inside other ones

The path of a URL may hold another URL. The two then end together, or the inner one ends first, at a
bracket that closes a group of the outer one. Only two places before the path are open for another
URL, the first character of the host and the first digit of the port. A URL that begins there and
goes on beyond the outer one has a scheme that takes in the whole host, or the number of the port
(`SchemeTakes`); for no colon stands in either, and the scheme reaches up to a colon.

1. `isLabelLetter_cases`, `isJoining_of_isLabelChar`, `isJoining_of_isDecimalDigit`: no URL begins
   inside a label or a number.
2. `IsPath.length_le_of_begins`: a path that begins inside another one ends with it at the latest.
3. `Inside.schemeTakes_or_length_le`: a URL that begins inside another one.
-/

namespace UrlScan.Url

open ReadingLemmas HostLemmas

/-! ## Joining characters -/

/-- A letter or digit of a label is an ASCII character, or one of the four others that are the same
letter as an ASCII one: the dotted and the dotless I, the long s and the Kelvin sign. -/
theorem isLabelLetter_cases {c : Char} (letter : isLabelLetter c = true) :
    c.toNat < 128 ∨ c.toNat ∈ [0x130, 0x131, 0x17F, 0x212A] := by
  by_contra outside
  rw [not_or, Nat.not_lt] at outside
  obtain ⟨large, notListed⟩ := outside
  have small : (Text.caseless c).toNat < 128 := by
    simp only [isLabelLetter, Bool.or_eq_true, Bool.and_eq_true, decide_eq_true_eq, Char.le_def,
      UInt32.le_iff_toNat_le, Char.toNat_val] at letter
    change (97 ≤ (Text.caseless c).toNat ∧ (Text.caseless c).toNat ≤ 122) ∨
      48 ≤ (Text.caseless c).toNat ∧ (Text.caseless c).toNat ≤ 57 at letter
    omega
  have runs : ∀ run ∈ Text.capitalRuns, run.2.2.2 < 128 →
      run.1 = run.2.1 ∧ run.1 ∈ [0x130, 0x131, 0x17F, 0x212A] := by decide +kernel
  have variants : ∀ pair ∈ Text.caseVariants, pair.2 < 128 →
      pair.1 ∈ [0x130, 0x131, 0x17F, 0x212A] ∧ ∀ run ∈ Text.capitalRuns,
        ¬(run.2.2.2 ≤ pair.1 ∧ pair.1 ≤ run.2.2.2 + (run.2.1 - run.1)) := by decide +kernel
  rcases Text.CaseFreeLemmas.caseless_cases c with same | ⟨pair, member, variant, image⟩
  · rw [same] at small
    rcases Text.CaseFreeLemmas.lowerChar_cases c with unchanged | ⟨capital, -⟩ |
      ⟨run, member, capital, image⟩
    · rw [unchanged] at small
      exact absurd small (Nat.not_lt.mpr large)
    · omega
    · obtain ⟨single, listed⟩ := runs run member (Nat.lt_of_le_of_lt image.1 small)
      have isFirst : c.toNat = run.1 := by omega
      exact notListed (isFirst ▸ listed)
  · obtain ⟨listed, noImage⟩ := variants pair member (image ▸ small)
    rcases Text.CaseFreeLemmas.lowerChar_cases c with unchanged | ⟨capital, -⟩ |
      ⟨run, runMember, -, runImage⟩
    · rw [unchanged] at variant
      exact notListed (variant ▸ listed)
    · omega
    · rw [variant] at runImage
      exact noImage run runMember runImage

theorem isJoining_of_isAlphanumeric {c : Char} (alphanumeric : Text.isAlphanumeric c = true) :
    isJoining c = true := by
  simp [isJoining, Text.isWordChar, alphanumeric]

theorem isJoining_of_isLabelChar {c : Char} (labelChar : isLabelChar c = true) :
    isJoining c = true := by
  rw [isLabelChar, Bool.or_eq_true, beq_iff_eq] at labelChar
  rcases labelChar with rfl | letter
  · decide
  refine isJoining_of_isAlphanumeric ?_
  rcases isLabelLetter_cases letter with ascii | other
  · exact Text.ascii_of_forall
      (P := fun c => isLabelLetter c = true → Text.isAlphanumeric c = true)
      (by decide) ascii letter
  · have listed : ∀ n ∈ [0x130, 0x131, 0x17F, 0x212A],
        Text.isAlphanumeric (Char.ofNat n) = true := by decide +kernel
    rw [← Char.ofNat_toNat c]
    exact listed c.toNat other

theorem exists_zero_of_isDecimalDigit {c : Char} (digit : Text.isDecimalDigit c = true) :
    ∃ firstDigit ∈ Text.decimalZeros, firstDigit ≤ c.toNat ∧ c.toNat ≤ firstDigit + 9 := by
  rw [Text.isDecimalDigit, Text.digitValue?, Option.isSome_map, List.find?_isSome] at digit
  obtain ⟨firstDigit, member, within⟩ := digit
  simp only [Bool.and_eq_true, decide_eq_true_eq] at within
  exact ⟨firstDigit, member, within.1, Nat.le_of_lt_succ within.2⟩

theorem isJoining_of_isDecimalDigit {c : Char} (digit : Text.isDecimalDigit c = true) :
    isJoining c = true := by
  refine isJoining_of_isAlphanumeric ?_
  obtain ⟨firstDigit, member, low, high⟩ := exists_zero_of_isDecimalDigit digit
  have runs : Text.decimalZeros.all (fun firstDigit => firstDigit == 0x30 ||
      Nat.ble 128 firstDigit && Text.alphanumericRanges.any fun range =>
        Nat.ble range.1 firstDigit && Nat.ble (firstDigit + 9) range.2) = true := by
    decide +kernel
  have run := List.all_eq_true.mp runs firstDigit member
  simp only [Bool.or_eq_true, beq_iff_eq, Bool.and_eq_true, Nat.ble_eq, List.any_eq_true] at run
  rcases run with rfl | ⟨large, range, inTable, below, above⟩
  · have ascii : c.toNat < 128 := by omega
    exact Text.ascii_of_forall (P := fun c => 0x30 ≤ c.toNat → c.toNat ≤ 0x30 + 9 →
      Text.isAlphanumeric c = true) (by decide) ascii low high
  · rw [Text.isAlphanumeric, if_neg (by omega), Text.inRanges, List.any_eq_true]
    exact ⟨range, inTable, by simpa using ⟨by omega, by omega⟩⟩

/-- Stretches of code points without letter case that hold all decimal digits. -/
def digitStretches : List (Nat × Nat) :=
  [(0x30, 0x39), (0x660, 0x1099), (0x17E0, 0x1C59), (0xA620, 0xA629), (0xA8D0, 0xAA59),
  (0xABF0, 0xABF9), (0xFF10, 0xFF19), (0x104A0, 0x104A9), (0x10D30, 0x11739), (0x118E0, 0x16B59),
  (0x1D7CE, 0x1E2F9), (0x1E950, 0x1E959), (0x1FBF0, 0x1FBF9)]

/-- A decimal digit has no letter case. -/
theorem isDecimalDigit_caseFree {c : Char} (digit : Text.isDecimalDigit c = true) :
    Text.IsCaseFree c := by
  obtain ⟨firstDigit, member, low, high⟩ := exists_zero_of_isDecimalDigit digit
  have free : ∀ stretch ∈ digitStretches, Text.caseFreeRange stretch = true := by decide +kernel
  have inStretch : ∀ firstDigit ∈ Text.decimalZeros, ∃ stretch ∈ digitStretches,
      stretch.1 ≤ firstDigit ∧ firstDigit + 9 ≤ stretch.2 := by decide +kernel
  obtain ⟨stretch, isStretch, below, above⟩ := inStretch firstDigit member
  exact ⟨stretch, free stretch isStretch, Nat.le_trans below low, Nat.le_trans high above⟩

/-! ## Paths inside paths -/

/-- A path does not go beyond a closing bracket that it does not open. -/
theorem IsPath.length_le_of_closing {inner chars rest rest' : Text} {opening closing : Char}
    (isPath : IsPath inner)
    (pair : (opening, closing) ∈ [('(', ')'), ('[', ']'), ('\x7b', '\x7d')])
    (all : ∀ c ∈ chars, isPathChar c = true) (begins : inner ++ rest = chars ++ closing :: rest') :
    inner.length ≤ chars.length := by
  induction isPath generalizing chars with
  | nil => exact Nat.zero_le _
  | @char c path isChar _ ih =>
    cases chars with
    | nil =>
      cases (List.cons.inj begins).1
      exact absurd (mem_brackets_of_pair pair).2 (not_mem_brackets isChar)
    | cons d chars =>
      rw [List.forall_mem_cons] at all
      exact Nat.succ_le_succ (ih all.2 (List.cons.inj begins).2)
  | @group opening' closing' inside path pair' _ _ _ =>
    cases chars with
    | nil => exact absurd (List.cons.inj begins).1 (pair_unique pair' pair).1
    | cons d chars =>
      rw [List.forall_mem_cons] at all
      cases (List.cons.inj begins).1
      exact absurd (mem_brackets_of_pair pair').1 (not_mem_brackets all.1)

/-- A path that begins inside the longest path of a text ends with it at the latest: behind path
characters and whole groups the two are the same, and inside a group there are only path characters
before the closing bracket. -/
theorem IsPath.length_le_of_begins {path following front back inner rest : Text}
    (isPath : IsPath path) (longest : pathOf (path ++ following) = path)
    (cut : path = front ++ back) (isInner : IsPath inner)
    (begins : back ++ following = inner ++ rest) : inner.length ≤ back.length := by
  -- At the beginning of a longest path the inner one is one of the paths there.
  have atStart {path : Text} (longest : pathOf (path ++ following) = path)
      (begins : path ++ following = inner ++ rest) : inner.length ≤ path.length := by
    have shorter := (isPrefix_pathOf isInner rest).length_le
    rwa [← begins, longest] at shorter
  induction isPath generalizing front with
  | nil =>
    rw [(List.append_eq_nil_iff.mp cut.symm).2] at begins ⊢
    exact atStart longest begins
  | @char c path isChar _ ih =>
    cases front with
    | nil =>
      rw [List.nil_append] at cut
      exact cut ▸ atStart longest (cut ▸ begins)
    | cons d front =>
      rw [List.cons_append, pathOf_char isChar] at longest
      exact ih (List.cons.inj longest).2 (List.cons.inj cut).2
  | @group opening closing inside path pair chars _ ih =>
    cases front with
    | nil =>
      rw [List.nil_append] at cut
      exact cut ▸ atStart longest (cut ▸ begins)
    | cons d front =>
      rcases List.append_eq_append_iff.mp (List.cons.inj cut).2 with
        ⟨more, rfl, later⟩ | ⟨more, rfl, rfl⟩
      · cases more with
        | nil =>
          rw [List.nil_append] at later
          rw [← later] at begins
          have none : inner.length ≤ ([] : Text).length :=
            isInner.length_le_of_closing pair (by simp) begins.symm
          exact Nat.le_trans none (Nat.zero_le _)
        | cons e more =>
          rw [List.cons_append, List.append_assoc, List.cons_append, pathOf_group pair chars] at longest
          have behind := List.append_cancel_left (List.cons.inj longest).2
          exact ih (List.cons.inj behind).2 (List.cons.inj later).2
      · rw [List.append_assoc, List.cons_append] at begins
        have short := isInner.length_le_of_closing pair
          (fun c member => chars c (List.mem_append_right _ member)) begins.symm
        rw [List.length_append]
        exact Nat.le_trans short (Nat.le_add_right _ _)

/-! ## URLs inside URLs -/

/-- The scheme of `inner` takes in the whole host of `outer`, or the number of its port. -/
def SchemeTakes (inner outer : Url) : Prop :=
  outer.host <+: inner.scheme ∨ ∃ digits, outer.port = ':' :: digits ∧ digits <+: inner.scheme

namespace ReadingLemmas

/-- Where a text that consists of two parts is cut: inside the first part, or behind it. -/
theorem cut_cases {first second front back : Text} (cut : first ++ second = front ++ back) :
    (∃ more, more ≠ [] ∧ first = front ++ more ∧ back = more ++ second) ∨
    ∃ more, front = first ++ more ∧ second = more ++ back := by
  rcases List.append_eq_append_iff.mp cut with ⟨more, rfl, whole⟩ | ⟨more, rfl, whole⟩
  · exact Or.inr ⟨more, rfl, whole⟩
  · cases more with
    | nil => exact Or.inr ⟨[], by simp, by simpa using whole.symm⟩
    | cons c more => exact Or.inl ⟨c :: more, List.cons_ne_nil c more, rfl, whole⟩

/-- A text without colons is part of what stands before the first colon. -/
theorem isPrefix_of_colon_free {start rest before behind : Text} (free : ':' ∉ start)
    (whole : start ++ rest = before ++ ':' :: behind) : start <+: before := by
  rcases List.append_eq_append_iff.mp whole with ⟨more, rfl, -⟩ | ⟨more, rfl, later⟩
  · exact List.prefix_append start more
  · cases more with
    | nil => simp
    | cons c more =>
      cases (List.cons.inj later).1
      exact absurd (by simp) free

end ReadingLemmas

section
variable {schemes : List Text} {singleLabel : Bool} {u w : Url}
  {following following' front back start : Text}

theorem spelled_ne_nil {scheme spelled : Text} (valid : isScheme scheme = true)
    (spells : Spells (Text.lowercase scheme) spelled) : spelled ≠ [] := by
  rintro rfl
  have notEmpty : scheme ≠ [] := by
    rintro rfl
    cases valid
  exact Text.lowercase_ne_nil notEmpty (List.forall₂_nil_right_iff.mp spells)

/-- The scheme of a URL has none of the characters that begin the parts behind it. -/
theorem HasParts.not_mem_scheme (parts : HasParts schemes singleLabel u following)
    (valid : ∀ scheme ∈ schemes, isScheme scheme = true) {c : Char}
    (opens : c ∈ [':', '/', '?', '#']) : c ∉ u.scheme := by
  obtain ⟨scheme, member, spells⟩ := parts.spells
  simp only [List.mem_cons, List.not_mem_nil, or_false] at opens
  rcases opens with rfl | rfl | rfl | rfl
  all_goals exact not_mem_spelled (valid scheme member) spells (by decide) (by decide) (by decide)

/-- The first character of a URL is one of its scheme. -/
theorem HasParts.head_mem_scheme (parts : HasParts schemes singleLabel w following')
    (valid : ∀ scheme ∈ schemes, isScheme scheme = true) {c : Char}
    (begins : c :: back = w.text ++ following') : c ∈ w.scheme := by
  obtain ⟨scheme, member, spells⟩ := parts.spells
  obtain ⟨first, rest, spelled⟩ :=
    List.exists_cons_of_ne_nil (spelled_ne_nil (valid scheme member) spells)
  rw [text, spelled] at begins
  rw [(List.cons.inj begins).1, spelled]
  exact List.mem_cons_self

/-- A URL that is the longest word of a text has all of the tail that can be read. -/
theorem HasParts.tailOf_eq (parts : HasParts schemes singleLabel u following)
    (longest : IsLongestWord schemes singleLabel (u.text ++ following) u.text) :
    tailOf (u.tail ++ following) = u.tail := by
  obtain ⟨isTail, rest, whole⟩ := tailOf_sound (u.tail ++ following)
  have begins : u.tail <+: tailOf (u.tail ++ following) := isPrefix_tailOf parts.isTail following
  generalize tailOf (u.tail ++ following) = tail at isTail whole begins ⊢
  have longer : HasParts schemes singleLabel { u with tail } rest :=
    ⟨parts.spells, parts.isLabel, parts.enough, whole ▸ parts.isPort, isTail⟩
  have place : u.text ++ following = { u with tail }.text ++ rest := by
    simp only [text, Url.host, List.append_assoc, whole]
  have shorter := longest.2 _ rest place longer.isWord
  refine (begins.eq_of_length_le ?_).symm
  simpa [text, Url.host] using shorter

/-- The text of the URL `u` is cut into `front` and `back`, the URL `w` begins at the cut, and a URL
may begin there. Behind the two stand `following` and `following'`. -/
structure Inside (schemes : List Text) (singleLabel : Bool) (u w : Url)
    (following following' front back : Text) : Prop where
  parts : HasParts schemes singleLabel u following
  longest : IsLongestWord schemes singleLabel (u.text ++ following) u.text
  parts' : HasParts schemes singleLabel w following'
  cut : u.text = front ++ back
  begins : back ++ following = w.text ++ following'
  isOpen : ∀ c, front.getLast? = some c → isJoining c = false

namespace Inside

variable (inside : Inside schemes singleLabel u w following following' front back)
  (valid : ∀ scheme ∈ schemes, isScheme scheme = true)
include inside

theorem not_joining {start last : Text} (whole : front = start ++ last) (some : last ≠ []) :
    ∃ c ∈ last, isJoining c = false := by
  have atEnd := List.getLast?_eq_some_getLast some
  refine ⟨_, List.getLast_mem some, inside.isOpen _ ?_⟩
  rw [whole, List.getLast?_append_of_ne_nil _ some, atEnd]

theorem behind_colon_free {start rest : Text} (free : ':' ∉ start)
    (stands : back ++ following = start ++ rest) : start <+: w.scheme := by
  have scheme : w.text ++ following' = w.scheme ++ ':' ::
      ('/' :: '/' :: (w.host ++ (w.port ++ (w.tail ++ following')))) := by
    simp [text, separator]
  exact isPrefix_of_colon_free free (stands.symm.trans (inside.begins.trans scheme))

/-- In the host a URL may begin only at its first character. -/
theorem host_isPrefix {more : Text} (isFront : front = u.scheme ++ (separator ++ start))
    (inHost : u.host = start ++ more) (isBack : back = more ++ (u.port ++ u.tail)) :
    u.host <+: w.scheme := by
  cases start with
  | nil =>
    have stands : back ++ following = u.host ++ (u.port ++ u.tail ++ following) := by
      rw [isBack, inHost]
      simp
    exact inside.behind_colon_free (host_absent inside.parts (Or.inl rfl)) stands
  | cons d start =>
    obtain ⟨c, member, notJoining⟩ := inside.not_joining
      (isFront.trans (List.append_assoc ..).symm) (List.cons_ne_nil d start)
    have joining : isJoining c = true := by
      rcases inside.parts.host_char (inHost ▸ List.mem_append_left more member) with rfl | labelChar
      · decide
      · exact isJoining_of_isLabelChar labelChar
    rw [joining] at notJoining
    cases notJoining

include valid

theorem not_opens {c : Char} {rest : Text} (first : back = c :: rest) :
    c ∉ [':', '/', '?', '#'] := by
  intro opens
  have begins := inside.begins
  rw [first] at begins
  exact inside.parts'.not_mem_scheme valid opens (inside.parts'.head_mem_scheme valid begins)

/-- In the port a URL may begin only at its first digit. -/
theorem number_isPrefix {more : Text}
    (isFront : front = u.scheme ++ (separator ++ (u.host ++ start))) (notEmpty : more ≠ [])
    (inPort : u.port = start ++ more) (isBack : back = more ++ u.tail) :
    ∃ digits, u.port = ':' :: digits ∧ digits <+: w.scheme := by
  rcases inside.parts.isPort with none | ⟨digits, isPort, -, -, allDigits, -⟩
  · exact absurd (List.append_eq_nil_iff.mp (inPort.symm.trans none)).2 notEmpty
  cases start with
  | nil =>
    rw [List.nil_append, isPort] at inPort
    rw [← inPort, List.cons_append] at isBack
    have colon : ':' ∈ [':', '/', '?', '#'] := List.mem_cons_self
    exact absurd colon (inside.not_opens valid isBack)
  | cons d start =>
    obtain ⟨rfl, inDigits⟩ := List.cons.inj (isPort.symm.trans inPort)
    refine ⟨digits, isPort, ?_⟩
    cases start with
    | nil =>
      have noColon : ':' ∉ digits := fun member =>
        absurd (isJoining_of_isDecimalDigit (allDigits ':' member)) (by decide)
      have stands : back ++ following = digits ++ (u.tail ++ following) := by
        rw [isBack, inDigits]
        simp
      exact inside.behind_colon_free noColon stands
    | cons e start =>
      have whole : front = (u.scheme ++ (separator ++ (u.host ++ [':']))) ++ e :: start := by
        rw [isFront]
        simp
      obtain ⟨c, member, notJoining⟩ := inside.not_joining whole (List.cons_ne_nil e start)
      have digit := allDigits c (inDigits ▸ List.mem_append_left more member)
      rw [isJoining_of_isDecimalDigit digit] at notJoining
      cases notJoining

/-- A URL that begins inside the scheme of another one ends with it. -/
theorem length_le_of_in_scheme {more : Text} (inScheme : u.scheme = front ++ more)
    (isBack : back = more ++ (separator ++ (u.host ++ (u.port ++ u.tail)))) :
    w.text.length ≤ back.length := by
  have noColon : ':' ∉ u.scheme := inside.parts.not_mem_scheme valid (by simp)
  have noColon' : ':' ∉ w.scheme := inside.parts'.not_mem_scheme valid (by simp)
  have whole : more ++ ':' :: ('/' :: '/' :: (u.host ++ (u.port ++ (u.tail ++ following)))) =
      w.scheme ++ ':' :: ('/' :: '/' :: (w.host ++ (w.port ++ (w.tail ++ following')))) := by
    have begins := inside.begins
    rw [isBack, text] at begins
    simpa [separator] using begins
  obtain ⟨sameScheme, behind⟩ := append_colon_inj
    (fun member => noColon (inScheme ▸ List.mem_append_right front member)) noColon' whole
  -- With the scheme of the outer URL the inner one is a word where the outer one begins.
  have longer : HasParts schemes singleLabel { w with scheme := u.scheme } following' :=
    ⟨inside.parts.spells, inside.parts'.isLabel, inside.parts'.enough, inside.parts'.isPort,
      inside.parts'.isTail⟩
  have place : u.text ++ following = ({ w with scheme := u.scheme } : Url).text ++ following' := by
    have sameBehind := (List.cons.inj (List.cons.inj behind).2).2
    simp only [text, separator, Url.host, List.append_assoc] at sameBehind ⊢
    rw [sameBehind]
  have shorter := inside.longest.2 _ following' place longer.isWord
  rw [isBack, sameScheme]
  simp only [text, Url.host, List.length_append] at shorter ⊢
  omega

/-- A URL that begins in the tail of another one ends with it at the latest. -/
theorem length_le_of_in_tail (notEmpty : back ≠ []) (inTail : u.tail = start ++ back) :
    w.text.length ≤ back.length := by
  have longest := inside.parts.tailOf_eq inside.longest
  rcases inside.parts.isTail with none | ⟨c, path, opens, isPath, isTail⟩
  · exact absurd (List.append_eq_nil_iff.mp (inTail.symm.trans none)).2 notEmpty
  rw [isTail] at inTail longest
  cases start with
  | nil =>
    have opensPart : c ∈ [':', '/', '?', '#'] := List.mem_cons_of_mem _ (by simpa using opens)
    exact absurd opensPart (inside.not_opens valid inTail.symm)
  | cons d start =>
    rw [List.cons_append, tailOf, if_pos opens] at longest
    exact isPath.length_le_of_begins (List.cons.inj longest).2 (List.cons.inj inTail).2
      (inside.parts'.isWord.isPath valid) inside.begins

/-- A URL that begins inside another one goes beyond it only if its scheme takes in the host or the
number of the port of the other one. -/
theorem schemeTakes_or_length_le (notEmpty : back ≠ []) :
    w.SchemeTakes u ∨ w.text.length ≤ back.length := by
  have atScheme : u.scheme ++ (separator ++ (u.host ++ (u.port ++ u.tail))) = front ++ back := by
    rw [← inside.cut]
    simp [text]
  rcases cut_cases atScheme with ⟨more, -, inScheme, isBack⟩ | ⟨inFront, isFront, atSeparator⟩
  · exact Or.inr (inside.length_le_of_in_scheme valid inScheme isBack)
  rcases cut_cases atSeparator with ⟨more, some, inSeparator, isBack⟩ | ⟨inFront, rfl, atHost⟩
  · obtain ⟨c, rest, rfl⟩ := List.exists_cons_of_ne_nil some
    have member : c ∈ separator := by
      rw [inSeparator]
      simp
    have opens : ∀ c ∈ separator, c ∈ [':', '/', '?', '#'] := by simp [separator]
    exact absurd (opens c member) (inside.not_opens valid isBack)
  rcases cut_cases atHost with ⟨more, -, inHost, isBack⟩ | ⟨inFront, rfl, atPort⟩
  · exact Or.inl (Or.inl (inside.host_isPrefix isFront inHost isBack))
  rcases cut_cases atPort with ⟨more, some, inPort, isBack⟩ | ⟨inFront, rfl, atTail⟩
  · exact Or.inl (Or.inr (inside.number_isPrefix valid isFront some inPort isBack))
  · exact Or.inr (inside.length_le_of_in_tail valid notEmpty atTail)

end Inside

end

end UrlScan.Url
