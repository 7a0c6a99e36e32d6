import UrlScan.Proofs.Url.Pattern
import UrlScan.Proofs.Url.Places

/-!
# The regular expression for URLs

A URL as a regular expression, matched by going back (`UrlScan.Pattern`). The engine has many ways
through this expression: a label may end at any of its letters, digits of a port may be left to what
follows, and so may rounds of the labels and of the path. The readers of `UrlScan.Url` follow only
the first of these ways, and this file shows that the engine never stops anywhere else.

* A label that is left early goes on with a label character, where neither a dot nor the end of the
  repetition helps (`head?_flatMap_label`).
* A port and a bracket group have at most one way through.
* A port and a tail may be empty, so that nothing before them is ever taken back.

Results:
1. `first?_labelPattern`, `first?_hostPattern`, `first?_portPattern`, `first?_tailPattern`: the parts.
2. `first?_urlPattern`: a matcher reads what the engine matches.
3. `findFrom_eq_matchesFrom`: a matcher finds the matches of the expression.
4. `findAll_leftmostLongest`: these are the leftmost-longest words of the text.
-/

namespace UrlScan.Url

open Pattern ReadingLemmas

/-! ## The expression -/

def labelPattern : Pattern :=
  .seq (.char isLabelLetter)
    (optional (.seq (.rounds (.char isLabelChar) 0 (some 61)) (.char isLabelLetter)))

/-- A dot and a label behind it. -/
def dotLabelPattern : Pattern :=
  .seq (exactly '.') labelPattern

def hostPattern (singleLabel : Bool) : Pattern :=
  .seq labelPattern (.rounds dotLabelPattern (if singleLabel then 0 else 1) none)

/-- A colon and one to five digits, with no digit behind them. -/
def filledPortPattern : Pattern :=
  .seq (exactly ':')
    (.seq (.rounds (.char Text.isDecimalDigit) 1 (some 5)) (.notBefore Text.isDecimalDigit))

def portPattern : Pattern :=
  optional filledPortPattern

def groupPattern (opening closing : Char) : Pattern :=
  .seq (exactly opening) (.seq (.rounds (.char isPathChar) 0 none) (exactly closing))

/-- One piece of a path: a path character or a group. -/
def piecePattern : Pattern :=
  .either (.char isPathChar)
    (.either (groupPattern '(' ')')
      (.either (groupPattern '[' ']') (groupPattern '\x7b' '\x7d')))

def pathPattern : Pattern :=
  .rounds piecePattern 0 none

def tailPattern : Pattern :=
  optional (.seq (.char fun c => c = '/' ∨ c = '?' ∨ c = '#') pathPattern)

def separatorPattern : Pattern :=
  .seq (exactly ':') (.seq (exactly '/') (exactly '/'))

/-- What comes behind the scheme and the separator. -/
def placePattern (singleLabel : Bool) : Pattern :=
  .seq (hostPattern singleLabel) (.seq portPattern tailPattern)

def urlPattern (schemes : List Text) (singleLabel : Bool) : Pattern :=
  .seq (anyOf (schemes.map literal)) (.seq separatorPattern (placePattern singleLabel))

/-! ## Labels -/

namespace ExpressionLemmas

theorem isLabelLetter_ne_hyphen {c : Char} (letter : isLabelLetter c = true) : c ≠ '-' := by
  rintro rfl
  revert letter
  decide

/-- A label is a letter, or two letters with label characters between them. -/
theorem isLabel_iff {label : Text} :
    IsLabel label ↔ ∃ c, isLabelLetter c = true ∧
      (label = [c] ∨ ∃ inside d, label = c :: (inside ++ [d]) ∧ inside.length ≤ 61 ∧
        (∀ x ∈ inside, isLabelChar x = true) ∧ isLabelLetter d = true) := by
  have letter_of_char {c : Char} (char : c = '-' ∨ IsLabelLetter c) (noHyphen : c ≠ '-') :
      isLabelLetter c = true :=
    isLabelLetter_iff.mpr (char.resolve_left noHyphen)
  constructor
  · rintro ⟨atLeast, atMost, chars, head, last⟩
    obtain ⟨c, rest, rfl⟩ := List.exists_cons_of_ne_nil (List.length_pos_iff.mp atLeast)
    refine ⟨c, letter_of_char (chars c List.mem_cons_self) ?_, ?_⟩
    · rintro rfl
      exact head rfl
    rcases List.eq_nil_or_concat' rest with rfl | ⟨inside, d, rfl⟩
    · exact Or.inl rfl
    · refine Or.inr ⟨inside, d, rfl, ?_, fun x member => ?_, letter_of_char (chars d ?_) ?_⟩
      · simp only [List.length_cons, List.length_append, List.length_nil] at atMost
        omega
      · exact isLabelChar_iff.mpr
          (chars x (List.mem_cons_of_mem c (List.mem_append_left [d] member)))
      · exact List.mem_cons_of_mem c (List.mem_append_right inside List.mem_cons_self)
      · rintro rfl
        refine last ?_
        rw [← List.cons_append, List.getLast?_concat]
  · rintro ⟨c, first, rfl | ⟨inside, d, rfl, atMost, all, last⟩⟩
    · refine ⟨Nat.le_refl 1, by simp, fun x member => ?_, ?_, ?_⟩
      · rw [List.mem_singleton.mp member]
        exact Or.inr (isLabelLetter_iff.mp first)
      · simpa using isLabelLetter_ne_hyphen first
      · simpa using isLabelLetter_ne_hyphen first
    · refine ⟨by simp, ?_, fun x member => ?_, ?_, ?_⟩
      · simp only [List.length_cons, List.length_append, List.length_nil]
        omega
      · rcases List.mem_cons.mp member with rfl | member
        · exact Or.inr (isLabelLetter_iff.mp first)
        rcases List.mem_append.mp member with within | atEnd
        · exact isLabelChar_iff.mp (all x within)
        · rw [List.mem_singleton.mp atEnd]
          exact Or.inr (isLabelLetter_iff.mp last)
      · simpa using isLabelLetter_ne_hyphen first
      · rw [← List.cons_append, List.getLast?_concat]
        simpa using isLabelLetter_ne_hyphen last

/-- The engine may leave a text behind any label that the text begins with. -/
theorem mem_ends_labelPattern {t rest : Text} :
    rest ∈ labelPattern.ends t ↔ ∃ label, IsLabel label ∧ t = label ++ rest := by
  rw [labelPattern, mem_ends_seq]
  constructor
  · rintro ⟨behind, first, more⟩
    obtain ⟨c, rfl, letter⟩ := mem_ends_char.mp first
    rw [ends_optional, List.mem_append, List.mem_singleton, mem_ends_seq] at more
    rcases more with ⟨atLast, run, last⟩ | rfl
    · obtain ⟨inside, rfl, all, -, atMost⟩ := mem_ends_chars.mp run
      obtain ⟨d, rfl, lastLetter⟩ := mem_ends_char.mp last
      refine ⟨c :: (inside ++ [d]), isLabel_iff.mpr ⟨c, letter, Or.inr ⟨inside, d, rfl, ?_⟩⟩, ?_⟩
      · exact ⟨atMost 61 rfl, all, lastLetter⟩
      · simp
    · exact ⟨[c], isLabel_iff.mpr ⟨c, letter, Or.inl rfl⟩, rfl⟩
  · rintro ⟨label, isLabel, rfl⟩
    obtain ⟨c, letter, rfl | ⟨inside, d, rfl, atMost, all, last⟩⟩ := isLabel_iff.mp isLabel
    · refine ⟨rest, mem_ends_char.mpr ⟨c, rfl, letter⟩, ?_⟩
      rw [ends_optional]
      exact List.mem_append_right _ List.mem_cons_self
    · refine ⟨inside ++ d :: rest, mem_ends_char.mpr ⟨c, by simp, letter⟩, ?_⟩
      rw [ends_optional, List.mem_append, mem_ends_seq]
      refine Or.inl ⟨d :: rest, mem_ends_chars.mpr ⟨inside, rfl, all, Nat.zero_le _, ?_⟩, ?_⟩
      · rintro bound same
        cases same
        exact atMost
      · exact mem_ends_char.mpr ⟨d, rfl, last⟩

/-- The engine tries a longer label before a shorter one. -/
theorem ends_labelPattern_pairwise (t : Text) :
    (labelPattern.ends t).Pairwise fun rest later => rest.length < later.length := by
  rw [labelPattern, ends_seq, List.pairwise_flatMap]
  refine ⟨fun behind _ => ?_, ends_char_pairwise t⟩
  rw [ends_optional, List.pairwise_append, ends_seq, List.pairwise_flatMap]
  refine ⟨⟨fun atLast _ => ends_char_pairwise atLast, ?_⟩, List.pairwise_singleton _ behind, ?_⟩
  · refine (ends_chars_pairwise 0 (some 61) behind).imp fun shorter rest member later member' => ?_
    obtain ⟨c, rfl, -⟩ := mem_ends_char.mp member
    obtain ⟨d, rfl, -⟩ := mem_ends_char.mp member'
    exact Nat.lt_of_succ_lt_succ shorter
  · intro rest member last isLast
    obtain ⟨atLast, run, letter⟩ := List.mem_flatMap.mp member
    obtain ⟨inside, rfl, -⟩ := mem_ends_chars.mp run
    obtain ⟨d, rfl, -⟩ := mem_ends_char.mp letter
    rw [List.mem_singleton.mp isLast, List.length_append, List.length_cons]
    omega

/-- Where a label may be left: first of all behind the label that is read. A shorter label goes on
with a label character. -/
theorem ends_labelPattern {t label : Text} (read : label? t = some label) :
    ∃ others, labelPattern.ends t = t.drop label.length :: others ∧
      ∀ rest ∈ others, ∃ c behind, rest = c :: behind ∧ isLabelChar c = true := by
  obtain ⟨isLabel, behind, rfl⟩ := label?_eq_some read
  rw [List.drop_left]
  have sorted := ends_labelPattern_pairwise (label ++ behind)
  have member : behind ∈ labelPattern.ends (label ++ behind) :=
    mem_ends_labelPattern.mpr ⟨label, isLabel, rfl⟩
  -- The texts are sorted by length, and `behind` is the shortest of them.
  have least {rest : Text} (member : rest ∈ labelPattern.ends (label ++ behind)) :
      rest = behind ∨ behind.length < rest.length ∧
        ∃ c after, rest = c :: after ∧ isLabelChar c = true := by
    obtain ⟨other, otherIsLabel, whole⟩ := mem_ends_labelPattern.mp member
    obtain ⟨longest, readOther, begins⟩ := isPrefix_label? otherIsLabel ⟨rest, whole.symm⟩
    obtain rfl : label = longest := Option.some.inj (read.symm.trans readOther)
    have lengths := congrArg List.length whole
    rw [List.length_append, List.length_append] at lengths
    rcases Nat.lt_or_eq_of_le begins.length_le with shorter | same
    · obtain ⟨c, next, inLabel⟩ := next_mem ⟨behind, whole⟩ shorter
      obtain ⟨after, rfl⟩ := List.head?_eq_some_iff.mp next
      exact Or.inr ⟨by omega, c, after, rfl, isLabelChar_iff.mpr (isLabel.chars c inLabel)⟩
    · exact Or.inl (List.append_inj whole.symm same).2
  cases ends : labelPattern.ends (label ++ behind) with
  | nil =>
    rw [ends] at member
    exact absurd member List.not_mem_nil
  | cons first others =>
    rw [ends] at sorted member
    obtain ⟨beforeAll, -⟩ := List.pairwise_cons.mp sorted
    have isFirst : first = behind := by
      rcases List.mem_cons.mp member with same | later
      · exact same.symm
      · have shorter := beforeAll behind later
        rcases least (ends ▸ List.mem_cons_self) with same | ⟨longer, -⟩
        · exact same
        · omega
    subst isFirst
    refine ⟨others, rfl, fun rest later => ?_⟩
    rcases least (ends ▸ List.mem_cons_of_mem first later) with rfl | ⟨-, next⟩
    · exact absurd (beforeAll rest later) (Nat.lt_irrefl _)
    · exact next

theorem ends_labelPattern_eq_nil {t : Text} (none : label? t = none) :
    labelPattern.ends t = [] := by
  refine List.eq_nil_iff_forall_not_mem.mpr fun rest member => ?_
  obtain ⟨label, isLabel, rfl⟩ := mem_ends_labelPattern.mp member
  obtain ⟨longest, read, -⟩ := isPrefix_label? isLabel (List.prefix_append label rest)
  rw [none] at read
  cases read

/-- What follows a label is tried behind the label that is read only, when it does not begin with a
label character unless it matches there. -/
theorem head?_flatMap_label {next : Text → List Text} {t label : Text}
    (read : label? t = some label)
    (stuck : next (t.drop label.length) = [] →
      ∀ c behind, isLabelChar c = true → next (c :: behind) = []) :
    ((labelPattern.ends t).flatMap next).head? = (next (t.drop label.length)).head? := by
  obtain ⟨others, ends, goOn⟩ := ends_labelPattern read
  rw [ends, List.flatMap_cons]
  cases first : next (t.drop label.length) with
  | nil =>
    have noOthers : others.flatMap next = [] := by
      refine List.flatMap_eq_nil_iff.mpr fun rest member => ?_
      obtain ⟨c, behind, rfl, inLabel⟩ := goOn rest member
      exact stuck first c behind inLabel
    rw [noOthers]
    rfl
  | cons rest _ => rfl

end ExpressionLemmas

open ExpressionLemmas

/-- The engine stops behind the label that is read. -/
theorem first?_labelPattern (t : Text) :
    labelPattern.first? t = (label? t).map fun label => t.drop label.length := by
  rw [first?]
  cases read : label? t with
  | none => rw [ends_labelPattern_eq_nil read, List.head?_nil, Option.map_none]
  | some label =>
    obtain ⟨others, ends, -⟩ := ends_labelPattern read
    rw [ends, List.head?_cons, Option.map_some]

/-! ## Hosts -/

namespace ExpressionLemmas

/-- Labels with a dot before each of them. -/
def dotted (labels : List Text) : Text :=
  labels.flatMap fun label => '.' :: label

theorem join_eq_append_dotted (label : Text) (labels : List Text) :
    Text.join ['.'] (label :: labels) = label ++ dotted labels := by
  induction labels generalizing label with
  | nil => rw [Text.join_singleton, dotted, List.flatMap_nil, List.append_nil]
  | cons second rest ih =>
    rw [Text.join_cons_cons, ih]
    rfl

/-- There are no more labels and no round takes a character, or a dot and a label are next. -/
theorem moreLabels_round (t : Text) :
    moreLabels t = [] ∧ dotLabelPattern.ends t = [] ∨
    ∃ rest label, t = '.' :: rest ∧ label? rest = some label ∧
      moreLabels t = label :: moreLabels (rest.drop label.length) ∧
      dotLabelPattern.ends t = labelPattern.ends rest := by
  cases t with
  | nil => exact Or.inl ⟨by rw [moreLabels]; simp, rfl⟩
  | cons c rest =>
    by_cases dot : c = '.'
    · subst dot
      have afterDot : dotLabelPattern.ends ('.' :: rest) = labelPattern.ends rest := by
        rw [dotLabelPattern, ends_seq, exactly, ends_char_cons, if_pos (by decide), List.flatMap_cons,
          List.flatMap_nil, List.append_nil]
      rw [moreLabels_dot, labelsOf, afterDot]
      cases read : label? rest with
      | none => exact Or.inl ⟨rfl, ends_labelPattern_eq_nil read⟩
      | some label => exact Or.inr ⟨rest, label, rfl, read, rfl, rfl⟩
    · refine Or.inl ⟨by rw [moreLabels]; simp [dot], ?_⟩
      rw [dotLabelPattern, ends_seq, exactly, ends_char_cons, if_neg (by simpa using dot),
        List.flatMap_nil]

theorem dotLabelPattern_stuck {c : Char} {rest : Text} (inLabel : isLabelChar c = true) :
    dotLabelPattern.ends (c :: rest) = [] := by
  rcases moreLabels_round (c :: rest) with ⟨-, none⟩ | ⟨_, _, same, -⟩
  · exact none
  · cases same
    exact absurd inLabel (by decide)

/-- Rounds that are still needed do not come about on a label character. -/
theorem roundsEnds_stuck {most least : Nat} {c : Char} {rest : Text} (needed : 1 ≤ least)
    (inLabel : isLabelChar c = true) :
    roundsEnds dotLabelPattern.ends most least (c :: rest) = [] := by
  obtain ⟨least, rfl⟩ := Nat.exists_eq_succ_of_ne_zero (Nat.ne_of_gt needed)
  cases most with
  | zero => rfl
  | succ most => rw [roundsEnds_succ_succ, dotLabelPattern_stuck inLabel, List.flatMap_nil]

/-- The engine takes all labels that follow, if they are enough. -/
theorem head?_roundsEnds_dotLabel {most : Nat} (least : Nat) {t : Text} (room : t.length ≤ most) :
    (roundsEnds dotLabelPattern.ends most least t).head? =
      if least ≤ (moreLabels t).length then some (t.drop (dotted (moreLabels t)).length)
      else none := by
  induction most generalizing least t with
  | zero =>
    obtain rfl := List.length_eq_zero_iff.mp (Nat.le_zero.mp room)
    have noLabels : moreLabels [] = [] := by rw [moreLabels]; simp
    rw [noLabels]
    cases least <;> rfl
  | succ most ih =>
    rcases moreLabels_round t with ⟨noLabels, stuck⟩ | ⟨rest, label, rfl, read, more, round⟩
    · rw [noLabels]
      cases least with
      | zero =>
        rw [roundsEnds_succ_zero, stuck]
        rfl
      | succ least =>
        rw [roundsEnds_succ_succ, stuck, List.flatMap_nil]
        exact (if_neg (Nat.not_succ_le_zero least)).symm
    · have shorter : (rest.drop label.length).length ≤ most := by
        rw [List.length_drop]
        exact Nat.le_trans (Nat.sub_le _ _) (Nat.le_of_succ_le_succ room)
      have behind : ('.' :: rest).drop (dotted (moreLabels ('.' :: rest))).length =
          (rest.drop label.length).drop (dotted (moreLabels (rest.drop label.length))).length := by
        rw [more, dotted, List.flatMap_cons, List.length_append, List.length_cons,
          Nat.add_right_comm, List.drop_succ_cons, ← List.drop_drop, dotted]
      -- The rounds behind the label that is read fail only when more of them are needed.
      have oneRound (least : Nat) :
          ((labelPattern.ends rest).flatMap (roundsEnds dotLabelPattern.ends most least)).head? =
            if least ≤ (moreLabels (rest.drop label.length)).length then
              some (('.' :: rest).drop (dotted (moreLabels ('.' :: rest))).length)
            else none := by
        rw [head?_flatMap_label read, ih least shorter, behind]
        intro fails c after inLabel
        have tooFew := ih least shorter
        rw [fails, List.head?_nil] at tooFew
        refine roundsEnds_stuck (Nat.pos_of_ne_zero fun zero => ?_) inLabel
        rw [zero, if_pos (Nat.zero_le _)] at tooFew
        cases tooFew
      cases least with
      | zero =>
        rw [roundsEnds_succ_zero, round, List.head?_append, oneRound, if_pos (Nat.zero_le _),
          if_pos (Nat.zero_le _)]
        rfl
      | succ least =>
        have enough : least + 1 ≤ (moreLabels ('.' :: rest)).length ↔
            least ≤ (moreLabels (rest.drop label.length)).length := by
          rw [more, List.length_cons]
          exact Nat.succ_le_succ_iff
        rw [roundsEnds_succ_succ, round, oneRound]
        simp only [enough]

end ExpressionLemmas

/-- The engine stops behind all labels of the host that is read. -/
theorem first?_hostPattern (singleLabel : Bool) (t : Text) :
    (hostPattern singleLabel).first? t =
      (host? singleLabel t).map fun labels => t.drop (Text.join ['.'] labels).length := by
  obtain ⟨least, isLeast⟩ : ∃ least, (if singleLabel then 0 else 1) = least := ⟨_, rfl⟩
  have rounds (rest : Text) : ((Pattern.rounds dotLabelPattern least none).ends rest).head? =
      if least ≤ (moreLabels rest).length then
        some (rest.drop (dotted (moreLabels rest)).length) else none := by
    rw [ends_rounds, Option.getD_none]
    exact head?_roundsEnds_dotLabel least (Nat.le_refl _)
  rw [first?, hostPattern, isLeast, ends_seq, host?_eq, labelsOf]
  cases read : label? t with
  | none =>
    rw [ends_labelPattern_eq_nil read]
    cases singleLabel <;> rfl
  | some label =>
    have enough : minLabels singleLabel ≤ (label :: moreLabels (t.drop label.length)).length ↔
        least ≤ (moreLabels (t.drop label.length)).length := by
      rw [← isLeast]
      cases singleLabel <;> simp [minLabels]
    rw [head?_flatMap_label read, rounds]
    · dsimp only
      simp only [enough]
      split
      · rw [Option.map_some, join_eq_append_dotted, List.length_append, List.drop_drop]
      · rfl
    · intro fails c behind inLabel
      have tooFew := rounds (t.drop label.length)
      rw [fails, List.head?_nil] at tooFew
      refine roundsEnds_stuck (Nat.pos_of_ne_zero fun zero => ?_) inLabel
      rw [zero, if_pos (Nat.zero_le _)] at tooFew
      cases tooFew

/-! ## Ports -/

theorem mem_ends_filledPort {t rest : Text} :
    rest ∈ filledPortPattern.ends t ↔ ∃ port, port ≠ [] ∧ t = port ++ rest ∧ IsPort port rest := by
  rw [filledPortPattern, mem_ends_seq]
  constructor
  · rintro ⟨between, colon, more⟩
    obtain rfl := mem_ends_exactly.mp colon
    obtain ⟨behind, run, stop⟩ := mem_ends_seq.mp more
    obtain ⟨digits, rfl, all, atLeast, atMost⟩ := mem_ends_chars.mp run
    obtain ⟨rfl, noDigit⟩ := mem_ends_notBefore.mp stop
    exact ⟨':' :: digits, List.cons_ne_nil _ _, rfl,
      Or.inr ⟨digits, rfl, atLeast, atMost 5 rfl, all, noDigit⟩⟩
  · rintro ⟨port, filled, rfl, rfl | ⟨digits, rfl, atLeast, atMost, all, noDigit⟩⟩
    · exact absurd rfl filled
    · refine ⟨digits ++ rest, mem_ends_exactly.mpr rfl, mem_ends_seq.mpr ⟨rest, ?_, ?_⟩⟩
      · refine mem_ends_chars.mpr ⟨digits, rfl, all, atLeast, ?_⟩
        rintro bound same
        cases same
        exact atMost
      · exact mem_ends_notBefore.mpr ⟨rfl, noDigit⟩

theorem first?_portPattern (t : Text) :
    portPattern.first? t = some (t.drop (portOf t).length) := by
  obtain ⟨rest, whole, isPort⟩ := portOf_sound t
  have behind : t.drop (portOf t).length = rest := drop_of_append whole.symm
  rw [portPattern, first?_optional, behind]
  by_cases empty : portOf t = []
  · have noPort : filledPortPattern.ends t = [] := by
      refine List.eq_nil_iff_forall_not_mem.mpr fun other member => ?_
      obtain ⟨port, filled, otherWhole, isPort⟩ := mem_ends_filledPort.mp member
      rcases eq_portOf isPort with same | ⟨none, -⟩
      · exact filled (same.trans (otherWhole ▸ empty))
      · exact filled none
    rw [empty, List.nil_append] at whole
    rw [first?, noPort, List.head?_nil, Option.getD_none, whole]
  · have found : filledPortPattern.first? t = some rest := by
      refine first?_eq_some_of_unique (mem_ends_filledPort.mpr ⟨_, empty, whole, isPort⟩) ?_
      intro other member
      obtain ⟨port, filled, otherWhole, isPort⟩ := mem_ends_filledPort.mp member
      rw [← behind, otherWhole]
      rcases eq_portOf isPort with same | ⟨none, -⟩
      · rw [← same, List.drop_left]
      · exact absurd none filled
    rw [found, Option.getD_some]

/-! ## Tails -/

namespace ExpressionLemmas

theorem mem_ends_group {opening closing : Char} {t rest : Text} :
    rest ∈ (groupPattern opening closing).ends t ↔
      ∃ inside, t = opening :: (inside ++ closing :: rest) ∧ ∀ c ∈ inside, isPathChar c = true := by
  rw [groupPattern, mem_ends_seq]
  constructor
  · rintro ⟨between, first, more⟩
    obtain rfl := mem_ends_exactly.mp first
    obtain ⟨behind, run, last⟩ := mem_ends_seq.mp more
    obtain ⟨inside, rfl, all, -⟩ := mem_ends_chars.mp run
    obtain rfl := mem_ends_exactly.mp last
    exact ⟨inside, rfl, all⟩
  · rintro ⟨inside, rfl, all⟩
    refine ⟨_, mem_ends_exactly.mpr rfl, mem_ends_seq.mpr ⟨closing :: rest, ?_, ?_⟩⟩
    · exact mem_ends_chars.mpr ⟨inside, rfl, all, Nat.zero_le _, fun _ impossible => by
        cases impossible⟩
    · exact mem_ends_exactly.mpr rfl

theorem mem_ends_piece {t rest : Text} :
    rest ∈ piecePattern.ends t ↔ (∃ c, t = c :: rest ∧ isPathChar c = true) ∨
      ∃ opening closing inside, (opening, closing) ∈ [('(', ')'), ('[', ']'), ('{', '}')] ∧
        t = opening :: (inside ++ closing :: rest) ∧ ∀ c ∈ inside, isPathChar c = true := by
  simp only [piecePattern, mem_ends_either, mem_ends_char, mem_ends_group, List.mem_cons,
    List.not_mem_nil, or_false, Prod.mk.injEq]
  constructor
  -- The three kinds of brackets are alternatives of the expression and a list in the grammar.
  · rintro (char | group | group | group)
    · exact Or.inl char
    · exact Or.inr ⟨'(', ')', group.choose, by simp, group.choose_spec⟩
    · exact Or.inr ⟨'[', ']', group.choose, by simp, group.choose_spec⟩
    · exact Or.inr ⟨'{', '}', group.choose, by simp, group.choose_spec⟩
  · rintro (char | ⟨opening, closing, inside, ⟨rfl, rfl⟩ | ⟨rfl, rfl⟩ | ⟨rfl, rfl⟩, group⟩)
    · exact Or.inl char
    · exact Or.inr (Or.inl ⟨inside, group⟩)
    · exact Or.inr (Or.inr (Or.inl ⟨inside, group⟩))
    · exact Or.inr (Or.inr (Or.inr ⟨inside, group⟩))

/-- A piece of a path begins the path that is read. -/
theorem drop_pathOf_of_piece {t rest : Text} (piece : rest ∈ piecePattern.ends t) :
    rest.length < t.length ∧ t.drop (pathOf t).length = rest.drop (pathOf rest).length := by
  rcases mem_ends_piece.mp piece with ⟨c, rfl, isChar⟩ |
    ⟨opening, closing, inside, brackets, rfl, all⟩
  · rw [pathOf_char isChar]
    exact ⟨Nat.lt_succ_self _, rfl⟩
  · rw [pathOf_group brackets all]
    constructor
    · simp only [List.length_cons, List.length_append]
      omega
    · rw [List.length_cons, List.drop_succ_cons, List.length_append, ← List.drop_drop,
        List.drop_left, List.length_cons, List.drop_succ_cons]

theorem pathOf_eq_nil {t : Text} (noPiece : piecePattern.ends t = []) : pathOf t = [] := by
  obtain ⟨isPath, rest, whole⟩ := pathOf_sound t
  have none (behind : Text) : behind ∉ piecePattern.ends t := by
    rw [noPiece]
    exact List.not_mem_nil
  cases read : pathOf t with
  | nil => rfl
  | cons first more =>
    rw [read] at isPath whole
    cases isPath with
    | char isChar _ =>
      exact absurd (mem_ends_piece.mpr (Or.inl ⟨first, whole.symm, isChar⟩)) (none _)
    | @group _ closing inside path brackets all _ =>
      refine absurd (mem_ends_piece.mpr (Or.inr ⟨first, closing, inside, brackets, ?_, all⟩))
        (none (path ++ rest))
      rw [← whole, List.cons_append, List.append_assoc, List.cons_append]

/-- The engine takes all pieces of a path. -/
theorem head?_roundsEnds_piece {most : Nat} {t : Text} (room : t.length ≤ most) :
    (roundsEnds piecePattern.ends most 0 t).head? = some (t.drop (pathOf t).length) := by
  induction most generalizing t with
  | zero =>
    obtain rfl := List.length_eq_zero_iff.mp (Nat.le_zero.mp room)
    rw [List.drop_nil]
    rfl
  | succ most ih =>
    rw [roundsEnds_succ_zero]
    cases pieces : piecePattern.ends t with
    | nil =>
      rw [pathOf_eq_nil pieces]
      rfl
    | cons rest others =>
      obtain ⟨shorter, same⟩ := drop_pathOf_of_piece (pieces ▸ List.mem_cons_self)
      have more := @ih rest (by omega)
      rw [List.flatMap_cons, List.append_assoc, List.head?_append, more, same]
      rfl

end ExpressionLemmas

theorem first?_pathPattern (t : Text) :
    pathPattern.first? t = some (t.drop (pathOf t).length) := by
  rw [first?, pathPattern, ends_rounds, Option.getD_none]
  exact head?_roundsEnds_piece (Nat.le_refl _)

theorem first?_tailPattern (t : Text) :
    tailPattern.first? t = some (t.drop (tailOf t).length) := by
  rw [tailPattern, first?_optional, first?_seq]
  cases t with
  | nil => rfl
  | cons c rest =>
    rw [ends_char_cons, tailOf]
    by_cases opens : c = '/' ∨ c = '?' ∨ c = '#'
    · rw [if_pos (decide_eq_true opens), if_pos opens, List.findSome?_cons, first?_pathPattern,
        Option.getD_some, List.length_cons, List.drop_succ_cons]
    · rw [if_neg (by simpa using opens), if_neg opens]
      rfl

/-! ## The whole expression -/

namespace ExpressionLemmas

theorem ends_literal (letters t : Text) :
    (literal letters).ends t =
      ((spelling? letters t).map fun spelled => t.drop spelled.length).toList := by
  induction letters generalizing t with
  | nil => rw [spelling?]; rfl
  | cons letter letters ih =>
    have step : literal (letter :: letters) =
        .seq (.char (Text.sameLetter letter)) (literal letters) := rfl
    rw [step, ends_seq]
    cases t with
    | nil => rw [spelling?]; rfl
    | cons c rest =>
      rw [spelling?, ends_char_cons]
      by_cases same : Text.sameLetter letter c = true
      · rw [if_pos same, if_pos same, List.flatMap_cons, List.flatMap_nil, List.append_nil, ih]
        cases spelling? letters rest <;> rfl
      · rw [if_neg same, if_neg same]
        rfl

theorem ends_separator (t : Text) :
    separatorPattern.ends t =
      if Text.startsWith t separator then [t.drop separator.length] else [] := by
  rw [Text.startsWith]
  split
  next begins =>
    obtain ⟨rest, rfl⟩ := List.isPrefixOf_iff_prefix.mp begins
    rfl
  next other =>
    refine List.eq_nil_iff_forall_not_mem.mpr fun rest member => other ?_
    obtain ⟨_, colon, slashes⟩ := mem_ends_seq.mp member
    obtain ⟨_, slash, last⟩ := mem_ends_seq.mp slashes
    rw [mem_ends_exactly.mp colon, mem_ends_exactly.mp slash, mem_ends_exactly.mp last]
    exact List.isPrefixOf_iff_prefix.mpr (List.prefix_append separator rest)

end ExpressionLemmas

/-- Behind the separator the engine takes the host, the port and the tail that are read. -/
theorem first?_placePattern (singleLabel : Bool) (t : Text) :
    (placePattern singleLabel).first? t =
      (host? singleLabel t).map fun labels =>
        let afterHost := t.drop (Text.join ['.'] labels).length
        let afterPort := afterHost.drop (portOf afterHost).length
        afterPort.drop (tailOf afterPort).length := by
  have behindHost (t : Text) : (Pattern.seq portPattern tailPattern).first? t =
      some ((t.drop (portOf t).length).drop (tailOf (t.drop (portOf t).length)).length) := by
    rw [first?_seq_of_total (fun t => by rw [first?_tailPattern]; rfl), first?_portPattern,
      Option.bind_some, first?_tailPattern]
  rw [placePattern, first?_seq_of_total (fun t => by rw [behindHost]; rfl), first?_hostPattern]
  cases host? singleLabel t with
  | none => rfl
  | some labels => rw [Option.map_some, Option.bind_some, behindHost, Option.map_some]

theorem first?_withScheme (scheme : Text) (singleLabel : Bool) (t : Text) :
    (Pattern.seq (literal scheme) (.seq separatorPattern (placePattern singleLabel))).first? t =
      (read? scheme singleLabel t).map fun u => t.drop u.text.length := by
  rw [first?_seq, ends_literal, read?]
  cases spelling? scheme t with
  | none => rfl
  | some spelled =>
    rw [Option.map_some, Option.toList_some, List.findSome?_singleton, first?_seq, ends_separator]
    dsimp only [Option.bind_eq_bind, Option.bind_some]
    split
    · rw [List.findSome?_singleton, first?_placePattern]
      cases host? singleLabel ((t.drop spelled.length).drop separator.length) with
      | none => rfl
      | some labels =>
        simp only [Option.map_some, Option.bind_some, text, host, List.length_append,
          List.drop_drop, Option.pure_def]
    · rfl

/-- A matcher reads what the engine matches. -/
theorem first?_urlPattern (m : Matcher) (t : Text) :
    (urlPattern m.schemes m.singleLabel).first? t =
      (m.read? t).map fun u => t.drop u.text.length := by
  rw [urlPattern, first?_seq_anyOf, List.findSome?_map, Matcher.read?, List.map_findSome?]
  refine congrArg (fun f => m.schemes.findSome? f) (funext fun scheme => ?_)
  exact first?_withScheme scheme m.singleLabel t

/-! ## The search through a text -/

theorem first?_eq_map_read? (m : Matcher) (previous : Option Char) (t : Text) :
    (if previous.any isJoining then none else (urlPattern m.schemes m.singleLabel).first? t) =
      (if Matcher.mayBegin previous then m.read? t else none).map fun u => t.drop u.text.length := by
  rw [first?_urlPattern, Matcher.mayBegin]
  cases previous.any isJoining <;> rfl

/-- A matcher finds the matches of the expression, at the same offsets. -/
theorem findFrom_eq_matchesFrom (m : Matcher) (previous : Option Char) (offset : Nat) (t : Text) :
    (m.findFrom previous offset t).map (fun found => (found.start, found.raw.text)) =
      (urlPattern m.schemes m.singleLabel).matchesFrom isJoining previous offset t := by
  fun_induction m.findFrom previous offset t with
  | case1 previous offset => rw [matchesFrom]; rfl
  | case2 previous offset c rest url read ih =>
    obtain ⟨behind, whole⟩ := m.isPrefix_of_read read
    have left : (c :: rest).drop url.text.length = behind := drop_of_append whole
    have shorter : behind.length < (c :: rest).length := by
      have positive := List.length_pos_iff.mpr url.text_ne_nil
      rw [← whole, List.length_append]
      omega
    have word : (c :: rest).take ((c :: rest).length - behind.length) = url.text := by
      rw [← whole, List.length_append, Nat.add_sub_cancel, List.take_left]
    have here := first?_eq_map_read? m previous (c :: rest)
    rw [show (if Matcher.mayBegin previous then m.read? (c :: rest) else none) = some url from read,
      Option.map_some, left] at here
    rw [matchesFrom, here]
    dsimp only
    rw [if_pos shorter, word, List.map_cons, ih, left]
  | case3 previous offset c rest noUrl ih =>
    have here := first?_eq_map_read? m previous (c :: rest)
    rw [show (if Matcher.mayBegin previous then m.read? (c :: rest) else .none) = .none from noUrl,
      Option.map_none] at here
    rw [matchesFrom, here]
    exact ih

/-- A matcher for valid schemes finds the matches of the expression, and these are exactly the
leftmost-longest list of words of the text. It reports each of them at its place and without the
punctuation at its end. -/
theorem findAll_leftmostLongest {schemes : List Text} (notEmpty : schemes ≠ [])
    (valid : ∀ scheme ∈ schemes, isScheme scheme = true) (singleLabel : Bool) (t : Text) :
    ∃ (m : Matcher) (words : List (Nat × Text)),
      Matcher.ofSchemes? schemes singleLabel = some m ∧
      (urlPattern m.schemes m.singleLabel).matchesFrom isJoining none 0 t = words ∧
      (∀ found, LeftmostLongest schemes singleLabel t 0 found ↔ found = words) ∧
      List.Forall₂ (fun word found => found.start = word.1 ∧ IsTrimmed word.2 found.url ∧
        found.stop = word.1 + found.url.length) words (m.findAll t) := by
  let m := Matcher.ofSchemes schemes singleLabel
  have all : LeftmostLongest schemes singleLabel t 0
      ((m.findAll t).map fun found => (found.start, found.raw.text)) :=
    findFrom_leftmostLongest valid t 0
  refine ⟨m, (m.findAll t).map fun found => (found.start, found.raw.text), ?_,
    (findFrom_eq_matchesFrom m none 0 t).symm, fun found => ⟨?_, ?_⟩, ?_⟩
  · rw [Matcher.ofSchemes?, if_neg (by simpa using notEmpty)]
  · exact fun other => leftmostLongest_unique other all
  · rintro rfl
    exact all
  · rw [List.forall₂_map_left_iff]
    exact List.forall₂_same.mpr fun found _ => ⟨rfl, isTrimmed_trimmed found.raw, rfl⟩

/-- The theorem at a sentence with a URL before its full stop. -/
theorem findAll_leftmostLongest_sentence :
    ∃ (m : Matcher) (words : List (Nat × Text)),
      Matcher.ofSchemes? ["http".toList, "https".toList] false = some m ∧
      (urlPattern m.schemes m.singleLabel).matchesFrom isJoining none 0
        "see https://example.com/a.".toList = words ∧
      (∀ found, LeftmostLongest ["http".toList, "https".toList] false
        "see https://example.com/a.".toList 0 found ↔ found = words) ∧
      List.Forall₂ (fun word found => found.start = word.1 ∧ IsTrimmed word.2 found.url ∧
        found.stop = word.1 + found.url.length) words
        (m.findAll "see https://example.com/a.".toList) :=
  findAll_leftmostLongest (by decide) (by decide) false _

end UrlScan.Url
