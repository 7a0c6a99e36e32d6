import Mathlib.Data.List.DropRight
import UrlScan.Proofs.Text.CaseFree
import UrlScan.Proofs.Text.Joined
import UrlScan.Proofs.Url.Grammar

/-!
# Reading takes the longest part

Each reader of `UrlScan.Url` takes a part of a URL off the beginning of a text, and always the
longest one: any other part of the same kind at the beginning of the text is shorter, and it stops
inside the longest one, so that no other part of a URL can follow it. The second half is what makes
reading without ever going back right.

Results:
1. `label?_eq_some`, `isPrefix_label?`: labels.
2. `labelsOf_sound`, `labelsOf_longest`: hosts.
3. `portOf_sound`, `eq_portOf`: ports.
4. `pathOf_sound`, `isPrefix_pathOf`: paths.
5. `tailOf_sound`, `isPrefix_tailOf`: tails.
-/

namespace UrlScan.Url

/-! ## Lists and their beginnings -/

namespace ReadingLemmas

theorem isPrefix_takeWhile {p : Char → Bool} {part t : Text} (start : part <+: t)
    (all : ∀ c ∈ part, p c = true) : part <+: t.takeWhile p := by
  obtain ⟨rest, rfl⟩ := start
  rw [List.takeWhile_append_of_pos all]
  exact List.prefix_append part _

/-- A text that begins another one and does not end in a trimmed character is not shortened by
trimming the other one. -/
theorem isPrefix_trimEnd {p : Char → Bool} {part t : Text} (start : part <+: t)
    (last : ∀ c, part.getLast? = some c → p c = false) : part <+: Text.trimEnd p t := by
  have kept : Text.trimEnd p t ++ t.rtakeWhile p = t := List.rdropWhile_append_rtakeWhile
  rcases Nat.le_total part.length (Text.trimEnd p t).length with short | long
  · exact List.prefix_of_prefix_length_le start ⟨_, kept⟩ short
  · obtain ⟨more, whole⟩ := List.prefix_of_prefix_length_le ⟨_, kept⟩ start long
    cases found : more.getLast? with
    | none =>
      rw [List.getLast?_eq_none_iff] at found
      rw [found, List.append_nil] at whole
      exact whole ▸ List.prefix_refl part
    | some c =>
      have atEnd : part.getLast? = some c := by
        rw [← whole, List.getLast?_append, found]
        rfl
      have beginning : Text.trimEnd p t ++ more <+: Text.trimEnd p t ++ t.rtakeWhile p := by
        rw [whole, kept]
        exact start
      have member : c ∈ t.rtakeWhile p :=
        ((List.prefix_append_right_inj _).mp beginning).subset (List.mem_of_getLast? found)
      have trimmed := List.mem_rtakeWhile_imp member
      rw [last c atEnd] at trimmed
      exact absurd trimmed (by decide)

theorem drop_of_append {start rest t : Text} (whole : start ++ rest = t) :
    t.drop start.length = rest := by
  rw [← whole, List.drop_left]

/-- When a beginning of a text is shorter than another one, the next character belongs to the other
one. -/
theorem next_mem {short long rest : Text} (start : long <+: short ++ rest)
    (shorter : short.length < long.length) : ∃ c, rest.head? = some c ∧ c ∈ long := by
  obtain ⟨more, rfl⟩ :=
    List.prefix_of_prefix_length_le (List.prefix_append short rest) start (Nat.le_of_lt shorter)
  have next : more <+: rest := (List.prefix_append_right_inj short).mp start
  cases more with
  | nil => simp at shorter
  | cons c more =>
    obtain ⟨behind, rfl⟩ := next
    exact ⟨c, rfl, by simp⟩

end ReadingLemmas

open ReadingLemmas

/-! ## Labels -/

namespace ReadingLemmas

theorem caseless_of_small {c : Char} (small : 'a' ≤ c ∧ c ≤ 'z' ∨ '0' ≤ c ∧ c ≤ '9') :
    Text.caseless c = c := by
  simp only [Char.le_def, UInt32.le_iff_toNat_le] at small
  have small : 97 ≤ c.toNat ∧ c.toNat ≤ 122 ∨ 48 ≤ c.toNat ∧ c.toNat ≤ 57 := small
  rw [Text.caseless, if_pos (by omega)]
  rcases Text.CaseFreeLemmas.toLower_cases c with same | ⟨capital, -⟩
  · exact same
  · omega

end ReadingLemmas

theorem isLabelLetter_iff {c : Char} : isLabelLetter c = true ↔ IsLabelLetter c := by
  simp only [isLabelLetter, Bool.or_eq_true, Bool.and_eq_true, decide_eq_true_eq]
  constructor
  · intro small
    refine ⟨Text.caseless c, small, ?_⟩
    rw [Text.sameLetter, caseless_of_small small, beq_self_eq_true]
  · rintro ⟨letter, small, same⟩
    rw [Text.sameLetter, caseless_of_small small, beq_iff_eq] at same
    rw [← same]
    exact small

theorem isLabelChar_iff {c : Char} : isLabelChar c = true ↔ c = '-' ∨ IsLabelLetter c := by
  rw [isLabelChar, Bool.or_eq_true, beq_iff_eq, isLabelLetter_iff]

namespace ReadingLemmas

def labelRun (t : Text) : Text :=
  (t.take maxLabel).takeWhile isLabelChar

theorem labelRun_isPrefix (t : Text) : labelRun t <+: t :=
  (List.takeWhile_prefix _).trans (List.take_prefix _ _)

theorem label?_eq_some_iff {t label : Text} :
    label? t = some label ↔
      Text.trimEnd (· == '-') (labelRun t) = label ∧ label ≠ [] ∧ label.head? ≠ some '-' := by
  unfold label? labelRun
  split
  next empty =>
    rw [empty]
    constructor
    · intro impossible
      cases impossible
    · rintro ⟨rfl, notEmpty, -⟩
      exact absurd rfl notEmpty
  next rest hyphen =>
    rw [hyphen]
    constructor
    · intro impossible
      cases impossible
    · rintro ⟨rfl, -, noHyphen⟩
      exact absurd rfl noHyphen
  next read notEmpty noHyphen =>
    constructor
    · intro same
      cases same
      refine ⟨rfl, notEmpty, fun head => ?_⟩
      obtain ⟨rest, begins⟩ := List.head?_eq_some_iff.mp head
      exact noHyphen rest begins
    · rintro ⟨rfl, -, -⟩
      rfl

end ReadingLemmas

/-- The label that is read is a label, and the text begins with it. -/
theorem label?_eq_some {t label : Text} (read : label? t = some label) :
    IsLabel label ∧ label <+: t := by
  obtain ⟨trimmed, notEmpty, head⟩ := label?_eq_some_iff.mp read
  have begins : label <+: labelRun t := trimmed ▸ List.rdropWhile_prefix _ _
  have short : (labelRun t).length ≤ maxLabel :=
    Nat.le_trans (List.takeWhile_prefix _).length_le (List.length_take_le _ _)
  refine ⟨⟨List.length_pos_iff.mpr notEmpty, Nat.le_trans begins.length_le short, ?_, head, ?_⟩,
    begins.trans (labelRun_isPrefix t)⟩
  · intro c member
    exact isLabelChar_iff.mp (List.mem_takeWhile_imp (begins.subset member))
  · intro hyphen
    subst trimmed
    have last := List.rdropWhile_last_not (· == '-') (labelRun t) notEmpty
    have atEnd := List.getLast?_eq_some_getLast notEmpty
    rw [hyphen] at atEnd
    exact last (beq_iff_eq.mpr (Option.some.inj atEnd).symm)

/-- Any label that the text begins with is a beginning of the one that is read. -/
theorem isPrefix_label? {t label : Text} (isLabel : IsLabel label) (start : label <+: t) :
    ∃ longest, label? t = some longest ∧ label <+: longest := by
  have inRun : label <+: labelRun t := by
    refine isPrefix_takeWhile ?_ fun c member => isLabelChar_iff.mpr (isLabel.chars c member)
    exact List.prefix_take_iff.mpr ⟨start, isLabel.length_le⟩
  have kept : label <+: Text.trimEnd (· == '-') (labelRun t) := by
    refine isPrefix_trimEnd inRun fun c last => ?_
    rw [beq_eq_false_iff_ne]
    rintro rfl
    exact isLabel.last last
  have labelNotEmpty : label ≠ [] := List.length_pos_iff.mp isLabel.length_pos
  refine ⟨_, label?_eq_some_iff.mpr ⟨rfl, ?_, ?_⟩, kept⟩
  · exact fun empty => labelNotEmpty (List.prefix_nil.mp (empty ▸ kept))
  · obtain ⟨c, rest, rfl⟩ := List.exists_cons_of_ne_nil labelNotEmpty
    obtain ⟨more, whole⟩ := kept
    rw [← whole]
    exact isLabel.head

/-! ## Hosts -/

/-- All labels that the text begins with, joined by dots. -/
def labelsOf (t : Text) : List Text :=
  match label? t with
  | none => []
  | some label => label :: moreLabels (t.drop label.length)

theorem moreLabels_dot (t : Text) : moreLabels ('.' :: t) = labelsOf t := by
  rw [moreLabels, labelsOf]
  cases label? t <;> rfl

/-- A host is all labels that the text begins with, when they are enough. -/
theorem host?_eq (singleLabel : Bool) (t : Text) :
    host? singleLabel t =
      if minLabels singleLabel ≤ (labelsOf t).length then some (labelsOf t) else none := by
  unfold host? labelsOf
  cases label? t with
  | none => cases singleLabel <;> rfl
  | some label =>
    dsimp only
    split
    next none =>
      simp only [none]
      cases singleLabel <;> rfl
    next some =>
      have second := List.length_pos_iff.mpr some
      have enough : minLabels singleLabel ≤ (label :: moreLabels (t.drop label.length)).length := by
        cases singleLabel <;> simp only [minLabels, List.length_cons] <;> grind
      rw [if_pos enough]

namespace ReadingLemmas

theorem labelsOf_append {label rest : Text} (read : label? (label ++ rest) = some label) :
    labelsOf (label ++ rest) = label :: moreLabels rest := by
  rw [labelsOf, read]
  dsimp only
  rw [List.drop_left]

theorem moreLabels_cases (rest : Text) :
    moreLabels rest = [] ∨
    ∃ behind, rest = '.' :: behind ∧ labelsOf behind ≠ [] ∧ moreLabels rest = labelsOf behind := by
  cases rest with
  | nil => exact Or.inl (by rw [moreLabels]; simp)
  | cons c behind =>
    by_cases dot : c = '.'
    · subst dot
      rw [moreLabels_dot]
      by_cases none : labelsOf behind = []
      · exact Or.inl none
      · exact Or.inr ⟨behind, rfl, none, rfl⟩
    · exact Or.inl (by rw [moreLabels]; simp [dot])

/-- What stands behind the first of some labels: the text behind them all, or a dot and the other
labels. -/
theorem join_cons_append (label : Text) (labels : List Text) (rest : Text) :
    ∃ after, Text.join ['.'] (label :: labels) ++ rest = label ++ after ∧
      (labels = [] ∧ after = rest ∨
        labels ≠ [] ∧ after = '.' :: (Text.join ['.'] labels ++ rest)) := by
  cases labels with
  | nil => exact ⟨rest, by rw [Text.join_singleton], Or.inl ⟨rfl, rfl⟩⟩
  | cons second labels =>
    refine ⟨_, ?_, Or.inr ⟨List.cons_ne_nil second labels, rfl⟩⟩
    rw [Text.join_cons_cons, List.append_assoc, List.cons_append]

end ReadingLemmas

/-- What is read as labels are labels, and the text begins with them and the dots between them. -/
theorem labelsOf_sound (t : Text) :
    (∀ label ∈ labelsOf t, IsLabel label) ∧ Text.join ['.'] (labelsOf t) <+: t := by
  cases read : label? t with
  | none =>
    rw [labelsOf, read]
    exact ⟨fun _ member => absurd member List.not_mem_nil, List.nil_prefix⟩
  | some label =>
    obtain ⟨isLabel, rest, whole⟩ := label?_eq_some read
    rw [← whole] at read ⊢
    rw [labelsOf_append read]
    rcases moreLabels_cases rest with none | ⟨behind, dot, more, same⟩
    · rw [none, Text.join_singleton]
      exact ⟨by simpa using isLabel, List.prefix_append label rest⟩
    · obtain ⟨sound, begins⟩ := labelsOf_sound behind
      rw [same, Text.join_cons more, dot]
      refine ⟨fun other member => ?_, ?_⟩
      · rcases List.mem_cons.mp member with rfl | later
        · exact isLabel
        · exact sound other later
      · exact (List.prefix_append_right_inj label).mpr (List.cons_prefix_cons.mpr ⟨rfl, begins⟩)
termination_by t.length
decreasing_by
  rw [← whole, dot, List.length_append, List.length_cons]
  omega

/-- Any labels that the text begins with are those that are read, or else the text goes on behind
them with a character that belongs to the labels that are read. -/
theorem labelsOf_longest {labels : List Text} {t rest : Text} (notEmpty : labels ≠ [])
    (isLabel : ∀ label ∈ labels, IsLabel label) (start : t = Text.join ['.'] labels ++ rest) :
    labels.length ≤ (labelsOf t).length ∧
    (labels = labelsOf t ∨
      (Text.join ['.'] labels).length < (Text.join ['.'] (labelsOf t)).length ∧
      ∃ c, rest.head? = some c ∧ (c = '.' ∨ isLabelChar c = true)) := by
  induction labels generalizing t with
  | nil => exact absurd rfl notEmpty
  | cons label labels ih =>
    -- Either `label` is the label that is read, and the others are compared behind it, or it stops
    -- inside that label.
    obtain ⟨after, begins, follows⟩ := join_cons_append label labels rest
    rw [begins] at start
    obtain ⟨longest, read, inLongest⟩ :=
      isPrefix_label? (isLabel label List.mem_cons_self) ⟨after, start.symm⟩
    obtain ⟨longestIsLabel, beyond, whole⟩ := label?_eq_some read
    rw [← whole] at read ⊢
    rw [labelsOf_append read]
    have longEnough := Text.length_le_length_join '.' longest (moreLabels beyond)
    by_cases shorter : label.length < longest.length
    · -- The label stops inside the one that is read, so that no dot can follow it.
      obtain ⟨c, next, member⟩ := next_mem ⟨beyond, whole.trans start⟩ shorter
      have inLabel := isLabelChar_iff.mpr (longestIsLabel.chars c member)
      rcases follows with ⟨rfl, rfl⟩ | ⟨-, rfl⟩
      · rw [Text.join_singleton]
        exact ⟨by simp, Or.inr ⟨Nat.lt_of_lt_of_le shorter longEnough, c, next, Or.inr inLabel⟩⟩
      · cases next
        exact absurd inLabel (by decide)
    · have same : label = longest := inLongest.eq_of_length_le (Nat.le_of_not_lt shorter)
      subst same
      have behindSame : beyond = after := List.append_cancel_left (whole.trans start)
      subst behindSame
      rcases follows with ⟨rfl, rfl⟩ | ⟨more, rfl⟩
      · refine ⟨by simp, ?_⟩
        rcases moreLabels_cases beyond with none | ⟨behind, rfl, more, same⟩
        · exact Or.inl (by rw [none])
        · refine Or.inr ⟨?_, '.', rfl, Or.inl rfl⟩
          rw [same, Text.join_cons more, Text.join_singleton]
          simp
      · rw [moreLabels_dot]
        obtain ⟨count, longestRest⟩ :=
          ih more (fun other member => isLabel other (List.mem_cons_of_mem label member)) rfl
        refine ⟨Nat.succ_le_succ count, ?_⟩
        rcases longestRest with same | ⟨short, next⟩
        · exact Or.inl (congrArg _ same)
        · have readMore : labelsOf (Text.join ['.'] labels ++ rest) ≠ [] :=
            List.length_pos_iff.mp (Nat.lt_of_lt_of_le (List.length_pos_iff.mpr more) count)
          refine Or.inr ⟨?_, next⟩
          rw [Text.join_cons more, Text.join_cons readMore]
          simpa using short

/-! ## Ports -/

/-- What is read as a port is a port, and the text begins with it. -/
theorem portOf_sound (t : Text) : ∃ rest, t = portOf t ++ rest ∧ IsPort (portOf t) rest := by
  unfold portOf
  split
  next rest =>
    dsimp only
    split
    next count =>
      refine ⟨rest.dropWhile Text.isDecimalDigit, ?_, Or.inr ⟨_, rfl, count.1, count.2, ?_, ?_⟩⟩
      · rw [List.cons_append, List.takeWhile_append_dropWhile]
      · exact fun d member => List.mem_takeWhile_imp member
      · intro d next
        have stopped := List.head?_dropWhile_not Text.isDecimalDigit rest
        rw [next] at stopped
        simpa using stopped
    next => exact ⟨_, rfl, Or.inl rfl⟩
  next => exact ⟨t, rfl, Or.inl rfl⟩

/-- A port that the text begins with is the one that is read, unless it is empty and the text begins
with a colon. -/
theorem eq_portOf {port following : Text} (isPort : IsPort port following) :
    port = portOf (port ++ following) ∨ port = [] ∧ following.head? = some ':' := by
  rcases isPort with rfl | ⟨digits, rfl, atLeast, atMost, all, stop⟩
  · cases following with
    | nil => exact Or.inl rfl
    | cons c rest =>
      by_cases colon : c = ':'
      · exact Or.inr ⟨rfl, by rw [colon]; rfl⟩
      · left
        rw [List.nil_append, portOf]
        simp [colon]
  · left
    have none : following.takeWhile Text.isDecimalDigit = [] := by
      cases following with
      | nil => rfl
      | cons d rest => exact List.takeWhile_cons_of_neg (by simp [stop d rfl])
    have run : (digits ++ following).takeWhile Text.isDecimalDigit = digits := by
      rw [List.takeWhile_append_of_pos all, none, List.append_nil]
    rw [List.cons_append, portOf, run, if_pos ⟨atLeast, atMost⟩]

/-! ## Tails -/

namespace ReadingLemmas

theorem closing?_eq_some_iff {opening closing : Char} :
    closing? opening = some closing ↔
      (opening, closing) ∈ [('(', ')'), ('[', ']'), ('\x7b', '\x7d')] := by
  unfold closing?
  split <;> simp_all [eq_comm (a := closing)]

theorem not_isPathChar_bracket {opening closing : Char}
    (brackets : (opening, closing) ∈ [('(', ')'), ('[', ']'), ('\x7b', '\x7d')]) :
    isPathChar opening = false ∧ isPathChar closing = false := by
  simp only [List.mem_cons, List.not_mem_nil, or_false, Prod.mk.injEq] at brackets
  rcases brackets with ⟨rfl, rfl⟩ | ⟨rfl, rfl⟩ | ⟨rfl, rfl⟩ <;> decide

theorem eq_append_cons_drop {start rest : Text} {c : Char} (begins : start <+: rest)
    (next : (rest.drop start.length).head? = some c) :
    rest = start ++ c :: rest.drop (start.length + 1) := by
  obtain ⟨behind, rfl⟩ := begins
  rw [List.drop_left] at next
  obtain ⟨tail, rfl⟩ := List.head?_eq_some_iff.mp next
  rw [← List.drop_drop, List.drop_left, List.drop_succ_cons, List.drop_zero]

end ReadingLemmas

theorem pathOf_char {c : Char} {rest : Text} (isChar : isPathChar c = true) :
    pathOf (c :: rest) = c :: pathOf rest := by
  rw [pathOf, if_pos isChar]

theorem pathOf_group {opening closing : Char} {inside rest : Text}
    (brackets : (opening, closing) ∈ [('(', ')'), ('[', ']'), ('\x7b', '\x7d')])
    (all : ∀ c ∈ inside, isPathChar c = true) :
    pathOf (opening :: (inside ++ closing :: rest)) =
      opening :: (inside ++ closing :: pathOf rest) := by
  obtain ⟨noChar, stop⟩ := not_isPathChar_bracket brackets
  have run : (inside ++ closing :: rest).takeWhile isPathChar = inside := by
    rw [List.takeWhile_append_of_pos all, List.takeWhile_cons_of_neg (by simp [stop]),
      List.append_nil]
  rw [pathOf, if_neg (by simp [noChar]), closing?_eq_some_iff.mpr brackets]
  dsimp only
  rw [run, List.drop_left, if_pos List.head?_cons, ← List.drop_drop, List.drop_left,
    List.drop_succ_cons, List.drop_zero, List.cons_append]

/-- What is read as a path is a path, and the text begins with it. -/
theorem pathOf_sound (t : Text) : IsPath (pathOf t) ∧ pathOf t <+: t := by
  induction t using pathOf.induct with
  | case1 =>
    rw [pathOf]
    exact ⟨.nil, List.nil_prefix⟩
  | case2 c rest isChar ih =>
    rw [pathOf_char isChar]
    exact ⟨.char isChar ih.1, List.cons_prefix_cons.mpr ⟨rfl, ih.2⟩⟩
  | case3 c rest noChar noBracket =>
    rw [pathOf, if_neg noChar, noBracket]
    exact ⟨.nil, List.nil_prefix⟩
  | case4 c rest noChar close bracket inside closed ih =>
    have brackets := closing?_eq_some_iff.mp bracket
    have all : ∀ d ∈ inside, isPathChar d = true := fun d member => List.mem_takeWhile_imp member
    have whole := eq_append_cons_drop (List.takeWhile_prefix isPathChar) closed
    rw [whole, pathOf_group brackets all]
    refine ⟨.group brackets all ih.1, List.cons_prefix_cons.mpr ⟨rfl, ?_⟩⟩
    exact (List.prefix_append_right_inj inside).mpr (List.cons_prefix_cons.mpr ⟨rfl, ih.2⟩)
  | case5 c rest noChar close bracket inside notClosed =>
    rw [pathOf, if_neg noChar, bracket]
    dsimp only
    rw [if_neg notClosed]
    exact ⟨.nil, List.nil_prefix⟩

/-- Any path that the text begins with is a beginning of the one that is read. -/
theorem isPrefix_pathOf {path : Text} (isPath : IsPath path) (rest : Text) :
    path <+: pathOf (path ++ rest) := by
  induction isPath with
  | nil => exact List.nil_prefix
  | char isChar _ ih =>
    rw [List.cons_append, pathOf_char isChar]
    exact List.cons_prefix_cons.mpr ⟨rfl, ih⟩
  | @group opening closing inside path brackets all _ ih =>
    rw [List.cons_append, List.append_assoc, List.cons_append, pathOf_group brackets all]
    refine List.cons_prefix_cons.mpr ⟨rfl, ?_⟩
    exact (List.prefix_append_right_inj inside).mpr (List.cons_prefix_cons.mpr ⟨rfl, ih⟩)

theorem tailOf_sound (t : Text) : IsTail (tailOf t) ∧ tailOf t <+: t := by
  unfold tailOf
  split
  next c rest =>
    split
    next opens =>
      obtain ⟨isPath, begins⟩ := pathOf_sound rest
      exact ⟨Or.inr ⟨c, _, opens, isPath, rfl⟩, List.cons_prefix_cons.mpr ⟨rfl, begins⟩⟩
    next => exact ⟨Or.inl rfl, List.nil_prefix⟩
  next => exact ⟨Or.inl rfl, List.nil_prefix⟩

theorem isPrefix_tailOf {tail : Text} (isTail : IsTail tail) (rest : Text) :
    tail <+: tailOf (tail ++ rest) := by
  rcases isTail with rfl | ⟨c, path, opens, isPath, rfl⟩
  · exact List.nil_prefix
  · rw [List.cons_append, tailOf, if_pos opens]
    exact List.cons_prefix_cons.mpr ⟨rfl, isPrefix_pathOf isPath rest⟩

end UrlScan.Url
