import Mathlib.Data.List.DropRight
import UrlScan.Proofs.Source.Positions
import UrlScan.Proofs.Text.Joined

/-!
# The lines of a text

The lines of a text are its parts between line feeds. A line index holds no lines, only a table of
the offsets where they begin. Here its answers are told in terms of the lines.

A text is taken apart in two ways. `Text.line_induction` takes one line after the other off its
beginning, and `Text.IsLine` says of a part in the middle that it is a whole line. By the former,
every line is such a part (`exists_isLine`), and every offset lies in one (`exists_isLine_at`).

Results:
1. `position_of_isLine`, `lineText?_of_isLine`: the answers about one line.
2. `position_append_left`, `position_append_right`: positions on both sides of a line feed.
3. `position_lt`: a later offset has a later position.
4. `context_eq`: the lines around a line.
5. `ofText_describes`: all answers together. Offsets and positions correspond one to one.
-/

namespace UrlScan

namespace Text

/-- Every text is a line, or it begins with a line and a line feed. -/
@[elab_as_elim]
theorem line_induction {motive : Text → Prop} (last : ∀ line, '\n' ∉ line → motive line)
    (more : ∀ line rest, '\n' ∉ line → motive rest → motive (line ++ '\n' :: rest)) (t : Text) :
    motive t :=
  part_induction '\n' last more t

/-- A text has one line more than line feeds. -/
theorem length_splitOn_lineFeed (t : Text) : (t.splitOn '\n').length = t.count '\n' + 1 := by
  induction t using line_induction with
  | last line free =>
    rw [List.splitOn_eq_singleton free, List.count_eq_zero.mpr free]
    rfl
  | more line rest free ih =>
    rw [List.splitOn_append_cons_self_of_not_mem free, List.length_cons, ih, List.count_append,
      List.count_cons_self, List.count_eq_zero.mpr free, Nat.zero_add]

/-- `IsLine before line after`: in the text `before ++ (line ++ after)` the part in the middle is a
whole line. There is no line feed in it, and only line feeds stand next to it. -/
structure IsLine (before line after : Text) : Prop where
  begins : ∀ c, before.getLast? = some c → c = '\n'
  unbroken : '\n' ∉ line
  ends : ∀ c, after.head? = some c → c = '\n'

namespace IsLine

variable {before line after : Text}

theorem only (free : '\n' ∉ line) : IsLine [] line [] where
  begins _ none := by cases none
  unbroken := free
  ends _ none := by cases none

theorem first (free : '\n' ∉ line) (rest : Text) : IsLine [] line ('\n' :: rest) where
  begins _ none := by cases none
  unbroken := free
  ends _ feed := (Option.some.inj feed).symm

theorem behind (isLine : IsLine before line after) (front : Text) :
    IsLine (front ++ '\n' :: before) line after where
  begins c last := by
    rw [List.getLast?_append_of_ne_nil _ (List.cons_ne_nil _ _), List.getLast?_cons] at last
    cases found : before.getLast? with
    | none =>
      rw [found] at last
      exact (Option.some.inj last).symm
    | some d =>
      rw [found] at last
      exact (Option.some.inj last).symm.trans (isLine.begins d found)
  unbroken := isLine.unbroken
  ends := isLine.ends

theorem inFront (isLine : IsLine before line after) (behind : Text) :
    IsLine before line (after ++ '\n' :: behind) where
  begins := isLine.begins
  unbroken := isLine.unbroken
  ends c first := by
    cases after with
    | nil => exact (Option.some.inj first).symm
    | cons d after => exact isLine.ends c first

end IsLine

/-- Every line of a text, with as many line feeds before it as there are lines before it. -/
theorem exists_isLine {t line : Text} {n : Nat} (found : (t.splitOn '\n')[n]? = some line) :
    ∃ before after, t = before ++ (line ++ after) ∧ IsLine before line after ∧
      before.count '\n' = n := by
  induction t using line_induction generalizing n with
  | last only free =>
    rw [List.splitOn_eq_singleton free] at found
    cases n with
    | zero =>
      cases found
      exact ⟨[], [], (List.append_nil _).symm, .only free, rfl⟩
    | succ n => cases found
  | more first rest free ih =>
    rw [List.splitOn_append_cons_self_of_not_mem free] at found
    cases n with
    | zero =>
      cases found
      exact ⟨[], '\n' :: rest, rfl, .first free rest, rfl⟩
    | succ n =>
      obtain ⟨before, after, whole, isLine, count⟩ := ih found
      refine ⟨first ++ '\n' :: before, after, ?_, isLine.behind first, ?_⟩
      · rw [whole, List.append_assoc, List.cons_append]
      · rw [List.count_append, List.count_cons_self, count, List.count_eq_zero.mpr free,
          Nat.zero_add]

/-- Every offset of a text lies in a line or at the end of one. -/
theorem exists_isLine_at {t : Text} {offset : Nat} (inside : offset ≤ t.length) :
    ∃ before line after k, t = before ++ (line ++ after) ∧ IsLine before line after ∧
      k ≤ line.length ∧ offset = before.length + k := by
  induction t using line_induction generalizing offset with
  | last only free =>
    exact ⟨[], only, [], offset, (List.append_nil _).symm, .only free, inside, (Nat.zero_add _).symm⟩
  | more first rest free ih =>
    rcases Nat.lt_or_ge first.length offset with behind | within
    · rw [List.length_append, List.length_cons] at inside
      have insideRest : offset - (first.length + 1) ≤ rest.length := by omega
      obtain ⟨before, line, after, k, whole, isLine, short, place⟩ := ih insideRest
      refine ⟨first ++ '\n' :: before, line, after, k, ?_, isLine.behind first, short, ?_⟩
      · rw [whole, List.append_assoc, List.cons_append]
      · rw [List.length_append, List.length_cons]
        omega
    · exact ⟨[], first, '\n' :: rest, offset, rfl, .first free rest, within, (Nat.zero_add _).symm⟩

end Text

namespace LineIndex

open Text

theorem mem_between_iff {t : Text} {c : Char} {start stop : Nat} :
    c ∈ (t.take stop).drop start ↔ ∃ i, start ≤ i ∧ i < stop ∧ t[i]? = some c := by
  rw [List.mem_iff_getElem?]
  constructor
  · rintro ⟨i, found⟩
    rw [List.getElem?_drop, List.getElem?_take] at found
    split at found
    next before => exact ⟨start + i, Nat.le_add_right _ _, before, found⟩
    next => cases found
  · rintro ⟨i, after, before, found⟩
    refine ⟨i - start, ?_⟩
    rw [List.getElem?_drop, Nat.add_sub_cancel' after, List.getElem?_take_of_lt before]
    exact found

/-- The line that holds an offset has one beginning. -/
theorem IsLineStart.unique {t : Text} {offset start start' : Nat}
    (isStart : IsLineStart t offset start) (isStart' : IsLineStart t offset start') :
    start = start' := by
  have notBefore {s s' : Nat} (first : IsLineStart t offset s) (second : IsLineStart t offset s') :
      s' ≤ s := by
    refine Nat.le_of_not_lt fun later => ?_
    rcases second.begins with zero | feed
    · omega
    -- The line feed before the later beginning would lie in the line that begins earlier.
    · have short := second.le
      exact first.unbroken (mem_between_iff.mpr ⟨s' - 1, by omega, by omega, feed⟩)
  exact Nat.le_antisymm (notBefore isStart' isStart) (notBefore isStart isStart')

theorem IsLineStart.position {t : Text} {offset start : Nat} (isStart : IsLineStart t offset start) :
    (ofText t).position offset =
      (1 + (((t.take offset).count '\n' : Nat) : Int), (offset : Int) - start + 1) := by
  obtain ⟨start', isStart', place⟩ := position_eq t offset
  rw [place, isStart.unique isStart']

/-! ## Positions -/

section
variable {before line after : Text} (isLine : IsLine before line after)
include isLine

theorem isLineStart_of_isLine {k : Nat} (short : k ≤ line.length) :
    IsLineStart (before ++ (line ++ after)) (before.length + k) before.length where
  le := Nat.le_add_right _ _
  begins := by
    rcases List.eq_nil_or_concat before with rfl | ⟨front, c, rfl⟩
    · exact Or.inl rfl
    · right
      have feed := isLine.begins c (by simp)
      simp [feed]
  unbroken := by
    rw [List.take_length_add_append, List.drop_left, List.take_append_of_le_length short]
    exact fun feed => isLine.unbroken (List.mem_of_mem_take feed)

theorem count_take_of_isLine {k : Nat} (short : k ≤ line.length) :
    ((before ++ (line ++ after)).take (before.length + k)).count '\n' = before.count '\n' := by
  have free : (line.take k).count '\n' = 0 :=
    List.count_eq_zero.mpr fun feed => isLine.unbroken (List.mem_of_mem_take feed)
  rw [List.take_length_add_append, List.take_append_of_le_length short, List.count_append, free,
    Nat.add_zero]

/-- The position of an offset, told by the line that it lies in. -/
theorem position_of_isLine {k : Nat} (short : k ≤ line.length) :
    (ofText (before ++ (line ++ after))).position (before.length + k : Nat) =
      (((before.count '\n' : Nat) : Int) + 1, (k : Int) + 1) := by
  rw [(isLineStart_of_isLine isLine short).position, count_take_of_isLine isLine short]
  refine Prod.ext ?_ ?_
  · exact Int.add_comm _ _
  · dsimp only
    omega

end

/-- What follows behind a line feed does not change the positions before it. -/
theorem position_append_left {a : Text} (b : Text) {offset : Nat} (inside : offset ≤ a.length) :
    (ofText (a ++ '\n' :: b)).position offset = (ofText a).position offset := by
  obtain ⟨before, line, after, k, rfl, isLine, short, rfl⟩ := exists_isLine_at inside
  have whole : before ++ (line ++ after) ++ '\n' :: b =
      before ++ (line ++ (after ++ '\n' :: b)) := by
    simp only [List.append_assoc]
  rw [whole, position_of_isLine (isLine.inFront b) short, position_of_isLine isLine short]

/-- Behind a line feed positions count on by the lines before it, and columns begin anew. -/
theorem position_append_right (a : Text) {b : Text} {offset : Nat} (inside : offset ≤ b.length) :
    (ofText (a ++ '\n' :: b)).position ((a.length + 1 + offset : Nat) : Int) =
      ((a.count '\n' + 1 : Nat) + ((ofText b).position offset).1,
        ((ofText b).position offset).2) := by
  obtain ⟨before, line, after, k, rfl, isLine, short, rfl⟩ := exists_isLine_at inside
  have whole : a ++ '\n' :: (before ++ (line ++ after)) =
      (a ++ '\n' :: before) ++ (line ++ after) := by
    rw [List.append_assoc, List.cons_append]
  have place : a.length + 1 + (before.length + k) = (a ++ '\n' :: before).length + k := by
    rw [List.length_append, List.length_cons]
    omega
  have feeds : (a ++ '\n' :: before).count '\n' = a.count '\n' + 1 + before.count '\n' := by
    rw [List.count_append, List.count_cons_self]
    omega
  rw [whole, place, position_of_isLine (isLine.behind a) short, position_of_isLine isLine short,
    feeds]
  refine Prod.ext ?_ rfl
  dsimp only
  omega

/-- A later offset has a later position: a later line, or a later column in the same line. -/
theorem position_lt (t : Text) {offset offset' : Nat} (order : offset < offset') :
    Prod.Lex (· < ·) (· < ·) ((ofText t).position offset) ((ofText t).position offset') := by
  obtain ⟨start, isStart, place⟩ := position_eq t offset
  have split : t.take offset ++ (t.take offset').drop offset = t.take offset' := by
    have parts := List.take_append_drop offset (t.take offset')
    rwa [List.take_take, Nat.min_eq_left (Nat.le_of_lt order)] at parts
  have feeds := congrArg (List.count '\n') split
  rw [List.count_append] at feeds
  by_cases feed : '\n' ∈ (t.take offset').drop offset
  · obtain ⟨start', -, place'⟩ := position_eq t offset'
    have positive := List.count_pos_iff.mpr feed
    rw [place, place']
    exact .left _ _ (by omega)
  · -- Without a line feed between them both offsets lie in the line that begins at `start`.
    have isStart' : IsLineStart t offset' start := by
      refine ⟨Nat.le_trans isStart.le (Nat.le_of_lt order), isStart.begins, fun inLine => ?_⟩
      obtain ⟨i, after, before, found⟩ := mem_between_iff.mp inLine
      rcases Nat.lt_or_ge i offset with early | late
      · exact isStart.unbroken (mem_between_iff.mpr ⟨i, after, early, found⟩)
      · exact feed (mem_between_iff.mpr ⟨i, late, before, found⟩)
    rw [List.count_eq_zero.mpr feed, Nat.add_zero] at feeds
    rw [place, isStart'.position, feeds]
    exact .right _ (by omega)

theorem position_ne (t : Text) {offset offset' : Nat} (order : offset < offset') :
    (ofText t).position offset ≠ (ofText t).position offset' := by
  intro same
  have later := Prod.lex_def.mp (position_lt t order)
  rw [same] at later
  omega

/-! ## Texts of lines -/

theorem startsFrom_append (base : Nat) (s t : Text) :
    startsFrom base (s ++ t) = startsFrom base s ++ startsFrom (base + s.length) t := by
  induction s generalizing base with
  | nil => rfl
  | cons c rest ih =>
    have place : base + (c :: rest).length = base + 1 + rest.length := by
      rw [List.length_cons]
      omega
    rw [List.cons_append, startsFrom, startsFrom, ih, place]
    split <;> rfl

theorem length_startsFrom (base : Nat) (t : Text) :
    (startsFrom base t).length = t.count '\n' := by
  induction t generalizing base with
  | nil => rfl
  | cons c rest ih =>
    rw [startsFrom, List.count_cons]
    split
    next feed => rw [List.length_cons, ih, feed, if_pos (beq_self_eq_true _)]
    next other => rw [ih, if_neg (by simpa using other), Nat.add_zero]

theorem lineCount_ofText (t : Text) : (ofText t).lineCount = t.count '\n' + 1 := by
  rw [lineCount, ofText, List.length_cons, length_startsFrom]

/-- A line begins where the table of the index says. -/
theorem starts_getElem? {before : Text} (begins : ∀ c, before.getLast? = some c → c = '\n')
    (rest : Text) : (ofText (before ++ rest)).starts[before.count '\n']? = some before.length := by
  rcases List.eq_nil_or_concat before with rfl | ⟨front, c, rfl⟩
  · rfl
  · have feed : c = '\n' := begins c (by simp)
    subst feed
    have index : (front.concat '\n').count '\n' = (startsFrom 0 front).length + 1 := by
      rw [length_startsFrom, List.concat_eq_append, List.count_append, List.count_singleton_self]
    rw [index, ofText, List.getElem?_cons_succ, List.concat_eq_append, List.append_assoc,
      List.singleton_append, startsFrom_append, startsFrom, if_pos rfl,
      List.getElem?_append_right (Nat.le_refl _), Nat.sub_self, List.getElem?_cons_zero, Nat.zero_add,
      List.length_append, List.length_singleton]

/-- Behind the line feed of a line the next one begins. -/
theorem starts_getElem?_next (before : Text) {line : Text} (free : '\n' ∉ line) (rest : Text) :
    (ofText (before ++ (line ++ '\n' :: rest))).starts[before.count '\n' + 1]? =
      some (before.length + line.length + 1) := by
  have next : (ofText ((before ++ (line ++ ['\n'])) ++ rest)).starts[
      (before ++ (line ++ ['\n'])).count '\n']? = some (before ++ (line ++ ['\n'])).length :=
    starts_getElem? (by simp) rest
  simpa [List.count_eq_zero.mpr free, Nat.add_assoc] using next

section
variable {before line after : Text} (isLine : IsLine before line after)
include isLine

/-- The text of a line, told by the line feeds before it. -/
theorem lineText?_of_isLine :
    (ofText (before ++ (line ++ after))).lineText? ((before.count '\n' + 1 : Nat) : Int) =
      some (trimReturns line) := by
  have start := starts_getElem? isLine.begins (line ++ after)
  have index : ((before.count '\n' + 1 : Nat) : Int) - 1 = ((before.count '\n' : Nat) : Int) := by
    omega
  have between : slice (before ++ (line ++ after)) (before.length : Nat)
      ((before.length + line.length : Nat) : Int) = line := by
    rw [slice_natCast, List.take_length_add_append, List.take_left, List.drop_left]
  rw [lineText?, index, signedGet?_natCast, signedGet?_natCast, start, lineCount_ofText]
  cases after with
  | nil =>
    have last : ¬((before.count '\n' + 1 : Nat) : Int) <
        (((before ++ (line ++ [])).count '\n' + 1 : Nat) : Int) := by
      rw [List.count_append, List.append_nil, List.count_eq_zero.mpr isLine.unbroken]
      omega
    have stop : (ofText (before ++ (line ++ []))).text.length = before.length + line.length := by
      rw [ofText, List.append_nil, List.length_append]
    simp only [if_neg last, stop]
    exact congrArg (fun t => some (trimReturns t)) between
  | cons c rest =>
    obtain rfl : c = '\n' := isLine.ends c rfl
    have more : ((before.count '\n' + 1 : Nat) : Int) <
        (((before ++ (line ++ '\n' :: rest)).count '\n' + 1 : Nat) : Int) := by
      rw [List.count_append, List.count_append, List.count_cons_self]
      omega
    have next := starts_getElem?_next before isLine.unbroken rest
    have stop : ((before.length + line.length + 1 : Nat) : Int) - 1 =
      ((before.length + line.length : Nat) : Int) := by omega
    simp only [if_pos more, next, Option.map_some, stop]
    exact congrArg (fun t => some (trimReturns t)) between

end

theorem lineText?_ofText {t line : Text} {n : Nat} (found : (t.splitOn '\n')[n]? = some line) :
    (ofText t).lineText? ((n + 1 : Nat) : Int) = some (trimReturns line) := by
  obtain ⟨before, after, rfl, isLine, rfl⟩ := exists_isLine found
  exact lineText?_of_isLine isLine

theorem exists_lineText? {t : Text} {line : Nat} (first : 1 ≤ line)
    (last : line ≤ (ofText t).lineCount) : ∃ text, (ofText t).lineText? line = some text := by
  rw [lineCount_ofText, ← length_splitOn_lineFeed] at last
  obtain ⟨n, rfl⟩ := Nat.exists_eq_add_of_le' first
  exact ⟨_, lineText?_ofText (List.getElem?_eq_getElem last)⟩

theorem context_eq_nil (index : LineIndex) (line : Int) {radius : Int} (none : radius ≤ 0) :
    index.context line radius = [] :=
  if_pos none

/-- The context of a line is the texts of the lines around it, from the first to the last. -/
theorem context_eq (t : Text) (line : Nat) {radius : Nat} (around : 1 ≤ radius) :
    ((ofText t).context line radius).map some =
      (List.range' (max 1 (line - radius))
        (min (ofText t).lineCount (line + radius) + 1 - max 1 (line - radius))).map
          fun (number : Nat) => (ofText t).lineText? number := by
  have low : max 1 ((line : Int) - radius) = ((max 1 (line - radius) : Nat) : Int) := by omega
  have size : (min ((ofText t).lineCount : Int) (line + radius) + 1 -
      ((max 1 (line - radius) : Nat) : Int)).toNat =
        min (ofText t).lineCount (line + radius) + 1 - max 1 (line - radius) := by omega
  rw [context, if_neg (by omega)]
  dsimp only
  rw [low, size]
  -- None of the lines in the window is missing, so that nothing is filtered out.
  rw [List.map_filterMap_some_eq_filter_map_isSome, List.filter_eq_self.mpr, List.range'_eq_map_range,
    List.map_map]
  · rfl
  · intro text member
    obtain ⟨k, inRange, rfl⟩ := List.mem_map.mp member
    have inWindow := List.mem_range.mp inRange
    obtain ⟨found, isText⟩ : ∃ found,
        (ofText t).lineText? ((max 1 (line - radius) + k : Nat) : Int) = some found :=
      exists_lineText? (by omega) (by omega)
    rw [Int.natCast_add] at isText
    rw [isText]
    rfl

/-- The context of a line has the line itself at its distance from the first line of the window. -/
theorem context_getElem? {t text : Text} {line radius : Nat} (first : 1 ≤ line)
    (found : (ofText t).lineText? line = some text) (last : line ≤ (ofText t).lineCount)
    (around : 1 ≤ radius) :
    ((ofText t).context line radius)[line - max 1 (line - radius)]? = some text := by
  have window := congrArg (·[line - max 1 (line - radius)]?) (context_eq t line around)
  have place : max 1 (line - radius) + (line - max 1 (line - radius)) = line := by omega
  rw [List.getElem?_map, List.getElem?_map, List.getElem?_range' (by omega), Nat.one_mul, place,
    Option.map_some, found] at window
  obtain ⟨inContext, present, same⟩ := Option.map_eq_some_iff.mp window
  rw [present, same]

/-! ## The index as a whole -/

/-- What a line index says about its text. Offsets count from zero, lines and columns from one. -/
structure Describes (index : LineIndex) (t : Text) : Prop where
  /-- There are as many lines as parts between line feeds. -/
  lineCount : index.lineCount = (t.splitOn '\n').length
  /-- The line of an offset is one more than the line feeds before it, and the column counts from
  the place behind the last of them. -/
  position : ∀ offset : Nat, offset ≤ t.length → ∃ start, IsLineStart t offset start ∧
    index.position offset =
      (1 + (((t.take offset).count '\n' : Nat) : Int), (offset : Int) - start + 1)
  line_inside : ∀ offset : Nat, offset ≤ t.length →
    1 ≤ (index.position offset).1 ∧ (index.position offset).1 ≤ index.lineCount
  /-- Positions are in the order of the offsets. -/
  increasing : ∀ offset offset' : Nat, offset < offset' → offset' ≤ t.length →
    Prod.Lex (· < ·) (· < ·) (index.position offset) (index.position offset')
  injective : ∀ offset offset' : Nat, offset ≤ t.length → offset' ≤ t.length →
    index.position offset = index.position offset' → offset = offset'
  /-- Every column of every line, up to the one behind its last character, is a position. -/
  surjective : ∀ (n : Nat) (line : Text), (t.splitOn '\n')[n]? = some line → ∀ k ≤ line.length,
    ∃ offset : Nat, offset ≤ t.length ∧ index.position offset = ((n : Int) + 1, (k : Int) + 1)
  /-- The text of a line is the part between two line feeds without the carriage returns at its
  end. -/
  lineText : ∀ (n : Nat) (line : Text), (t.splitOn '\n')[n]? = some line →
    index.lineText? ((n + 1 : Nat) : Int) = some (line.rdropWhile (· == '\r'))
  /-- The context is the texts of the lines in the window around a line, all of them in order. -/
  context : ∀ line radius : Nat, 1 ≤ radius →
    (index.context line radius).map some =
      (List.range' (max 1 (line - radius))
        (min index.lineCount (line + radius) + 1 - max 1 (line - radius))).map
          fun (number : Nat) => index.lineText? number

/-- A line index tells offsets, positions and lines of its text as they are. -/
theorem ofText_describes (t : Text) : (ofText t).Describes t where
  lineCount := by rw [lineCount_ofText, length_splitOn_lineFeed]
  position offset _ := position_eq t offset
  line_inside offset _ := by
    obtain ⟨start, -, place⟩ := position_eq t offset
    have fewer := (List.take_sublist offset t).count_le '\n'
    rw [place, lineCount_ofText]
    dsimp only
    omega
  increasing _ _ order _ := position_lt t order
  injective offset offset' _ _ same := by
    rcases Nat.lt_trichotomy offset offset' with before | equal | behind
    · exact absurd same (position_ne t before)
    · exact equal
    · exact absurd same.symm (position_ne t behind)
  surjective n line found k short := by
    obtain ⟨before, after, rfl, isLine, rfl⟩ := exists_isLine found
    refine ⟨before.length + k, ?_, position_of_isLine isLine short⟩
    rw [List.length_append, List.length_append]
    omega
  lineText _ _ found := lineText?_ofText found
  context line _ around := context_eq t line around

/-- An empty line, a line that ends with a carriage return, and the empty line behind the end. -/
example : (ofText "a\r\n\nb\n".toList).context 3 2 = ["a".toList, [], "b".toList, []] ∧
    (ofText "a\r\n\nb\n".toList).position 6 = (4, 1) := by
  decide

end LineIndex

end UrlScan
