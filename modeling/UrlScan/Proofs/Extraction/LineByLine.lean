import Mathlib.Algebra.Ring.Nat
import UrlScan.Proofs.Extraction.Delimited
import UrlScan.Proofs.Source.Lines

/-!
# Searching line by line

No URL reaches across the end of a line, and a URL at the end of a line cannot tell whether the text
goes on in the next one. So searching a text is searching its lines, each of them as if it were the
whole text, and changing one line changes nothing about the URLs on the others.

1. `inText_append`: a text may be searched in two parts, cut at a line feed.
2. `onLine_eq`: what is found on a line is what is found in the text of that line alone.
3. `inText_lineByLine`: the occurrences of a text are those of its lines, one line after the other.
-/

namespace UrlScan

/-! ## From a part of a text to the text -/

/-- An occurrence in the text of a line, as an occurrence in a text that has this line with the
given number and at the given offset. -/
def Occurrence.onLine (number offset : Nat) (o : Occurrence) : Occurrence :=
  { o with
    line := number
    start := offset + o.start
    stop := offset + o.stop
    start_lt_stop := Int.add_lt_add_left o.start_lt_stop offset }

/-- An occurrence in a text, as an occurrence in the text with lines in front of it, which have
`offset` characters. -/
def Occurrence.below (lines offset : Nat) (o : Occurrence) : Occurrence :=
  { o with
    line := lines + o.line
    start := offset + o.start
    stop := offset + o.stop
    start_lt_stop := Int.add_lt_add_left o.start_lt_stop offset }

/-- The offset at which the line with number `n` begins, counted from zero: every line in front of
it takes its characters and a line feed. -/
def Text.lineStart (t : Text) (n : Nat) : Nat :=
  (((t.splitOn '\n').take n).map fun line => line.length + 1).sum

/-- The URLs on a line of a text, each with the column where it begins. -/
def Extractor.onLine (e : Extractor) (t : Text) (line : Nat) : List (Text × Int) :=
  ((e.inText (.ofText t)).filter fun o => o.line = (line : Int)).map fun o => (o.url, o.column)

namespace LineByLineLemmas

theorem lineStart_zero (t : Text) : t.lineStart 0 = 0 :=
  rfl

theorem lineStart_succ {line : Text} (free : '\n' ∉ line) (rest : Text) (n : Nat) :
    (line ++ '\n' :: rest).lineStart (n + 1) = line.length + 1 + rest.lineStart n := by
  rw [Text.lineStart, List.splitOn_append_cons_self_of_not_mem free, List.take_succ_cons,
    List.map_cons, List.sum_cons]
  rfl

theorem below_onLine (number offset lines start : Nat) (o : Occurrence) :
    (o.onLine number offset).below lines start = o.onLine (lines + number) (start + offset) := by
  apply Occurrence.ext
  case line => exact (Int.natCast_add lines number).symm
  case start =>
    show (start : Int) + (offset + o.start) = ((start + offset : Nat) : Int) + o.start
    omega
  case stop =>
    show (start : Int) + (offset + o.stop) = ((start + offset : Nat) : Int) + o.stop
    omega
  all_goals rfl

theorem onLine_of_line_eq {o : Occurrence} (first : o.line = 1) : o.onLine 1 0 = o := by
  apply Occurrence.ext
  case line => exact first.symm
  case start => exact Int.zero_add _
  case stop => exact Int.zero_add _
  all_goals rfl

end LineByLineLemmas

open LineByLineLemmas

/-- A found URL, as found in a text with `offset` characters in front. -/
def Found.behind (offset : Nat) (found : Found) : Found :=
  { found with start := offset + found.start }

/-- A matcher finds in a text what it finds before a line feed and what it finds behind it. -/
theorem Matcher.findAll_append {schemes : List Text}
    (valid : ∀ scheme ∈ schemes, isScheme scheme = true) (singleLabel : Bool) (a b : Text) :
    let m := Matcher.ofSchemes schemes singleLabel
    (m.findAll (a ++ '\n' :: b)).map (fun found => (found.start, found.raw.text)) =
      (m.findAll a ++ (m.findAll b).map (Found.behind (a.length + 1))).map
        fun found => (found.start, found.raw.text) := by
  intro m
  have delimiter : Url.isDelimiter '\n' = true := by decide
  have before : Url.LeftmostLongest schemes singleLabel a 0 _ := Url.leftmostLongest_findAll valid a
  have behind : Url.LeftmostLongest schemes singleLabel b 0 _ := Url.leftmostLongest_findAll valid b
  have parts := before.append delimiter valid (Nat.zero_le _) (behind.behind delimiter)
  rw [List.map_append, List.map_map]
  rw [List.map_map] at parts
  exact Url.leftmostLongest_unique (Url.leftmostLongest_findAll valid _) parts

namespace Extractor

theorem one_le_line {e : Extractor} {t : Text} {o : Occurrence}
    (member : o ∈ e.inText (.ofText t)) : 1 ≤ o.line := by
  have placed := (e.inText_placedInTurn ⟨rfl, rfl⟩).placed o member
  have line := placed.line_eq
  omega

/-- In a text without line feeds everything is on the first line. -/
theorem line_eq_one {e : Extractor} {line : Text} (free : '\n' ∉ line) {o : Occurrence}
    (member : o ∈ e.inText (.ofText line)) : o.line = 1 := by
  have placed := (e.inText_placedInTurn ⟨rfl, rfl⟩).placed o member
  have none : (line.take o.start.toNat).count '\n' = 0 :=
    List.count_eq_zero.mpr fun feed => free (List.mem_of_mem_take feed)
  have isFirst := placed.line_eq
  rw [show (Document.ofText line).text = line from rfl, none] at isFirst
  exact isFirst

/-- A text without line feeds has no other line. -/
theorem filter_later_line {e : Extractor} {line : Text} (free : '\n' ∉ line) (n : Nat) :
    (e.inText (.ofText line)).filter (fun o => o.line = ((n + 2 : Nat) : Int)) = [] := by
  refine List.filter_eq_nil_iff.mpr fun o member => ?_
  rw [line_eq_one free member, decide_eq_true_eq]
  omega

section
variable {e : Extractor} (noContext : e.contextLines ≤ 0) {found : Found} (stop stop' : Int)
include noContext

theorem occurrence_append_left {a : Text} (b : Text) (inside : found.start ≤ a.length) :
    e.occurrence (.ofText (a ++ '\n' :: b)) ⟨0, stop, .text⟩ found =
      e.occurrence (.ofText a) ⟨0, stop', .text⟩ found := by
  have position : (LineIndex.ofText (a ++ '\n' :: b)).position (0 + found.start) =
      (LineIndex.ofText a).position (0 + found.start) := by
    rw [Int.zero_add, LineIndex.position_append_left b inside]
  apply Occurrence.ext
  case line => exact congrArg Prod.fst position
  case column => exact congrArg Prod.snd position
  case context =>
    rw [occurrence_context, occurrence_context, LineIndex.context_eq_nil _ _ noContext,
      LineIndex.context_eq_nil _ _ noContext]
  all_goals rfl

theorem occurrence_append_right (a : Text) {b : Text} (inside : found.start ≤ b.length) :
    e.occurrence (.ofText (a ++ '\n' :: b)) ⟨0, stop, .text⟩ (found.behind (a.length + 1)) =
      (e.occurrence (.ofText b) ⟨0, stop', .text⟩ found).below (a.count '\n' + 1)
        (a.length + 1) := by
  have position : (LineIndex.ofText (a ++ '\n' :: b)).position
        (0 + ((a.length + 1 + found.start : Nat) : Int)) =
      ((a.count '\n' + 1 : Nat) + ((LineIndex.ofText b).position (0 + found.start)).1,
        ((LineIndex.ofText b).position (0 + found.start)).2) := by
    rw [Int.zero_add, Int.zero_add, LineIndex.position_append_right a inside]
  apply Occurrence.ext
  case line => exact congrArg Prod.fst position
  case column => exact congrArg Prod.snd position
  case start =>
    show (0 : Int) + ((a.length + 1 + found.start : Nat) : Int) =
      ((a.length + 1 : Nat) : Int) + (0 + (found.start : Int))
    omega
  case stop =>
    show (0 : Int) + ((a.length + 1 + found.start + found.url.length : Nat) : Int) =
      ((a.length + 1 : Nat) : Int) + (0 + ((found.start + found.url.length : Nat) : Int))
    omega
  case context =>
    show _ = (e.occurrence (.ofText b) ⟨0, stop', .text⟩ found).context
    rw [occurrence_context, occurrence_context, LineIndex.context_eq_nil _ _ noContext,
      LineIndex.context_eq_nil _ _ noContext]
  all_goals rfl

end

section
variable {schemes : List Text} (valid : ∀ scheme ∈ schemes, isScheme scheme = true)
  (singleLabel : Bool)
include valid

/-- The occurrences in a text on both sides of a line feed: those of the text before it, and those of
the text behind it further down. -/
theorem inText_append (a b : Text) :
    let e : Extractor := ⟨.ofSchemes schemes singleLabel, 0⟩
    e.inText (.ofText (a ++ '\n' :: b)) =
      e.inText (.ofText a) ++
        (e.inText (.ofText b)).map (Occurrence.below (a.count '\n' + 1) (a.length + 1)) := by
  intro e
  have noContext : e.contextLines ≤ 0 := Int.le_refl 0
  have sameWords := Matcher.findAll_append valid singleLabel a b
  have starts (t : Text) {found : Found} (member : found ∈ e.matcher.findAll t) :
      found.start ≤ t.length :=
    Nat.le_trans (Nat.le_of_lt found.start_lt_stop) (e.matcher.findAll_place member).1
  have same : (e.matcher.findAll (a ++ '\n' :: b)).map
        (e.occurrence (.ofText (a ++ '\n' :: b)) ⟨0, (a ++ '\n' :: b).length, .text⟩) =
      (e.matcher.findAll a ++ (e.matcher.findAll b).map (Found.behind (a.length + 1))).map
        (e.occurrence (.ofText (a ++ '\n' :: b)) ⟨0, (a ++ '\n' :: b).length, .text⟩) :=
    map_eq_map_of_agree sameWords fun found found' _ equal => by
      obtain ⟨place, text⟩ := Prod.mk.inj equal
      exact e.occurrence_congr (by rw [place]) text
  rw [inText_eq, inText_eq, inText_eq]
  refine same.trans ?_
  rw [List.map_append, List.map_map, List.map_map]
  congr 1
  · refine List.map_congr_left fun found member => ?_
    exact occurrence_append_left noContext _ _ b (starts a member)
  · refine List.map_congr_left fun found member => ?_
    exact occurrence_append_right noContext _ _ a (starts b member)

/-- What is found on the first line does not depend on the lines behind it. -/
theorem onLine_append_one (line rest : Text) :
    let e : Extractor := ⟨.ofSchemes schemes singleLabel, 0⟩
    e.onLine (line ++ '\n' :: rest) 1 = e.onLine line 1 := by
  intro e
  have later : ((e.inText (.ofText rest)).map
      (Occurrence.below (line.count '\n' + 1) (line.length + 1))).filter
        (fun o => o.line = ((1 : Nat) : Int)) = [] := by
    refine List.filter_eq_nil_iff.mpr fun o member => ?_
    obtain ⟨below, inRest, rfl⟩ := List.mem_map.mp member
    have positive := one_le_line inRest
    show ¬decide (((line.count '\n' + 1 : Nat) : Int) + below.line = ((1 : Nat) : Int)) = true
    rw [decide_eq_true_eq]
    omega
  rw [onLine, inText_append valid, List.filter_append, later, List.append_nil]
  rfl

/-- What is found on a later line is what is found there when the first line is taken away. -/
theorem onLine_append_succ {line : Text} (free : '\n' ∉ line) (rest : Text) (n : Nat) :
    let e : Extractor := ⟨.ofSchemes schemes singleLabel, 0⟩
    e.onLine (line ++ '\n' :: rest) (n + 2) = e.onLine rest (n + 1) := by
  intro e
  have earlier : (e.inText (.ofText line)).filter (fun o => o.line = ((n + 2 : Nat) : Int)) = [] :=
    filter_later_line free n
  have lines : ((fun o : Occurrence => decide (o.line = ((n + 2 : Nat) : Int))) ∘
      Occurrence.below (line.count '\n' + 1) (line.length + 1)) =
        fun o => decide (o.line = ((n + 1 : Nat) : Int)) := by
    funext o
    show decide (((line.count '\n' + 1 : Nat) : Int) + o.line = ((n + 2 : Nat) : Int)) = _
    rw [List.count_eq_zero.mpr free]
    exact decide_eq_decide.mpr (by omega)
  rw [onLine, inText_append valid, List.filter_append, earlier, List.nil_append, List.filter_map,
    lines, List.map_map]
  rfl

/-- What is found on a line of a text is what is found in the text of the line alone; behind the
last line nothing is found. -/
theorem onLine_eq (t : Text) (n : Nat) :
    let e : Extractor := ⟨.ofSchemes schemes singleLabel, 0⟩
    e.onLine t (n + 1) = ((t.splitOn '\n')[n]?.map fun line => e.onLine line 1).getD [] := by
  intro e
  induction t using Text.line_induction generalizing n with
  | last line free =>
    rw [List.splitOn_eq_singleton free]
    cases n with
    | zero => rfl
    | succ n =>
      rw [onLine, filter_later_line free n]
      rfl
  | more line rest free ih =>
    rw [List.splitOn_append_cons_self_of_not_mem free]
    cases n with
    | zero => exact onLine_append_one valid singleLabel line rest
    | succ n =>
      rw [onLine_append_succ valid singleLabel free rest n]
      exact ih n

/-- Searching a text is searching its lines one after the other, each as if it were the whole text.
An occurrence in a line keeps its column and gets the number of the line, and its offsets count from
the beginning of the text. So whatever happens to the other lines, the URLs on a line and their
columns stay the same. -/
theorem inText_lineByLine (t : Text) :
    let e : Extractor := ⟨.ofSchemes schemes singleLabel, 0⟩
    e.inText (.ofText t) =
      ((t.splitOn '\n').mapIdx fun n line =>
        (e.inText (.ofText line)).map (Occurrence.onLine (n + 1) (t.lineStart n))).flatten ∧
    ∀ (t' : Text) (n n' : Nat), (t.splitOn '\n')[n]? = (t'.splitOn '\n')[n']? →
      e.onLine t (n + 1) = e.onLine t' (n' + 1) := by
  intro e
  refine ⟨?_, fun t' n n' same => ?_⟩
  · have alone {line : Text} (free : '\n' ∉ line) :
        (e.inText (.ofText line)).map (Occurrence.onLine 1 0) = e.inText (.ofText line) := by
      refine (List.map_congr_left fun o member => ?_).trans (List.map_id _)
      exact onLine_of_line_eq (line_eq_one free member)
    induction t using Text.line_induction with
    | last line free =>
      rw [List.splitOn_eq_singleton free, List.mapIdx_singleton, List.flatten_singleton,
        lineStart_zero, Nat.zero_add, alone free]
    | more line rest free ih =>
      rw [inText_append valid, ih, List.splitOn_append_cons_self_of_not_mem free, List.mapIdx_cons,
        List.flatten_cons, lineStart_zero, Nat.zero_add, alone free, List.map_flatten]
      congr 2
      refine (List.mapIdx_eq_iff.mpr fun n => ?_).symm
      rw [List.getElem?_map, List.getElem?_mapIdx, Option.map_map]
      congr 1
      funext other
      rw [Function.comp_apply, List.map_map, lineStart_succ free, List.count_eq_zero.mpr free]
      refine List.map_congr_left fun o _ => ?_
      rw [Function.comp_apply, below_onLine, Nat.zero_add, Nat.add_comm 1]
  · rw [onLine_eq valid, onLine_eq valid, same]

end

/-- An address in the middle of three lines, and the same line as the first one of another text. -/
theorem inText_lineByLine_three :
    let e : Extractor := ⟨.ofSchemes ["http".toList] false, 0⟩
    let t : Text := "see\nhttp://a.b.\n.c".toList
    let t' : Text := "http://a.b.\n".toList
    (∀ scheme ∈ ["http".toList], isScheme scheme = true) ∧
      (t.splitOn '\n')[1]? = (t'.splitOn '\n')[0]? ∧
      e.inText (.ofText t) =
        ((t.splitOn '\n').mapIdx fun n line =>
          (e.inText (.ofText line)).map (Occurrence.onLine (n + 1) (t.lineStart n))).flatten ∧
      e.onLine t 2 = e.onLine t' 1 :=
  ⟨by decide, by decide, (inText_lineByLine (by decide) false _).1,
    (inText_lineByLine (by decide) false _).2 _ 1 0 (by decide)⟩

end Extractor

end UrlScan
