import UrlScan.Proofs.Extraction.Placement
import UrlScan.Proofs.Source.Lines
import UrlScan.Proofs.Url.Parts

/-!
# The URL in its context

An occurrence comes with the lines around it. The line of the URL is one of them, at the index that
the line number gives, and the URL stands in it at the column of the occurrence. The lines of a
context are without the carriage returns at their ends, but a URL has no carriage return in it and
no line feed either, so it lies in what is kept.

1. `not_isDelimiter_of_found`: no reported URL has a delimiter in it.
2. `exists_line`: the line that an occurrence stands in, by its number and column.
3. `shown_in_line`: a text without delimiters stands at its column of the kept line.
4. `inSpans_shownInContext`: where the context of an occurrence shows its URL.
-/

namespace UrlScan

open Url.ReadingLemmas

/-- No delimiter is part of a reported URL. -/
theorem Matcher.not_isDelimiter_of_found {schemes : List Text}
    (valid : ∀ scheme ∈ schemes, isScheme scheme = true) {singleLabel : Bool} {t : Text}
    {found : Found} (isFound : found ∈ (Matcher.ofSchemes schemes singleLabel).findAll t) {c : Char}
    (member : c ∈ found.url) : Url.isDelimiter c = false := by
  obtain ⟨following, -, parts⟩ := Url.findAll_hasParts isFound
  exact parts.isWord.not_isDelimiter valid (found.raw.trimmed_isPrefix.subset member)

/-- A text without delimiters that begins in a line ends in it, before any carriage return at the end
of the line. -/
theorem LineIndex.shown_in_line {before line after url : Text}
    (isLine : Text.IsLine before line after) {k : Nat} (short : k ≤ line.length)
    (stands : url <+: (line ++ after).drop k) (notEmpty : url ≠ [])
    (free : ∀ c ∈ url, Url.isDelimiter c = false) :
    ((trimReturns line).drop k).take url.length = url := by
  have notIn {c : Char} (delimiter : Url.isDelimiter c = true) : c ∉ url := by
    intro member
    rw [free c member] at delimiter
    cases delimiter
  rw [List.drop_append_of_le_length short] at stands
  have inLine : url <+: line.drop k := by
    refine List.prefix_of_prefix_length_le stands (List.prefix_append _ _) ?_
    refine Nat.le_of_not_lt fun longer => ?_
    -- A longer text would have the character behind the line in it, and that is a line feed.
    obtain ⟨c, next, member⟩ := next_mem stands longer
    rw [isLine.ends c next] at member
    exact notIn (by decide) member
  have kept : line.take k ++ url <+: trimReturns line := by
    refine isPrefix_trimEnd ?_ fun c last => ?_
    · obtain ⟨rest, whole⟩ := inLine
      exact ⟨rest, by rw [List.append_assoc, whole, List.take_append_drop]⟩
    · rw [List.getLast?_append_of_ne_nil _ notEmpty] at last
      rw [beq_eq_false_iff_ne]
      rintro rfl
      exact notIn (by decide) (List.mem_of_getLast? last)
  obtain ⟨rest, whole⟩ := kept
  have length : (line.take k).length = k := List.length_take_of_le short
  rw [← whole, List.append_assoc, List.drop_append_of_le_length (Nat.le_of_eq length.symm),
    List.drop_of_length_le (Nat.le_of_eq length), List.nil_append, List.take_left]

/-- The line that an occurrence stands in: line and column of the occurrence tell which line it is and
where its URL begins there. -/
theorem Occurrence.PlacedIn.exists_line {t : Text} {o : Occurrence} (placed : o.PlacedIn t) :
    ∃ before line after k, t = before ++ (line ++ after) ∧ Text.IsLine before line after ∧
      k ≤ line.length ∧ o.line = ((before.count '\n' + 1 : Nat) : Int) ∧
      o.column = (k : Int) + 1 ∧ o.url <+: (line ++ after).drop k := by
  have notEmpty := placed.not_empty
  have stopLe := placed.stop_le
  obtain ⟨start, isStart⟩ := Int.eq_ofNat_of_zero_le placed.start_nonneg
  obtain ⟨stop, isStop⟩ := Int.eq_ofNat_of_zero_le
    (Int.le_trans placed.start_nonneg (Int.le_of_lt notEmpty))
  have inside : start ≤ t.length := by omega
  obtain ⟨before, line, after, k, rfl, isLine, short, rfl⟩ := Text.exists_isLine_at inside
  refine ⟨before, line, after, k, rfl, isLine, short, ?_, ?_, ?_⟩
  · rw [placed.line_eq, isStart, Int.toNat_natCast, LineIndex.count_take_of_isLine isLine short]
    omega
  · obtain ⟨lineStart, isLineStart, column⟩ := placed.column_eq
    rw [isStart, Int.toNat_natCast] at isLineStart
    have same := isLineStart.unique (LineIndex.isLineStart_of_isLine isLine short)
    rw [column, isStart, same]
    omega
  · rw [← placed.url_eq, isStart, isStop, slice_natCast, List.drop_take,
      List.drop_length_add_append]
    exact List.take_prefix _ _

/-- Where the lines around an occurrence show its URL. The URL may not have a delimiter in it, for a
carriage return at the end of a line is not shown. -/
theorem Occurrence.PlacedIn.shown {t : Text} {o : Occurrence} (placed : o.PlacedIn t) {radius : Nat}
    (around : 1 ≤ radius) (context : o.context = (LineIndex.ofText t).context o.line radius)
    (notEmpty : o.url ≠ []) (free : ∀ c ∈ o.url, Url.isDelimiter c = false) :
    ∃ (i k : Nat) (line : Text), (i : Int) = o.line - max 1 (o.line - radius) ∧
      o.context[i]? = some line ∧ (LineIndex.ofText t).lineText? o.line = some line ∧
      o.column = (k : Int) + 1 ∧ (line.drop k).take o.url.length = o.url := by
  obtain ⟨before, line, after, k, whole, isLine, short, number, column, stands⟩ :=
    placed.exists_line
  have text : (LineIndex.ofText t).lineText? ((before.count '\n' + 1 : Nat) : Int) =
      some (LineIndex.trimReturns line) := by
    rw [whole]
    exact LineIndex.lineText?_of_isLine isLine
  have last : before.count '\n' + 1 ≤ (LineIndex.ofText t).lineCount := by
    rw [LineIndex.lineCount_ofText, whole, List.count_append]
    omega
  have window : o.context[before.count '\n' + 1 - max 1 (before.count '\n' + 1 - radius)]? =
      some (LineIndex.trimReturns line) := by
    rw [context, number]
    exact LineIndex.context_getElem? (Nat.le_add_left 1 _) text last around
  refine ⟨_, k, LineIndex.trimReturns line, ?_, window, ?_, column, ?_⟩
  · omega
  · rw [number, text]
  · exact LineIndex.shown_in_line isLine short stands notEmpty free

namespace Extractor

/-- The context of an occurrence has the line of the URL at the index that its number gives, and in
this line the URL stands at the column of the occurrence. -/
theorem inSpans_shownInContext {schemes : List Text}
    (valid : ∀ scheme ∈ schemes, isScheme scheme = true) (singleLabel : Bool) {radius : Nat}
    (around : 1 ≤ radius) {d : Document} (lines : d.lines = LineIndex.ofText d.text)
    {spans : List Candidate}
    (inside : ∀ span ∈ spans, 0 ≤ span.start ∧ span.start ≤ span.stop ∧ span.stop ≤ d.text.length)
    {o : Occurrence}
    (member : o ∈ Extractor.inSpans ⟨.ofSchemes schemes singleLabel, radius⟩ d spans) :
    ∃ (i k : Nat) (line : Text), (i : Int) = o.line - max 1 (o.line - radius) ∧
      o.context[i]? = some line ∧ d.lines.lineText? o.line = some line ∧
      o.column = (k : Int) + 1 ∧ (line.drop k).take o.url.length = o.url := by
  obtain ⟨span, memberSpan, member⟩ := List.mem_flatMap.mp member
  obtain ⟨found, isFound, rfl⟩ := List.mem_map.mp member
  obtain ⟨nonneg, order, insideText⟩ := inside span memberSpan
  obtain ⟨-, -, placed⟩ := occurrence_placedIn _ lines nonneg order insideText isFound
  rw [lines]
  refine placed.shown around ?_ found.raw.trimmed_ne_nil fun c inUrl => ?_
  · rw [occurrence_context, lines]
  · exact Matcher.not_isDelimiter_of_found valid isFound inUrl

/-- A URL at the end of the second line of a text, before a carriage return. -/
theorem inSpans_shownInContext_crlf :
    let d := Document.ofText "x\r\né http://a.b/c\r\n".toList
    let e : Extractor := ⟨.ofSchemes ["http".toList] false, (1 : Nat)⟩
    ∃ o ∈ e.inSpans d [⟨0, 19, .text⟩], o.url = "http://a.b/c".toList ∧
      ∃ (i k : Nat) (line : Text), (i : Int) = o.line - max 1 (o.line - (1 : Nat)) ∧
        o.context[i]? = some line ∧ d.lines.lineText? o.line = some line ∧
        o.column = (k : Int) + 1 ∧ (line.drop k).take o.url.length = o.url := by
  intro d e
  have urls : (e.inSpans d [⟨0, 19, .text⟩]).map (·.url) = ["http://a.b/c".toList] := by
    decide +kernel
  obtain ⟨o, member, url⟩ := List.mem_map.mp (urls ▸ List.mem_singleton_self _)
  have inside : ∀ span ∈ [(⟨0, 19, .text⟩ : Candidate)],
      0 ≤ span.start ∧ span.start ≤ span.stop ∧ span.stop ≤ d.text.length := by
    intro span only
    rw [List.mem_singleton.mp only]
    decide
  exact ⟨o, member, url,
    inSpans_shownInContext (by decide) false (Nat.le_refl 1) rfl inside member⟩

end Extractor

end UrlScan
