import UrlScan.Proofs.Extraction.Placement
import UrlScan.Proofs.Url.Delimiters

/-!
# Candidates between delimiters

A string literal stands between quotes, and a comment often ends before white space. The occurrences
in such a candidate are those that a search of the whole text finds there: neither does the text
around the candidate hide a URL in it, nor does cutting the candidate out of the text bring one
about. Only the origin differs.

Results:
1. `inSpan_eq_between`: a candidate between two boundaries of the text.
2. `inSpans_delimited`: a candidate that begins with a delimiter, and ends with one or with the text.
-/

namespace UrlScan

attribute [ext] Occurrence

namespace Extractor

/-- Lists whose items correspond to each other agree in everything that the correspondence
determines. -/
theorem map_eq_map_of_agree {α β γ δ : Type} {as : List α} {bs : List β} {f : α → γ} {g : β → γ}
    {f' : α → δ} {g' : β → δ} (same : as.map f = bs.map g)
    (agree : ∀ a, ∀ b ∈ bs, f a = g b → f' a = g' b) : as.map f' = bs.map g' := by
  induction as generalizing bs with
  | nil =>
    cases bs with
    | nil => rfl
    | cons b bs => cases same
  | cons a as ih =>
    cases bs with
    | nil => cases same
    | cons b bs =>
      rw [List.map_cons, List.map_cons, List.cons.injEq] at same
      rw [List.map_cons, List.map_cons, agree a b List.mem_cons_self same.1,
        ih same.2 fun a b member => agree a b (List.mem_cons_of_mem _ member)]

section
variable (e : Extractor) {d : Document}

/-- An occurrence is determined by the place and the text of the URL, apart from its origin. -/
theorem occurrence_congr {span span' : Candidate} {found found' : Found}
    (place : span.start + found.start = span'.start + found'.start)
    (text : found.raw.text = found'.raw.text) :
    e.occurrence d span found = { e.occurrence d span' found' with origin := span.origin } := by
  have url : found.url = found'.url := by
    rw [Found.url, Found.url, Url.trimmed, Url.trimmed, text]
  have line : (e.occurrence d span found).line = (e.occurrence d span' found').line := by
    rw [occurrence_line, occurrence_line, place]
  apply Occurrence.ext
  · exact url
  · exact line
  · rw [occurrence_column, place]
    rfl
  · exact place
  · rw [occurrence_stop, Found.stop, url]
    dsimp only
    rw [occurrence_stop, Found.stop]
    omega
  · rw [occurrence_context, line]
    rfl
  · rfl

end

section
variable {schemes : List Text} (valid : ∀ scheme ∈ schemes, isScheme scheme = true)
  (singleLabel : Bool) (contextLines : Int) (d : Document) (origin : Origin) {start stop : Nat}
include valid

/-- A candidate between two boundaries of the text has the occurrences that the whole text has
there. -/
theorem inSpan_eq_between (order : start < stop) (inside : stop ≤ d.text.length)
    (boundary : Url.IsBoundary d.text start) (boundary' : Url.IsBoundary d.text stop) :
    let e : Extractor := ⟨.ofSchemes schemes singleLabel, contextLines⟩
    e.inSpan d ⟨start, stop, origin⟩ =
      ((e.inText d).filter fun o => (start : Int) ≤ o.start ∧ o.start < (stop : Int)).map
        fun o => { o with origin } := by
  intro e
  let between := (d.text.take stop).drop start
  let words := (e.matcher.findAll d.text).map fun found => (found.start, found.raw.text)
  have found : Url.LeftmostLongest schemes singleLabel d.text 0 words :=
    Url.leftmostLongest_findAll valid d.text
  -- The whole text yields the words between the boundaries as well, only at other offsets.
  have restricted := (found.dropBefore valid boundary (Nat.zero_le start)).between valid inside
    boundary boundary' (Nat.le_of_lt order) (Nat.add_zero start).symm
  have same := Url.leftmostLongest_unique (Url.leftmostLongest_findAll valid between) restricted
  rw [List.filter_filter, List.filter_map, List.map_map] at same
  rw [inText_eq, List.filter_map, List.map_map, inSpan, slice_span rfl rfl]
  have sameFilter : (e.matcher.findAll d.text).filter
        ((fun o : Occurrence => decide ((start : Int) ≤ o.start ∧ o.start < (stop : Int))) ∘
          e.occurrence d ⟨0, d.text.length, .text⟩) =
      (e.matcher.findAll d.text).filter fun found => found.start < stop && start ≤ found.start := by
    refine List.filter_congr fun found _ => ?_
    rw [Function.comp_apply, occurrence_start, Int.zero_add, ← Bool.decide_and]
    exact decide_eq_decide.mpr (by omega)
  rw [sameFilter]
  refine map_eq_map_of_agree same fun found found' member equal => ?_
  have inRange := (List.mem_filter.mp member).2
  simp only [Bool.and_eq_true, decide_eq_true_eq] at inRange
  rw [Function.comp_apply, Prod.mk.injEq] at equal
  refine occurrence_congr e ?_ equal.2
  dsimp only at equal ⊢
  omega

/-- A candidate that begins with a delimiter, and ends with one or with the text, has exactly the
occurrences that a search of the whole text finds in its span: the same URLs at the same places,
lines and columns, with the same context. -/
theorem inSpans_delimited (order : start < stop) (inside : stop ≤ d.text.length)
    (opens : ∃ c, d.text[start]? = some c ∧ Url.isDelimiter c = true)
    (closes : stop = d.text.length ∨
      ∃ c, d.text[stop - 1]? = some c ∧ Url.isDelimiter c = true) :
    let e : Extractor := ⟨.ofSchemes schemes singleLabel, contextLines⟩
    e.inSpans d [⟨start, stop, origin⟩] =
      ((e.inText d).filter fun o => (start : Int) ≤ o.start ∧ o.start < (stop : Int)).map
        fun o => { o with origin } := by
  intro e
  have boundary : Url.IsBoundary d.text start := by
    obtain ⟨c, present, delimiter⟩ := opens
    refine Or.inr fun other same => ?_
    cases present.symm.trans same
    exact delimiter
  have boundary' : Url.IsBoundary d.text stop := by
    rcases closes with atEnd | ⟨c, present, delimiter⟩
    -- At the end of the text there is no character that could fail to be a delimiter.
    · refine Or.inr fun other impossible => ?_
      rw [atEnd, List.getElem?_eq_none (Nat.le_refl _)] at impossible
      cases impossible
    · obtain ⟨last, rfl⟩ := Nat.exists_eq_succ_of_ne_zero (Nat.ne_of_gt (Nat.zero_lt_of_lt order))
      refine Or.inl fun other same => ?_
      cases present.symm.trans same
      exact delimiter
  rw [inSpans, List.flatMap_singleton]
  exact inSpan_eq_between valid singleLabel contextLines d origin order inside boundary boundary'

end

/-- A string literal in a line of code, and the same line as plain text. -/
theorem inSpans_delimited_literal :
    let d := Document.ofText "get(\"http://a.b/c.\");".toList
    let e : Extractor := ⟨.ofSchemes ["http".toList] false, 0⟩
    4 < 19 ∧ 19 ≤ d.text.length ∧
      e.inSpans d [⟨(4 : Nat), (19 : Nat), .string⟩] =
        ((e.inText d).filter fun o =>
          ((4 : Nat) : Int) ≤ o.start ∧ o.start < ((19 : Nat) : Int)).map
            fun o => { o with origin := .string } :=
  ⟨by decide, by decide,
    inSpans_delimited (by decide) false 0 _ .string (by decide) (by decide)
      ⟨'"', by decide, by decide⟩ (Or.inr ⟨'"', by decide, by decide⟩)⟩

end Extractor

end UrlScan
