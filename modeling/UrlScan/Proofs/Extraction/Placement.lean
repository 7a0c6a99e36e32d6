import UrlScan.Extraction
import UrlScan.Proofs.Source.Offsets
import UrlScan.Proofs.Source.Positions
import UrlScan.Proofs.SyntaxTree.Order
import UrlScan.Proofs.Url.Places

/-!
# The places of occurrences

An occurrence tells its place in the text of the document: what stands between its bounds, the line
and the column. Its offset is put together from the offset of a candidate and the offset of a URL in
it, and the offset of a candidate comes from bytes. This file shows that the places fit the text,
and that the occurrences of a document follow one another without overlap.

1. `Candidate.InTurn` is what the candidates of a document have in common, whether they come from a
   syntax tree or are the whole text.
2. `Occurrence.PlacedIn` is what an occurrence says about its place, and `PlacedInTurn` the same for
   all occurrences of a document.
3. `treeCandidates?_inTurn` and `textCandidates_inTurn` establish the former, and
   `inSpans_placedInTurn` leads from the former to the latter.
-/

namespace UrlScan

/-- Candidates of a text of the given length: they lie in it, none is empty, and each begins behind
the end of the one before it. -/
structure Candidate.InTurn (length : Nat) (spans : List Candidate) : Prop where
  inside : ∀ span ∈ spans, 0 ≤ span.start ∧ span.start < span.stop ∧ span.stop ≤ length
  apart : spans.Pairwise fun a b => a.stop ≤ b.start

/-- What an occurrence says about its place holds of the text: its bounds lie in the text and are
accepted as the bounds of an occurrence, its URL stands between them, and line and column are those
of its first character. -/
structure Occurrence.PlacedIn (t : Text) (o : Occurrence) : Prop where
  start_nonneg : 0 ≤ o.start
  not_empty : o.start < o.stop
  stop_le : o.stop ≤ t.length
  accepted : ofSpan o.url o.line o.column o.start o.stop o.context o.origin = .ok o
  url_eq : slice t o.start o.stop = o.url
  line_eq : o.line = 1 + ((t.take o.start.toNat).count '\n' : Nat)
  column_eq : ∃ lineStart : Nat, LineIndex.IsLineStart t o.start.toNat lineStart ∧
    o.column = o.start - lineStart + 1

/-- Occurrences that stand in a text one behind the other. -/
structure Occurrence.PlacedInTurn (t : Text) (occurrences : List Occurrence) : Prop where
  placed : ∀ o ∈ occurrences, o.PlacedIn t
  apart : occurrences.Pairwise fun a b => a.start < b.start ∧ a.stop ≤ b.start

theorem Occurrence.PlacedInTurn.nil (t : Text) : PlacedInTurn t [] :=
  ⟨fun _ member => (nomatch member), .nil⟩

theorem Occurrence.PlacedInTurn.sublist {t : Text} {kept occurrences : List Occurrence}
    (placedInTurn : PlacedInTurn t occurrences) (fewer : kept.Sublist occurrences) :
    PlacedInTurn t kept :=
  ⟨fun o member => placedInTurn.placed o (fewer.subset member), placedInTurn.apart.sublist fewer⟩

/-! ## Candidates -/

namespace Document

section
variable {d : Document}

/-- The character offsets of two byte offsets in a document lie in its text, in the same order. -/
theorem charOffset?_mono (agrees : d.Agrees) {i j a b : Int} (nonneg : 0 ≤ i) (order : i ≤ j)
    (inside : j ≤ d.bytes.length) (first : d.charOffset? i = some a)
    (second : d.charOffset? j = some b) : 0 ≤ a ∧ a ≤ b ∧ b ≤ d.text.length := by
  obtain ⟨i, rfl⟩ := Int.eq_ofNat_of_zero_le nonneg
  obtain ⟨j, rfl⟩ := Int.eq_ofNat_of_zero_le (Int.le_trans nonneg order)
  obtain ⟨k, found, reaches⟩ := charOffset?_eq_some agrees (show i ≤ d.bytes.length by omega)
  obtain ⟨l, found', reaches'⟩ := charOffset?_eq_some agrees (show j ≤ d.bytes.length by omega)
  cases first.symm.trans found
  cases second.symm.trans found'
  have inOrder := reaches.mono reaches' (by omega)
  have inText := reaches'.inside
  exact ⟨Int.natCast_nonneg k, by omega, by omega⟩

theorem exists_nodeSpan (agrees : d.Agrees) {node : SyntaxTree × Origin}
    (startInside : 0 ≤ node.1.start ∧ node.1.start ≤ d.bytes.length)
    (stopInside : 0 ≤ node.1.stop ∧ node.1.stop ≤ d.bytes.length) :
    ∃ span, d.nodeSpan? node = some span := by
  obtain ⟨i, start⟩ := Int.eq_ofNat_of_zero_le startInside.1
  obtain ⟨j, stop⟩ := Int.eq_ofNat_of_zero_le stopInside.1
  obtain ⟨k, found, -⟩ := charOffset?_eq_some agrees (show i ≤ d.bytes.length by omega)
  obtain ⟨l, found', -⟩ := charOffset?_eq_some agrees (show j ≤ d.bytes.length by omega)
  refine ⟨⟨k, l, node.2⟩, ?_⟩
  rw [nodeSpan?, start, found, stop, found']
  rfl

/-- Where the parts of a span come from. -/
theorem nodeSpan?_parts {node : SyntaxTree × Origin} {span : Candidate}
    (found : d.nodeSpan? node = some span) :
    d.charOffset? node.1.start = some span.start ∧ d.charOffset? node.1.stop = some span.stop ∧
      span.origin = node.2 := by
  unfold nodeSpan? at found
  obtain ⟨start, startFound, found⟩ := Option.bind_eq_some_iff.mp found
  obtain ⟨stop, stopFound, found⟩ := Option.bind_eq_some_iff.mp found
  cases found
  exact ⟨startFound, stopFound, rfl⟩

theorem mapM_eq_filterMap {α β : Type} {f : α → Option β} {items : List α}
    (present : ∀ item ∈ items, ∃ b, f item = some b) :
    items.mapM f = some (items.filterMap f) := by
  induction items with
  | nil => rfl
  | cons item rest ih =>
    obtain ⟨b, found⟩ := present item (List.mem_cons_self)
    rw [List.mapM_cons, found, ih fun other member => present other (List.mem_cons_of_mem _ member),
      List.filterMap_cons_some found]
    rfl

/-- A tree that lies in the document has candidates, and these follow one another in its text. -/
theorem treeCandidates?_inTurn (agrees : d.Agrees) (kinds : NodeKinds) (comments : Bool)
    {tree : SyntaxTree} (within : tree.Within 0 d.bytes.length) :
    ∃ spans, d.treeCandidates? kinds comments tree = some spans ∧
      Candidate.InTurn d.text.length spans := by
  have ordered : SyntaxTree.InOrder 0 d.bytes.length [tree] := ⟨within, trivial⟩
  have inside := SyntaxTree.select_inside kinds comments ordered
  have apart := SyntaxTree.select_apart kinds comments ordered
  rw [treeCandidates?]
  generalize SyntaxTree.select kinds comments [tree] = nodes at inside apart ⊢
  have present : ∀ node ∈ nodes, ∃ span, d.nodeSpan? node = some span := by
    intro node member
    obtain ⟨lower, order, higher⟩ := inside node member
    exact exists_nodeSpan agrees ⟨lower, Int.le_trans order higher⟩
      ⟨Int.le_trans lower order, higher⟩
  rw [mapM_eq_filterMap present]
  refine ⟨_, rfl, ?_, ?_⟩
  · intro span member
    obtain ⟨member, notEmpty⟩ := List.mem_filter.mp member
    obtain ⟨node, member, found⟩ := List.mem_filterMap.mp member
    obtain ⟨lower, order, higher⟩ := inside node member
    obtain ⟨startFound, stopFound, -⟩ := nodeSpan?_parts found
    obtain ⟨nonneg, -, inText⟩ := charOffset?_mono agrees lower order higher startFound stopFound
    exact ⟨nonneg, of_decide_eq_true notEmpty, inText⟩
  -- Candidates that become empty are left out, which keeps the others in order.
  · refine List.Pairwise.filter _ (List.pairwise_filterMap.mpr (apart.imp_of_mem ?_))
    intro a b memberA memberB order span foundA span' foundB
    obtain ⟨lowerA, orderA, -⟩ := inside a memberA
    obtain ⟨-, orderB, higherB⟩ := inside b memberB
    exact (charOffset?_mono agrees (Int.le_trans lowerA orderA) order
      (Int.le_trans orderB higherB) (nodeSpan?_parts foundA).2.1 (nodeSpan?_parts foundB).1).2.1

theorem textCandidates_inTurn (d : Document) :
    Candidate.InTurn d.text.length d.textCandidates := by
  unfold textCandidates
  split
  next => exact ⟨fun _ member => (nomatch member), .nil⟩
  next notEmpty =>
    have positive : 0 < d.text.length := List.length_pos_iff.mpr (by simpa using notEmpty)
    refine ⟨?_, List.pairwise_singleton _ _⟩
    intro span member
    cases List.mem_singleton.mp member
    exact ⟨Int.le_refl 0, Int.natCast_pos.mpr positive, Int.le_refl _⟩

end

end Document

/-! ## Occurrences -/

namespace Extractor

section
variable (e : Extractor) {d : Document} {span : Candidate}

/-! The fields of an occurrence, each from its source. -/

@[simp]
theorem occurrence_url (found : Found) : (e.occurrence d span found).url = found.url :=
  rfl

@[simp]
theorem occurrence_start (found : Found) :
    (e.occurrence d span found).start = span.start + found.start :=
  rfl

@[simp]
theorem occurrence_stop (found : Found) :
    (e.occurrence d span found).stop = span.start + found.stop :=
  rfl

@[simp]
theorem occurrence_line (found : Found) :
    (e.occurrence d span found).line = (d.lines.position (span.start + found.start)).1 :=
  rfl

@[simp]
theorem occurrence_column (found : Found) :
    (e.occurrence d span found).column = (d.lines.position (span.start + found.start)).2 :=
  rfl

@[simp]
theorem occurrence_context (found : Found) :
    (e.occurrence d span found).context =
      d.lines.context (e.occurrence d span found).line e.contextLines :=
  rfl

@[simp]
theorem occurrence_origin (found : Found) : (e.occurrence d span found).origin = span.origin :=
  rfl

theorem slice_span {a b : Nat} (start : span.start = a) (stop : span.stop = b) :
    slice d.text span.start span.stop = (d.text.take b).drop a := by
  rw [start, stop, slice_natCast]

/-- Searching a document as plain text is searching its whole text. -/
theorem inText_eq (d : Document) :
    e.inText d = (e.matcher.findAll d.text).map (e.occurrence d ⟨0, d.text.length, .text⟩) := by
  rw [inText, inSpans, Document.textCandidates]
  split
  next empty =>
    rw [List.isEmpty_iff.mp empty, Matcher.findAll, Matcher.findFrom]
    rfl
  next =>
    have whole : slice d.text (0 : Int) d.text.length = d.text := by
      show slice d.text (0 : Nat) d.text.length = d.text
      rw [slice_natCast, List.take_length, List.drop_zero]
    rw [List.flatMap_singleton, inSpan, whole]

/-- An occurrence lies between the bounds of its candidate, and what it says about its place holds
of the text. -/
theorem occurrence_placedIn (lines : d.lines = LineIndex.ofText d.text) (nonneg : 0 ≤ span.start)
    (order : span.start ≤ span.stop) (inside : span.stop ≤ d.text.length) {found : Found}
    (member : found ∈ e.matcher.findAll (slice d.text span.start span.stop)) :
    span.start ≤ (e.occurrence d span found).start ∧
      (e.occurrence d span found).stop ≤ span.stop ∧
      (e.occurrence d span found).PlacedIn d.text := by
  obtain ⟨a, start⟩ := Int.eq_ofNat_of_zero_le nonneg
  obtain ⟨b, stop⟩ := Int.eq_ofNat_of_zero_le (Int.le_trans nonneg order)
  rw [slice_span start stop] at member
  obtain ⟨short, cut⟩ := e.matcher.findAll_place member
  rw [List.length_drop, List.length_take] at short
  have first : (e.occurrence d span found).start = (a + found.start : Nat) := by
    rw [occurrence_start, start, Int.natCast_add]
  have last : (e.occurrence d span found).stop = (a + found.stop : Nat) := by
    rw [occurrence_stop, start, Int.natCast_add]
  have notEmpty := found.start_lt_stop
  obtain ⟨lineStart, isLineStart, place⟩ := LineIndex.position_eq d.text (a + found.start)
  refine ⟨by omega, by omega, ⟨by omega, by omega, by omega, ?_, ?_, ?_, ?_⟩⟩
  -- The constructor of an occurrence refuses an empty span, and this one is not empty.
  · exact dif_pos (e.occurrence d span found).start_lt_stop
  · rw [first, last, slice_natCast]
    rw [List.take_drop, List.take_take, List.drop_drop, Nat.min_eq_left (by omega)] at cut
    exact cut
  · rw [occurrence_line, lines, start, first, Int.toNat_natCast]
    exact congrArg Prod.fst place
  · refine ⟨lineStart, ?_, ?_⟩
    · rw [first, Int.toNat_natCast]
      exact isLineStart
    · rw [occurrence_column, lines, start, first]
      exact congrArg Prod.snd place

/-- The occurrences of candidates in turn stand in the text in turn. -/
theorem inSpans_placedInTurn (lines : d.lines = LineIndex.ofText d.text) {spans : List Candidate}
    (inTurn : Candidate.InTurn d.text.length spans) :
    Occurrence.PlacedInTurn d.text (e.inSpans d spans) := by
  have within {span : Candidate} (memberSpan : span ∈ spans) {o : Occurrence}
      (member : o ∈ e.inSpan d span) :
      span.start ≤ o.start ∧ o.stop ≤ span.stop ∧ o.PlacedIn d.text := by
    obtain ⟨nonneg, order, inside⟩ := inTurn.inside span memberSpan
    obtain ⟨found, isFound, rfl⟩ := List.mem_map.mp member
    exact e.occurrence_placedIn lines nonneg (Int.le_of_lt order) inside isFound
  refine ⟨?_, List.pairwise_flatMap.mpr ⟨?_, inTurn.apart.imp_of_mem ?_⟩⟩
  · intro o member
    obtain ⟨span, memberSpan, member⟩ := List.mem_flatMap.mp member
    exact (within memberSpan member).2.2
  -- Within a candidate the search goes on behind each URL; between two candidates their bounds lie.
  · intro span memberSpan
    refine List.pairwise_map.mpr ((e.matcher.findAll_apart _).imp fun {f g} apart => ?_)
    have notEmpty := f.start_lt_stop
    simp only [occurrence_start, occurrence_stop]
    omega
  · intro span span' memberSpan memberSpan' apart o member o' member'
    obtain ⟨-, before, placed⟩ := within memberSpan member
    obtain ⟨after, -, -⟩ := within memberSpan' member'
    have notEmpty := placed.not_empty
    omega

/-- A tree that lies in the document has occurrences, and these stand in its text in turn. -/
theorem inTree?_placedInTurn (agrees : d.Agrees) (kinds : NodeKinds) (comments : Bool)
    {tree : SyntaxTree} (within : tree.Within 0 d.bytes.length) :
    ∃ occurrences, e.inTree? d kinds comments tree = some occurrences ∧
      Occurrence.PlacedInTurn d.text occurrences := by
  obtain ⟨spans, found, inTurn⟩ := Document.treeCandidates?_inTurn agrees kinds comments within
  refine ⟨e.inSpans d spans, ?_, e.inSpans_placedInTurn agrees.lines_eq inTurn⟩
  rw [inTree?, found, Option.map_some]

/-- The occurrences in the whole text stand in it in turn. -/
theorem inText_placedInTurn (agrees : d.Agrees) :
    Occurrence.PlacedInTurn d.text (e.inText d) :=
  e.inSpans_placedInTurn agrees.lines_eq (Document.textCandidates_inTurn d)

end

end Extractor

end UrlScan
