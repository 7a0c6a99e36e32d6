import UrlScan.Proofs.Extraction.Placement
import UrlScan.Proofs.SyntaxTree.Walk

/-!
# Searching with and without comments

Whether comments are searched does not change what is found in strings. A walk without comments
takes the strings of a walk with comments, because a comment that is not wanted is passed over with
all that is in it, just as one that is taken; and each node is searched on its own. So a search
without comments reports the occurrences of the origin `string` that a search with comments reports,
with the same places and contexts and in the same order (`inTree?_strings`).

A search fails only at a node whose offsets lie outside the document. The search without comments
looks at fewer nodes, so that it may succeed where the other one fails, but not the other way round.

1. `select_strings`, `treeCandidates?_strings`, `inSpans_ofOrigin`: the walk, the candidates and the
   occurrences.
2. `exists_treeCandidates`: a tree whose offsets lie in the document has candidates.
-/

namespace UrlScan

namespace SyntaxTree

/-- The offsets of all nodes of a tree lie in a file of the given length. A node may end before it
begins, and lie anywhere with regard to the others. -/
def OffsetsIn (length : Nat) (tree : SyntaxTree) : Prop :=
  ∀ position node, tree.at? position = some node →
    (0 ≤ node.start ∧ node.start ≤ length) ∧ 0 ≤ node.stop ∧ node.stop ≤ length

theorem InOrder.within {low high : Int} {trees : List SyntaxTree}
    (ordered : InOrder low high trees) : ∀ tree ∈ trees, tree.Within low high := by
  induction trees with
  | nil => exact fun _ member => absurd member List.not_mem_nil
  | cons first rest ih =>
    intro tree member
    rcases List.mem_cons.mp member with rfl | later
    · rw [InOrder] at ordered
      exact ordered.1
    · exact ih ordered.rest tree later

/-- Trees that lie in a file have their offsets in it. -/
theorem Within.offsetsIn {length : Nat} {tree : SyntaxTree} (within : tree.Within 0 length) :
    tree.OffsetsIn length := by
  have bounds (position : Position) {low high : Int} {tree node : SyntaxTree}
      (within : tree.Within low high) (found : tree.at? position = some node) :
      low ≤ node.start ∧ node.start ≤ node.stop ∧ node.stop ≤ high := by
    induction position generalizing low high tree with
    | nil =>
      cases found
      exact within.bounds
    | cons i path ih =>
      obtain ⟨child, isChild, found⟩ := Option.bind_eq_some_iff.mp found
      obtain ⟨lower, -, higher⟩ := within.bounds
      have inside := within.children.within child (List.mem_of_getElem? isChild)
      exact ih (inside.mono lower higher) found
  intro position node found
  obtain ⟨lower, order, higher⟩ := bounds position within found
  exact ⟨⟨lower, Int.le_trans order higher⟩, Int.le_trans lower order, higher⟩

/-- Without comments the strings are selected that are selected with comments. -/
theorem select_strings (kinds : NodeKinds) (stack : List SyntaxTree) :
    select kinds false stack =
      (select kinds true stack).filter fun selected => selected.2 = .string := by
  fun_induction select kinds true stack with
  | case1 => rw [select]; rfl
  | case2 tree rest isString ih =>
    rw [select, if_pos isString, ih, List.filter_cons_of_pos (by exact decide_eq_true rfl)]
  | case3 tree rest notString isComment _ ih =>
    rw [select, if_neg notString, if_pos isComment, if_neg Bool.false_ne_true, ih,
      List.filter_cons_of_neg (by simp)]
  | case4 tree rest _ _ never => exact absurd rfl never
  | case5 tree rest notString notComment ih =>
    rw [select, if_neg notString, if_neg notComment, ih]

/-- What is selected in a tree is one of its nodes. -/
theorem exists_at_of_mem_select {kinds : NodeKinds} {comments : Bool} {tree : SyntaxTree}
    {selected : SyntaxTree × Origin} (member : selected ∈ select kinds comments [tree]) :
    ∃ position, tree.at? position = some selected.1 := by
  rw [select_eq_taken, List.flatMap_singleton] at member
  obtain ⟨⟨position, node, origin⟩, isTaken, rfl⟩ := List.mem_map.mp member
  exact ⟨position, (mem_taken_iff.mp isTaken).at_eq⟩

end SyntaxTree

/-! ## Candidates -/

namespace Document

section
variable {d : Document} {kinds : NodeKinds} {tree : SyntaxTree}

/-- Items that are left out before they are mapped could as well be left out afterwards. -/
theorem mapM_filter {α β : Type} {f : α → Option β} {p : α → Bool} {q : β → Bool}
    (same : ∀ a b, f a = some b → p a = q b) {items : List α} {results : List β}
    (mapped : items.mapM f = some results) :
    (items.filter p).mapM f = some (results.filter q) := by
  induction items generalizing results with
  | nil =>
    cases mapped
    rfl
  | cons item rest ih =>
    rw [List.mapM_cons] at mapped
    obtain ⟨b, found, mapped⟩ := Option.bind_eq_some_iff.mp mapped
    obtain ⟨others, mappedRest, isCons⟩ := Option.bind_eq_some_iff.mp mapped
    cases isCons
    rw [List.filter_cons, List.filter_cons, same item b found]
    split
    · rw [List.mapM_cons, found, ih mappedRest]
      rfl
    · exact ih mappedRest

/-- Without comments a tree offers the candidates that are strings. -/
theorem treeCandidates?_strings {spans : List Candidate}
    (offered : d.treeCandidates? kinds true tree = some spans) :
    d.treeCandidates? kinds false tree =
      some (spans.filter fun span => span.origin = .string) := by
  unfold treeCandidates? at offered ⊢
  obtain ⟨all, mapped, notEmpty⟩ := Option.bind_eq_some_iff.mp offered
  cases notEmpty
  have sameOrigin (node : SyntaxTree × Origin) (span : Candidate)
      (found : d.nodeSpan? node = some span) :
      decide (node.2 = .string) = decide (span.origin = .string) := by
    rw [(nodeSpan?_parts found).2.2]
  rw [SyntaxTree.select_strings, mapM_filter sameOrigin mapped]
  show some _ = some _
  rw [List.filter_comm]

/-- A tree whose offsets lie in the document has candidates. -/
theorem exists_treeCandidates (agrees : d.Agrees) (comments : Bool)
    (inside : tree.OffsetsIn d.bytes.length) :
    ∃ spans, d.treeCandidates? kinds comments tree = some spans := by
  rw [treeCandidates?, mapM_eq_filterMap fun selected member => ?_]
  · exact ⟨_, rfl⟩
  · obtain ⟨position, found⟩ := SyntaxTree.exists_at_of_mem_select member
    obtain ⟨start, stop⟩ := inside position selected.1 found
    exact exists_nodeSpan agrees start stop

end

end Document

/-! ## Occurrences -/

namespace Extractor

/-- The occurrences of an origin are those in the candidates of this origin. -/
theorem inSpans_ofOrigin (e : Extractor) (d : Document) (origin : Origin)
    (spans : List Candidate) :
    (e.inSpans d spans).filter (fun o => o.origin = origin) =
      e.inSpans d (spans.filter fun span => span.origin = origin) := by
  induction spans with
  | nil => rfl
  | cons span rest ih =>
    have sameOrigin : ∀ o ∈ e.inSpan d span, o.origin = span.origin := by
      intro o member
      obtain ⟨found, -, rfl⟩ := List.mem_map.mp member
      exact e.occurrence_origin found
    unfold inSpans at ih ⊢
    rw [List.flatMap_cons, List.filter_append, ih, List.filter_cons]
    by_cases wanted : span.origin = origin
    · rw [if_pos (decide_eq_true wanted), List.flatMap_cons, List.filter_eq_self.mpr]
      exact fun o member => decide_eq_true ((sameOrigin o member).trans wanted)
    · rw [if_neg (by simpa using wanted), List.filter_eq_nil_iff.mpr, List.nil_append]
      intro o member
      rw [sameOrigin o member]
      simpa using wanted

/-- A search without comments reports the occurrences in strings that a search with comments
reports. The latter succeeds for every tree whose offsets lie in the document. -/
theorem inTree?_strings (e : Extractor) (d : Document) (kinds : NodeKinds) (tree : SyntaxTree) :
    (∀ all, e.inTree? d kinds true tree = some all →
      e.inTree? d kinds false tree = some (all.filter fun o => o.origin = .string)) ∧
    (d.Agrees → tree.OffsetsIn d.bytes.length →
      ∃ all, e.inTree? d kinds true tree = some all) := by
  constructor
  · intro all found
    obtain ⟨spans, offered, rfl⟩ := Option.map_eq_some_iff.mp found
    rw [inTree?, Document.treeCandidates?_strings offered, inSpans_ofOrigin]
    rfl
  · intro agrees inside
    obtain ⟨spans, offered⟩ := Document.exists_treeCandidates agrees true inside
    exact ⟨_, congrArg (Option.map (e.inSpans d)) offered⟩

/-- A string, and a comment with a string in it, behind a character of two bytes. -/
theorem inTree?_strings_nested :
    let e : Extractor := ⟨.ofSchemes ["http".toList] false, 0⟩
    let d := Document.ofText "ü \"http://a.b\" // \"http://c.d\"".toList
    let kinds : NodeKinds := ⟨["s".toList], ["c".toList]⟩
    let tree : SyntaxTree := .node [] 0 31
      [.node "s".toList 3 15 [], .node "c".toList 16 31 [.node "s".toList 19 31 []]]
    d.Agrees ∧ tree.OffsetsIn d.bytes.length ∧
    ∃ all, e.inTree? d kinds true tree = some all ∧
      all.map (fun o => (o.url, o.origin)) =
        [("http://a.b".toList, .string), ("http://c.d".toList, .comment)] ∧
      e.inTree? d kinds false tree = some (all.filter fun o => o.origin = .string) := by
  intro e d kinds tree
  have within : tree.Within 0 d.bytes.length := by
    have length : d.bytes.length = 31 := by decide +kernel
    rw [length]
    simp [tree, SyntaxTree.Within, SyntaxTree.InOrder, SyntaxTree.stop]
  have agrees : d.Agrees := ⟨rfl, rfl⟩
  have places : (e.inTree? d kinds true tree).map
      (List.map fun o => (o.url, o.origin)) =
        some [("http://a.b".toList, .string), ("http://c.d".toList, .comment)] := by
    decide +kernel
  obtain ⟨kept, present⟩ := inTree?_strings e d kinds tree
  obtain ⟨all, found⟩ := present agrees within.offsetsIn
  rw [found] at places
  exact ⟨agrees, within.offsetsIn, all, found, Option.some.inj places, kept all found⟩

end Extractor

end UrlScan
