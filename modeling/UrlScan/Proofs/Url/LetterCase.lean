import UrlScan.Proofs.Text.Recased
import UrlScan.Proofs.Url.Places

/-!
# Letter case and the list of schemes do not show

Is a URL found at another place when the letters of the text are written in the other case, or when
the schemes are listed in another order, more than once, or in the other case? The grammar of URLs
speaks of classes of characters that hold every ASCII letter in both cases or in neither, and of the
schemes it asks only which ones are in the list. So two texts that differ in the case of ASCII
letters only have their words at the same places (`LeftmostLongest.recased`), for every two lists
that name the same schemes (`SameSchemes`).

Results:
1. `IsLabel.recased`, `IsHost.recased`, `IsPort.recased`, `IsPath.recased`, `IsTail.recased`,
   `Spells.recased`: the parts of a URL.
2. `IsWord.recased`, `IsLongestWord.recased`, `WordAt.recased`: words and their places.
3. `LeftmostLongest.recased`: the words of a whole text.
4. `findAll_recased`: the spans that a matcher reports.
-/

namespace UrlScan.Url

open Text (Recased IgnoresCase IsCaseFree)
open ReadingLemmas

/-- The two lists name the same schemes: each scheme of either list is one of the other list, up to
the case of ASCII letters. In which order they stand, and how often, does not matter. -/
structure SameSchemes (schemes schemes' : List Text) : Prop where
  there : ∀ scheme ∈ schemes, ∃ scheme' ∈ schemes', Recased scheme scheme'
  back : ∀ scheme' ∈ schemes', ∃ scheme ∈ schemes, Recased scheme' scheme

/-! ## Character classes -/

namespace LetterCaseLemmas

theorem ignoresCase_caseless : IgnoresCase Text.caseless := .of_letters (by decide)

theorem ignoresCase_isLabelChar : IgnoresCase isLabelChar := .of_letters (by decide)

theorem ignoresCase_isDecimalDigit : IgnoresCase Text.isDecimalDigit := .of_letters (by decide)

theorem ignoresCase_isPathChar : IgnoresCase isPathChar := .of_letters (by decide)

theorem ignoresCase_isJoining : IgnoresCase isJoining := .of_letters (by decide)

theorem ignoresCase_isTrailing : IgnoresCase isTrailing := .of_letters (by decide)

theorem ignoresCase_isAlphanumeric : IgnoresCase Text.isAlphanumeric := .of_letters (by decide)

theorem hyphen_free : IsCaseFree '-' := .of_ascii (by decide) (by decide)

theorem dot_free : IsCaseFree '.' := .of_ascii (by decide) (by decide)

theorem colon_free : IsCaseFree ':' := .of_ascii (by decide) (by decide)

theorem slash_free : IsCaseFree '/' := .of_ascii (by decide) (by decide)

theorem brackets_free {opening closing : Char}
    (pair : (opening, closing) ∈ [('(', ')'), ('[', ']'), ('\x7b', '\x7d')]) :
    IsCaseFree opening ∧ IsCaseFree closing := by
  have all : [('(', ')'), ('[', ']'), ('\x7b', '\x7d')].all (fun pair =>
      pair.1.toNat < 128 && !pair.1.isAlpha && (pair.2.toNat < 128 && !pair.2.isAlpha)) = true := by
    decide
  have both := List.all_eq_true.mp all _ pair
  simp only [Bool.and_eq_true, decide_eq_true_eq, Bool.not_eq_true'] at both
  exact ⟨.of_ascii both.1.1 both.1.2, .of_ascii both.2.1 both.2.2⟩

end LetterCaseLemmas

open LetterCaseLemmas

/-! ## The parts of a URL -/

theorem Spells.recased {letters spelled spelled' : Text} (spells : Spells letters spelled)
    (recased : Recased spelled spelled') : Spells letters spelled' := by
  have spells_iff (t : Text) : Spells letters t ↔ letters.map Text.caseless = t.map Text.caseless := by
    rw [Spells, ← List.forall₂_eq_eq_eq, List.forall₂_map_left_iff, List.forall₂_map_right_iff]
    simp only [Text.sameLetter, beq_iff_eq]
  rw [spells_iff] at spells ⊢
  rw [spells, recased.map_eq ignoresCase_caseless]

theorem IsLabel.recased {label label' : Text} (isLabel : IsLabel label)
    (recased : Recased label label') : IsLabel label' where
  length_pos := recased.length_eq ▸ isLabel.length_pos
  length_le := recased.length_eq ▸ isLabel.length_le
  chars := by
    have chars : ∀ c ∈ label, isLabelChar c = true := fun c member =>
      isLabelChar_iff.mpr (isLabel.chars c member)
    exact fun c member =>
      isLabelChar_iff.mp (recased.forall_of ignoresCase_isLabelChar chars c member)
  head hyphen := isLabel.head (recased.symm.head?_of_free hyphen_free hyphen)
  last hyphen := isLabel.last (recased.symm.getLast?_of_free hyphen_free hyphen)

/-- A text that differs from a host in letter case is cut into labels at the same dots. -/
theorem recased_join {labels : List Text} {host' : Text}
    (isLabel : ∀ label ∈ labels, IsLabel label)
    (recased : Recased (Text.join ['.'] labels) host') :
    ∃ labels', (∀ label' ∈ labels', IsLabel label') ∧ labels.length = labels'.length ∧
      host' = Text.join ['.'] labels' := by
  induction labels generalizing host' with
  | nil => exact ⟨[], fun _ member => absurd member List.not_mem_nil, rfl, recased.nil_left⟩
  | cons label labels ih =>
    obtain ⟨isFirst, areLabels⟩ := List.forall_mem_cons.mp isLabel
    cases labels with
    | nil =>
      rw [Text.join_singleton] at recased
      exact ⟨[host'], List.forall_mem_singleton.mpr (isFirst.recased recased), rfl,
        (Text.join_singleton host').symm⟩
    | cons second labels =>
      rw [Text.join_cons_cons] at recased
      obtain ⟨label', behind, rfl, first, dotted⟩ := recased.append_left
      obtain ⟨rest, rfl, others⟩ := dotted.cons_free_left dot_free
      obtain ⟨labels', areLabels', count, rfl⟩ := ih areLabels others
      have more : labels' ≠ [] := by
        rintro rfl
        cases count
      exact ⟨label' :: labels', List.forall_mem_cons.mpr ⟨isFirst.recased first, areLabels'⟩,
        congrArg Nat.succ count, (Text.join_cons more).symm⟩

theorem IsHost.recased {singleLabel : Bool} {host host' : Text} (isHost : IsHost singleLabel host)
    (recased : Recased host host') : IsHost singleLabel host' := by
  obtain ⟨labels, isLabel, enough, rfl⟩ := isHost
  obtain ⟨labels', isLabel', count, rfl⟩ := recased_join isLabel recased
  exact ⟨labels', isLabel', count ▸ enough, rfl⟩

theorem IsPort.recased {port port' following following' : Text} (isPort : IsPort port following)
    (recased : Recased port port') (behind : Recased following following') :
    IsPort port' following' := by
  rcases isPort with rfl | ⟨digits, rfl, some, few, allDigits, noDigit⟩
  · exact Or.inl recased.nil_left
  · obtain ⟨digits', rfl, same⟩ := recased.cons_free_left colon_free
    refine Or.inr ⟨digits', rfl, same.length_eq ▸ some, same.length_eq ▸ few,
      same.forall_of ignoresCase_isDecimalDigit allDigits, fun d' next => ?_⟩
    obtain ⟨d, first, lowered⟩ := behind.symm.head? next
    rw [ignoresCase_isDecimalDigit.eq lowered]
    exact noDigit d first

theorem IsPath.recased {path path' : Text} (isPath : IsPath path) (recased : Recased path path') :
    IsPath path' := by
  induction isPath generalizing path' with
  | nil => exact recased.nil_left ▸ .nil
  | char isChar _ ih =>
    obtain ⟨c', rest, rfl, same, behind⟩ := recased.cons_left
    exact .char (ignoresCase_isPathChar.eq same ▸ isChar) (ih behind)
  | group pair allChars _ ih =>
    obtain ⟨openingFree, closingFree⟩ := brackets_free pair
    obtain ⟨rest, rfl, recasedRest⟩ := recased.cons_free_left openingFree
    obtain ⟨inside', closed, rfl, recasedInside, recasedClosed⟩ := recasedRest.append_left
    obtain ⟨behind, rfl, recasedBehind⟩ := recasedClosed.cons_free_left closingFree
    exact .group pair (recasedInside.forall_of ignoresCase_isPathChar allChars) (ih recasedBehind)

theorem IsTail.recased {tail tail' : Text} (isTail : IsTail tail) (recased : Recased tail tail') :
    IsTail tail' := by
  rcases isTail with rfl | ⟨c, path, opens, isPath, rfl⟩
  · exact Or.inl recased.nil_left
  · have free : IsCaseFree c := by
      rcases opens with rfl | rfl | rfl <;> exact .of_ascii (by decide) (by decide)
    obtain ⟨path', rfl, same⟩ := recased.cons_free_left free
    exact Or.inr ⟨c, path', opens, isPath.recased same, rfl⟩

/-! ## Schemes -/

section
variable {schemes schemes' : List Text}

theorem SameSchemes.symm (same : SameSchemes schemes schemes') : SameSchemes schemes' schemes :=
  ⟨same.back, same.there⟩

theorem SameSchemes.ascii (same : SameSchemes schemes schemes')
    (ascii : ∀ scheme ∈ schemes, ∀ c ∈ scheme, c.toNat < 128) :
    ∀ scheme' ∈ schemes', ∀ c ∈ scheme', c.toNat < 128 := by
  intro scheme' member
  obtain ⟨scheme, inSchemes, recased⟩ := same.back scheme' member
  exact recased.symm.ascii (ascii scheme inSchemes)

theorem isScheme_recased {scheme scheme' : Text} (recased : Recased scheme scheme')
    (valid : isScheme scheme = true) : isScheme scheme' = true := by
  have marks : IgnoresCase fun c => c != '+' && c != '-' && c != '.' := .of_letters (by decide)
  have core := recased.filter marks
  simp only [isScheme, Bool.and_eq_true, Bool.not_eq_true', List.isEmpty_eq_false_iff,
    ← List.length_pos_iff] at valid ⊢
  rwa [← core.length_eq, ← core.all_eq ignoresCase_isAlphanumeric]

theorem SameSchemes.valid (same : SameSchemes schemes schemes')
    (valid : ∀ scheme ∈ schemes, isScheme scheme = true) :
    ∀ scheme' ∈ schemes', isScheme scheme' = true := by
  intro scheme' member
  obtain ⟨scheme, inSchemes, recased⟩ := same.back scheme' member
  exact isScheme_recased recased.symm (valid scheme inSchemes)

/-! ## Words -/

variable {singleLabel : Bool} (same : SameSchemes schemes schemes')
  (ascii : ∀ scheme ∈ schemes, ∀ c ∈ scheme, c.toNat < 128)
include same ascii

theorem IsWord.recased {word word' following following' : Text}
    (isWord : IsWord schemes singleLabel word following) (recased : Recased word word')
    (behind : Recased following following') : IsWord schemes' singleLabel word' following' := by
  obtain ⟨scheme, spelled, host, port, tail, member, spells, isHost, isPort, isTail, rfl⟩ := isWord
  obtain ⟨scheme', member', sameScheme⟩ := same.there scheme member
  rw [sameScheme.lowercase_eq (ascii scheme member)] at spells
  obtain ⟨spelled', rest, rfl, inScheme, recasedRest⟩ := recased.append_left
  obtain ⟨mark, parts, rfl, inMark, recasedParts⟩ := recasedRest.append_left
  obtain ⟨host', back, rfl, inHost, recasedBack⟩ := recasedParts.append_left
  obtain ⟨port', tail', rfl, inPort, inTail⟩ := recasedBack.append_left
  obtain ⟨_, rfl, slashes⟩ := inMark.cons_free_left colon_free
  obtain ⟨_, rfl, slash⟩ := slashes.cons_free_left slash_free
  obtain ⟨_, rfl, none⟩ := slash.cons_free_left slash_free
  rw [none.nil_left]
  exact ⟨scheme', spelled', host', port', tail', member', spells.recased inScheme,
    isHost.recased inHost, isPort.recased inPort (inTail.append behind), isTail.recased inTail, rfl⟩

/-- A text has a word at its beginning if the recased text has one there. -/
theorem begins_recased {t t' word following : Text} (recased : Recased t t')
    (whole : t = word ++ following) (isWord : IsWord schemes singleLabel word following) :
    ∃ word' following', Recased word word' ∧ t' = word' ++ following' ∧
      IsWord schemes' singleLabel word' following' := by
  subst whole
  obtain ⟨word', following', rfl, inWord, behind⟩ := recased.append_left
  exact ⟨word', following', inWord, rfl, isWord.recased same ascii inWord behind⟩

theorem IsLongestWord.recased {t t' word : Text} (recased : Recased t t')
    (longest : IsLongestWord schemes singleLabel t word) :
    ∃ word', Recased word word' ∧ IsLongestWord schemes' singleLabel t' word' := by
  obtain ⟨⟨following, whole, isWord⟩, atMost⟩ := longest
  obtain ⟨word', following', inWord, whole', isWord'⟩ := begins_recased same ascii recased whole isWord
  refine ⟨word', inWord, ⟨following', whole', isWord'⟩, fun other' rest' begins' isOther' => ?_⟩
  obtain ⟨other, rest, recasedOther, begins, isOther⟩ :=
    begins_recased same.symm (same.ascii ascii) recased.symm begins' isOther'
  rw [recasedOther.length_eq, ← inWord.length_eq]
  exact atMost other rest begins isOther

omit same ascii in
theorem OpenAt.recased {t t' : Text} {p : Nat} (isOpen : OpenAt t p) (recased : Recased t t') :
    OpenAt t' p := by
  rw [← mayBegin_iff] at isOpen ⊢
  cases p with
  | zero => rfl
  | succ p =>
    have sameClass : t[p]?.map isJoining = t'[p]?.map isJoining := by
      rw [← List.getElem?_map, ← List.getElem?_map, recased.map_eq ignoresCase_isJoining]
    have joins : t[p]?.any isJoining = t'[p]?.any isJoining := by
      simpa only [Option.any_map, id_eq] using congrArg (Option.any id) sameClass
    rw [before?, Matcher.mayBegin] at isOpen ⊢
    rwa [← joins]

theorem WordAt.recased {t t' : Text} {p : Nat} (recased : Recased t t')
    (wordAt : WordAt schemes singleLabel t p) : WordAt schemes' singleLabel t' p := by
  obtain ⟨isOpen, word, following, whole, isWord⟩ := wordAt
  obtain ⟨word', following', -, whole', isWord'⟩ :=
    begins_recased same ascii (recased.drop p) whole isWord
  exact ⟨isOpen.recased recased, word', following', whole', isWord'⟩

/-- Recased texts have their words at the same places, and the words differ in letter case only. -/
theorem LeftmostLongest.recased {t t' : Text} {p : Nat} {words : List (Nat × Text)}
    (recased : Recased t t') (found : LeftmostLongest schemes singleLabel t p words) :
    ∃ words', LeftmostLongest schemes' singleLabel t' p words' ∧
      List.Forall₂ (fun word word' => word.1 = word'.1 ∧ Recased word.2 word'.2) words words' := by
  have noWord {q : Nat} (none : ¬WordAt schemes singleLabel t q) :
      ¬WordAt schemes' singleLabel t' q := fun wordAt =>
    none (wordAt.recased same.symm (same.ascii ascii) recased.symm)
  induction found with
  | done none => exact ⟨[], .done fun q after => noWord (none q after), .nil⟩
  | @found p q word rest after first isOpen longest _ ih =>
    obtain ⟨word', inWord, longest'⟩ := longest.recased same ascii (recased.drop q)
    obtain ⟨words', found', sameWords⟩ := ih
    rw [inWord.length_eq] at found'
    exact ⟨(q, word') :: words', .found after (fun r atLeast before => noWord (first r atLeast before))
      (isOpen.recased recased) longest' found', .cons ⟨rfl, inWord⟩ sameWords⟩

end

/-! ## The reported spans -/

/-- A matcher for given schemes reports the same spans in two texts that differ in the case of ASCII
letters only, and so does every matcher whose list names the same ASCII schemes, in any order, any
number of times and in any case. What is reported is always what the text itself has in the span. -/
theorem findAll_recased {schemes schemes' : List Text}
    (ascii : ∀ scheme ∈ schemes, ∀ c ∈ scheme, c.toNat < 128)
    (valid : ∀ scheme ∈ schemes, isScheme scheme = true) (same : SameSchemes schemes schemes')
    (singleLabel : Bool) {t t' : Text} (recased : Recased t t') :
    ((Matcher.ofSchemes schemes singleLabel).findAll t).map (fun f => (f.start, f.stop)) =
        ((Matcher.ofSchemes schemes' singleLabel).findAll t').map (fun f => (f.start, f.stop)) ∧
      (∀ f ∈ (Matcher.ofSchemes schemes singleLabel).findAll t,
        (t.take f.stop).drop f.start = f.url) ∧
      ∀ f ∈ (Matcher.ofSchemes schemes' singleLabel).findAll t',
        (t'.take f.stop).drop f.start = f.url := by
  have found : LeftmostLongest schemes singleLabel t 0 _ := leftmostLongest_findAll valid t
  have found' : LeftmostLongest schemes' singleLabel t' 0 _ :=
    leftmostLongest_findAll (same.valid valid) t'
  obtain ⟨words', foundWords, sameWords⟩ := found.recased same ascii recased
  obtain rfl := leftmostLongest_unique foundWords found'
  rw [List.forall₂_map_left_iff, List.forall₂_map_right_iff] at sameWords
  refine ⟨?_, fun f member => (Matcher.findAll_place _ member).2,
    fun f member => (Matcher.findAll_place _ member).2⟩
  rw [← List.forall₂_eq_eq_eq, List.forall₂_map_left_iff, List.forall₂_map_right_iff]
  refine sameWords.imp fun f f' ⟨sameStart, sameWord⟩ => ?_
  have sameLength : f.url.length = f'.url.length :=
    (sameWord.trimEnd ignoresCase_isTrailing).length_eq
  exact Prod.ext sameStart (congrArg₂ (· + ·) sameStart sameLength)

/-- One scheme that is listed three times in different cases, and two schemes in both orders, of
which one begins with the other. -/
theorem findAll_recased_listed :
    SameSchemes ["http".toList] ["HTTP".toList, "http".toList, "Http".toList] ∧
    Recased "see http://example.com/a.".toList "SEE hTTp://EXAMPLE.com/A.".toList ∧
    ((Matcher.ofSchemes ["HTTP".toList, "http".toList, "Http".toList] false).findAll
        "SEE hTTp://EXAMPLE.com/A.".toList).map (fun f => (f.start, f.stop)) = [(4, 24)] ∧
    ((Matcher.ofSchemes ["http".toList, "https".toList] true).findAll
        "(HTTPS://localhost)".toList).map (fun f => (f.start, f.stop)) =
      ((Matcher.ofSchemes ["https".toList, "http".toList] true).findAll
        "(https://LocalHost)".toList).map (fun f => (f.start, f.stop)) := by
  have ascii {schemes : List Text}
      (all : schemes.all (fun scheme => scheme.all (·.toNat < 128)) = true) :
      ∀ scheme ∈ schemes, ∀ c ∈ scheme, c.toNat < 128 := fun scheme member c inScheme => by
    simpa using List.all_eq_true.mp (List.all_eq_true.mp all scheme member) c inScheme
  have three : SameSchemes ["http".toList] ["HTTP".toList, "http".toList, "Http".toList] :=
    ⟨by decide, by decide⟩
  have turned : SameSchemes ["http".toList, "https".toList] ["https".toList, "http".toList] :=
    ⟨by decide, by decide⟩
  have recased : Recased "see http://example.com/a.".toList "SEE hTTp://EXAMPLE.com/A.".toList := by
    decide
  have spans := (findAll_recased (ascii (by decide)) (by decide) three false recased).1
  have evaluated : ((Matcher.ofSchemes ["http".toList] false).findAll
      "see http://example.com/a.".toList).map (fun f => (f.start, f.stop)) = [(4, 24)] := by
    decide +kernel
  exact ⟨three, recased, spans.symm.trans evaluated,
    (findAll_recased (ascii (by decide)) (by decide) turned true (by decide)).1⟩

end UrlScan.Url
