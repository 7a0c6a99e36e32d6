import Mathlib.Data.List.Pairwise
import UrlScan.Proofs.Url.Overlap

/-!
# Hosts of one label

A search that takes hosts of one label reads the same URLs as one that does not, and those with one
label besides (`matcher_read?_iff`). What it reports is not simply more: the URLs of a search do not
overlap, so a URL that stands inside a URL with one label is no longer reported by itself.

A URL of the strict search is lost in this way only. It begins inside a URL of the other search, and
if that one has two labels or more, then the strict search has passed over it, for it begins inside
a lost URL itself. Such a chain needs a scheme that takes in a host or a port (`SchemeTakes`); with
usual schemes, which have no dot and begin with a letter, there is none.

1. `matcher_read?_iff`: what is read at one place in the two searches.
2. `findAll_covers`, `findAll_disjoint`: a URL of the text is found, or it begins inside one that is.
3. `findAll_singleLabel`: the two searches.
-/

namespace UrlScan

namespace Found

/-- The place is one of the URL as it was read, behind its first character. -/
def Covers (f : Found) (p : Nat) : Prop :=
  f.start < p ∧ p < f.start + f.raw.text.length

instance (f : Found) (p : Nat) : Decidable (f.Covers p) :=
  inferInstanceAs (Decidable (_ ∧ _))

end Found

namespace Url

open ReadingLemmas

section
variable {schemes : List Text} {singleLabel : Bool}

/-! ## What is read -/

theorem readHost_iff {spelled atHost : Text} {u : Url} :
    readHost spelled false atHost = some u ↔
      readHost spelled true atHost = some u ∧ 2 ≤ u.labels.length := by
  have agree (enough : 2 ≤ (labelsOf atHost).length) :
      readHost spelled false atHost = readHost spelled true atHost := by
    have two : minLabels false ≤ (labelsOf atHost).length := enough
    have one : minLabels true ≤ (labelsOf atHost).length := Nat.le_trans (Nat.le_succ 1) enough
    rw [readHost, readHost, host?_eq, host?_eq, if_pos two, if_pos one]
  constructor
  · intro read
    have enough : 2 ≤ u.labels.length := (readHost_labels read).2
    exact ⟨by rwa [← agree (labels_eq_labelsOf read ▸ enough)], enough⟩
  · rintro ⟨read, enough⟩
    rwa [agree (labels_eq_labelsOf read ▸ enough)]

/-- A matcher reads a URL behind the spelling of a scheme. The text has one spelling at most, since
no scheme has a colon. -/
theorem matcher_read?_eq_some_iff (valid : ∀ scheme ∈ schemes, isScheme scheme = true) {t : Text}
    {u : Url} : (Matcher.ofSchemes schemes singleLabel).read? t = some u ↔
      ∃ spelled atHost, (∃ scheme ∈ schemes, Spells (Text.lowercase scheme) spelled) ∧
        t = spelled ++ (separator ++ atHost) ∧ readHost spelled singleLabel atHost = some u := by
  have isRead {v : Url} (found : (Matcher.ofSchemes schemes singleLabel).read? t = some v) :
      ∃ spelled atHost, (∃ scheme ∈ schemes, Spells (Text.lowercase scheme) spelled) ∧
        t = spelled ++ (separator ++ atHost) ∧ readHost spelled singleLabel atHost = some v := by
    obtain ⟨lowered, inMatcher, read⟩ := List.exists_of_findSome?_eq_some found
    obtain ⟨scheme, member, rfl⟩ := mem_ofSchemes.mp inMatcher
    obtain ⟨spelled, atHost, whole, spells, readBehind⟩ := read?_eq_some_iff.mp read
    exact ⟨spelled, atHost, ⟨scheme, member, spells⟩, whole, readBehind⟩
  refine ⟨isRead, ?_⟩
  rintro ⟨spelled, atHost, ⟨scheme, member, spells⟩, whole, readBehind⟩
  have here : read? (Text.lowercase scheme) singleLabel t = some u :=
    read?_eq_some_iff.mpr ⟨spelled, atHost, whole, spells, readBehind⟩
  cases found : (Matcher.ofSchemes schemes singleLabel).read? t with
  | none =>
    have nowhere := List.findSome?_eq_none_iff.mp found _ (mem_ofSchemes.mpr ⟨scheme, member, rfl⟩)
    exact absurd (here.symm.trans nowhere) (by simp)
  | some v =>
    obtain ⟨spelled', atHost', ⟨scheme', member', spells'⟩, whole', readBehind'⟩ := isRead found
    obtain ⟨rfl, behind⟩ := append_colon_inj (colon_not_mem (valid scheme member) spells)
      (colon_not_mem (valid scheme' member') spells') (whole.symm.trans whole')
    cases (List.cons.inj (List.cons.inj behind).2).2
    rw [← readBehind', readBehind]

/-- At one place the strict search reads what the other one reads, if it has two labels or more. -/
theorem matcher_read?_iff (valid : ∀ scheme ∈ schemes, isScheme scheme = true) {t : Text} {u : Url} :
    (Matcher.ofSchemes schemes false).read? t = some u ↔
      (Matcher.ofSchemes schemes true).read? t = some u ∧ 2 ≤ u.labels.length := by
  simp only [matcher_read?_eq_some_iff valid, readHost_iff]
  constructor
  · rintro ⟨spelled, atHost, spells, whole, read, enough⟩
    exact ⟨⟨spelled, atHost, spells, whole, read⟩, enough⟩
  · rintro ⟨⟨spelled, atHost, spells, whole, read⟩, enough⟩
    exact ⟨spelled, atHost, spells, whole, read, enough⟩

theorem HasParts.of_two_labels {u : Url} {following : Text}
    (parts : HasParts schemes true u following) (enough : 2 ≤ u.labels.length) :
    HasParts schemes false u following :=
  ⟨parts.spells, parts.isLabel, enough, parts.isPort, parts.isTail⟩

/-! ## What is found -/

section
variable {t : Text}

/-- Every listed word may begin where it stands and is the longest one there. -/
theorem LeftmostLongest.of_mem {p : Nat} {words : List (Nat × Text)}
    (list : LeftmostLongest schemes singleLabel t p words) {q : Nat} {word : Text}
    (member : (q, word) ∈ words) :
    OpenAt t q ∧ IsLongestWord schemes singleLabel (t.drop q) word := by
  induction list with
  | done => cases member
  | found _ _ isOpen longest _ ih =>
    rcases List.mem_cons.mp member with same | later
    · cases same
      exact ⟨isOpen, longest⟩
    · exact ih later

/-- Where a word stands, one of the listed words begins or goes on. -/
theorem LeftmostLongest.covers {p q : Nat} {words : List (Nat × Text)}
    (list : LeftmostLongest schemes singleLabel t p words) (ahead : p ≤ q)
    (wordAt : WordAt schemes singleLabel t q) :
    ∃ w ∈ words, w.1 ≤ q ∧ q < w.1 + w.2.length := by
  induction list with
  | done none => exact absurd wordAt (none q ahead)
  | @found p start word rest _ first _ _ _ ih =>
    rcases Nat.lt_or_ge q start with before | after
    · exact absurd wordAt (first q ahead before)
    rcases Nat.lt_or_ge q (start + word.length) with inside | behind
    · exact ⟨(start, word), List.mem_cons_self, after, inside⟩
    · obtain ⟨w, member, place⟩ := ih behind
      exact ⟨w, List.mem_cons_of_mem _ member, place⟩

variable (valid : ∀ scheme ∈ schemes, isScheme scheme = true)
include valid

/-- A URL that is found may begin where it stands, and it is the longest word there. -/
theorem findAll_longest {f : Found}
    (member : f ∈ (Matcher.ofSchemes schemes singleLabel).findAll t) :
    OpenAt t f.start ∧ IsLongestWord schemes singleLabel (t.drop f.start) f.raw.text :=
  (leftmostLongest_findAll valid t).of_mem (List.mem_map_of_mem member)

/-- A URL that can be read at a place is found, or a URL that is found covers the place. -/
theorem findAll_covers {q : Nat} {u : Url} (isOpen : OpenAt t q)
    (read : (Matcher.ofSchemes schemes singleLabel).read? (t.drop q) = some u) :
    ⟨q, u⟩ ∈ (Matcher.ofSchemes schemes singleLabel).findAll t ∨
      ∃ f ∈ (Matcher.ofSchemes schemes singleLabel).findAll t, f.Covers q := by
  have wordAt := (matcher_read?_eq_some valid read).wordAt isOpen
  obtain ⟨w, listed, atMost, inside⟩ :=
    (leftmostLongest_findAll valid t).covers (Nat.zero_le q) wordAt
  obtain ⟨f, member, rfl⟩ := List.mem_map.mp listed
  rcases Nat.eq_or_lt_of_le atMost with rfl | before
  · left
    have isRead := findFrom_reads _ none 0 t f member
    rw [Nat.sub_zero, read] at isRead
    cases isRead
    exact member
  · exact Or.inr ⟨f, member, before, inside⟩

end

/-- Two URLs that are found do not overlap. -/
theorem findAll_disjoint {t : Text} {f g : Found}
    (isFound : f ∈ (Matcher.ofSchemes schemes singleLabel).findAll t)
    (isFound' : g ∈ (Matcher.ofSchemes schemes singleLabel).findAll t) : ¬f.Covers g.start := by
  have symmetric : Std.Symm fun a b : Found => ¬a.Covers b.start ∧ ¬b.Covers a.start :=
    ⟨fun _ _ => And.symm⟩
  have apart : ((Matcher.ofSchemes schemes singleLabel).findAll t).Pairwise
      fun a b => ¬a.Covers b.start ∧ ¬b.Covers a.start := by
    refine (Matcher.findFrom_apart _ none 0 t).imp fun {a b} ends => ⟨fun inside => ?_, fun inside => ?_⟩
    · exact absurd inside.2 (Nat.not_lt.mpr ends)
    · exact absurd inside.1 (Nat.not_lt.mpr (Nat.le_trans (Nat.le_add_right _ _) ends))
  have alone : ∀ a ∈ (Matcher.ofSchemes schemes singleLabel).findAll t,
      ¬a.Covers a.start ∧ ¬a.Covers a.start :=
    fun a _ => ⟨fun inside => Nat.lt_irrefl _ inside.1, fun inside => Nat.lt_irrefl _ inside.1⟩
  exact (apart.forall_of_forall alone isFound isFound').1

/-! ## The two searches -/

/-- A URL of the strict search that the other search does not find. -/
def Lost (schemes : List Text) (t : Text) (f : Found) : Prop :=
  f ∈ (Matcher.ofSchemes schemes false).findAll t ∧ f ∉ (Matcher.ofSchemes schemes true).findAll t

section
variable {t : Text} (valid : ∀ scheme ∈ schemes, isScheme scheme = true)
include valid

/-- A URL with two labels or more that begins inside a URL of the strict search ends with it at the
latest, or its scheme takes in the host or the port of the other one. -/
theorem schemeTakes_or_stop_le {f g : Found}
    (isFound : f ∈ (Matcher.ofSchemes schemes false).findAll t)
    (isFound' : g ∈ (Matcher.ofSchemes schemes true).findAll t) (enough : 2 ≤ g.raw.labels.length)
    (covers : f.Covers g.start) :
    g.raw.SchemeTakes f.raw ∨ g.start + g.raw.text.length ≤ f.start + f.raw.text.length := by
  obtain ⟨following, place, parts⟩ := findAll_hasParts isFound
  obtain ⟨following', place', parts'⟩ := findAll_hasParts isFound'
  obtain ⟨-, longest⟩ := findAll_longest valid isFound
  obtain ⟨isOpen, -⟩ := findAll_longest valid isFound'
  obtain ⟨after, before⟩ := covers
  obtain ⟨n, start⟩ := Nat.exists_eq_add_of_lt after
  -- The covering URL is cut where the other one begins.
  let front := f.raw.text.take (n + 1)
  let back := f.raw.text.drop (n + 1)
  have frontLength : front.length = n + 1 := by
    rw [List.length_take]
    omega
  have backLength : back.length = f.raw.text.length - (n + 1) := List.length_drop
  have cut : f.raw.text = front ++ back := (List.take_append_drop (n + 1) f.raw.text).symm
  have notEmpty : back ≠ [] := List.length_pos_iff.mp (by omega)
  have frontNotEmpty : front ≠ [] := List.length_pos_iff.mp (by omega)
  have fromFront : t.drop f.start = front ++ (back ++ following) := by
    rw [place, cut, List.append_assoc]
  have atCut : g.start = f.start + front.length := by omega
  have begins : back ++ following = g.raw.text ++ following' := by
    rw [← place', atCut, ← List.drop_drop, fromFront, List.drop_left]
  have inside : Inside schemes false f.raw g.raw following following' front back := by
    refine ⟨parts, place ▸ longest, parts'.of_two_labels enough, cut, begins, fun c last => ?_⟩
    rw [← before?_add_length frontNotEmpty fromFront, ← atCut] at last
    have mayBegin := mayBegin_iff.mpr isOpen
    rw [last] at mayBegin
    simpa [Matcher.mayBegin] using mayBegin
  refine (inside.schemeTakes_or_length_le valid notEmpty).imp id fun short => ?_
  omega

/-- A URL with two labels or more that is found with hosts of one label is found without them, or it
begins inside a lost URL. -/
theorem found_or_in_lost {g : Found} (isFound : g ∈ (Matcher.ofSchemes schemes true).findAll t)
    (enough : 2 ≤ g.raw.labels.length) :
    g ∈ (Matcher.ofSchemes schemes false).findAll t ∨ ∃ f, Lost schemes t f ∧ f.Covers g.start := by
  obtain ⟨isOpen, -⟩ := findAll_longest valid isFound
  have read := findFrom_reads _ none 0 t g isFound
  rw [Nat.sub_zero] at read
  refine (findAll_covers valid isOpen ((matcher_read?_iff valid).mpr ⟨read, enough⟩)).imp id ?_
  rintro ⟨f, strict, covers⟩
  exact ⟨f, ⟨strict, fun both => findAll_disjoint both isFound covers⟩, covers⟩

/-- A lost URL begins inside a URL that is found in its place. -/
theorem Lost.covered {f : Found} (lost : Lost schemes t f) :
    ∃ g ∈ (Matcher.ofSchemes schemes true).findAll t, g.Covers f.start := by
  obtain ⟨isOpen, -⟩ := findAll_longest valid lost.1
  have read := findFrom_reads _ none 0 t f lost.1
  rw [Nat.sub_zero] at read
  have read' := ((matcher_read?_iff valid).mp read).1
  exact (findAll_covers valid isOpen read').resolve_left lost.2

/-- The URL inside which a lost one begins has one label, or it begins inside a lost URL itself and
its scheme takes in the host or the port of that one. -/
theorem Lost.covered_cases {f g : Found} (lost : Lost schemes t f)
    (isFound : g ∈ (Matcher.ofSchemes schemes true).findAll t) (covers : g.Covers f.start) :
    g.raw.labels.length = 1 ∨
      ∃ f', Lost schemes t f' ∧ f'.Covers g.start ∧ g.raw.SchemeTakes f'.raw := by
  obtain ⟨following, -, parts⟩ := findAll_hasParts isFound
  have positive := List.length_pos_iff.mpr parts.labels_ne_nil
  rcases Nat.eq_or_lt_of_le positive with one | enough
  · exact Or.inl one.symm
  right
  rcases found_or_in_lost valid isFound enough with strict | ⟨f', lost', covers'⟩
  · exact absurd covers (findAll_disjoint strict lost.1)
  refine ⟨f', lost', covers', ?_⟩
  -- Were `g` over with `f'` already, then the strict search would find `f` inside `f'`.
  refine (schemeTakes_or_stop_le valid lost'.1 isFound enough covers').resolve_right fun short => ?_
  exact findAll_disjoint lost'.1 lost.1
    ⟨Nat.lt_trans covers'.1 covers.1, Nat.lt_of_lt_of_le covers.2 short⟩

/-- A lost URL comes behind a URL with one label. -/
theorem Lost.exists_single {f : Found} (lost : Lost schemes t f) :
    ∃ g ∈ (Matcher.ofSchemes schemes true).findAll t, g.start < f.start ∧
      g.raw.labels.length = 1 := by
  obtain ⟨g, isFound, covers⟩ := lost.covered valid
  rcases lost.covered_cases valid isFound covers with single | ⟨f', lost', covers', -⟩
  · exact ⟨g, isFound, covers.1, single⟩
  · have earlier := Nat.lt_trans covers'.1 covers.1
    obtain ⟨g', isFound', before, single⟩ := lost'.exists_single
    exact ⟨g', isFound', Nat.lt_trans before earlier, single⟩
termination_by f.start

end

/-! ## Usual schemes -/

namespace ReadingLemmas

theorem head?_of_lowercase {t : Text} {x : Char} (free : Text.IsCaseFree x)
    (first : (Text.lowercase t).head? = some x) : t.head? = some x := by
  cases t with
  | nil => cases first
  | cons c rest =>
    have special := Text.CaseFreeLemmas.not_caseFree_special (c := x)
    rw [Text.lowercase, Text.lowercaseAfter_cons] at first
    split at first
    · split at first <;> cases first <;> exact absurd free (special (by simp))
    · split at first
      · cases first
        exact absurd free (special (by simp))
      · have same : Text.lowerChar c = x := Option.some.inj first
        rw [(Text.lowerChar_eq_iff free).mp same, List.head?_cons]

/-- A spelling begins with a character without letter case only if the scheme does. -/
theorem head?_of_spelled {scheme spelled : Text} {x : Char} (free : Text.IsCaseFree x)
    (spells : Spells (Text.lowercase scheme) spelled) (first : spelled.head? = some x) :
    scheme.head? = some x := by
  refine head?_of_lowercase free ?_
  generalize Text.lowercase scheme = letters at spells ⊢
  cases spells with
  | nil => cases first
  | cons same =>
    cases first
    rw [Text.eq_of_sameLetter free same, List.head?_cons]

end ReadingLemmas

/-- A scheme without a dot that begins with no digit takes in no host of two labels, and no port. -/
theorem HasParts.not_schemeTakes {u w : Url} {following following' : Text}
    (parts : HasParts schemes singleLabel w following')
    (usual : ∀ scheme ∈ schemes, '.' ∉ scheme ∧
      ∀ d, scheme.head? = some d → Text.isDecimalDigit d = false)
    (outer : HasParts schemes false u following) : ¬w.SchemeTakes u := by
  obtain ⟨scheme, member, spells⟩ := parts.spells
  obtain ⟨noDot, noDigit⟩ := usual scheme member
  rintro (inScheme | ⟨digits, isPort, inScheme⟩)
  · have dotted : '.' ∈ w.scheme := inScheme.subset (Text.separator_mem_join outer.enough)
    exact noDot (mem_of_mem_spelled (.of_ascii (by decide) (by decide)) spells dotted)
  · rcases outer.isPort with none | ⟨digits', isPort', atLeast, -, allDigits, -⟩
    · cases isPort.symm.trans none
    cases (List.cons.inj (isPort.symm.trans isPort')).2
    obtain ⟨d, rest, rfl⟩ := List.exists_cons_of_ne_nil (List.length_pos_iff.mp atLeast)
    obtain ⟨behind, whole⟩ := inScheme
    have digit := allDigits d List.mem_cons_self
    have first := head?_of_spelled (isDecimalDigit_caseFree digit) spells (by rw [← whole]; rfl)
    rw [noDigit d first] at digit
    cases digit

/-! ## The comparison -/

theorem findAll_sorted (m : Matcher) (t : Text) :
    (m.findAll t).Pairwise fun a b => a.start < b.start := by
  refine (m.findFrom_apart none 0 t).imp fun {a b} ends => ?_
  have positive := List.length_pos_iff.mpr a.raw.text_ne_nil
  omega

/-- Two searches that find the same URLs find them in the same order. -/
theorem findAll_eq_of_mem_iff {m m' : Matcher} {t : Text}
    (same : ∀ f, f ∈ m.findAll t ↔ f ∈ m'.findAll t) : m.findAll t = m'.findAll t := by
  have distinct (m : Matcher) : (m.findAll t).Nodup := by
    refine List.Pairwise.imp (fun {a b} before => ?_) (findAll_sorted m t)
    rintro rfl
    exact Nat.lt_irrefl _ before
  refine List.Perm.eq_of_pairwise ?_ (findAll_sorted m t) (findAll_sorted m' t)
    ((List.perm_ext_iff_of_nodup (distinct m) (distinct m')).mpr same)
  exact fun a b _ _ before after => absurd after (Nat.lt_asymm before)

/-- The search with hosts of one label against the one without them.

* A URL that only the strict search finds begins inside a URL of the other search. That one has one
  label, or it begins inside such a URL itself and its scheme takes in the host or the port of it;
  with schemes that have no dot and begin with no digit, it has one label.
* A URL with two labels or more that the other search finds is found by the strict one, unless it
  begins inside a URL that only the strict search finds.
* Where no URL has one label, the two find the same. -/
theorem findAll_singleLabel (valid : ∀ scheme ∈ schemes, isScheme scheme = true) (t : Text) :
    let strict := (Matcher.ofSchemes schemes false).findAll t
    let permissive := (Matcher.ofSchemes schemes true).findAll t
    (∀ f ∈ strict, f ∈ permissive ∨ ∃ g ∈ permissive, g.Covers f.start ∧
      (g.raw.labels.length = 1 ∨
        ∃ f' ∈ strict, f' ∉ permissive ∧ f'.Covers g.start ∧ g.raw.SchemeTakes f'.raw)) ∧
    (∀ g ∈ permissive, 2 ≤ g.raw.labels.length →
      g ∈ strict ∨ ∃ f ∈ strict, f ∉ permissive ∧ f.Covers g.start) ∧
    ((∀ scheme ∈ schemes, '.' ∉ scheme ∧
        ∀ d, scheme.head? = some d → Text.isDecimalDigit d = false) →
      ∀ f ∈ strict, f ∈ permissive ∨
        ∃ g ∈ permissive, g.Covers f.start ∧ g.raw.labels.length = 1) ∧
    ((∀ g ∈ permissive, 2 ≤ g.raw.labels.length) → strict = permissive) := by
  intro strict permissive
  have lost_or {f : Found} (isFound : f ∈ strict) : f ∈ permissive ∨ Lost schemes t f := by
    by_cases both : f ∈ permissive
    · exact Or.inl both
    · exact Or.inr ⟨isFound, both⟩
  refine ⟨fun f isFound => ?_, fun g isFound enough => ?_, fun usual f isFound => ?_, fun enough => ?_⟩
  · refine (lost_or isFound).imp id fun lost => ?_
    obtain ⟨g, isFound', covers⟩ := lost.covered valid
    refine ⟨g, isFound', covers, (lost.covered_cases valid isFound' covers).imp id ?_⟩
    rintro ⟨f', ⟨strict', notFound⟩, covers', takes⟩
    exact ⟨f', strict', notFound, covers', takes⟩
  · refine (found_or_in_lost valid isFound enough).imp id ?_
    rintro ⟨f, ⟨strict', notFound⟩, covers⟩
    exact ⟨f, strict', notFound, covers⟩
  · refine (lost_or isFound).imp id fun lost => ?_
    obtain ⟨g, isFound', covers⟩ := lost.covered valid
    refine ⟨g, isFound', covers, (lost.covered_cases valid isFound' covers).resolve_right ?_⟩
    rintro ⟨f', lost', -, takes⟩
    obtain ⟨following, -, outer⟩ := findAll_hasParts lost'.1
    obtain ⟨following', -, parts⟩ := findAll_hasParts isFound'
    exact parts.not_schemeTakes usual outer takes
  · have noLost {f : Found} (lost : Lost schemes t f) : False := by
      obtain ⟨g, isFound, -, single⟩ := lost.exists_single valid
      have two := enough g isFound
      rw [single] at two
      cases Nat.le_of_succ_le_succ two
    refine findAll_eq_of_mem_iff fun f => ⟨fun isFound => ?_, fun isFound => ?_⟩
    · exact (lost_or isFound).resolve_right noLost
    · refine (found_or_in_lost valid isFound (enough f isFound)).resolve_right ?_
      exact fun ⟨f', lost, _⟩ => noLost lost

/-- A URL in the query of a URL with one label is reported by the strict search only. -/
theorem singleLabel_hides :
    ¬∀ t, ∀ f ∈ (Matcher.ofSchemes ["http".toList] false).findAll t,
      ∃ g ∈ (Matcher.ofSchemes ["http".toList] true).findAll t,
        g.start = f.start ∧ g.stop = f.stop := by
  intro same
  let t := "http://localhost/?u=http://example.com".toList
  let f : Found := ⟨20, "http".toList, ["example".toList, "com".toList], [], []⟩
  have isFound : f ∈ (Matcher.ofSchemes ["http".toList] false).findAll t := by decide +kernel
  have elsewhere : ∀ g ∈ (Matcher.ofSchemes ["http".toList] true).findAll t, g.start ≠ 20 := by
    decide +kernel
  obtain ⟨g, isFound', start, -⟩ := same t f isFound
  exact elsewhere g isFound' start

/-- A chain of URLs that hide one another, where the scheme is the host of one of them and begins
with the port of another; the URL that `singleLabel_hides` is about; and a text without hosts of one
label. -/
theorem findAll_singleLabel_chain :
    (∃ f ∈ (Matcher.ofSchemes ["12.x".toList] false).findAll
        "12.x://a:12.x://12.x://q.r/?u=12.x://e.f".toList, f.url = "12.x://e.f".toList ∧
      ∃ g ∈ (Matcher.ofSchemes ["12.x".toList] true).findAll
        "12.x://a:12.x://12.x://q.r/?u=12.x://e.f".toList, g.Covers f.start ∧
          ∃ f' ∈ (Matcher.ofSchemes ["12.x".toList] false).findAll
            "12.x://a:12.x://12.x://q.r/?u=12.x://e.f".toList,
            f'.Covers g.start ∧ g.raw.SchemeTakes f'.raw) ∧
    (∃ f ∈ (Matcher.ofSchemes ["http".toList] false).findAll
        "http://localhost/?u=http://example.com".toList, f.url = "http://example.com".toList ∧
      ∃ g ∈ (Matcher.ofSchemes ["http".toList] true).findAll
        "http://localhost/?u=http://example.com".toList,
        g.Covers f.start ∧ g.raw.labels.length = 1) ∧
    (Matcher.ofSchemes ["http".toList] false).findAll "(http://a.b)".toList =
      (Matcher.ofSchemes ["http".toList] true).findAll "(http://a.b)".toList := by
  have valid : ∀ scheme ∈ ["12.x".toList], isScheme scheme = true := by decide
  have valid' : ∀ scheme ∈ ["http".toList], isScheme scheme = true := by decide
  refine ⟨?_, ?_, ?_⟩
  · let t := "12.x://a:12.x://12.x://q.r/?u=12.x://e.f".toList
    let f : Found := ⟨30, "12.x".toList, ["e".toList, "f".toList], [], []⟩
    have isFound : f ∈ (Matcher.ofSchemes ["12.x".toList] false).findAll t := by decide +kernel
    have notFound : f ∉ (Matcher.ofSchemes ["12.x".toList] true).findAll t := by decide +kernel
    obtain ⟨g, isFound', covers, cause⟩ :=
      ((findAll_singleLabel valid t).1 f isFound).resolve_left notFound
    have twoLabels : ∀ g ∈ (Matcher.ofSchemes ["12.x".toList] true).findAll t,
        g.Covers 30 → g.raw.labels.length ≠ 1 := by decide +kernel
    obtain ⟨f', strict, -, covers', takes⟩ := cause.resolve_left (twoLabels g isFound' covers)
    exact ⟨f, isFound, by decide +kernel, g, isFound', covers, f', strict, covers', takes⟩
  · let t := "http://localhost/?u=http://example.com".toList
    let f : Found := ⟨20, "http".toList, ["example".toList, "com".toList], [], []⟩
    have isFound : f ∈ (Matcher.ofSchemes ["http".toList] false).findAll t := by decide +kernel
    have notFound : f ∉ (Matcher.ofSchemes ["http".toList] true).findAll t := by decide +kernel
    have usual : ∀ scheme ∈ ["http".toList], '.' ∉ scheme ∧
        ∀ d, scheme.head? = some d → Text.isDecimalDigit d = false := by
      intro scheme member
      cases List.mem_singleton.mp member
      refine ⟨by decide, fun d first => ?_⟩
      cases first
      decide +kernel
    exact ⟨f, isFound, by decide +kernel,
      ((findAll_singleLabel valid' t).2.2.1 usual f isFound).resolve_left notFound⟩
  · exact (findAll_singleLabel valid' "(http://a.b)".toList).2.2.2 (by decide +kernel)

end

end Url

end UrlScan
