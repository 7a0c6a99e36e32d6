import UrlScan.Proofs.Language.Additions

/-!
# The language of a file

Which language is a file for? The last component of its path decides. A language that lists it as a
whole file name comes first. Otherwise the name must end with an extension of the language, without
regard to letter case and with something in front of it, so that a file such as `.json` has no
extension; the longest extension wins. Between equals the language that stands first in the registry
wins (`Selected`). Lengths of extensions are those of their lower case.

The name that is told is the name of the selected language, and looking it up again leads back to
that language, since no two languages of a registry have the same name without regard to case.

Results:
1. `Selected.unique`: at most one language is selected.
2. `longest_split`: what is found among the extensions is the first of the longest.
3. `select?_eq_some`, `select?_eq_none`: what is looked for is the selected language.
4. `detect_selected`: the language of a file, for every registry and every path.
-/

namespace UrlScan.Registry

/-- `Ends filename extension`: the file name ends with the extension, without regard to letter case,
and the extension is not the whole name. -/
def Ends (filename extension : Text) : Prop :=
  ∃ front, front ≠ [] ∧ Text.lowercase filename = front ++ Text.lowercase extension

/-- The language of a file name.
* `filename`: it is the first language that lists the file name.
* `extension`: no language lists the file name. The language has an extension that the name ends
  with; no such extension of any language is longer, and no earlier language has one as long. -/
inductive Selected (languages : List Language) (filename : Text) : Language → Prop
  | filename {before after : List Language} {language : Language} :
      languages = before ++ language :: after → filename ∈ language.filenames →
      (∀ earlier ∈ before, filename ∉ earlier.filenames) →
      Selected languages filename language
  | extension {before after : List Language} {language : Language} {extension : Text} :
      (∀ other ∈ languages, filename ∉ other.filenames) →
      languages = before ++ language :: after → extension ∈ language.extensions →
      Ends filename extension →
      (∀ other ∈ languages, ∀ e ∈ other.extensions, Ends filename e →
        (Text.lowercase e).length ≤ (Text.lowercase extension).length) →
      (∀ earlier ∈ before, ∀ e ∈ earlier.extensions, Ends filename e →
        (Text.lowercase e).length ≠ (Text.lowercase extension).length) →
      Selected languages filename language

/-! ## One language at most -/

/-- Of two members of a list the one stands before the other, or they are the same. -/
theorem mem_before_or {α : Type} {before after before' after' : List α} {a a' : α}
    (same : before ++ a :: after = before' ++ a' :: after') : a ∈ before' ∨ a' ∈ before ∨ a = a' := by
  rcases List.append_eq_append_iff.mp same with ⟨more, rfl, rest⟩ | ⟨more, rfl, rest⟩
  all_goals
    cases more with
    | nil => simp_all
    | cons first more => simp_all

section
variable {languages : List Language} {filename : Text} {language other : Language}

theorem Selected.mem (selected : Selected languages filename language) : language ∈ languages := by
  cases selected with
  | filename whole => exact whole ▸ List.mem_append_right _ List.mem_cons_self
  | extension _ whole => exact whole ▸ List.mem_append_right _ List.mem_cons_self

theorem Selected.unique (selected : Selected languages filename language)
    (selected' : Selected languages filename other) : language = other := by
  have member := selected.mem
  have member' := selected'.mem
  cases selected with
  | @filename _ _ _ whole listed first =>
    cases selected' with
    | @filename _ _ _ whole' listed' first' =>
      rcases mem_before_or (whole.symm.trans whole') with earlier | earlier | same
      · exact absurd listed (first' language earlier)
      · exact absurd listed' (first other earlier)
      · exact same
    | extension noName => exact absurd listed (noName language member)
  | @extension _ _ _ e noName whole isExtension ends longest first =>
    cases selected' with
    | filename _ listed' => exact absurd listed' (noName other member')
    | @extension _ _ _ e' _ whole' isExtension' ends' longest' first' =>
      -- Neither extension is longer, so the language that stands first has both on its side.
      have sameLength : (Text.lowercase e).length = (Text.lowercase e').length :=
        Nat.le_antisymm (longest' language member e isExtension ends)
          (longest other member' e' isExtension' ends')
      rcases mem_before_or (whole.symm.trans whole') with earlier | earlier | same
      · exact absurd sameLength (first' language earlier e isExtension ends)
      · exact absurd sameLength.symm (first other earlier e' isExtension' ends')
      · exact same

/-! ## The longest extension -/

theorem longest_eq_none {candidates : List (Text × Language)} :
    longest candidates = none ↔ candidates = [] := by
  refine ⟨fun none => ?_, fun empty => empty ▸ rfl⟩
  cases candidates with
  | nil => rfl
  | cons candidate rest =>
    rw [longest] at none
    split at none
    next => split at none <;> cases none
    next => cases none

/-- What is found is the first of the longest candidates. -/
theorem longest_split {candidates : List (Text × Language)} {best : Text × Language}
    (found : longest candidates = some best) :
    ∃ before after, candidates = before ++ best :: after ∧
      (∀ c ∈ before, c.1.length < best.1.length) ∧ ∀ c ∈ after, c.1.length ≤ best.1.length := by
  induction candidates generalizing best with
  | nil => cases found
  | cons candidate rest ih =>
    rw [longest] at found
    split at found
    next later foundLater =>
      obtain ⟨before, after, rfl, shorter, atMost⟩ := ih foundLater
      split at found
      next longer =>
        cases found
        exact ⟨candidate :: before, after, rfl, List.forall_mem_cons.mpr ⟨longer, shorter⟩, atMost⟩
      next notLonger =>
        cases found
        have noLonger := Nat.not_lt.mp notLonger
        refine ⟨[], before ++ later :: after, rfl, List.forall_mem_nil _,
          List.forall_mem_append.mpr ⟨fun c earlier => ?_, List.forall_mem_cons.mpr
            ⟨noLonger, fun c member => Nat.le_trans (atMost c member) noLonger⟩⟩⟩
        exact Nat.le_trans (Nat.le_of_lt (shorter c earlier)) noLonger
    next noneLater =>
      cases found
      rw [longest_eq_none.mp noneLater]
      exact ⟨[], [], rfl, List.forall_mem_nil _, List.forall_mem_nil _⟩

theorem ends_iff (filename extension : Text) :
    Ends filename extension ↔
      (Text.lowercase extension).length < (Text.lowercase filename).length ∧
        Text.endsWith (Text.lowercase filename) (Text.lowercase extension) = true := by
  rw [Text.endsWith, List.isSuffixOf_iff_suffix]
  constructor
  · rintro ⟨front, nonempty, same⟩
    rw [same, List.length_append]
    exact ⟨Nat.lt_add_of_pos_left (List.length_pos_of_ne_nil nonempty), front, rfl⟩
  · rintro ⟨shorter, front, same⟩
    refine ⟨front, ?_, same.symm⟩
    rintro rfl
    rw [← same] at shorter
    exact Nat.lt_irrefl _ shorter

/-- The extensions of some languages that a file name ends with. -/
def fitting (languages : List Language) (filename : Text) : List (Text × Language) :=
  languages.flatMap fun l =>
    ((l.extensions.map Text.lowercase).filter fun e =>
      e.length < (Text.lowercase filename).length &&
        Text.endsWith (Text.lowercase filename) e).map (·, l)

theorem extensionMatches_eq (r : Registry) (filename : Text) :
    r.extensionMatches filename = fitting r.languages filename :=
  rfl

theorem fitting_append (languages more : List Language) (filename : Text) :
    fitting (languages ++ more) filename = fitting languages filename ++ fitting more filename :=
  List.flatMap_append

theorem mem_fitting {candidate : Text × Language} :
    candidate ∈ fitting languages filename ↔
      candidate.2 ∈ languages ∧ ∃ e ∈ candidate.2.extensions,
        Ends filename e ∧ Text.lowercase e = candidate.1 := by
  obtain ⟨x, l⟩ := candidate
  simp only [fitting, List.mem_flatMap, List.mem_map, List.mem_filter, Bool.and_eq_true,
    decide_eq_true_eq, Prod.mk.injEq, ends_iff]
  constructor
  · rintro ⟨_, member, _, ⟨⟨e, isExtension, rfl⟩, ends⟩, rfl, rfl⟩
    exact ⟨member, e, isExtension, ends, rfl⟩
  · rintro ⟨member, e, isExtension, ends, rfl⟩
    exact ⟨l, member, _, ⟨⟨e, isExtension, rfl⟩, ends⟩, rfl, rfl⟩

/-- The front of a list that lacks one of its members ends before that member. -/
theorem mem_before_of_not_mem {α : Type} {before after front back : List α} {a : α}
    (same : before ++ a :: after = front ++ back) (absent : a ∉ front) :
    ∀ c ∈ front, c ∈ before := by
  rcases List.append_eq_append_iff.mp same with ⟨more, rfl, rest⟩ | ⟨more, rfl, -⟩
  · cases more with
    | nil => simp
    | cons first more =>
      rw [List.cons_append, List.cons.injEq] at rest
      exact absurd (List.mem_append_right _ (rest.1 ▸ List.mem_cons_self)) absent
  · exact fun c member => List.mem_append_left _ member

/-- The language of the longest extension is selected, when no file name is listed. -/
theorem Selected.of_longest {best : Text × Language}
    (noName : ∀ l ∈ languages, filename ∉ l.filenames)
    (found : longest (fitting languages filename) = some best) :
    Selected languages filename best.2 := by
  obtain ⟨shorter, others, split, isShorter, atMost⟩ := longest_split found
  have isCandidate : best ∈ fitting languages filename :=
    split ▸ List.mem_append_right _ List.mem_cons_self
  obtain ⟨member, e, isExtension, ends, lowered⟩ := mem_fitting.mp isCandidate
  obtain ⟨before, after, whole, absent⟩ := List.eq_append_cons_of_mem member
  have earlierShorter : ∀ c ∈ fitting before filename, c ∈ shorter := by
    rw [whole, fitting_append] at split
    exact mem_before_of_not_mem split.symm fun early => absent (mem_fitting.mp early).1
  refine .extension noName whole isExtension ends (fun other otherMember x isOther endsOther => ?_)
    (fun earlier earlierMember x isEarlier endsEarlier => ?_)
  · have isCandidate : (Text.lowercase x, other) ∈ fitting languages filename :=
      mem_fitting.mpr ⟨otherMember, x, isOther, endsOther, rfl⟩
    rw [lowered]
    rw [split] at isCandidate
    rcases List.mem_append.mp isCandidate with early | late
    · exact Nat.le_of_lt (isShorter _ early)
    · rcases List.mem_cons.mp late with rfl | late
      · exact Nat.le_refl _
      · exact atMost _ late
  · have isEarly : (Text.lowercase x, earlier) ∈ fitting before filename :=
      mem_fitting.mpr ⟨earlierMember, x, isEarlier, endsEarlier, rfl⟩
    rw [lowered]
    exact Nat.ne_of_lt (isShorter _ (earlierShorter _ isEarly))

/-! ## What is looked for -/

/-- The language of a file name, as it is looked for: among the file names, then among the
extensions. -/
def select? (languages : List Language) (filename : Text) : Option Language :=
  (languages.find? fun l => l.filenames.contains filename).or
    ((longest (fitting languages filename)).map (·.2))

theorem detect_eq (r : Registry) (path : Text) :
    r.detect path =
      if (Path.parse path).name = [] then unknown
      else ((select? r.languages (Path.parse path).name).map Language.name).getD unknown := by
  unfold detect select?
  dsimp only
  rw [extensionMatches_eq]
  by_cases empty : (Path.parse path).name = []
  · rw [if_pos empty, if_pos (List.isEmpty_iff.mpr empty)]
  · rw [if_neg empty, if_neg (fun h => empty (List.isEmpty_iff.mp h))]
    cases r.languages.find? fun l => l.filenames.contains (Path.parse path).name with
    | some language => rfl
    | none => rw [Option.none_or, Option.map_map]; rfl

theorem select?_eq_none :
    select? languages filename = none ↔
      ∀ l ∈ languages, filename ∉ l.filenames ∧ ∀ e ∈ l.extensions, ¬Ends filename e := by
  rw [select?, Option.or_eq_none_iff, List.find?_eq_none, Option.map_eq_none_iff, longest_eq_none,
    List.eq_nil_iff_forall_not_mem]
  constructor
  · rintro ⟨noName, noneFits⟩ l member
    refine ⟨by simpa using noName l member, fun e isExtension ends => ?_⟩
    exact noneFits (Text.lowercase e, l) (mem_fitting.mpr ⟨member, e, isExtension, ends, rfl⟩)
  · intro unfit
    refine ⟨fun l member => by simpa using (unfit l member).1, fun candidate fits => ?_⟩
    obtain ⟨member, e, isExtension, ends, -⟩ := mem_fitting.mp fits
    exact (unfit candidate.2 member).2 e isExtension ends

theorem Selected.of_select? (found : select? languages filename = some language) :
    Selected languages filename language := by
  rw [select?] at found
  cases listed : languages.find? fun l => l.filenames.contains filename with
  | some first =>
    rw [listed, Option.some_or] at found
    cases found
    obtain ⟨lists, before, after, whole, none⟩ := List.find?_eq_some_iff_append.mp listed
    exact .filename whole (by simpa using lists) (by simpa using none)
  | none =>
    rw [listed, Option.none_or, Option.map_eq_some_iff] at found
    obtain ⟨best, found, rfl⟩ := found
    exact .of_longest (by simpa using List.find?_eq_none.mp listed) found

/-- What is looked for is the selected language. -/
theorem select?_eq_some :
    select? languages filename = some language ↔ Selected languages filename language := by
  refine ⟨.of_select?, fun selected => ?_⟩
  cases found : select? languages filename with
  | some other => rw [selected.unique (.of_select? found)]
  | none =>
    obtain ⟨noName, noneFits⟩ := select?_eq_none.mp found language selected.mem
    cases selected with
    | filename _ listed => exact absurd listed noName
    | extension _ _ isExtension ends => exact absurd ends (noneFits _ isExtension)

/-! ## The name leads back -/

/-- A language with a name is found again by that name. -/
theorem language?_of_mem {r : Registry} (distinct : r.Distinct) (member : language ∈ r.languages)
    (named : language.name ≠ []) : r.language? language.name = some language := by
  obtain ⟨entry, inEntries, rfl⟩ := List.mem_map.mp member
  have notEmpty : ¬entry.language.name.isEmpty = true := fun empty =>
    named (List.isEmpty_iff.mp empty)
  have found : r.find? entry.language.name = some entry := by
    rw [find?, if_neg notEmpty]
    exact find?_of_mem distinct inEntries
  rw [language?, found, Option.map_some]

/-- The language that is told for a file of a registry after any requests. If the last component of
the path selects a language, then only one, its name is told, and unless that name is empty it leads
back to that language. If the component is empty, or no file name and no extension of a language
fits it, the file's language is unknown. Nothing but the last component counts. -/
theorem detect_selected (package : Option GrammarPackage) (initial : List Language)
    (requests : List Request) (path : Text) :
    let r := (ofLanguages package initial).serveAll requests
    let filename := (Path.parse path).name
    ((∃ language, filename ≠ [] ∧
          (∀ other, Selected r.languages filename other ↔ other = language) ∧
          r.detect path = language.name ∧
          (language.name ≠ [] → r.language? language.name = some language)) ∨
        ((filename = [] ∨ ∀ l ∈ r.languages,
            filename ∉ l.filenames ∧ ∀ e ∈ l.extensions, ¬Ends filename e) ∧
          r.detect path = unknown)) ∧
      ∀ other, (Path.parse other).name = filename → r.detect other = r.detect path := by
  intro r filename
  have distinct : r.Distinct := ((sound_ofLanguages package initial).serveAll requests).distinct
  refine ⟨?_, fun other same => by rw [detect_eq, detect_eq, same]⟩
  rw [detect_eq]
  by_cases empty : filename = []
  · exact .inr ⟨.inl empty, if_pos empty⟩
  · rw [if_neg empty]
    cases found : select? r.languages filename with
    | none => exact .inr ⟨.inr (select?_eq_none.mp found), rfl⟩
    | some language =>
      have selected := select?_eq_some.mp found
      refine .inl ⟨language, empty, fun other => ⟨fun selected' => selected'.unique selected, ?_⟩,
        rfl, language?_of_mem distinct selected.mem⟩
      rintro rfl
      exact selected

end

end UrlScan.Registry
