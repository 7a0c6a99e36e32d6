import UrlScan.Proofs.Text.Joined
import UrlScan.Proofs.Text.Trimmed
import UrlScan.Text.Items

/-!
# Lists between commas

A list can be written as one text, with commas between its items. Whoever writes it may put white
space around the items and may leave places between the commas empty. Which list does such a text
give?

An item is a text that is not empty and has no comma and no white space at its ends (`IsItem`).
`Padded` says how a list may be laid out over the places between the commas: the items in turn, each
with white space around it, and empty places wherever one likes. A text gives a list exactly if its
places are the list laid out in some way (`commaItems_eq_iff`). So no item is lost or added, none is
glued to the next one or torn apart, and the order is kept.

Results:
1. `padded_inPlaces`: any places are some list laid out.
2. `Padded.commaItems_join`: a list that is laid out is given back.
3. `commaItems_eq_iff`: the texts that give a list.
4. `commaItems_written`: lists as they are read and written.
-/

namespace UrlScan.Text

/-- What may stand in a list between commas. -/
structure IsItem (t : Text) : Prop where
  notEmpty : t ≠ []
  noComma : ',' ∉ t
  trimmed : IsTrimmed isBlank t

instance (t : Text) : Decidable (IsItem t) :=
  decidable_of_iff (t ≠ [] ∧ ',' ∉ t ∧ IsTrimmed isBlank t)
    ⟨fun ⟨notEmpty, noComma, trimmed⟩ => ⟨notEmpty, noComma, trimmed⟩,
      fun item => ⟨item.notEmpty, item.noComma, item.trimmed⟩⟩

/-- The items, laid out over places between commas.

* `nothing`: no item over no place.
* `item`: the first item in the first place, with white space around it.
* `empty`: no item in the first place, which has white space at most. -/
inductive Padded : List Text → List Text → Prop
  | nothing : Padded [] []
  | item {before item after : Text} {items places : List Text}
    (inFront : ∀ c ∈ before, isBlank c = true) (behind : ∀ c ∈ after, isBlank c = true)
    (later : Padded items places) : Padded (item :: items) ((before ++ item ++ after) :: places)
  | empty {blank : Text} {items places : List Text} (isEmpty : ∀ c ∈ blank, isBlank c = true)
    (later : Padded items places) : Padded items (blank :: places)

variable {t item : Text} {items places : List Text}

/-! ## Places and their items -/

/-- What is in the places, without the white space around it. -/
def inPlaces (places : List Text) : List Text :=
  (places.map strip).filter (!·.isEmpty)

theorem inPlaces_cons_of_blank {place : Text} (empty : strip place = []) (places : List Text) :
    inPlaces (place :: places) = inPlaces places := by
  rw [inPlaces, List.map_cons, empty, List.filter_cons_of_neg (by decide), inPlaces]

theorem inPlaces_cons {place : Text} (filled : strip place ≠ []) (places : List Text) :
    inPlaces (place :: places) = strip place :: inPlaces places := by
  rw [inPlaces, List.map_cons, List.filter_cons_of_pos (by simpa using filled), inPlaces]

/-- Any places are a layout of what is in them. -/
theorem padded_inPlaces (places : List Text) : Padded (inPlaces places) places := by
  induction places with
  | nil => exact .nothing
  | cons place places ih =>
    by_cases empty : strip place = []
    · rw [inPlaces_cons_of_blank empty]
      exact .empty (trimBoth_eq_nil_iff.mp empty) ih
    · obtain ⟨before, after, inFront, behind, whole⟩ := exists_surrounded isBlank place
      have first := @Padded.item before (strip place) after _ _ inFront behind ih
      rwa [strip, whole, ← strip, ← inPlaces_cons empty] at first

namespace Padded

/-- The items are what is in the places. -/
theorem inPlaces_eq (padded : Padded items places) (areItems : ∀ item ∈ items, IsItem item) :
    inPlaces places = items := by
  induction padded with
  | nothing => rfl
  | @item before item after items places inFront behind later ih =>
    obtain ⟨isItem, others⟩ := List.forall_mem_cons.mp areItems
    have held : strip (before ++ item ++ after) = item :=
      trimBoth_surrounded inFront isItem.trimmed behind
    have filled : strip (before ++ item ++ after) ≠ [] := by
      rw [held]
      exact isItem.notEmpty
    rw [inPlaces_cons filled, held, ih others]
  | empty isEmpty later ih =>
    rw [inPlaces_cons_of_blank (trimBoth_eq_nil_iff.mpr isEmpty), ih areItems]

/-- As a comma is no white space, there is none in the places. -/
theorem noComma (padded : Padded items places) (areItems : ∀ item ∈ items, IsItem item) :
    ∀ place ∈ places, ',' ∉ place := by
  have notBlank {blank : Text} (isEmpty : ∀ c ∈ blank, isBlank c = true) : ',' ∉ blank :=
    fun comma => absurd (isEmpty ',' comma) (by decide)
  induction padded with
  | nothing => exact List.forall_mem_nil _
  | item inFront behind later ih =>
    obtain ⟨isItem, others⟩ := List.forall_mem_cons.mp areItems
    refine List.forall_mem_cons.mpr ⟨?_, ih others⟩
    simp [notBlank inFront, isItem.noComma, notBlank behind]
  | empty isEmpty later ih => exact List.forall_mem_cons.mpr ⟨notBlank isEmpty, ih areItems⟩

end Padded

/-- A list is laid out as it is, with nothing around the items. -/
theorem padded_self (items : List Text) : Padded items items := by
  induction items with
  | nil => exact .nothing
  | cons item items ih =>
    simpa using @Padded.item [] item [] _ _ (List.forall_mem_nil _) (List.forall_mem_nil _) ih

/-! ## Places in one text -/

/-- Places that are joined to one text are found again. -/
theorem commaItems_join (noComma : ∀ place ∈ places, ',' ∉ place) :
    commaItems (join [','] places) = inPlaces places := by
  cases places with
  -- No place and one empty place make the same text.
  | nil => rfl
  | cons place places =>
    rw [commaItems, join, List.splitOn_intercalate ',' noComma (List.cons_ne_nil place places),
      inPlaces]

theorem Padded.commaItems_join (padded : Padded items places)
    (areItems : ∀ item ∈ items, IsItem item) : commaItems (join [','] places) = items := by
  rw [Text.commaItems_join (padded.noComma areItems), padded.inPlaces_eq areItems]

theorem isItem_of_mem (member : item ∈ commaItems t) : IsItem item := by
  obtain ⟨notEmpty, stripped⟩ := mem_stripped member rfl
  refine ⟨notEmpty, fun comma => ?_, trimBoth_eq_self_iff.mp stripped⟩
  obtain ⟨place, inText, rfl⟩ := List.mem_map.mp (List.mem_filter.mp member).1
  exact notMem_of_mem_splitOn inText (mem_of_mem_trimBoth comma)

/-- A text gives a list exactly if it is the list laid out in some way. -/
theorem commaItems_eq_iff :
    commaItems t = items ↔
      (∀ item ∈ items, IsItem item) ∧ ∃ places, Padded items places ∧ join [','] places = t := by
  constructor
  · rintro rfl
    exact ⟨fun item => isItem_of_mem, t.splitOn ',', padded_inPlaces _,
      List.intercalate_splitOn ','⟩
  · rintro ⟨areItems, places, padded, rfl⟩
    exact padded.commaItems_join areItems

/-- Every text gives a list of items, of which it is one of the layouts, and joined with commas the
items give the same list. Conversely every layout of a list of items, with any white space around
the items and any places without one, gives back the items in their order. -/
theorem commaItems_written :
    (∀ t : Text,
      (∀ item ∈ commaItems t, IsItem item) ∧
      (∃ places, Padded (commaItems t) places ∧ join [','] places = t) ∧
      commaItems (join [','] (commaItems t)) = commaItems t) ∧
    ∀ items places : List Text, (∀ item ∈ items, IsItem item) → Padded items places →
      commaItems (join [','] places) = items := by
  refine ⟨fun t => ?_, fun items places areItems padded => padded.commaItems_join areItems⟩
  obtain ⟨areItems, layout⟩ := commaItems_eq_iff.mp (rfl : commaItems t = commaItems t)
  exact ⟨areItems, layout, (padded_self _).commaItems_join areItems⟩

/-- Two items among empty places, with white space of several kinds. -/
theorem commaItems_written_wide :
    (∀ item ∈ ["a".toList, "b c".toList], IsItem item) ∧
    Padded ["a".toList, "b c".toList]
      ["  a\t".toList, " ".toList, "\u3000b c\u00A0".toList, []] ∧
    commaItems "  a\t, ,\u3000b c\u00A0,".toList = ["a".toList, "b c".toList] ∧
    commaItems "a,b c".toList = ["a".toList, "b c".toList] := by
  have areItems : ∀ item ∈ ["a".toList, "b c".toList], IsItem item := by decide
  have blanks {t : Text} (all : t.all isBlank = true) : ∀ c ∈ t, isBlank c = true :=
    List.all_eq_true.mp all
  have padded : Padded ["a".toList, "b c".toList]
      ["  a\t".toList, " ".toList, "\u3000b c\u00A0".toList, []] :=
    @Padded.item [' ', ' '] ['a'] ['\t'] _ _ (blanks rfl) (blanks rfl) <|
      .empty (blanks rfl) <|
      @Padded.item ['\u3000'] ['b', ' ', 'c'] ['\u00A0'] _ _ (blanks rfl) (blanks rfl) <|
      .empty (blanks rfl) .nothing
  obtain ⟨-, givenBack⟩ := commaItems_written
  exact ⟨areItems, padded, givenBack _ _ areItems padded, givenBack _ _ areItems (padded_self _)⟩

end UrlScan.Text
