import UrlScan.Proofs.Text.WholeNumbers
import UrlScan.Settings.Scan

/-!
# Values that can be shown

A value is shown unless a whole number in it, however deep and also as a key, has more digits than
may be written (`Value.Shows`). A list is taken for its items as it is, whatever is in it, and any
other value is shown for this; so the items of a list are always there, and those of another value
if it can be shown (`Value.HasItems`).

Results:
1. `display_guarded`: a value is shown exactly if its numbers can be written.
2. `itemsOf_guarded`: the items of an option that is a list.
-/

namespace UrlScan

/-- The error for a number that cannot be written. -/
def digitError : Text.TooManyDigits := ⟨Text.maxIntegerDigits⟩

/-- A scalar is no whole number with too many digits. -/
def Scalar.Shows : Scalar → Prop
  | number n => Text.Writable Text.digitLimit n
  | _ => True

/-- No whole number in a value has too many digits. -/
inductive Value.Shows : Value → Prop
  | scalar {s : Scalar} : s.Shows → Shows (.scalar s)
  | list {items : List Value} : (∀ item ∈ items, Shows item) → Shows (.list items)
  | mapping {entries : List (Scalar × Value)} : (∀ entry ∈ entries, entry.1.Shows) →
      (∀ entry ∈ entries, Shows entry.2) → Shows (.mapping entries)

namespace Scalar

theorem display_guarded (s : Scalar) : ∃ t, Guarded s.display s.Shows t digitError := by
  cases s with
  | number n => exact ⟨_, Text.ofInt_guarded Text.digitLimit n⟩
  | flag b => cases b <;> exact ⟨_, guarded_ok _ _⟩
  | _ => exact ⟨_, guarded_ok _ _⟩

theorem displayInside_guarded (s : Scalar) :
    ∃ t, Guarded s.displayInside s.Shows t digitError := by
  cases s with
  | text t => exact ⟨_, guarded_ok _ _⟩
  | date d => exact ⟨_, guarded_ok _ _⟩
  | moment m => exact ⟨_, guarded_ok _ _⟩
  | null => exact display_guarded .null
  | flag b => exact display_guarded (.flag b)
  | number n => exact display_guarded (.number n)
  | real x => exact display_guarded (.real x)

end Scalar

namespace Value

theorem shows_scalar_iff {s : Scalar} : (Value.scalar s).Shows ↔ s.Shows := by
  refine ⟨fun shows => ?_, .scalar⟩
  cases shows with
  | scalar shows => exact shows

theorem shows_list_iff {items : List Value} :
    (Value.list items).Shows ↔ ∀ item ∈ items, item.Shows := by
  refine ⟨fun shows => ?_, .list⟩
  cases shows with
  | list shows => exact shows

theorem shows_mapping_iff {entries : List (Scalar × Value)} :
    (Value.mapping entries).Shows ↔ ∀ entry ∈ entries, entry.1.Shows ∧ entry.2.Shows := by
  rw [forall₂_and]
  refine ⟨fun shows => ?_, fun shows => .mapping shows.1 shows.2⟩
  cases shows with
  | mapping keys values => exact ⟨keys, values⟩

mutual
theorem displayInside_guarded (v : Value) :
    ∃ t, Guarded v.displayInside v.Shows t digitError := by
  cases v with
  | scalar s =>
    obtain ⟨t, guarded⟩ := s.displayInside_guarded
    exact ⟨t, guarded.of_iff shows_scalar_iff.symm⟩
  | list items =>
    obtain ⟨shown, guarded⟩ := displayItems_guarded items
    exact ⟨_, (guarded.map _).of_iff shows_list_iff.symm⟩
  | mapping entries =>
    obtain ⟨shown, guarded⟩ := displayEntries_guarded entries
    exact ⟨_, (guarded.map _).of_iff shows_mapping_iff.symm⟩

theorem displayItems_guarded (items : List Value) :
    ∃ shown, Guarded (displayItems items) (∀ item ∈ items, item.Shows) shown digitError := by
  cases items with
  | nil => exact ⟨[], (guarded_ok _ _).of_iff (iff_of_true trivial (List.forall_mem_nil _))⟩
  | cons item rest =>
    obtain ⟨first, ofItem⟩ := displayInside_guarded item
    obtain ⟨others, ofRest⟩ := displayItems_guarded rest
    exact ⟨_, (ofItem.bind (ofRest.map (first :: ·))).of_iff List.forall_mem_cons.symm⟩

theorem displayEntries_guarded (entries : List (Scalar × Value)) :
    ∃ shown, Guarded (displayEntries entries)
      (∀ entry ∈ entries, entry.1.Shows ∧ entry.2.Shows) shown digitError := by
  cases entries with
  | nil => exact ⟨[], (guarded_ok _ _).of_iff (iff_of_true trivial (List.forall_mem_nil _))⟩
  | cons entry rest =>
    obtain ⟨key, value⟩ := entry
    obtain ⟨shownKey, ofKey⟩ := key.displayInside_guarded
    obtain ⟨shownValue, ofValue⟩ := displayInside_guarded value
    obtain ⟨others, ofRest⟩ := displayEntries_guarded rest
    have ofEntry := ofRest.map ((shownKey ++ [':', ' '] ++ shownValue) :: ·)
    refine ⟨_, (ofKey.bind (ofValue.bind ofEntry)).of_iff ?_⟩
    rw [List.forall_mem_cons, and_assoc]
end

theorem display_guarded (v : Value) : ∃ t, Guarded v.display v.Shows t digitError := by
  cases v with
  | scalar s =>
    obtain ⟨t, guarded⟩ := s.display_guarded
    exact ⟨t, guarded.of_iff shows_scalar_iff.symm⟩
  | list items => exact displayInside_guarded (.list items)
  | mapping entries => exact displayInside_guarded (.mapping entries)

/-- A value has items: it is a list, or it can be shown. -/
def HasItems : Value → Prop
  | list _ => True
  | v => v.Shows

theorem items_guarded (v : Value) : ∃ items, Guarded v.items v.HasItems items digitError := by
  have taken (v : Value) : ∃ items, Guarded
      (v.display >>= fun shown => .ok ((Text.commaItems shown).map text)) v.Shows items
      digitError := by
    obtain ⟨shown, guarded⟩ := v.display_guarded
    exact ⟨_, guarded.map _⟩
  cases v with
  | list items => exact ⟨items, guarded_ok _ _⟩
  | mapping entries => exact taken (.mapping entries)
  | scalar s =>
    cases s with
    | null => exact ⟨[], (guarded_ok _ _).of_iff (iff_of_true trivial (.scalar trivial))⟩
    | flag b => exact taken (.flag b)
    | number n => exact taken (.number n)
    | real x => exact taken (.scalar (.real x))
    | date d => exact taken (.scalar (.date d))
    | moment m => exact taken (.scalar (.moment m))
    | text t => exact taken (.text t)

theorem hasItems_iff {v : Value} : v.HasItems ↔ ∃ items, v.items = .ok items := by
  obtain ⟨items, guarded⟩ := v.items_guarded
  exact ⟨fun has => ⟨items, guarded.ok has⟩, fun ⟨_, found⟩ => guarded.of_ok found⟩

end Value

/-- An option that is a list has the items of its value, unless the value cannot be shown. -/
theorem ScanOptions.itemsOf_guarded (value : Value) :
    ∃ items, Guarded (itemsOf value) value.HasItems items
      (.wrongKind (.tooManyDigits digitError)) := by
  obtain ⟨items, guarded⟩ := value.items_guarded
  exact ⟨items, guarded.mapError fun error => SettingsError.wrongKind (.tooManyDigits error)⟩

end UrlScan
