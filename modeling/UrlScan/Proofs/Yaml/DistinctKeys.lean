import UrlScan.Proofs.Outcome
import UrlScan.Proofs.Settings.Mappings
import UrlScan.Yaml.Reader

/-!
# The keys of a mapping are distinct

A YAML text may give a key of a mapping more than once, or give one that the mapping also merges.
The value of the text has every key once, in its mappings and in those inside them. So the value of
a key is the one that is looked up, wherever it stands.

Results:
1. `build_wellKeyed`: the value of a node has distinct keys.
2. `read_wellKeyed`: so has the value of a text.
-/

namespace UrlScan

/-- In every mapping of a value, the value itself or inside it, the keys are distinct. -/
inductive Value.WellKeyed : Value → Prop
  | scalar (s : Scalar) : WellKeyed (.scalar s)
  | list {items : List Value} : (∀ item ∈ items, WellKeyed item) → WellKeyed (.list items)
  | mapping {entries : List (Scalar × Value)} : DistinctKeys entries →
      (∀ entry ∈ entries, WellKeyed entry.2) → WellKeyed (.mapping entries)

theorem Value.WellKeyed.distinct {entries : List (Scalar × Value)}
    (wellKeyed : (Value.mapping entries).WellKeyed) : DistinctKeys entries := by
  cases wellKeyed with
  | mapping distinct _ => exact distinct

namespace Yaml

/-- The values of all entries, merged ones and own ones, have distinct keys. -/
def Entries.WellKeyed (e : Entries) : Prop :=
  ∀ entry ∈ e.all, entry.2.WellKeyed

namespace Entries

theorem mem_all {e : Entries} {entry : Scalar × Value} :
    entry ∈ e.all ↔ entry ∈ e.merged ∨ entry ∈ e.own :=
  List.mem_append

/-- Entries that are set one after the other make distinct keys. -/
theorem foldl_put {added result : List (Scalar × Value)} (distinct : DistinctKeys result)
    (old : ∀ entry ∈ result, entry.2.WellKeyed) (new : ∀ entry ∈ added, entry.2.WellKeyed) :
    (Value.mapping (added.foldl (fun result entry => Value.put entry.1 entry.2 result)
      result)).WellKeyed := by
  induction added generalizing result with
  | nil => exact .mapping distinct old
  | cons first rest ih =>
    rw [List.forall_mem_cons] at new
    refine ih (distinct.put first.1 first.2) (fun entry member => ?_) new.2
    rcases Value.mem_put member with isOld | ⟨isNew, -⟩
    · exact old entry isOld
    · exact isNew ▸ new.1

theorem WellKeyed.mapping {e : Entries} (wellKeyed : e.WellKeyed) : e.mapping.WellKeyed :=
  foldl_put .nil (List.forall_mem_nil _) wellKeyed

end Entries

mutual

/-- The value of a node has distinct keys. -/
theorem build_wellKeyed (depth : Nat) (node : Node) : (build depth node).1.WellKeyed := by
  cases node with
  | scalar tag t => exact .scalar _
  | list tag items =>
    have inside := buildItems_wellKeyed (depth + 1) items
    rw [build]
    dsimp only
    by_cases isList : tag = .list
    · rw [if_pos isList]
      exact .list inside
    · rw [if_neg isList]
      exact .scalar _
  | mapping tag entries =>
    have inside := buildEntries_wellKeyed (depth + 1) entries
    rw [build]
    by_cases isMapping : tag = .mapping
    · rw [if_pos isMapping]
      exact inside.mapping
    · rw [if_neg isMapping]
      exact .scalar _

theorem buildItems_wellKeyed (depth : Nat) (items : List Node) :
    ∀ value ∈ (buildItems depth items).1, value.WellKeyed := by
  cases items with
  | nil => exact List.forall_mem_nil _
  | cons item rest =>
    rw [buildItems]
    exact List.forall_mem_cons.mpr
      ⟨build_wellKeyed depth item, buildItems_wellKeyed depth rest⟩

theorem buildEntries_wellKeyed (depth : Nat) (entries : List (Node × Node)) :
    (buildEntries depth entries).WellKeyed := by
  cases entries with
  | nil => exact List.forall_mem_nil _
  | cons first rest =>
    obtain ⟨key, value⟩ := first
    have others := buildEntries_wellKeyed depth rest
    rw [buildEntries]
    dsimp only
    split
    next =>
      have merged := mergeOf_wellKeyed depth value
      intro entry member
      rcases Entries.mem_all.mp member with inMerged | isOwn
      · rcases List.mem_append.mp inMerged with new | old
        · exact merged entry new
        · exact others entry (Entries.mem_all.mpr (.inl old))
      · exact others entry (Entries.mem_all.mpr (.inr isOwn))
    next =>
      intro entry member
      rcases Entries.mem_all.mp member with isMerged | isOwn
      · exact others entry (Entries.mem_all.mpr (.inl isMerged))
      · rcases List.mem_cons.mp isOwn with rfl | old
        · exact build_wellKeyed depth value
        · exact others entry (Entries.mem_all.mpr (.inr old))

theorem mergeOf_wellKeyed (depth : Nat) (node : Node) : (mergeOf depth node).WellKeyed := by
  cases node with
  | scalar tag t => exact List.forall_mem_nil _
  | list tag items => exact mergeItems_wellKeyed depth items
  | mapping tag entries => exact buildEntries_wellKeyed depth entries

theorem mergeItems_wellKeyed (depth : Nat) (items : List Node) :
    (mergeItems depth items).WellKeyed := by
  cases items with
  | nil => exact List.forall_mem_nil _
  | cons item rest =>
    have others := mergeItems_wellKeyed depth rest
    cases item with
    | scalar tag t => exact others
    | list tag items => exact others
    | mapping tag entries =>
      have first := buildEntries_wellKeyed depth entries
      intro entry member
      rw [mergeItems, Entries.mem_all] at member
      rcases member with isMerged | isOwn
      · cases isMerged
      · rcases List.mem_append.mp isOwn with inOthers | inFirst
        · exact others entry inOthers
        · exact first entry inFirst

end

/-- The value of a text has distinct keys. -/
theorem read_wellKeyed {t : Text} {value : Value} (isRead : read t = .ok value) :
    value.WellKeyed := by
  unfold read at isRead
  split at isRead
  next => cases isRead
  next =>
    obtain ⟨found, -, isRead⟩ := ok_of_bind isRead
    obtain ⟨document, -, isRead⟩ := ok_of_bind isRead
    cases document with
    | none =>
      cases isRead
      exact .scalar .null
    | some root =>
      have built := build_wellKeyed 0 root
      dsimp only at isRead
      split at isRead
      next => cases isRead
      next =>
        cases isRead
        exact built

end Yaml

end UrlScan
