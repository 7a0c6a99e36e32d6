import Mathlib.Data.Char
import Mathlib.Data.List.Lex
import Mathlib.Data.List.Sort
import UrlScan.Text.Basic

/-!
# Texts in order

Texts are ordered by their code points, the first difference first, which is the order of lists over
the order of characters. The members of a list that are sorted by a key, each once, increase
strictly if no two of them have the same key; and a strictly increasing list is determined by its
members.

Results:
1. `before_iff_lt`: the order of texts is the order of lists.
2. `mergeSort_increases`, `eq_of_increases`: what is sorted by a key.
-/

namespace UrlScan

theorem nodup_eraseDups {α : Type} [BEq α] [LawfulBEq α] (items : List α) :
    items.eraseDups.Nodup := by
  generalize size : items.length = n
  induction n using Nat.strongRecOn generalizing items with
  | ind n ih =>
    cases items with
    | nil => exact .nil
    | cons item rest =>
      -- `eraseDups` goes on in the rest without the copies of `item`, which need not be a tail.
      rw [List.eraseDups_cons]
      refine List.nodup_cons.mpr ⟨?_, ih _ ?_ _ rfl⟩
      · rw [List.mem_eraseDups, List.mem_filter]
        rintro ⟨-, different⟩
        simp at different
      · have shorter := List.length_filter_le (fun other => !other == item) rest
        rw [List.length_cons] at size
        omega

theorem Text.before_iff_lt {s t : Text} : Text.before s t = true ↔ s < t := by
  induction s generalizing t with
  | nil => cases t <;> simp [Text.before]
  | cons a s ih => cases t <;> simp [Text.before, List.cons_lt_cons_iff, ih]

section
variable {α β : Type} [LinearOrder β] {key : α → β} {items others : List α}

/-- What is sorted by a key that tells its members apart increases strictly. -/
theorem mergeSort_increases {atMost : α → α → Bool}
    (isOrder : ∀ a b, atMost a b = true ↔ key a ≤ key b) (distinct : items.Nodup)
    (injective : ∀ a ∈ items, ∀ b ∈ items, key a = key b → a = b) :
    (items.mergeSort atMost).Pairwise fun a b => key a < key b := by
  have sorted : (items.mergeSort atMost).Pairwise fun a b => atMost a b = true :=
    List.pairwise_mergeSort
      (fun a b c ab bc => (isOrder a c).mpr (((isOrder a b).mp ab).trans ((isOrder b c).mp bc)))
      (fun a b => by
        rw [Bool.or_eq_true, isOrder, isOrder]
        exact le_total (key a) (key b))
      items
  have apart : (items.mergeSort atMost).Nodup :=
    (List.mergeSort_perm items _).nodup_iff.mpr distinct
  refine (sorted.and apart).imp_of_mem fun {a b} inA inB ⟨ordered, different⟩ => ?_
  refine lt_of_le_of_ne ((isOrder a b).mp ordered) fun equal => different ?_
  exact injective a (List.mem_mergeSort.mp inA) b (List.mem_mergeSort.mp inB) equal

/-- A list that increases strictly is determined by its members. -/
theorem eq_of_increases (increases : items.Pairwise fun a b => key a < key b)
    (othersIncrease : others.Pairwise fun a b => key a < key b)
    (same : ∀ a, a ∈ items ↔ a ∈ others) : items = others := by
  have apart {list : List α} (sorted : list.Pairwise fun a b => key a < key b) : list.Nodup :=
    sorted.imp fun below equal => below.ne (congrArg key equal)
  have permuted : items.Perm others :=
    (List.perm_ext_iff_of_nodup (apart increases) (apart othersIncrease)).mpr same
  exact permuted.eq_of_pairwise (fun a b _ _ below above => absurd below above.asymm) increases
    othersIncrease

end

end UrlScan
