import UrlScan.Proofs.Url.LongestWord

/-!
# Where URLs are found

Whatever the schemes of a matcher are: each URL that it finds stands in the text at its offset, and
the next one is searched behind it. So the reported spans cut the reported URLs out of the text, and
they follow one another without overlap.

Results:
1. `read?_isPrefix`: a URL that is read is the beginning of the text.
2. `findFrom_places`, `findAll_place`: every found URL stands at its offset.
3. `findFrom_apart`, `findAll_apart`: a found URL begins behind the end of the one before it.
-/

namespace UrlScan

namespace Url

/-- A URL that is read is the beginning of the text. -/
theorem read?_isPrefix {scheme t : Text} {singleLabel : Bool} {u : Url}
    (read : read? scheme singleLabel t = some u) : u.text <+: t := by
  obtain ⟨spelled, atHost, rfl, -, readBehind⟩ := read?_eq_some_iff.mp read
  obtain ⟨same, -, -, rest, whole, -⟩ := readHost_sound readBehind
  refine ⟨rest, ?_⟩
  rw [whole, ← same]
  simp only [text, List.append_assoc]

theorem trimmed_isPrefix (u : Url) : u.trimmed <+: u.text := by
  obtain ⟨punctuation, whole, -⟩ := isTrimmed_trimmed u
  exact ⟨punctuation, whole.symm⟩

end Url

namespace Matcher

section
variable (m : Matcher)

/-- A URL that a matcher reads is the beginning of the text. -/
theorem read?_isPrefix {t : Text} {u : Url} (read : m.read? t = some u) : u.text <+: t := by
  obtain ⟨scheme, -, found⟩ := List.exists_of_findSome?_eq_some read
  exact Url.read?_isPrefix found

/-- What reading at the beginning of a text yields, where a URL may begin or not. -/
theorem isPrefix_of_read {previous : Option Char} {t : Text} {u : Url}
    (read : (if mayBegin previous then m.read? t else none) = some u) : u.text <+: t := by
  split at read
  next => exact m.read?_isPrefix read
  next => cases read

/-- Every URL that is found in a text stands at its offset; the text begins at `offset`. -/
theorem findFrom_places (previous : Option Char) (offset : Nat) (t : Text) :
    ∀ found ∈ m.findFrom previous offset t,
      offset ≤ found.start ∧ found.raw.text <+: t.drop (found.start - offset) := by
  fun_induction m.findFrom previous offset t with
  | case1 => exact fun _ member => nomatch member
  | case2 previous offset c rest url read ih =>
    intro found member
    rcases List.mem_cons.mp member with rfl | later
    · refine ⟨Nat.le_refl _, ?_⟩
      rw [Nat.sub_self, List.drop_zero]
      exact m.isPrefix_of_read read
    · obtain ⟨after, stands⟩ := ih found later
      rw [List.drop_drop] at stands
      refine ⟨by omega, ?_⟩
      have place : url.text.length + (found.start - (offset + url.text.length)) =
        found.start - offset := by omega
      rwa [place] at stands
  | case3 previous offset c rest none ih =>
    intro found later
    obtain ⟨after, stands⟩ := ih found later
    have place : found.start - offset = found.start - (offset + 1) + 1 := by omega
    exact ⟨by omega, by rwa [place, List.drop_succ_cons]⟩

/-- A URL that is found in a text begins behind the end of the one before it. -/
theorem findFrom_apart (previous : Option Char) (offset : Nat) (t : Text) :
    (m.findFrom previous offset t).Pairwise fun a b => a.start + a.raw.text.length ≤ b.start := by
  fun_induction m.findFrom previous offset t with
  | case1 => exact .nil
  | case2 previous offset c rest url read ih =>
    refine List.pairwise_cons.mpr ⟨fun found later => ?_, ih⟩
    exact (m.findFrom_places _ _ _ found later).1
  | case3 previous offset c rest none ih => exact ih

/-- Every URL that is found stands in the text: between its bounds is what is reported of it. -/
theorem findAll_place {t : Text} {found : Found} (member : found ∈ m.findAll t) :
    found.stop ≤ t.length ∧ (t.take found.stop).drop found.start = found.url := by
  obtain ⟨-, stands⟩ := m.findFrom_places none 0 t found member
  rw [Nat.sub_zero] at stands
  obtain ⟨behind, whole⟩ := found.raw.trimmed_isPrefix.trans stands
  have lengths : found.url.length + behind.length = t.length - found.start := by
    rw [← List.length_append, ← List.length_drop, ← whole]
    rfl
  have positive := found.start_lt_stop
  refine ⟨by rw [Found.stop] at positive ⊢; omega, ?_⟩
  rw [Found.stop, List.drop_take, Nat.add_sub_cancel_left, ← whole]
  exact List.take_left

theorem findAll_apart (t : Text) : (m.findAll t).Pairwise fun a b => a.stop ≤ b.start := by
  refine (m.findFrom_apart none 0 t).imp fun {a b} apart => Nat.le_trans ?_ apart
  exact Nat.add_le_add_left a.raw.trimmed_isPrefix.length_le _

end

end Matcher

end UrlScan
