import Mathlib.Data.List.DropRight
import UrlScan.Text.Blank

/-!
# Trimmed texts

A text is trimmed if no character of a class stands at one of its ends. Trimming a text gives a
trimmed one, leaves a trimmed one as it is, and takes away exactly what was put around it.

Results:
1. `IsTrimmed.append`: trimmed texts one behind the other.
2. `trimBoth_surrounded`: what was put around a trimmed text is taken away.
3. `trimBoth_eq_self_iff`, `isTrimmed_trimBoth`: the trimmed texts are those that trimming leaves as
   they are, and those that it gives.
4. `exists_surrounded`, `trimBoth_eq_nil_iff`: what trimming takes away.
-/

namespace UrlScan.Text

/-- No character of the class stands at the beginning or at the end. -/
structure IsTrimmed (p : Char → Bool) (t : Text) : Prop where
  start : ∀ c ∈ t.head?, p c = false
  finish : ∀ c ∈ t.getLast?, p c = false

variable {p : Char → Bool} {s t : Text}

namespace IsTrimmed

theorem of_forall (others : ∀ c ∈ t, p c = false) : IsTrimmed p t :=
  ⟨fun c first => others c (List.mem_of_head? first),
    fun c last => others c (List.mem_of_getLast? last)⟩

/-- Trimmed texts one behind the other are a trimmed text. -/
theorem append (first : IsTrimmed p s) (second : IsTrimmed p t) : IsTrimmed p (s ++ t) := by
  constructor
  · cases s with
    | nil => exact second.start
    | cons c rest => exact first.start
  · intro c last
    rw [List.getLast?_append] at last
    cases found : t.getLast? with
    | none =>
      rw [found, Option.none_or] at last
      exact first.finish c last
    | some d =>
      rw [found, Option.some_or] at last
      exact second.finish c (found ▸ last)

end IsTrimmed

/-! ## Trimming -/

theorem trimStart_eq_self (trimmed : IsTrimmed p t) : trimStart p t = t := by
  cases t with
  | nil => rfl
  | cons c rest =>
    refine List.dropWhile_cons_of_neg ?_
    rw [trimmed.start c rfl]
    exact Bool.false_ne_true

theorem trimEnd_append_of_forall (outside : ∀ c ∈ s, p c = true) :
    trimEnd p (t ++ s) = trimEnd p t := by
  rw [trimEnd, List.reverse_append, List.dropWhile_append_of_pos (by simpa using outside), trimEnd]

theorem trimEnd_eq_self (trimmed : IsTrimmed p t) : trimEnd p t = t := by
  have reversed : IsTrimmed p t.reverse :=
    ⟨by simpa using trimmed.finish, by simpa using trimmed.start⟩
  have kept : t.reverse.dropWhile p = t.reverse := trimStart_eq_self reversed
  rw [trimEnd, kept, List.reverse_reverse]

/-- Characters of the class around a trimmed text are taken away, and no others. -/
theorem trimBoth_surrounded {before after : Text} (inFront : ∀ c ∈ before, p c = true)
    (trimmed : IsTrimmed p t) (behind : ∀ c ∈ after, p c = true) :
    trimBoth p (before ++ t ++ after) = t := by
  rw [trimBoth, trimStart, List.append_assoc, List.dropWhile_append_of_pos inFront]
  cases t with
  | nil =>
    rw [List.nil_append, List.dropWhile_eq_nil_iff.mpr behind]
    rfl
  | cons c rest =>
    have kept : ¬p c = true := by
      rw [trimmed.start c rfl]
      exact Bool.false_ne_true
    rw [List.cons_append, List.dropWhile_cons_of_neg kept, ← List.cons_append,
      trimEnd_append_of_forall behind, trimEnd_eq_self trimmed]

/-- What is trimmed at the end of a text is not there afterwards. -/
theorem getLast?_trimEnd {c : Char} (last : (trimEnd p t).getLast? = some c) : p c = false := by
  rw [trimEnd, List.getLast?_reverse] at last
  have kept := List.head?_dropWhile_not p t.reverse
  rw [last] at kept
  exact kept

theorem isTrimmed_trimBoth (p : Char → Bool) (t : Text) : IsTrimmed p (trimBoth p t) := by
  refine ⟨fun c first => ?_, fun c last => getLast?_trimEnd last⟩
  -- The end is trimmed without a change at the beginning.
  obtain ⟨rest, whole⟩ : trimBoth p t <+: trimStart p t := List.rdropWhile_prefix p _
  have first : (t.dropWhile p).head? = some c := by
    rw [← trimStart, ← whole, List.head?_append, Option.mem_def.mp first, Option.some_or]
  have kept := List.head?_dropWhile_not p t
  rw [first] at kept
  exact kept

theorem trimBoth_eq_self_iff : trimBoth p t = t ↔ IsTrimmed p t := by
  constructor
  · intro same
    rw [← same]
    exact isTrimmed_trimBoth p t
  · intro trimmed
    rw [trimBoth, trimStart_eq_self trimmed, trimEnd_eq_self trimmed]

instance (p : Char → Bool) (t : Text) : Decidable (IsTrimmed p t) :=
  decidable_of_iff (trimBoth p t = t) trimBoth_eq_self_iff

/-- A text is what trimming leaves of it, with characters of the class around it. -/
theorem exists_surrounded (p : Char → Bool) (t : Text) :
    ∃ before after : Text, (∀ c ∈ before, p c = true) ∧ (∀ c ∈ after, p c = true) ∧
      before ++ trimBoth p t ++ after = t := by
  refine ⟨t.takeWhile p, (trimStart p t).rtakeWhile p, fun c => List.mem_takeWhile_imp,
    fun c => List.mem_rtakeWhile_imp, ?_⟩
  calc
    t.takeWhile p ++ trimBoth p t ++ (trimStart p t).rtakeWhile p
    _ = t.takeWhile p ++ ((trimStart p t).rdropWhile p ++ (trimStart p t).rtakeWhile p) :=
      List.append_assoc ..
    _ = t.takeWhile p ++ t.dropWhile p := by rw [List.rdropWhile_append_rtakeWhile, trimStart]
    _ = t := List.takeWhile_append_dropWhile

/-- Nothing is left of a text exactly if all its characters are of the class. -/
theorem trimBoth_eq_nil_iff : trimBoth p t = [] ↔ ∀ c ∈ t, p c = true := by
  constructor
  · intro none c member
    obtain ⟨before, after, inFront, behind, whole⟩ := exists_surrounded p t
    rw [none, List.append_nil] at whole
    rw [← whole] at member
    exact (List.mem_append.mp member).elim (inFront c) (behind c)
  · intro all
    have empty : IsTrimmed p [] := .of_forall (List.forall_mem_nil _)
    simpa using trimBoth_surrounded all empty (List.forall_mem_nil _)

theorem mem_of_mem_trimBoth {c : Char} (member : c ∈ trimBoth p t) : c ∈ t := by
  obtain ⟨before, after, -, -, whole⟩ := exists_surrounded p t
  rw [← whole]
  exact List.mem_append_left _ (List.mem_append_right _ member)

/-- Of some parts those without the white space around them are left that are not empty. -/
theorem mem_stripped {parts : List Text} {keep : Text → Bool}
    (member : t ∈ (parts.map strip).filter keep) (dropsEmpty : keep [] = false) :
    t ≠ [] ∧ strip t = t := by
  obtain ⟨inParts, kept⟩ := List.mem_filter.mp member
  obtain ⟨part, -, rfl⟩ := List.mem_map.mp inParts
  refine ⟨fun empty => ?_, trimBoth_eq_self_iff.mpr (isTrimmed_trimBoth _ _)⟩
  rw [empty, dropsEmpty] at kept
  cases kept

end UrlScan.Text
