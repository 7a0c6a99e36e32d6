import Mathlib.Data.List.Basic
import UrlScan.Text.Basic

/-!
# Joined parts

A host is joined of its labels with dots, and a path of its names with slashes. These lemmas say
what a text that is joined with a character begins and ends with, and which characters it has. Any
text can be taken apart again, one part after the other (`part_induction`).
-/

namespace UrlScan.Text

variable {separator : Char} {parts : List Text}

theorem join_singleton (part : Text) : join [separator] [part] = part := by
  simp [join, List.intercalate]

theorem join_cons_cons (first second : Text) (rest : List Text) :
    join [separator] (first :: second :: rest) =
      first ++ separator :: join [separator] (second :: rest) :=
  rfl

theorem join_cons {part : Text} (more : parts ≠ []) :
    join [separator] (part :: parts) = part ++ separator :: join [separator] parts := by
  cases parts with
  | nil => exact absurd rfl more
  | cons next rest => exact join_cons_cons part next rest

theorem length_le_length_join (separator : Char) (part : Text) (parts : List Text) :
    part.length ≤ (join [separator] (part :: parts)).length := by
  cases parts with
  | nil => simp [join_singleton]
  | cons second rest => simp [join_cons_cons]

/-- How long joined parts are depends on how long the parts are, and on nothing else. -/
theorem length_join_congr {first second : Char} {others : List Text}
    (same : parts.map List.length = others.map List.length) :
    (join [first] parts).length = (join [second] others).length := by
  induction parts generalizing others with
  | nil => rw [List.map_eq_nil_iff.mp same.symm]; rfl
  | cons part rest ih =>
    cases others with
    | nil => cases same
    | cons other others =>
      obtain ⟨sameLength, sameRest⟩ := List.cons.inj same
      cases rest with
      | nil =>
        rw [List.map_eq_nil_iff.mp sameRest.symm, join_singleton, join_singleton, sameLength]
      | cons next rest =>
        cases others with
        | nil => cases sameRest
        | cons nextOther others =>
          rw [join_cons_cons, join_cons_cons, List.length_append, List.length_append,
            List.length_cons, List.length_cons, sameLength, ih sameRest]

/-- The characters of joined parts are those of the parts and the separators between them. -/
theorem mem_join {c : Char} (member : c ∈ join [separator] parts) :
    c = separator ∨ ∃ part ∈ parts, c ∈ part := by
  induction parts with
  | nil => cases member
  | cons part rest ih =>
    cases rest with
    | nil =>
      rw [join_singleton] at member
      exact Or.inr ⟨part, List.mem_cons_self, member⟩
    | cons next rest =>
      rw [join_cons_cons] at member
      rcases List.mem_append.mp member with inPart | member
      · exact Or.inr ⟨part, List.mem_cons_self, inPart⟩
      · rcases List.mem_cons.mp member with same | later
        · exact Or.inl same
        · rcases ih later with same | ⟨other, otherMember, inOther⟩
          · exact Or.inl same
          · exact Or.inr ⟨other, List.mem_cons_of_mem _ otherMember, inOther⟩

/-- Joined parts end with the end of the last one. -/
theorem join_eq_append_last (notEmpty : parts ≠ []) :
    ∃ start, ∃ part ∈ parts, join [separator] parts = start ++ part := by
  induction parts with
  | nil => exact absurd rfl notEmpty
  | cons part rest ih =>
    cases rest with
    | nil => exact ⟨[], part, List.mem_cons_self, join_singleton part⟩
    | cons next rest =>
      obtain ⟨start, last, member, whole⟩ := ih (List.cons_ne_nil next rest)
      refine ⟨part ++ separator :: start, last, List.mem_cons_of_mem _ member, ?_⟩
      rw [join_cons_cons, whole, List.append_assoc, List.cons_append]

/-- The separator stands between two parts. -/
theorem separator_mem_join (enough : 2 ≤ parts.length) : separator ∈ join [separator] parts := by
  cases parts with
  | nil => cases enough
  | cons part parts =>
    rw [join_cons (List.length_pos_iff.mp (Nat.le_of_succ_le_succ enough))]
    simp

/-! ## Taking a text apart -/

/-- Every text is free of a separator, or it begins with such a part and the separator. -/
@[elab_as_elim]
theorem part_induction (separator : Char) {motive : Text → Prop}
    (last : ∀ part, separator ∉ part → motive part)
    (more : ∀ part rest, separator ∉ part → motive rest → motive (part ++ separator :: rest))
    (t : Text) : motive t := by
  by_cases separated : separator ∈ t
  · obtain ⟨part, rest, whole, free⟩ := List.eq_append_cons_of_mem separated
    rw [whole]
    exact more part rest free (part_induction separator last more rest)
  · exact last t separated
termination_by t.length
decreasing_by
  rw [whole, List.length_append, List.length_cons]
  omega

/-- There is no separator in a part. -/
theorem notMem_of_mem_splitOn {t part : Text} (member : part ∈ t.splitOn separator) :
    separator ∉ part := by
  induction t using part_induction separator with
  | last t free =>
    rw [List.splitOn_eq_singleton free, List.mem_singleton] at member
    rwa [member]
  | more first rest free ih =>
    rw [List.splitOn_append_cons_self_of_not_mem free, List.mem_cons] at member
    rcases member with rfl | later
    · exact free
    · exact ih later

end UrlScan.Text
