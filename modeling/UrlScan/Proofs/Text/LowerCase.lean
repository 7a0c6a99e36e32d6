import Mathlib.Data.List.Basic
import UrlScan.Proofs.Text.CaseFree

/-!
# The lower case of texts without a capital sigma

Only the capital sigma has a lower case that depends on the characters beside it. In a text without
one, every character has its own lower case, so the lower case of a text is that of its parts. For
an ASCII text this is the mapping of single letters.

Results:
1. `lowercase_eq_flatMap`: the lower case of a text, character by character.
2. `lowercase_append`, `lowercase_ascii`: the lower case of parts, and of ASCII texts.
3. `toLower_eq_of_sameLetter`: two ASCII characters that are the same letter.
4. `sigma_notMem_lowercase`, `lowerForm_of_lowercase_eq`: a text that is in lower case has no capital
   sigma, and each of its characters is its own lower case.
-/

namespace UrlScan.Text

/-- The lower case of a character other than the capital sigma. -/
def lowerForm (c : Char) : Text :=
  if c = '\u0130' then ['i', '\u0307'] else [lowerChar c]

namespace LowerCaseLemmas

theorem lowercaseAfter_eq_flatMap {t : Text} (previous : Text) (noSigma : '\u03A3' ∉ t) :
    lowercaseAfter previous t = t.flatMap lowerForm := by
  induction t generalizing previous with
  | nil => rfl
  | cons c rest ih =>
    rw [List.mem_cons, not_or] at noSigma
    rw [lowercaseAfter_cons, if_neg (Ne.symm noSigma.1), ih (c :: previous) noSigma.2,
      List.flatMap_cons]
    rfl

end LowerCaseLemmas

open LowerCaseLemmas

theorem lowercase_eq_flatMap {t : Text} (noSigma : '\u03A3' ∉ t) :
    lowercase t = t.flatMap lowerForm :=
  lowercaseAfter_eq_flatMap [] noSigma

theorem lowercase_append {s t : Text} (noSigma : '\u03A3' ∉ s ++ t) :
    lowercase (s ++ t) = lowercase s ++ lowercase t := by
  rw [lowercase_eq_flatMap noSigma, List.flatMap_append]
  rw [List.mem_append, not_or] at noSigma
  rw [lowercase_eq_flatMap noSigma.1, lowercase_eq_flatMap noSigma.2]

/-- No character vanishes when the lower case is taken. -/
theorem lowercase_ne_nil {t : Text} (notEmpty : t ≠ []) : lowercase t ≠ [] := by
  obtain ⟨c, rest, rfl⟩ := List.exists_cons_of_ne_nil notEmpty
  rw [lowercase, lowercaseAfter_cons]
  intro empty
  have vanished := (List.append_eq_nil_iff.mp empty).1
  split at vanished
  · split at vanished <;> cases vanished
  · split at vanished <;> cases vanished

/-! ## ASCII -/

theorem lowercase_ascii {t : Text} (ascii : ∀ c ∈ t, c.toNat < 128) :
    lowercase t = t.map Char.toLower := by
  have noSigma : '\u03A3' ∉ t := fun member => absurd (ascii _ member) (by decide)
  rw [lowercase_eq_flatMap noSigma, List.map_eq_flatMap]
  refine List.flatMap_congr fun c member => ?_
  have small := ascii c member
  have notDotted : c ≠ '\u0130' := by
    rintro rfl
    exact absurd small (by decide)
  rw [lowerForm, if_neg notDotted, lowerChar, if_pos small]

theorem range_of_isAlphanum {c : Char} (alphanumeric : c.isAlphanum = true) :
    48 ≤ c.toNat ∧ c.toNat ≤ 122 := by
  rw [isAlphanum_iff_toNat] at alphanumeric
  omega

theorem toLower_lt {c : Char} (ascii : c.toNat < 128) : c.toLower.toNat < 128 :=
  ascii_of_forall (P := fun c => c.toLower.toNat < 128) (by decide) ascii

theorem toLower_toLower {c : Char} (ascii : c.toNat < 128) : c.toLower.toLower = c.toLower :=
  ascii_of_forall (P := fun c => c.toLower.toLower = c.toLower) (by decide) ascii

/-- Two ASCII characters that are the same letter have the same lower case. -/
theorem toLower_eq_of_sameLetter {a b : Char} (asciiA : a.toNat < 128) (asciiB : b.toNat < 128)
    (same : sameLetter a b = true) : a.toLower = b.toLower := by
  rwa [sameLetter, beq_iff_eq, caseless, if_pos asciiA, caseless, if_pos asciiB] at same

/-! ## Texts in lower case -/

namespace LowerCaseLemmas

/-- The capital sigma is no lower-case form of another character. -/
theorem lowerChar_ne_sigma {c : Char} (other : c ≠ '\u03A3') : lowerChar c ≠ '\u03A3' := by
  have images : ∀ run ∈ capitalRuns,
      ¬(run.2.2.2 ≤ 0x3A3 ∧ 0x3A3 ≤ run.2.2.2 + (run.2.1 - run.1)) := by decide +kernel
  have sigma : '\u03A3'.toNat = 0x3A3 := rfl
  intro same
  rcases CaseFreeLemmas.lowerChar_cases c with unchanged | ⟨-, -, small⟩ | ⟨run, member, -, image⟩
  · exact other (unchanged.symm.trans same)
  · rw [same, sigma] at small
    omega
  · rw [same, sigma] at image
    exact images run member image

theorem sigma_notMem_lowercaseAfter (previous t : Text) : '\u03A3' ∉ lowercaseAfter previous t := by
  induction t generalizing previous with
  | nil => exact List.not_mem_nil
  | cons c rest ih =>
    rw [lowercaseAfter_cons, List.mem_append, not_or]
    refine ⟨?_, ih (c :: previous)⟩
    split
    · split <;> decide
    next other =>
      split
      · decide
      · rw [List.mem_singleton]
        exact (lowerChar_ne_sigma other).symm

theorem lowerForm_ne_nil (c : Char) : lowerForm c ≠ [] := by
  unfold lowerForm
  split <;> exact List.cons_ne_nil _ _

theorem length_le_length_flatMap (t : Text) : t.length ≤ (t.flatMap lowerForm).length := by
  induction t with
  | nil => exact Nat.le_refl _
  | cons c rest ih =>
    have some := List.length_pos_iff.mpr (lowerForm_ne_nil c)
    rw [List.flatMap_cons, List.length_append, List.length_cons]
    omega

theorem lowerForm_of_flatMap_eq {t : Text} (fixed : t.flatMap lowerForm = t) :
    ∀ c ∈ t, lowerForm c = [c] := by
  induction t with
  | nil => exact fun c member => absurd member List.not_mem_nil
  | cons c rest ih =>
    -- No form is empty, so the form of the first character is a single one.
    have whole := congrArg List.length fixed
    have some := List.length_pos_iff.mpr (lowerForm_ne_nil c)
    have others := length_le_length_flatMap rest
    rw [List.flatMap_cons, List.length_append, List.length_cons] at whole
    have single : (lowerForm c).length = 1 := by omega
    obtain ⟨d, form⟩ := List.length_eq_one_iff.mp single
    rw [List.flatMap_cons, form, List.singleton_append, List.cons.injEq] at fixed
    rw [List.forall_mem_cons]
    exact ⟨form.trans (congrArg (fun d => [d]) fixed.1), ih fixed.2⟩

end LowerCaseLemmas

/-- There is no capital sigma in the lower case of a text. -/
theorem sigma_notMem_lowercase (t : Text) : '\u03A3' ∉ lowercase t :=
  sigma_notMem_lowercaseAfter [] t

/-- In a text that is in lower case, each character is its own lower case. -/
theorem lowerForm_of_lowercase_eq {t : Text} (fixed : lowercase t = t) :
    ∀ c ∈ t, lowerForm c = [c] := by
  have noSigma : '\u03A3' ∉ t := by
    rw [← fixed]
    exact sigma_notMem_lowercase t
  rw [lowercase_eq_flatMap noSigma] at fixed
  exact lowerForm_of_flatMap_eq fixed

end UrlScan.Text
