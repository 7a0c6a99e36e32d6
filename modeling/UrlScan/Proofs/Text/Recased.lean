import Mathlib.Data.List.Forall2
import UrlScan.Proofs.Text.LowerCase
import UrlScan.Proofs.Text.Trimmed

/-!
# Texts that differ in letter case

Two texts of which one arises from the other by changing the case of some ASCII letters (`Recased`).
A class of characters that holds each of the 26 letters in both cases or in neither does not tell
such texts apart (`IgnoresCase`), so nothing that is said in terms of such classes does.

Results:
1. `IgnoresCase.of_letters`: a function on characters is checked letter by letter.
2. `Recased.map_eq`: what such a function shows of two recased texts.
3. `Recased.cons_left`, `Recased.append_left`: a text that is cut in two cuts the recased one.
4. `Recased.lowercase_eq`: recased ASCII texts have the same lower case.
5. `Recased.lowercase_of_fixed`: a text that is in lower case is the lower case of the recased one.
-/

namespace UrlScan.Text

/-- The two texts differ in the case of ASCII letters only. -/
def Recased (t t' : Text) : Prop :=
  t.map Char.toLower = t'.map Char.toLower

instance (t t' : Text) : Decidable (Recased t t') :=
  inferInstanceAs (Decidable (t.map Char.toLower = t'.map Char.toLower))

/-- A function on characters that does not tell the two cases of an ASCII letter apart. -/
def IgnoresCase {α : Type} (f : Char → α) : Prop :=
  ∀ c, f c.toLower = f c

/-! ## Single characters -/

section
variable {α : Type} {f : Char → α}

/-- Only the 26 capitals have another lower case than themselves. -/
theorem IgnoresCase.of_letters
    (letters : ∀ n < 26, f (Char.ofNat (n + 97)) = f (Char.ofNat (n + 65))) : IgnoresCase f := by
  intro c
  rcases CaseFreeLemmas.toLower_cases c with same | ⟨⟨atLeast, atMost⟩, lowered⟩
  · rw [same]
  · have letter := letters (c.toNat - 65) (by omega)
    have small : c.toNat - 65 + 97 = c.toLower.toNat := by omega
    have capital : c.toNat - 65 + 65 = c.toNat := by omega
    rwa [small, capital, Char.ofNat_toNat, Char.ofNat_toNat] at letter

theorem IgnoresCase.eq (ignores : IgnoresCase f) {a b : Char} (same : a.toLower = b.toLower) :
    f a = f b := by
  rw [← ignores a, same, ignores b]

end

theorem toLower_eq_iff {c x : Char} (free : IsCaseFree x) : c.toLower = x ↔ c = x := by
  rcases CaseFreeLemmas.toLower_cases c with same | ⟨capital, -⟩
  · rw [same]
  · have ascii : c.toNat < 128 := by omega
    have lowered := lowerChar_eq_iff (c := c) free
    rwa [lowerChar, if_pos ascii] at lowered

/-- A character without letter case is recased to itself only. -/
theorem eq_of_toLower_eq {c x : Char} (free : IsCaseFree x) (same : x.toLower = c.toLower) :
    c = x :=
  (toLower_eq_iff free).mp (same.symm.trans ((toLower_eq_iff free).mpr rfl))

/-! ## Texts -/

namespace Recased

section
variable {t t' : Text} {α : Type} {f : Char → α}

theorem symm (recased : Recased t t') : Recased t' t :=
  Eq.symm recased

theorem length_eq (recased : Recased t t') : t.length = t'.length := by
  simpa using congrArg List.length recased

theorem map_eq (recased : Recased t t') (ignores : IgnoresCase f) : t.map f = t'.map f := by
  have lowered (t : Text) : t.map f = (t.map Char.toLower).map f := by
    rw [List.map_map]
    exact List.map_congr_left fun c _ => (ignores c).symm
  rw [lowered t, recased, ← lowered t']

theorem all_eq {p : Char → Bool} (recased : Recased t t') (ignores : IgnoresCase p) :
    t.all p = t'.all p := by
  have same := congrArg (List.all · id) (recased.map_eq ignores)
  simpa only [List.all_map, Function.id_comp] using same

/-- What holds of all characters of a text holds of those of the recased one. -/
theorem forall_of {p : Char → Bool} (recased : Recased t t') (ignores : IgnoresCase p)
    (all : ∀ c ∈ t, p c = true) : ∀ c ∈ t', p c = true := by
  rw [← List.all_eq_true] at all ⊢
  rwa [← recased.all_eq ignores]

theorem nil_left (recased : Recased [] t') : t' = [] :=
  List.map_eq_nil_iff.mp (Eq.symm recased)

theorem cons_left {c : Char} (recased : Recased (c :: t) t') :
    ∃ c' rest, t' = c' :: rest ∧ c.toLower = c'.toLower ∧ Recased t rest := by
  obtain ⟨c', rest, rfl, lowered, behind⟩ := List.map_eq_cons_iff.mp (Eq.symm recased)
  exact ⟨c', rest, rfl, lowered.symm, behind.symm⟩

/-- A character without letter case stands in the recased text, too. -/
theorem cons_free_left {c : Char} (free : IsCaseFree c) (recased : Recased (c :: t) t') :
    ∃ rest, t' = c :: rest ∧ Recased t rest := by
  obtain ⟨c', rest, rfl, same, behind⟩ := recased.cons_left
  obtain rfl := eq_of_toLower_eq free same
  exact ⟨rest, rfl, behind⟩

theorem append_left {a b : Text} (recased : Recased (a ++ b) t') :
    ∃ a' b', t' = a' ++ b' ∧ Recased a a' ∧ Recased b b' := by
  have cut : t'.map Char.toLower = a.map Char.toLower ++ b.map Char.toLower := by
    rw [← List.map_append]
    exact Eq.symm recased
  obtain ⟨a', b', rfl, front, back⟩ := List.map_eq_append_iff.mp cut
  exact ⟨a', b', rfl, front.symm, back.symm⟩

theorem append {a a' b b' : Text} (front : Recased a a') (back : Recased b b') :
    Recased (a ++ b) (a' ++ b') := by
  unfold Recased at front back ⊢
  rw [List.map_append, List.map_append, front, back]

theorem drop (recased : Recased t t') (n : Nat) : Recased (t.drop n) (t'.drop n) := by
  unfold Recased at recased ⊢
  rw [List.map_drop, List.map_drop, recased]

theorem reverse (recased : Recased t t') : Recased t.reverse t'.reverse := by
  unfold Recased at recased ⊢
  rw [List.map_reverse, List.map_reverse, recased]

theorem filter {p : Char → Bool} (recased : Recased t t') (ignores : IgnoresCase p) :
    Recased (t.filter p) (t'.filter p) := by
  have lowered (t : Text) : (t.filter p).map Char.toLower = (t.map Char.toLower).filter p := by
    rw [List.filter_map]
    exact congrArg _ (List.filter_congr fun c _ => (ignores c).symm)
  unfold Recased at recased ⊢
  rw [lowered, lowered, recased]

theorem dropWhile {p : Char → Bool} (recased : Recased t t') (ignores : IgnoresCase p) :
    Recased (t.dropWhile p) (t'.dropWhile p) := by
  have lowered (t : Text) : (t.dropWhile p).map Char.toLower = (t.map Char.toLower).dropWhile p := by
    have same : p ∘ Char.toLower = p := funext ignores
    rw [List.dropWhile_map, same]
  unfold Recased at recased ⊢
  rw [lowered, lowered, recased]

theorem trimEnd {p : Char → Bool} (recased : Recased t t') (ignores : IgnoresCase p) :
    Recased (Text.trimEnd p t) (Text.trimEnd p t') :=
  (recased.reverse.dropWhile ignores).reverse

/-- The first characters of recased texts are recased. -/
theorem head? {c : Char} (recased : Recased t t') (first : t.head? = some c) :
    ∃ c', t'.head? = some c' ∧ c.toLower = c'.toLower := by
  obtain ⟨rest, rfl⟩ := List.head?_eq_some_iff.mp first
  obtain ⟨c', rest', rfl, same, -⟩ := recased.cons_left
  exact ⟨c', rfl, same⟩

theorem head?_of_free {c : Char} (recased : Recased t t') (free : IsCaseFree c)
    (first : t.head? = some c) : t'.head? = some c := by
  obtain ⟨c', first', same⟩ := recased.head? first
  rwa [eq_of_toLower_eq free same] at first'

theorem getLast?_of_free {c : Char} (recased : Recased t t') (free : IsCaseFree c)
    (last : t.getLast? = some c) : t'.getLast? = some c := by
  rw [← List.head?_reverse] at last ⊢
  exact recased.reverse.head?_of_free free last

end

/-- Recased texts are trimmed of the same classes that ignore letter case. -/
theorem isTrimmed {p : Char → Bool} {t t' : Text} (recased : Recased t t') (ignores : IgnoresCase p)
    (trimmed : IsTrimmed p t) : IsTrimmed p t' := by
  constructor
  · intro c' first
    obtain ⟨c, isFirst, same⟩ := recased.symm.head? first
    rw [ignores.eq same]
    exact trimmed.start c isFirst
  · intro c' last
    rw [Option.mem_def, ← List.head?_reverse] at last
    obtain ⟨c, isLast, same⟩ := recased.symm.reverse.head? last
    rw [ignores.eq same]
    rw [List.head?_reverse] at isLast
    exact trimmed.finish c isLast

/-! ## ASCII texts -/

section
variable {t t' : Text}

theorem ascii (recased : Recased t t') (ascii : ∀ c ∈ t, c.toNat < 128) :
    ∀ c ∈ t', c.toNat < 128 := by
  have ignores : IgnoresCase fun c => decide (c.toNat < 128) := .of_letters (by decide)
  have all : ∀ c ∈ t, decide (c.toNat < 128) = true := fun c member => by simpa using ascii c member
  exact fun c member => by simpa using recased.forall_of ignores all c member

theorem lowercase_eq (recased : Recased t t') (isAscii : ∀ c ∈ t, c.toNat < 128) :
    lowercase t = lowercase t' := by
  rw [lowercase_ascii isAscii, lowercase_ascii (recased.ascii isAscii)]
  exact recased

end

/-! ## Texts in lower case -/

theorem lowerForm_of_toLower_eq {c c' : Char} (fixed : lowerForm c = [c])
    (same : c.toLower = c'.toLower) : lowerForm c' = [c] := by
  have ascii {d : Char} (capital : 0x41 ≤ d.toNat ∧ d.toNat ≤ 0x5A) : lowerForm d = [d.toLower] := by
    have small : d.toNat < 128 := by omega
    have notDotted : d ≠ '\u0130' := by
      rintro rfl
      exact absurd small (by decide)
    rw [lowerForm, if_neg notDotted, lowerChar, if_pos small]
  rcases CaseFreeLemmas.toLower_cases c with unchanged | ⟨capital, lowered⟩
  · rcases CaseFreeLemmas.toLower_cases c' with unchanged' | ⟨capital', -⟩
    · rw [← unchanged', ← same, unchanged]
      exact fixed
    · rw [ascii capital', ← same, unchanged]
  · -- A capital is not its own lower case.
    rw [ascii capital, List.cons.injEq] at fixed
    rw [fixed.1] at lowered
    omega

/-- A text that is in lower case is the lower case of every text that differs from it in the case of
ASCII letters. -/
theorem lowercase_of_fixed {t t' : Text} (recased : Recased t t') (fixed : lowercase t = t) :
    lowercase t' = t := by
  have forms := lowerForm_of_lowercase_eq fixed
  have together : t'.flatMap lowerForm = t := by
    clear fixed
    induction t generalizing t' with
    | nil => rw [recased.nil_left, List.flatMap_nil]
    | cons c rest ih =>
      obtain ⟨c', rest', rfl, same, behind⟩ := recased.cons_left
      rw [List.forall_mem_cons] at forms
      rw [List.flatMap_cons, lowerForm_of_toLower_eq forms.1 same, ih behind forms.2,
        List.singleton_append]
  rw [lowercase_eq_flatMap, together]
  -- A capital sigma has no other case in ASCII, so it would stand in the given text as well.
  intro sigma
  have lowered : '\u03A3'.toLower ∈ t.map Char.toLower := by
    rw [recased]
    exact List.mem_map_of_mem sigma
  obtain ⟨c, member, same⟩ := List.mem_map.mp lowered
  rcases CaseFreeLemmas.toLower_cases c with unchanged | ⟨capital, small⟩
  · have isSigma : c = '\u03A3' := unchanged.symm.trans same
    rw [isSigma, ← fixed] at member
    exact sigma_notMem_lowercase t member
  · rw [same] at small
    have large : '\u03A3'.toLower.toNat = 0x3A3 := rfl
    omega

end Recased

end UrlScan.Text
