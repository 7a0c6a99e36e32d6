import UrlScan.Text.LetterCase

/-!
# Characters without letter case

Most punctuation and all white space lies outside every table of letter case: such a character is
neither a capital nor the lower-case form of one, and it is no variant of a letter. Looking for such
a character in a text gives the same answer whether or not letter case is forgotten first.

Results:
1. `IsCaseFree.of_ascii`: the ASCII characters without letter case.
2. `eq_of_sameLetter`: a case-free character is the same letter as itself only.
3. `mem_of_mem_lowercase`: taking the lower case of a text brings no case-free character into it.
-/

namespace UrlScan.Text

/-- Whether two ranges of code points have no code point in common. -/
def apart (a b : Nat × Nat) : Bool :=
  a.2 < b.1 || b.2 < a.1

/-- Whether a range of code points is apart from every capital, from every lower-case form and from
every case variant. The combining dot U+0307 belongs to the lower case of the dotted capital I. -/
def caseFreeRange (range : Nat × Nat) : Bool :=
  [(0x41, 0x5A), (0x61, 0x7A), (0x307, 0x307)].all (apart range)
    && capitalRuns.all (fun (first, last, _, image) =>
      apart range (first, last) && apart range (image, image + (last - first)))
    && caseVariants.all fun (variant, representative) =>
      apart range (variant, variant) && apart range (representative, representative)

/-- A character in a range of code points without letter case. -/
def IsCaseFree (c : Char) : Prop :=
  ∃ range, caseFreeRange range = true ∧ range.1 ≤ c.toNat ∧ c.toNat ≤ range.2

/-! ## Single characters -/

/-- What holds of the first 128 characters holds of every ASCII character. -/
theorem ascii_of_forall {P : Char → Prop} (small : ∀ n < 128, P (Char.ofNat n)) {c : Char}
    (ascii : c.toNat < 128) : P c := by
  have holds := small c.toNat ascii
  rwa [Char.ofNat_toNat] at holds

/-- The ASCII letters and digits lie in three ranges. -/
theorem isAlphanum_iff_toNat {c : Char} : c.isAlphanum = true ↔
    (65 ≤ c.toNat ∧ c.toNat ≤ 90) ∨ (97 ≤ c.toNat ∧ c.toNat ≤ 122) ∨
      48 ≤ c.toNat ∧ c.toNat ≤ 57 := by
  unfold Char.isAlphanum Char.isAlpha Char.isUpper Char.isLower
  rw [Bool.or_eq_true, Bool.or_eq_true, Char.isDigit_iff_toNat, or_assoc]
  simp only [Bool.and_eq_true, decide_eq_true_eq, ge_iff_le, UInt32.le_iff_toNat_le]
  rfl

/-- An ASCII character other than a letter has no letter case. -/
theorem IsCaseFree.of_ascii {c : Char} (ascii : c.toNat < 128) (noLetter : c.isAlpha = false) :
    IsCaseFree c := by
  have between : c.toNat ≤ 0x40 ∨ (0x5B ≤ c.toNat ∧ c.toNat ≤ 0x60) ∨ 0x7B ≤ c.toNat :=
    ascii_of_forall (P := fun c => c.isAlpha = false →
      c.toNat ≤ 0x40 ∨ (0x5B ≤ c.toNat ∧ c.toNat ≤ 0x60) ∨ 0x7B ≤ c.toNat) (by decide) ascii noLetter
  have free : ∀ range ∈ [(0, 0x40), (0x5B, 0x60), (0x7B, 0x7F)], caseFreeRange range = true := by
    decide +kernel
  rcases between with low | ⟨above, below⟩ | high
  · exact ⟨_, free (0, 0x40) (by simp), Nat.zero_le _, low⟩
  · exact ⟨_, free (0x5B, 0x60) (by simp), above, below⟩
  · exact ⟨_, free (0x7B, 0x7F) (by simp), high, Nat.le_of_lt_succ ascii⟩

namespace CaseFreeLemmas

theorem not_within {range other : Nat × Nat} {n : Nat} (disjoint : apart range other = true)
    (low : range.1 ≤ n) (high : n ≤ range.2) : ¬(other.1 ≤ n ∧ n ≤ other.2) := by
  simp only [apart, Bool.or_eq_true, decide_eq_true_eq] at disjoint
  omega

theorem toNat_ofNat {n : Nat} (valid : n.isValidChar) : (Char.ofNat n).toNat = n := by
  rw [Char.ofNat, dif_pos valid]
  rfl

/-- The lower-case forms are code points, which lie on one side of the surrogates. -/
theorem isValidChar_image {run : Nat × Nat × Nat × Nat} (member : run ∈ capitalRuns) {n : Nat}
    (within : n ≤ run.2.1 - run.1) : (run.2.2.2 + n).isValidChar := by
  have images : ∀ run ∈ capitalRuns, run.2.2.2 + (run.2.1 - run.1) < 0xD800 ∨
      0xDFFF < run.2.2.2 ∧ run.2.2.2 + (run.2.1 - run.1) < 0x110000 := by decide +kernel
  have image := images run member
  unfold Nat.isValidChar
  omega

theorem isValidChar_representative {pair : Nat × Nat} (member : pair ∈ caseVariants) :
    pair.2.isValidChar := by
  have representatives : ∀ pair ∈ caseVariants, pair.2 < 0xD800 ∨
      0xDFFF < pair.2 ∧ pair.2 < 0x110000 := by decide +kernel
  exact representatives pair member

/-- What the test says about a code point of the range: it is outside every table. -/
theorem outside_tables {range : Nat × Nat} {n : Nat} (free : caseFreeRange range = true)
    (low : range.1 ≤ n) (high : n ≤ range.2) :
    (¬(0x41 ≤ n ∧ n ≤ 0x5A) ∧ ¬(0x61 ≤ n ∧ n ≤ 0x7A) ∧ n ≠ 0x307) ∧
    (∀ run ∈ capitalRuns, ¬(run.1 ≤ n ∧ n ≤ run.2.1) ∧
      ¬(run.2.2.2 ≤ n ∧ n ≤ run.2.2.2 + (run.2.1 - run.1))) ∧
    ∀ pair ∈ caseVariants, n ≠ pair.1 ∧ n ≠ pair.2 := by
  simp only [caseFreeRange, Bool.and_eq_true, List.all_eq_true, List.mem_cons, List.not_mem_nil,
    or_false, forall_eq_or_imp, forall_eq] at free
  obtain ⟨⟨⟨upper, lower, dot⟩, runs⟩, variants⟩ := free
  refine ⟨⟨not_within upper low high, not_within lower low high, ?_⟩, ?_, ?_⟩
  · have := not_within dot low high
    omega
  · intro run member
    exact ⟨not_within (runs run member).1 low high, not_within (runs run member).2 low high⟩
  · intro pair member
    have first := not_within (variants pair member).1 low high
    have second := not_within (variants pair member).2 low high
    omega

theorem toLower_cases (c : Char) :
    c.toLower = c ∨ (0x41 ≤ c.toNat ∧ c.toNat ≤ 0x5A) ∧ c.toLower.toNat = c.toNat + 0x20 := by
  unfold Char.toLower
  split
  next upper =>
    obtain ⟨low, high⟩ := upper
    rw [ge_iff_le, UInt32.le_iff_toNat_le] at low
    rw [UInt32.le_iff_toNat_le] at high
    have low' : 0x41 ≤ c.toNat := low
    have high' : c.toNat ≤ 0x5A := high
    refine Or.inr ⟨⟨low', high'⟩, ?_⟩
    rw [Char.toNat_mk, UInt32.toNat_add, Char.toNat_val]
    simp
    omega
  next => exact Or.inl rfl

/-- The lower-case form of a character is the character itself, or the character is a capital and
its form a lower-case letter. -/
theorem lowerChar_cases (c : Char) :
    lowerChar c = c ∨
    ((0x41 ≤ c.toNat ∧ c.toNat ≤ 0x5A) ∧ 0x61 ≤ (lowerChar c).toNat ∧ (lowerChar c).toNat ≤ 0x7A) ∨
    ∃ run ∈ capitalRuns, (run.1 ≤ c.toNat ∧ c.toNat ≤ run.2.1) ∧
      (run.2.2.2 ≤ (lowerChar c).toNat ∧
        (lowerChar c).toNat ≤ run.2.2.2 + (run.2.1 - run.1)) := by
  unfold lowerChar
  split
  next ascii =>
    rcases toLower_cases c with same | ⟨upper, lowered⟩
    · exact Or.inl same
    · refine Or.inr (Or.inl ⟨upper, ?_⟩)
      omega
  next =>
    split
    next first last step image found =>
      have member := List.mem_of_find?_eq_some found
      have within := List.find?_some found
      simp only [Bool.and_eq_true, decide_eq_true_eq] at within
      refine Or.inr (Or.inr ⟨_, member, within.1, ?_⟩)
      have inRun : c.toNat - first ≤ last - first := by omega
      rw [toNat_ofNat (isValidChar_image member inRun)]
      dsimp only
      omega
    next => exact Or.inl rfl

/-- The representative of a character is its lower-case form or the representative of a variant. -/
theorem caseless_cases (c : Char) :
    caseless c = lowerChar c ∨
    ∃ pair ∈ caseVariants, (lowerChar c).toNat = pair.1 ∧ (caseless c).toNat = pair.2 := by
  unfold caseless
  split
  next ascii => exact Or.inl (by rw [lowerChar, if_pos ascii])
  next =>
    dsimp only
    split
    next representative found =>
      obtain ⟨before, after, table, -⟩ := List.lookup_eq_some_iff.mp found
      have member : ((lowerChar c).toNat, representative) ∈ caseVariants := by simp [table]
      exact Or.inr ⟨_, member, rfl, toNat_ofNat (isValidChar_representative member)⟩
    next => exact Or.inl rfl

end CaseFreeLemmas

open CaseFreeLemmas

theorem lowerChar_eq_iff {c x : Char} (free : IsCaseFree x) : lowerChar c = x ↔ c = x := by
  obtain ⟨range, passed, low, high⟩ := free
  obtain ⟨⟨notUpper, notLower, -⟩, runs, -⟩ := outside_tables passed low high
  -- A capital lies in one of the tables, and so does its lower-case form; `x` lies in none.
  rcases lowerChar_cases c with same | ⟨upper, lower⟩ | ⟨run, member, capital, image⟩
  · rw [same]
  · constructor
    · rintro rfl
      exact absurd lower notLower
    · rintro rfl
      exact absurd upper notUpper
  · constructor
    · rintro rfl
      exact absurd image (runs run member).2
    · rintro rfl
      exact absurd capital (runs run member).1

theorem caseless_eq_iff {c x : Char} (free : IsCaseFree x) : caseless c = x ↔ c = x := by
  refine Iff.trans ?_ (lowerChar_eq_iff free)
  obtain ⟨range, passed, low, high⟩ := free
  obtain ⟨-, -, variants⟩ := outside_tables passed low high
  rcases caseless_cases c with same | ⟨pair, member, variant, representative⟩
  · rw [same]
  · obtain ⟨notVariant, notRepresentative⟩ := variants pair member
    constructor
    · intro equal
      rw [equal] at representative
      exact absurd representative notRepresentative
    · intro equal
      rw [equal] at variant
      exact absurd variant notVariant

theorem eq_of_sameLetter {a x : Char} (free : IsCaseFree x) (same : sameLetter a x = true) :
    a = x := by
  rw [sameLetter, beq_iff_eq, (caseless_eq_iff free).mpr rfl] at same
  exact (caseless_eq_iff free).mp same

/-! ## Lower case of texts -/

theorem lowercaseAfter_cons (previous : Text) (c : Char) (rest : Text) :
    lowercaseAfter previous (c :: rest) =
      (if c = '\u03A3' then
        if meetsCased previous && !meetsCased rest then ['\u03C2'] else ['\u03C3']
      else if c = '\u0130' then ['i', '\u0307']
      else [lowerChar c]) ++ lowercaseAfter (c :: previous) rest :=
  rfl

namespace CaseFreeLemmas

/-- The special lower-case forms have letter case: the two small sigmas, and what the dotted capital
I becomes. -/
theorem not_caseFree_special {c : Char} (special : c ∈ ['\u03C2', '\u03C3', 'i', '\u0307']) :
    ¬IsCaseFree c := by
  rintro ⟨range, passed, low, high⟩
  obtain ⟨⟨-, notLower, notDot⟩, runs, variants⟩ := outside_tables passed low high
  have sigmaRun : (0x3A3, 0x3AB, 1, 0x3C3) ∈ capitalRuns := by decide +kernel
  have finalSigma : (0x3C2, 0x3C3) ∈ caseVariants := by decide
  simp only [List.mem_cons, List.not_mem_nil, or_false] at special
  rcases special with rfl | rfl | rfl | rfl
  · exact (variants _ finalSigma).1 rfl
  · exact (runs _ sigmaRun).2 (by decide)
  · exact notLower (by decide)
  · exact notDot rfl

/-- A case-free character in the lower case of a text stands in the text, whatever comes before. -/
theorem mem_of_mem_lowercaseAfter {t : Text} {x : Char} (free : IsCaseFree x) (previous : Text)
    (member : x ∈ lowercaseAfter previous t) : x ∈ t := by
  induction t generalizing previous with
  | nil => cases member
  | cons c rest ih =>
    rw [lowercaseAfter_cons, List.mem_append] at member
    rcases member with here | later
    -- A capital sigma and the dotted capital I become characters with letter case.
    · have ordinary (special : x ∈ ['\u03C2', '\u03C3', 'i', '\u0307']) : x ∈ c :: rest :=
        absurd free (not_caseFree_special special)
      split at here
      · split at here <;> exact ordinary (by simp_all)
      · split at here
        · exact ordinary (by simp_all)
        · rw [List.mem_singleton] at here
          rw [(lowerChar_eq_iff free).mp here.symm]
          exact List.mem_cons_self
    · exact List.mem_cons_of_mem c (ih (c :: previous) later)

end CaseFreeLemmas

theorem mem_of_mem_lowercase {t : Text} {x : Char} (free : IsCaseFree x)
    (member : x ∈ lowercase t) : x ∈ t :=
  mem_of_mem_lowercaseAfter free [] member

end UrlScan.Text
