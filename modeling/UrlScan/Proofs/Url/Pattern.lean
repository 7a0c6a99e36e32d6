import UrlScan.Text.LetterCase

/-!
# Patterns that are matched by going back

Regular expressions over the characters of a text, and the engine that matches them. The engine
tries the first alternative before the second one and as many rounds of a repetition as there are,
and it goes back to its last choice when what follows does not match. `Pattern.ends` lists all that
may be left of a text behind a match, in the order in which the engine comes to it. Its first element
is where the engine stops (`Pattern.first?`).

Results:
1. `first?_seq_of_total`: no way back is needed into a pattern when what follows always matches.
2. `mem_ends_chars`, `ends_chars_pairwise`: a repeated character class leaves what is behind a run of
   these characters, behind a longer run first.
-/

namespace UrlScan

inductive Pattern
  | empty
  | fail
  | char (accepts : Char → Bool)
  /-- Matches nothing, and only where no accepted character follows. -/
  | notBefore (accepts : Char → Bool)
  | seq (first second : Pattern)
  /-- The first pattern, or else the second one. -/
  | either (first second : Pattern)
  /-- `least` or more rounds of a pattern that takes at least one character, up to `most` of them if
  there is such a bound. -/
  | rounds (body : Pattern) (least : Nat) (most : Option Nat)

namespace Pattern

/-- What may be left behind `least` to `most` rounds: more rounds come before fewer. -/
def roundsEnds (round : Text → List Text) : (most least : Nat) → Text → List Text
  | 0, 0, t => [t]
  | 0, _ + 1, _ => []
  | most + 1, 0, t => (round t).flatMap (roundsEnds round most 0) ++ [t]
  | most + 1, least + 1, t => (round t).flatMap (roundsEnds round most least)

/-- What may be left of a text behind a match, in the order in which the engine comes to it. A text
has no room for more rounds than it has characters. -/
def ends : Pattern → Text → List Text
  | empty, t => [t]
  | fail, _ => []
  | char _, [] => []
  | char accepts, c :: rest => if accepts c then [rest] else []
  | notBefore accepts, t => if t.head?.any accepts then [] else [t]
  | seq first second, t => (first.ends t).flatMap second.ends
  | either first second, t => first.ends t ++ second.ends t
  | rounds body least most, t => roundsEnds body.ends (most.getD t.length) least t

/-- What the engine leaves of a text that it matches. -/
def first? (p : Pattern) (t : Text) : Option Text :=
  (p.ends t).head?

/-- One character without letter case. -/
def exactly (c : Char) : Pattern :=
  char (· == c)

def optional (p : Pattern) : Pattern :=
  rounds p 0 (some 1)

/-- The letters of a text, whatever their case. -/
def literal (letters : Text) : Pattern :=
  letters.foldr (fun letter => seq (char (Text.sameLetter letter))) empty

/-- The first of some patterns that matches. -/
def anyOf (ps : List Pattern) : Pattern :=
  ps.foldr either fail

/-- The matches in a text that begins at `offset` behind the character `previous`, with their
offsets. No match begins after a character that `notAfter` accepts or is empty, and none overlaps
another one. -/
def matchesFrom (p : Pattern) (notAfter : Char → Bool) (previous : Option Char) (offset : Nat)
    (t : Text) : List (Nat × Text) :=
  match t with
  | [] => []
  | c :: rest =>
    match if previous.any notAfter then none else p.first? (c :: rest) with
    | none => p.matchesFrom notAfter (some c) (offset + 1) rest
    | some behind =>
      if behind.length < (c :: rest).length then
        let word := (c :: rest).take ((c :: rest).length - behind.length)
        (offset, word) :: p.matchesFrom notAfter word.getLast? (offset + word.length) behind
      else p.matchesFrom notAfter (some c) (offset + 1) rest
termination_by t.length
decreasing_by
  · exact Nat.lt_succ_self _
  · assumption
  · exact Nat.lt_succ_self _

/-! ## What is left behind a match -/

section
variable {t rest : Text}

theorem roundsEnds_succ_zero (round : Text → List Text) (most : Nat) (t : Text) :
    roundsEnds round (most + 1) 0 t = (round t).flatMap (roundsEnds round most 0) ++ [t] :=
  rfl

theorem roundsEnds_succ_succ (round : Text → List Text) (most least : Nat) (t : Text) :
    roundsEnds round (most + 1) (least + 1) t = (round t).flatMap (roundsEnds round most least) :=
  rfl

theorem ends_char_cons (accepts : Char → Bool) (c : Char) (rest : Text) :
    (char accepts).ends (c :: rest) = if accepts c then [rest] else [] :=
  rfl

theorem ends_seq (p q : Pattern) (t : Text) : (seq p q).ends t = (p.ends t).flatMap q.ends :=
  rfl

theorem ends_rounds (p : Pattern) (least : Nat) (most : Option Nat) (t : Text) :
    (rounds p least most).ends t = roundsEnds p.ends (most.getD t.length) least t :=
  rfl

theorem mem_ends_char {accepts : Char → Bool} :
    rest ∈ (char accepts).ends t ↔ ∃ c, t = c :: rest ∧ accepts c = true := by
  cases t with
  | nil =>
    constructor
    · exact fun member => absurd member List.not_mem_nil
    · rintro ⟨c, impossible, -⟩
      cases impossible
  | cons c behind =>
    rw [ends_char_cons]
    by_cases accepted : accepts c = true
    · rw [if_pos accepted, List.mem_singleton]
      constructor
      · rintro rfl
        exact ⟨c, rfl, accepted⟩
      · rintro ⟨d, same, -⟩
        exact (List.cons.inj same).2.symm
    · rw [if_neg accepted]
      constructor
      · exact fun member => absurd member List.not_mem_nil
      · rintro ⟨d, same, accepts⟩
        cases same
        exact absurd accepts accepted

theorem mem_ends_exactly {c : Char} : rest ∈ (exactly c).ends t ↔ t = c :: rest := by
  rw [exactly, mem_ends_char]
  simp

theorem mem_ends_notBefore {accepts : Char → Bool} :
    rest ∈ (notBefore accepts).ends t ↔
      rest = t ∧ ∀ c, rest.head? = some c → accepts c = false := by
  have here : (notBefore accepts).ends t = if t.head?.any accepts then [] else [t] := rfl
  rw [here]
  cases t with
  | nil =>
    rw [List.head?_nil, Option.any_none, if_neg (by decide), List.mem_singleton]
    refine ⟨fun same => ⟨same, fun c next => ?_⟩, fun same => same.1⟩
    rw [same] at next
    cases next
  | cons c behind => by_cases accepted : accepts c = true <;> simp_all

theorem mem_ends_seq {p q : Pattern} :
    rest ∈ (seq p q).ends t ↔ ∃ between ∈ p.ends t, rest ∈ q.ends between := by
  rw [ends_seq, List.mem_flatMap]

theorem mem_ends_either {p q : Pattern} :
    rest ∈ (either p q).ends t ↔ rest ∈ p.ends t ∨ rest ∈ q.ends t :=
  List.mem_append

theorem ends_optional (p : Pattern) (t : Text) : (optional p).ends t = p.ends t ++ [t] := by
  have once : roundsEnds p.ends 0 0 = fun rest => [rest] := rfl
  rw [optional, ends_rounds, Option.getD_some, roundsEnds_succ_zero, once, List.flatMap_singleton']

theorem ends_anyOf (ps : List Pattern) (t : Text) :
    (anyOf ps).ends t = ps.flatMap fun p => p.ends t := by
  induction ps with
  | nil => rfl
  | cons p ps ih =>
    rw [List.flatMap_cons, ← ih]
    rfl

/-! ## Where the engine stops -/

theorem first?_seq (p q : Pattern) (t : Text) :
    (seq p q).first? t = (p.ends t).findSome? q.first? := by
  rw [first?, ends_seq, List.head?_flatMap]
  rfl

/-- The engine comes to a later alternative only when what follows does not match behind any earlier
one. -/
theorem first?_seq_anyOf (ps : List Pattern) (q : Pattern) (t : Text) :
    (seq (anyOf ps) q).first? t = ps.findSome? fun p => (seq p q).first? t := by
  rw [first?, ends_seq, ends_anyOf, List.flatMap_assoc, List.head?_flatMap]
  rfl

theorem first?_seq_of_total {p q : Pattern} (total : ∀ t, (q.first? t).isSome) (t : Text) :
    (seq p q).first? t = (p.first? t).bind q.first? := by
  rw [first?_seq, first?]
  cases p.ends t with
  | nil => rfl
  | cons behind others =>
    obtain ⟨last, found⟩ := Option.isSome_iff_exists.mp (total behind)
    rw [List.findSome?_cons, found, List.head?_cons, Option.bind_some, found]

theorem first?_eq_some_of_unique {p : Pattern} (member : rest ∈ p.ends t)
    (unique : ∀ other ∈ p.ends t, other = rest) : p.first? t = some rest := by
  rw [first?]
  cases left : p.ends t with
  | nil =>
    rw [left] at member
    exact absurd member List.not_mem_nil
  | cons other others =>
    rw [left] at unique
    rw [List.head?_cons, unique other List.mem_cons_self]

theorem first?_optional (p : Pattern) (t : Text) :
    (optional p).first? t = some ((p.first? t).getD t) := by
  rw [first?, ends_optional, first?]
  cases p.ends t <;> rfl

end

/-! ## Runs of characters -/

section
variable {accepts : Char → Bool}

theorem mem_flatMap_char {next : Text → List Text} {t rest : Text} :
    rest ∈ ((char accepts).ends t).flatMap next ↔
      ∃ c behind, t = c :: behind ∧ accepts c = true ∧ rest ∈ next behind := by
  rw [List.mem_flatMap]
  constructor
  · rintro ⟨behind, first, member⟩
    obtain ⟨c, whole, accepted⟩ := mem_ends_char.mp first
    exact ⟨c, behind, whole, accepted, member⟩
  · rintro ⟨c, behind, whole, accepted, member⟩
    exact ⟨behind, mem_ends_char.mpr ⟨c, whole, accepted⟩, member⟩

/-- What is left behind rounds of one character is what comes behind a run of such characters. -/
theorem mem_roundsEnds_char {most least : Nat} {t rest : Text} :
    rest ∈ roundsEnds (char accepts).ends most least t ↔
      ∃ run, t = run ++ rest ∧ (∀ c ∈ run, accepts c = true) ∧ least ≤ run.length ∧
        run.length ≤ most := by
  induction most generalizing least t with
  | zero =>
    cases least with
    | zero =>
      have none : roundsEnds (char accepts).ends 0 0 t = [t] := rfl
      rw [none, List.mem_singleton]
      constructor
      · rintro rfl
        exact ⟨[], rfl, by simp⟩
      · rintro ⟨run, rfl, -, -, empty⟩
        rw [List.length_eq_zero_iff.mp (Nat.le_zero.mp empty), List.nil_append]
    | succ least =>
      constructor
      · exact fun member => absurd member List.not_mem_nil
      · rintro ⟨run, -, -, atLeast, atMost⟩
        omega
  | succ most ih =>
    cases least with
    | zero =>
      rw [roundsEnds_succ_zero, List.mem_append, mem_flatMap_char, List.mem_singleton]
      constructor
      · rintro (⟨c, behind, rfl, accepted, member⟩ | rfl)
        · obtain ⟨run, rfl, all, -, atMost⟩ := ih.mp member
          exact ⟨c :: run, rfl, List.forall_mem_cons.mpr ⟨accepted, all⟩, Nat.zero_le _,
            Nat.succ_le_succ atMost⟩
        · exact ⟨[], rfl, by simp⟩
      · rintro ⟨run, rfl, all, -, atMost⟩
        cases run with
        | nil => exact Or.inr rfl
        | cons c run =>
          obtain ⟨accepted, all⟩ := List.forall_mem_cons.mp all
          exact Or.inl ⟨c, run ++ rest, rfl, accepted,
            ih.mpr ⟨run, rfl, all, Nat.zero_le _, Nat.le_of_succ_le_succ atMost⟩⟩
    | succ least =>
      rw [roundsEnds_succ_succ, mem_flatMap_char]
      constructor
      · rintro ⟨c, behind, rfl, accepted, member⟩
        obtain ⟨run, rfl, all, atLeast, atMost⟩ := ih.mp member
        exact ⟨c :: run, rfl, List.forall_mem_cons.mpr ⟨accepted, all⟩,
          Nat.succ_le_succ atLeast, Nat.succ_le_succ atMost⟩
      · rintro ⟨run, rfl, all, atLeast, atMost⟩
        cases run with
        | nil => exact absurd atLeast (Nat.not_succ_le_zero least)
        | cons c run =>
          obtain ⟨accepted, all⟩ := List.forall_mem_cons.mp all
          exact ⟨c, run ++ rest, rfl, accepted, ih.mpr ⟨run, rfl, all,
            Nat.le_of_succ_le_succ atLeast, Nat.le_of_succ_le_succ atMost⟩⟩

/-- Behind a repeated character class there is what comes behind a run of its characters. -/
theorem mem_ends_chars {least : Nat} {most : Option Nat} {t rest : Text} :
    rest ∈ (rounds (char accepts) least most).ends t ↔
      ∃ run, t = run ++ rest ∧ (∀ c ∈ run, accepts c = true) ∧ least ≤ run.length ∧
        ∀ bound, most = some bound → run.length ≤ bound := by
  rw [ends_rounds, mem_roundsEnds_char]
  constructor
  · rintro ⟨run, whole, all, atLeast, atMost⟩
    refine ⟨run, whole, all, atLeast, ?_⟩
    rintro bound rfl
    exact atMost
  · rintro ⟨run, whole, all, atLeast, atMost⟩
    refine ⟨run, whole, all, atLeast, ?_⟩
    cases most with
    | none =>
      rw [whole, Option.getD_none, List.length_append]
      exact Nat.le_add_right _ _
    | some bound => exact atMost bound rfl

theorem ends_char_pairwise {r : Text → Text → Prop} (t : Text) :
    ((char accepts).ends t).Pairwise r := by
  cases t with
  | nil => exact List.Pairwise.nil
  | cons c rest =>
    rw [ends_char_cons]
    split
    · exact List.pairwise_singleton r rest
    · exact List.Pairwise.nil

theorem roundsEnds_char_pairwise (most least : Nat) (t : Text) :
    (roundsEnds (char accepts).ends most least t).Pairwise fun rest later =>
      rest.length < later.length := by
  induction most generalizing least t with
  | zero =>
    cases least with
    | zero => exact List.pairwise_singleton _ t
    | succ least => exact List.Pairwise.nil
  | succ most ih =>
    have more (least : Nat) :
        (((char accepts).ends t).flatMap (roundsEnds (char accepts).ends most least)).Pairwise
          fun rest later => rest.length < later.length :=
      List.pairwise_flatMap.mpr ⟨fun behind _ => ih least behind, ends_char_pairwise t⟩
    cases least with
    | zero =>
      rw [roundsEnds_succ_zero, List.pairwise_append]
      refine ⟨more 0, List.pairwise_singleton _ t, fun rest member last isLast => ?_⟩
      obtain ⟨c, behind, rfl, -, member⟩ := mem_flatMap_char.mp member
      obtain ⟨run, rfl, -⟩ := mem_roundsEnds_char.mp member
      rw [List.mem_singleton.mp isLast, List.length_cons, List.length_append]
      omega
    | succ least => exact more least

/-- Behind a longer run less is left. -/
theorem ends_chars_pairwise (least : Nat) (most : Option Nat) (t : Text) :
    ((rounds (char accepts) least most).ends t).Pairwise fun rest later =>
      rest.length < later.length :=
  roundsEnds_char_pairwise _ least t

end

end Pattern

end UrlScan
