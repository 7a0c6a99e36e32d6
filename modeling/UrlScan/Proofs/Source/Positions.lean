import UrlScan.Source.LineIndex

/-!
# Lines and columns of offsets

What the line index says about an offset of its text, told without the index: the line is one more
than the number of line feeds before the offset, and the column counts from the place where that
line begins (`IsLineStart`).

The line is looked for by halving, which needs that the lines begin one after the other. They do,
since each begins behind a line feed that stands behind the one before.

Results:
1. `increases_starts`, `searchLine_eq_countP`: the search counts the lines that begin at or before
   an offset.
2. `countP_startsFrom`: these lines, counted by line feeds.
3. `startsFrom_getElem?`: where the last of them begins.
4. `position_eq`: the line and the column of an offset inside the text.
-/

namespace UrlScan.LineIndex

/-- `IsLineStart t offset start`: the line of the text that holds `offset` begins at `start`. It is
the beginning of the text or the place behind a line feed, and no line feed lies between. -/
structure IsLineStart (t : Text) (offset start : Nat) : Prop where
  le : start ≤ offset
  begins : start = 0 ∨ t[start - 1]? = some '\n'
  unbroken : '\n' ∉ (t.take offset).drop start

/-- Every line behind the first one begins behind the place the search starts from. -/
theorem lt_of_mem_startsFrom {base : Nat} {t : Text} {start : Nat}
    (member : start ∈ startsFrom base t) : base < start := by
  induction t generalizing base with
  | nil => cases member
  | cons c rest ih =>
    rw [startsFrom] at member
    split at member
    next =>
      rcases List.mem_cons.mp member with rfl | later
      · exact Nat.lt_succ_self base
      · exact Nat.lt_of_succ_lt (ih later)
    next => exact Nat.lt_of_succ_lt (ih member)

theorem increases_startsFrom (base : Nat) (t : Text) : (startsFrom base t).Pairwise (· < ·) := by
  induction t generalizing base with
  | nil => exact .nil
  | cons c rest ih =>
    rw [startsFrom]
    split
    next => exact .cons (fun _ => lt_of_mem_startsFrom) (ih (base + 1))
    next => exact ih (base + 1)

/-- The lines of a text begin one after the other. -/
theorem increases_starts (t : Text) : (ofText t).starts.Pairwise (· < ·) :=
  .cons (fun _ => lt_of_mem_startsFrom) (increases_startsFrom 0 t)

/-! ## The search -/

section
variable {starts : List Nat} {offset : Int}

/-- A list that is at most an offset up to some place and greater from there on has this place for
the number of its entries that are at most the offset. -/
theorem countP_of_partition {n : Nat} (short : n ≤ starts.length)
    (upTo : ∀ i (inside : i < starts.length), i < n → (starts[i] : Int) ≤ offset)
    (behind : ∀ i (inside : i < starts.length), n ≤ i → offset < (starts[i] : Nat)) :
    starts.countP (fun start : Nat => decide ((start : Int) ≤ offset)) = n := by
  have first : (starts.take n).countP (fun start : Nat => decide ((start : Int) ≤ offset)) = n := by
    rw [List.countP_eq_length.mpr, List.length_take_of_le short]
    intro start member
    obtain ⟨i, inside, rfl⟩ := List.getElem_of_mem member
    rw [List.length_take] at inside
    rw [List.getElem_take, decide_eq_true_eq]
    exact upTo i (by omega) (by omega)
  have others : (starts.drop n).countP
      (fun start : Nat => decide ((start : Int) ≤ offset)) = 0 := by
    rw [List.countP_eq_zero]
    intro start member
    obtain ⟨i, inside, rfl⟩ := List.getElem_of_mem member
    rw [List.length_drop] at inside
    rw [List.getElem_drop, decide_eq_true_eq, Int.not_le]
    exact behind (n + i) (by omega) (by omega)
  rw [← List.take_append_drop n starts, List.countP_append, first, others, Nat.add_zero]

theorem getElem_le_of_increases (increases : starts.Pairwise (· < ·)) {i j : Nat}
    (inside : j < starts.length) (order : i ≤ j) : starts[i] ≤ starts[j] := by
  rcases Nat.eq_or_lt_of_le order with rfl | before
  · exact Nat.le_refl _
  · exact Nat.le_of_lt (List.pairwise_iff_getElem.mp increases i j _ inside before)

/-- The invariant of the search is that the entries before the range are at most the offset, and
that those behind it are greater. It ends with an empty range, as every round shortens the range. -/
theorem searchLine_eq_countP_of_range (increases : starts.Pairwise (· < ·)) {fuel low high : Nat}
    (enough : high - low ≤ fuel) (order : low ≤ high) (short : high ≤ starts.length)
    (upTo : ∀ i (inside : i < starts.length), i < low → (starts[i] : Int) ≤ offset)
    (behind : ∀ i (inside : i < starts.length), high ≤ i → offset < (starts[i] : Nat)) :
    searchLine starts offset fuel low high =
      starts.countP fun start : Nat => decide ((start : Int) ≤ offset) := by
  induction fuel generalizing low high with
  | zero =>
    obtain rfl : low = high := by omega
    exact (countP_of_partition short upTo behind).symm
  | succ fuel ih =>
    rw [searchLine]
    by_cases some : low < high
    · have half : low ≤ (low + high) / 2 ∧ (low + high) / 2 < high := by omega
      have inside : (low + high) / 2 < starts.length := Nat.lt_of_lt_of_le half.2 short
      rw [if_pos some]
      dsimp only
      rw [List.getD_eq_getElem?_getD, List.getElem?_eq_getElem inside, Option.getD_some]
      by_cases later : offset < (starts[(low + high) / 2] : Nat)
      · rw [if_pos later]
        refine ih ?_ half.1 (Nat.le_of_lt inside) upTo fun i isInside notBefore => ?_
        · omega
        · have := getElem_le_of_increases increases isInside notBefore
          omega
      · rw [if_neg later]
        refine ih ?_ half.2 short (fun i isInside before => ?_) behind
        · omega
        · have := getElem_le_of_increases increases inside (Nat.le_of_lt_succ before)
          omega
    · rw [if_neg some]
      obtain rfl : low = high := by omega
      exact (countP_of_partition short upTo behind).symm

/-- The search counts the lines that begin at or before an offset. -/
theorem searchLine_eq_countP (increases : starts.Pairwise (· < ·)) (offset : Int) :
    searchLine starts offset starts.length 0 starts.length =
      starts.countP fun start : Nat => decide ((start : Int) ≤ offset) :=
  searchLine_eq_countP_of_range increases (Nat.sub_le _ _) (Nat.zero_le _) (Nat.le_refl _)
    (fun _ _ before => absurd before (Nat.not_lt_zero _))
    fun _ inside notBefore => absurd inside (Nat.not_lt.mpr notBefore)

end

/-! ## Lines and line feeds -/

/-- The lines behind the first one that begin at or before an offset are as many as the line feeds
before it. -/
theorem countP_startsFrom (base : Nat) (t : Text) (offset : Nat) :
    (startsFrom base t).countP (fun start => decide (start ≤ base + offset)) =
      (t.take offset).count '\n' := by
  induction t generalizing base offset with
  | nil => rw [startsFrom, List.take_nil, List.countP_nil, List.count_nil]
  | cons c rest ih =>
    cases offset with
    | zero =>
      rw [List.take_zero, List.count_nil, List.countP_eq_zero]
      intro start member
      have behind := lt_of_mem_startsFrom member
      simp only [decide_eq_true_eq]
      omega
    | succ offset =>
      have later := ih (base + 1) offset
      rw [Nat.add_right_comm, Nat.add_assoc] at later
      rw [startsFrom, List.take_succ_cons, List.count_cons]
      split
      next feed =>
        rw [List.countP_cons, later, feed, if_pos (by simp), if_pos (by simp)]
      next other =>
        rw [later, if_neg (by simpa using other), Nat.add_zero]

/-- The line that holds an offset behind `n + 1` line feeds is line number `n` behind the first
one. -/
theorem startsFrom_getElem? (base : Nat) {t : Text} {offset n : Nat}
    (feeds : (t.take offset).count '\n' = n + 1) :
    ∃ j, j < offset ∧ (startsFrom base t)[n]? = some (base + j + 1) ∧ t[j]? = some '\n' ∧
      '\n' ∉ (t.take offset).drop (j + 1) := by
  induction t generalizing base offset n with
  | nil => simp at feeds
  | cons c rest ih =>
    cases offset with
    | zero => simp at feeds
    | succ offset =>
      rw [List.take_succ_cons, List.count_cons] at feeds
      rw [startsFrom]
      -- A line feed further on is found in the rest, one place later.
      have behind {m : Nat} (feeds : (rest.take offset).count '\n' = m + 1) :
          ∃ j, j < offset + 1 ∧ (startsFrom (base + 1) rest)[m]? = some (base + j + 1) ∧
            (c :: rest)[j]? = some '\n' ∧ '\n' ∉ ((c :: rest).take (offset + 1)).drop (j + 1) := by
        obtain ⟨j, short, found, feed, unbroken⟩ := ih (base + 1) feeds
        refine ⟨j + 1, Nat.succ_lt_succ short, ?_, feed, unbroken⟩
        rw [found]
        congr 1
        omega
      by_cases feed : c = '\n'
      · subst feed
        rw [if_pos rfl]
        simp only [beq_self_eq_true, ↓reduceIte, Nat.add_right_cancel_iff] at feeds
        cases n with
        | zero => exact ⟨0, Nat.succ_pos _, rfl, rfl, List.count_eq_zero.mp feeds⟩
        | succ n => exact behind feeds
      · rw [if_neg feed]
        rw [if_neg (by simpa using feed), Nat.add_zero] at feeds
        exact behind feeds

theorem position_eq (t : Text) (offset : Nat) :
    ∃ start, IsLineStart t offset start ∧
      (ofText t).position offset =
        (1 + (((t.take offset).count '\n' : Nat) : Int), (offset : Int) - start + 1) := by
  have count : (ofText t).starts.countP (fun start : Nat => decide ((start : Int) ≤ offset)) =
      (t.take offset).count '\n' + 1 := by
    have lines := countP_startsFrom 0 t offset
    simp only [Nat.zero_add] at lines
    simp [ofText, lines]
  rw [position, lineCount, searchLine_eq_countP (increases_starts t), count]
  have index : (((t.take offset).count '\n' + 1 : Nat) : Int) - 1 =
      ((t.take offset).count '\n' : Nat) := by omega
  rw [index, signedGet?_natCast]
  generalize feeds : (t.take offset).count '\n' = n
  -- The first line is no entry of `startsFrom`, so that it has a case of its own.
  cases n with
  | zero =>
    refine ⟨0, ⟨Nat.zero_le _, Or.inl rfl, List.count_eq_zero.mp feeds⟩, ?_⟩
    rfl
  | succ n =>
    obtain ⟨j, short, found, feed, unbroken⟩ := startsFrom_getElem? 0 feeds
    refine ⟨j + 1, ⟨short, Or.inr feed, unbroken⟩, ?_⟩
    have line : (ofText t).starts[n + 1]? = some (j + 1) := by
      rw [ofText, List.getElem?_cons_succ, found, Nat.zero_add]
    rw [line, Option.getD_some, Nat.add_comm (n + 1)]
    rfl

end UrlScan.LineIndex
