import Mathlib.Data.List.Perm.Basic
import Mathlib.Logic.Relation
import UrlScan.Scan.Admission

/-!
# Batches that settle in any order

Files in flight settle when they are ready. A round begins when some of them have settled: which
ones, and in which order they are looked at, is left open (`Step.wait`). Then each of them is
recorded under its number, and the next waiting file is submitted (`Step.settle`). The outcome of a
file depends on its path alone.

What holds in every reachable state is the invariant `Sound`: the files submitted so far are the
first ones of the batch, each of them either is in flight or has its outcome recorded, and never
more files are in flight than allowed. Unless the batch ends with its first failure, a second
invariant (`Filled`) says that no file waits while there is room in flight.

Results:
1. `settle_cases`: everything that the settlement of one file does.
2. `sound_of_reachable` and `filled_of_reachable`: the invariants hold in every reachable state.
3. `wellFounded_step` and `exists_step`: every order of settlements comes to an end, and only when
   no file is in flight any more.
-/

namespace UrlScan.Admission

/-- A batch in the middle of a round. -/
structure Round (α ε : Type) where
  batch : Admission α ε
  /-- The numbers of the files that have settled in this round and are not recorded yet, in the
  order in which they will be. -/
  done : List Nat
  /-- The numbers of the files in the order of their submission. -/
  submitted : List Nat

section
variable {α ε : Type}

def Round.start (concurrency : Nat) (files : List Text) : Round α ε :=
  let batch := Admission.start concurrency files
  ⟨batch, [], batch.inFlight.map (·.1)⟩

/-- The numbers of the files that are in flight after a settlement and were not before: one file
has left its place, and new ones stand behind the others. -/
def newlySubmitted (before after : Admission α ε) : List Nat :=
  (after.inFlight.drop (before.inFlight.length - 1)).map (·.1)

/-- The steps of a batch whose files have the given outcomes.
* `wait`: some files in flight have settled, at least one, and are looked at in some order.
* `settle`: the first of them leaves its place in flight, and its outcome is recorded. -/
inductive Step (failFast : Bool) (outcome : Text → Except ε α) : Round α ε → Round α ε → Prop
  | wait {batch : Admission α ε} {done submitted : List Nat} :
      done ≠ [] → done.Nodup → (∀ number ∈ done, number ∈ batch.inFlight.map (·.1)) →
      Step failFast outcome ⟨batch, [], submitted⟩ ⟨batch, done, submitted⟩
  | settle {batch : Admission α ε} {number position : Nat} {path : Text}
      {rest submitted : List Nat} :
      batch.inFlight[position]? = some (number, path) →
      Step failFast outcome ⟨batch, number :: rest, submitted⟩
        ⟨batch.settle failFast position (outcome path), rest,
          submitted ++ newlySubmitted batch (batch.settle failFast position (outcome path))⟩

/-- The states that a batch may reach from its start. -/
def Reachable (failFast : Bool) (outcome : Text → Except ε α) (concurrency : Nat)
    (files : List Text) (r : Round α ε) : Prop :=
  Relation.ReflTransGen (Step failFast outcome) (.start concurrency files) r

/-! ## One settlement -/

def resultOf (number : Nat) : Except ε α → List (Nat × α)
  | .ok result => [(number, result)]
  | .error _ => []

def failureOf (number : Nat) : Except ε α → List (Nat × ε)
  | .ok _ => []
  | .error e => [(number, e)]

theorem numbers_of_outcome (number : Nat) (outcome : Except ε α) :
    (resultOf number outcome).map (·.1) ++ (failureOf number outcome).map (·.1) = [number] := by
  cases outcome <;> rfl

theorem record_eq (s : Admission α ε) (number : Nat) (outcome : Except ε α) :
    s.record number outcome =
      { s with
        completed := s.completed ++ resultOf number outcome
        failures := s.failures ++ failureOf number outcome } := by
  cases outcome with
  | ok result => simp only [record, resultOf, failureOf, List.append_nil]
  | error e => simp only [record, resultOf, failureOf, List.append_nil]

/-- Everything that the settlement of one file does. The file leaves its place, its outcome is
recorded, and at most one waiting file is admitted: none when no file waits, or when the batch is to
end with a failure that is recorded. -/
theorem settle_cases {s : Admission α ε} {position number : Nat} {path : Text}
    (failFast : Bool) (outcome : Except ε α)
    (present : s.inFlight[position]? = some (number, path)) :
    ∃ admitted, s.waiting = admitted ++ (s.settle failFast position outcome).waiting ∧
      (s.settle failFast position outcome).inFlight =
        s.inFlight.eraseIdx position ++ admitted ∧
      (s.settle failFast position outcome).completed = s.completed ++ resultOf number outcome ∧
      (s.settle failFast position outcome).failures = s.failures ++ failureOf number outcome ∧
      admitted.length ≤ 1 ∧
      (admitted = [] → s.waiting = [] ∨
        failFast = true ∧ (s.settle failFast position outcome).failures ≠ []) := by
  simp only [settle, present, record_eq]
  split
  next isOpen =>
    unfold admitNext
    split
    next none =>
      dsimp only at none
      exact ⟨[], rfl, (List.append_nil _).symm, rfl, rfl, Nat.zero_le 1, fun _ => Or.inl none⟩
    next next rest some =>
      dsimp only at some
      exact ⟨[next], some, rfl, rfl, rfl, Nat.le_refl 1, fun impossible => nomatch impossible⟩
  next closed =>
    refine ⟨[], rfl, (List.append_nil _).symm, rfl, rfl, Nat.zero_le 1, fun _ => Or.inr ?_⟩
    simpa [isOpen] using closed

/-! ## The files of a batch and their numbers -/

theorem mem_numbered {files : List Text} {number : Nat} {path : Text} :
    (number, path) ∈ numbered files ↔ files[number]? = some path := by
  rw [numbered, List.mem_map]
  constructor
  · rintro ⟨⟨file, i⟩, member, same⟩
    cases same
    exact List.mk_mem_zipIdx_iff_getElem?.mp member
  · intro present
    exact ⟨(path, number), List.mk_mem_zipIdx_iff_getElem?.mpr present, rfl⟩

theorem map_fst_numbered (files : List Text) :
    (numbered files).map (·.1) = List.range files.length := by
  rw [numbered, List.map_map, List.range_eq_range', ← List.zipIdx_map_snd 0 files]
  rfl

theorem length_numbered (files : List Text) : (numbered files).length = files.length := by
  rw [numbered, List.length_map, List.length_zipIdx]

theorem map_fst_take_numbered {files : List Text} {count : Nat} (inside : count ≤ files.length) :
    ((numbered files).take count).map (·.1) = List.range count := by
  rw [List.map_take, map_fst_numbered, List.take_range, Nat.min_eq_left inside]

/-- Admitting the next files continues the numbers of the submitted ones. -/
theorem admitted_numbers {files : List Text} {count : Nat} {admitted rest : List (Nat × Text)}
    (waiting : (numbered files).drop count = admitted ++ rest) (inside : count ≤ files.length) :
    List.range count ++ admitted.map (·.1) = List.range (count + admitted.length) ∧
      rest = (numbered files).drop (count + admitted.length) ∧
      count + admitted.length ≤ files.length := by
  have lengths := congrArg List.length waiting
  rw [List.length_drop, length_numbered, List.length_append] at lengths
  have fits : count + admitted.length ≤ files.length := by omega
  have first : (numbered files).take (count + admitted.length) =
      (numbered files).take count ++ admitted := by
    rw [List.take_add, waiting, List.take_left]
  refine ⟨?_, ?_, fits⟩
  · rw [← map_fst_take_numbered fits, first, List.map_append, map_fst_take_numbered inside]
  · rw [← List.drop_drop, waiting, List.drop_left]

/-! ## The invariants -/

/-- What holds of a batch at any time, whether it ends with its first failure or not. -/
structure Sound (outcome : Text → Except ε α) (concurrency : Nat) (files : List Text)
    (r : Round α ε) : Prop where
  /-- The submitted files are the first ones of the batch, in its order. -/
  submitted_eq : r.submitted = List.range r.submitted.length
  submitted_le : r.submitted.length ≤ files.length
  /-- The other files wait. -/
  waiting_eq : r.batch.waiting = (numbered files).drop r.submitted.length
  inFlight_le : r.batch.inFlight.length ≤ concurrency
  /-- Each submitted file is in flight, has a result or has failed, and only one of these. -/
  accounted : (r.batch.inFlight.map (·.1) ++
    (r.batch.completed.map (·.1) ++ r.batch.failures.map (·.1))).Perm r.submitted
  inFlight_mem : ∀ entry ∈ r.batch.inFlight, entry ∈ numbered files
  completed_mem : ∀ entry ∈ r.batch.completed,
    ∃ path, (entry.1, path) ∈ numbered files ∧ outcome path = .ok entry.2
  failures_mem : ∀ entry ∈ r.batch.failures,
    ∃ path, (entry.1, path) ∈ numbered files ∧ outcome path = .error entry.2
  done_nodup : r.done.Nodup
  done_inFlight : ∀ number ∈ r.done, number ∈ r.batch.inFlight.map (·.1)

section
variable {failFast : Bool} {outcome : Text → Except ε α} {concurrency : Nat} {files : List Text}

theorem sound_start : Sound outcome concurrency files (Round.start concurrency files) := by
  have submitted : (((numbered files).take concurrency).map (·.1)) =
      List.range (min concurrency files.length) := by
    rw [List.map_take, map_fst_numbered, List.take_range]
  have count : (((numbered files).take concurrency).map (·.1)).length =
      min concurrency files.length := by
    rw [submitted, List.length_range]
  constructor
  all_goals simp only [Round.start, start]
  case submitted_eq => rw [count, submitted]
  case submitted_le => omega
  case waiting_eq =>
    rw [count, List.drop_eq_drop_iff, length_numbered]
    omega
  case inFlight_le => exact List.length_take_le _ _
  case accounted => simp
  case inFlight_mem => exact fun entry member => List.mem_of_mem_take member
  case completed_mem => exact fun _ member => nomatch member
  case failures_mem => exact fun _ member => nomatch member
  case done_nodup => exact .nil
  case done_inFlight => exact fun _ member => nomatch member

theorem inFlight_perm {s : Admission α ε} {position : Nat} {entry : Nat × Text}
    (present : s.inFlight[position]? = some entry) :
    (entry :: s.inFlight.eraseIdx position).Perm s.inFlight := by
  obtain ⟨inside, same⟩ := List.getElem?_eq_some_iff.mp present
  rw [← same]
  exact List.getElem_cons_eraseIdx_perm inside

/-- The files that a settlement submits are those that it admits. -/
theorem newlySubmitted_eq {before after : Admission α ε} {position : Nat} {entry : Nat × Text}
    {admitted : List (Nat × Text)} (present : before.inFlight[position]? = some entry)
    (inFlight : after.inFlight = before.inFlight.eraseIdx position ++ admitted) :
    newlySubmitted before after = admitted.map (·.1) := by
  obtain ⟨inside, -⟩ := List.getElem?_eq_some_iff.mp present
  rw [newlySubmitted, inFlight, ← List.length_eraseIdx_of_lt inside, List.drop_left]

/-- Every step keeps the invariant. -/
theorem Sound.step {r r' : Round α ε} (sound : Sound outcome concurrency files r)
    (step : Step failFast outcome r r') : Sound outcome concurrency files r' := by
  -- A wait only fixes an order; what a settlement does is told by `settle_cases`.
  cases step with
  | wait notEmpty nodup inFlight =>
    exact { sound with done_nodup := nodup, done_inFlight := inFlight }
  | @settle batch number position path rest submitted present =>
    obtain ⟨admitted, waiting, inFlight, completed, failures, atMostOne, -⟩ :=
      settle_cases failFast (outcome path) present
    have listed := sound.waiting_eq.symm.trans waiting
    obtain ⟨numbers, waiting', fits⟩ := admitted_numbers listed sound.submitted_le
    have submitted' := newlySubmitted_eq present inFlight
    have left := inFlight_perm present
    have count : (submitted ++ admitted.map (·.1)).length = submitted.length + admitted.length := by
      rw [List.length_append, List.length_map]
    have named : (number, path) ∈ numbered files :=
      sound.inFlight_mem _ (List.mem_of_getElem? present)
    constructor
    all_goals simp only [submitted', inFlight, completed, failures]
    case submitted_eq => rw [count, ← numbers, ← sound.submitted_eq]
    case submitted_le => rw [count]; exact fits
    case waiting_eq => rw [count]; exact waiting'
    case inFlight_le =>
      have before : batch.inFlight.length ≤ concurrency := sound.inFlight_le
      have lengths := left.length_eq
      rw [List.length_cons] at lengths
      rw [List.length_append]
      omega
    case accounted =>
      -- Every number is counted: one of them moves from those in flight to the recorded ones.
      refine List.perm_iff_count.mpr fun i => ?_
      have before := sound.accounted.count_eq i
      have leaves : ([number] ++ (batch.inFlight.eraseIdx position).map (·.1)).Perm
          (batch.inFlight.map (·.1)) := left.map Prod.fst
      have moved := leaves.count_eq i
      have recorded := congrArg (List.count i) (numbers_of_outcome number (outcome path))
      simp only [List.map_append, List.count_append] at before moved recorded ⊢
      omega
    case inFlight_mem =>
      intro entry member
      rcases List.mem_append.mp member with stays | isNew
      · exact sound.inFlight_mem entry (List.mem_of_mem_eraseIdx stays)
      · exact List.mem_of_mem_drop (listed ▸ List.mem_append_left _ isNew)
    case completed_mem =>
      intro entry member
      rcases List.mem_append.mp member with earlier | isNew
      · exact sound.completed_mem entry earlier
      · cases settled : outcome path with
        | ok result =>
          rw [settled] at isNew
          cases List.mem_singleton.mp isNew
          exact ⟨path, named, settled⟩
        | error e =>
          rw [settled] at isNew
          cases isNew
    case failures_mem =>
      intro entry member
      rcases List.mem_append.mp member with earlier | isNew
      · exact sound.failures_mem entry earlier
      · cases settled : outcome path with
        | ok result =>
          rw [settled] at isNew
          cases isNew
        | error e =>
          rw [settled] at isNew
          cases List.mem_singleton.mp isNew
          exact ⟨path, named, settled⟩
    case done_nodup => exact (List.nodup_cons.mp sound.done_nodup).2
    case done_inFlight =>
      intro other member
      have different : other ≠ number := by
        rintro rfl
        exact (List.nodup_cons.mp sound.done_nodup).1 member
      have before := sound.done_inFlight other (List.mem_cons_of_mem _ member)
      rw [← (left.map Prod.fst).mem_iff, List.map_cons, List.mem_cons] at before
      rw [List.map_append, List.mem_append]
      exact Or.inl (before.resolve_left different)

theorem sound_of_reachable {r : Round α ε}
    (reachable : Reachable failFast outcome concurrency files r) :
    Sound outcome concurrency files r := by
  induction reachable with
  | refl => exact sound_start
  | tail _ step ih => exact ih.step step

/-- No file waits while there is room in flight. -/
def Filled (concurrency : Nat) (r : Round α ε) : Prop :=
  r.batch.waiting = [] ∨ r.batch.inFlight.length = concurrency

theorem filled_start : Filled concurrency (Round.start concurrency files : Round α ε) := by
  rcases Nat.le_total files.length concurrency with few | many
  · left
    rw [← length_numbered] at few
    exact List.drop_eq_nil_of_le few
  · right
    rw [← length_numbered] at many
    exact List.length_take_of_le many

/-- A batch that goes on after a failure keeps its places in flight filled. -/
theorem Filled.step {r r' : Round α ε} (filled : Filled concurrency r)
    (step : Step false outcome r r') : Filled concurrency r' := by
  cases step with
  | wait => exact filled
  | @settle batch number position path rest submitted present =>
    obtain ⟨admitted, waiting, inFlight, -, -, atMostOne, none⟩ :=
      settle_cases false (outcome path) present
    have lengths := (inFlight_perm present).length_eq
    rw [List.length_cons] at lengths
    unfold Filled at filled ⊢
    -- The place that becomes free is taken at once, or else no file waited.
    cases admitted with
    | nil =>
      left
      rcases none rfl with noneWaits | ⟨impossible, -⟩
      · exact (List.append_eq_nil_iff.mp (waiting.symm.trans noneWaits)).2
      · cases impossible
    | cons next others =>
      right
      rcases filled with noneWaits | full
      · rw [noneWaits] at waiting
        cases waiting
      · rw [inFlight, List.length_append, List.length_cons]
        rw [List.length_cons] at atMostOne
        dsimp only at full
        omega

theorem filled_of_reachable {r : Round α ε}
    (reachable : Reachable false outcome concurrency files r) :
    Filled concurrency r := by
  induction reachable with
  | refl => exact filled_start
  | tail _ step ih => exact ih.step step

/-! ## Every order comes to an end -/

/-- What remains to be done: the weight of the batch, and within a round less than before it. -/
def Round.remaining (r : Round α ε) : Nat :=
  2 * r.batch.weight + if r.done = [] then 1 else 0

theorem remaining_lt {r r' : Round α ε} (step : Step failFast outcome r r') :
    r'.remaining < r.remaining := by
  cases step with
  | wait notEmpty nodup inFlight =>
    unfold Round.remaining
    rw [if_neg notEmpty, if_pos rfl]
    exact Nat.lt_succ_self _
  | @settle batch number position path rest submitted present =>
    obtain ⟨inside, -⟩ := List.getElem?_eq_some_iff.mp present
    have lighter := weight_settle_lt failFast (outcome path) inside
    unfold Round.remaining
    rw [if_neg (List.cons_ne_nil number rest)]
    dsimp only
    split <;> omega

theorem wellFounded_step :
    WellFounded fun after before : Round α ε => Step failFast outcome before after :=
  Subrelation.wf remaining_lt (measure Round.remaining).wf

/-- As long as a file is in flight, the run goes on. -/
theorem Sound.exists_step {r : Round α ε} (sound : Sound outcome concurrency files r)
    (busy : r.batch.inFlight ≠ []) : ∃ r', Step failFast outcome r r' := by
  obtain ⟨batch, done, submitted⟩ := r
  -- Between two rounds one file in flight may settle alone; within a round the next one does.
  cases done with
  | nil =>
    obtain ⟨entry, others, inFlight⟩ := List.exists_cons_of_ne_nil busy
    refine ⟨⟨batch, [entry.1], submitted⟩,
      .wait (List.cons_ne_nil _ _) (List.pairwise_singleton _ _) ?_⟩
    intro number member
    cases List.mem_singleton.mp member
    exact List.mem_map_of_mem (inFlight ▸ List.mem_cons_self)
  | cons number rest =>
    obtain ⟨⟨number, path⟩, member, rfl⟩ :=
      List.mem_map.mp (sound.done_inFlight number List.mem_cons_self)
    obtain ⟨position, present⟩ := List.getElem?_of_mem member
    exact ⟨_, .settle present⟩

end

end

end UrlScan.Admission
