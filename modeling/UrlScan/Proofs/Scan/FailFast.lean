import UrlScan.Proofs.Scan.Sequential

/-!
# Batches that end with their first failure

A batch that is to end with its first failure differs from one that goes on only once a failure is
recorded: from then on no file is submitted any more. So until then its run is also a run of the
batch that goes on (`goesOn_of_noFailure`). If no failure is ever recorded, this holds of the whole
run, and the outcome is the sequential one; since that has no failures, no file of the batch fails.

Which files are submitted at all depends on the order in which the files settle, and so does the
failure that the batch ends with. With one file at a time in flight there is no choice: the file in
flight is always the last one that was submitted (`last_of_inFlight`).

Results:
1. `exists_firstFailure`: the step in which the first failure of a run is recorded. The run has
   submitted all its files before.
2. `failFast_agrees`: ending with the first failure agrees with going on after failures.
3. `scan_eq_ending`: the scan ends as one of these runs.
-/

namespace UrlScan

/-- How a scan ends whose files have settled: with the first failure, if that is to end it, or else
with an outcome. -/
def ScanOutcome.ending (failFast keepEmptyFiles : Bool) (batch : Admission FileResult FileError) :
    Except FileError ScanOutcome :=
  match batch.firstFailure?, failFast with
  | some error, true => .error error
  | _, _ => .ok (.ofAdmission keepEmptyFiles batch)

namespace Admission

section
variable {α ε : Type}

/-- The first failure of a run to `r` is recorded in the step from `before` to `after`: it is the
failure of the file with some number. -/
structure FirstFailure (outcome : Text → Except ε α) (concurrency : Nat) (files : List Text)
    (r before after : Round α ε) (number : Nat) (error : ε) : Prop where
  reached : Reachable true outcome concurrency files before
  none_before : before.batch.failures = []
  step : Step true outcome before after
  fails : ∃ path, (number, path) ∈ before.batch.inFlight ∧ outcome path = .error error
  recorded : after.batch.failures = [(number, error)]
  run : Relation.ReflTransGen (Step true outcome) after r
  /-- No file is submitted any more, neither in this step nor later. -/
  submitted_eq : r.submitted = before.submitted

namespace FailFastLemmas

variable {failFast : Bool} {outcome : Text → Except ε α} {concurrency : Nat} {files : List Text}
  {r r' : Round α ε}

/-! ## Until the first failure -/

/-- A settlement that leaves no failure recorded is the same for a batch that goes on. -/
theorem settle_noFailure {s : Admission α ε} {position : Nat} {settled : Except ε α}
    (none : (s.settle true position settled).failures = []) :
    s.settle true position settled = s.settle false position settled := by
  unfold settle at none ⊢
  split
  next => rfl
  next number path present =>
    rw [present] at none
    dsimp only at none ⊢
    split at none
    next isOpen => rw [if_pos isOpen]; rfl
    next closed => simp [isOpen, none] at closed

/-- A settlement that leaves a failure recorded admits no file. -/
theorem settle_failed {s : Admission α ε} {position number : Nat} {path : Text}
    {settled : Except ε α} (present : s.inFlight[position]? = some (number, path))
    (failed : (s.settle true position settled).failures ≠ []) :
    (s.settle true position settled).inFlight = s.inFlight.eraseIdx position := by
  obtain ⟨admitted, -, -, -, failures, -, -⟩ := settle_cases true settled present
  rw [failures] at failed
  unfold settle
  rw [present]
  dsimp only
  rw [record_eq, if_neg]
  simpa [isOpen] using failed

/-- What a step records as failed: nothing, or the failure of one file in flight. -/
theorem failures_step (step : Step failFast outcome r r') :
    r'.batch.failures = r.batch.failures ∨
    ∃ number path error, (number, path) ∈ r.batch.inFlight ∧ outcome path = .error error ∧
      r'.batch.failures = r.batch.failures ++ [(number, error)] := by
  cases step with
  | wait => exact Or.inl rfl
  | @settle batch number position path rest submitted present =>
    obtain ⟨admitted, -, -, -, failures, -, -⟩ := settle_cases failFast (outcome path) present
    cases settled : outcome path with
    | ok result =>
      rw [settled] at failures
      exact Or.inl (failures.trans (List.append_nil _))
    | error error =>
      rw [settled] at failures
      exact Or.inr ⟨number, path, error, List.mem_of_getElem? present, settled, failures⟩

theorem noFailure_before (step : Step failFast outcome r r') (none : r'.batch.failures = []) :
    r.batch.failures = [] := by
  rcases failures_step step with same | ⟨_, _, _, _, _, more⟩
  · exact same ▸ none
  · rw [more] at none
    exact absurd none (by simp)

/-- Until its first failure, a batch that is to end with it goes on. -/
theorem goesOn_of_noFailure (reachable : Reachable true outcome concurrency files r)
    (none : r.batch.failures = []) : Reachable false outcome concurrency files r := by
  induction reachable with
  | refl => exact .refl
  | @tail before after _ step ih =>
    have reached := ih (noFailure_before step none)
    cases step with
    | wait notEmpty nodup inFlight => exact reached.tail (.wait notEmpty nodup inFlight)
    | settle present =>
      dsimp only at none
      rw [settle_noFailure none]
      exact reached.tail (.settle present)

/-! ## From the first failure on -/

theorem submitted_of_failed (step : Step true outcome r r') (failed : r'.batch.failures ≠ []) :
    r'.submitted = r.submitted := by
  cases step with
  | wait => rfl
  | @settle batch number position path rest submitted present =>
    have inFlight := settle_failed present failed
    rw [← List.append_nil (batch.inFlight.eraseIdx position)] at inFlight
    dsimp only
    rw [newlySubmitted_eq present inFlight]
    exact List.append_nil submitted

/-- The first failure of a run is recorded in one of its steps, after which no file is submitted. -/
theorem exists_firstFailure (reachable : Reachable true outcome concurrency files r)
    {number : Nat} {error : ε} {rest : List (Nat × ε)}
    (failures : r.batch.failures = (number, error) :: rest) :
    ∃ before after, FirstFailure outcome concurrency files r before after number error := by
  induction reachable generalizing rest with
  | refl => cases failures
  | @tail earlier later reachable step ih =>
    have failed : later.batch.failures ≠ [] := by
      rw [failures]
      exact List.cons_ne_nil _ _
    have submitted := submitted_of_failed step failed
    cases recorded : earlier.batch.failures with
    | nil =>
      -- This is the step.
      rcases failures_step step with same | ⟨number', path, error', inFlight, fails, more⟩
      · exact absurd (same.trans recorded) failed
      · rw [recorded, List.nil_append] at more
        cases failures.symm.trans more
        exact ⟨earlier, later, reachable, recorded, step, ⟨path, inFlight, fails⟩, more, .refl,
          submitted⟩
    | cons first others =>
      -- The failure was recorded in an earlier step already.
      have sameFirst : first = (number, error) := by
        rcases failures_step step with same | ⟨_, _, _, _, _, more⟩
        · rw [same, recorded] at failures
          exact (List.cons.inj failures).1
        · rw [more, recorded] at failures
          exact (List.cons.inj failures).1
      subst sameFirst
      obtain ⟨before, after, firstFailure⟩ := ih recorded
      exact ⟨before, after,
        { firstFailure with
          run := firstFailure.run.tail step
          submitted_eq := submitted.trans firstFailure.submitted_eq }⟩

/-! ## One file at a time -/

/-- With one file at a time in flight, it is the last one that was submitted. -/
theorem last_of_inFlight (reachable : Reachable failFast outcome 1 files r) :
    ∀ entry ∈ r.batch.inFlight, r.submitted.length = entry.1 + 1 := by
  induction reachable with
  | refl =>
    intro entry member
    cases files with
    | nil => cases member
    | cons file rest =>
      cases List.mem_singleton.mp member
      rfl
  | @tail before after reachable step ih =>
    have sound := sound_of_reachable reachable
    cases step with
    | wait => exact ih
    | @settle batch number position path rest submitted present =>
      obtain ⟨admitted, waiting, inFlight, -, -, atMostOne, -⟩ :=
        settle_cases failFast (outcome path) present
      have left := (inFlight_perm present).length_eq
      have alone := sound.inFlight_le
      rw [List.length_cons] at left
      have noOther : batch.inFlight.eraseIdx position = [] :=
        List.eq_nil_of_length_eq_zero (by dsimp only at alone; omega)
      obtain ⟨numbers, -, -⟩ :=
        admitted_numbers (sound.waiting_eq.symm.trans waiting) sound.submitted_le
      intro entry member
      dsimp only at member numbers ⊢
      rw [inFlight, noOther, List.nil_append] at member
      -- The file in flight is the one that was just admitted.
      obtain ⟨one, rfl⟩ : ∃ next, admitted = [next] :=
        List.length_eq_one_iff.mp (Nat.le_antisymm atMostOne (List.length_pos_of_mem member))
      cases List.mem_singleton.mp member
      rw [List.length_singleton, List.range_succ] at numbers
      have isNext := List.append_cancel_left numbers
      rw [newlySubmitted_eq present inFlight, List.length_append]
      simp only [List.map_cons, List.map_nil, List.cons.injEq, and_true] at isNext ⊢
      rw [isNext]
      rfl

/-- With one file at a time in flight, the files before the first one that fails have succeeded, and
no other file was submitted. -/
theorem firstFailure_one {before after : Round α ε} {number : Nat} {error : ε}
    (first : FirstFailure outcome 1 files r before after number error) :
    r.submitted = List.range (number + 1) ∧
    ∀ earlier < number, ∀ path, files[earlier]? = some path →
      ∃ result, outcome path = .ok result := by
  have sound := sound_of_reachable first.reached
  obtain ⟨path, inFlight, -⟩ := first.fails
  have count := last_of_inFlight first.reached _ inFlight
  have submitted : before.submitted = List.range (number + 1) := count ▸ sound.submitted_eq
  refine ⟨first.submitted_eq.trans submitted, fun earlier less path atEarlier => ?_⟩
  have member : earlier ∈ before.submitted := by
    rw [submitted, List.mem_range]
    omega
  have accounted := sound.accounted.mem_iff.mpr member
  rw [first.none_before, List.map_nil, List.append_nil] at accounted
  rcases List.mem_append.mp accounted with stillInFlight | hasResult
  · obtain ⟨entry, inFlight', rfl⟩ := List.mem_map.mp stillInFlight
    have := last_of_inFlight first.reached _ inFlight'
    omega
  · obtain ⟨entry, completed, rfl⟩ := List.mem_map.mp hasResult
    obtain ⟨path', named, succeeds⟩ := sound.completed_mem entry completed
    cases (mem_numbered.mp named).symm.trans atEarlier
    exact ⟨entry.2, succeeds⟩

end FailFastLemmas

end

end Admission

namespace ScanOutcome

open Admission

/-- How a batch that has ended with its first failure, or without any, agrees with one that has gone
on after failures. -/
structure Agrees (keepEmptyFiles : Bool) (outcome : Text → Except FileError FileResult)
    (concurrency : Nat) (files : List Text) (r t : Round FileResult FileError) : Prop where
  /-- The one ends with a failure if and only if the other records one. -/
  fails_iff : (∃ error, ending true keepEmptyFiles r.batch = .error error) ↔
    ∃ recorded, ending false keepEmptyFiles t.batch = .ok recorded ∧ recorded.failures ≠ []
  /-- It is the first failure of the run, and one of those that the other records. -/
  first : ∀ error, ending true keepEmptyFiles r.batch = .error error →
    (∃ recorded, ending false keepEmptyFiles t.batch = .ok recorded ∧ error ∈ recorded.failures) ∧
    ∃ before after number, FirstFailure outcome concurrency files r before after number error
  /-- Every file that was submitted has settled. -/
  settled : (r.batch.completed.map (·.1) ++ r.batch.failures.map (·.1)).Perm r.submitted
  /-- Without failures both have the same outcome. -/
  same : (∀ file ∈ files, ∃ result, outcome file = .ok result) →
    ending true keepEmptyFiles r.batch = ending false keepEmptyFiles t.batch
  /-- With one file at a time in flight, the failure is that of the first file that fails, and no
  later file is submitted. -/
  one_by_one : concurrency = 1 → ∀ error, ending true keepEmptyFiles r.batch = .error error →
    ∃ (number : Nat) (path : Text), files[number]? = some path ∧ outcome path = .error error ∧
      (∀ earlier < number, ∀ other, files[earlier]? = some other →
        ∃ result, outcome other = .ok result) ∧
      r.submitted = List.range (number + 1)

namespace EndingLemmas

section
variable {keepEmptyFiles failFast : Bool} {batch : Admission FileResult FileError}

theorem ending_goesOn :
    ending false keepEmptyFiles batch = .ok (ofAdmission keepEmptyFiles batch) := by
  unfold ending
  split
  next impossible => cases impossible
  next => rfl

theorem ending_noFailure (none : batch.failures = []) :
    ending failFast keepEmptyFiles batch = .ok (ofAdmission keepEmptyFiles batch) := by
  unfold ending firstFailure?
  rw [none]
  rfl

theorem ending_failed {number : Nat} {error : FileError} {rest : List (Nat × FileError)}
    (failures : batch.failures = (number, error) :: rest) :
    ending true keepEmptyFiles batch = .error error := by
  unfold ending firstFailure?
  rw [failures]
  rfl

theorem failures_of_ending {error : FileError}
    (failed : ending true keepEmptyFiles batch = .error error) :
    ∃ number rest, batch.failures = (number, error) :: rest := by
  cases failures : batch.failures with
  | nil =>
    rw [ending_noFailure failures] at failed
    cases failed
  | cons first rest =>
    rw [ending_failed failures] at failed
    cases failed
    exact ⟨first.1, rest, rfl⟩

end

section
variable {keepEmptyFiles : Bool} {outcome : Text → Except FileError FileResult}
  {concurrency : Nat} {files : List Text} {r t : Round FileResult FileError}

theorem mem_failures_sequential {error : FileError} :
    error ∈ (sequential keepEmptyFiles outcome files).failures ↔
      ∃ file ∈ files, outcome file = .error error := by
  rw [sequential, List.mem_filterMap]
  refine exists_congr fun file => and_congr_right fun _ => ?_
  cases outcome file with
  | ok result => simp only [failure?, reduceCtorEq]
  | error other => simp only [failure?, Option.some.injEq, Except.error.injEq]

theorem failures_of_mem (sound : Admission.Sound outcome concurrency files r) {number : Nat}
    {error : FileError} (member : (number, error) ∈ r.batch.failures) :
    ∃ path, files[number]? = some path ∧ outcome path = .error error := by
  obtain ⟨path, named, fails⟩ := sound.failures_mem _ member
  exact ⟨path, mem_numbered.mp named, fails⟩

end

end EndingLemmas

open FailFastLemmas EndingLemmas

section
variable {outcome : Text → Except FileError FileResult} {concurrency : Nat} {files : List Text}

/-- Without a failure on record, a batch that has settled has the sequential outcome. -/
theorem ending_of_noFailure {r : Round FileResult FileError} (keepEmptyFiles : Bool)
    (room : 1 ≤ concurrency) (reachable : Reachable true outcome concurrency files r)
    (idle : r.batch.inFlight = []) (none : r.batch.failures = []) :
    ending true keepEmptyFiles r.batch = .ok (sequential keepEmptyFiles outcome files) ∧
      (sequential keepEmptyFiles outcome files).failures = [] := by
  obtain ⟨-, -, same⟩ :=
    ofAdmission_eq_sequential keepEmptyFiles room (goesOn_of_noFailure reachable none) idle
  constructor
  · rw [ending_noFailure none, same]
  · rw [← same]
    change inOrder r.batch.failures = []
    rw [none, inOrder, List.mergeSort_nil, List.map_nil]

/-- The failure that a batch ends with is the first one of its run, and a file of the batch has
it. -/
theorem first_of_ending {r : Round FileResult FileError} {keepEmptyFiles : Bool} {error : FileError}
    (reachable : Reachable true outcome concurrency files r)
    (failed : ending true keepEmptyFiles r.batch = .error error) :
    ∃ number path, files[number]? = some path ∧ outcome path = .error error ∧
      ∃ before after, FirstFailure outcome concurrency files r before after number error := by
  obtain ⟨number, rest, failures⟩ := failures_of_ending failed
  obtain ⟨path, atNumber, fails⟩ :=
    failures_of_mem (sound_of_reachable reachable) (failures ▸ List.mem_cons_self)
  exact ⟨number, path, atNumber, fails, exists_firstFailure reachable failures⟩

/-- A batch that ends with its first failure agrees with one that goes on after failures, in
whatever order the files settle. Its run comes to an end, and it does not stop while a file is in
flight. -/
theorem failFast_agrees (keepEmptyFiles : Bool) (room : 1 ≤ concurrency) (files : List Text)
    (outcome : Text → Except FileError FileResult) :
    (WellFounded fun after before : Round FileResult FileError => Step true outcome before after) ∧
    (∀ r, Reachable true outcome concurrency files r → r.batch.inFlight ≠ [] →
      ∃ r', Step true outcome r r') ∧
    ∀ r t, Reachable true outcome concurrency files r → r.batch.inFlight = [] →
      Reachable false outcome concurrency files t → t.batch.inFlight = [] →
      Agrees keepEmptyFiles outcome concurrency files r t := by
  refine ⟨wellFounded_step, fun _ reachable busy => (sound_of_reachable reachable).exists_step busy,
    fun r t reachable idle reachable' idle' => ?_⟩
  obtain ⟨-, -, recorded⟩ := ofAdmission_eq_sequential keepEmptyFiles room reachable' idle'
  have goesOn : ending false keepEmptyFiles t.batch =
      .ok (sequential keepEmptyFiles outcome files) := by
    rw [ending_goesOn, recorded]
  have noFailure := ending_of_noFailure keepEmptyFiles room reachable idle
  have among {error : FileError} (failed : ending true keepEmptyFiles r.batch = .error error) :
      error ∈ (sequential keepEmptyFiles outcome files).failures := by
    obtain ⟨number, path, atNumber, fails, -⟩ := first_of_ending reachable failed
    exact mem_failures_sequential.mpr ⟨path, List.mem_of_getElem? atNumber, fails⟩
  constructor
  case fails_iff =>
    rw [goesOn]
    constructor
    · rintro ⟨error, failed⟩
      exact ⟨_, rfl, List.ne_nil_of_mem (among failed)⟩
    · rintro ⟨_, same, someFailed⟩
      cases same
      cases failures : r.batch.failures with
      | nil => exact absurd (noFailure failures).2 someFailed
      | cons first rest => exact ⟨first.2, ending_failed failures⟩
  case first =>
    intro error failed
    obtain ⟨number, -, -, -, before, after, first⟩ := first_of_ending reachable failed
    exact ⟨⟨_, goesOn, among failed⟩, before, after, number, first⟩
  case settled =>
    have accounted := (sound_of_reachable reachable).accounted
    rwa [idle] at accounted
  case same =>
    intro allSucceed
    cases failures : r.batch.failures with
    | nil => rw [goesOn, (noFailure failures).1]
    | cons first rest =>
      have failed : ending true keepEmptyFiles r.batch = .error first.2 := ending_failed failures
      obtain ⟨_, path, atNumber, fails, -⟩ := first_of_ending reachable failed
      obtain ⟨result, succeeds⟩ := allSucceed path (List.mem_of_getElem? atNumber)
      rw [fails] at succeeds
      cases succeeds
  case one_by_one =>
    rintro rfl error failed
    obtain ⟨number, path, atNumber, fails, before, after, first⟩ := first_of_ending reachable failed
    obtain ⟨submitted, earlier⟩ := firstFailure_one first
    exact ⟨number, path, atNumber, fails, earlier, submitted⟩

/-- Three files, of which the second and the third fail, with one file at a time in flight: the scan
ends with the failure of the second one, and the third one is never submitted. -/
theorem failFast_agrees_second :
    ∃ outcome : Text → Except FileError FileResult,
      outcome = (fun file =>
        if file = ['a'] then .ok ⟨file, []⟩ else .error ⟨file, .unparsable []⟩) ∧ 1 ≤ 1 ∧
      ∀ r t, Reachable true outcome 1 [['a'], ['b'], ['c']] r → r.batch.inFlight = [] →
        Reachable false outcome 1 [['a'], ['b'], ['c']] t → t.batch.inFlight = [] →
        ending true true r.batch = .error ⟨['b'], .unparsable []⟩ ∧ r.submitted = [0, 1] ∧
          Agrees true outcome 1 [['a'], ['b'], ['c']] r t := by
  refine ⟨_, rfl, Nat.le_refl 1, fun r t reachable idle reachable' idle' => ?_⟩
  obtain ⟨-, -, every⟩ := failFast_agrees true (Nat.le_refl 1) [['a'], ['b'], ['c']] fun file =>
    if file = ['a'] then .ok ⟨file, []⟩ else .error ⟨file, .unparsable []⟩
  have agree := every r t reachable idle reachable' idle'
  obtain ⟨-, -, recorded⟩ :=
    ofAdmission_eq_sequential true (Nat.le_refl 1) reachable' idle'
  obtain ⟨error, failed⟩ := agree.fails_iff.mpr ⟨_, by rw [ending_goesOn, recorded], by decide⟩
  obtain ⟨number, path, atNumber, fails, earlier, submitted⟩ := agree.one_by_one rfl error failed
  -- The first file succeeds, and no file behind the second one can be the first that fails.
  match number, atNumber with
  | 0, atNumber =>
    cases atNumber
    cases fails
  | 1, atNumber =>
    cases atNumber
    cases fails
    exact ⟨failed, submitted, agree⟩
  | later + 2, _ =>
    obtain ⟨result, succeeds⟩ := earlier 1 (by omega) ['b'] rfl
    cases succeeds

end

end ScanOutcome

/-! ## The scan -/

namespace Scanner

open Admission

section
variable {s : Scanner} {fs : FileSystem} {files : List Text}
  {outcome : Text → Except FileError FileResult} {Condition : ScanState → Prop}

/-- The scan of a batch ends as one of its runs. -/
theorem scan_eq_ending (settles : s.SettlesAs fs files outcome Condition) {state : ScanState}
    (holds : Condition state) :
    ∃ r, Reachable s.options.failOnError.isSet outcome s.options.concurrency.toInt.toNat files r ∧
      r.batch.inFlight = [] ∧
      (s.scan fs files state).1 = (ScanOutcome.ending s.options.failOnError.isSet
        s.options.keepEmptyFiles.isSet r.batch).mapError .failed := by
  have atStart : Reachable s.options.failOnError.isSet outcome s.options.concurrency.toInt.toNat
      files (.start s.options.concurrency.toInt.toNat files) := .refl
  unfold scan
  split
  next none =>
    cases List.isEmpty_iff.mp none
    refine ⟨_, atStart, List.take_nil, ?_⟩
    have room : 1 ≤ s.options.concurrency.toInt.toNat := by
      have := s.options.concurrency_pos
      omega
    have start : Reachable false outcome s.options.concurrency.toInt.toNat []
        (.start s.options.concurrency.toInt.toNat []) := .refl
    obtain ⟨-, -, sequential⟩ := ScanOutcome.ofAdmission_eq_sequential
      s.options.keepEmptyFiles.isSet room start List.take_nil
    rw [ScanOutcome.EndingLemmas.ending_noFailure rfl, sequential]
    cases s.options.keepEmptyFiles.isSet <;> rfl
  next =>
    obtain ⟨r, reachable, idle, settled⟩ := settleAll_reaches settles atStart holds
    refine ⟨r, reachable, idle, ?_⟩
    generalize s.settleAll fs (.start s.options.concurrency.toInt.toNat files) state = ended
      at settled
    obtain ⟨batch, after⟩ := ended
    cases settled
    unfold ScanOutcome.ending
    dsimp only
    cases r.batch.firstFailure? with
    | none => rfl
    | some error => cases s.options.failOnError.isSet <;> rfl

end

end Scanner

end UrlScan
