import Mathlib.Algebra.Ring.Nat
import Mathlib.Data.Finset.Card
import UrlScan.Proofs.Scan.Rounds
import UrlScan.Proofs.Text.Order
import UrlScan.Scan.Batch

/-!
# The outcome of a batch does not depend on the order

The sequential outcome of a batch takes the files one after the other: the results of those that
succeed, the failures of those that fail, and the counters over all results. A batch that settles in
any order, with any number of files in flight, has the same outcome.

1. `ScanOutcome.sequential` is the sequential outcome, said without numbers or sorting.
2. `inOrder_eq`: sorting what is recorded by its numbers restores the order of the batch.
3. `ofAdmission_eq_sequential`: the outcome of a batch in which no file is in flight any more.
4. `every_order_sequential`: every run ends, respects the bound on files in flight, submits every
   file once, and has the sequential outcome.
5. `scan_eq_sequential`: a scan of files whose outcomes do not depend on the state of the scanner.
-/

namespace UrlScan

def failure? {α ε : Type} : Except ε α → Option ε
  | .ok _ => none
  | .error e => some e

/-- The outcome of a batch whose files are taken one after the other. -/
def ScanOutcome.sequential (keepEmptyFiles : Bool) (outcome : Text → Except FileError FileResult)
    (files : List Text) : ScanOutcome :=
  let results := files.filterMap fun file => (outcome file).toOption
  { results := if keepEmptyFiles then results else results.filter fun result => !result.urls.isEmpty
    tally :=
      { files := results.length
        urls := (results.map fun result => result.urls.length).sum
        distinct := (results.flatMap fun result => result.urls.map (·.url)).toFinset.card }
    failures := files.filterMap fun file => failure? (outcome file) }

/-! ## Counters -/

namespace SequentialLemmas

theorem length_eraseDups {α : Type} [BEq α] [LawfulBEq α] [DecidableEq α] (items : List α) :
    items.eraseDups.length = items.toFinset.card := by
  rw [← List.toFinset_card_of_nodup (nodup_eraseDups items)]
  congr 1
  ext item
  rw [List.mem_toFinset, List.mem_toFinset, List.mem_eraseDups]

end SequentialLemmas

open SequentialLemmas

/-- The counters of a report: how many files, how many URLs, and how many different ones. -/
theorem Tally.ofResults_eq (results : List FileResult) :
    Tally.ofResults results =
      { files := results.length
        urls := (results.map fun result => result.urls.length).sum
        distinct := (results.flatMap fun result => result.urls.map (·.url)).toFinset.card } := by
  rw [Tally.ofResults, length_eraseDups, FileResult.allUrls, List.length_flatMap]
  simp only [List.length_map]

/-! ## The order of what is recorded -/

namespace Admission

section
variable {α β ε : Type}

/-- Sorting by numbers restores an order in which the numbers increase. -/
theorem inOrder_eq {recorded expected : List (Nat × β)}
    (increasing : expected.Pairwise fun a b => a.1 < b.1) (nodup : (recorded.map (·.1)).Nodup)
    (same : ∀ entry, entry ∈ recorded ↔ entry ∈ expected) :
    inOrder recorded = expected.map (·.2) := by
  let sorted := recorded.mergeSort fun a b => a.1 ≤ b.1
  have sortedPerm : sorted.Perm recorded := List.mergeSort_perm recorded _
  have perm : sorted.Perm expected := by
    refine sortedPerm.trans ((List.perm_ext_iff_of_nodup ?_ ?_).mpr same)
    · exact List.Nodup.of_map (·.1) nodup
    · refine increasing.imp fun {a b} less => ?_
      rintro rfl
      exact Nat.lt_irrefl _ less
  have ordered : sorted.Pairwise fun a b => a.1 ≤ b.1 := by
    refine (List.pairwise_mergeSort ?_ ?_ recorded).imp of_decide_eq_true
    · intro a b c first second
      simp only [decide_eq_true_eq] at first second ⊢
      exact Nat.le_trans first second
    · intro a b
      simpa using Nat.le_total a.1 b.1
  rw [inOrder]
  refine congrArg (List.map (·.2)) (perm.eq_of_pairwise ?_ ordered (increasing.imp Nat.le_of_lt))
  -- Two entries with the same number are the same, since no number is recorded twice.
  intro a b inSorted inExpected le ge
  have distinct : (sorted.map (·.1)).Nodup := (sortedPerm.map Prod.fst).nodup_iff.mpr nodup
  exact List.inj_on_of_nodup_map distinct inSorted (perm.mem_iff.mpr inExpected)
    (Nat.le_antisymm le ge)

/-- What the files of a batch contribute to a part of the outcome, with their numbers. -/
def contributions (pick : Text → Option β) (files : List Text) : List (Nat × β) :=
  (numbered files).filterMap fun entry => (pick entry.2).map (entry.1, ·)

theorem mem_contributions {pick : Text → Option β} {files : List Text} {entry : Nat × β} :
    entry ∈ contributions pick files ↔
      ∃ path, (entry.1, path) ∈ numbered files ∧ pick path = some entry.2 := by
  rw [contributions, List.mem_filterMap]
  constructor
  · rintro ⟨⟨number, path⟩, member, found⟩
    obtain ⟨b, picked, rfl⟩ := Option.map_eq_some_iff.mp found
    exact ⟨path, member, picked⟩
  · rintro ⟨path, member, picked⟩
    exact ⟨(entry.1, path), member, by rw [picked]; rfl⟩

theorem contributions_increasing (pick : Text → Option β) (files : List Text) :
    (contributions pick files).Pairwise fun a b => a.1 < b.1 := by
  have numbers : (numbered files).Pairwise fun a b => a.1 < b.1 := by
    rw [← List.pairwise_map, map_fst_numbered]
    exact List.pairwise_lt_range
  refine List.pairwise_filterMap.mpr (numbers.imp fun {a b} less x foundX y foundY => ?_)
  obtain ⟨_, -, rfl⟩ := Option.map_eq_some_iff.mp foundX
  obtain ⟨_, -, rfl⟩ := Option.map_eq_some_iff.mp foundY
  exact less

theorem contributions_map_snd (pick : Text → Option β) (files : List Text) :
    (contributions pick files).map (·.2) = files.filterMap pick := by
  have paths : (numbered files).map (·.2) = files := by
    rw [numbered, List.map_map]
    exact List.zipIdx_map_fst 0 files
  rw [contributions, List.map_filterMap]
  conv => rhs; rw [← paths, List.filterMap_map]
  refine List.filterMap_congr fun entry _ => ?_
  rw [Option.map_map]
  exact Option.map_id'

/-- What is recorded for one part of the outcome, when every file is recorded for this part or for
another one, and no file contributes to both. -/
theorem inOrder_recorded {γ : Type} {pick : Text → Option β} {other : Text → Option γ}
    {files : List Text} {recorded : List (Nat × β)} {elsewhere : List (Nat × γ)}
    (accounted : (recorded.map (·.1) ++ elsewhere.map (·.1)).Perm (List.range files.length))
    (picked : ∀ entry ∈ recorded, ∃ path, (entry.1, path) ∈ numbered files ∧
      pick path = some entry.2)
    (pickedElsewhere : ∀ entry ∈ elsewhere, ∃ path, (entry.1, path) ∈ numbered files ∧
      other path = some entry.2)
    (exclusive : ∀ path b c, pick path = some b → other path ≠ some c) :
    inOrder recorded = files.filterMap pick := by
  have nodup : (recorded.map (·.1) ++ elsewhere.map (·.1)).Nodup :=
    accounted.nodup_iff.mpr List.nodup_range
  rw [← contributions_map_snd]
  refine inOrder_eq (contributions_increasing pick files) (List.nodup_append.mp nodup).1 ?_
  intro entry
  rw [mem_contributions]
  constructor
  · exact picked entry
  · rintro ⟨path, named, isPicked⟩
    have samePath {path' : Text} (named' : (entry.1, path') ∈ numbered files) : path' = path :=
      Option.some.inj ((mem_numbered.mp named').symm.trans (mem_numbered.mp named))
    have inBatch : entry.1 ∈ List.range files.length := by
      rw [← map_fst_numbered]
      exact List.mem_map_of_mem named
    rcases List.mem_append.mp (accounted.mem_iff.mpr inBatch) with here | there
    · obtain ⟨found, member, sameNumber⟩ := List.mem_map.mp here
      obtain ⟨path', named', isPicked'⟩ := picked found member
      rw [sameNumber] at named'
      rw [samePath named', isPicked] at isPicked'
      rwa [Prod.ext sameNumber.symm (Option.some.inj isPicked')]
    · -- Recorded elsewhere, the file would contribute to both parts.
      obtain ⟨found, member, sameNumber⟩ := List.mem_map.mp there
      obtain ⟨path', named', isOther⟩ := pickedElsewhere found member
      rw [sameNumber] at named'
      rw [samePath named'] at isOther
      exact absurd isOther (exclusive path _ _ isPicked)

variable {failFast : Bool} {outcome : Text → Except ε α} {concurrency : Nat} {files : List Text}

/-- When no file waits and none is in flight, every file of the batch is recorded once. -/
theorem Sound.recorded {r : Round α ε} (sound : Sound outcome concurrency files r)
    (noneWaits : r.batch.waiting = []) (idle : r.batch.inFlight = []) :
    r.submitted = List.range files.length ∧
      (r.batch.completed.map (·.1) ++ r.batch.failures.map (·.1)).Perm
        (List.range files.length) := by
  have count : r.submitted.length = files.length := by
    have all := sound.waiting_eq.symm.trans noneWaits
    have atLeast := List.drop_eq_nil_iff.mp all
    rw [length_numbered] at atLeast
    exact Nat.le_antisymm sound.submitted_le atLeast
  have submitted := sound.submitted_eq
  rw [count] at submitted
  have accounted := sound.accounted
  rw [idle, submitted] at accounted
  exact ⟨submitted, accounted⟩

/-- The results and the failures in the order of the batch, when every file is recorded. -/
theorem Sound.outcome_eq {r : Round α ε} (sound : Sound outcome concurrency files r)
    (accounted : (r.batch.completed.map (·.1) ++ r.batch.failures.map (·.1)).Perm
      (List.range files.length)) :
    inOrder r.batch.completed = files.filterMap (fun file => (outcome file).toOption) ∧
      inOrder r.batch.failures = files.filterMap fun file => failure? (outcome file) := by
  have results : ∀ entry ∈ r.batch.completed, ∃ path, (entry.1, path) ∈ numbered files ∧
      (outcome path).toOption = some entry.2 := by
    intro entry member
    obtain ⟨path, named, settled⟩ := sound.completed_mem entry member
    exact ⟨path, named, by rw [settled]; rfl⟩
  have failures : ∀ entry ∈ r.batch.failures, ∃ path, (entry.1, path) ∈ numbered files ∧
      failure? (outcome path) = some entry.2 := by
    intro entry member
    obtain ⟨path, named, settled⟩ := sound.failures_mem entry member
    exact ⟨path, named, by rw [settled]; rfl⟩
  have exclusive (path : Text) (result : α) (e : ε)
      (succeeds : (outcome path).toOption = some result) :
      failure? (outcome path) ≠ some e := by
    cases settled : outcome path with
    | ok result => exact fun fails => nomatch fails
    | error e =>
      rw [settled] at succeeds
      cases succeeds
  exact ⟨inOrder_recorded accounted results failures exclusive,
    inOrder_recorded (List.perm_append_comm.trans accounted) failures results
      fun path e result fails succeeds => exclusive path result e succeeds fails⟩

end

end Admission

/-! ## Every order -/

namespace ScanOutcome

open Admission

section
variable {outcome : Text → Except FileError FileResult} {concurrency : Nat} {files : List Text}

/-- The outcome of a batch that went on after failures and in which no file is in flight any
more. -/
theorem ofAdmission_eq_sequential {r : Round FileResult FileError} (keepEmptyFiles : Bool)
    (room : 1 ≤ concurrency) (reachable : Reachable false outcome concurrency files r)
    (idle : r.batch.inFlight = []) :
    r.submitted = List.range files.length ∧
      (r.batch.completed.map (·.1) ++ r.batch.failures.map (·.1)).Perm
        (List.range files.length) ∧
      ofAdmission keepEmptyFiles r.batch = sequential keepEmptyFiles outcome files := by
  have sound := sound_of_reachable reachable
  have noneWaits : r.batch.waiting = [] := by
    rcases filled_of_reachable reachable with noneWaits | full
    · exact noneWaits
    · rw [idle, List.length_nil] at full
      omega
  obtain ⟨submitted, accounted⟩ := sound.recorded noneWaits idle
  obtain ⟨results, failures⟩ := sound.outcome_eq accounted
  refine ⟨submitted, accounted, ?_⟩
  rw [ofAdmission, sequential, results, failures, Tally.ofResults_eq]

/-- Every order in which the files of a batch may settle, when the batch goes on after failures. The
run comes to an end; at any time there are no more files in flight than allowed and none has been
submitted twice; it does not stop before every file is recorded; and then each file was submitted
once, is recorded as a result or as a failure but not as both, and the outcome is the sequential
one. -/
theorem every_order_sequential (keepEmptyFiles : Bool) (room : 1 ≤ concurrency) (files : List Text)
    (outcome : Text → Except FileError FileResult) :
    (WellFounded fun after before : Round FileResult FileError => Step false outcome before after) ∧
    ∀ r, Reachable false outcome concurrency files r →
      r.batch.inFlight.length ≤ min concurrency files.length ∧ r.submitted.Nodup ∧
      (r.batch.inFlight ≠ [] → ∃ r', Step false outcome r r') ∧
      (r.batch.inFlight = [] →
        r.submitted = List.range files.length ∧
        (r.batch.completed.map (·.1) ++ r.batch.failures.map (·.1)).Perm
          (List.range files.length) ∧
        ofAdmission keepEmptyFiles r.batch = sequential keepEmptyFiles outcome files) := by
  refine ⟨wellFounded_step, fun r reachable => ?_⟩
  have sound := sound_of_reachable reachable
  refine ⟨?_, ?_, fun busy => sound.exists_step busy, fun idle =>
    ofAdmission_eq_sequential keepEmptyFiles room reachable idle⟩
  · have counted := sound.accounted.length_eq
    rw [List.length_append, List.length_map] at counted
    have bound := sound.inFlight_le
    have inBatch := sound.submitted_le
    omega
  · rw [sound.submitted_eq]
    exact List.nodup_range

end

/-- A batch that names one file twice and a file that fails between, with two files in flight. In
whatever order the files settle, the outcome has both results, and one URL that is counted twice. -/
theorem every_order_sequential_twice :
    ∃ o : Occurrence, o.url = "http://a.b".toList ∧ 1 ≤ 2 ∧
      ∀ r : Round FileResult FileError,
        Reachable false
          (fun file => if file = ['b'] then .error ⟨file, .unparsable []⟩ else .ok ⟨file, [o]⟩)
          2 [['a'], ['b'], ['a']] r →
        r.batch.inFlight.length ≤ 2 ∧ (r.batch.inFlight = [] →
          r.submitted = [0, 1, 2] ∧
          ofAdmission false r.batch =
            ⟨[⟨['a'], [o]⟩, ⟨['a'], [o]⟩], ⟨2, 2, 1⟩, [⟨['b'], .unparsable []⟩]⟩) := by
  let o : Occurrence := ⟨"http://a.b".toList, 1, 1, 0, 10, [], .text, by decide⟩
  refine ⟨o, rfl, by decide, fun r reachable => ?_⟩
  obtain ⟨-, every⟩ := every_order_sequential false (show 1 ≤ 2 by decide) [['a'], ['b'], ['a']]
    fun file => if file = ['b'] then .error ⟨file, .unparsable []⟩ else .ok ⟨file, [o]⟩
  obtain ⟨bound, -, -, ends⟩ := every r reachable
  refine ⟨bound, fun idle => ?_⟩
  obtain ⟨submitted, -, outcome⟩ := ends idle
  exact ⟨submitted, outcome⟩

end ScanOutcome

/-! ## The scan -/

namespace Scanner

open Admission

/-- The files of a batch settle as `outcome` says, as long as the state of the scanner satisfies
some condition, and it always does. -/
structure SettlesAs (s : Scanner) (fs : FileSystem) (files : List Text)
    (outcome : Text → Except FileError FileResult) (Condition : ScanState → Prop) : Prop where
  outcome_eq : ∀ file ∈ files, ∀ state, Condition state →
    (s.scanFile fs state file).1 = .ok (outcome file)
  scanned : ∀ file ∈ files, ∀ state, Condition state → Condition (s.scanFile fs state file).2
  emitted : ∀ event state, Condition state → Condition (state.emit event)

section
variable {s : Scanner} {fs : FileSystem} {files : List Text}
  {outcome : Text → Except FileError FileResult} {Condition : ScanState → Prop} {concurrency : Nat}

/-- The scan of a batch is one of the runs: in every round the first file in flight settles. -/
theorem settleAll_reaches (settles : s.SettlesAs fs files outcome Condition)
    {batch : Admission FileResult FileError} {submitted : List Nat} {state : ScanState}
    (reachable : Reachable s.options.failOnError.isSet outcome concurrency files
      ⟨batch, [], submitted⟩) (holds : Condition state) :
    ∃ r, Reachable s.options.failOnError.isSet outcome concurrency files r ∧
      r.batch.inFlight = [] ∧ (s.settleAll fs batch state).1 = .ok r.batch := by
  -- One turn of the loop is two steps: the first file in flight is waited for, and settles.
  fun_induction s.settleAll fs batch state generalizing submitted with
  | case1 batch state idle => exact ⟨_, reachable, idle, rfl⟩
  | case2 batch state number file rest inFlight abort after scanned =>
    have named := (sound_of_reachable reachable).inFlight_mem _ (inFlight ▸ List.mem_cons_self)
    have member := List.mem_of_getElem? (mem_numbered.mp named)
    have settled := settles.outcome_eq file member state holds
    rw [scanned] at settled
    cases settled
  | case3 batch state number file rest inFlight found after scanned logged =>
    rename_i ih
    have named := (sound_of_reachable reachable).inFlight_mem _ (inFlight ▸ List.mem_cons_self)
    have member := List.mem_of_getElem? (mem_numbered.mp named)
    have settled := settles.outcome_eq file member state holds
    have holdsAfter := settles.scanned file member state holds
    rw [scanned] at settled holdsAfter
    cases settled
    have first : batch.inFlight[0]? = some (number, file) := by rw [inFlight]; rfl
    have waited : Step s.options.failOnError.isSet outcome ⟨batch, [], submitted⟩
        ⟨batch, [number], submitted⟩ := by
      refine .wait (List.cons_ne_nil _ _) (List.pairwise_singleton _ _) fun other same => ?_
      cases List.mem_singleton.mp same
      exact List.mem_map_of_mem (inFlight ▸ List.mem_cons_self)
    refine ih ((reachable.tail waited).tail (.settle first)) ?_
    unfold logged
    split
    next => exact holdsAfter
    next => exact settles.emitted _ _ holdsAfter

/-- A scan that goes on after failures has the sequential outcome. -/
theorem scan_eq_sequential (settles : s.SettlesAs fs files outcome Condition)
    (goesOn : s.options.failOnError.isSet = false) {state : ScanState} (holds : Condition state) :
    (s.scan fs files state).1 =
      .ok (.sequential s.options.keepEmptyFiles.isSet outcome files) := by
  unfold scan
  split
  next none =>
    cases List.isEmpty_iff.mp none
    cases s.options.keepEmptyFiles.isSet <;> rfl
  next =>
    have room : 1 ≤ s.options.concurrency.toInt.toNat := by
      have := s.options.concurrency_pos
      omega
    have atStart : Reachable s.options.failOnError.isSet outcome s.options.concurrency.toInt.toNat
        files (.start s.options.concurrency.toInt.toNat files) := .refl
    obtain ⟨r, reachable, idle, settled⟩ := settleAll_reaches settles atStart holds
    rw [goesOn] at reachable
    obtain ⟨-, -, sequential⟩ := ScanOutcome.ofAdmission_eq_sequential
      s.options.keepEmptyFiles.isSet room reachable idle
    generalize s.settleAll fs (.start s.options.concurrency.toInt.toNat files) state = ended
      at settled
    obtain ⟨batch, after⟩ := ended
    cases settled
    dsimp only
    split
    next impossible =>
      rw [goesOn] at impossible
      cases impossible
    next =>
      rw [sequential]

end

end Scanner

end UrlScan
