import UrlScan.Proofs.Scan.Rounds
import UrlScan.Proofs.Scan.ScannedFile
import UrlScan.Proofs.Scan.Workers
import UrlScan.Scan.Batch

/-!
# A scan is a run of its files

Searching a document takes a parser, uses it and gives it back in one go; scanning a batch does so
file by file. So both are runs of the files of the batch in which one file at a time moves on, and
what holds in every reachable state of the files holds of the pool of a scanner between scans.

Results:
1. `searchPooled_run`, `scanFile_run`: a file that is scanned goes from its admission to its end.
2. `scan_rests`: when a scan has ended, with an outcome or without one, all its files have settled.
3. `scan_available`: every parser that a scan has taken can be had again.
-/

namespace UrlScan.Workers

/-- Some steps of the files. -/
abbrev Run (s : Scanner) : Workers → Workers → Prop :=
  Relation.ReflTransGen (Step s)

/-- The pool is in a reachable state in which all files have settled. -/
def Rests (s : Scanner) (pool : ParserPool) : Prop :=
  ∃ tasks : List FileTask, Reachable s ⟨pool, tasks⟩ ∧ ∀ task ∈ tasks, task.isSettled = true

/-- Some files have not asked for a parser, and the others have settled. -/
structure Waiting (count : Nat) (tasks : List FileTask) : Prop where
  unfinished_eq : unfinished tasks = count
  admitted_or_settled : ∀ task ∈ tasks, task = .admitted ∨ task.isSettled = true

namespace WorkersLemmas

variable {s : Scanner} {tasks : List FileTask} {position : Nat}

/-! ## One file -/

theorem get_set {task : FileTask} (present : tasks[position]? = some task) (moved : FileTask) :
    (tasks.set position moved)[position]? = some moved := by
  obtain ⟨inside, -⟩ := List.getElem?_eq_some_iff.mp present
  exact List.getElem?_set_self inside

/-- The search of a document is a run of its file, from its admission to its answer. -/
theorem searchPooled_run (language : Text) (d : Document) (grammar : Grammar) (state : ScanState)
    (present : tasks[position]? = some .admitted) :
    Run s ⟨state.pool, tasks⟩ ⟨(s.searchPooled language d grammar state).2.pool,
      tasks.set position (.answered (s.searchPooled language d grammar state).1)⟩ := by
  unfold Scanner.searchPooled
  dsimp only
  have samePool (state : ScanState) (shared : Bool) :
      (if shared = true then state.emit (.poolExhausted language) else state).pool =
        state.pool := by
    cases shared <;> rfl
  cases taken : (state.pool.acquire language grammar).parser with
  | error reason =>
    dsimp only
    rw [samePool]
    exact .single (.refused (w := ⟨state.pool, tasks⟩) present taken)
  | ok parser =>
    dsimp only
    rw [samePool]
    have acquired := Step.acquire (s := s) (w := ⟨state.pool, tasks⟩) present taken
    have searched := Step.search (s := s)
      (w := ⟨(state.pool.acquire language grammar).pool,
        tasks.set position (.holding language grammar parser)⟩) d (get_set present _)
    have released := Step.release (s := s)
      (w := ⟨(state.pool.acquire language grammar).pool,
        tasks.set position (.searched language parser (s.searchTree d grammar parser))⟩)
      (get_set present _)
    rw [List.set_set] at searched released
    exact ((Relation.ReflTransGen.single acquired).tail searched).tail released

theorem search_run (file language : Text) (d : Document) (state : ScanState)
    (present : tasks[position]? = some .admitted) :
    Run s ⟨state.pool, tasks⟩ ⟨(s.search file language d state).2.pool,
      tasks.set position (.answered (s.search file language d state).1)⟩ := by
  have samePool := (Scanner.plan_offers (s := s) file language state).1
  unfold Scanner.search
  generalize s.plan file language state = planned at samePool ⊢
  obtain ⟨plan, after⟩ := planned
  dsimp only at samePool
  rw [← samePool]
  cases plan with
  | asText => exact .single (.skip (w := ⟨after.pool, tasks⟩) _ present)
  | notAtAll => exact .single (.skip (w := ⟨after.pool, tasks⟩) _ present)
  | inTree grammar => exact searchPooled_run language d grammar after present

/-- The scan of a file is a run of it, from its admission to its end. -/
theorem scanFile_run (fs : FileSystem) (file : Text) (state : ScanState)
    (present : tasks[position]? = some .admitted) :
    ∃ found, Run s ⟨state.pool, tasks⟩
      ⟨(s.scanFile fs state file).2.pool, tasks.set position (.settled found)⟩ := by
  have settled {pool : ParserPool} {found : Except ScanFault (List Occurrence)}
      (run : Run s ⟨state.pool, tasks⟩ ⟨pool, tasks.set position (.answered found)⟩) :
      ∃ found, Run s ⟨state.pool, tasks⟩ ⟨pool, tasks.set position (.settled found)⟩ := by
    have last := Step.settle (s := s) (w := ⟨pool, tasks.set position (.answered found)⟩)
      (get_set present _)
    rw [List.set_set] at last
    exact ⟨found, run.tail last⟩
  have skipped : Run s ⟨state.pool, tasks⟩
      ⟨state.pool, tasks.set position (.answered (.ok []))⟩ :=
    .single (.skip (w := ⟨state.pool, tasks⟩) _ present)
  unfold Scanner.scanFile
  split
  next => exact settled skipped
  next => exact settled skipped
  next => exact settled skipped
  next d _ =>
    dsimp only
    have searched := search_run (s := s) file (state.registry.detect file) d
      (state.emit (.scanning file (state.registry.detect file))) present
    generalize s.search file (state.registry.detect file) d
      (state.emit (.scanning file (state.registry.detect file))) = answer at searched ⊢
    obtain ⟨found, after⟩ := answer
    cases found with
    | error fault => exact settled searched
    | ok occurrences =>
      cases s.filter with
      | some filter => exact settled searched
      | none => exact settled searched

/-! ## A batch -/

theorem exists_admitted {count : Nat} (waiting : Waiting (count + 1) tasks) :
    ∃ position : Nat, tasks[position]? = some .admitted := by
  have positive : 0 < unfinished tasks := by
    rw [waiting.unfinished_eq]
    exact Nat.succ_pos count
  obtain ⟨task, member, notSettled⟩ := List.countP_pos_iff.mp positive
  rcases waiting.admitted_or_settled task member with rfl | settled
  · exact List.mem_iff_getElem?.mp member
  · rw [settled] at notSettled
    cases notSettled

theorem Waiting.settle {count : Nat} (waiting : Waiting (count + 1) tasks)
    (present : tasks[position]? = some .admitted) (found : Except ScanFault (List Occurrence)) :
    Waiting count (tasks.set position (.settled found)) where
  unfinished_eq := by
    have before := waiting.unfinished_eq
    rw [unfinished, (perm_cons_eraseIdx present).countP_eq, List.countP_cons_of_pos rfl] at before
    rw [unfinished, (perm_set present _).countP_eq, List.countP_cons_of_neg Bool.false_ne_true]
    exact Nat.succ.inj before
  admitted_or_settled task member := by
    rcases List.mem_or_eq_of_mem_set member with old | rfl
    · exact waiting.admitted_or_settled task old
    · exact Or.inr rfl

theorem Waiting.enter {count : Nat} (waiting : Waiting count tasks) :
    Waiting (count + 1) (tasks ++ [.admitted]) where
  unfinished_eq := by
    rw [unfinished, List.countP_append]
    exact congrArg Nat.succ waiting.unfinished_eq
  admitted_or_settled task member := by
    rcases List.mem_append.mp member with old | new
    · exact waiting.admitted_or_settled task old
    · exact Or.inl (List.mem_singleton.mp new)

/-- As many files are admitted as fewer than allowed are in flight. -/
theorem enter_run (pool : ParserPool) {count : Nat} (waiting : Waiting count tasks) (more : Nat)
    (room : count + more ≤ s.options.concurrency.toInt.toNat) :
    ∃ tasks', Run s ⟨pool, tasks⟩ ⟨pool, tasks'⟩ ∧ Waiting (count + more) tasks' := by
  induction more with
  | zero => exact ⟨tasks, .refl, waiting⟩
  | succ more ih =>
    obtain ⟨tasks', run, waiting'⟩ := ih (Nat.le_of_lt room)
    have admitted := Step.enter (s := s) (w := ⟨pool, tasks'⟩)
      (Nat.lt_of_le_of_lt (Nat.le_of_eq waiting'.unfinished_eq) room)
    exact ⟨_, run.tail admitted, Waiting.enter waiting'⟩

theorem Waiting.all_settled (waiting : Waiting 0 tasks) :
    ∀ task ∈ tasks, task.isSettled = true := by
  intro task member
  have none := List.countP_eq_zero.mp waiting.unfinished_eq task member
  simpa using none

/-- A file in flight is scanned, and then one file less is in flight. -/
theorem scanFile_waiting {count : Nat} (waiting : Waiting (count + 1) tasks) (fs : FileSystem)
    (file : Text) (state : ScanState) :
    ∃ tasks', Run s ⟨state.pool, tasks⟩ ⟨(s.scanFile fs state file).2.pool, tasks'⟩ ∧
      Waiting count tasks' := by
  obtain ⟨position, present⟩ := exists_admitted waiting
  obtain ⟨found, run⟩ := scanFile_run (s := s) fs file state present
  exact ⟨_, run, Waiting.settle waiting present found⟩

theorem finishAll_run (fs : FileSystem) (files : List Text) (state : ScanState)
    (waiting : Waiting files.length tasks) :
    ∃ tasks', Run s ⟨state.pool, tasks⟩ ⟨(s.finishAll fs files state).pool, tasks'⟩ ∧
      Waiting 0 tasks' := by
  induction files generalizing state tasks with
  | nil => exact ⟨tasks, .refl, waiting⟩
  | cons file rest ih =>
    obtain ⟨scanned, run, fewer⟩ := scanFile_waiting (s := s) waiting fs file state
    obtain ⟨finished, run', none⟩ := ih (s.scanFile fs state file).2 fewer
    exact ⟨finished, run.trans run', none⟩

/-- The files in flight are scanned, and those that are admitted after them, until all of them have
settled. -/
theorem settleAll_run (fs : FileSystem) (batch : Admission FileResult FileError)
    (state : ScanState) (waiting : Waiting batch.inFlight.length tasks)
    (room : batch.inFlight.length ≤ s.options.concurrency.toInt.toNat) :
    ∃ tasks', Run s ⟨state.pool, tasks⟩ ⟨(s.settleAll fs batch state).2.pool, tasks'⟩ ∧
      Waiting 0 tasks' := by
  fun_induction s.settleAll fs batch state generalizing tasks with
  | case1 batch state none =>
    rw [none] at waiting
    exact ⟨tasks, .refl, waiting⟩
  | case2 batch state number file rest inFlight abort after scanned =>
    rw [inFlight] at waiting
    obtain ⟨tasks', run, fewer⟩ := scanFile_waiting (s := s) waiting fs file state
    rw [scanned] at run
    rw [← List.length_map (·.2)] at fewer
    obtain ⟨finished, run', none⟩ := finishAll_run (s := s) fs _ after fewer
    exact ⟨finished, run.trans run', none⟩
  | case3 batch state number file rest inFlight found after scanned logged =>
    rename_i ih
    have first : batch.inFlight[0]? = some (number, file) := by rw [inFlight]; rfl
    obtain ⟨admitted, -, inFlight', -, -, atMostOne, -⟩ :=
      Admission.settle_cases s.options.failOnError.isSet found first
    have length : (batch.settle s.options.failOnError.isSet 0 found).inFlight.length =
        rest.length + admitted.length := by
      rw [inFlight', inFlight, List.length_append]
      rfl
    rw [inFlight] at waiting room
    rw [List.length_cons] at room
    obtain ⟨scannedTasks, run, fewer⟩ := scanFile_waiting (s := s) waiting fs file state
    obtain ⟨admittedTasks, run', waiting'⟩ := enter_run (s := s) after.pool fewer admitted.length
      (by omega)
    have samePool : logged.pool = after.pool := by
      unfold logged
      split
      next => rfl
      next => rfl
    rw [scanned] at run
    rw [← length] at waiting'
    rw [← samePool] at run run'
    obtain ⟨finished, run'', none⟩ := ih waiting' (by omega)
    exact ⟨finished, (run.trans run').trans run'', none⟩

end WorkersLemmas

open WorkersLemmas

/-! ## A scan -/

/-- The pool of a new scanner is at rest. -/
theorem newState_rests (s : Scanner) (registry : Registry) : Rests s (s.newState registry).pool :=
  ⟨[], .refl, fun _ member => nomatch member⟩

/-- When a scan has ended, with an outcome or without one, all its files have settled. -/
theorem scan_rests {s : Scanner} (fs : FileSystem) (files : List Text) {state : ScanState}
    (rests : Rests s state.pool) : Rests s (s.scan fs files state).2.pool := by
  obtain ⟨tasks, reachable, settled⟩ := rests
  have none : Waiting 0 tasks :=
    ⟨List.countP_eq_zero.mpr fun task member => by simp [settled task member],
      fun task member => Or.inr (settled task member)⟩
  unfold Scanner.scan
  split
  next => exact ⟨tasks, reachable, settled⟩
  next =>
    have room : 0 + ((Admission.numbered files).take s.options.concurrency.toInt.toNat).length ≤
        s.options.concurrency.toInt.toNat := by
      rw [Nat.zero_add]
      exact List.length_take_le _ _
    obtain ⟨started, run, waiting⟩ := enter_run (s := s) state.pool none _ room
    rw [Nat.zero_add] at room waiting
    obtain ⟨finished, run', none'⟩ := settleAll_run (s := s) fs
      (.start s.options.concurrency.toInt.toNat files) state waiting room
    have rests :
        Rests s (s.settleAll fs (.start s.options.concurrency.toInt.toNat files) state).2.pool :=
      ⟨finished, (reachable.trans run).trans run', Waiting.all_settled none'⟩
    generalize s.settleAll fs (.start s.options.concurrency.toInt.toNat files) state = ended
      at rests ⊢
    obtain ⟨result, after⟩ := ended
    cases result with
    | error abort => exact rests
    | ok batch =>
      dsimp only
      split
      next => exact rests
      next => exact rests

/-- Whatever the scans of a scanner have come to, every parser of its pool can be had again. -/
theorem scan_available {s : Scanner} (fs : FileSystem) (files : List Text) {state : ScanState}
    (rests : Rests s state.pool) (language : Text) :
    (s.scan fs files state).2.pool.available language =
      (s.scan fs files state).2.pool.size language := by
  obtain ⟨tasks, reachable, settled⟩ := scan_rests fs files rests
  exact available_eq_size (free_of_settled (sound_of_reachable reachable) settled language)

end UrlScan.Workers
