import Mathlib.Data.List.Nodup
import Mathlib.Logic.Relation
import UrlScan.Proofs.Pool.Loans
import UrlScan.Scan.Scanner

/-!
# Files that are scanned at the same time

The files in flight take turns. Each of them may take one parser from the pool of its scanner,
search its document with it, and give the parser back, whether the search succeeds or not; it may
also fail to get a parser, or do without one. In between, the other files may do any of this. A file
is admitted only while fewer files than allowed have not settled.

A file has at most one parser at a time, so there are never more parsers on loan than files that
have not settled. Together with the agreement of marks and loans (`ParserPool.Sound`) this bounds
the buckets, and it rules out that a parser is shared when the pool has room enough.

Results:
1. `sound_of_reachable`: the invariant holds after every run of the files.
2. `no_parser_leaks`: a parser is in use only while some file has it, and when all files
   have settled every parser can be had again.
-/

namespace UrlScan

/-- How far a file has come. -/
inductive FileTask
  /-- It has not asked for a parser. -/
  | admitted
  /-- It has a parser, and the search is still to come. -/
  | holding (language : Text) (grammar : Grammar) (parser : PooledParser)
  /-- It still has the parser after the search. -/
  | searched (language : Text) (parser : PooledParser) (found : Except ScanFault (List Occurrence))
  /-- It has given its parser back, or has never had one. -/
  | answered (found : Except ScanFault (List Occurrence))
  | settled (found : Except ScanFault (List Occurrence))

/-- The parser that a file has, with its language. -/
def FileTask.loan? : FileTask → Option (Text × Nat)
  | holding language _ parser => some (language, parser.serial)
  | searched language parser _ => some (language, parser.serial)
  | _ => none

def FileTask.isSettled : FileTask → Bool
  | settled _ => true
  | _ => false

/-- A pool and the files that take parsers from it. -/
structure Workers where
  pool : ParserPool
  tasks : List FileTask

namespace Workers

def start (s : Scanner) : Workers :=
  ⟨s.newPool, []⟩

def unfinished (tasks : List FileTask) : Nat :=
  tasks.countP (!·.isSettled)

/-- The parsers that the files have. -/
def lent (tasks : List FileTask) : Loans :=
  tasks.filterMap FileTask.loan?

/-- The steps of the files.
* `enter`: one more file is admitted, if fewer than allowed have not settled.
* `skip`: a file gets along without a parser, or fails before it asks for one.
* `acquire`: a file takes a parser.
* `refused`: no parser can be made for a file.
* `search`: a file is searched with its parser; the search may fail.
* `release`: a file gives its parser back.
* `settle`: nothing is left to be done for a file. -/
inductive Step (s : Scanner) : Workers → Workers → Prop
  | enter {w : Workers} :
      unfinished w.tasks < s.options.concurrency.toInt.toNat →
      Step s w ⟨w.pool, w.tasks ++ [.admitted]⟩
  | skip {w : Workers} {position : Nat} (found : Except ScanFault (List Occurrence)) :
      w.tasks[position]? = some .admitted →
      Step s w ⟨w.pool, w.tasks.set position (.answered found)⟩
  | acquire {w : Workers} {position : Nat} {language : Text} {grammar : Grammar}
      {parser : PooledParser} :
      w.tasks[position]? = some .admitted →
      (w.pool.acquire language grammar).parser = .ok parser →
      Step s w ⟨(w.pool.acquire language grammar).pool,
        w.tasks.set position (.holding language grammar parser)⟩
  | refused {w : Workers} {position : Nat} {language : Text} {grammar : Grammar} {reason : Text} :
      w.tasks[position]? = some .admitted →
      (w.pool.acquire language grammar).parser = .error reason →
      Step s w ⟨(w.pool.acquire language grammar).pool,
        w.tasks.set position (.answered (.error (.noParser language reason)))⟩
  | search {w : Workers} {position : Nat} {language : Text} {grammar : Grammar}
      {parser : PooledParser} (d : Document) :
      w.tasks[position]? = some (.holding language grammar parser) →
      Step s w ⟨w.pool,
        w.tasks.set position (.searched language parser (s.searchTree d grammar parser))⟩
  | release {w : Workers} {position : Nat} {language : Text} {parser : PooledParser}
      {found : Except ScanFault (List Occurrence)} :
      w.tasks[position]? = some (.searched language parser found) →
      Step s w ⟨w.pool.release language parser.serial, w.tasks.set position (.answered found)⟩
  | settle {w : Workers} {position : Nat} {found : Except ScanFault (List Occurrence)} :
      w.tasks[position]? = some (.answered found) →
      Step s w ⟨w.pool, w.tasks.set position (.settled found)⟩

/-- The states that the files may reach from a pool without parsers. -/
def Reachable (s : Scanner) (w : Workers) : Prop :=
  Relation.ReflTransGen (Step s) (start s) w

/-- What holds in every reachable state. -/
structure Sound (s : Scanner) (w : Workers) : Prop where
  marks : w.pool.Sound (lent w.tasks)
  capacity_eq : w.pool.capacity = s.options.poolSize.toInt.toNat
  unfinished_le : unfinished w.tasks ≤ s.options.concurrency.toInt.toNat
  size_le : ∀ language, (w.pool.serials language).length ≤ s.options.concurrency.toInt.toNat
  unshared : s.options.concurrency.toInt.toNat ≤ s.options.poolSize.toInt.toNat →
    w.pool.overflows = 0
  /-- No language has two buckets. -/
  distinct : (w.pool.buckets.map (·.1)).Nodup

/-- No parser has leaked. -/
structure Accounted (s : Scanner) (w : Workers) : Prop where
  /-- An entry is in use only while a file has its parser. -/
  held : ∀ bucket ∈ w.pool.buckets, ∀ entry ∈ bucket.2, entry.inUse = true →
    ∃ task ∈ w.tasks, task.isSettled = false ∧
      task.loan? = some (bucket.1, entry.parser.serial)
  /-- There are never more parsers for a language than may be kept, nor than files in flight. -/
  size_le : ∀ language, w.pool.size language ≤
    min s.options.poolSize.toInt.toNat s.options.concurrency.toInt.toNat
  /-- A pool with room for every file in flight never has to share a parser. -/
  never_shared : s.options.concurrency.toInt.toNat ≤ s.options.poolSize.toInt.toNat →
    w.pool.overflows = 0 ∧
    ∀ (position : Nat) language grammar, w.tasks[position]? = some .admitted →
      (w.pool.acquire language grammar).shared = false
  /-- In such a pool no two files have the same parser. -/
  apart : s.options.concurrency.toInt.toNat ≤ s.options.poolSize.toInt.toNat →
    w.tasks.Pairwise fun task other => ∀ language language' serial,
      task.loan? = some (language, serial) → other.loan? ≠ some (language', serial)
  /-- When all files have settled, every parser can be had again. -/
  returned : (∀ task ∈ w.tasks, task.isSettled = true) →
    (∀ bucket ∈ w.pool.buckets, ∀ entry ∈ bucket.2, entry.inUse = false) ∧
    ∀ language, w.pool.available language = w.pool.size language

namespace WorkersLemmas

variable {s : Scanner} {w w' : Workers} {tasks : List FileTask} {position : Nat}
  {task : FileTask}

/-! ## Moving one file on -/

theorem perm_set (present : tasks[position]? = some task) (moved : FileTask) :
    (tasks.set position moved).Perm (moved :: tasks.eraseIdx position) := by
  obtain ⟨inside, -⟩ := List.getElem?_eq_some_iff.mp present
  have atPosition : (tasks.set position moved)[position]? = some moved := by
    rw [List.getElem?_set_self inside]
  have split := perm_cons_eraseIdx atPosition
  rwa [List.eraseIdx_set_eq] at split

theorem lent_perm {tasks' : List FileTask} (perm : tasks.Perm tasks') :
    (lent tasks).Perm (lent tasks') :=
  perm.filterMap _

theorem lent_cons_of_none (none : task.loan? = none) : lent (task :: tasks) = lent tasks :=
  List.filterMap_cons_none none

theorem lent_cons_of_some {loan : Text × Nat} (some : task.loan? = some loan) :
    lent (task :: tasks) = loan :: lent tasks :=
  List.filterMap_cons_some some

/-- Moving a file on never makes more files unfinished. -/
theorem unfinished_set_le (present : tasks[position]? = some task)
    (notSettled : task.isSettled = false) (moved : FileTask) :
    unfinished (tasks.set position moved) ≤ unfinished tasks := by
  unfold unfinished
  rw [(perm_cons_eraseIdx present).countP_eq, (perm_set present moved).countP_eq, List.countP_cons,
    List.countP_cons, notSettled]
  cases moved.isSettled with
  | true => simp
  | false => simp

theorem length_lent_le (tasks : List FileTask) : (lent tasks).length ≤ unfinished tasks := by
  rw [lent, List.length_filterMap_eq_countP]
  refine List.countP_mono_left fun task _ has => ?_
  cases task with
  | holding => rfl
  | searched => rfl
  | admitted => cases has
  | answered => cases has
  | settled => cases has

/-- A file that has not asked for a parser has not settled and has no parser. -/
theorem length_lent_lt (present : tasks[position]? = some .admitted) :
    (lent tasks).length < unfinished tasks := by
  have fewer := length_lent_le (tasks.eraseIdx position)
  have split := perm_cons_eraseIdx present
  rw [(lent_perm split).length_eq, lent_cons_of_none rfl, unfinished, split.countP_eq,
    List.countP_cons_of_pos rfl]
  exact Nat.lt_succ_of_le fewer

/-! ## The invariant -/

theorem sound_start (s : Scanner) : Sound s (start s) where
  marks := ParserPool.sound_empty _ _
  capacity_eq := rfl
  unfinished_le := Nat.zero_le _
  size_le := fun _ => Nat.zero_le _
  unshared := fun _ => rfl
  distinct := .nil

/-- A file that moves on without the pool leaves the invariant alone, if it keeps its parser. -/
theorem Sound.move (sound : Sound s w) (present : w.tasks[position]? = some task)
    (notSettled : task.isSettled = false) {moved : FileTask} (keeps : moved.loan? = task.loan?) :
    Sound s ⟨w.pool, w.tasks.set position moved⟩ := by
  refine { sound with marks := sound.marks.perm ?_, unfinished_le := ?_ }
  · have before := lent_perm (perm_cons_eraseIdx present)
    have after := lent_perm (perm_set present moved)
    have same : lent (task :: w.tasks.eraseIdx position) =
        lent (moved :: w.tasks.eraseIdx position) := by
      rw [lent, lent, List.filterMap_cons, List.filterMap_cons, keeps]
    exact before.trans (same ▸ after.symm)
  · exact Nat.le_trans (unfinished_set_le present notSettled moved) sound.unfinished_le

theorem Sound.enter (sound : Sound s w)
    (room : unfinished w.tasks < s.options.concurrency.toInt.toNat) :
    Sound s ⟨w.pool, w.tasks ++ [.admitted]⟩ := by
  refine { sound with marks := ?_, unfinished_le := ?_ }
  · have same : lent (w.tasks ++ [.admitted]) = lent w.tasks := by
      rw [lent, List.filterMap_append]
      exact List.append_nil _
    rw [same]
    exact sound.marks
  · rw [unfinished, List.countP_append]
    exact room

theorem Sound.acquire (sound : Sound s w) {language : Text} {grammar : Grammar}
    {parser : PooledParser} (present : w.tasks[position]? = some .admitted)
    (taken : (w.pool.acquire language grammar).parser = .ok parser) :
    Sound s ⟨(w.pool.acquire language grammar).pool,
      w.tasks.set position (.holding language grammar parser)⟩ := by
  have handed := sound.marks.registered.handed taken
  have fewer := Nat.lt_of_lt_of_le (length_lent_lt present) sound.unfinished_le
  constructor
  case marks =>
    refine (sound.marks.lend taken).perm ?_
    have before := lent_perm (perm_cons_eraseIdx present)
    have after := lent_perm (perm_set present (.holding language grammar parser))
    rw [lent_cons_of_none rfl] at before
    rw [lent_cons_of_some rfl] at after
    exact (before.cons _).trans after.symm
  case capacity_eq => exact handed.capacity_eq.trans sound.capacity_eq
  case unfinished_le =>
    exact Nat.le_trans (unfinished_set_le present rfl _) sound.unfinished_le
  case size_le =>
    intro other
    have before := sound.size_le other
    have grown := sound.marks.length_handed_le handed other
    exact Nat.le_trans grown (Nat.max_le.mpr ⟨before, fewer⟩)
  case unshared =>
    intro enough
    cases shared : (w.pool.acquire language grammar).shared with
    | false => exact (handed.unmarked shared).2.trans (sound.unshared enough)
    | true =>
      rw [shared] at handed
      have full := sound.marks.capacity_le_loans handed
      rw [sound.capacity_eq] at full
      omega
  case distinct => exact ParserPool.distinct_acquire sound.distinct grammar

theorem Sound.refused (sound : Sound s w) {language : Text} {grammar : Grammar} {reason : Text}
    (present : w.tasks[position]? = some .admitted)
    (refused : (w.pool.acquire language grammar).parser = .error reason) :
    Sound s ⟨(w.pool.acquire language grammar).pool,
      w.tasks.set position (.answered (.error (.noParser language reason)))⟩ := by
  have same := (ParserPool.refused_eq refused).2
  have marks := sound.marks.refuse refused
  rw [same] at marks ⊢
  have unmoved : Sound s ⟨w.pool.setBucket language (w.pool.bucket language), w.tasks⟩ :=
    { sound with
      marks := marks
      size_le := fun other => by
        rw [ParserPool.serials_setBucket_self]
        exact sound.size_le other
      distinct := ParserPool.distinct_setBucket sound.distinct }
  exact Sound.move unmoved present rfl rfl

theorem Sound.release (sound : Sound s w) {language : Text} {parser : PooledParser}
    {found : Except ScanFault (List Occurrence)}
    (present : w.tasks[position]? = some (.searched language parser found)) :
    Sound s ⟨w.pool.release language parser.serial,
      w.tasks.set position (.answered found)⟩ := by
  obtain ⟨capacity, -, overflows⟩ := ParserPool.release_counters w.pool language parser.serial
  constructor
  case marks =>
    have before := lent_perm (perm_cons_eraseIdx present)
    have after := lent_perm (perm_set present (.answered found))
    rw [lent_cons_of_some rfl] at before
    rw [lent_cons_of_none rfl] at after
    exact (sound.marks.perm before).giveBack.perm after.symm
  case capacity_eq => exact capacity.trans sound.capacity_eq
  case unfinished_le =>
    exact Nat.le_trans (unfinished_set_le present rfl _) sound.unfinished_le
  case size_le =>
    intro other
    rw [ParserPool.serials_release]
    exact sound.size_le other
  case unshared => exact fun enough => overflows.trans (sound.unshared enough)
  case distinct => exact ParserPool.distinct_release sound.distinct parser.serial

/-- Every step keeps the invariant. -/
theorem Sound.step (sound : Sound s w) (step : Step s w w') : Sound s w' := by
  cases step with
  | enter room => exact Sound.enter sound room
  | skip found present => exact Sound.move sound present rfl rfl
  | acquire present taken => exact Sound.acquire sound present taken
  | refused present refused => exact Sound.refused sound present refused
  | search d present => exact Sound.move sound present rfl rfl
  | release present => exact Sound.release sound present
  | settle present => exact Sound.move sound present rfl rfl

theorem sound_of_reachable (reachable : Reachable s w) : Sound s w := by
  induction reachable with
  | refl => exact sound_start s
  | tail _ step ih => exact Sound.step ih step

/-! ## What the invariant says about the parsers -/

/-- As long as no parser had to be shared, no parser is on loan twice. -/
theorem nodup_lent (sound : Sound s w) (none : w.pool.overflows = 0) :
    ((lent w.tasks).map (·.2)).Nodup := by
  refine List.nodup_iff_count_le_one.mpr fun serial => ?_
  by_contra twice
  have onLoan : 1 ≤ (lent w.tasks).holders serial := Nat.le_of_lt (Nat.lt_of_not_le twice)
  obtain ⟨loan, member, rfl⟩ := ParserPool.one_le_holders.mp onLoan
  have inBucket := sound.marks.lent_mem loan member
  exact twice (sound.marks.exclusive loan.1 loan.2 inBucket (Or.inr none)).1

/-- A pool with room for every file in flight is not exhausted when a file asks for a parser. -/
theorem shared_eq_false (sound : Sound s w)
    (enough : s.options.concurrency.toInt.toNat ≤ s.options.poolSize.toInt.toNat)
    (present : w.tasks[position]? = some .admitted) (language : Text) (grammar : Grammar) :
    (w.pool.acquire language grammar).shared = false := by
  cases taken : (w.pool.acquire language grammar).parser with
  | error reason => exact (ParserPool.refused_eq taken).1
  | ok parser =>
    have counted := (Sound.acquire sound present taken).unshared enough
    cases shared : (w.pool.acquire language grammar).shared with
    | false => rfl
    | true =>
      have sharing := ((sound.marks.registered.handed taken).exhausted shared).2.2.2
      dsimp only at counted
      omega

theorem available_eq_size {pool : ParserPool} {language : Text}
    (free : ∀ entry ∈ pool.bucket language, entry.inUse = false) :
    pool.available language = pool.size language := by
  rw [ParserPool.available, ParserPool.size, List.countP_eq_length]
  intro entry member
  rw [free entry member]
  rfl

theorem held_of_inUse (sound : Sound s w) {language : Text} {entry : PoolEntry}
    (member : entry ∈ w.pool.bucket language) (inUse : entry.inUse = true) :
    ∃ task ∈ w.tasks, task.isSettled = false ∧
      task.loan? = some (language, entry.parser.serial) := by
  have onLoan := sound.marks.marked_lent language entry.parser.serial ⟨entry, member, rfl, inUse⟩
  obtain ⟨task, present, has⟩ := List.mem_filterMap.mp onLoan
  refine ⟨task, present, ?_, has⟩
  cases task with
  | settled => cases has
  | admitted => rfl
  | holding => rfl
  | searched => rfl
  | answered => rfl

theorem free_of_settled (sound : Sound s w) (settled : ∀ task ∈ w.tasks, task.isSettled = true)
    (language : Text) : ∀ entry ∈ w.pool.bucket language, entry.inUse = false := by
  intro entry member
  cases inUse : entry.inUse with
  | false => rfl
  | true =>
    obtain ⟨task, present, notSettled, -⟩ := held_of_inUse sound member inUse
    rw [settled task present] at notSettled
    cases notSettled

end WorkersLemmas

open WorkersLemmas

/-- No parser leaks, in whatever order the files take turns. -/
theorem no_parser_leaks {s : Scanner} {w : Workers} (reachable : Reachable s w) : Accounted s w := by
  have sound := sound_of_reachable reachable
  constructor
  case held =>
    intro bucket present entry member inUse
    rw [← ParserPool.bucket_of_mem sound.distinct present] at member
    exact held_of_inUse sound member inUse
  case size_le =>
    intro language
    rw [ParserPool.size, ← ParserPool.length_serials]
    exact Nat.le_min.mpr
      ⟨sound.capacity_eq ▸ sound.marks.size_le language, sound.size_le language⟩
  case never_shared =>
    exact fun enough => ⟨sound.unshared enough, fun position language grammar present =>
      shared_eq_false sound enough present language grammar⟩
  case apart =>
    intro enough
    have distinct := nodup_lent sound (sound.unshared enough)
    rw [List.Nodup, List.pairwise_map, lent, List.pairwise_filterMap] at distinct
    refine distinct.imp fun differ language language' serial has hasToo => ?_
    exact differ _ has _ hasToo rfl
  case returned =>
    intro settled
    refine ⟨fun bucket present entry member => ?_, fun language =>
      available_eq_size (free_of_settled sound settled language)⟩
    rw [← ParserPool.bucket_of_mem sound.distinct present] at member
    exact free_of_settled sound settled bucket.1 entry member

/-- The theorem for a scanner with default options and two files, one of which has a parser. -/
theorem no_parser_leaks_two :
    ∃ (s : Scanner) (language : Text) (grammar : Grammar) (parser : PooledParser)
      (pool : ParserPool),
      (ScanOptions.ofArguments []).bind
        (fun options => (Scanner.ofOptions options).mapError .wrongKind) = .ok s ∧
      Reachable s ⟨pool, [.admitted, .holding language grammar parser]⟩ ∧
      Accounted s ⟨pool, [.admitted, .holding language grammar parser]⟩ := by
  let grammar : Grammar :=
    ⟨0, .builtIn "c" "C" [".c"] [] ["string"] ["comment"], .registered, .sketch⟩
  obtain ⟨options, made, concurrency⟩ :
      ∃ options, ScanOptions.ofArguments [] = .ok options ∧ options.concurrency.toInt = 10 :=
    ⟨_, rfl, rfl⟩
  obtain ⟨s, made', same⟩ : ∃ s, Scanner.ofOptions options = .ok s ∧ s.options = options := by
    cases made
    exact ⟨_, rfl, rfl⟩
  have room : s.options.concurrency.toInt.toNat = 10 := by rw [same, concurrency]; rfl
  have first : Step s (start s) ⟨s.newPool, [.admitted]⟩ := .enter (room ▸ (by decide : 0 < 10))
  have second : Step s ⟨s.newPool, [.admitted]⟩ ⟨s.newPool, [.admitted, .admitted]⟩ :=
    .enter (room ▸ (by decide : 1 < 10))
  have none : s.newPool.bucket "c".toList = [] := rfl
  obtain ⟨parser, taken⟩ :
      ∃ parser, (s.newPool.acquire "c".toList grammar).parser = .ok parser := by
    refine ⟨⟨0, grammar⟩, ?_⟩
    have positive := s.newPool.capacity_pos
    simp only [ParserPool.acquire, none, ParserPool.takeFree, List.length_nil, positive]
    rfl
  have present : [FileTask.admitted, .admitted][1]? = some .admitted := rfl
  have third : Step s ⟨s.newPool, [.admitted, .admitted]⟩
      ⟨(s.newPool.acquire "c".toList grammar).pool,
        [.admitted, .holding "c".toList grammar parser]⟩ :=
    Step.acquire (w := ⟨s.newPool, [.admitted, .admitted]⟩) present taken
  have reachable : Reachable s ⟨(s.newPool.acquire "c".toList grammar).pool,
      [.admitted, .holding "c".toList grammar parser]⟩ :=
    ((Relation.ReflTransGen.single first).tail second).tail third
  refine ⟨s, "c".toList, grammar, parser, _, ?_, reachable, no_parser_leaks reachable⟩
  rw [made]
  exact congrArg (Except.mapError _) made'

end Workers

end UrlScan
