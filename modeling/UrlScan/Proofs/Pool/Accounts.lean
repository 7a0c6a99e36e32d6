import Mathlib.Algebra.Ring.Nat
import UrlScan.Language.BuiltIn
import UrlScan.Proofs.Pool.Loans

/-!
# The accounts of a pool

A pool may be used in any order and also wrongly: a parser may be given back twice, to another
language, or after the pool was cleared. A tally keeps, beside the pool, what its uses have
amounted to so far: how many parsers were made for each language since the pool was cleared, and how
often a parser was asked for when the bucket was full and no entry free. Whatever the uses, the pool
agrees with its tally.

Results:
1. `size_acquire`, `overflows_acquire`: what one parser that is taken adds to the accounts.
2. `release_untracked`: giving back a parser that the bucket does not hold leaves the pool as it is.
3. `Accounted.use`, `Accounted.uses`: the pool agrees with its tally after every sequence of uses.
4. `accounts`: all of this for a pool of any capacity, in every state that it may reach.
-/

namespace UrlScan.ParserPool

/-- A use of a pool. A parser is given back by its serial number, whether the pool has it or not. -/
inductive Use
  | acquire (language : Text) (grammar : Grammar)
  | release (language : Text) (serial : Nat)
  | clear

/-- The bucket of a language is full, and every entry is in use. -/
def Exhausted (pool : ParserPool) (language : Text) : Prop :=
  pool.size language = pool.capacity ∧ pool.available language = 0

instance (pool : ParserPool) (language : Text) : Decidable (pool.Exhausted language) :=
  inferInstanceAs (Decidable (_ ∧ _))

/-- A pool, and what its uses have amounted to. -/
structure Tally where
  pool : ParserPool
  /-- How many parsers were made for a language since the pool was last cleared. -/
  made : Text → Nat
  /-- How often a parser was asked of an exhausted bucket. -/
  exhausted : Nat

namespace Tally

/-- The tally of a new pool. -/
def opened (capacity : Nat) (capacity_pos : 0 < capacity) : Tally :=
  ⟨ofCapacity capacity capacity_pos, fun _ => 0, 0⟩

def use (tally : Tally) : Use → Tally
  | .acquire language grammar =>
    let after := (tally.pool.acquire language grammar).pool
    { pool := after
      made := fun other =>
        tally.made other + if other = language then after.created - tally.pool.created else 0
      exhausted := tally.exhausted + if tally.pool.Exhausted language then 1 else 0 }
  | .release language serial => { tally with pool := tally.pool.release language serial }
  | .clear => { tally with pool := tally.pool.clear, made := fun _ => 0 }

def uses (tally : Tally) (uses : List Use) : Tally :=
  uses.foldl use tally

/-- The pool agrees with its tally. -/
structure Accounted (tally : Tally) : Prop where
  registered : tally.pool.Registered
  /-- No language has two buckets. -/
  distinct : (tally.pool.buckets.map (·.1)).Nodup
  size_eq : ∀ language, tally.pool.size language = tally.made language
  overflows_eq : tally.pool.overflows = tally.exhausted

end Tally

section
variable {pool : ParserPool} {language other : Text} {grammar : Grammar}

/-! ## Counting the entries of a bucket -/

theorem available_eq_zero :
    pool.available language = 0 ↔ ∀ entry ∈ pool.bucket language, entry.inUse = true := by
  simp [available, List.countP_eq_zero]

theorem countP_inUse_add (entries : List PoolEntry) :
    entries.countP (·.inUse) + entries.countP (!·.inUse) = entries.length := by
  induction entries with
  | nil => rfl
  | cons entry rest ih =>
    rw [List.countP_cons, List.countP_cons, List.length_cons, ← ih]
    cases entry.inUse <;> simp <;> omega

/-! ## One use -/

theorem bucket_acquire_other (differs : other ≠ language) (grammar : Grammar) :
    (pool.acquire language grammar).pool.bucket other = pool.bucket other := by
  have takes := acquire_takes pool language grammar
  generalize pool.acquire language grammar = acquisition at takes
  cases takes with
  | reuse => rw [bucket_setBucket, if_neg differs]
  | refuse => rw [bucket_setBucket, if_neg differs]
  | create => rw [bucket_setBucket, if_neg differs]; rfl
  | share => rfl

/-- The parser that is taken has an entry in the bucket of its language, which is in use. -/
theorem entry_acquired {parser : PooledParser}
    (taken : (pool.acquire language grammar).parser = .ok parser) :
    ∃ entry ∈ (pool.acquire language grammar).pool.bucket language,
      entry.parser = parser ∧ entry.inUse = true := by
  have takes := acquire_takes pool language grammar
  generalize pool.acquire language grammar = acquisition at taken takes
  cases takes with
  | refuse => cases taken
  | reuse =>
    cases taken
    rw [bucket_setBucket, if_pos rfl]
    exact ⟨_, List.mem_append_right _ List.mem_cons_self, rfl, rfl⟩
  | create =>
    cases taken
    rw [bucket_setBucket, if_pos rfl]
    exact ⟨_, List.mem_append_right _ List.mem_cons_self, rfl, rfl⟩
  | share whole inUse =>
    cases taken
    have isFirst := whole ▸ List.mem_cons_self
    exact ⟨_, isFirst, rfl, inUse _ isFirst⟩

theorem created_setBucket (pool : ParserPool) (language : Text) (entries : List PoolEntry) :
    (pool.setBucket language entries).created = pool.created :=
  rfl

/-- A bucket grows by the parsers that are made for its language. -/
theorem size_acquire (pool : ParserPool) (language other : Text) (grammar : Grammar) :
    (pool.acquire language grammar).pool.size other = pool.size other +
      if other = language then (pool.acquire language grammar).pool.created - pool.created
      else 0 := by
  by_cases same : other = language
  · subst same
    have takes := acquire_takes pool other grammar
    generalize pool.acquire other grammar = acquisition at takes
    rw [if_pos rfl, size, size]
    cases takes with
    | reuse whole => simp [bucket_setBucket, created_setBucket, whole]
    | refuse => simp [bucket_setBucket, created_setBucket]
    | create => simp [bucket_setBucket, created_setBucket]
    | share =>
      dsimp only
      rw [Nat.sub_self]
      rfl
  · rw [if_neg same, size, bucket_acquire_other same, Nat.add_zero, size]

theorem overflows_acquire (grammar : Grammar) (atMost : pool.size language ≤ pool.capacity) :
    (pool.acquire language grammar).pool.overflows =
      pool.overflows + if pool.Exhausted language then 1 else 0 := by
  have takes := acquire_takes pool language grammar
  generalize pool.acquire language grammar = acquisition at takes
  cases takes with
  | @reuse _ _ entry whole isFree =>
    have notExhausted : ¬pool.Exhausted language := fun exhausted => by
      have member : entry ∈ pool.bucket language :=
        whole ▸ List.mem_append_right _ List.mem_cons_self
      have inUse := available_eq_zero.mp exhausted.2 entry member
      exact Bool.false_ne_true (isFree.symm.trans inUse)
    rw [if_neg notExhausted]
    rfl
  | refuse _ room =>
    rw [if_neg fun exhausted => Nat.ne_of_lt room exhausted.1]
    rfl
  | create _ room =>
    rw [if_neg fun exhausted => Nat.ne_of_lt room exhausted.1]
    rfl
  | share _ inUse full =>
    rw [if_pos ⟨Nat.le_antisymm atMost full, available_eq_zero.mpr inUse⟩]

theorem freeEntry_of_not_mem {serial : Nat} {entries : List PoolEntry}
    (untracked : serial ∉ entries.map (·.parser.serial)) : freeEntry serial entries = entries := by
  induction entries with
  | nil => rfl
  | cons entry rest ih =>
    rw [List.map_cons, List.mem_cons, not_or] at untracked
    rw [freeEntry, if_neg (Ne.symm untracked.1), ih untracked.2]

/-- Putting a bucket where it is already changes nothing. -/
theorem putBucket_of_lookup {entries : List PoolEntry} {buckets : List (Text × List PoolEntry)}
    (found : buckets.lookup language = some entries) :
    putBucket language entries buckets = buckets := by
  induction buckets with
  | nil => cases found
  | cons bucket rest ih =>
    obtain ⟨name, old⟩ := bucket
    rw [putBucket]
    split
    next same =>
      subst same
      rw [List.lookup_cons, beq_self_eq_true] at found
      cases found
      rfl
    next differs =>
      rw [List.lookup_cons, beq_false_of_ne (Ne.symm differs)] at found
      rw [ih found]

/-- Giving back a parser that the bucket does not hold changes nothing. -/
theorem release_untracked {serial : Nat} (untracked : serial ∉ pool.serials language) :
    pool.release language serial = pool := by
  rw [release]
  split
  next => rfl
  next entries found =>
    have isBucket : pool.bucket language = entries := by rw [bucket, found, Option.getD_some]
    rw [serials, isBucket] at untracked
    rw [freeEntry_of_not_mem untracked, setBucket, putBucket_of_lookup found]

/-! ## All uses -/

theorem registered_clear (pool : ParserPool) : pool.clear.Registered where
  size_le _ := Nat.zero_le _
  fresh _ _ member := absurd member List.not_mem_nil
  distinct _ := .nil
  apart _ _ _ member := absurd member List.not_mem_nil

theorem Registered.acquire (registered : pool.Registered) (language : Text) (grammar : Grammar) :
    (pool.acquire language grammar).pool.Registered := by
  cases taken : (pool.acquire language grammar).parser with
  | ok parser => exact registered.of_handed (registered.handed taken)
  | error reason =>
    rw [(refused_eq taken).2]
    exact registered.refuse

end

namespace Tally
variable {tally : Tally}

theorem accounted_opened (capacity : Nat) (capacity_pos : 0 < capacity) :
    (opened capacity capacity_pos).Accounted where
  registered := (sound_empty capacity capacity_pos).registered
  distinct := .nil
  size_eq _ := rfl
  overflows_eq := rfl

theorem Accounted.use (accounted : tally.Accounted) (use : Use) : (tally.use use).Accounted := by
  cases use with
  | acquire language grammar =>
    exact
      { registered := accounted.registered.acquire language grammar
        distinct := distinct_acquire accounted.distinct grammar
        size_eq := fun other => by
          rw [Tally.use]
          dsimp only
          rw [size_acquire, accounted.size_eq]
        overflows_eq := by
          rw [Tally.use]
          dsimp only
          have atMost : tally.pool.size language ≤ tally.pool.capacity := by
            rw [size, ← length_serials]
            exact accounted.registered.size_le language
          rw [overflows_acquire grammar atMost, accounted.overflows_eq] }
  | release language serial =>
    obtain ⟨-, -, overflows⟩ := release_counters tally.pool language serial
    exact
      { registered := accounted.registered.release language serial
        distinct := distinct_release accounted.distinct serial
        size_eq := fun other => by
          have := congrArg List.length (serials_release tally.pool language other serial)
          rw [length_serials, length_serials] at this
          exact this.trans (accounted.size_eq other)
        overflows_eq := overflows.trans accounted.overflows_eq }
  | clear =>
    exact
      { registered := registered_clear tally.pool
        distinct := .nil
        size_eq := fun _ => rfl
        overflows_eq := accounted.overflows_eq }

/-- The pool agrees with its tally after every sequence of uses. -/
theorem Accounted.uses (accounted : tally.Accounted) (uses : List Use) :
    (tally.uses uses).Accounted := by
  induction uses generalizing tally with
  | nil => exact accounted
  | cons use rest ih => exact ih (accounted.use use)

theorem capacity_use (tally : Tally) (use : Use) :
    (tally.use use).pool.capacity = tally.pool.capacity := by
  cases use with
  | acquire language grammar => exact capacity_acquire tally.pool language grammar
  | release language serial => exact (release_counters tally.pool language serial).1
  | clear => rfl

theorem capacity_uses (tally : Tally) (uses : List Use) :
    (tally.uses uses).pool.capacity = tally.pool.capacity := by
  induction uses generalizing tally with
  | nil => rfl
  | cons use rest ih => exact (ih (tally.use use)).trans (tally.capacity_use use)

end Tally

/-! ## Totals -/

section
variable {pool : ParserPool}

/-- What is counted in the bucket of each language is counted in each bucket. -/
theorem map_bucket (distinct : (pool.buckets.map (·.1)).Nodup) (count : List PoolEntry → Nat) :
    ((pool.buckets.map (·.1)).map fun language => count (pool.bucket language)) =
      pool.buckets.map fun bucket => count bucket.2 := by
  rw [List.map_map]
  refine List.map_congr_left fun bucket member => ?_
  rw [Function.comp_apply, bucket_of_mem distinct member]

theorem parsers_stats (distinct : (pool.buckets.map (·.1)).Nodup) :
    pool.stats.parsers = ((pool.buckets.map (·.1)).map pool.size).sum := by
  have sizes := map_bucket distinct List.length
  exact List.length_flatMap.trans (congrArg List.sum sizes.symm)

theorem inUse_stats_add (distinct : (pool.buckets.map (·.1)).Nodup) :
    pool.stats.inUse + ((pool.buckets.map (·.1)).map pool.available).sum = pool.stats.parsers := by
  have free := map_bucket distinct (List.countP (!·.inUse))
  have total : ((pool.buckets.map (·.1)).map pool.available).sum =
      (pool.buckets.flatMap (·.2)).countP (!·.inUse) :=
    (congrArg List.sum free).trans List.countP_flatMap.symm
  rw [total]
  exact countP_inUse_add _

end

/-- Whatever is done with a pool, also with parsers that it does not have: no bucket has more
entries than the capacity, none has a parser twice, the entries in use and the free ones are all
entries, and there are as many as parsers were made for the language since the pool was cleared. The
totals are the sums over the languages, and every overflow is one request of an exhausted bucket. A
parser that is taken next has an entry in use. Taking and giving back leaves the buckets of other
languages alone, and giving back a parser that the bucket does not hold changes nothing. -/
theorem accounts (capacity : Nat) (capacity_pos : 0 < capacity) (uses : List Use) :
    let tally := (Tally.opened capacity capacity_pos).uses uses
    let pool := tally.pool
    let languages := pool.buckets.map (·.1)
    (∀ language, pool.size language ≤ capacity ∧ (pool.serials language).Nodup ∧
        (pool.bucket language).countP (·.inUse) + pool.available language = pool.size language ∧
        pool.size language = tally.made language) ∧
      (pool.stats.parsers = (languages.map pool.size).sum ∧
        pool.stats.inUse + (languages.map pool.available).sum = pool.stats.parsers ∧
        pool.stats.overflows = tally.exhausted) ∧
      (∀ language grammar parser, (pool.acquire language grammar).parser = .ok parser →
        ∃ entry ∈ (pool.acquire language grammar).pool.bucket language,
          entry.parser = parser ∧ entry.inUse = true) ∧
      (∀ language other grammar, other ≠ language →
        (pool.acquire language grammar).pool.bucket other = pool.bucket other) ∧
      (∀ language other serial, other ≠ language →
        (pool.release language serial).bucket other = pool.bucket other) ∧
      ∀ language serial, serial ∉ pool.serials language → pool.release language serial = pool := by
  intro tally pool languages
  have accounted : tally.Accounted := (Tally.accounted_opened capacity capacity_pos).uses uses
  have sameCapacity : pool.capacity = capacity := Tally.capacity_uses _ uses
  refine ⟨fun language => ⟨?_, accounted.registered.distinct language, countP_inUse_add _,
      accounted.size_eq language⟩,
    ⟨parsers_stats accounted.distinct, inUse_stats_add accounted.distinct, accounted.overflows_eq⟩,
    fun _ _ _ taken => entry_acquired taken,
    fun _ _ grammar differs => bucket_acquire_other differs grammar,
    fun _ _ serial differs => by rw [bucket_release, if_neg differs],
    fun _ _ untracked => release_untracked untracked⟩
  rw [size, ← length_serials, ← sameCapacity]
  exact accounted.registered.size_le language

/-- The theorem for a pool with room for one parser, which is shared. Then the pool is cleared,
another parser is made, and the first one is given back after that. -/
theorem accounts_one :
    ∃ grammar : Grammar,
      let tally := (Tally.opened 1 Nat.one_pos).uses
        [.acquire "c".toList grammar, .acquire "c".toList grammar, .clear,
          .acquire "c".toList grammar, .release "c".toList 0]
      tally.pool.stats = ⟨1, 1, 1, 1⟩ ∧
        tally.pool.size "c".toList = tally.made "c".toList ∧ tally.made "c".toList = 1 ∧
        tally.pool.stats.overflows = tally.exhausted ∧ tally.exhausted = 1 := by
  let grammar : Grammar :=
    ⟨0, .builtIn "c" "C" [".c"] [] ["string"] ["comment"], .registered, .sketch⟩
  let uses : List Use :=
    [.acquire "c".toList grammar, .acquire "c".toList grammar, .clear,
      .acquire "c".toList grammar, .release "c".toList 0]
  have stats : ((Tally.opened 1 Nat.one_pos).uses uses).pool.stats = ⟨1, 1, 1, 1⟩ := by
    decide
  have made : ((Tally.opened 1 Nat.one_pos).uses uses).made "c".toList = 1 := by
    decide
  have exhausted : ((Tally.opened 1 Nat.one_pos).uses uses).exhausted = 1 := by
    decide
  exact ⟨grammar, stats, ((accounts 1 Nat.one_pos uses).1 "c".toList).2.2.2, made,
    (accounts 1 Nat.one_pos uses).2.1.2.2, exhausted⟩

end UrlScan.ParserPool
