import Mathlib.Data.List.Basic
import UrlScan.ParserPool

/-!
# What the operations of a pool do to its buckets

A pool is looked at through two views of the bucket of each language: the serial numbers of its
parsers, in the order of their creation (`serials`), and which of them are marked as in use
(`Marked`). Taking and giving back a parser is described by what it does to these two views.

Results:
1. `bucket_setBucket`: replacing the bucket of one language leaves the other buckets alone.
2. `acquire_takes`, `capacity_acquire`: everything that taking a parser may do, and the capacity,
   which stays.
3. `mem_parsers_acquire`, `parser_acquired`: the parsers that a pool has, and the one that is taken.
4. `parsers_release`, `marked_release_iff`: giving back a parser creates none and drops none, and it
   frees this parser only.
5. `distinct_acquire`, `distinct_release`: no language ever gets a second bucket.
-/

namespace UrlScan.ParserPool

/-- The parsers of a language, in the order of their creation. -/
def parsers (pool : ParserPool) (language : Text) : List PooledParser :=
  (pool.bucket language).map (·.parser)

/-- The serial numbers of the parsers of a language. -/
def serials (pool : ParserPool) (language : Text) : List Nat :=
  (pool.bucket language).map (·.parser.serial)

/-- The parser with a serial number is marked as in use. -/
def Marked (pool : ParserPool) (language : Text) (serial : Nat) : Prop :=
  ∃ entry ∈ pool.bucket language, entry.parser.serial = serial ∧ entry.inUse = true

/-! ## Buckets -/

section
variable {pool : ParserPool} {language : Text} {entries : List PoolEntry}

theorem lookup_putBucket (language other : Text) (entries : List PoolEntry)
    (buckets : List (Text × List PoolEntry)) :
    (putBucket language entries buckets).lookup other =
      if other = language then some entries else buckets.lookup other := by
  induction buckets with
  | nil =>
    rw [putBucket, List.lookup_cons]
    by_cases same : other = language
    · rw [if_pos same, same, beq_self_eq_true]
    · rw [if_neg same, beq_false_of_ne same]
  | cons bucket rest ih =>
    obtain ⟨name, old⟩ := bucket
    rw [putBucket]
    split
    next isName =>
      subst isName
      rw [List.lookup_cons, List.lookup_cons]
      by_cases same : other = name
      · rw [if_pos same, same, beq_self_eq_true]
      · rw [if_neg same, beq_false_of_ne same]
    next otherName =>
      rw [List.lookup_cons, List.lookup_cons, ih]
      by_cases here : other = name
      · rw [here, beq_self_eq_true, if_neg otherName, if_neg otherName]
      · rw [beq_false_of_ne here]

theorem bucket_setBucket (pool : ParserPool) (language other : Text) (entries : List PoolEntry) :
    (pool.setBucket language entries).bucket other =
      if other = language then entries else pool.bucket other := by
  rw [bucket, setBucket, lookup_putBucket]
  split <;> rfl

theorem serials_setBucket (pool : ParserPool) (language other : Text) (entries : List PoolEntry) :
    (pool.setBucket language entries).serials other =
      if other = language then entries.map (·.parser.serial) else pool.serials other := by
  rw [serials, bucket_setBucket, serials]
  split <;> rfl

theorem marked_setBucket_iff {other : Text} {serial : Nat} :
    (pool.setBucket language entries).Marked other serial ↔
      if other = language then ∃ entry ∈ entries, entry.parser.serial = serial ∧ entry.inUse = true
      else pool.Marked other serial := by
  rw [Marked, bucket_setBucket, Marked]
  split <;> rfl

theorem serials_setBucket_self (pool : ParserPool) (language other : Text) :
    (pool.setBucket language (pool.bucket language)).serials other = pool.serials other := by
  rw [serials_setBucket]
  split
  next same => rw [same, serials]
  next => rfl

theorem marked_setBucket_self_iff {other : Text} {serial : Nat} :
    (pool.setBucket language (pool.bucket language)).Marked other serial ↔
      pool.Marked other serial := by
  rw [marked_setBucket_iff]
  split
  next same => rw [same, Marked]
  next => rfl

theorem mem_serials {serial : Nat} :
    serial ∈ pool.serials language ↔
      ∃ entry ∈ pool.bucket language, entry.parser.serial = serial :=
  List.mem_map

theorem Marked.mem {serial : Nat} (marked : pool.Marked language serial) :
    serial ∈ pool.serials language := by
  obtain ⟨entry, member, same, -⟩ := marked
  exact mem_serials.mpr ⟨entry, member, same⟩

theorem serials_eq_map (pool : ParserPool) (language : Text) :
    pool.serials language = (pool.parsers language).map (·.serial) := by
  rw [serials, parsers, List.map_map]
  rfl

theorem parsers_setBucket (pool : ParserPool) (language other : Text) (entries : List PoolEntry) :
    (pool.setBucket language entries).parsers other =
      if other = language then entries.map (·.parser) else pool.parsers other := by
  rw [parsers, bucket_setBucket, parsers]
  split <;> rfl

theorem length_serials (pool : ParserPool) (language : Text) :
    (pool.serials language).length = (pool.bucket language).length :=
  List.length_map _

/-! ## Taking a parser -/

/-- What taking a parser may do.
* `reuse`: the first entry that is free is marked as in use.
* `refuse`: no entry is free, there is room for a new one, and no parser can be made.
* `create`: no entry is free, and a new one with a new parser is put behind the others.
* `share`: no entry is free, and there is no room for a new one; the parser of the first entry is
  handed out once more. -/
inductive Takes (pool : ParserPool) (language : Text) (grammar : Grammar) : Acquisition → Prop
  | reuse {before after : List PoolEntry} {entry : PoolEntry} :
      pool.bucket language = before ++ entry :: after → entry.inUse = false →
      Takes pool language grammar ⟨.ok entry.parser, false,
        pool.setBucket language (before ++ { entry with inUse := true } :: after)⟩
  | refuse {reason : Text} :
      (∀ entry ∈ pool.bucket language, entry.inUse = true) →
      (pool.bucket language).length < pool.capacity →
      grammar.engine.creationFault = some reason →
      Takes pool language grammar
        ⟨.error reason, false, pool.setBucket language (pool.bucket language)⟩
  | create :
      (∀ entry ∈ pool.bucket language, entry.inUse = true) →
      (pool.bucket language).length < pool.capacity →
      Takes pool language grammar ⟨.ok ⟨pool.created, grammar⟩, false,
        setBucket { pool with created := pool.created + 1 } language
          (pool.bucket language ++ [⟨⟨pool.created, grammar⟩, true⟩])⟩
  | share {first : PoolEntry} {rest : List PoolEntry} :
      pool.bucket language = first :: rest →
      (∀ entry ∈ pool.bucket language, entry.inUse = true) →
      pool.capacity ≤ (pool.bucket language).length →
      Takes pool language grammar
        ⟨.ok first.parser, true, { pool with overflows := pool.overflows + 1 }⟩

theorem takeFree_eq_some {parser : PooledParser} {taken : List PoolEntry}
    (found : takeFree entries = some (parser, taken)) :
    ∃ before entry after, entries = before ++ entry :: after ∧ entry.inUse = false ∧
      entry.parser = parser ∧ taken = before ++ { entry with inUse := true } :: after := by
  induction entries generalizing taken with
  | nil => cases found
  | cons entry rest ih =>
    rw [takeFree] at found
    split at found
    next =>
      obtain ⟨⟨later, behind⟩, foundLater, same⟩ := Option.map_eq_some_iff.mp found
      cases same
      obtain ⟨before, free, after, rfl, isFree, isParser, rfl⟩ := ih foundLater
      exact ⟨entry :: before, free, after, rfl, isFree, isParser, rfl⟩
    next isFree =>
      cases found
      exact ⟨[], entry, rest, rfl, Bool.eq_false_iff.mpr isFree, rfl, rfl⟩

theorem inUse_of_takeFree_eq_none (none : takeFree entries = none) :
    ∀ entry ∈ entries, entry.inUse = true := by
  induction entries with
  | nil => exact fun _ member => nomatch member
  | cons entry rest ih =>
    rw [takeFree] at none
    split at none
    next inUse =>
      intro other member
      rcases List.mem_cons.mp member with rfl | later
      · exact inUse
      · exact ih (Option.map_eq_none_iff.mp none) other later
    next => cases none

theorem acquire_takes (pool : ParserPool) (language : Text) (grammar : Grammar) :
    Takes pool language grammar (pool.acquire language grammar) := by
  rw [acquire]
  dsimp only
  split
  next parser entries found =>
    obtain ⟨before, entry, after, whole, isFree, rfl, rfl⟩ := takeFree_eq_some found
    exact .reuse whole isFree
  next none =>
    have inUse := inUse_of_takeFree_eq_none none
    split
    next room =>
      split
      next fault => exact .refuse inUse room fault
      next => exact .create inUse room
    next full =>
      have noRoom := Nat.le_of_not_lt full
      have positive := Nat.lt_of_lt_of_le pool.capacity_pos noRoom
      obtain ⟨first, rest, whole⟩ := List.exists_cons_of_length_pos positive
      have isFirst : (pool.bucket language)[0] = first := by
        simp only [whole, List.getElem_cons_zero]
      rw [isFirst]
      exact .share whole inUse noRoom

theorem capacity_acquire (pool : ParserPool) (language : Text) (grammar : Grammar) :
    (pool.acquire language grammar).pool.capacity = pool.capacity := by
  have takes := acquire_takes pool language grammar
  generalize pool.acquire language grammar = acquisition at takes
  cases takes <;> rfl

/-- A parser that is taken was made by the given grammar, or the pool has it already. -/
theorem parser_acquired {grammar : Grammar} {parser : PooledParser}
    (taken : (pool.acquire language grammar).parser = .ok parser) :
    parser.grammar = grammar ∨ parser ∈ pool.parsers language := by
  have takes := acquire_takes pool language grammar
  generalize pool.acquire language grammar = acquisition at takes taken
  cases takes with
  | reuse whole =>
    cases taken
    rw [parsers, whole]
    simp
  | refuse => cases taken
  | create =>
    cases taken
    exact Or.inl rfl
  | share whole =>
    cases taken
    rw [parsers, whole]
    simp

/-- The parsers that a pool has after one is taken: those it had, and the one that is taken if the
given grammar made it. -/
theorem mem_parsers_acquire {other : Text} {grammar : Grammar} {parser : PooledParser}
    (member : parser ∈ (pool.acquire language grammar).pool.parsers other) :
    parser ∈ pool.parsers other ∨ other = language ∧
      (pool.acquire language grammar).parser = .ok parser ∧ parser.grammar = grammar := by
  have takes := acquire_takes pool language grammar
  generalize pool.acquire language grammar = acquisition at takes member
  cases takes with
  | reuse whole =>
    left
    rw [parsers_setBucket] at member
    split at member
    next same =>
      rw [same, parsers, whole]
      simpa using member
    next => exact member
  | refuse =>
    left
    rw [parsers_setBucket] at member
    split at member
    next same => exact same ▸ member
    next => exact member
  | create =>
    rw [parsers_setBucket] at member
    split at member
    next same =>
      rw [List.map_append, List.mem_append, List.map_singleton, List.mem_singleton] at member
      rcases member with before | rfl
      · exact Or.inl (same ▸ before)
      · exact Or.inr ⟨same, rfl, rfl⟩
    next => exact Or.inl member
  | share => exact Or.inl member

/-! ## Giving back a parser -/

theorem map_parser_freeEntry (serial : Nat) (entries : List PoolEntry) :
    (freeEntry serial entries).map (·.parser) = entries.map (·.parser) := by
  induction entries with
  | nil => rfl
  | cons entry rest ih =>
    rw [freeEntry]
    split
    next => rfl
    next => rw [List.map_cons, ih, List.map_cons]

/-- When no serial number occurs twice, the entries that are in use afterwards are those with
another serial number. -/
theorem inUse_freeEntry_iff {serial : Nat} {other : Nat}
    (distinct : (entries.map (·.parser.serial)).Nodup) :
    (∃ entry ∈ freeEntry serial entries, entry.parser.serial = other ∧ entry.inUse = true) ↔
      (∃ entry ∈ entries, entry.parser.serial = other ∧ entry.inUse = true) ∧ other ≠ serial := by
  induction entries with
  | nil => simp [freeEntry]
  | cons entry rest ih =>
    rw [List.map_cons, List.nodup_cons] at distinct
    rw [freeEntry]
    split
    next same =>
      -- The entry is freed, and no other one has its serial number.
      simp only [List.exists_mem_cons_iff, Bool.false_eq_true, and_false, false_or]
      constructor
      · rintro ⟨found, member, rfl, inUse⟩
        refine ⟨Or.inr ⟨found, member, rfl, inUse⟩, fun isSerial => distinct.1 ?_⟩
        rw [same, ← isSerial]
        exact List.mem_map_of_mem member
      · rintro ⟨⟨rfl, -⟩ | later, different⟩
        · exact absurd same different
        · exact later
    next differs =>
      simp only [List.exists_mem_cons_iff, ih distinct.2]
      constructor
      · rintro (⟨rfl, inUse⟩ | ⟨later, different⟩)
        · exact ⟨Or.inl ⟨rfl, inUse⟩, differs⟩
        · exact ⟨Or.inr later, different⟩
      · rintro ⟨here | later, different⟩
        · exact Or.inl here
        · exact Or.inr ⟨later, different⟩

theorem bucket_release (pool : ParserPool) (language other : Text) (serial : Nat) :
    (pool.release language serial).bucket other =
      if other = language then freeEntry serial (pool.bucket language)
      else pool.bucket other := by
  rw [release]
  split
  next none =>
    have empty : pool.bucket language = [] := by rw [bucket, none, Option.getD_none]
    split
    next same => rw [same, empty, freeEntry]
    next => rfl
  next entries found =>
    have isBucket : pool.bucket language = entries := by rw [bucket, found, Option.getD_some]
    rw [bucket_setBucket, isBucket]

theorem parsers_release (pool : ParserPool) (language other : Text) (serial : Nat) :
    (pool.release language serial).parsers other = pool.parsers other := by
  rw [parsers, bucket_release, parsers]
  split
  next same => rw [map_parser_freeEntry, same]
  next => rfl

theorem serials_release (pool : ParserPool) (language other : Text) (serial : Nat) :
    (pool.release language serial).serials other = pool.serials other := by
  rw [serials_eq_map, parsers_release, serials_eq_map]

theorem marked_release_iff {other : Text} {serial serial' : Nat}
    (distinct : (pool.serials language).Nodup) :
    (pool.release language serial).Marked other serial' ↔
      pool.Marked other serial' ∧ ¬(other = language ∧ serial' = serial) := by
  rw [Marked, bucket_release]
  split
  next same =>
    rw [inUse_freeEntry_iff distinct, ← same, ← Marked]
    simp only [true_and, ne_eq]
  next other =>
    simp only [other, false_and, not_false_eq_true, and_true]
    rfl

theorem release_counters (pool : ParserPool) (language : Text) (serial : Nat) :
    (pool.release language serial).capacity = pool.capacity ∧
      (pool.release language serial).created = pool.created ∧
      (pool.release language serial).overflows = pool.overflows := by
  rw [release]
  split
  next => exact ⟨rfl, rfl, rfl⟩
  next => exact ⟨rfl, rfl, rfl⟩

/-! ## One bucket for each language -/

theorem languages_putBucket (language : Text) (entries : List PoolEntry)
    (buckets : List (Text × List PoolEntry)) :
    (putBucket language entries buckets).map (·.1) = buckets.map (·.1) ∨
    language ∉ buckets.map (·.1) ∧
      (putBucket language entries buckets).map (·.1) = buckets.map (·.1) ++ [language] := by
  induction buckets with
  | nil => exact Or.inr ⟨List.not_mem_nil, rfl⟩
  | cons bucket rest ih =>
    rw [putBucket]
    split
    next same => exact Or.inl (by rw [List.map_cons, List.map_cons, same])
    next differs =>
      simp only [List.map_cons, List.mem_cons, List.cons.injEq, List.cons_append, true_and, not_or]
      rcases ih with same | ⟨absent, more⟩
      · exact Or.inl same
      · exact Or.inr ⟨⟨Ne.symm differs, absent⟩, more⟩

theorem distinct_setBucket (distinct : (pool.buckets.map (·.1)).Nodup) :
    ((pool.setBucket language entries).buckets.map (·.1)).Nodup := by
  rw [setBucket]
  rcases languages_putBucket language entries pool.buckets with same | ⟨absent, more⟩
  · rw [same]
    exact distinct
  · rw [more]
    exact (List.perm_append_singleton _ _).nodup_iff.mpr (List.nodup_cons.mpr ⟨absent, distinct⟩)

theorem distinct_acquire (distinct : (pool.buckets.map (·.1)).Nodup) (grammar : Grammar) :
    ((pool.acquire language grammar).pool.buckets.map (·.1)).Nodup := by
  have takes := acquire_takes pool language grammar
  generalize pool.acquire language grammar = acquisition at takes
  cases takes with
  | reuse => exact distinct_setBucket distinct
  | refuse => exact distinct_setBucket distinct
  | create => exact distinct_setBucket distinct
  | share => exact distinct

theorem distinct_release (distinct : (pool.buckets.map (·.1)).Nodup) (serial : Nat) :
    ((pool.release language serial).buckets.map (·.1)).Nodup := by
  rw [release]
  split
  next => exact distinct
  next => exact distinct_setBucket distinct

/-- A bucket is found under its language. -/
theorem bucket_of_mem (distinct : (pool.buckets.map (·.1)).Nodup)
    (member : (language, entries) ∈ pool.buckets) : pool.bucket language = entries := by
  obtain ⟨before, after, whole⟩ := List.append_of_mem member
  have found : pool.buckets.lookup language = some entries := by
    refine List.lookup_eq_some_iff.mpr ⟨before, after, whole, fun bucket earlier => ?_⟩
    rw [whole, List.map_append, List.nodup_append] at distinct
    have differ := distinct.2.2 bucket.1 (List.mem_map_of_mem earlier) language List.mem_cons_self
    exact bne_iff_ne.mpr (Ne.symm differ)
  rw [bucket, found, Option.getD_some]

end

end UrlScan.ParserPool
