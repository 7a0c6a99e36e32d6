import UrlScan.Proofs.Pool.Accounts

/-!
# What a refused request leaves behind

A request is refused when no parser can be made. It may have opened the bucket of its language by
then, and that bucket stays, empty. Is there any other trace? To answer this the pool is run twice
with the same uses, once after the refused request and once without it.

The two pools differ at most by one bucket, which has no entries (`Opens`). A use that finds two
such pools gives the same answer in both, and leaves two such pools behind.

Results:
1. `opens_refused`: the request itself.
2. `Opens.answer_eq`, `Opens.after`: one use.
3. `Opens.answers_eq`, `Opens.afterAll`: all uses.
4. `Opens.stats_eq`: the totals, in which only the number of buckets may differ.
5. `refused_without_trace`: all of this for every pool that uses of a new one may lead to.
-/

namespace UrlScan.ParserPool

/-! ## Answers -/

/-- What a use shows to the one who makes it: the parser that is taken, or why there is none, and
whether it is shared. The other uses show nothing. -/
def answer (pool : ParserPool) : Use → Option (Except Text PooledParser × Bool)
  | .acquire language grammar =>
    some ((pool.acquire language grammar).parser, (pool.acquire language grammar).shared)
  | .release _ _ | .clear => none

def after (pool : ParserPool) : Use → ParserPool
  | .acquire language grammar => (pool.acquire language grammar).pool
  | .release language serial => pool.release language serial
  | .clear => pool.clear

def answers (pool : ParserPool) : List Use → List (Option (Except Text PooledParser × Bool))
  | [] => []
  | use :: later => pool.answer use :: (pool.after use).answers later

def afterAll (pool : ParserPool) (uses : List Use) : ParserPool :=
  uses.foldl after pool

/-- The languages that have a bucket. -/
def languages (pool : ParserPool) : List Text :=
  pool.buckets.map (·.1)

/-- The two pools differ at most in the bucket of one language: the second one may have it, without
entries, where the first one has none. -/
structure Opens (language : Text) (pool other : ParserPool) : Prop where
  capacity_eq : other.capacity = pool.capacity
  bucket_eq : ∀ name, other.bucket name = pool.bucket name
  overflows_eq : other.overflows = pool.overflows
  created_eq : other.created = pool.created
  subset : ∀ name ∈ pool.languages, name ∈ other.languages
  only : ∀ name ∈ other.languages, name ∈ pool.languages ∨ name = language

section
variable {pool other : ParserPool} {language : Text}

/-! ## The languages of a pool -/

theorem mem_languages_setBucket {name : Text} {wanted : Text} {entries : List PoolEntry} :
    name ∈ (pool.setBucket wanted entries).languages ↔ name ∈ pool.languages ∨ name = wanted := by
  obtain ⟨-, buckets, -⟩ := pool
  simp only [languages, setBucket]
  induction buckets with
  | nil => simp [putBucket]
  | cons bucket rest ih =>
    rw [putBucket]
    split
    next same =>
      rw [List.map_cons, List.map_cons, List.mem_cons, List.mem_cons, same]
      exact ⟨.inl, fun member => member.elim id .inl⟩
    next => rw [List.map_cons, List.mem_cons, ih, List.map_cons, List.mem_cons, or_assoc]

theorem languages_release (pool : ParserPool) (wanted : Text) (serial : Nat) :
    ∀ name, name ∈ (pool.release wanted serial).languages ↔ name ∈ pool.languages := by
  intro name
  rw [release]
  split
  next => rfl
  next entries found =>
    rw [mem_languages_setBucket]
    refine or_iff_left_of_imp ?_
    rintro rfl
    obtain ⟨before, after, whole, -⟩ := List.lookup_eq_some_iff.mp found
    rw [languages, whole]
    exact List.mem_map_of_mem (List.mem_append_right _ List.mem_cons_self)

/-- A language without a bucket has no entries. -/
theorem bucket_of_not_mem (absent : language ∉ pool.languages) : pool.bucket language = [] := by
  have notFound : pool.buckets.lookup language = none := by
    refine List.lookup_eq_none_iff.mpr fun bucket member => bne_iff_ne.mpr ?_
    rintro rfl
    exact absent (List.mem_map_of_mem member)
  rw [bucket, notFound, Option.getD_none]

/-! ## One use -/

theorem Opens.setBucket (opens : Opens language pool other) (wanted : Text)
    (entries : List PoolEntry) :
    Opens language (pool.setBucket wanted entries) (other.setBucket wanted entries) where
  capacity_eq := opens.capacity_eq
  bucket_eq name := by rw [bucket_setBucket, bucket_setBucket, opens.bucket_eq]
  overflows_eq := opens.overflows_eq
  created_eq := opens.created_eq
  subset name member := by
    rw [mem_languages_setBucket] at member ⊢
    exact member.imp_left (opens.subset name)
  only name member := by
    rw [mem_languages_setBucket] at member ⊢
    rcases member with inOther | isWanted
    · exact (opens.only name inOther).imp_left .inl
    · exact .inl (.inr isWanted)

/-- A request that is refused may open the bucket of its language, and does nothing else. -/
theorem opens_refused {grammar : Grammar} {reason : Text}
    (refused : (pool.acquire language grammar).parser = .error reason) :
    Opens language pool (pool.acquire language grammar).pool := by
  rw [(refused_eq refused).2]
  exact
    { capacity_eq := rfl
      bucket_eq := fun name => by
        rw [bucket_setBucket]
        split
        next same => rw [same]
        next => rfl
      overflows_eq := rfl
      created_eq := rfl
      subset := fun name member => mem_languages_setBucket.mpr (.inl member)
      only := fun name => mem_languages_setBucket.mp }

theorem Opens.acquire (opens : Opens language pool other) (wanted : Text) (grammar : Grammar) :
    (other.acquire wanted grammar).parser = (pool.acquire wanted grammar).parser ∧
      (other.acquire wanted grammar).shared = (pool.acquire wanted grammar).shared ∧
      Opens language (pool.acquire wanted grammar).pool (other.acquire wanted grammar).pool := by
  rw [ParserPool.acquire, ParserPool.acquire]
  simp only [opens.bucket_eq, opens.capacity_eq, opens.created_eq]
  cases takeFree (pool.bucket wanted) with
  | some taken => exact ⟨rfl, rfl, opens.setBucket wanted taken.2⟩
  | none =>
    dsimp only
    split
    next =>
      cases grammar.engine.creationFault with
      | some fault => exact ⟨rfl, rfl, opens.setBucket wanted _⟩
      | none =>
        dsimp only
        have counted : Opens language { pool with created := pool.created + 1 }
            ⟨pool.capacity, other.buckets, other.overflows, pool.created + 1, pool.capacity_pos⟩ :=
          ⟨rfl, opens.bucket_eq, opens.overflows_eq, rfl, opens.subset, opens.only⟩
        exact ⟨rfl, rfl, counted.setBucket wanted _⟩
    next =>
      have shared : Opens language { pool with overflows := pool.overflows + 1 }
          ⟨pool.capacity, other.buckets, other.overflows + 1, pool.created, pool.capacity_pos⟩ :=
        ⟨rfl, opens.bucket_eq, congrArg Nat.succ opens.overflows_eq, rfl, opens.subset, opens.only⟩
      exact ⟨rfl, rfl, shared⟩

theorem Opens.release (opens : Opens language pool other) (wanted : Text) (serial : Nat) :
    Opens language (pool.release wanted serial) (other.release wanted serial) := by
  obtain ⟨capacity, created, overflows⟩ := release_counters pool wanted serial
  obtain ⟨capacity', created', overflows'⟩ := release_counters other wanted serial
  exact
    { capacity_eq := by rw [capacity', capacity, opens.capacity_eq]
      bucket_eq := fun name => by
        rw [bucket_release, bucket_release, opens.bucket_eq, opens.bucket_eq]
      overflows_eq := by rw [overflows', overflows, opens.overflows_eq]
      created_eq := by rw [created', created, opens.created_eq]
      subset := fun name => by
        rw [languages_release, languages_release]
        exact opens.subset name
      only := fun name => by
        rw [languages_release, languages_release]
        exact opens.only name }

/-- A cleared pool has no buckets, so not even the empty one is left. -/
theorem Opens.clear (opens : Opens language pool other) :
    Opens language pool.clear other.clear where
  capacity_eq := opens.capacity_eq
  bucket_eq _ := rfl
  overflows_eq := opens.overflows_eq
  created_eq := opens.created_eq
  subset _ member := member
  only _ member := .inl member

theorem Opens.answer_eq (opens : Opens language pool other) (use : Use) :
    other.answer use = pool.answer use := by
  cases use with
  | acquire wanted grammar =>
    obtain ⟨parser, shared, -⟩ := opens.acquire wanted grammar
    rw [answer, answer, parser, shared]
  | release => rfl
  | clear => rfl

theorem Opens.after (opens : Opens language pool other) (use : Use) :
    Opens language (pool.after use) (other.after use) := by
  cases use with
  | acquire wanted grammar => exact (opens.acquire wanted grammar).2.2
  | release wanted serial => exact opens.release wanted serial
  | clear => exact opens.clear

/-! ## All uses -/

theorem Opens.answers_eq (opens : Opens language pool other) (later : List Use) :
    other.answers later = pool.answers later := by
  induction later generalizing pool other with
  | nil => rfl
  | cons use later ih => rw [answers, answers, opens.answer_eq use, ih (opens.after use)]

theorem Opens.afterAll (opens : Opens language pool other) (later : List Use) :
    Opens language (pool.afterAll later) (other.afterAll later) := by
  induction later generalizing pool other with
  | nil => exact opens
  | cons use later ih => exact ih (opens.after use)

theorem afterAll_append (pool : ParserPool) (uses later : List Use) :
    pool.afterAll (uses ++ later) = (pool.afterAll uses).afterAll later :=
  List.foldl_append

theorem pool_uses (tally : Tally) (uses : List Use) :
    (tally.uses uses).pool = tally.pool.afterAll uses := by
  induction uses generalizing tally with
  | nil => rfl
  | cons use rest ih =>
    have first : (tally.use use).pool = tally.pool.after use := by cases use <;> rfl
    exact (ih (tally.use use)).trans (congrArg (afterAll · rest) first)

/-- No language ever has two buckets. -/
theorem nodup_languages_afterAll (capacity : Nat) (capacity_pos : 0 < capacity)
    (uses : List Use) : ((ofCapacity capacity capacity_pos).afterAll uses).languages.Nodup := by
  have accounted := (Tally.accounted_opened capacity capacity_pos).uses uses
  have pool := pool_uses (Tally.opened capacity capacity_pos) uses
  exact congrArg languages pool ▸ accounted.distinct

/-! ## Totals -/

/-- The second pool has the languages of the first one, or these and the one that was opened. -/
theorem Opens.languages_perm (opens : Opens language pool other)
    (distinct : pool.languages.Nodup) (distinctOther : other.languages.Nodup) :
    other.languages.Perm pool.languages ∨
      language ∉ pool.languages ∧ other.languages.Perm (language :: pool.languages) := by
  by_cases opened : language ∈ other.languages ∧ language ∉ pool.languages
  · obtain ⟨isThere, isNew⟩ := opened
    refine .inr ⟨isNew, (List.perm_ext_iff_of_nodup distinctOther
      (List.nodup_cons.mpr ⟨isNew, distinct⟩)).mpr fun name => ?_⟩
    rw [List.mem_cons]
    constructor
    · exact fun member => (opens.only name member).symm
    · rintro (rfl | member)
      · exact isThere
      · exact opens.subset name member
  · refine .inl ((List.perm_ext_iff_of_nodup distinctOther distinct).mpr fun name =>
      ⟨fun member => ?_, opens.subset name⟩)
    rcases opens.only name member with isOld | rfl
    · exact isOld
    · by_contra isNew
      exact opened ⟨member, isNew⟩

/-- A count over all buckets is the same in both pools when an empty bucket counts nothing. -/
theorem Opens.sum_eq (opens : Opens language pool other) (distinct : pool.languages.Nodup)
    (distinctOther : other.languages.Nodup) (count : List PoolEntry → Nat) (empty : count [] = 0) :
    (other.languages.map fun name => count (other.bucket name)).sum =
      (pool.languages.map fun name => count (pool.bucket name)).sum := by
  simp only [opens.bucket_eq]
  rcases opens.languages_perm distinct distinctOther with same | ⟨isNew, more⟩
  · exact (same.map _).sum_nat
  · rw [(more.map _).sum_nat, List.map_cons, List.sum_cons, bucket_of_not_mem isNew, empty,
      Nat.zero_add]

theorem Opens.stats_eq (opens : Opens language pool other) (distinct : pool.languages.Nodup)
    (distinctOther : other.languages.Nodup) :
    other.stats.parsers = pool.stats.parsers ∧ other.stats.inUse = pool.stats.inUse ∧
      other.stats.overflows = pool.stats.overflows ∧
      (other.stats.languages = pool.stats.languages ∨
        language ∉ pool.languages ∧ other.stats.languages = pool.stats.languages + 1) := by
  have parsers : other.stats.parsers = pool.stats.parsers := by
    rw [parsers_stats distinctOther, parsers_stats distinct]
    exact opens.sum_eq distinct distinctOther List.length rfl
  have free := opens.sum_eq distinct distinctOther (List.countP (!·.inUse)) rfl
  have inUse : other.stats.inUse + (other.languages.map other.available).sum =
      pool.stats.inUse + (pool.languages.map pool.available).sum :=
    (inUse_stats_add distinctOther).trans (parsers.trans (inUse_stats_add distinct).symm)
  refine ⟨parsers, Nat.add_right_cancel (inUse.trans (congrArg _ free.symm)), opens.overflows_eq,
    ?_⟩
  have length (some : ParserPool) : some.stats.languages = some.languages.length :=
    (List.length_map _).symm
  rw [length, length]
  rcases opens.languages_perm distinct distinctOther with same | ⟨isNew, more⟩
  · exact .inl same.length_eq
  · exact .inr ⟨isNew, more.length_eq⟩

end

/-- Whatever a pool was used for before, a request that is refused leaves no trace. No parser is
shared for it. At once, and after whatever uses come later, every bucket has the entries, with their
marks, that it would have without the request, as many parsers were made, and as many were shared.
Every later use gives the answer that it would give. Only the bucket of the language may count among
the languages, as long as no other use opens it. -/
theorem refused_without_trace (capacity : Nat) (capacity_pos : 0 < capacity) (uses : List Use)
    (language : Text) (grammar : Grammar) (reason : Text) :
    let pool := (ofCapacity capacity capacity_pos).afterAll uses
    (pool.acquire language grammar).parser = .error reason →
    (pool.acquire language grammar).shared = false ∧
    ∀ later : List Use,
      let refused := (pool.acquire language grammar).pool
      refused.answers later = pool.answers later ∧
      (∀ name, (refused.afterAll later).bucket name = (pool.afterAll later).bucket name ∧
        (refused.afterAll later).size name = (pool.afterAll later).size name ∧
        (refused.afterAll later).available name = (pool.afterAll later).available name) ∧
      (refused.afterAll later).created = (pool.afterAll later).created ∧
      (refused.afterAll later).stats.parsers = (pool.afterAll later).stats.parsers ∧
      (refused.afterAll later).stats.inUse = (pool.afterAll later).stats.inUse ∧
      (refused.afterAll later).stats.overflows = (pool.afterAll later).stats.overflows ∧
      ((refused.afterAll later).stats.languages = (pool.afterAll later).stats.languages ∨
        language ∉ (pool.afterAll later).languages ∧
          (refused.afterAll later).stats.languages =
            (pool.afterAll later).stats.languages + 1) := by
  intro pool isRefused
  refine ⟨(refused_eq isRefused).1, fun later => ?_⟩
  intro refused
  have opens : Opens language pool refused := opens_refused isRefused
  have atEnd := opens.afterAll later
  have distinct : (pool.afterAll later).languages.Nodup := by
    rw [← afterAll_append]
    exact nodup_languages_afterAll capacity capacity_pos _
  have distinctRefused : (refused.afterAll later).languages.Nodup := by
    have isAfter : refused = pool.afterAll [.acquire language grammar] := rfl
    rw [isAfter, ← afterAll_append, ← afterAll_append]
    exact nodup_languages_afterAll capacity capacity_pos _
  refine ⟨opens.answers_eq later, fun name => ⟨atEnd.bucket_eq name, ?_, ?_⟩, atEnd.created_eq,
    atEnd.stats_eq distinct distinctRefused⟩
  · rw [size, size, atEnd.bucket_eq]
  · rw [available, available, atEnd.bucket_eq]

/-- The theorem for a pool with room for one parser, of which none can be made at first. The bucket
that is opened counts, and then it is used as if it were new: one parser is made and shared. -/
theorem refused_without_trace_one :
    ∃ broken grammar : Grammar,
      let pool := ofCapacity 1 Nat.one_pos
      let refused := (pool.acquire "c".toList broken).pool
      let later : List Use := [.acquire "c".toList grammar, .acquire "c".toList grammar]
      (pool.acquire "c".toList broken).parser = .error "broken".toList ∧
      refused.stats = ⟨1, 0, 0, 0⟩ ∧ pool.stats = ⟨0, 0, 0, 0⟩ ∧
      refused.answers later = pool.answers later ∧
      (pool.afterAll later).stats = ⟨1, 1, 1, 1⟩ ∧
      (refused.afterAll later).stats.overflows = 1 := by
  let language := Language.builtIn "c" "C" [".c"] [] ["string"] ["comment"]
  let broken : Grammar := ⟨0, language, .registered, { Engine.sketch with
    creationFault := some "broken".toList }⟩
  let grammar : Grammar := ⟨1, language, .registered, .sketch⟩
  have isRefused :
      ((ofCapacity 1 Nat.one_pos).acquire "c".toList broken).parser = .error "broken".toList := rfl
  have noTrace := (refused_without_trace 1 Nat.one_pos [] "c".toList broken "broken".toList
    isRefused).2 [.acquire "c".toList grammar, .acquire "c".toList grammar]
  have stats : ((ofCapacity 1 Nat.one_pos).afterAll
      [.acquire "c".toList grammar, .acquire "c".toList grammar]).stats = ⟨1, 1, 1, 1⟩ := by decide
  exact ⟨broken, grammar, isRefused, by decide, by decide, noTrace.1, stats,
    noTrace.2.2.2.2.2.1.trans (congrArg PoolStats.overflows stats)⟩

end UrlScan.ParserPool
