import Mathlib.Data.List.Perm.Subperm
import UrlScan.Proofs.Pool.Buckets

/-!
# The marks of a pool and the loans

A parser that was taken and is not given back yet is on loan. An entry has one mark for being in
use, but its parser may be on loan several times, because the first parser of a full bucket is
shared. So the marks do not tell the loans. What they do tell, whatever was taken and given back so
far, is the invariant `Sound`: a marked parser is on loan, and a parser is on loan more than once,
or without a mark, only if it is the first of its bucket and the pool has had to share a parser.

Results:
1. `Registered.of_handed`, `Registered.refuse`, `Registered.release`: no parser is ever in the
   buckets twice, and no bucket grows beyond its room.
2. `Sound.lend`, `Sound.refuse`, `Sound.giveBack`: every operation keeps the invariant.
3. `Sound.holders_eq_zero`: a parser that is handed out without being shared was not on loan, unless
   it is the first of its bucket and the pool has shared a parser before.
4. `Sound.length_le_loans`: a bucket without a free entry has no more entries than there are loans.
   So there are loans enough whenever a bucket grows (`Sound.length_handed_le`) or a parser is
   shared (`Sound.capacity_le_loans`).
-/

namespace UrlScan

/-- The parsers on loan, each with its language and its serial number; a parser that is shared
occurs several times. -/
abbrev Loans := List (Text × Nat)

/-- How often a parser is on loan. -/
def Loans.holders (loans : Loans) (serial : Nat) : Nat :=
  (loans.map (·.2)).count serial

/-- Taking an item from its position to the front changes the order of a list only. -/
theorem perm_cons_eraseIdx {α : Type} {items : List α} {position : Nat} {item : α}
    (present : items[position]? = some item) : items.Perm (item :: items.eraseIdx position) := by
  obtain ⟨inside, rfl⟩ := List.getElem?_eq_some_iff.mp present
  exact (List.getElem_cons_eraseIdx_perm inside).symm

namespace ParserPool

/-- The marks of a pool agree with the loans, whatever was taken and given back before. -/
structure Sound (pool : ParserPool) (loans : Loans) : Prop where
  size_le : ∀ language, (pool.serials language).length ≤ pool.capacity
  /-- Serial numbers are used up in order. -/
  fresh : ∀ language, ∀ serial ∈ pool.serials language, serial < pool.created
  distinct : ∀ language, (pool.serials language).Nodup
  /-- No parser is in the buckets of two languages. -/
  apart : ∀ language other serial, serial ∈ pool.serials language → serial ∈ pool.serials other →
    language = other
  /-- A parser that is on loan stays in its bucket. -/
  lent_mem : ∀ loan ∈ loans, loan.2 ∈ pool.serials loan.1
  /-- A parser that is marked as in use is on loan. -/
  marked_lent : ∀ language serial, pool.Marked language serial → (language, serial) ∈ loans
  /-- A parser that is not the first of its bucket is on loan at most once, and then it is marked;
  so is every parser as long as none had to be shared. -/
  exclusive : ∀ language serial, serial ∈ pool.serials language →
    (pool.serials language).head? ≠ some serial ∨ pool.overflows = 0 →
    loans.holders serial ≤ 1 ∧ (1 ≤ loans.holders serial → pool.Marked language serial)

/-- No bucket has more parsers than it has room for, and no parser is in the buckets twice. -/
structure Registered (pool : ParserPool) : Prop where
  size_le : ∀ language, (pool.serials language).length ≤ pool.capacity
  fresh : ∀ language, ∀ serial ∈ pool.serials language, serial < pool.created
  distinct : ∀ language, (pool.serials language).Nodup
  apart : ∀ language other serial, serial ∈ pool.serials language → serial ∈ pool.serials other →
    language = other

section
variable {pool : ParserPool} {loans : Loans} {language : Text} {grammar : Grammar}

theorem Sound.registered (sound : pool.Sound loans) : pool.Registered :=
  ⟨sound.size_le, sound.fresh, sound.distinct, sound.apart⟩

theorem holders_cons (loan : Text × Nat) (loans : Loans) (serial : Nat) :
    Loans.holders (loan :: loans) serial =
      loans.holders serial + if loan.2 = serial then 1 else 0 := by
  rw [Loans.holders, List.map_cons, List.count_cons, Loans.holders]
  simp only [beq_iff_eq]

theorem one_le_holders {serial : Nat} :
    1 ≤ loans.holders serial ↔ ∃ loan ∈ loans, loan.2 = serial := by
  rw [Loans.holders, Nat.one_le_iff_ne_zero, ← Nat.pos_iff_ne_zero, List.count_pos_iff,
    List.mem_map]

theorem sound_empty (capacity : Nat) (capacity_pos : 0 < capacity) :
    (ofCapacity capacity capacity_pos).Sound [] where
  size_le := fun _ => Nat.zero_le _
  fresh := fun _ _ member => nomatch member
  distinct := fun _ => .nil
  apart := fun _ _ _ member => nomatch member
  lent_mem := fun _ member => nomatch member
  marked_lent := fun _ _ ⟨_, member, _⟩ => nomatch member
  exclusive := fun _ _ member => nomatch member

/-- The order of the loans does not matter. -/
theorem Sound.perm {loans' : Loans} (sound : pool.Sound loans) (perm : loans.Perm loans') :
    pool.Sound loans' := by
  have holders (serial : Nat) : loans'.holders serial = loans.holders serial :=
    ((perm.map Prod.snd).count_eq serial).symm
  refine { sound with lent_mem := ?_, marked_lent := ?_, exclusive := ?_ }
  · exact fun loan member => sound.lent_mem loan (perm.mem_iff.mpr member)
  · exact fun language serial marked => perm.mem_iff.mp (sound.marked_lent language serial marked)
  · intro language serial member alone
    rw [holders]
    exact sound.exclusive language serial member alone

/-! ## Taking a parser -/

/-- What handing out a parser changes, in a pool whose marks agree with the loans. -/
structure Handed (pool : ParserPool) (language : Text) (serial : Nat) (shared : Bool)
    (after : ParserPool) : Prop where
  capacity_eq : after.capacity = pool.capacity
  /-- The bucket of the language grows by the parser, or it has it already. -/
  serials_eq : (after.created = pool.created ∧ serial ∈ pool.serials language ∧
      ∀ other, after.serials other = pool.serials other) ∨
    (after.created = pool.created + 1 ∧ serial = pool.created ∧
      (∀ old ∈ pool.serials language, pool.Marked language old) ∧
      (pool.serials language).length < pool.capacity ∧
      ∀ other, after.serials other =
        if other = language then pool.serials language ++ [serial] else pool.serials other)
  /-- The parser is marked, and no other mark changes. -/
  marked_iff : ∀ other old, after.Marked other old ↔
    pool.Marked other old ∨ (other = language ∧ old = serial)
  /-- A parser that is not shared was not marked. -/
  unmarked : shared = false →
    ¬pool.Marked language serial ∧ after.overflows = pool.overflows
  /-- A parser is shared only when its bucket is full and all its entries are in use. It is the
  first one, and the sharing is counted. -/
  exhausted : shared = true → (pool.serials language).head? = some serial ∧
    pool.capacity ≤ (pool.serials language).length ∧
    (∀ old ∈ pool.serials language, pool.Marked language old) ∧
    after.overflows = pool.overflows + 1

theorem marked_of_inUse {serial : Nat} (inUse : ∀ entry ∈ pool.bucket language, entry.inUse = true)
    (member : serial ∈ pool.serials language) : pool.Marked language serial := by
  obtain ⟨entry, inBucket, same⟩ := mem_serials.mp member
  exact ⟨entry, inBucket, same, inUse entry inBucket⟩

theorem handed_reuse {before after : List PoolEntry} {entry : PoolEntry}
    (distinct : (pool.serials language).Nodup)
    (whole : pool.bucket language = before ++ entry :: after) (isFree : entry.inUse = false) :
    Handed pool language entry.parser.serial false
      (pool.setBucket language (before ++ { entry with inUse := true } :: after)) where
  capacity_eq := rfl
  serials_eq := by
    refine Or.inl ⟨rfl, ?_, fun other => ?_⟩
    · exact mem_serials.mpr ⟨entry, whole ▸ List.mem_append_right _ List.mem_cons_self, rfl⟩
    · rw [serials_setBucket]
      split
      next same => rw [same, serials, whole, List.map_append, List.map_append]; rfl
      next => rfl
  marked_iff other old := by
    rw [marked_setBucket_iff]
    split
    next same =>
      subst same
      rw [Marked, whole]
      simp only [List.mem_append, List.mem_cons, true_and]
      constructor
      · rintro ⟨found, inBefore | rfl | inAfter, isOld, inUse⟩
        · exact Or.inl ⟨found, Or.inl inBefore, isOld, inUse⟩
        · exact Or.inr isOld.symm
        · exact Or.inl ⟨found, Or.inr (Or.inr inAfter), isOld, inUse⟩
      · rintro (⟨found, inBefore | rfl | inAfter, isOld, inUse⟩ | rfl)
        · exact ⟨found, Or.inl inBefore, isOld, inUse⟩
        · rw [isFree] at inUse
          cases inUse
        · exact ⟨found, Or.inr (Or.inr inAfter), isOld, inUse⟩
        · exact ⟨_, Or.inr (Or.inl rfl), rfl, rfl⟩
    next differs => simp only [differs, false_and, or_false]
  unmarked := by
    refine fun _ => ⟨?_, rfl⟩
    rintro ⟨found, member, same, inUse⟩
    -- No other entry has the serial number of the free one.
    rw [serials, whole, List.map_append, List.map_cons] at distinct
    obtain ⟨-, distinctBehind, distinctBefore⟩ := List.nodup_append.mp distinct
    rw [whole, List.mem_append, List.mem_cons] at member
    rcases member with inBefore | rfl | inAfter
    · exact distinctBefore _ (List.mem_map_of_mem inBefore) _ List.mem_cons_self same
    · rw [isFree] at inUse
      cases inUse
    · exact (List.nodup_cons.mp distinctBehind).1 (same ▸ List.mem_map_of_mem inAfter)
  exhausted impossible := by cases impossible

theorem handed_create (unregistered : pool.created ∉ pool.serials language)
    (inUse : ∀ entry ∈ pool.bucket language, entry.inUse = true)
    (room : (pool.bucket language).length < pool.capacity) :
    Handed pool language pool.created false
      (setBucket { pool with created := pool.created + 1 } language
        (pool.bucket language ++ [⟨⟨pool.created, grammar⟩, true⟩])) where
  capacity_eq := rfl
  serials_eq := by
    refine Or.inr ⟨rfl, rfl, fun old => marked_of_inUse inUse, ?_, fun other => ?_⟩
    · rw [length_serials]
      exact room
    · rw [serials_setBucket, List.map_append]
      rfl
  marked_iff other old := by
    rw [marked_setBucket_iff]
    split
    next same =>
      subst same
      simp only [List.mem_append, List.mem_singleton, or_and_right, exists_or, exists_eq_left,
        and_true, true_and]
      exact or_congr Iff.rfl eq_comm
    next differs =>
      simp only [differs, false_and, or_false]
      rfl
  unmarked := fun _ => ⟨fun marked => unregistered marked.mem, rfl⟩
  exhausted impossible := by cases impossible

theorem handed_share {first : PoolEntry} {rest : List PoolEntry}
    (whole : pool.bucket language = first :: rest)
    (inUse : ∀ entry ∈ pool.bucket language, entry.inUse = true)
    (full : pool.capacity ≤ (pool.bucket language).length) :
    Handed pool language first.parser.serial true
      { pool with overflows := pool.overflows + 1 } := by
  have isFirst : (pool.serials language).head? = some first.parser.serial := by
    rw [serials, whole]
    rfl
  have member := List.mem_of_head? isFirst
  exact
    { capacity_eq := rfl
      serials_eq := Or.inl ⟨rfl, member, fun _ => rfl⟩
      marked_iff := fun other old => by
        constructor
        · exact Or.inl
        · rintro (before | ⟨rfl, rfl⟩)
          · exact before
          · exact marked_of_inUse inUse member
      unmarked := fun impossible => by cases impossible
      exhausted := fun _ =>
        ⟨isFirst, length_serials pool language ▸ full, fun old => marked_of_inUse inUse, rfl⟩ }

theorem Registered.handed (registered : pool.Registered) {parser : PooledParser}
    (taken : (pool.acquire language grammar).parser = .ok parser) :
    Handed pool language parser.serial (pool.acquire language grammar).shared
      (pool.acquire language grammar).pool := by
  have takes := acquire_takes pool language grammar
  generalize pool.acquire language grammar = acquisition at taken takes
  cases takes with
  | reuse whole isFree =>
    cases taken
    exact handed_reuse (registered.distinct language) whole isFree
  | refuse => cases taken
  | create inUse room =>
    cases taken
    exact handed_create (fun member => Nat.lt_irrefl _ (registered.fresh language _ member)) inUse
      room
  | share whole inUse full =>
    cases taken
    exact handed_share whole inUse full

section
variable {after : ParserPool} {serial : Nat} {shared : Bool}

theorem Handed.mem_iff (handed : Handed pool language serial shared after) (other : Text)
    (old : Nat) :
    old ∈ after.serials other ↔ old ∈ pool.serials other ∨ (other = language ∧ old = serial) := by
  rcases handed.serials_eq with ⟨-, member, same⟩ | ⟨-, -, -, -, grown⟩
  · rw [same]
    refine ⟨Or.inl, ?_⟩
    rintro (before | ⟨rfl, rfl⟩)
    · exact before
    · exact member
  · rw [grown]
    split
    next isLanguage => simp only [isLanguage, List.mem_append, List.mem_singleton, true_and]
    next differs => simp only [differs, false_and, or_false]

/-- A parser that is handed out is in the bucket of its language only. -/
theorem Handed.eq_language (handed : Handed pool language serial shared after)
    (registered : pool.Registered) {other : Text} (member : serial ∈ pool.serials other) :
    other = language := by
  rcases handed.serials_eq with ⟨-, inBucket, -⟩ | ⟨-, isNew, -⟩
  · exact registered.apart other language serial member inBucket
  · have := registered.fresh other serial member
    omega

theorem Registered.of_handed (registered : pool.Registered)
    (handed : Handed pool language serial shared after) : after.Registered where
  size_le other := by
    rw [handed.capacity_eq]
    rcases handed.serials_eq with ⟨-, -, same⟩ | ⟨-, -, -, room, grown⟩
    · rw [same]
      exact registered.size_le other
    · rw [grown]
      split
      next =>
        rw [List.length_append, List.length_singleton]
        exact room
      next => exact registered.size_le other
  fresh other old member := by
    have before := registered.fresh other old
    rcases handed.serials_eq with ⟨sameCount, -, same⟩ | ⟨counted, isNew, -⟩
    · rw [sameCount]
      exact before (same other ▸ member)
    · rcases (handed.mem_iff other old).mp member with present | ⟨-, rfl⟩
      · have := before present
        omega
      · omega
  distinct other := by
    rcases handed.serials_eq with ⟨-, -, same⟩ | ⟨-, isNew, -, -, grown⟩
    · rw [same]
      exact registered.distinct other
    · rw [grown]
      split
      next =>
        refine List.nodup_append.mpr
          ⟨registered.distinct language, List.pairwise_singleton _ _, ?_⟩
        intro old member other isOther same
        have := registered.fresh language old member
        rw [List.mem_singleton] at isOther
        omega
      next => exact registered.distinct other
  apart first second old inFirst inSecond := by
    rcases (handed.mem_iff first old).mp inFirst with before | ⟨rfl, rfl⟩
    · rcases (handed.mem_iff second old).mp inSecond with before' | ⟨rfl, rfl⟩
      · exact registered.apart first second old before before'
      · exact handed.eq_language registered before
    · rcases (handed.mem_iff second old).mp inSecond with before' | ⟨rfl, -⟩
      · exact (handed.eq_language registered before').symm
      · rfl

/-- A parser for which exclusiveness is claimed afterwards had it claimed before. -/
theorem Handed.alone_before (handed : Handed pool language serial shared after) {other : Text}
    {old : Nat} (member : old ∈ pool.serials other)
    (alone : (after.serials other).head? ≠ some old ∨ after.overflows = 0) :
    (pool.serials other).head? ≠ some old ∨ pool.overflows = 0 := by
  rcases alone with notFirst | none
  · left
    rcases handed.serials_eq with ⟨-, -, same⟩ | ⟨-, -, -, -, grown⟩
    · rwa [same] at notFirst
    · rw [grown] at notFirst
      split at notFirst
      next isLanguage =>
        subst isLanguage
        rwa [List.head?_append_of_ne_nil _ (List.ne_nil_of_mem member)] at notFirst
      next => exact notFirst
  · right
    cases shared with
    | false => rw [← (handed.unmarked rfl).2, none]
    | true =>
      have counted := (handed.exhausted rfl).2.2.2
      omega

/-- A parser that is handed out and not shared was not on loan, if exclusiveness was claimed for
it. -/
theorem Sound.holders_eq_zero (sound : pool.Sound loans)
    (handed : Handed pool language serial false after)
    (alone : (after.serials language).head? ≠ some serial ∨ after.overflows = 0) :
    loans.holders serial = 0 := by
  by_contra onLoan
  obtain ⟨loan, member, rfl⟩ := one_le_holders.mp (Nat.one_le_iff_ne_zero.mpr onLoan)
  have inBucket := sound.lent_mem loan member
  rw [handed.eq_language sound.registered inBucket] at inBucket
  have marks := (sound.exclusive language loan.2 inBucket (handed.alone_before inBucket alone)).2
  exact (handed.unmarked rfl).1 (marks (Nat.one_le_iff_ne_zero.mpr onLoan))

theorem Sound.of_handed (sound : pool.Sound loans)
    (handed : Handed pool language serial shared after) :
    after.Sound ((language, serial) :: loans) where
  __ := sound.registered.of_handed handed
  lent_mem loan member := by
    rw [handed.mem_iff]
    rcases List.mem_cons.mp member with rfl | before
    · exact Or.inr ⟨rfl, rfl⟩
    · exact Or.inl (sound.lent_mem loan before)
  marked_lent other old marked := by
    rcases (handed.marked_iff other old).mp marked with before | ⟨rfl, rfl⟩
    · exact List.mem_cons_of_mem _ (sound.marked_lent other old before)
    · exact List.mem_cons_self
  exclusive other old member alone := by
    rw [holders_cons]
    by_cases same : serial = old
    · subst same
      have isLanguage : other = language := by
        rcases (handed.mem_iff other serial).mp member with before | ⟨isLanguage, -⟩
        · exact handed.eq_language sound.registered before
        · exact isLanguage
      subst isLanguage
      rw [if_pos rfl]
      cases shared with
      | false =>
        rw [sound.holders_eq_zero handed alone]
        exact ⟨Nat.le_refl 1, fun _ => (handed.marked_iff _ _).mpr (Or.inr ⟨rfl, rfl⟩)⟩
      | true =>
        -- The first parser of its bucket is shared, and exclusiveness is not claimed for it.
        obtain ⟨isFirst, -, -, counted⟩ := handed.exhausted rfl
        rcases alone with notFirst | none
        · rcases handed.serials_eq with ⟨-, -, unchanged⟩ | ⟨-, isNew, -⟩
          · exact absurd (unchanged other ▸ isFirst) notFirst
          · have := sound.fresh other serial (List.mem_of_head? isFirst)
            omega
        · omega
    · rw [if_neg same, Nat.add_zero]
      have before : old ∈ pool.serials other :=
        ((handed.mem_iff other old).mp member).resolve_right fun isNew => same isNew.2.symm
      have aloneBefore := handed.alone_before before alone
      obtain ⟨atMostOne, marks⟩ := sound.exclusive other old before aloneBefore
      exact ⟨atMostOne, fun onLoan => (handed.marked_iff _ _).mpr (Or.inl (marks onLoan))⟩

end

/-- A parser that is taken is on loan. -/
theorem Sound.lend (sound : pool.Sound loans) {parser : PooledParser}
    (taken : (pool.acquire language grammar).parser = .ok parser) :
    (pool.acquire language grammar).pool.Sound ((language, parser.serial) :: loans) :=
  sound.of_handed (sound.registered.handed taken)

/-- When no parser can be made, the bucket is put back as it was. -/
theorem refused_eq {reason : Text}
    (refused : (pool.acquire language grammar).parser = .error reason) :
    (pool.acquire language grammar).shared = false ∧
      (pool.acquire language grammar).pool =
        pool.setBucket language (pool.bucket language) := by
  have takes := acquire_takes pool language grammar
  generalize pool.acquire language grammar = acquisition at refused takes
  cases takes with
  | refuse => exact ⟨rfl, rfl⟩
  | reuse => cases refused
  | create => cases refused
  | share => cases refused

theorem Registered.refuse (registered : pool.Registered) :
    (pool.setBucket language (pool.bucket language)).Registered := by
  constructor
  all_goals simp only [serials_setBucket_self]
  case size_le => exact registered.size_le
  case fresh => exact registered.fresh
  case distinct => exact registered.distinct
  case apart => exact registered.apart

theorem Sound.refuse (sound : pool.Sound loans) {reason : Text}
    (refused : (pool.acquire language grammar).parser = .error reason) :
    (pool.acquire language grammar).pool.Sound loans := by
  rw [(refused_eq refused).2]
  refine
    { sound.registered.refuse with
      lent_mem := ?lent_mem, marked_lent := ?marked_lent, exclusive := ?exclusive }
  all_goals simp only [serials_setBucket_self, marked_setBucket_self_iff]
  case lent_mem => exact sound.lent_mem
  case marked_lent => exact sound.marked_lent
  case exclusive => exact sound.exclusive

/-! ## Giving back a parser -/

theorem Registered.release (registered : pool.Registered) (language : Text) (serial : Nat) :
    (pool.release language serial).Registered := by
  obtain ⟨capacity, created, -⟩ := release_counters pool language serial
  constructor
  all_goals simp only [serials_release, capacity, created]
  case size_le => exact registered.size_le
  case fresh => exact registered.fresh
  case distinct => exact registered.distinct
  case apart => exact registered.apart

/-- A parser that is given back is on loan once less, and its mark is taken away whether it is on
loan still or not. -/
theorem Sound.giveBack {loan : Text × Nat} (sound : pool.Sound (loan :: loans)) :
    (pool.release loan.1 loan.2).Sound loans := by
  obtain ⟨-, -, overflows⟩ := release_counters pool loan.1 loan.2
  refine
    { sound.registered.release loan.1 loan.2 with
      lent_mem := ?lent_mem, marked_lent := ?marked_lent, exclusive := ?exclusive }
  all_goals
    simp only [serials_release, marked_release_iff (sound.distinct loan.1), overflows]
  case lent_mem => exact fun other member => sound.lent_mem other (List.mem_cons_of_mem _ member)
  case marked_lent =>
    rintro language serial ⟨marked, notFreed⟩
    rcases List.mem_cons.mp (sound.marked_lent language serial marked) with rfl | other
    · exact absurd ⟨rfl, rfl⟩ notFreed
    · exact other
  case exclusive =>
    intro language serial member alone
    obtain ⟨atMostOne, marks⟩ := sound.exclusive language serial member alone
    rw [holders_cons] at atMostOne marks
    by_cases same : loan.2 = serial
    · rw [if_pos same] at atMostOne
      exact ⟨by omega, fun onLoan => by omega⟩
    · rw [if_neg same, Nat.add_zero] at atMostOne marks
      exact ⟨atMostOne, fun onLoan => ⟨marks onLoan, fun freed => same freed.2.symm⟩⟩

/-! ## Counting -/

/-- A bucket without a free entry has no more entries than there are loans. -/
theorem Sound.length_le_loans (sound : pool.Sound loans)
    (marked : ∀ serial ∈ pool.serials language, pool.Marked language serial) :
    (pool.serials language).length ≤ loans.length := by
  have lent : pool.serials language ⊆ loans.map (·.2) := fun serial member =>
    List.mem_map_of_mem (sound.marked_lent language serial (marked serial member))
  calc (pool.serials language).length
    _ ≤ (loans.map (·.2)).length := ((sound.distinct language).subperm lent).length_le
    _ = loans.length := List.length_map _

/-- A bucket grows only when all its parsers are on loan. -/
theorem Sound.length_handed_le {after : ParserPool} {serial : Nat} {shared : Bool}
    (sound : pool.Sound loans) (handed : Handed pool language serial shared after) (other : Text) :
    (after.serials other).length ≤ max (pool.serials other).length (loans.length + 1) := by
  rcases handed.serials_eq with ⟨-, -, same⟩ | ⟨-, -, marked, -, grown⟩
  · rw [same]
    exact Nat.le_max_left _ _
  · have allLent := sound.length_le_loans marked
    rw [grown]
    split
    next => rw [List.length_append, List.length_singleton]; omega
    next => exact Nat.le_max_left _ _

/-- A parser is shared only when there are as many loans as the bucket has room for. -/
theorem Sound.capacity_le_loans {after : ParserPool} {serial : Nat} (sound : pool.Sound loans)
    (handed : Handed pool language serial true after) : pool.capacity ≤ loans.length := by
  obtain ⟨-, full, marked, -⟩ := handed.exhausted rfl
  exact Nat.le_trans full (sound.length_le_loans marked)

end

end ParserPool

end UrlScan
