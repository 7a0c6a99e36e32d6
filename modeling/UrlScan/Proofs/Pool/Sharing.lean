import Mathlib.Logic.Relation
import UrlScan.Language.BuiltIn
import UrlScan.Proofs.Pool.Loans

/-!
# Who holds a parser that is handed out again

Callers take parsers from a pool and give back, in any order, what they have taken. A ledger keeps
the pool together with the loans that are open: who holds which parser.

When the bucket of a language is full and all its entries are in use, its first parser is shared.
Sharing leaves one mark for several holders, and the first of them who gives the parser back takes
the mark away. From then on the parser counts as free although it is on loan, and the next caller
gets it without any sign of sharing, even when another parser of the bucket is held by nobody
(`lent_again_unshared`).

Results:
1. `sound_of_reachable`: the marks of the pool agree with the loans in every reachable ledger.
2. `returnedEarly_of_unmarked`: a parser that is on loan without a mark was given back by one holder
   while another one went on holding it.
3. `lent_again`: a parser that is on loan is handed out again only when it is shared, or after it
   was given back like that.
-/

namespace UrlScan

/-- A parser that a caller has taken and has not given back. -/
structure Loan where
  holder : Nat
  language : Text
  serial : Nat
deriving DecidableEq, Repr

/-- A pool and the loans that are open, the latest one first. -/
structure Ledger where
  pool : ParserPool
  loans : List Loan

namespace Ledger

/-- The ledger of a pool without parsers. -/
def opened (capacity : Nat) (capacity_pos : 0 < capacity) : Ledger :=
  ⟨.ofCapacity capacity capacity_pos, []⟩

/-- A caller takes a parser, if one can be had. -/
def take (ledger : Ledger) (holder : Nat) (language : Text) (grammar : Grammar) : Ledger :=
  let taken := ledger.pool.acquire language grammar
  match taken.parser with
  | .ok parser => ⟨taken.pool, ⟨holder, language, parser.serial⟩ :: ledger.loans⟩
  | .error _ => ⟨taken.pool, ledger.loans⟩

/-- The caller with the loan at a position gives the parser back. -/
def giveBack (ledger : Ledger) (position : Nat) : Ledger :=
  match ledger.loans[position]? with
  | some loan =>
    ⟨ledger.pool.release loan.language loan.serial, ledger.loans.eraseIdx position⟩
  | none => ledger

/-- The steps of the callers: each of them may take a parser at any time, and give back what it has
taken, once. -/
inductive Step : Ledger → Ledger → Prop
  | take (ledger : Ledger) (holder : Nat) (language : Text) (grammar : Grammar) :
      Step ledger (ledger.take holder language grammar)
  | giveBack (ledger : Ledger) (position : Nat) {loan : Loan} :
      ledger.loans[position]? = some loan → Step ledger (ledger.giveBack position)

/-- The ledgers that the callers may reach with a pool of some capacity. -/
def Reachable (capacity : Nat) (capacity_pos : 0 < capacity) (ledger : Ledger) : Prop :=
  Relation.ReflTransGen Step (opened capacity capacity_pos) ledger

/-- In the step from `earlier` to `later` a caller gives back a parser that another loan is open
for, too. -/
structure ReturnsEarly (serial : Nat) (earlier later : Ledger) : Prop where
  gives_back : ∃ position loan, earlier.loans[position]? = some loan ∧ loan.serial = serial ∧
    later = earlier.giveBack position
  held_on : ∃ loan ∈ later.loans, loan.serial = serial

/-- Earlier in the run a caller gave back a parser while another one went on holding it. -/
def ReturnedEarly (capacity : Nat) (capacity_pos : 0 < capacity) (serial : Nat) (ledger : Ledger) :
    Prop :=
  ∃ earlier later, Reachable capacity capacity_pos earlier ∧ ReturnsEarly serial earlier later ∧
    Relation.ReflTransGen Step later ledger

/-! ## The marks of the pool and the open loans -/

/-- The parsers on loan. -/
def lent (ledger : Ledger) : Loans :=
  ledger.loans.map fun loan => (loan.language, loan.serial)

section
variable {ledger : Ledger} {capacity : Nat} {capacity_pos : 0 < capacity}

theorem one_le_holders_lent {serial : Nat} :
    1 ≤ ledger.lent.holders serial ↔ ∃ loan ∈ ledger.loans, loan.serial = serial := by
  simp only [ParserPool.one_le_holders, lent, List.mem_map, exists_exists_and_eq_and]

theorem take_cases (ledger : Ledger) (holder : Nat) (language : Text) (grammar : Grammar) :
    (∃ parser, (ledger.pool.acquire language grammar).parser = .ok parser ∧
      ledger.take holder language grammar = ⟨(ledger.pool.acquire language grammar).pool,
        ⟨holder, language, parser.serial⟩ :: ledger.loans⟩) ∨
    ∃ reason, (ledger.pool.acquire language grammar).parser = .error reason ∧
      ledger.take holder language grammar =
        ⟨(ledger.pool.acquire language grammar).pool, ledger.loans⟩ := by
  rw [take]
  cases (ledger.pool.acquire language grammar).parser with
  | ok parser => exact Or.inl ⟨parser, rfl, rfl⟩
  | error reason => exact Or.inr ⟨reason, rfl, rfl⟩

theorem giveBack_eq {position : Nat} {loan : Loan} (present : ledger.loans[position]? = some loan) :
    ledger.giveBack position =
      ⟨ledger.pool.release loan.language loan.serial, ledger.loans.eraseIdx position⟩ := by
  rw [giveBack, present]

/-- The marks agree with the open loans after every step. -/
theorem sound_step {ledger' : Ledger} (sound : ledger.pool.Sound ledger.lent)
    (step : Step ledger ledger') : ledger'.pool.Sound ledger'.lent := by
  cases step with
  | take holder language grammar =>
    rcases take_cases ledger holder language grammar with ⟨parser, taken, same⟩ | ⟨_, refused, same⟩
    · rw [same]
      exact sound.lend taken
    · rw [same]
      exact sound.refuse refused
  | giveBack position present =>
    rw [giveBack_eq present]
    have onLoan := sound.perm ((perm_cons_eraseIdx present).map _)
    exact onLoan.giveBack

theorem capacity_step {ledger' : Ledger} (step : Step ledger ledger') :
    ledger'.pool.capacity = ledger.pool.capacity := by
  cases step with
  | take holder language grammar =>
    rcases take_cases ledger holder language grammar with ⟨_, -, same⟩ | ⟨_, -, same⟩
    · rw [same]
      exact ParserPool.capacity_acquire ledger.pool language grammar
    · rw [same]
      exact ParserPool.capacity_acquire ledger.pool language grammar
  | giveBack position present =>
    rw [giveBack_eq present]
    exact (ParserPool.release_counters _ _ _).1

theorem sound_of_reachable (reachable : Reachable capacity capacity_pos ledger) :
    ledger.pool.Sound ledger.lent ∧ ledger.pool.capacity = capacity := by
  induction reachable with
  | refl => exact ⟨ParserPool.sound_empty capacity capacity_pos, rfl⟩
  | tail _ step ih => exact ⟨sound_step ih.1 step, (capacity_step step).trans ih.2⟩

/-- A parser that is on loan without a mark was given back early. -/
theorem returnedEarly_of_unmarked (reachable : Reachable capacity capacity_pos ledger)
    {language : Text} {serial : Nat} (inBucket : serial ∈ ledger.pool.serials language)
    (unmarked : ¬ledger.pool.Marked language serial) (onLoan : 1 ≤ ledger.lent.holders serial) :
    ReturnedEarly capacity capacity_pos serial ledger := by
  -- Only a return takes a mark away; every other step leaves the parser unmarked and on loan.
  induction reachable generalizing language with
  | refl => exact absurd inBucket List.not_mem_nil
  | @tail before after reachable step ih =>
    obtain ⟨sound, -⟩ := sound_of_reachable reachable
    have earlier (inBucket : serial ∈ before.pool.serials language)
        (unmarked : ¬before.pool.Marked language serial)
        (onLoan : 1 ≤ before.lent.holders serial) :
        ReturnedEarly capacity capacity_pos serial after := by
      obtain ⟨first, second, reachable', returns, run⟩ := ih inBucket unmarked onLoan
      exact ⟨first, second, reachable', returns, run.tail step⟩
    cases step with
    | take holder wanted grammar =>
      rcases take_cases before holder wanted grammar with ⟨parser, taken, same⟩ | ⟨_, refused, same⟩
      · rw [same] at inBucket unmarked onLoan
        have handed := sound.registered.handed taken
        rw [handed.marked_iff, not_or] at unmarked
        have present := ((handed.mem_iff language serial).mp inBucket).resolve_right unmarked.2
        have other : parser.serial ≠ serial := by
          rintro rfl
          exact unmarked.2 ⟨handed.eq_language sound.registered present, rfl⟩
        rw [lent, List.map_cons, ParserPool.holders_cons, if_neg other] at onLoan
        exact earlier present unmarked.1 onLoan
      · rw [same, (ParserPool.refused_eq refused).2] at inBucket unmarked
        rw [same] at onLoan
        rw [ParserPool.serials_setBucket_self] at inBucket
        rw [ParserPool.marked_setBucket_self_iff] at unmarked
        exact earlier inBucket unmarked onLoan
    | @giveBack position loan present =>
      have heldOn := one_le_holders_lent.mp onLoan
      by_cases returned : loan.serial = serial
      · exact ⟨before, before.giveBack position, reachable,
          ⟨⟨position, loan, present, returned, rfl⟩, heldOn⟩, .refl⟩
      · rw [giveBack_eq present] at inBucket unmarked heldOn
        rw [ParserPool.serials_release] at inBucket
        rw [ParserPool.marked_release_iff (sound.distinct loan.language)] at unmarked
        refine earlier inBucket (fun marked => unmarked ⟨marked, fun freed => ?_⟩) ?_
        · exact returned freed.2.symm
        · obtain ⟨other, member, same⟩ := heldOn
          exact one_le_holders_lent.mpr ⟨other, List.mem_of_mem_eraseIdx member, same⟩

/-! ## Parsers that are handed out again -/

/-- When a parser that is on loan is handed out again, it is the first one of its bucket. Either the
bucket is full, every parser in it is on loan, and the sharing is counted; or the pool had to share
a parser before, and a caller gave this one back while another one went on holding it. -/
theorem lent_again (reachable : Reachable capacity capacity_pos ledger) {language : Text}
    {grammar : Grammar} {parser : PooledParser}
    (taken : (ledger.pool.acquire language grammar).parser = .ok parser) {loan : Loan}
    (onLoan : loan ∈ ledger.loans) (sameParser : loan.serial = parser.serial) :
    (ledger.pool.serials language).head? = some parser.serial ∧
    ((ledger.pool.acquire language grammar).shared = true ∧
        ledger.pool.size language = capacity ∧
        (∀ entry ∈ ledger.pool.bucket language, ∃ other ∈ ledger.loans,
          other.language = language ∧ other.serial = entry.parser.serial) ∧
        (ledger.pool.acquire language grammar).pool.overflows = ledger.pool.overflows + 1 ∨
      (ledger.pool.acquire language grammar).shared = false ∧
        (ledger.pool.acquire language grammar).pool.overflows = ledger.pool.overflows ∧
        0 < ledger.pool.overflows ∧
        ReturnedEarly capacity capacity_pos parser.serial ledger) := by
  obtain ⟨sound, hasCapacity⟩ := sound_of_reachable reachable
  have handed := sound.registered.handed taken
  have held : 1 ≤ ledger.lent.holders parser.serial :=
    one_le_holders_lent.mpr ⟨loan, onLoan, sameParser⟩
  cases shared : (ledger.pool.acquire language grammar).shared with
  | true =>
    obtain ⟨isFirst, full, marked, counted⟩ := handed.exhausted shared
    refine ⟨isFirst, Or.inl ⟨rfl, ?_, fun entry member => ?_, counted⟩⟩
    · have atMost := sound.size_le language
      rw [ParserPool.length_serials, hasCapacity] at atMost full
      exact Nat.le_antisymm atMost full
    · have isMarked := marked _ (ParserPool.mem_serials.mpr ⟨entry, member, rfl⟩)
      obtain ⟨other, isOpen, same⟩ := List.mem_map.mp (sound.marked_lent language _ isMarked)
      exact ⟨other, isOpen, congrArg Prod.fst same, congrArg Prod.snd same⟩
  | false =>
    obtain ⟨unmarked, notCounted⟩ := handed.unmarked shared
    have inBucket : parser.serial ∈ ledger.pool.serials language := by
      have present := sound.lent_mem (loan.language, loan.serial) (List.mem_map_of_mem onLoan)
      dsimp only at present
      rw [sameParser] at present
      rwa [handed.eq_language sound.registered present] at present
    -- On loan and not marked, the parser is none of those that are exclusive.
    have notAlone : ¬((ledger.pool.serials language).head? ≠ some parser.serial ∨
        ledger.pool.overflows = 0) := fun alone =>
      unmarked ((sound.exclusive language parser.serial inBucket alone).2 held)
    rw [not_or, not_not] at notAlone
    exact ⟨notAlone.1, Or.inr ⟨rfl, notCounted, Nat.pos_of_ne_zero notAlone.2,
      returnedEarly_of_unmarked reachable inBucket unmarked held⟩⟩

end

/-- The theorem for a pool with room for one parser: one caller holds it, and the next one shares
it. -/
theorem lent_again_one :
    ∃ (grammar : Grammar) (ledger : Ledger) (parser : PooledParser) (loan : Loan),
      Reachable 1 Nat.one_pos ledger ∧
      (ledger.pool.acquire "c".toList grammar).parser = .ok parser ∧
      loan ∈ ledger.loans ∧ loan.serial = parser.serial ∧
      (ledger.pool.serials "c".toList).head? = some parser.serial ∧
      ((ledger.pool.acquire "c".toList grammar).shared = true ∧
          ledger.pool.size "c".toList = 1 ∧
          (∀ entry ∈ ledger.pool.bucket "c".toList, ∃ other ∈ ledger.loans,
            other.language = "c".toList ∧ other.serial = entry.parser.serial) ∧
          (ledger.pool.acquire "c".toList grammar).pool.overflows = ledger.pool.overflows + 1 ∨
        (ledger.pool.acquire "c".toList grammar).shared = false ∧
          (ledger.pool.acquire "c".toList grammar).pool.overflows = ledger.pool.overflows ∧
          0 < ledger.pool.overflows ∧
          ReturnedEarly 1 Nat.one_pos parser.serial ledger) := by
  let grammar : Grammar :=
    ⟨0, .builtIn "c" "C" [".c"] [] ["string"] ["comment"], .registered, .sketch⟩
  let ledger := (opened 1 Nat.one_pos).take 0 "c".toList grammar
  have reachable : Reachable 1 Nat.one_pos ledger := .single (.take _ _ _ _)
  have taken : (ledger.pool.acquire "c".toList grammar).parser = .ok ⟨0, grammar⟩ := rfl
  have onLoan : (⟨0, "c".toList, 0⟩ : Loan) ∈ ledger.loans := List.mem_cons_self
  exact ⟨grammar, ledger, ⟨0, grammar⟩, ⟨0, "c".toList, 0⟩, reachable, taken, onLoan, rfl,
    lent_again reachable taken onLoan rfl⟩

/-- Three callers take a parser from a pool with room for two, so the first and the third share one.
The first two give theirs back. The next caller is handed the parser that the third one holds,
although the other parser is held by nobody, and no sharing is counted. -/
theorem lent_again_unshared :
    ∃ (grammar : Grammar) (ledger : Ledger), Reachable 2 Nat.two_pos ledger ∧
      ledger.loans = [⟨2, "c".toList, 0⟩] ∧
      ledger.pool.serials "c".toList = [0, 1] ∧
      (ledger.pool.acquire "c".toList grammar).parser = .ok ⟨0, grammar⟩ ∧
      (ledger.pool.acquire "c".toList grammar).shared = false ∧
      (ledger.pool.acquire "c".toList grammar).pool.overflows = ledger.pool.overflows := by
  let grammar : Grammar :=
    ⟨0, .builtIn "c" "C" [".c"] [] ["string"] ["comment"], .registered, .sketch⟩
  let entry (serial : Nat) (inUse : Bool) : PoolEntry := ⟨⟨serial, grammar⟩, inUse⟩
  let ledger (overflows created : Nat) (entries : List PoolEntry) (loans : List Loan) : Ledger :=
    ⟨⟨2, [("c".toList, entries)], overflows, created, Nat.two_pos⟩, loans⟩
  let loan (holder serial : Nat) : Loan := ⟨holder, "c".toList, serial⟩
  have first : Step (opened 2 Nat.two_pos) (ledger 0 1 [entry 0 true] [loan 0 0]) :=
    .take (opened 2 Nat.two_pos) 0 "c".toList grammar
  have second : Step (ledger 0 1 [entry 0 true] [loan 0 0])
      (ledger 0 2 [entry 0 true, entry 1 true] [loan 1 1, loan 0 0]) :=
    .take (ledger 0 1 [entry 0 true] [loan 0 0]) 1 "c".toList grammar
  have third : Step (ledger 0 2 [entry 0 true, entry 1 true] [loan 1 1, loan 0 0])
      (ledger 1 2 [entry 0 true, entry 1 true] [loan 2 0, loan 1 1, loan 0 0]) :=
    .take (ledger 0 2 [entry 0 true, entry 1 true] [loan 1 1, loan 0 0]) 2 "c".toList grammar
  have returnedFirst : Step (ledger 1 2 [entry 0 true, entry 1 true] [loan 2 0, loan 1 1, loan 0 0])
      (ledger 1 2 [entry 0 false, entry 1 true] [loan 2 0, loan 1 1]) :=
    .giveBack (ledger 1 2 [entry 0 true, entry 1 true] [loan 2 0, loan 1 1, loan 0 0]) 2 rfl
  have returnedSecond : Step (ledger 1 2 [entry 0 false, entry 1 true] [loan 2 0, loan 1 1])
      (ledger 1 2 [entry 0 false, entry 1 false] [loan 2 0]) :=
    .giveBack (ledger 1 2 [entry 0 false, entry 1 true] [loan 2 0, loan 1 1]) 1 rfl
  exact ⟨grammar, ledger 1 2 [entry 0 false, entry 1 false] [loan 2 0],
    ((((Relation.ReflTransGen.single first).tail second).tail third).tail returnedFirst).tail
      returnedSecond, rfl, rfl, rfl, rfl, rfl⟩

end Ledger

end UrlScan
