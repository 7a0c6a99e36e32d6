import UrlScan.Text.Basic

/-!
# Admission of files

A batch of files is scanned a few at a time. At the start as many files are admitted as may be in
flight together; whenever one of them settles, its outcome is recorded under its number in the batch
and the next waiting file is admitted. When the batch is to end with the first failure, no file is
admitted any more once a failure is recorded, and the files in flight still settle.

Files may settle in any order; `settle` takes the position of the one that does. Each settlement
lowers the `weight` of the batch (`weight_settle_lt`), so every order of settlements comes to an
end.
-/

namespace UrlScan

/-- A batch of files on its way through a scan. -/
structure Admission (α ε : Type) where
  /-- The files that are not admitted yet, with their numbers. -/
  waiting : List (Nat × Text)
  /-- The admitted files that have not settled, with their numbers. -/
  inFlight : List (Nat × Text)
  /-- The results, in the order of settlement, with the numbers of their files. -/
  completed : List (Nat × α)
  /-- The failures, in the order of settlement, with the numbers of their files. -/
  failures : List (Nat × ε)

namespace Admission

variable {α ε : Type}

def numbered (files : List Text) : List (Nat × Text) :=
  files.zipIdx.map fun (file, number) => (number, file)

/-- The batch at its start, with as many files in flight as `concurrency` allows. -/
def start (concurrency : Nat) (files : List Text) : Admission α ε :=
  ⟨(numbered files).drop concurrency, (numbered files).take concurrency, [], []⟩

def admitNext (s : Admission α ε) : Admission α ε :=
  match s.waiting with
  | [] => s
  | next :: rest => { s with waiting := rest, inFlight := s.inFlight ++ [next] }

def record (s : Admission α ε) (number : Nat) : Except ε α → Admission α ε
  | .ok result => { s with completed := s.completed ++ [(number, result)] }
  | .error e => { s with failures := s.failures ++ [(number, e)] }

/-- Whether files are still admitted. -/
def isOpen (failFast : Bool) (s : Admission α ε) : Bool :=
  !failFast || s.failures.isEmpty

/-- The file at a position among those in flight settles with an outcome. -/
def settle (failFast : Bool) (position : Nat) (outcome : Except ε α) (s : Admission α ε) :
    Admission α ε :=
  match s.inFlight[position]? with
  | none => s
  | some (number, _) =>
    let s := { s with inFlight := s.inFlight.eraseIdx position }.record number outcome
    if s.isOpen failFast then s.admitNext else s

/-- A waiting file will be admitted and will settle; a file in flight will settle. -/
def weight (s : Admission α ε) : Nat :=
  2 * s.waiting.length + s.inFlight.length

theorem weight_admitNext_le (s : Admission α ε) : s.admitNext.weight ≤ s.weight := by
  unfold admitNext
  split
  next => exact Nat.le_refl _
  next next rest found =>
    simp only [weight, found, List.length_append, List.length_cons, List.length_nil]
    omega

theorem weight_record (s : Admission α ε) (number : Nat) (outcome : Except ε α) :
    (s.record number outcome).weight = s.weight := by
  cases outcome <;> rfl

/-- A settlement lowers the weight. -/
theorem weight_settle_lt (failFast : Bool) {position : Nat} (outcome : Except ε α)
    {s : Admission α ε} (present : position < s.inFlight.length) :
    (s.settle failFast position outcome).weight < s.weight := by
  have erased : ({ s with inFlight := s.inFlight.eraseIdx position } : Admission α ε).weight
      < s.weight := by
    simp only [weight, List.length_eraseIdx_of_lt present]
    omega
  unfold settle
  rw [List.getElem?_eq_getElem present]
  dsimp only
  split
  next =>
    refine Nat.lt_of_le_of_lt (weight_admitNext_le _) ?_
    rw [weight_record]
    exact erased
  next =>
    rw [weight_record]
    exact erased

/-- What is recorded, in the order of the batch. -/
def inOrder {β : Type} (recorded : List (Nat × β)) : List β :=
  (recorded.mergeSort fun a b => a.1 ≤ b.1).map (·.2)

def firstFailure? (s : Admission α ε) : Option ε :=
  s.failures.head?.map (·.2)

end Admission

end UrlScan
