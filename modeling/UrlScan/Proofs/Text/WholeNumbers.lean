import UrlScan.Proofs.Outcome
import UrlScan.Text.Integer

/-!
# Whole numbers that can be written

A number is written unless it has more digits than the limit allows (`Writable`), whatever its sign.
Without a limit every number is written.
-/

namespace UrlScan.Text

/-- A number has no more digits than the limit allows. -/
def Writable (limit : Option Nat) (n : Int) : Prop :=
  ∀ most ∈ limit, digitCount n ≤ most

variable {limit : Option Nat} {n : Int}

instance (limit : Option Nat) (n : Int) : Decidable (Writable limit n) :=
  inferInstanceAs (Decidable (∀ most ∈ limit, digitCount n ≤ most))

theorem writable_none (n : Int) : Writable none n :=
  fun _ member => absurd member (Option.not_mem_none _)

theorem ofInt_guarded (limit : Option Nat) (n : Int) :
    Guarded (ofInt limit n) (Writable limit n) (decimal n) ⟨limit.getD 0⟩ := by
  cases limit with
  | none => exact (guarded_ok _ _).of_iff (iff_of_true trivial (writable_none n))
  | some most =>
    have allowed : Writable (.some most) n ↔ digitCount n ≤ most := by simp [Writable]
    exact ⟨fun few => if_pos (allowed.mp few), fun many => if_neg (mt allowed.mpr many)⟩

end UrlScan.Text
