import UrlScan.Text.Basic

/-!
# Digits to a base

Whole numbers written with the digits from zero to nine and the letters from a to f in either case,
to a base of at most sixteen.
-/

namespace UrlScan

/-- The value of a digit to a base of at most sixteen. -/
def digitOf? (base : Nat) (c : Char) : Option Nat :=
  let value :=
    if c.isDigit then some (c.toNat - 48)
    else if 'a' ≤ c && c ≤ 'f' then some (c.toNat - 87)
    else if 'A' ≤ c && c ≤ 'F' then some (c.toNat - 55)
    else none
  value.filter (· < base)

def digits? (base : Nat) (t : Text) : Option Nat :=
  if t.isEmpty then none
  else (t.mapM (digitOf? base)).map fun values => values.foldl (fun n value => base * n + value) 0

end UrlScan
