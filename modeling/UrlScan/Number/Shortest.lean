import UrlScan.Number.Binary64
import UrlScan.Text.Basic

/-!
# Shortest decimals

A binary number is written as the shortest decimal that is read back as the same number, and as the
nearest of these when there are several. All decimals between the two midpoints to the neighbouring
numbers are read back so, and the midpoints themselves when the mantissa is even.

The search goes through the numbers of digits. For each of them only the two decimals next to the
number can be the answer, one on either side.
-/

namespace UrlScan

structure Decimal where
  digits : Nat
  exponent : Int
deriving DecidableEq, Repr

structure Quotient where
  dividend : Nat
  divisor : Nat
deriving DecidableEq, Repr

namespace Quotient

def less (p q : Quotient) : Bool :=
  p.dividend * q.divisor < q.dividend * p.divisor

/-- Whether a quotient lies between two others, which count as between when `closed`. -/
def isBetween (q low high : Quotient) (closed : Bool) : Bool :=
  if closed then !q.less low && !high.less q else low.less q && q.less high

/-- The multiple `n * base ^ exponent`. -/
def ofPower (base n : Nat) (exponent : Int) : Quotient :=
  if 0 ≤ exponent then ⟨n * Nat.pow base exponent.toNat, 1⟩
  else ⟨n, Nat.pow base (-exponent).toNat⟩

/-- The power of ten that is the least one above a quotient that is not zero. -/
def magnitude (q : Quotient) : Int :=
  if q.divisor ≤ q.dividend then (toString (q.dividend / q.divisor)).length
  else 1 - ((toString ((q.divisor - 1) / q.dividend)).length : Int)

end Quotient

namespace Decimal

def quotient (d : Decimal) : Quotient :=
  .ofPower 10 d.digits d.exponent

/-- The greatest number of digits that is ever needed. -/
def maxDigits : Nat := 17

/-- The decimal on a grid, among the two next to `value`, that `fits`; the nearer one when both do,
and the even one when they are equally near. -/
def onGrid? (value : Quotient) (fits : Decimal → Bool) (exponent : Int) : Option Decimal :=
  let unit := Quotient.ofPower 10 1 exponent
  let dividend := value.dividend * unit.divisor
  let divisor := value.divisor * unit.dividend
  let below : Decimal := ⟨dividend / divisor, exponent⟩
  let above : Decimal := ⟨dividend / divisor + 1, exponent⟩
  match fits below, fits above with
  | true, true => some ⟨Binary64.nearest dividend divisor, exponent⟩
  | true, false => some below
  | false, true => some above
  | false, false => none

/-- The shortest decimal for `mantissa * 2 ^ exponent`, a number that is not zero. -/
def shortest (mantissa : Nat) (exponent : Int) : Decimal :=
  let point (quarters : Nat) : Quotient := .ofPower 2 quarters (exponent - 2)
  let value := point (4 * mantissa)
  let isPower :=
    mantissa == Binary64.leastFull && Binary64.minExponent < exponent
  let low := point (4 * mantissa - if isPower then 1 else 2)
  let high := point (4 * mantissa + 2)
  let fits (d : Decimal) : Bool := d.quotient.isBetween low high (mantissa % 2 == 0)
  let magnitude := value.magnitude
  let found := (List.range maxDigits).findSome? fun n =>
    onGrid? value fits (magnitude - (n + 1 : Nat))
  found.getD ⟨Binary64.nearest value.dividend value.divisor, 0⟩

/-- The number of digits in front of the point up to which a decimal is written without exponent. -/
def positionalDigits : Int := 16

/-- The number of zeros behind the point up to which a decimal is written without exponent. -/
def positionalZeros : Int := 3

/-- The exponent of ten: a sign and at least two digits. -/
def exponentText (exponent : Int) : Text :=
  let digits := Text.ofNat exponent.natAbs
  'e' :: (if exponent < 0 then '-' else '+') :: List.replicate (2 - digits.length) '0' ++ digits

/-- A decimal as it is shown: with a point and a digit on both sides of it, or with one digit in
front of the point and an exponent when it is very large or very small. -/
def display (d : Decimal) : Text :=
  let all := Text.ofNat d.digits
  let digits := Text.trimEnd (· == '0') all
  let point : Int := d.exponent + all.length
  if point ≤ -positionalZeros - 1 || positionalDigits < point then
    let fraction := digits.drop 1
    digits.take 1 ++ (if fraction.isEmpty then [] else '.' :: fraction) ++ exponentText (point - 1)
  else if point ≤ 0 then '0' :: '.' :: List.replicate (-point).toNat '0' ++ digits
  else
    let whole := digits.take point.toNat
    let fraction := digits.drop point.toNat
    whole ++ List.replicate (point.toNat - whole.length) '0'
      ++ '.' :: (if fraction.isEmpty then ['0'] else fraction)

end Decimal

def Binary64.display : Binary64 → Text
  | finite negative mantissa exponent =>
    (if negative then ['-'] else []) ++
      if mantissa = 0 then "0.0".toList else (Decimal.shortest mantissa exponent).display
  | infinite negative => (if negative then ['-'] else []) ++ "inf".toList
  | notANumber => "nan".toList

end UrlScan
