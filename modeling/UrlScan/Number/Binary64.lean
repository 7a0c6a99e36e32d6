/-!
# Binary numbers of double precision

A finite number of double precision is a mantissa of at most 53 bits times a power of two. Every
operation is carried out exactly on whole numbers and rounded once, to the nearest number of the
format and to the even mantissa when two are equally near.

* `Binary64.ofQuotient` rounds a quotient of whole numbers; the other operations are built on it.
* `Binary64.whole?` tells which numbers are whole, and which whole number each of them is.

A finite number has one representation: its mantissa has all 53 bits unless its exponent is the
least one. So two finite numbers are equal when their parts are, except that zero has a sign.
-/

namespace UrlScan

/-- A number of double precision. -/
inductive Binary64
  /-- The number `mantissa * 2 ^ exponent`, or its negative. -/
  | finite (negative : Bool) (mantissa : Nat) (exponent : Int)
  | infinite (negative : Bool)
  | notANumber
deriving DecidableEq, Repr

namespace Binary64

def precision : Nat := 53

def leastFull : Nat := Nat.pow 2 (precision - 1)

def minExponent : Int := -1074

def maxExponent : Int := 971

/-- The whole number nearest to a quotient; of two that are equally near, the even one. -/
def nearest (dividend divisor : Nat) : Nat :=
  let quotient := dividend / divisor
  let twice := 2 * (dividend % divisor)
  if twice < divisor || (twice == divisor && quotient % 2 == 0) then quotient else quotient + 1

/-- The quotient of two whole numbers divided by `2 ^ exponent`, as such a quotient. -/
def scale (dividend divisor : Nat) (exponent : Int) : Nat × Nat :=
  if 0 ≤ exponent then (dividend, divisor * Nat.pow 2 exponent.toNat)
  else (dividend * Nat.pow 2 (-exponent).toNat, divisor)

/-- The exponent at which a quotient that is not zero has a mantissa of 53 bits, unless that is less
than the least exponent. -/
def exponentOf (dividend divisor : Nat) : Int :=
  let guess : Int := (dividend.log2 : Int) - divisor.log2 - (precision - 1 : Nat)
  let (scaled, unit) := scale dividend divisor guess
  max minExponent (if scaled / unit < leastFull then guess - 1 else guess)

def ofParts (negative : Bool) (mantissa : Nat) (exponent : Int) : Binary64 :=
  if exponent ≤ maxExponent then .finite negative mantissa exponent else .infinite negative

/-- The number nearest to a quotient of whole numbers, with a sign. -/
def ofQuotient (negative : Bool) (dividend divisor : Nat) : Binary64 :=
  if dividend = 0 then .finite negative 0 minExponent
  else
    let exponent := exponentOf dividend divisor
    let (scaled, unit) := scale dividend divisor exponent
    let mantissa := nearest scaled unit
    if mantissa = 2 * leastFull then ofParts negative leastFull (exponent + 1)
    else ofParts negative mantissa exponent

/-- The number nearest to `mantissa * 2 ^ exponent`, with a sign. -/
def ofBinary (negative : Bool) (mantissa : Nat) (exponent : Int) : Binary64 :=
  let (dividend, divisor) := scale mantissa 1 (-exponent)
  ofQuotient negative dividend divisor

/-- A power of ten beyond which every number of the format is infinite, and below whose inverse
every number is zero. -/
def decimalLimit : Nat := 400

/-- The number nearest to `mantissa * 10 ^ exponent`, with a sign. -/
def ofDecimal (negative : Bool) (mantissa : Nat) (exponent : Int) : Binary64 :=
  let size : Int := exponent + (toString mantissa).length
  if mantissa = 0 || size < -decimalLimit then .finite negative 0 minExponent
  else if decimalLimit < size then .infinite negative
  else if 0 ≤ exponent then ofQuotient negative (mantissa * Nat.pow 10 exponent.toNat) 1
  else ofQuotient negative mantissa (Nat.pow 10 (-exponent).toNat)

def ofNat (n : Nat) : Binary64 :=
  ofQuotient false n 1

def isZero : Binary64 → Bool
  | finite _ mantissa _ => mantissa == 0
  | _ => false

def negate : Binary64 → Binary64
  | finite negative mantissa exponent => finite (!negative) mantissa exponent
  | infinite negative => infinite !negative
  | notANumber => notANumber

/-- The whole number that a number is. -/
def whole? : Binary64 → Option Int
  | finite negative mantissa exponent =>
    let (dividend, divisor) := scale mantissa 1 (-exponent)
    if dividend % divisor = 0 then
      let magnitude : Int := (dividend / divisor : Nat)
      some (if negative then -magnitude else magnitude)
    else none
  | _ => none

def mul : Binary64 → Binary64 → Binary64
  | finite s m e, finite t n f => ofBinary (s != t) (m * n) (e + f)
  | infinite s, finite t n _ => if n = 0 then notANumber else infinite (s != t)
  | finite s m _, infinite t => if m = 0 then notANumber else infinite (s != t)
  | infinite s, infinite t => infinite (s != t)
  | _, _ => notANumber

def add : Binary64 → Binary64 → Binary64
  | finite s m e, finite t n f =>
    let least := min e f
    let signed (negative : Bool) (mantissa : Nat) (exponent : Int) : Int :=
      let aligned : Int := (mantissa * Nat.pow 2 (exponent - least).toNat : Nat)
      if negative then -aligned else aligned
    let sum := signed s m e + signed t n f
    if sum = 0 then .finite (s && t) 0 minExponent
    else ofBinary (sum < 0) sum.natAbs least
  | infinite s, infinite t => if s = t then infinite s else notANumber
  | infinite s, finite _ _ _ => infinite s
  | finite _ _ _, infinite t => infinite t
  | _, _ => notANumber

end Binary64

end UrlScan
