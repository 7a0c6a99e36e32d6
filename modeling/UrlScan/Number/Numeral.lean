import UrlScan.Number.Binary64
import UrlScan.Text.Integer

/-!
# Decimal numerals

A numeral of a binary number has an optional sign, digits of any script with at most one point
among them, and an optional exponent behind the letter e; or it is one of the words for infinity and
for no number. White space may stand around it.
-/

namespace UrlScan.Binary64

def ofDigits (t : Text) : Nat :=
  Text.ofDigitValues (t.filterMap Text.digitValue?)

/-- The sign of a numeral, and what follows it. -/
def signOf : Text → Bool × Text
  | '-' :: rest => (true, rest)
  | '+' :: rest => (false, rest)
  | rest => (false, rest)

/-- The exponent at the end of a numeral; zero when there is none. -/
def exponent? : Text → Option Int
  | [] => some 0
  | c :: rest =>
    let (negative, digits) := signOf rest
    if (c == 'e' || c == 'E') && !digits.isEmpty && digits.all Text.isDecimalDigit then
      let magnitude : Int := ofDigits digits
      some (if negative then -magnitude else magnitude)
    else none

/-- The number of an unsigned numeral in digits, with a sign. -/
def ofUnsigned? (negative : Bool) (t : Text) : Option Binary64 :=
  let whole := t.takeWhile Text.isDecimalDigit
  let rest := t.dropWhile Text.isDecimalDigit
  let behind := if rest.head? = some '.' then rest.drop 1 else []
  let fraction := behind.takeWhile Text.isDecimalDigit
  let rest := if rest.head? = some '.' then behind.dropWhile Text.isDecimalDigit else rest
  if (whole ++ fraction).isEmpty then none
  else
    (exponent? rest).map fun exponent =>
      ofDecimal negative (ofDigits (whole ++ fraction)) (exponent - fraction.length)

def ofNumeral? (t : Text) : Option Binary64 :=
  let (negative, magnitude) := signOf (Text.trimBoth Text.isLiteralBlank t)
  let word := String.ofList (magnitude.map Char.toLower)
  if word == "inf" || word == "infinity" then some (.infinite negative)
  else if word == "nan" then some .notANumber
  else ofUnsigned? negative magnitude

end UrlScan.Binary64
