import UrlScan.Text.Blank
import UrlScan.Text.DecimalDigit

/-!
# Whole numbers as text

An integer literal is an optional sign and decimal digits of any script, with single underscores
between digits and white space around the whole. A literal of more than `maxIntegerDigits` digits
is refused.

A whole number is written in its decimal digits. How many digits a number may have that is written
is limited, too, unless the limit is lifted.
-/

namespace UrlScan.Text

/-- The greatest number of digits of a literal, leading zeros included, and of a number that is
written. -/
def maxIntegerDigits : Nat := 4300

/-- The blanks that may surround a literal: white space without the ASCII information
separators. -/
def isLiteralBlank (c : Char) : Bool :=
  isBlank c && !(0x1C ≤ c.toNat && c.toNat ≤ 0x1F)

/-- The values of the digits of a numeral whose digits may be separated by single underscores. -/
def digitValues? : Text → Option (List Nat)
  | [] => none
  | [c] => (digitValue? c).map ([·])
  | c :: '_' :: rest => do
    let value ← digitValue? c
    let values ← digitValues? rest
    return value :: values
  | c :: rest => do
    let value ← digitValue? c
    let values ← digitValues? rest
    return value :: values

/-- The number written by decimal digits, the most significant first. -/
def ofDigitValues (values : List Nat) : Nat :=
  values.foldl (fun n value => 10 * n + value) 0

/-- The natural number that an unsigned numeral stands for. -/
def natural? (t : Text) : Option Nat :=
  match digitValues? t with
  | none => none
  | some values => if values.length ≤ maxIntegerDigits then some (ofDigitValues values) else none

/-- The integer that a literal stands for. -/
def integer? (t : Text) : Option Int :=
  match trimBoth isLiteralBlank t with
  | '-' :: rest => (natural? rest).map fun n => -(n : Int)
  | '+' :: rest => (natural? rest).map Int.ofNat
  | rest => (natural? rest).map Int.ofNat

/-! ## Writing -/

/-- A number has more digits than may be written. -/
structure TooManyDigits where
  limit : Nat
deriving DecidableEq, Repr

def TooManyDigits.message (e : TooManyDigits) : String :=
  "Exceeds the limit (" ++ toString e.limit ++ " digits) for integer string conversion; "
    ++ "use sys.set_int_max_str_digits() to increase the limit"

/-- The number of digits that a whole number is written in. The sign is none of them. -/
def digitCount (n : Int) : Nat :=
  (Nat.toDigits 10 n.natAbs).length

/-- The limit that holds unless it is lifted. -/
def digitLimit : Option Nat := some maxIntegerDigits

/-- The text of a whole number, if it has no more digits than the limit allows. -/
def ofInt (limit : Option Nat) (n : Int) : Except TooManyDigits Text :=
  match limit with
  | none => .ok (decimal n)
  | some limit => if digitCount n ≤ limit then .ok (decimal n) else .error ⟨limit⟩

end UrlScan.Text
