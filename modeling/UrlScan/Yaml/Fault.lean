import UrlScan.Calendar
import UrlScan.Text.Integer
import UrlScan.Text.Quoted

/-!
# Faults of YAML texts

A text is malformed when it breaks the rules of YAML or uses what this library does not know. A text
that keeps the rules may still have a scalar whose spelling promises a value that does not exist,
such as the 31st of April; the fault then tells what is wrong with that scalar.
-/

namespace UrlScan.Yaml

/-- Why a scalar has no value. -/
inductive ScalarFault
  | calendar (fault : CalendarFault)
  /-- A whole number has more digits than are read. -/
  | tooManyDigits (count : Nat)
  | notInteger (base : Nat) (t : Text)
  | notReal (t : Text)
  /-- A code is greater than that of every character. -/
  | notCharacter
  /-- There is nothing where a number is announced. -/
  | noNumber
  | notFlag
  | notMoment
deriving DecidableEq, Repr

def ScalarFault.message : ScalarFault → String
  | calendar fault => fault.message
  | tooManyDigits count =>
    "Exceeds the limit (" ++ toString Text.maxIntegerDigits
      ++ " digits) for integer string conversion: value has " ++ toString count
      ++ " digits; use sys.set_int_max_str_digits() to increase the limit"
  | notInteger base t =>
    "invalid literal for int() with base " ++ toString base ++ ": " ++ String.ofList (Text.quote t)
  | notReal t => "could not convert string to float: " ++ String.ofList (Text.quote t)
  | notCharacter => "chr() arg not in range(0x110000)"
  | noNumber => "string index out of range"
  | notFlag => "not a flag"
  | notMoment => "not a date"

inductive Fault
  | malformed
  | scalar (fault : ScalarFault)
deriving DecidableEq, Repr

end UrlScan.Yaml
