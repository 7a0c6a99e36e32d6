import UrlScan.Number.Digits
import UrlScan.Number.Numeral
import UrlScan.Settings.Value
import UrlScan.Text.LetterCase
import UrlScan.Yaml.Cursor
import UrlScan.Yaml.Fault

/-!
# What a spelling stands for

A node has a tag, which says what kind of value it has. The tag of a plain scalar is found from its
spelling, and the value of a scalar from its tag and its spelling.

* Whole numbers are decimal, octal after `0`, hexadecimal after `0x`, binary after `0b`, or have
  parts to the base 60 between colons; underscores behind the first digit do not count.
* Numbers with a point may have an exponent, whose sign is always written, or parts to the base 60
  in front of the one with the point; further spellings stand for the infinities and for no number.
* Dates have four digits, two and two; a moment is a date with a time behind it.
-/

namespace UrlScan.Yaml

/-- The kinds of nodes. -/
inductive Tag
  | null
  | flag
  | integer
  | real
  | moment
  | text
  | list
  | mapping
  /-- The key whose value is merged into a mapping. -/
  | merge
  /-- The key for the value of a mapping itself. -/
  | default
  | other
deriving DecidableEq, Repr

def standardTags : Text := "tag:yaml.org,2002:".toList

def tagNames : List (String × Tag) :=
  [("null", .null), ("bool", .flag), ("int", .integer), ("float", .real), ("timestamp", .moment),
   ("str", .text), ("seq", .list), ("map", .mapping)]

def Tag.ofName (name : Text) : Tag :=
  ((tagNames.find? fun entry => standardTags ++ entry.1.toList == name).map (·.2)).getD .other

/-! ## Spellings of plain scalars -/

def nullSpellings : List String :=
  ["~", "null", "Null", "NULL", ""]

/-- The words for a flag in lower case, with the flag. -/
def flagWords : List (String × Bool) :=
  [("yes", true), ("no", false), ("true", true), ("false", false), ("on", true), ("off", false)]

/-- The spellings of a flag: a word in lower case, in upper case, or with a capital. -/
def flagSpellings : List Text :=
  flagWords.flatMap fun (word, _) => [word.toList, word.toUpper.toList, word.capitalize.toList]

/-- What follows the sign of a number, if there is one. -/
def unsigned : Text → Text
  | '-' :: rest | '+' :: rest => rest
  | t => t

/-- Whether a character is one of `digits` or an underscore. -/
def isOneOf (digits : String) (c : Char) : Bool :=
  c == '_' || digits.toList.contains c

/-- Whether a text is not empty and consists of characters satisfying `p`. -/
def allOf (p : Char → Bool) (t : Text) : Bool :=
  !t.isEmpty && t.all p

/-- Whether a text is a digit with digits and underscores behind it. -/
def isNumeral : Text → Bool
  | [] => false
  | c :: rest => c.isDigit && rest.all (isOneOf "0123456789")

/-- Whether a text is a part to the base 60: one or two digits, less than 60. -/
def isSixtieth (t : Text) : Bool :=
  allOf Char.isDigit t && (t.length == 1 || (t.length == 2 && t.head?.any (· < '6')))

def spellsInteger (t : Text) : Bool :=
  match unsigned t with
  | ['0'] => true
  | '0' :: 'b' :: rest => allOf (isOneOf "01") rest
  | '0' :: 'x' :: rest => allOf (isOneOf "0123456789abcdefABCDEF") rest
  | '0' :: rest => allOf (isOneOf "01234567") rest
  | magnitude =>
    match magnitude.splitOn ':' with
    | first :: parts => isNumeral first && parts.all isSixtieth
    | [] => false

/-- Whether a text is the exponent of a number, with its sign, or empty. -/
def isExponent : Text → Bool
  | [] => true
  | c :: sign :: digits =>
    (c == 'e' || c == 'E') && (sign == '-' || sign == '+') && allOf Char.isDigit digits
  | _ => false

/-- Whether a text, behind its point, ends a number with a point. -/
def isFraction (t : Text) : Bool :=
  isExponent (t.dropWhile (isOneOf "0123456789"))

def spellsReal (t : Text) : Bool :=
  if [".nan", ".NaN", ".NAN"].contains (String.ofList t) then true
  else if [".inf", ".Inf", ".INF"].contains (String.ofList (unsigned t)) then true
  else
    match t with
    | '.' :: fraction => fraction.head?.any Char.isDigit && isFraction fraction
    | _ =>
      match Text.cutFirst '.' (unsigned t) with
      | (_, none) => false
      | (whole, some fraction) =>
        match whole.splitOn ':' with
        | [] => false
        | [single] => isNumeral single && isFraction fraction
        | first :: parts =>
          isNumeral first && parts.all isSixtieth && fraction.all (isOneOf "0123456789")

/-! ## Spellings of dates and moments -/

structure TimeSpelling where
  hour : Text
  minute : Text
  second : Text
  fraction : Text
  /-- The offset from universal time in minutes. -/
  offset : Option Int
deriving DecidableEq, Repr

/-- The parts of a spelled date, with or without a time. -/
structure MomentSpelling where
  year : Text
  month : Text
  day : Text
  time : Option TimeSpelling
deriving DecidableEq, Repr

/-- The digits at the start of a text, between `least` and `most` of them, and the rest. -/
def digitsThen? (least most : Nat) (t : Text) : Option (Text × Text) :=
  let digits := (t.take most).takeWhile Char.isDigit
  if least ≤ digits.length then some (digits, t.drop digits.length) else none

/-- The rest of a text behind a character. -/
def behind? (c : Char) : Text → Option Text
  | [] => none
  | d :: rest => if d = c then some rest else none

def numberOf (t : Text) : Nat :=
  (digits? 10 t).getD 0

/-- The offset at the end of a moment: none, the letter `Z`, or a sign, hours and minutes. -/
def offset? (t : Text) : Option (Option Int) :=
  match t.dropWhile isBlank with
  | [] => if t.isEmpty then some none else none
  | ['Z'] => some (some 0)
  | sign :: rest => do
    guard (sign = '+' ∨ sign = '-')
    let (hours, rest) ← digitsThen? 1 2 rest
    let minutes ←
      match rest with
      | ':' :: rest =>
        match digitsThen? 2 2 rest with
        | some (minutes, []) => some minutes
        | _ => none
      | [] => some []
      | _ => none
    let span : Int := (60 * numberOf hours + numberOf minutes : Nat)
    return some (if sign = '-' then -span else span)

def time? (t : Text) : Option TimeSpelling := do
  let t ←
    match t with
    | 'T' :: rest | 't' :: rest => some rest
    | c :: _ => if isBlank c then some (t.dropWhile isBlank) else none
    | [] => none
  let (hour, t) ← digitsThen? 1 2 t
  let (minute, t) ← digitsThen? 2 2 (← behind? ':' t)
  let (second, t) ← digitsThen? 2 2 (← behind? ':' t)
  let (fraction, t) :=
    match t with
    | '.' :: rest => (rest.takeWhile Char.isDigit, rest.dropWhile Char.isDigit)
    | _ => ([], t)
  let offset ← offset? t
  return ⟨hour, minute, second, fraction, offset⟩

def moment? (t : Text) : Option MomentSpelling := do
  let (year, t) ← digitsThen? 4 4 t
  let (month, t) ← digitsThen? 1 2 (← behind? '-' t)
  let (day, t) ← digitsThen? 1 2 (← behind? '-' t)
  if t.isEmpty then return ⟨year, month, day, none⟩
  else return ⟨year, month, day, some (← time? t)⟩

/-- Whether a text spells a date or a moment. A date alone has two digits for month and day. -/
def spellsMoment (t : Text) : Bool :=
  (moment? t).any fun m => m.time.isSome || (m.month.length == 2 && m.day.length == 2)

/-- The tag that a plain scalar has by its spelling. -/
def Tag.ofSpelling (t : Text) : Tag :=
  if nullSpellings.contains (String.ofList t) then .null
  else if flagSpellings.contains t then .flag
  else if spellsReal t then .real
  else if spellsInteger t then .integer
  else if spellsMoment t then .moment
  else if t = ['<', '<'] then .merge
  else if t = ['='] then .default
  else .text

/-! ## Values of spellings -/

def decimalInteger (t : Text) : Except ScalarFault Int :=
  match Text.integer? t with
  | some n => .ok n
  | none =>
    match Text.digitValues? (unsigned t) with
    | some values => .error (.tooManyDigits values.length)
    | none => .error (.notInteger 10 t)

def baseInteger (base : Nat) (t : Text) : Except ScalarFault Int :=
  match digits? base t with
  | some n => .ok n
  | none => .error (.notInteger base t)

/-- The magnitude of a whole number, without underscores and sign. -/
def magnitude : Text → Except ScalarFault Int
  | [] => .error .noNumber
  | ['0'] => .ok 0
  | '0' :: 'b' :: rest => baseInteger 2 rest
  | '0' :: 'x' :: rest => baseInteger 16 rest
  | '0' :: rest => baseInteger 8 ('0' :: rest)
  | t => do
    let parts ← (t.splitOn ':').mapM decimalInteger
    return parts.foldl (fun sum part => 60 * sum + part) 0

def integerOf (t : Text) : Except ScalarFault Int := do
  let digits := t.filter (· != '_')
  let n ← magnitude (unsigned digits)
  return if digits.head? = some '-' then -n else n

def numeralOf (t : Text) : Except ScalarFault Binary64 :=
  match Binary64.ofNumeral? t with
  | some x => .ok x
  | none => .error (.notReal t)

/-- The sum of parts to the base 60, the last of which counts once. -/
def sumOfSixties (parts : List Binary64) : Binary64 :=
  let (sum, _) := parts.reverse.foldl
    (fun (sum, base) part => (sum.add (part.mul (.ofNat base)), 60 * base)) (.ofNat 0, 1)
  sum

def realOf (t : Text) : Except ScalarFault Binary64 := do
  let digits := Text.lowercase (t.filter (· != '_'))
  if digits.isEmpty then throw .noNumber
  let rest := unsigned digits
  let x ←
    if rest = ".inf".toList then pure (.infinite false)
    else if rest = ".nan".toList then pure .notANumber
    else if rest.contains ':' then ((rest.splitOn ':').mapM numeralOf).map sumOfSixties
    else numeralOf rest
  return if digits.head? = some '-' then x.negate else x

def flagOf (t : Text) : Except ScalarFault Bool :=
  match flagWords.lookup (String.ofList (Text.lowercase t)) with
  | some b => .ok b
  | none => .error .notFlag

/-- The microseconds of the digits behind the point. -/
def microsecondsOf (fraction : Text) : Nat :=
  numberOf ((fraction ++ List.replicate 6 '0').take 6)

def momentOf (t : Text) : Except ScalarFault Scalar :=
  match moment? t with
  | none => .error .notMoment
  | some m =>
    let made : Except CalendarFault Scalar :=
      match m.time with
      | none => (Date.ofParts (numberOf m.year) (numberOf m.month) (numberOf m.day)).map .date
      | some time =>
        (Moment.ofParts (numberOf m.year) (numberOf m.month) (numberOf m.day) (numberOf time.hour)
          (numberOf time.minute) (numberOf time.second) (microsecondsOf time.fraction)
          time.offset).map .moment
    made.mapError .calendar

def scalarOf (tag : Tag) (t : Text) : Except Fault Scalar :=
  let made : Except ScalarFault (Option Scalar) :=
    match tag with
    | .null => .ok (some .null)
    | .flag => (flagOf t).map fun b => some (.flag b)
    | .integer => (integerOf t).map fun n => some (.number n)
    | .real => (realOf t).map fun x => some (.real x)
    | .moment => (momentOf t).map some
    | .text => .ok (some (.text t))
    | .list | .mapping | .merge | .default | .other => .ok none
  match made with
  | .ok (some s) => .ok s
  | .ok none => .error .malformed
  | .error fault => .error (.scalar fault)

end UrlScan.Yaml
