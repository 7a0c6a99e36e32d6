import UrlScan.JsonValue

/-!
# Reading JSON

A text in JSON is a value with white space around it. Values are strings, numbers, arrays, objects,
and the literals `true`, `false` and `null`; white space may stand before and behind every value,
name, bracket, comma and colon. All of JSON is read here, also what this library never writes:
every escape, numbers with a fraction or an exponent, and white space of any amount.

A reader takes what it reads off the beginning of a text and returns the rest with it. When the
names of two members of an object are the same, the later member counts.

1. `string?`, `number?`: values without other values in them.
2. `items?`: the elements of an array or the members of an object.
3. `value?`: any value; `read?`: a text that is nothing but a value.
-/

namespace UrlScan

/-- What a text in JSON stands for. -/
inductive JsonDatum
  | null
  | flag (b : Bool)
  | integer (n : Int)
  /-- A number that is written with a fraction or an exponent: `digits` times ten to the power of
  `exponent`. -/
  | decimal (digits exponent : Int)
  | string (t : Text)
  | array (elements : List JsonDatum)
  | object (members : List (Text × JsonDatum))
deriving Repr

namespace JsonDatum

def isBlank (c : Char) : Bool :=
  c = ' ' || c = '\t' || c = '\n' || c = '\r'

def skipBlanks (t : Text) : Text :=
  t.dropWhile isBlank

/-! ## Strings -/

/-- The value of a hexadecimal digit, in either case. -/
def hexDigit? (c : Char) : Option Nat :=
  if c.isDigit then some (c.toNat - '0'.toNat)
  else if 'a' ≤ c && c ≤ 'f' then some (c.toNat - 'a'.toNat + 10)
  else if 'A' ≤ c && c ≤ 'F' then some (c.toNat - 'A'.toNat + 10)
  else none

/-- The code unit that four hexadecimal digits stand for. -/
def codeUnit? : Text → Option Nat
  | a :: b :: c :: d :: _ =>
    match hexDigit? a, hexDigit? b, hexDigit? c, hexDigit? d with
    | some a, some b, some c, some d => some (((a * 16 + b) * 16 + c) * 16 + d)
    | _, _, _, _ => none
  | _ => none

/-- The character that a high surrogate stands for together with the low one that follows. -/
def surrogatePair? (high : Nat) : Text → Option Char
  | '\\' :: 'u' :: rest =>
    match codeUnit? rest with
    | none => none
    | some low =>
      if 0xDC00 ≤ low ∧ low < 0xE000 then
        some (Char.ofNat (0x10000 + (high - 0xD800) * 0x400 + (low - 0xDC00)))
      else none
  | _ => none

/-- The letters that stand for a character behind a backslash, each with this character. -/
def escapes : List (Char × Char) :=
  [(Text.doubleQuote, Text.doubleQuote), ('\\', '\\'), ('/', '/'), ('b', '\x08'), ('f', '\x0C'),
   ('n', '\n'), ('r', '\r'), ('t', '\t')]

/-- The character that is written behind a backslash, and in how many characters. Code units are
written in four digits; a character beyond U+FFFF takes two of them, a high surrogate and a low one,
and a surrogate that is alone stands for no character. -/
def escape? : Text → Option (Char × Nat)
  | [] => none
  | letter :: rest =>
    if letter = 'u' then
      match codeUnit? rest with
      | none => none
      | some unit =>
        if 0xD800 ≤ unit ∧ unit < 0xDC00 then (surrogatePair? unit (rest.drop 4)).map (·, 11)
        else if 0xDC00 ≤ unit ∧ unit < 0xE000 then none
        else some (Char.ofNat unit, 5)
    else (escapes.lookup letter).map (·, 1)

/-- Puts a character before what was read. -/
def prepend (c : Char) (read : Text × Text) : Text × Text :=
  (c :: read.1, read.2)

/-- The content of a string, from behind the quotation mark at its beginning to the next one. -/
def string? : Text → Option (Text × Text)
  | [] => none
  | c :: rest =>
    if c = Text.doubleQuote then some ([], rest)
    else if c = '\\' then
      (escape? rest).bind fun (c, width) => (string? (rest.drop width)).map (prepend c)
    else if c.toNat < 0x20 then none
    else (string? rest).map (prepend c)
termination_by t => t.length
decreasing_by
  · simp only [List.length_drop, List.length_cons]
    omega
  · simp

/-! ## Numbers -/

/-- The digits at the beginning of a text, of which there must be some. -/
def digits? (t : Text) : Option (Text × Text) :=
  match t.takeWhile Char.isDigit with
  | [] => none
  | digits => some (digits, t.dropWhile Char.isDigit)

/-- The digits before a fraction: a zero alone, or digits of which the first is no zero. -/
def wholeDigits? : Text → Option (Text × Text)
  | [] => none
  | c :: rest => if c = '0' then some (['0'], rest) else digits? (c :: rest)

/-- The digits of a fraction; there are none without a point. -/
def fraction? : Text → Option (Text × Text)
  | [] => some ([], [])
  | c :: rest => if c = '.' then digits? rest else some ([], c :: rest)

def signed (negative : Bool) (n : Nat) : Int :=
  if negative then -n else n

/-- The exponent of a number, if it has one. -/
def exponent? : Text → Option (Option Int × Text)
  | [] => some (none, [])
  | c :: rest =>
    if c = 'e' || c = 'E' then
      let unsigned := if rest.head? = some '+' || rest.head? = some '-' then rest.tail else rest
      (digits? unsigned).map fun (digits, after) =>
        (some (signed (rest.head? = some '-') (Nat.ofDigitChars 10 digits 0)), after)
    else some (none, c :: rest)

/-- A number behind its sign. -/
def unsigned? (negative : Bool) (t : Text) : Option (JsonDatum × Text) :=
  match wholeDigits? t with
  | none => none
  | some (whole, t) =>
    match fraction? t with
    | none => none
    | some (fraction, t) =>
      match exponent? t with
      | none => none
      | some (exponent, t) =>
        let digits := signed negative (Nat.ofDigitChars 10 (whole ++ fraction) 0)
        match fraction, exponent with
        | [], none => some (.integer digits, t)
        | fraction, exponent => some (.decimal digits (exponent.getD 0 - fraction.length), t)

def number? (t : Text) : Option (JsonDatum × Text) :=
  if t.head? = some '-' then unsigned? true t.tail else unsigned? false t

/-! ## Arrays and objects -/

section
variable {α : Type} (closing : Char) (item? : Text → Option (α × Text))

/-- Items with commas between them, up to the closing bracket. The number of items that are read is
limited. -/
def items? : (limit : Nat) → Text → Option (List α × Text)
  | 0, _ => none
  | limit + 1, t =>
    match item? t with
    | none => none
    | some (item, t) =>
      match skipBlanks t with
      | [] => none
      | c :: rest =>
        if c = closing then some ([item], rest)
        else if c = ',' then
          (items? limit rest).map fun (others, rest) => (item :: others, rest)
        else none

/-- What stands between brackets, from behind the opening one: nothing, or items. -/
def between? (limit : Nat) (t : Text) : Option (List α × Text) :=
  match skipBlanks t with
  | [] => none
  | c :: rest => if c = closing then some ([], rest) else items? closing item? limit (c :: rest)

end

/-- A name, a colon and a value. -/
def member? (value? : Text → Option (JsonDatum × Text)) (t : Text) :
    Option ((Text × JsonDatum) × Text) :=
  match skipBlanks t with
  | [] => none
  | c :: rest =>
    if c = Text.doubleQuote then
      match string? rest with
      | none => none
      | some (name, rest) =>
        match skipBlanks rest with
        | [] => none
        | c :: rest =>
          if c = ':' then (value? rest).map fun (value, rest) => ((name, value), rest) else none
    else none

/-- Adds a member, or replaces the one of the same name. -/
def setMember (members : List (Text × JsonDatum)) (member : Text × JsonDatum) :
    List (Text × JsonDatum) :=
  match members with
  | [] => [member]
  | other :: rest =>
    if other.1 = member.1 then member :: rest else other :: setMember rest member

/-! ## Values -/

def literal? (letters : Text) (datum : JsonDatum) (t : Text) : Option (JsonDatum × Text) :=
  if Text.startsWith t letters then some (datum, t.drop letters.length) else none

/-- The value at the beginning of a text. Values are read that are nested as deeply as `limit`
says. -/
def value? : (limit : Nat) → Text → Option (JsonDatum × Text)
  | 0, _ => none
  | limit + 1, t =>
    match skipBlanks t with
    | [] => none
    | c :: rest =>
      if c = Text.doubleQuote then (string? rest).map fun (content, rest) => (.string content, rest)
      else if c = '[' then
        (between? ']' (value? limit) limit rest).map fun (elements, rest) => (.array elements, rest)
      else if c = '\x7b' then
        (between? '\x7d' (member? (value? limit)) limit rest).map fun (members, rest) =>
          (.object (members.foldl setMember []), rest)
      else if c = 't' then literal? "true".toList (.flag true) (c :: rest)
      else if c = 'f' then literal? "false".toList (.flag false) (c :: rest)
      else if c = 'n' then literal? "null".toList .null (c :: rest)
      else number? (c :: rest)

/-- Reads a text that is nothing but a value. No text has more items or deeper values than
characters. -/
def read? (t : Text) : Option JsonDatum :=
  match value? t.length t with
  | none => none
  | some (datum, rest) => if (skipBlanks rest).isEmpty then some datum else none

/-- White space, a fraction with an exponent, code units, and two members of the same name. -/
example : read? " [ 1.5e3 ,\"\\u00e9\\ud83d\\ude00\" , \x7b\"a\": null,\"a\":true\x7d ] ".toList =
    some (.array [.decimal 15 2, .string ['\u00e9', Char.ofNat 0x1F600],
      .object [("a".toList, .flag true)]]) := by
  cbv

end JsonDatum

end UrlScan
