import UrlScan.Text.Integer
import UrlScan.Text.Quoted

/-!
# JSON

JSON values with whole numbers, and how they are written: one member or element on a line, two
blanks deeper than its container, and nothing between the brackets of an empty container. Inside a
string only the double quotation mark, the backslash and the control characters below U+0020 are
escaped. A value is not written when a number in it has more digits than may be written.
-/

namespace UrlScan

/-- A JSON value. The members of an object are in the order in which they are written. -/
inductive JsonValue
  | number (n : Int)
  | string (t : Text)
  | array (elements : List JsonValue)
  | object (members : List (Text × JsonValue))
deriving Repr

namespace JsonValue

def escapeChar (c : Char) : Text :=
  if c = Text.doubleQuote || c = '\\' then ['\\', c]
  else if c = '\n' then ['\\', 'n']
  else if c = '\r' then ['\\', 'r']
  else if c = '\t' then ['\\', 't']
  else if c = '\x08' then ['\\', 'b']
  else if c = '\x0C' then ['\\', 'f']
  else if c.toNat < 0x20 then ['\\', 'u'] ++ Text.hexDigits 4 c.toNat
  else [c]

def renderString (t : Text) : Text :=
  Text.doubleQuote :: t.flatMap escapeChar ++ [Text.doubleQuote]

def newLine (depth : Nat) : Text :=
  '\n' :: List.replicate (2 * depth) ' '

section
variable (limit : Option Nat)

mutual
def renderAt (depth : Nat) : JsonValue → Except Text.TooManyDigits Text
  | number n => Text.ofInt limit n
  | string t => .ok (renderString t)
  | array [] => .ok ['[', ']']
  | array (element :: rest) => do
    let first ← renderAt (depth + 1) element
    let others ← renderElements (depth + 1) rest
    return '[' :: newLine (depth + 1) ++ first ++ others ++ newLine depth ++ [']']
  | object [] => .ok ['\x7b', '\x7d']
  | object ((name, value) :: rest) => do
    let first ← renderAt (depth + 1) value
    let others ← renderMembers (depth + 1) rest
    return '\x7b' :: newLine (depth + 1) ++ renderString name ++ [':', ' '] ++ first ++ others
      ++ newLine depth ++ ['\x7d']

/-- The further elements of an array, each behind a comma. -/
def renderElements (depth : Nat) : List JsonValue → Except Text.TooManyDigits Text
  | [] => .ok []
  | element :: rest => do
    let first ← renderAt depth element
    let others ← renderElements depth rest
    return ',' :: newLine depth ++ first ++ others

/-- The further members of an object, each behind a comma. -/
def renderMembers (depth : Nat) : List (Text × JsonValue) → Except Text.TooManyDigits Text
  | [] => .ok []
  | (name, value) :: rest => do
    let first ← renderAt depth value
    let others ← renderMembers depth rest
    return ',' :: newLine depth ++ renderString name ++ [':', ' '] ++ first ++ others
end

def render (v : JsonValue) : Except Text.TooManyDigits Text :=
  renderAt limit 0 v

end

end JsonValue

end UrlScan
