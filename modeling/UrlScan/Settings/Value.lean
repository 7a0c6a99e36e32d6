import UrlScan.Calendar
import UrlScan.Number.Shortest
import UrlScan.Text.Integer
import UrlScan.Text.Items
import UrlScan.Text.Quoted

/-!
# Configuration values

A configuration file, an environment variable and a caller all give values of the same shape:
scalars, lists and mappings whose keys are scalars in the order in which they were given. This file
says which values count as set, how a value is shown, how a value becomes a list of items, which
keys are the same, and how the values of two layers are merged.

A value cannot be shown when a whole number in it has more digits than may be written. There are
such numbers, since a number may be given in another base.
-/

namespace UrlScan

inductive Scalar
  | null
  | flag (b : Bool)
  | number (n : Int)
  | real (x : Binary64)
  | date (d : Date)
  | moment (m : Moment)
  | text (t : Text)
deriving DecidableEq, Repr

inductive Value
  | scalar (s : Scalar)
  | list (items : List Value)
  | mapping (entries : List (Scalar × Value))
deriving BEq, Inhabited, Repr

namespace Scalar

def display : Scalar → Except Text.TooManyDigits Text
  | null => .ok "None".toList
  | flag true => .ok "True".toList
  | flag false => .ok "False".toList
  | number n => Text.ofInt Text.digitLimit n
  | real x => .ok x.display
  | date d => .ok d.display
  | moment m => .ok m.display
  | text t => .ok t

def displayInside : Scalar → Except Text.TooManyDigits Text
  | text t => .ok (Text.quote t)
  | date d => .ok d.displayInside
  | moment m => .ok m.displayInside
  | s => s.display

/-- Whether a scalar counts as set. -/
def isSet : Scalar → Bool
  | null => false
  | flag b => b
  | number n => n != 0
  | real x => !x.isZero
  | date _ | moment _ => true
  | text t => !t.isEmpty

/-- The whole number that a scalar counts as: a flag counts as zero or one. -/
def whole? : Scalar → Option Int
  | flag b => some (if b then 1 else 0)
  | number n => some n
  | real x => x.whole?
  | _ => none

/-- Whether two scalars are the same key. Numbers and flags are when they are the same number, and
moments when they are at the same time. -/
def sameKey (a b : Scalar) : Bool :=
  match a.whole?, b.whole? with
  | some m, some n => m == n
  | none, none =>
    match a, b with
    | moment l, moment m => l.same m
    | _, _ => a == b
  | _, _ => false

end Scalar

namespace Value

def null : Value := scalar .null

def flag (b : Bool) : Value := scalar (.flag b)

def number (n : Int) : Value := scalar (.number n)

def text (t : Text) : Value := scalar (.text t)

def texts (ts : List Text) : Value := list (ts.map text)

/-- Whether a value counts as set: null, false, zero and whatever is empty do not. -/
def isSet : Value → Bool
  | scalar s => s.isSet
  | list items => !items.isEmpty
  | mapping entries => !entries.isEmpty

def isNull : Value → Bool
  | scalar .null => true
  | _ => false

/-! ## Showing a value -/

mutual
def displayInside : Value → Except Text.TooManyDigits Text
  | scalar s => s.displayInside
  | list items => do
    let shown ← displayItems items
    return '[' :: Text.join [',', ' '] shown ++ [']']
  | mapping entries => do
    let shown ← displayEntries entries
    return '\x7b' :: Text.join [',', ' '] shown ++ ['\x7d']

def displayItems : List Value → Except Text.TooManyDigits (List Text)
  | [] => .ok []
  | item :: rest => do
    let first ← displayInside item
    let others ← displayItems rest
    return first :: others

def displayEntries : List (Scalar × Value) → Except Text.TooManyDigits (List Text)
  | [] => .ok []
  | (key, value) :: rest => do
    let key ← key.displayInside
    let value ← displayInside value
    let others ← displayEntries rest
    return (key ++ [':', ' '] ++ value) :: others
end

def display : Value → Except Text.TooManyDigits Text
  | scalar s => s.display
  | v => v.displayInside

/-! ## Lists of items -/

/-- The items that a value stands for: none for null, those of a list as they are, and otherwise the
texts between the commas of the value as it is shown. -/
def items : Value → Except Text.TooManyDigits (List Value)
  | scalar .null => .ok []
  | list items => .ok items
  | v => do
    let shown ← v.display
    return (Text.commaItems shown).map text

/-! ## Mappings -/

def get? (entries : List (Scalar × Value)) (key : Text) : Option Value :=
  entries.lookup (.text key)

/-- The value of a key, whichever way the key is written. -/
def find? (entries : List (Scalar × Value)) (key : Scalar) : Option Value :=
  (entries.find? fun entry => entry.1.sameKey key).map (·.2)

/-- Gives a key a value, in the place of its old value or at the end. A key that is there already
stays as it was first written. -/
def put (key : Scalar) (value : Value) : List (Scalar × Value) → List (Scalar × Value)
  | [] => [(key, value)]
  | (other, old) :: rest =>
    if other.sameKey key then (other, value) :: rest else (other, old) :: put key value rest

mutual
/-- The value of the lower layer under the one of the upper layer: mappings are merged key by key,
and otherwise the upper value replaces the lower one. -/
def merge (lower : Value) : Value → Value
  | mapping upper =>
    match lower with
    | mapping entries => mapping (mergeEntries entries upper)
    | _ => mapping upper
  | upper => upper

/-- The entries of the lower layer under those of the upper layer. -/
def mergeEntries (lower : List (Scalar × Value)) : List (Scalar × Value) → List (Scalar × Value)
  | [] => lower
  | (key, value) :: rest =>
    let merged :=
      match find? lower key with
      | some old => merge old value
      | none => value
    mergeEntries (put key merged lower) rest
end

end Value

end UrlScan
