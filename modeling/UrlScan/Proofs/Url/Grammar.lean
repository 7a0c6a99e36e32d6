import Mathlib.Data.List.Forall2
import UrlScan.Url.Basic

/-!
# The grammar of URLs

The words that count as URLs in a text, said without any reading order: a word is a scheme, `://`,
a host, an optional port and an optional tail, and each part is described by the characters it may
consist of. Which words stand at a place depends on the text behind them in one respect only: a port
ends where its run of digits ends.

The labels of a host are `IsLabel`, the host itself `IsHost`, and the whole word `IsWord`. A scan
takes at every place the longest word (`IsLongestWord`), at the leftmost place that has one, and goes
on behind it (`LeftmostLongest`). What is reported of a word is its part without the punctuation at
its end (`IsTrimmed`).
-/

namespace UrlScan.Url

/-! ## Parts -/

/-- `Spells letters spelled`: the text `spelled` has the letters of `letters` one by one, whatever
their case. -/
def Spells (letters spelled : Text) : Prop :=
  List.Forall₂ (fun letter c => Text.sameLetter letter c = true) letters spelled

/-- A letter or digit of a label: one of the ASCII letters and digits, whatever its case. -/
def IsLabelLetter (c : Char) : Prop :=
  ∃ letter : Char, ('a' ≤ letter ∧ letter ≤ 'z' ∨ '0' ≤ letter ∧ letter ≤ '9') ∧
    Text.sameLetter letter c = true

/-- A label: 1 to 63 letters, digits and hyphens, with no hyphen at either end. -/
structure IsLabel (label : Text) : Prop where
  length_pos : 1 ≤ label.length
  length_le : label.length ≤ 63
  chars : ∀ c ∈ label, c = '-' ∨ IsLabelLetter c
  head : label.head? ≠ some '-'
  last : label.getLast? ≠ some '-'

/-- The least number of labels of a host. -/
def minLabels (singleLabel : Bool) : Nat :=
  if singleLabel then 1 else 2

/-- A host: labels joined by dots, at least two of them unless one is enough. -/
def IsHost (singleLabel : Bool) (host : Text) : Prop :=
  ∃ labels : List Text, (∀ label ∈ labels, IsLabel label) ∧ minLabels singleLabel ≤ labels.length ∧
    host = Text.join ['.'] labels

/-- `IsPort port following`: nothing, or a colon and one to five digits, when the text `following`
behind them does not go on with a digit. -/
def IsPort (port following : Text) : Prop :=
  port = [] ∨ ∃ digits : Text, port = ':' :: digits ∧ 1 ≤ digits.length ∧ digits.length ≤ 5 ∧
    (∀ d ∈ digits, Text.isDecimalDigit d = true) ∧
    ∀ d, following.head? = some d → Text.isDecimalDigit d = false

/-- A run of path characters and closed bracket groups. The brackets of a group enclose path
characters only, so groups are not nested. -/
inductive IsPath : Text → Prop
  | nil : IsPath []
  | char {c : Char} {path : Text} : isPathChar c = true → IsPath path → IsPath (c :: path)
  | group {opening closing : Char} {inside path : Text} :
      (opening, closing) ∈ [('(', ')'), ('[', ']'), ('\x7b', '\x7d')] →
      (∀ c ∈ inside, isPathChar c = true) → IsPath path →
      IsPath (opening :: (inside ++ closing :: path))

/-- A tail: nothing, or a slash, question mark or number sign and a path behind it. -/
def IsTail (tail : Text) : Prop :=
  tail = [] ∨ ∃ (c : Char) (path : Text), (c = '/' ∨ c = '?' ∨ c = '#') ∧ IsPath path ∧
    tail = c :: path

/-! ## Words -/

/-- `IsWord schemes singleLabel word following`: the text `word` is a URL with one of the schemes,
when the text `following` comes behind it. -/
def IsWord (schemes : List Text) (singleLabel : Bool) (word following : Text) : Prop :=
  ∃ scheme spelled host port tail : Text, scheme ∈ schemes ∧
    Spells (Text.lowercase scheme) spelled ∧ IsHost singleLabel host ∧
    IsPort port (tail ++ following) ∧ IsTail tail ∧
    word = spelled ++ ("://".toList ++ (host ++ (port ++ tail)))

/-- The text `t` begins with the word `word`, and with no longer one. -/
def IsLongestWord (schemes : List Text) (singleLabel : Bool) (t word : Text) : Prop :=
  (∃ following, t = word ++ following ∧ IsWord schemes singleLabel word following) ∧
  ∀ other following, t = other ++ following → IsWord schemes singleLabel other following →
    other.length ≤ word.length

/-- The character before an offset of the text, if there is one. -/
def before? (t : Text) : Nat → Option Char
  | 0 => none
  | p + 1 => t[p]?

/-- A word may stand at the offset `p` of the text: the character before it, if there is one, is no
word character and none of `+`, `.` and `-`. -/
def OpenAt (t : Text) (p : Nat) : Prop :=
  ∀ c, before? t p = some c → Text.isWordChar c = false ∧ c ∉ ['+', '.', '-']

/-- Some word stands at the offset `p` of the text. -/
def WordAt (schemes : List Text) (singleLabel : Bool) (t : Text) (p : Nat) : Prop :=
  OpenAt t p ∧ ∃ word following, t.drop p = word ++ following ∧
    IsWord schemes singleLabel word following

/-- `LeftmostLongest schemes singleLabel t p found`: from the offset `p` on, `found` lists the words
of the text with their offsets. Each word is the longest one at the first place that has a word, and
the search goes on behind it. -/
inductive LeftmostLongest (schemes : List Text) (singleLabel : Bool) (t : Text) :
    Nat → List (Nat × Text) → Prop
  | done {p : Nat} : (∀ q, p ≤ q → ¬WordAt schemes singleLabel t q) →
      LeftmostLongest schemes singleLabel t p []
  | found {p q : Nat} {word : Text} {rest : List (Nat × Text)} :
      p ≤ q → (∀ r, p ≤ r → r < q → ¬WordAt schemes singleLabel t r) → OpenAt t q →
      IsLongestWord schemes singleLabel (t.drop q) word →
      LeftmostLongest schemes singleLabel t (q + word.length) rest →
      LeftmostLongest schemes singleLabel t p ((q, word) :: rest)

/-- `IsTrimmed word url`: the text `url` is what remains of `word` without all the sentence
punctuation at its end. -/
def IsTrimmed (word url : Text) : Prop :=
  ∃ punctuation : Text, word = url ++ punctuation ∧
    (∀ c ∈ punctuation, c ∈ ['.', ',', ';', ':', '!', '?', '*']) ∧
    ∀ c, url.getLast? = some c → c ∉ ['.', ',', ';', ':', '!', '?', '*']

end UrlScan.Url
