import UrlScan.Text.Alphanumeric
import UrlScan.Text.Blank
import UrlScan.Text.DecimalDigit
import UrlScan.Text.LetterCase

/-!
# The parts of a URL

A URL in a text consists of a scheme, `://`, a host of dot-separated labels, an optional port, and
an optional tail of path, query and fragment. This file says which characters each part is made of
and reads each part off the beginning of a text, always as much of it as belongs to the part.

* A label has 1 to 63 letters, digits and hyphens, and neither begins nor ends with a hyphen.
* A port is a colon and one to five digits that no further digit follows.
* A tail begins with `/`, `?` or `#`. Brackets in it come in closed groups of one level, so that a
  closing bracket without its partner ends the URL.
-/

namespace UrlScan

/-- A URL in the spelling of the text it stands in. -/
structure Url where
  scheme : Text
  labels : List Text
  /-- The port with its colon, or nothing. -/
  port : Text
  /-- Path, query and fragment, or nothing. -/
  tail : Text
deriving DecidableEq, Repr

namespace Url

def separator : Text := "://".toList

/-- The host: its labels joined by dots. -/
def host (u : Url) : Text :=
  Text.join ['.'] u.labels

def text (u : Url) : Text :=
  u.scheme ++ separator ++ u.host ++ u.port ++ u.tail

/-! ## Character classes -/

/-- Letters and digits of a label, without regard to case. -/
def isLabelLetter (c : Char) : Bool :=
  let d := Text.caseless c
  ('a' ≤ d && d ≤ 'z') || ('0' ≤ d && d ≤ '9')

def isLabelChar (c : Char) : Bool :=
  c == '-' || isLabelLetter c

def isPathChar (c : Char) : Bool :=
  !Text.isBlank c && !"\"'\x60<>\\()[]\x7b\x7d".toList.contains c

def closing? : Char → Option Char
  | '(' => some ')'
  | '[' => some ']'
  | '\x7b' => some '\x7d'
  | _ => none

/-- The punctuation of the surrounding sentence, which is no part of a URL at its end. -/
def isTrailing (c : Char) : Bool :=
  ".,;:!?*".toList.contains c

/-- A URL does not begin inside a word or after `+`, `.` or `-`. -/
def isJoining (c : Char) : Bool :=
  Text.isWordChar c || "+.-".toList.contains c

/-! ## Reading the parts -/

/-- The beginning of the text that spells `letters`, without regard to case. -/
def spelling? : (letters : Text) → Text → Option Text
  | [], _ => some []
  | _ :: _, [] => none
  | letter :: letters, c :: rest =>
    if Text.sameLetter letter c then (spelling? letters rest).map (c :: ·) else none

def maxLabel : Nat := 63

/-- The longest label that the text begins with. -/
def label? (t : Text) : Option Text :=
  match Text.trimEnd (· == '-') ((t.take maxLabel).takeWhile isLabelChar) with
  | [] => none
  | '-' :: _ => none
  | label => some label

/-- The labels that follow the first one, each after a dot. -/
def moreLabels (t : Text) : List Text :=
  match t with
  | '.' :: rest =>
    match label? rest with
    | some label => label :: moreLabels (rest.drop label.length)
    | none => []
  | _ => []
termination_by t.length
decreasing_by
  simp only [List.length_drop, List.length_cons]
  omega

/-- The labels of the host that the text begins with. A host of one label is a host only when
`singleLabel` says so. -/
def host? (singleLabel : Bool) (t : Text) : Option (List Text) :=
  match label? t with
  | none => none
  | some label =>
    match moreLabels (t.drop label.length) with
    | [] => if singleLabel then some [label] else none
    | more => some (label :: more)

def maxPortDigits : Nat := 5

/-- The port that the text begins with; none when the run of digits is empty or too long. -/
def portOf : Text → Text
  | ':' :: rest =>
    let digits := rest.takeWhile Text.isDecimalDigit
    if 1 ≤ digits.length ∧ digits.length ≤ maxPortDigits then ':' :: digits else []
  | _ => []

/-- The longest run of path characters and closed bracket groups that the text begins with. -/
def pathOf (t : Text) : Text :=
  match t with
  | [] => []
  | c :: rest =>
    if isPathChar c then c :: pathOf rest
    else
      match closing? c with
      | none => []
      | some close =>
        let inside := rest.takeWhile isPathChar
        if (rest.drop inside.length).head? = some close then
          c :: inside ++ close :: pathOf (rest.drop (inside.length + 1))
        else []
termination_by t.length
decreasing_by
  · simp
  · simp only [List.length_drop, List.length_cons]
    omega

def tailOf : Text → Text
  | c :: rest => if c = '/' ∨ c = '?' ∨ c = '#' then c :: pathOf rest else []
  | [] => []

def read? (scheme : Text) (singleLabel : Bool) (t : Text) : Option Url := do
  let spelled ← spelling? scheme t
  let afterScheme := t.drop spelled.length
  if Text.startsWith afterScheme separator then
    let atHost := afterScheme.drop separator.length
    let labels ← host? singleLabel atHost
    let afterHost := atHost.drop (Text.join ['.'] labels).length
    let port := portOf afterHost
    let tail := tailOf (afterHost.drop port.length)
    return { scheme := spelled, labels, port, tail }
  else none

/-! ## The reported URL -/

/-- The URL without the sentence punctuation at its end. -/
def trimmed (u : Url) : Text :=
  Text.trimEnd isTrailing u.text

theorem text_ne_nil (u : Url) : u.text ≠ [] := by
  simp [text, separator]

/-- Trimming never removes a whole URL, since the slashes after the scheme stay. -/
theorem trimmed_ne_nil (u : Url) : u.trimmed ≠ [] := by
  apply Text.trimEnd_ne_nil (c := '/')
  · simp [text, separator]
  · decide

end Url

end UrlScan
