/-!
# Text as a list of characters

Texts, file names and paths are lists of code points, so every offset, width and length in this
library counts code points. This file holds the operations that the rest of the library shares:
trimming, cutting at a character, ordering, and reading with offsets that may count from the end.
-/

namespace UrlScan

/-- A text is the list of its code points. -/
abbrev Text := List Char

abbrev Bytes := List UInt8

namespace Text

def trimStart (p : Char → Bool) (t : Text) : Text :=
  t.dropWhile p

def trimEnd (p : Char → Bool) (t : Text) : Text :=
  (t.reverse.dropWhile p).reverse

def trimBoth (p : Char → Bool) (t : Text) : Text :=
  trimEnd p (trimStart p t)

/-- A character that is kept survives the dropping at the start. -/
theorem mem_dropWhile {p : Char → Bool} {t : Text} {c : Char} (member : c ∈ t)
    (kept : p c = false) : c ∈ t.dropWhile p := by
  induction t with
  | nil => simp at member
  | cons d rest ih =>
    by_cases dropped : p d = true
    · have different : c ≠ d := by
        intro equal
        simp [equal, dropped] at kept
      have inRest : c ∈ rest := by simpa [different] using member
      simpa [List.dropWhile_cons, dropped] using ih inRest
    · simpa [List.dropWhile_cons, dropped] using member

/-- A text with a character that is kept does not vanish when its end is trimmed. -/
theorem trimEnd_ne_nil {p : Char → Bool} {t : Text} {c : Char} (member : c ∈ t)
    (kept : p c = false) : trimEnd p t ≠ [] := by
  have survives := mem_dropWhile (t := t.reverse) (by simpa using member) kept
  intro vanished
  simp only [trimEnd, List.reverse_eq_nil_iff] at vanished
  simp [vanished] at survives

/-- The part before the first `c`, and the part after it when `c` occurs. -/
def cutFirst (c : Char) : Text → Text × Option Text
  | [] => ([], none)
  | d :: rest =>
    if d = c then ([], some rest)
    else
      let (before, after) := cutFirst c rest
      (d :: before, after)

/-- The part after the last `c`, or the whole text when `c` does not occur. -/
def afterLast (c : Char) (t : Text) : Text :=
  (t.splitOn c).getLastD []

def startsWith (t start : Text) : Bool :=
  start.isPrefixOf t

def endsWith (t finish : Text) : Bool :=
  finish.isSuffixOf t

def join (separator : Text) (parts : List Text) : Text :=
  separator.intercalate parts

/-- Order of texts by code points; a proper beginning comes first. -/
def before : Text → Text → Bool
  | [], [] => false
  | [], _ :: _ => true
  | _ :: _, [] => false
  | a :: s, b :: t => a < b || (a == b && before s t)

def atMost (s t : Text) : Bool :=
  !before t s

def sortedDistinct (ts : List Text) : List Text :=
  ts.eraseDups.mergeSort atMost

/-- The digits of a whole number behind its sign, however many they are. -/
def decimal (n : Int) : Text :=
  (toString n).toList

def ofNat (n : Nat) : Text :=
  (toString n).toList

end Text

/-! ## Offsets that may count from the end -/

/-- The element at index `i`; a negative index counts from the end. -/
def signedGet? {α : Type} (xs : List α) (i : Int) : Option α :=
  if 0 ≤ i then xs[i.toNat]?
  else if -(xs.length : Int) ≤ i then xs[(xs.length + i).toNat]?
  else none

/-- A bound of a slice of a list of length `n`: a negative bound counts from the end, and a bound
outside the list is moved to its nearer end. -/
def sliceBound (n : Nat) (i : Int) : Nat :=
  if 0 ≤ i then min i.toNat n else (n + i).toNat

/-- The elements from `start` up to, but not including, `stop`. -/
def slice {α : Type} (xs : List α) (start stop : Int) : List α :=
  let first := sliceBound xs.length start
  (xs.drop first).take (sliceBound xs.length stop - first)

section
variable {α : Type} (xs : List α)

/-- An index that is not negative counts from the beginning. -/
theorem signedGet?_natCast (i : Nat) : signedGet? xs (i : Int) = xs[i]? := by
  rw [signedGet?, if_pos (Int.natCast_nonneg i), Int.toNat_natCast]

/-- Bounds that are not negative cut a slice out of the list. -/
theorem slice_natCast (start stop : Nat) :
    slice xs start stop = (xs.take stop).drop start := by
  have bound (i : Nat) : sliceBound xs.length i = min i xs.length := by
    rw [sliceBound, if_pos (Int.natCast_nonneg i), Int.toNat_natCast]
  have drop : xs.drop (min start xs.length) = xs.drop start :=
    List.drop_eq_drop_iff.mpr (by omega)
  simp only [slice, bound]
  rw [drop, List.drop_take, List.take_eq_take_iff, List.length_drop]
  omega

end

end UrlScan
