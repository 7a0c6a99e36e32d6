import UrlScan.Text.Basic

/-!
# Wildcard patterns

In a wildcard pattern `*` stands for any characters, `?` for one character, and a set in square
brackets for one character of the set, or with `!` at its start for one character outside of it. A
bracket that is not closed stands for itself, and so does every other character.

Between the brackets a hyphen between two characters makes a range. A closing bracket that comes
first belongs to the set. A range whose ends are in the wrong order is left out.
-/

namespace UrlScan.Wildcard

inductive Piece
  | star
  | one
  | char (c : Char)
  /-- A character within one of the ranges, or outside all of them. -/
  | set (negated : Bool) (ranges : List (Char × Char))
deriving DecidableEq, Repr

/-! ## Sets -/

/-- The offset of the first hyphen of `t` that lies at `start` or later. -/
def hyphenFrom (t : Text) (start : Nat) : Option Nat :=
  ((t.drop start).findIdx? (· == '-')).map (· + start)

/-- The parts of a set between the hyphens that make ranges. The search for the next such hyphen
starts at `start`; the next part begins at `first`. -/
def chunksFrom (t : Text) : (fuel : Nat) → (first start : Nat) → List Text
  | 0, first, _ => [t.drop first]
  | fuel + 1, first, start =>
    match hyphenFrom t start with
    | some k => (t.drop first).take (k - first) :: chunksFrom t fuel (k + 1) (k + 3)
    | none => [t.drop first]

/-- A hyphen at the end of a set belongs to the part before it. -/
def closeChunks : List Text → List Text
  | [] => []
  | [chunk] => [chunk]
  | [chunk, []] => [chunk ++ ['-']]
  | chunk :: rest => chunk :: closeChunks rest

/-- Joins neighbouring parts, from the end on, where the range between them would be empty. -/
def dropEmptyRanges : List Text → List Text
  | [] => []
  | chunk :: rest =>
    match dropEmptyRanges rest with
    | [] => [chunk]
    | next :: more =>
      match chunk.getLast?, next.head? with
      | some low, some high =>
        if high < low then (chunk.dropLast ++ next.drop 1) :: more else chunk :: next :: more
      | _, _ => chunk :: next :: more

/-- A sign of a set: a character, or the hyphen of a range. -/
inductive Sign
  | char (c : Char)
  | range
deriving DecidableEq, Repr

/-- The signs of a set whose parts are given. -/
def signs : List Text → List Sign
  | [] => []
  | [chunk] => chunk.map .char
  | chunk :: rest => chunk.map Sign.char ++ .range :: signs rest

/-- The ranges that signs stand for. A hyphen without a character before it is a character. -/
def rangesOf : List Sign → List (Char × Char)
  | [] => []
  | .char low :: .range :: .char high :: rest => (low, high) :: rangesOf rest
  | .char c :: rest => (c, c) :: rangesOf rest
  | .range :: rest => ('-', '-') :: rangesOf rest

def setOf (t : Text) : Piece :=
  let chunks :=
    if t.contains '-' then
      let start := if t.head? = some '!' then 2 else 1
      dropEmptyRanges (closeChunks (chunksFrom t t.length 0 start))
    else [t]
  match signs chunks with
  | .char '!' :: rest => .set true (rangesOf rest)
  | rest => .set false (rangesOf rest)

/-- The offset of the bracket that closes the set whose opening bracket stands before `t`. -/
def closingBracket? (t : Text) : Option Nat :=
  let mark := if t.head? = some '!' then 1 else 0
  let first := if (t.drop mark).head? = some ']' then mark + 1 else mark
  ((t.drop first).findIdx? (· == ']')).map (· + first)

/-! ## Patterns -/

def parse (t : Text) : List Piece :=
  match t with
  | [] => []
  | '*' :: rest => .star :: parse rest
  | '?' :: rest => .one :: parse rest
  | '[' :: rest =>
    match closingBracket? rest with
    | some n => setOf (rest.take n) :: parse (rest.drop (n + 1))
    | none => .char '[' :: parse rest
  | c :: rest => .char c :: parse rest
termination_by t.length
decreasing_by all_goals (simp only [List.length_cons, List.length_drop]; omega)

def Piece.accepts : Piece → Char → Bool
  | star, _ => false
  | one, _ => true
  | char d, c => c == d
  | set negated ranges, c => negated != ranges.any fun range => range.1 ≤ c && c ≤ range.2

/-- For every end of a list of parts, the whole list first, whether the empty text is of its
form. -/
def emptyRow : List Piece → List Bool
  | [] => [true]
  | piece :: pieces =>
    let below := emptyRow pieces
    (piece == .star && below.headD false) :: below

/-- The same for a text that begins with `c`, when `row` is the answer for the text behind it. -/
def nextRow (c : Char) : List Piece → (row : List Bool) → List Bool
  | [], _ => [false]
  | piece :: pieces, row =>
    let below := nextRow c pieces row.tail
    let here :=
      if piece = .star then row.headD false || below.headD false
      else piece.accepts c && row.tail.headD false
    here :: below

/-- For every end of a list of parts, whether a text is of its form. -/
def rows (pieces : List Piece) : Text → List Bool
  | [] => emptyRow pieces
  | c :: rest => nextRow c pieces (rows pieces rest)

/-- Whether a text is of the form that the parts describe. -/
def matchesPieces (pieces : List Piece) (t : Text) : Bool :=
  (rows pieces t).headD false

theorem tail_rows (piece : Piece) (pieces : List Piece) (t : Text) :
    (rows (piece :: pieces) t).tail = rows pieces t := by
  induction t with
  | nil => rfl
  | cons c rest ih => simp [rows, nextRow, ih]

/-- A part that is no asterisk stands for one character. -/
theorem matchesPieces_cons {piece : Piece} (single : piece ≠ .star) (pieces : List Piece) (c : Char)
    (rest : Text) :
    matchesPieces (piece :: pieces) (c :: rest) =
      (piece.accepts c && matchesPieces pieces rest) := by
  simp [matchesPieces, rows, nextRow, tail_rows, single]

def accepts (pattern t : Text) : Bool :=
  matchesPieces (parse pattern) t

/-- Whether a text has a sign that makes it a pattern. -/
def isPattern (t : Text) : Bool :=
  t.any fun c => c == '*' || c == '?' || c == '['

end UrlScan.Wildcard
