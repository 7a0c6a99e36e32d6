import UrlScan.Text.Basic

/-!
# Lines and columns

A line index knows where the lines of a text begin. It turns offsets into lines and columns, which
both count from one, and gives the text of a line and of the lines around it. Lines end at line
feeds; the carriage returns at the end of a line are not part of its text.
-/

namespace UrlScan

/-- A text with the offsets at which its lines begin. -/
structure LineIndex where
  text : Text
  starts : List Nat
deriving DecidableEq, Repr

namespace LineIndex

/-- The offsets behind the line feeds of a text that begins at `offset`. -/
def startsFrom (offset : Nat) : Text → List Nat
  | [] => []
  | c :: rest =>
    if c = '\n' then (offset + 1) :: startsFrom (offset + 1) rest
    else startsFrom (offset + 1) rest

def ofText (t : Text) : LineIndex :=
  ⟨t, 0 :: startsFrom 0 t⟩

def lineCount (index : LineIndex) : Nat :=
  index.starts.length

/-- Halves the range of lines from `low` up to `high` until it is empty. The lines before the range
begin at or before the offset, and those behind it begin later. -/
def searchLine (starts : List Nat) (offset : Int) : (fuel low high : Nat) → Nat
  | 0, low, _ => low
  | fuel + 1, low, high =>
    if low < high then
      let middle := (low + high) / 2
      if offset < (starts.getD middle 0 : Nat) then searchLine starts offset fuel low middle
      else searchLine starts offset fuel (middle + 1) high
    else low

/-- The line and the column of an offset. The line is the last one that begins no later; an offset
before the text is on line zero, and its column counts from the start of the last line. -/
def position (index : LineIndex) (offset : Int) : Int × Int :=
  let line : Int := searchLine index.starts offset index.lineCount 0 index.lineCount
  let start := (signedGet? index.starts (line - 1)).getD 0
  (line, offset - start + 1)

def trimReturns (t : Text) : Text :=
  Text.trimEnd (· == '\r') t

/-- The text of a line. A line number below one counts from the end, as an index does; there is no
text when the number is out of range. -/
def lineText? (index : LineIndex) (line : Int) : Option Text := do
  let start ← signedGet? index.starts (line - 1)
  let stop ←
    if line < index.lineCount then
      (signedGet? index.starts line).map fun (next : Nat) => (next : Int) - 1
    else some (index.text.length : Int)
  return trimReturns (slice index.text start stop)

/-- The lines at most `radius` lines away from a line, in the order of the text; none when the
radius is not positive. -/
def context (index : LineIndex) (line radius : Int) : List Text :=
  if radius ≤ 0 then []
  else
    let first := max 1 (line - radius)
    let last := min (index.lineCount : Int) (line + radius)
    (List.range (last + 1 - first).toNat).filterMap fun (k : Nat) => index.lineText? (first + k)

end LineIndex

end UrlScan
