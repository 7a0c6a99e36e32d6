import UrlScan.Yaml.Cursor
import UrlScan.Yaml.Fault

/-!
# Blocks of lines

A scalar may be a block of indented lines. The block keeps its lines, or joins them when it is
folded. Its header tells what becomes of the line ends behind the last line, and the indentation
when that is not the one of the first line with text.
-/

namespace UrlScan.Yaml

/-- What becomes of the line ends behind the last line of a block. -/
inductive Chomping
  | strip
  | clip
  | keep
deriving DecidableEq, Repr

/-- The header of a block: what becomes of the last line ends, and the indentation when it is
given. -/
structure BlockHeader where
  chomping : Chomping
  indentation : Option Nat
deriving DecidableEq, Repr

def chompingOf? : Text → Option Chomping
  | '+' :: _ => some .keep
  | '-' :: _ => some .strip
  | _ => none

def indentationOf? : Text → Option Nat
  | c :: _ => if c.isDigit then some (c.toNat - 48) else none
  | [] => none

/-- The header at a place and the place behind it: a mark and a digit in either order, both
optional. -/
def blockHeader (c : Cursor) : Except Fault (BlockHeader × Cursor) :=
  let (header, c) : BlockHeader × Cursor :=
    match chompingOf? c.rest with
    | some chomping =>
      match indentationOf? c.next.rest with
      | some n => (⟨chomping, some n⟩, c.skip 2)
      | none => (⟨chomping, none⟩, c.next)
    | none =>
      match indentationOf? c.rest with
      | some n =>
        match chompingOf? c.next.rest with
        | some chomping => (⟨chomping, some n⟩, c.skip 2)
        | none => (⟨.clip, some n⟩, c.next)
      | none => (⟨.clip, none⟩, c)
  if header.indentation = some 0 || !endsOr (fun d => d == ' ' || isBreak d) c.rest then
    .error .malformed
  else
    match c.endLine? with
    | some after => .ok (header, after)
    | none => .error .malformed

/-- The line ends of the empty lines at a place, the greatest column that their spaces reach, and
the place behind them. -/
def emptyLines : (fuel : Nat) → Cursor → Text × Nat × Cursor
  | 0, c => ([], 0, c)
  | fuel + 1, c =>
    let c := c.skipWhile (· == ' ')
    match c.lineEnd? with
    | none => ([], c.column, c)
    | some (d, after) =>
      let (further, widest, stop) := emptyLines fuel after
      (d :: further, max c.column widest, stop)

/-- The place behind the spaces before column `indent`. -/
def toColumn (indent : Nat) (c : Cursor) : Cursor :=
  c.skip ((c.rest.takeWhile (· == ' ')).take (indent - c.column)).length

/-- The line ends of the lines that have nothing from column `indent` on, and the place behind
them. -/
def blockBreaks (indent : Nat) : (fuel : Nat) → Cursor → Text × Cursor
  | 0, c => ([], c)
  | fuel + 1, c =>
    let c := toColumn indent c
    match c.lineEnd? with
    | none => ([], c)
    | some (d, after) =>
      let (further, stop) := blockBreaks indent fuel after
      (d :: further, stop)

/-- What stands between two lines of a block. Lines are joined when the block is folded and neither
begins with a blank. -/
def lineJoint (folded : Bool) (line next : Text) (lineEnd : Text) (breaks : Text) : Text :=
  if folded && lineEnd == ['\n'] && !line.head?.any isBlank && !next.head?.any isBlank then
    (if breaks.isEmpty then [' '] else []) ++ breaks
  else lineEnd ++ breaks

/-- The lines of a block that begin at column `indent`, from the line at a place on, and the place
behind them. -/
def blockLines (folded : Bool) (chomping : Chomping) (indent : Nat) :
    (fuel : Nat) → Cursor → Text × Cursor
  | 0, c => ([], c)
  | fuel + 1, c =>
    let line := c.rest.takeWhile (!isBreak ·)
    let c := c.skip line.length
    let (lineEnd, c) : Text × Cursor :=
      match c.lineEnd? with
      | some (d, after) => ([d], after)
      | none => ([], c)
    let (breaks, c) := blockBreaks indent (c.rest.length + 1) c
    if c.column = indent && !c.rest.isEmpty then
      let (more, stop) := blockLines folded chomping indent fuel c
      (line ++ lineJoint folded line c.rest lineEnd breaks ++ more, stop)
    else
      match chomping with
      | .strip => (line, c)
      | .clip => (line ++ lineEnd, c)
      | .keep => (line ++ lineEnd ++ breaks, c)

/-- The block behind its first mark. Its lines are deeper than `floor`. -/
def blockText (folded : Bool) (floor : Int) (c : Cursor) : Except Fault (Text × Cursor) := do
  let (header, c) ← blockHeader c
  let least := max 1 (floor + 1).toNat
  let (indent, breaks, c) : Nat × Text × Cursor :=
    match header.indentation with
    | some n =>
      let indent := least + n - 1
      let (breaks, c) := blockBreaks indent (c.rest.length + 1) c
      (indent, breaks, c)
    | none =>
      let (breaks, widest, c) := emptyLines (c.rest.length + 1) c
      (max least widest, breaks, c)
  if c.column = indent && !c.rest.isEmpty then
    let (lines, stop) := blockLines folded header.chomping indent (c.rest.length + 1) c
    return (breaks ++ lines, stop)
  else return (if header.chomping = .keep then breaks else [], c)

end UrlScan.Yaml
