import UrlScan.Text.Basic

/-!
# Places in a text

A cursor is a place in a text: what follows it, how many characters are before it, its line and its
column. A line ends at a line feed or at one of the three other line ends of YAML. A byte order mark
takes no column.
-/

namespace UrlScan.Yaml

/-- A place in a text; all counts are from zero. -/
structure Cursor where
  rest : Text
  index : Nat
  line : Nat
  column : Nat
deriving DecidableEq, Repr

def isBreak (c : Char) : Bool :=
  ['\n', '\u0085', '\u2028', '\u2029'].contains c

def isBlank (c : Char) : Bool :=
  c == ' ' || c == '\t'

def isSpacing (c : Char) : Bool :=
  isBlank c || isBreak c

/-- Whether nothing follows, or a character satisfying `p`. -/
def endsOr (p : Char → Bool) : Text → Bool
  | [] => true
  | c :: _ => p c

namespace Cursor

def ofText (t : Text) : Cursor :=
  ⟨t, 0, 0, 0⟩

def next (c : Cursor) : Cursor :=
  match c.rest with
  | [] => c
  | d :: rest =>
    if isBreak d then ⟨rest, c.index + 1, c.line + 1, 0⟩
    else if d = '\uFEFF' then { c with rest, index := c.index + 1 }
    else { c with rest, index := c.index + 1, column := c.column + 1 }

def skip (c : Cursor) : Nat → Cursor
  | 0 => c
  | n + 1 => c.next.skip n

/-- The place behind the characters satisfying `p`. -/
def skipWhile (c : Cursor) (p : Char → Bool) : Cursor :=
  c.skip (c.rest.takeWhile p).length

def at? (c : Cursor) (d : Char) : Bool :=
  c.rest.head? == some d

/-- Whether the text ends behind the next `n` characters, or goes on with spacing there. -/
def spacingBehind (c : Cursor) (n : Nat) : Bool :=
  endsOr isSpacing (c.rest.drop n)

/-- The line end at a place, and the place behind it. A line end that YAML takes for a line feed
counts as one. -/
def lineEnd? (c : Cursor) : Option (Char × Cursor) :=
  match c.rest with
  | d :: _ =>
    if d = '\n' ∨ d = '\u0085' then some ('\n', c.next)
    else if isBreak d then some (d, c.next)
    else none
  | [] => none

/-- Whether three hyphens or three dots stand here, with spacing behind them. -/
def atSeparator (c : Cursor) : Bool :=
  (Text.startsWith c.rest "---".toList || Text.startsWith c.rest "...".toList)
    && c.spacingBehind 3

/-- The place of the next token, behind spaces, comments and line ends, and whether a line ended on
the way. Fuel is the number of characters. -/
def toToken : (fuel : Nat) → Cursor → Cursor × Bool
  | 0, c => (c, false)
  | fuel + 1, c =>
    let c := c.skipWhile (· == ' ')
    let c := if c.at? '#' then c.skipWhile (!isBreak ·) else c
    match c.lineEnd? with
    | some (_, after) => ((toToken fuel after).1, true)
    | none => (c, false)

/-- The rest of a line that may have spaces and a comment only, and the place behind its end. -/
def endLine? (c : Cursor) : Option Cursor :=
  let c := c.skipWhile (· == ' ')
  let c := if c.at? '#' then c.skipWhile (!isBreak ·) else c
  match c.lineEnd? with
  | some (_, after) => some after
  | none => if c.rest.isEmpty then some c else none

end Cursor

/-- The text for line ends between two lines that are joined: a single line feed is a space, and a
line feed before other line ends is nothing. -/
def joint (first : Char) (further : Text) : Text :=
  if first ≠ '\n' then first :: further
  else if further.isEmpty then [' ']
  else further

end UrlScan.Yaml
