import UrlScan.Number.Digits
import UrlScan.Text.Quoted
import UrlScan.Yaml.Cursor
import UrlScan.Yaml.Fault

/-!
# Quoted scalars

A quoted scalar stands between two apostrophes or two double quotation marks. Between apostrophes an
apostrophe is written twice; between double quotation marks a backslash opens an escape. Lines are
joined with a space; a line end more than needed stays, and a document cannot end between them.
-/

namespace UrlScan.Yaml

def escapes : List (Char × Char) :=
  [('0', '\x00'), ('a', '\x07'), ('b', '\x08'), ('t', '\t'), ('\t', '\t'), ('n', '\n'),
   ('v', '\x0B'), ('f', '\x0C'), ('r', '\r'), ('e', '\x1B'), (' ', ' '), ('"', '"'), ('\\', '\\'),
   ('/', '/'), ('N', '\u0085'), ('_', '\u00A0'), ('L', '\u2028'), ('P', '\u2029')]

/-- How many hexadecimal digits follow a letter after a backslash. -/
def hexWidth? : Char → Option Nat
  | 'x' => some 2
  | 'u' => some 4
  | 'U' => some 8
  | _ => none

/-- The code that a letter and its hexadecimal digits stand for, and how many characters they
are. -/
def escapedCode? : Text → Option (Nat × Nat)
  | [] => none
  | c :: rest => do
    let width ← hexWidth? c
    let code ← digits? 16 (rest.take width)
    if (rest.take width).length = width then some (code, width + 1) else none

def isHighSurrogate (code : Nat) : Bool :=
  0xD800 ≤ code && code ≤ 0xDBFF

def isLowSurrogate (code : Nat) : Bool :=
  0xDC00 ≤ code && code ≤ 0xDFFF

/-- The character of the escape behind a backslash, and how many characters the escape has. Two
escapes of four digits that are a surrogate pair are one character. -/
def escapedChar (t : Text) : Except Fault (Char × Nat) :=
  match escapedCode? t with
  | none => .error .malformed
  | some (code, width) =>
    if 0x10FFFF < code then .error (.scalar .notCharacter)
    else
      match t.drop width with
      | '\\' :: more =>
        match escapedCode? more with
        | some (low, lowWidth) =>
          if isHighSurrogate code && isLowSurrogate low then
            .ok (Char.ofNat (0x10000 + 0x400 * (code - 0xD800) + (low - 0xDC00)),
              width + 1 + lowWidth)
          else .ok (Char.ofNat code, width)
        | none => .ok (Char.ofNat code, width)
      | _ => .ok (Char.ofNat code, width)

/-- The line ends behind the first one in a quoted scalar, which a document may not end. -/
def quotedBreaks : (fuel : Nat) → Cursor → Except Fault (Text × Cursor)
  | 0, c => .ok ([], c)
  | fuel + 1, c =>
    if c.atSeparator then .error .malformed
    else
      let c := c.skipWhile isBlank
      match c.lineEnd? with
      | none => .ok ([], c)
      | some (d, after) => do
        let (further, stop) ← quotedBreaks fuel after
        return (d :: further, stop)

/-- The blanks and line ends at a place in a quoted scalar. -/
def quotedGap (c : Cursor) : Except Fault (Text × Cursor) :=
  let blanks := c.rest.takeWhile isBlank
  let c := c.skipWhile isBlank
  match c.lineEnd? with
  | none => if c.rest.isEmpty then .error .malformed else .ok (blanks, c)
  | some (first, after) => do
    let (further, stop) ← quotedBreaks (after.rest.length + 1) after
    return (joint first further, stop)

/-- What the next characters of a scalar between two `mark`s stand for, and the place behind them;
nothing at the mark that ends the scalar. -/
def quotedPart (mark : Char) (c : Cursor) : Except Fault (Option Text × Cursor) :=
  match c.rest with
  | [] => .error .malformed
  | d :: rest =>
    if isSpacing d then do
      let (gap, stop) ← quotedGap c
      return (some gap, stop)
    else if d = mark then
      if d = Text.apostrophe && rest.head? = some d then .ok (some [d], c.skip 2)
      else .ok (none, c.next)
    else if d = '\\' && mark = Text.doubleQuote then
      match rest.head?.bind fun e => escapes.lookup e with
      | some image => .ok (some [image], c.skip 2)
      | none =>
        match c.next.lineEnd? with
        | some (_, after) => do
          let (further, stop) ← quotedBreaks (after.rest.length + 1) after
          return (some further, stop)
        | none => do
          let (image, width) ← escapedChar rest
          return (some [image], c.skip (width + 1))
    else .ok (some [d], c.next)

/-- The rest of a scalar between two `mark`s. -/
def quotedText (mark : Char) : (fuel : Nat) → Cursor → Except Fault (Text × Cursor)
  | 0, _ => .error .malformed
  | fuel + 1, c => do
    match ← quotedPart mark c with
    | (none, stop) => return ([], stop)
    | (some part, stop) =>
      let (more, stop) ← quotedText mark fuel stop
      return (part ++ more, stop)

end UrlScan.Yaml
