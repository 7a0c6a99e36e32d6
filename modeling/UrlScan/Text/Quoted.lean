import UrlScan.Text.Basic
import UrlScan.Text.Printable

/-!
# Quoted text

A message quotes the text that it is about, so that blanks and invisible characters show. The
quotation mark is an apostrophe, unless the text has an apostrophe and no double quote. The
backslash, the chosen mark and every unprintable character are written as escapes.
-/

namespace UrlScan.Text

def apostrophe : Char := '\x27'

def doubleQuote : Char := '\x22'

/-- The last `width` hexadecimal digits of a number, in lower case. -/
def hexDigits : (width : Nat) → Nat → Text
  | 0, _ => []
  | width + 1, n => hexDigits width (n / 16) ++ [Nat.digitChar (n % 16)]

/-- The mark that a quoted text stands between. -/
def quotationMark (t : Text) : Char :=
  if t.contains apostrophe && !t.contains doubleQuote then doubleQuote else apostrophe

def quoteChar (mark c : Char) : Text :=
  if c = mark || c = '\\' then ['\\', c]
  else if c = '\n' then ['\\', 'n']
  else if c = '\r' then ['\\', 'r']
  else if c = '\t' then ['\\', 't']
  else if isPrintable c then [c]
  else if c.toNat < 0x100 then ['\\', 'x'] ++ hexDigits 2 c.toNat
  else if c.toNat < 0x10000 then ['\\', 'u'] ++ hexDigits 4 c.toNat
  else ['\\', 'U'] ++ hexDigits 8 c.toNat

def quote (t : Text) : Text :=
  let mark := quotationMark t
  mark :: t.flatMap (quoteChar mark) ++ [mark]

end UrlScan.Text
