import UrlScan.Text.Basic
import UrlScan.Text.Range

/-!
# White space

A blank is a space separator, or a character whose bidirectional class is white space, paragraph
separator or segment separator. The four ASCII information separators are among them.
-/

namespace UrlScan.Text

def blankRanges : List (Nat × Nat) :=
  [(0x9, 0xD), (0x1C, 0x20), (0x85, 0x85), (0xA0, 0xA0), (0x1680, 0x1680), (0x2000, 0x200A),
  (0x2028, 0x2029), (0x202F, 0x202F), (0x205F, 0x205F), (0x3000, 0x3000)]

def isBlank (c : Char) : Bool :=
  inRanges blankRanges c.toNat

def strip (t : Text) : Text :=
  trimBoth isBlank t

end UrlScan.Text
