/-!
# Tables of code point ranges

A character class that no short rule describes is a list of ranges of code points, both ends
included, in increasing order.
-/

namespace UrlScan.Text

/-- Whether the code point `n` lies in one of the ranges. -/
def inRanges (ranges : List (Nat × Nat)) (n : Nat) : Bool :=
  ranges.any fun range => range.1 ≤ n && n ≤ range.2

end UrlScan.Text
