import UrlScan.Text.Blank

/-!
# Lists written as text

Two notations for a list of short texts: items between commas, and one pattern on each line.
-/

namespace UrlScan.Text

/-- The items between commas, without the white space around them; empty items are dropped. -/
def commaItems (t : Text) : List Text :=
  ((t.splitOn ',').map strip).filter (!·.isEmpty)

def isLineEnd (c : Char) : Bool :=
  c ∈ ['\n', '\r', '\x0B', '\x0C', '\x1C', '\x1D', '\x1E', '\u0085', '\u2028', '\u2029']

/-- The lines of a text, cut at every line end. A carriage return before a line feed makes an
additional empty line, which no use of these lines sees. -/
def rawLines : Text → List Text
  | [] => [[]]
  | c :: rest => if isLineEnd c then [] :: rawLines rest else (rawLines rest).modifyHead (c :: ·)

/-- The patterns of a pattern file: its lines without surrounding white space, save those that are
empty and those that begin with `#`. -/
def patternLines (t : Text) : List Text :=
  ((rawLines t).map strip).filter fun line => !line.isEmpty && line.head? != some '#'

/-- Every way to end a line becomes a line feed. -/
def unifyLineEnds : Text → Text
  | [] => []
  | '\r' :: '\n' :: rest => '\n' :: unifyLineEnds rest
  | '\r' :: rest => '\n' :: unifyLineEnds rest
  | c :: rest => c :: unifyLineEnds rest

end UrlScan.Text
