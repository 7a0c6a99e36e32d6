import UrlScan.SyntaxTree.Candidates
import UrlScan.Url.Matcher

/-!
# Extraction

Extraction looks for URLs in the candidate spans of a document and reports each one with its place
in the whole text: the offset of a URL is the start of its span plus its place in the span, and
line, column and context come from the lines of the document.
-/

namespace UrlScan

/-- A finder of URLs in documents. -/
structure Extractor where
  matcher : Matcher
  /-- How many lines before and after a URL its context has. -/
  contextLines : Int
deriving DecidableEq, Repr

namespace Extractor

/-- The occurrence of a URL that was found in a candidate. -/
def occurrence (e : Extractor) (d : Document) (span : Candidate) (found : Found) : Occurrence :=
  let start := span.start + found.start
  let (line, column) := d.lines.position start
  { url := found.url
    line
    column
    start
    stop := span.start + found.stop
    context := d.lines.context line e.contextLines
    origin := span.origin
    start_lt_stop := by
      have := found.start_lt_stop
      omega }

/-- The occurrences in a candidate. A bound of the candidate that is negative counts from the end of
the text. -/
def inSpan (e : Extractor) (d : Document) (span : Candidate) : List Occurrence :=
  (e.matcher.findAll (slice d.text span.start span.stop)).map (e.occurrence d span)

def inSpans (e : Extractor) (d : Document) (spans : List Candidate) : List Occurrence :=
  spans.flatMap (e.inSpan d)

/-- The occurrences in the nodes that a syntax tree offers; none when the tree does not fit the
document. -/
def inTree? (e : Extractor) (d : Document) (kinds : NodeKinds) (comments : Bool)
    (tree : SyntaxTree) : Option (List Occurrence) :=
  (d.treeCandidates? kinds comments tree).map (e.inSpans d)

def inText (e : Extractor) (d : Document) : List Occurrence :=
  e.inSpans d d.textCandidates

end Extractor

end UrlScan
