import UrlScan.FileSystem.Path
import UrlScan.Occurrence
import UrlScan.Text.Integer
import UrlScan.Text.Quoted

/-!
# Reports in comma-separated values

A record is a line of fields with commas between them. A field that has a comma, a double quotation
mark or a line feed stands between quotation marks, and each mark inside it is doubled. Writers
disagree about a field that has a carriage return, so this is left to the dialect. The report has a
header and one record for each occurrence, and ends without a line feed. It is not written when a
line or a column that is wanted has more digits than may be written.
-/

namespace UrlScan.Report.Csv

/-- What the writers of comma-separated values do not agree about. -/
structure Dialect where
  /-- Whether a field with a carriage return stands between quotation marks. Newer writers have it
  so, older ones do not. -/
  quotesReturns : Bool
deriving DecidableEq, Repr

namespace Dialect

/-- Whether a character forces quotation marks around its field. -/
def needsQuotes (d : Dialect) (c : Char) : Bool :=
  c == ',' || c == Text.doubleQuote || c == '\n' || d.quotesReturns && c == '\r'

def field (d : Dialect) (t : Text) : Text :=
  if t.any d.needsQuotes then
    let doubled := t.flatMap fun c => if c = Text.doubleQuote then [c, c] else [c]
    Text.doubleQuote :: doubled ++ [Text.doubleQuote]
  else t

/-- A record with the line feed that ends it. -/
def record (d : Dialect) (fields : List Text) : Text :=
  Text.join [','] (fields.map d.field) ++ ['\n']

end Dialect

def header : List Text :=
  ["FilePath", "FileName", "LineNumber", "ColumnPosition", "URL"].map String.toList

section
variable (limit : Option Nat) (lineNumbers : Bool)

/-- The line and the column of an occurrence, which are empty when they are not wanted. -/
def place (occurrence : Occurrence) : Except Text.TooManyDigits (List Text) :=
  if lineNumbers then [occurrence.line, occurrence.column].mapM (Text.ofInt limit)
  else .ok [[], []]

def row (file : Text) (occurrence : Occurrence) : Except Text.TooManyDigits (List Text) := do
  let place ← place limit lineNumbers occurrence
  return [file, Path.name (.parse file)] ++ place ++ [occurrence.url]

def rows (results : List FileResult) : Except Text.TooManyDigits (List (List Text)) := do
  let found ← results.mapM fun result => result.urls.mapM (row limit lineNumbers result.file)
  return header :: found.flatten

def render (dialect : Dialect) (results : List FileResult) : Except Text.TooManyDigits Text := do
  let rows ← rows limit lineNumbers results
  return Text.trimEnd (· == '\n') (rows.flatMap dialect.record)

end

end UrlScan.Report.Csv
