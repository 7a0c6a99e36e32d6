import UrlScan.FileSystem.Path
import UrlScan.Occurrence
import UrlScan.Text.Integer

/-!
# Reports as a table

The table has four columns of fixed width and one row for each occurrence. A value that is too wide
for its column is cut and ends in an ellipsis. The table is not written when a line or a column that
is wanted has more digits than may be written, even though the column would cut them.
-/

namespace UrlScan.Report.Table

/-- What stands at the end of a text that was cut. -/
def ellipsis : Text := "...".toList

/-- A text with at most `length` characters. A text that is too long is cut, to make room for the
ellipsis unless the length leaves no more than the room for it. A negative length counts from the
end of the text. -/
def truncate (t : Text) (length : Int) : Text :=
  if t.length ≤ length then t
  else if length ≤ ellipsis.length then slice t 0 length
  else t.take (length - ellipsis.length).toNat ++ ellipsis

def columns : List (Text × Nat) :=
  [("FilePath".toList, 50), ("FileName".toList, 25), ("Line:Col".toList, 10), ("URL".toList, 80)]

def widths : List Nat :=
  columns.map (·.2)

def pad (width : Nat) (t : Text) : Text :=
  t ++ List.replicate (width - t.length) ' '

/-- The line above and below the header and below the last row. -/
def separator : Text :=
  '+' :: Text.join ['+'] (widths.map fun width => List.replicate (width + 2) '-') ++ ['+']

def cell (value : Text) (width : Nat) : Text :=
  ' ' :: pad width (truncate value width) ++ [' ']

def row (values : List Text) : Text :=
  '|' :: Text.join ['|'] (values.zipWith cell widths) ++ ['|']

section
variable (limit : Option Nat) (lineNumbers : Bool)

/-- The line and the column of an occurrence, and nothing when they are not wanted. -/
def place (occurrence : Occurrence) : Except Text.TooManyDigits Text :=
  if lineNumbers then do
    let line ← Text.ofInt limit occurrence.line
    let column ← Text.ofInt limit occurrence.column
    return line ++ ':' :: column
  else .ok []

def values (file : Text) (occurrence : Occurrence) : Except Text.TooManyDigits (List Text) := do
  let place ← place limit lineNumbers occurrence
  return [file, Path.name (.parse file), place, occurrence.url]

def rows (results : List FileResult) : Except Text.TooManyDigits (List Text) := do
  let found ← results.mapM fun result => result.urls.mapM (values limit lineNumbers result.file)
  return found.flatten.map row

end

/-- What is reported when there is no occurrence. -/
def emptyMessage : Text := "No URLs found.".toList

/-- The lines of a table with the given rows. -/
def frame (rows : List Text) : List Text :=
  [separator, row (columns.map (·.1)), separator] ++ rows ++ [separator]

def render (limit : Option Nat) (lineNumbers : Bool) (results : List FileResult) :
    Except Text.TooManyDigits Text := do
  match ← rows limit lineNumbers results with
  | [] => return emptyMessage
  | rows => return Text.join ['\n'] (frame rows)

end UrlScan.Report.Table
