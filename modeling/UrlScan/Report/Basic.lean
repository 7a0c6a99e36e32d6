import UrlScan.Report.Csv
import UrlScan.Report.Format
import UrlScan.Report.Json
import UrlScan.Report.Table

/-!
# Reports

A report shows results in one of the formats or as a bare list of URLs. A name that no format has is
an error, unless only the URLs are wanted. So is a number in a report that has more digits than may
be written.
-/

namespace UrlScan

inductive ReportStyle
  | urlList
  /-- In a format, with lines and columns or, where the format can do without them, without. -/
  | formatted (format : ReportFormat) (lineNumbers : Bool)
deriving DecidableEq, Repr

/-- No format has the given name. -/
structure UnknownFormat where
  name : Text
deriving DecidableEq, Repr

def UnknownFormat.message (e : UnknownFormat) : String :=
  "Unknown output format: " ++ String.ofList e.name

/-- The style for the name of a format. The name does not matter when only the URLs are wanted. -/
def ReportStyle.ofName (name : Text) (lineNumbers onlyUrls : Bool) :
    Except UnknownFormat ReportStyle :=
  if onlyUrls then .ok .urlList
  else
    match ReportFormat.ofName? name with
    | some format => .ok (.formatted format lineNumbers)
    | none => .error ⟨name⟩

namespace Report

/-- The URLs in the order of the report, one on a line. -/
def urlList (results : List FileResult) : Text :=
  Text.join ['\n'] (FileResult.allUrls results)

def render (dialect : Csv.Dialect) (style : ReportStyle) (results : List FileResult) :
    Except Text.TooManyDigits Text :=
  match style with
  | .urlList => .ok (urlList results)
  | .formatted .table lineNumbers => Table.render Text.digitLimit lineNumbers results
  | .formatted .json lineNumbers => Json.render Text.digitLimit lineNumbers results
  | .formatted .csv lineNumbers => Csv.render Text.digitLimit lineNumbers dialect results

end Report

end UrlScan
