import UrlScan.Text.Basic

/-!
# Report formats

The formats of a report and the names by which they are chosen.
-/

namespace UrlScan

inductive ReportFormat
  | table
  | json
  | csv
deriving DecidableEq, Repr

namespace ReportFormat

/-- All formats, in the order in which they are offered. -/
def all : List ReportFormat :=
  [table, json, csv]

def name : ReportFormat → Text
  | table => "table".toList
  | json => "json".toList
  | csv => "csv".toList

def ofName? (name : Text) : Option ReportFormat :=
  all.find? fun format => format.name == name

end ReportFormat

end UrlScan
