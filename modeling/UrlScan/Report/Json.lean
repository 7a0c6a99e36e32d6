import UrlScan.JsonValue
import UrlScan.Occurrence

/-!
# Reports in JSON

The report is an object with the counters of the report and its files. Line and column of an
occurrence are left out when they are not wanted. A report is not written when one of its numbers
has more digits than may be written.
-/

namespace UrlScan.Report.Json

/-- A whole number that counts something. -/
def count (n : Nat) : JsonValue :=
  .number n

def occurrence (lineNumbers : Bool) (o : Occurrence) : JsonValue :=
  let place :=
    if lineNumbers then
      [("line".toList, JsonValue.number o.line), ("column".toList, JsonValue.number o.column)]
    else []
  .object ([("url".toList, JsonValue.string o.url)] ++ place
    ++ [("start".toList, .number o.start), ("end".toList, .number o.stop),
        ("context".toList, .array (o.context.map .string)),
        ("sourceType".toList, .string o.origin.name.toList)])

def file (lineNumbers : Bool) (result : FileResult) : JsonValue :=
  .object
    [("file".toList, .string result.file), ("urlCount".toList, count result.urls.length),
     ("urls".toList, .array (result.urls.map (occurrence lineNumbers)))]

def tally (t : Tally) : JsonValue :=
  .object
    [("totalFiles".toList, count t.files), ("totalUrls".toList, count t.urls),
     ("uniqueUrls".toList, count t.distinct)]

def report (lineNumbers : Bool) (results : List FileResult) : JsonValue :=
  .object
    [("summary".toList, tally (.ofResults results)),
     ("files".toList, .array (results.map (file lineNumbers)))]

def render (limit : Option Nat) (lineNumbers : Bool) (results : List FileResult) :
    Except Text.TooManyDigits Text :=
  (report lineNumbers results).render limit

end UrlScan.Report.Json
