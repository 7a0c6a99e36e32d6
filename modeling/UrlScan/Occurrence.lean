import UrlScan.Text.Integer
import UrlScan.Text.Quoted

/-!
# Occurrences of URLs

What a scan reports: the occurrences of URLs in each file, and the counters over all files.
Positions are character offsets into the text of the file; lines and columns count from one.
-/

namespace UrlScan

/-- Where a URL was found. -/
inductive Origin
  | string
  | comment
  | text
deriving DecidableEq, Repr

namespace Origin

def name : Origin → String
  | string => "string"
  | comment => "comment"
  | text => "text"

end Origin

/-- One occurrence of a URL, with its place and the lines around it. -/
structure Occurrence where
  url : Text
  line : Int
  column : Int
  start : Int
  stop : Int
  context : List Text
  origin : Origin
  start_lt_stop : start < stop
deriving DecidableEq, Repr

/-- Why there is no such occurrence. -/
inductive OccurrenceError
  | emptySpan (start stop : Int) (url : Text)
  | unknownOrigin (name : Text)
deriving DecidableEq, Repr

/-- The words for an error. Where the bounds of a span cannot be written, they are about that. -/
def OccurrenceError.message : OccurrenceError → String
  | .emptySpan start stop url =>
    match [start, stop].mapM (Text.ofInt Text.digitLimit) with
    | .ok bounds =>
      "Invalid match span [" ++ String.ofList (Text.join [',', ' '] bounds) ++ ") for "
        ++ String.ofList url
    | .error e => e.message
  | .unknownOrigin name => String.ofList (Text.quote name) ++ " is not a valid SourceType"

def Origin.ofName (name : Text) : Except OccurrenceError Origin :=
  match [string, comment, text].find? fun origin => origin.name.toList == name with
  | some origin => .ok origin
  | none => .error (.unknownOrigin name)

namespace Occurrence

/-- The occurrence with the given span, when the span is not empty. -/
def ofSpan (url : Text) (line column start stop : Int) (context : List Text) (origin : Origin) :
    Except OccurrenceError Occurrence :=
  if h : start < stop then .ok ⟨url, line, column, start, stop, context, origin, h⟩
  else .error (.emptySpan start stop url)

end Occurrence

structure FileResult where
  file : Text
  urls : List Occurrence
deriving DecidableEq, Repr

/-- Counters over the files of a report. -/
structure Tally where
  files : Nat
  urls : Nat
  /-- The number of different URLs, compared character for character. -/
  distinct : Nat
deriving DecidableEq, Repr

/-- The URLs of a report in its order, repetitions included. -/
def FileResult.allUrls (results : List FileResult) : List Text :=
  results.flatMap fun result => result.urls.map (·.url)

def Tally.ofResults (results : List FileResult) : Tally :=
  let urls := FileResult.allUrls results
  ⟨results.length, urls.length, urls.eraseDups.length⟩

end UrlScan
