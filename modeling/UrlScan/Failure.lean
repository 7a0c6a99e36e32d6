import UrlScan.FileSystem.Tree
import UrlScan.Text.Utf8

/-!
# Files that cannot be scanned

A file fails in a stage of its scan and for a reason. A failure is about one file: the scan records
it and goes on with the other files, unless it is to end with the first failure.
-/

namespace UrlScan

/-- The stage in which a file fails. -/
inductive ScanStage
  | scan
  | read
  | extraction
deriving DecidableEq, Repr

namespace ScanStage

def name : ScanStage → String
  | scan => "scan"
  | read => "read"
  | extraction => "extraction"

/-- The words for a failure in a stage. -/
def describe (stage : ScanStage) (file reason : Text) : String :=
  stage.name ++ " failed for " ++ String.ofList file ++ ": " ++ String.ofList reason

/-- The reason of a failure: the one that is given, or the text of its cause when none is given. -/
def reasonOr (reason : Text) (cause : Option Text) : Text :=
  if reason.isEmpty then cause.getD [] else reason

end ScanStage

/-- Why a file cannot be scanned. -/
inductive ScanFault
  /-- The system refuses to read it. -/
  | unreadable (error : AccessError)
  | undecodable (error : DecodeError)
  /-- No parser can be made for its language. -/
  | noParser (language reason : Text)
  | unparsable (reason : Text)
  /-- A node of the syntax tree lies outside the file. -/
  | nodeOutOfRange
deriving DecidableEq, Repr

namespace ScanFault

def stage : ScanFault → ScanStage
  | unreadable _ | undecodable _ => .read
  | noParser _ _ | unparsable _ | nodeOutOfRange => .extraction

/-- The words for a fault. -/
def reason : ScanFault → Text
  | unreadable error => error.message.toList
  | undecodable error =>
    ("not valid UTF-8 (" ++ error.fault.message ++ " at byte " ++ toString error.start
      ++ ")").toList
  | noParser language reason =>
    "could not acquire ".toList ++ language ++ " parser: ".toList ++ reason
  | unparsable reason => reason
  | nodeOutOfRange => "list index out of range".toList

end ScanFault

structure FileError where
  file : Text
  fault : ScanFault
deriving DecidableEq, Repr

def FileError.message (e : FileError) : String :=
  e.fault.stage.describe e.file e.fault.reason

end UrlScan
