import UrlScan.FileSystem.Tree
import UrlScan.Text.Items

/-!
# Pattern files

A pattern file has one pattern on each line. Lines without a pattern and comments are passed over.
-/

namespace UrlScan

/-- Why the patterns of a file are not known. -/
inductive PatternFileError
  | unreadable (fault : FileFault)
  | undecodable (error : DecodeError)
deriving DecidableEq, Repr

def patternsOfFile (fs : FileSystem) (name : Text) : Except PatternFileError (List Text) :=
  match fs.readNamed name with
  | .error fault => .error (.unreadable fault)
  | .ok bytes =>
    match Utf8.decode bytes with
    | .error error => .error (.undecodable error)
    | .ok t => .ok (Text.patternLines t)

end UrlScan
