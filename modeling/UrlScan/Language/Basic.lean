import UrlScan.SyntaxTree.Candidates
import UrlScan.Text.LetterCase

/-!
# Languages

A language says which files it is for, which grammar parses them, and which nodes of their syntax
trees are strings and comments. Its name is compared without regard to letter case.
-/

namespace UrlScan

/-- The rules for the files of one language. -/
structure Language where
  name : Text
  /-- The identifier of its grammar in the grammar package. -/
  grammarSource : Text
  /-- File name extensions, each with its dot. -/
  extensions : List Text
  filenames : List Text
  displayName : Option Text
  kinds : NodeKinds
deriving DecidableEq, Repr

namespace Language

/-- What distinguishes a language from others: its name without regard to case. -/
def key (l : Language) : Text :=
  Text.lowercase l.name

/-- The name to show: the display name, or the name when there is none. -/
def label (l : Language) : Text :=
  match l.displayName with
  | some (c :: rest) => c :: rest
  | _ => l.name

def hasExtension (l : Language) (extension : Text) : Bool :=
  l.extensions.any fun e => Text.lowercase e == Text.lowercase extension

end Language

end UrlScan
