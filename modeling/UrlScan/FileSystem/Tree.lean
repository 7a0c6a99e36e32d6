import UrlScan.FileSystem.Path
import UrlScan.Text.Quoted
import UrlScan.Text.Utf8

/-!
# File systems

A file system is a tree of directories and files together with a working directory. A relative path
starts at the working directory; `..` leads to the directory above, and from the root to itself.
-/

namespace UrlScan

/-- A file with its content, or a directory with its entries. -/
inductive FileTree
  | file (content : Bytes)
  | directory (entries : List (Text × FileTree))

namespace FileTree

def isDirectory : FileTree → Bool
  | file _ => false
  | directory _ => true

def entries : FileTree → List (Text × FileTree)
  | file _ => []
  | directory entries => entries

def empty : FileTree := directory []

/-- Puts something in the place of the entry with the same name, or at the end. -/
def putEntry (name : Text) (tree : FileTree) : List (Text × FileTree) → List (Text × FileTree)
  | [] => [(name, tree)]
  | (other, old) :: rest =>
    if other = name then (name, tree) :: rest else (other, old) :: putEntry name tree rest

/-- The tree with something at the end of a path of names; directories on the way are made. -/
def insert (tree : FileTree) : List Text → FileTree → FileTree
  | [], new => new
  | name :: names, new =>
    let below := (tree.entries.lookup name).getD empty
    directory (putEntry name (below.insert names new) tree.entries)

end FileTree

inductive AccessFault
  | missing
  | notDirectory
  | isDirectory
  | nameTooLong
deriving DecidableEq, Repr

/-- A refused access, with the path as it was given. -/
structure AccessError where
  fault : AccessFault
  path : Text
deriving DecidableEq, Repr

def AccessFault.message : AccessFault → String
  | missing => "[Errno 2] No such file or directory"
  | notDirectory => "[Errno 20] Not a directory"
  | isDirectory => "[Errno 21] Is a directory"
  | nameTooLong => "[Errno 36] File name too long"

def AccessError.message (e : AccessError) : String :=
  e.fault.message ++ ": " ++ String.ofList (Text.quote e.path)

/-- Why a file cannot be read or written. -/
inductive FileFault
  | nulInPath
  | refused (error : AccessError)
deriving DecidableEq, Repr

def FileFault.message : FileFault → String
  | nulInPath => "embedded null byte"
  | refused error => error.message

/-- A tree of files and the directory in which relative paths start. -/
structure FileSystem where
  root : FileTree
  workingDirectory : List Text

namespace FileSystem

/-- The greatest number of bytes of a name. -/
def maxName : Nat := 255

/-- The number of bytes that the text of a path must stay below. -/
def maxPath : Nat := 4096

/-- Follows names downwards from a directory, whose ancestors are `above`, the nearest first. -/
def follow (above : List FileTree) (here : FileTree) : List Text → Except AccessFault FileTree
  | [] => .ok here
  | name :: names =>
    match here with
    | .file _ => .error .notDirectory
    | .directory entries =>
      if name = ['.', '.'] then
        match above with
        | [] => follow [] here names
        | parent :: rest => follow rest parent names
      else if maxName < (Utf8.encode name).length then .error .nameTooLong
      else
        match entries.lookup name with
        | none => .error .missing
        | some tree => follow (here :: above) tree names

def lookup (fs : FileSystem) (p : Path) : Except AccessFault FileTree :=
  if maxPath ≤ (Utf8.encode p.text).length then .error .nameTooLong
  else follow [] fs.root (if p.isAbsolute then p.names else fs.workingDirectory ++ p.names)

def hasNul (p : Path) : Bool :=
  p.names.any fun name => name.contains '\x00'

/-- What a question about a path finds: nothing where there is nothing, or a refusal when the path
is too long to be asked about. -/
def probe (fs : FileSystem) (p : Path) : Except AccessError (Option FileTree) :=
  if hasNul p then .ok none
  else
    match fs.lookup p with
    | .ok tree => .ok (some tree)
    | .error .nameTooLong => .error ⟨.nameTooLong, p.text⟩
    | .error _ => .ok none

/-- Whether there is a directory at a path. -/
def isDirectory (fs : FileSystem) (p : Path) : Except AccessError Bool :=
  (fs.probe p).map fun found => found.any FileTree.isDirectory

def isFile (fs : FileSystem) (p : Path) : Except AccessError Bool :=
  (fs.probe p).map fun found => found.any fun tree => !tree.isDirectory

def pathExists (fs : FileSystem) (p : Path) : Except AccessError Bool :=
  (fs.probe p).map Option.isSome

def read (fs : FileSystem) (p : Path) : Except FileFault Bytes :=
  if hasNul p then .error .nulInPath
  else
    match fs.lookup p with
    | .ok (.file content) => .ok content
    | .ok (.directory _) => .error (.refused ⟨.isDirectory, p.text⟩)
    | .error fault => .error (.refused ⟨fault, p.text⟩)

/-- The content of the file that a text names. The text of a path that is refused is told as it is
given, and a text that ends in a slash names no file. -/
def readNamed (fs : FileSystem) (name : Text) : Except FileFault Bytes :=
  match fs.read (.parse name) with
  | .error (.refused error) => .error (.refused ⟨error.fault, name⟩)
  | .error .nulInPath => .error .nulInPath
  | .ok content =>
    if Text.endsWith name ['/'] || Text.endsWith name ['/', '.'] then
      .error (.refused ⟨.notDirectory, name⟩)
    else .ok content

/-- The names that lead to a place without `..`, given the names of a directory, the last one first,
and the names to follow from it. -/
def resolve (above : List Text) : List Text → List Text
  | [] => above.reverse
  | name :: names =>
    if name = ['.', '.'] then resolve above.tail names else resolve (name :: above) names

/-- The names that lead from the root to a path. -/
def resolved (fs : FileSystem) (p : Path) : List Text :=
  resolve [] (if p.isAbsolute then p.names else fs.workingDirectory ++ p.names)

/-- Whether a file can be written at a path: its directory is there, and there is no directory at
the path itself. -/
def mayWrite (fs : FileSystem) (p : Path) : Except FileFault Unit :=
  if hasNul p then .error .nulInPath
  else
    match fs.lookup p with
    | .ok (.file _) => .ok ()
    | .ok (.directory _) => .error (.refused ⟨.isDirectory, p.text⟩)
    | .error .missing =>
      match fs.lookup { p with names := p.names.dropLast } with
      | .ok (.directory _) => .ok ()
      | .ok (.file _) => .error (.refused ⟨.notDirectory, p.text⟩)
      | .error fault => .error (.refused ⟨fault, p.text⟩)
    | .error fault => .error (.refused ⟨fault, p.text⟩)

def write (fs : FileSystem) (p : Path) (content : Bytes) : Except FileFault FileSystem :=
  match fs.mayWrite p with
  | .ok () => .ok { fs with root := fs.root.insert (fs.resolved p) (.file content) }
  | .error fault => .error fault

end FileSystem

end UrlScan
