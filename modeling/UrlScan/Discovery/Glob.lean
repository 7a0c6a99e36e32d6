import UrlScan.Discovery.Wildcard
import UrlScan.FileSystem.Tree

/-!
# Globs

A glob is a relative path whose components may be wildcard patterns. The component `**` stands for
any number of directories. A glob selects what exists below a directory; every component but the
last selects directories only, and so does the last one when the glob ends in a slash.

The paths are selected one after the other. When the system refuses to be asked about something, the
selection ends there, and the paths before it are selected all the same.
-/

namespace UrlScan

inductive GlobComponent
  | name (name : Text)
  /-- Every name of the form of a wildcard pattern. -/
  | wildcard (pieces : List Wildcard.Piece)
  /-- Any number of directories. -/
  | anyDepth
deriving DecidableEq, Repr

structure Glob where
  components : List GlobComponent
  directoriesOnly : Bool
deriving DecidableEq, Repr

inductive GlobFault
  | empty
  | absolute
  /-- Two asterisks stand together with something else. -/
  | embeddedAnyDepth
  | noComponent
  /-- There is no component, but a slash. -/
  | onlySlash
deriving DecidableEq, Repr

def GlobFault.message : GlobFault → String
  | empty => "Unacceptable pattern: " ++ String.ofList (Text.quote [])
  | absolute => "Non-relative patterns are unsupported"
  | embeddedAnyDepth => "Invalid pattern: '**' can only be an entire path component"
  | noComponent | onlySlash => "pattern without components"

namespace Glob

def hasTwoAsterisks : Text → Bool
  | '*' :: '*' :: _ => true
  | _ :: rest => hasTwoAsterisks rest
  | [] => false

/-- The component that a name stands for. -/
def component (name : Text) : Except GlobFault GlobComponent :=
  if name = ['*', '*'] then .ok .anyDepth
  else if hasTwoAsterisks name then .error .embeddedAnyDepth
  else if Wildcard.isPattern name then .ok (.wildcard (Wildcard.parse name))
  else .ok (.name name)

def parse (t : Text) : Except GlobFault Glob :=
  if t.isEmpty then .error .empty
  else
    let path := Path.parse t
    let slash := Text.endsWith t ['/']
    if path.isAbsolute then .error .absolute
    else if path.names.isEmpty then .error (if slash then .onlySlash else .noComponent)
    else do
      let components ← path.names.mapM component
      return ⟨components, slash⟩

mutual
/-- The directories of a tree that stands at a path, the tree itself first. -/
def directories (path : Path) : FileTree → List Path
  | .file _ => []
  | .directory entries => path :: directoriesIn path entries

/-- The directories in the entries of a directory that stands at a path. -/
def directoriesIn (path : Path) : List (Text × FileTree) → List Path
  | [] => []
  | (name, tree) :: rest => directories (path.child name) tree ++ directoriesIn path rest
end

end Glob

/-- The paths that are selected, in their order, and the refusal that ends the selection if there is
one. -/
structure Selection where
  paths : List Path
  refusal : Option AccessError
deriving DecidableEq, Repr

namespace Selection

def empty : Selection := ⟨[], none⟩

def single (path : Path) : Selection := ⟨[path], none⟩

def refused (error : AccessError) : Selection := ⟨[], some error⟩

/-- One selection after the other, up to the first that is refused. -/
def join : List Selection → Selection
  | [] => empty
  | first :: rest =>
    match first.refusal with
    | some _ => first
    | none =>
      let others := join rest
      ⟨first.paths ++ others.paths, others.refusal⟩

/-- The selection with each path where it comes first. -/
def distinct (s : Selection) : Selection :=
  { s with paths := s.paths.eraseDups }

/-- The end of the selection behind its last path. -/
def ends (s : Selection) : Except AccessError Unit :=
  match s.refusal with
  | none => .ok ()
  | some error => .error error

end Selection

namespace Glob

/-- What the components select below a directory. -/
def select (fs : FileSystem) (directoriesOnly : Bool) : List GlobComponent → Path → Selection
  | [], base => .single base
  | .name name :: rest, base =>
    let path := base.child name
    let there :=
      if rest.isEmpty && !directoriesOnly then fs.pathExists path else fs.isDirectory path
    match there with
    | .error error => .refused error
    | .ok there => if there then select fs directoriesOnly rest path else .empty
  | .wildcard pieces :: rest, base =>
    match fs.probe base with
    | .error error => .refused error
    | .ok found =>
      let entries := (found.getD .empty).entries.filter fun entry =>
        ((rest.isEmpty && !directoriesOnly) || entry.2.isDirectory)
          && Wildcard.matchesPieces pieces entry.1
      .join (entries.map fun entry => select fs directoriesOnly rest (base.child entry.1))
  | .anyDepth :: rest, base =>
    match fs.probe base with
    | .error error => .refused error
    | .ok found =>
      let directories := directories base (found.getD .empty)
      (Selection.join (directories.map (select fs directoriesOnly rest))).distinct

def selection (fs : FileSystem) (glob : Glob) (base : Path) : Selection :=
  select fs glob.directoriesOnly glob.components base

end Glob

end UrlScan
