import UrlScan.Text.Basic

/-!
# Paths

A path is a root and a list of names. Reading a path drops empty names and `.`, and keeps `..`; an
absolute path has the root `/`, or `//` when it begins with exactly two slashes.
-/

namespace UrlScan

structure Path where
  /-- Nothing for a relative path. -/
  root : Text
  names : List Text
deriving DecidableEq, Repr

namespace Path

/-- The root of a path as it is written. -/
def rootOf (t : Text) : Text :=
  match (t.takeWhile (· == '/')).length with
  | 0 => []
  | 2 => ['/', '/']
  | _ => ['/']

def parse (t : Text) : Path :=
  ⟨rootOf t, (t.splitOn '/').filter fun name => !name.isEmpty && name != ['.']⟩

/-- The text of a path; the empty relative path is written as a dot. -/
def text (p : Path) : Text :=
  match p.root ++ Text.join ['/'] p.names with
  | [] => ['.']
  | t => t

def name (p : Path) : Text :=
  p.names.getLastD []

def isAbsolute (p : Path) : Bool :=
  !p.root.isEmpty

/-- The path of something in a directory. -/
def child (p : Path) (name : Text) : Path :=
  { p with names := p.names ++ [name] }

/-- The components by which paths are ordered and compared: the root, if any, and the names. -/
def components (p : Path) : List Text :=
  if p.isAbsolute then p.root :: p.names else p.names

/-- The extension of a file name: what follows its last dot, the dot included. A dot at the start or
at the end of the name begins no extension. -/
def extensionOf (name : Text) : Text :=
  let after := Text.afterLast '.' name
  let stem := name.length - (after.length + 1)
  if name.contains '.' && 0 < stem && !after.isEmpty then '.' :: after else []

end Path

end UrlScan
