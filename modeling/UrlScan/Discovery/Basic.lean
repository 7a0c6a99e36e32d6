import UrlScan.Discovery.Glob
import UrlScan.Settings.Scan
import UrlScan.Text.LetterCase

/-!
# Finding the files to scan

Discovery collects the files that one of the scan globs selects below a root directory and that no
rule excludes, each once and in the order of their path components. Excluded are files below certain
directories, files in common binary formats, files that lie too deep, and files that an exclude
pattern is about.
-/

namespace UrlScan

/-- Why no files can be found. -/
inductive DiscoveryError
  | invalid (fault : OptionFault)
  | glob (fault : GlobFault)
  /-- An exclude pattern has no component to compare a path with. -/
  | emptyPattern
  | refused (error : AccessError)
deriving Repr

/-- What to look for and what to leave out. -/
structure DiscoveryRules where
  /-- The globs of the files to scan; without any, every file. -/
  scan : List Text
  exclude : List Text
  /-- The greatest number of directories between the root and a file. -/
  maxDepth : Option Int
deriving DecidableEq, Repr

namespace Discovery

def everyFile : Text := "**/*".toList

/-- Directories whose files are never scanned: those of version control systems, dependencies,
caches and editors. -/
def skippedDirectories : List Text :=
  [".git", ".svn", ".hg", "node_modules", "bower_components", ".venv", "venv", "site-packages",
   "__pycache__", ".pytest_cache", ".mypy_cache", ".ruff_cache", ".tox", ".cache", ".idea",
   ".vscode"].map String.toList

def binaryExtensions : List Text :=
  [".png", ".jpg", ".jpeg", ".gif", ".bmp", ".ico", ".webp", ".tiff", ".pdf", ".zip", ".gz",
   ".tgz", ".bz2", ".xz", ".7z", ".rar", ".jar", ".war", ".exe", ".dll", ".so", ".dylib", ".o",
   ".a", ".class", ".pyc", ".pyo", ".woff", ".woff2", ".ttf", ".otf", ".eot", ".mp3", ".mp4",
   ".wav", ".avi", ".mov", ".webm", ".sqlite", ".db"].map String.toList

/-! ## Exclusion -/

/-- Whether a file is left out whatever the patterns say. The names are those of its path below the
root. -/
def isSkipped (maxDepth : Option Int) (names : List Text) : Bool :=
  names.dropLast.any skippedDirectories.contains
    || binaryExtensions.contains (Text.lowercase (Path.extensionOf (names.getLastD [])))
    || maxDepth.any fun depth => depth < (names.length : Int) - 1

/-- Whether the last components of a path are of the forms of the components of a pattern. An
absolute pattern is about no relative path, and a pattern without components is an error. -/
def matchesFromRight (names : List Text) (pattern : Text) : Except DiscoveryError Bool :=
  let path := Path.parse pattern
  if path.isAbsolute then .ok false
  else if path.names.isEmpty then .error .emptyPattern
  else
    .ok (path.names.length ≤ names.length
      && (names.reverse.zip path.names.reverse).all fun (name, component) =>
        Wildcard.accepts component name)

/-- Whether an exclude pattern is about a file: it is of the form of the whole path, where an
asterisk also stands for slashes, or of its last components; or, behind a leading `**/`, of the
whole path; or it names one of the directories above the file. -/
def isExcludedBy (names : List Text) (pattern : Text) : Except DiscoveryError Bool := do
  let path := Text.join ['/'] names
  if Wildcard.accepts pattern path then return true
  if ← matchesFromRight names pattern then return true
  if Text.startsWith pattern "**/".toList && Wildcard.accepts (pattern.drop 3) path then
    return true
  let stripped := Text.trimEnd (· == '/') pattern
  return !stripped.isEmpty && names.dropLast.contains stripped

def isExcludedByAny (names : List Text) : List Text → Except DiscoveryError Bool
  | [] => .ok false
  | pattern :: rest => do
    if ← isExcludedBy names pattern then return true else isExcludedByAny names rest

def isExcluded (rules : DiscoveryRules) (names : List Text) : Except DiscoveryError Bool :=
  if isSkipped rules.maxDepth names then .ok true else isExcludedByAny names rules.exclude

/-! ## Collecting -/

/-- Order of lists of components; a proper beginning comes first. -/
def componentsBefore : List Text → List Text → Bool
  | [], [] => false
  | [], _ :: _ => true
  | _ :: _, [] => false
  | a :: s, b :: t => Text.before a b || (a == b && componentsBefore s t)

def pathAtMost (p q : Path) : Bool :=
  !componentsBefore q.components p.components

/-- The paths among those selected below `root` that are files and not left out. -/
def keepFiles (fs : FileSystem) (rules : DiscoveryRules) (root : Path) :
    List Path → Except DiscoveryError (List Path)
  | [] => .ok []
  | path :: rest => do
    let isFile ← (fs.isFile path).mapError .refused
    let excluded ←
      if isFile then isExcluded rules (path.names.drop root.names.length) else pure true
    let more ← keepFiles fs rules root rest
    return if excluded then more else path :: more

/-- The files that one of the globs selects and that are not left out. What a glob selects is gone
through as it is selected, so a refusal comes behind the paths that are selected before it. -/
def collect (fs : FileSystem) (rules : DiscoveryRules) (root : Path) :
    List Text → Except DiscoveryError (List Path)
  | [] => .ok []
  | pattern :: rest => do
    let glob ← (Glob.parse pattern).mapError .glob
    let selection := glob.selection fs root
    let kept ← keepFiles fs rules root selection.paths
    selection.ends.mapError .refused
    let more ← collect fs rules root rest
    return kept ++ more

/-- The files below a root directory that the rules select, each once and in order. -/
def files (fs : FileSystem) (root : Path) (rules : DiscoveryRules) :
    Except DiscoveryError (List Path) := do
  if rules.maxDepth.any (· < 0) then .error (.invalid .maxDepthNegative)
  if !(← (fs.isDirectory root).mapError .refused) then
    .error (.invalid (.notDirectory root.text))
  let found ← collect fs rules root (if rules.scan.isEmpty then [everyFile] else rules.scan)
  return found.eraseDups.mergeSort pathAtMost

end Discovery

end UrlScan
