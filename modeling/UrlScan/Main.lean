import UrlScan.CommandLine.Run

/-!
# The program

The program looks at the files that a run is about, lets the run decide everything, and prints what
the run delivers and tells. It has no grammar package, so every file is searched as plain text.
-/

namespace UrlScan.Program

/-- How the program is called. -/
def usageText : String :=
  "usage: urldetect [PATH] [options]\n\n"
    ++ "file selection: --scan, --exclude, --scan-file, --exclude-file, --max-depth\n"
    ++ "detection:      --ignore-domains, --include-comments, --include-non-fqdn,\n"
    ++ "                --no-fallback-regex, --force-fallback, --context\n"
    ++ "output:         --format, --output, --only-urls, --no-line-numbers\n"
    ++ "execution:      --concurrency, --fail-on-error, --quiet, --results-only, --verbose\n"
    ++ "other:          --version, --help"

/-- The files and directories below an entry of a directory, the files without their content. What
cannot be looked at and links to directories are left out. -/
partial def outline? (entry : IO.FS.DirEntry) : IO (Option FileTree) := do
  try
    if (← entry.path.metadata).type == .dir then
      let mut entries : List (Text × FileTree) := []
      for below in ← entry.path.readDir do
        let link := (← below.path.symlinkMetadata).type == .symlink
        if !(link && (← below.path.metadata).type == .dir) then
          if let some tree ← outline? below then
            entries := (below.fileName.toList, tree) :: entries
      return some (.directory entries)
    else return some (.file [])
  catch _ => return none

/-- The file system with something at a path. -/
def place (fs : FileSystem) (path : Path) (tree : FileTree) : FileSystem :=
  { fs with root := fs.root.insert (fs.resolved path) tree }

/-- The file system with what really stands at a path, if anything does: a file with its content, a
directory without entries unless it is known already. -/
def look (fs : FileSystem) (path : Path) : IO FileSystem := do
  let entry : IO.FS.DirEntry := ⟨String.ofList path.text, ""⟩
  try
    if (← entry.root.metadata).type == .dir then
      return if (fs.pathExists path).toOption = some true then fs else place fs path .empty
    else return place fs path (.file (← IO.FS.readBinFile entry.root).toList)
  catch _ => return fs

/-- The file system with what stands at several paths. -/
def lookAll (fs : FileSystem) (paths : List Path) : IO FileSystem :=
  paths.foldlM look fs

/-- What a run can see: the directory to scan with the files that will be scanned, the configuration
files, the pattern files, and the place of the report. -/
def survey (a : Arguments) (userFile : Path) : IO FileSystem := do
  let working := Path.parse (← IO.currentDir).toString.toList
  let fs := place ⟨.empty, working.names⟩ working .empty
  let fs :=
    match ← outline? ⟨String.ofList a.root.text, ""⟩ with
    | some tree => place fs a.root tree
    | none => fs
  let output := (a.output.getD []) |> Path.parse
  let named := [a.scanFile, a.excludeFile].filterMap fun name => name.map Path.parse
  let fs ← lookAll fs
    ([userFile, a.root.child Settings.projectFile, working.child Settings.projectFile] ++ named
      ++ [{ output with names := output.names.dropLast }, output])
  match a.files fs with
  | .ok files => lookAll fs files
  | .error _ => return fs

/-- The environment variables that set options. -/
def readEnvironment : IO Environment := do
  let entries ← Variable.all.filterMapM fun v => do
    let value ← IO.getEnv (String.ofList v.name)
    return value.map fun value => (v.name, value.toList)
  return entries

/-- The configuration file of the user. -/
def findUserFile : IO Path := do
  let home ← IO.getEnv "HOME"
  return .parse ((home.getD "").toList ++ "/.urldetect/config.yaml".toList)

/-- The dialect of newer writers, as hosts follow the rule of newer readers (`Host.bracketsFit`). -/
def dialect : Report.Csv.Dialect := ⟨true⟩

/-- Hands over a report. -/
def deliver : Delivery → IO Unit
  | .standardOutput report => IO.print (String.ofList report)
  | .file path report => IO.FS.writeFile (String.ofList path.text) (String.ofList report)

/-- Carries out a run. -/
def carryOut (a : Arguments) : IO UInt32 := do
  let userFile ← findUserFile
  let fs ← survey a userFile
  let run := Run.ofArguments none dialect fs userFile (← readEnvironment) a
  for line in run.standardError a.verbosity do
    IO.eprintln line
  match run.outcome with
  | .ok delivery => deliver delivery
  | .error error => if error.report?.isNone then IO.eprintln "Error: the run broke off"
  return UInt32.ofNat run.exitCode

end UrlScan.Program

/-- The program. -/
def main (words : List String) : IO UInt32 := do
  match UrlScan.Command.ofWords (words.map String.toList) with
  | .run a => UrlScan.Program.carryOut a
  | .showVersion =>
    IO.println UrlScan.versionText
    return 0
  | .showHelp =>
    IO.println UrlScan.Program.usageText
    return 0
  | .refuse =>
    IO.eprintln UrlScan.Program.usageText
    return 2
