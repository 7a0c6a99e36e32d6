import UrlScan.CommandLine.Arguments
import UrlScan.Discovery.Basic
import UrlScan.Discovery.PatternFile
import UrlScan.Report.Basic
import UrlScan.Scan.Batch

/-!
# A run of the program

A run loads the settings, lays the arguments over them, finds the files, scans them and delivers the
report. What it delivers and what it tells are values here; the program itself only prints them.
-/

namespace UrlScan

/-- Why a run delivers no report. -/
inductive RunError
  | settings (error : SettingsError)
  | discovery (error : DiscoveryError)
  | scan (error : ScanError)
  | refused (error : AccessError)
  /-- A path has a character that no path may have. -/
  | nulInPath
  | undecodable (error : DecodeError)
  /-- The report would have a number that cannot be written. -/
  | unwritable (error : Text.TooManyDigits)
deriving Repr

namespace RunError

/-- The words for the errors that a run expects: faults of the settings, files that cannot be
scanned, and refusals of the system. Any other error is a defect of the run. -/
def report? : RunError → Option String
  | settings (.invalid fault) | discovery (.invalid fault) => some fault.message
  | scan (.failed error) => some error.message
  | refused error | settings (.refused error) | discovery (.refused error) => some error.message
  | _ => none

def ofFileFault : FileFault → RunError
  | .nulInPath => nulInPath
  | .refused error => refused error

end RunError

/-- Where a report goes. -/
inductive Delivery
  | standardOutput (report : Text)
  | file (path : Path) (report : Text)
deriving DecidableEq, Repr

structure Run where
  events : List Event
  outcome : Except RunError Delivery

namespace Verbosity

def tells : Option Verbosity → Severity → Bool
  | some .resultsOnly, _ => false
  | some .quiet, severity => Severity.error.rank ≤ severity.rank
  | some .verbose, _ => true
  | none, severity => Severity.info.rank ≤ severity.rank

end Verbosity

namespace Arguments

/-- The items of a list given as text, unless there are none. -/
def itemsOf? (t : Option Text) : Option Value :=
  match Text.commaItems (t.getD []) with
  | [] => none
  | items => some (.texts items)

/-- The value that the arguments give to an option of the scan. -/
def scanValue? (a : Arguments) : ScanOption → Option Value
  | .concurrency => a.concurrency
  | .includeComments => if a.includeComments then some (.flag true) else none
  | .includeSingleLabel => if a.includeSingleLabel then some (.flag true) else none
  | .fallback => if a.noFallback then some (.flag false) else none
  | .forceFallback => itemsOf? a.forceFallback
  | .contextLines => a.context
  | .failOnError => if a.failOnError then some (.flag true) else none
  | .ignoreDomains => itemsOf? a.ignoreDomains
  | .poolSize | .keepEmptyFiles | .schemes | .maxFileSize => none

def outputOptions (a : Arguments) (settings : OutputOptions) :
    Except SettingsError OutputOptions :=
  let format :=
    match a.format with
    | some (c :: rest) => c :: rest
    | _ => settings.format.name
  OutputOptions.ofValues (.text format)
    (if a.noLineNumbers then .flag false else settings.lineNumbers)
    (if a.onlyUrls then .flag true else settings.onlyUrls)

/-- The settings, with the arguments over them. -/
def overlay (a : Arguments) (settings : Settings) : Except SettingsError Settings := do
  let scan ← settings.scan.replace a.scanValue?
  let output ← a.outputOptions settings.output
  return ⟨scan, output⟩

def patterns (fs : FileSystem) (inline file : Option Text) : Except RunError (List Text) :=
  let items := Text.commaItems (inline.getD [])
  match file with
  | none | some [] => .ok items
  | some name =>
    match patternsOfFile fs name with
    | .ok lines => .ok (items ++ lines)
    | .error (.unreadable fault) => .error (.ofFileFault fault)
    | .error (.undecodable error) => .error (.undecodable error)

def depth (a : Arguments) : Except RunError (Option Int) :=
  match a.maxDepth with
  | none => .ok none
  | some value =>
    match value.count? with
    | some count => .ok (some count.toInt)
    | none => .error (.settings (.wrongKind .depthNotNumber))

def root (a : Arguments) : Path :=
  .parse a.path

def files (a : Arguments) (fs : FileSystem) : Except RunError (List Path) := do
  let scan ← patterns fs a.scan a.scanFile
  let exclude ← patterns fs a.exclude a.excludeFile
  let maxDepth ← a.depth
  (Discovery.files fs a.root ⟨scan, exclude, maxDepth⟩).mapError .discovery

end Arguments

def OutputOptions.style (o : OutputOptions) : ReportStyle :=
  if o.onlyUrls.isSet then .urlList else .formatted o.format o.lineNumbers.isSet

namespace Run

/-- The delivery of a report to a file, or to the standard output when no file is named. -/
def deliver (fs : FileSystem) (output : Option Text) (report : Text) : Except RunError Delivery :=
  match output with
  | none | some [] => .ok (.standardOutput (report ++ ['\n']))
  | some name =>
    match fs.mayWrite (.parse name) with
    | .ok () => .ok (.file (.parse name) (report ++ ['\n']))
    | .error fault => .error (.ofFileFault fault)

def deliveryEvents : Delivery → List Event
  | .standardOutput _ => []
  | .file path _ => [.written path]

/-- The scan of the files and the delivery of the report. -/
def scanAndDeliver (package : Option GrammarPackage) (dialect : Report.Csv.Dialect)
    (fs : FileSystem) (a : Arguments) (settings : Settings) (files : List Path) : Run :=
  match Scanner.ofOptions settings.scan with
  | .error fault => ⟨[], .error (.scan (.aborted (.wrongKind fault)))⟩
  | .ok scanner =>
    let (scanned, state) :=
      scanner.scan fs (files.map Path.text) (scanner.newState (.builtIn package))
    match scanned with
    | .error error => ⟨state.events, .error (.scan error)⟩
    | .ok outcome =>
      match Report.render dialect settings.output.style outcome.results with
      | .error error => ⟨state.events, .error (.unwritable error)⟩
      | .ok report =>
        match deliver fs a.output report with
        | .error error => ⟨state.events, .error error⟩
        | .ok delivery =>
          let failures := outcome.failures.length
          ⟨state.events ++ deliveryEvents delivery
              ++ (if failures = 0 then [] else [.incomplete failures]),
            .ok delivery⟩

def withSettings (package : Option GrammarPackage) (dialect : Report.Csv.Dialect)
    (fs : FileSystem) (a : Arguments) (settings : Settings) : Run :=
  match a.overlay settings with
  | .error error => ⟨[], .error (.settings error)⟩
  | .ok settings =>
    match a.files fs with
    | .error error => ⟨[], .error error⟩
    | .ok files =>
      let rest := scanAndDeliver package dialect fs a settings files
      { rest with events := .discovered files.length a.root :: rest.events }

/-- The run for some arguments. The project is the directory to scan or, when it is no directory,
the working directory. -/
def ofArguments (package : Option GrammarPackage) (dialect : Report.Csv.Dialect) (fs : FileSystem)
    (userFile : Path) (environment : Environment) (a : Arguments) : Run :=
  match fs.isDirectory a.root with
  | .error error => ⟨[], .error (.refused error)⟩
  | .ok isDirectory =>
    let project := if isDirectory then a.root else ⟨['/'], fs.workingDirectory⟩
    let loaded := Settings.load fs userFile project environment
    let notices := loaded.notices.map Event.configurationIgnored
    match loaded.settings with
    | .error error => ⟨notices, .error (.settings error)⟩
    | .ok settings =>
      let rest := withSettings package dialect fs a settings
      { rest with events := notices ++ rest.events }

/-- The lines that a run writes to the standard error: the events that are to be told, and the
error if it is an expected one. -/
def standardError (r : Run) (verbosity : Option Verbosity) : List String :=
  let told := r.events.filter fun event => Verbosity.tells verbosity event.severity
  let lines := told.map fun event => event.severity.name ++ ": " ++ event.message
  match r.outcome with
  | .ok _ => lines
  | .error error => lines ++ (error.report?.map ("Error: " ++ ·)).toList

def exitCode (r : Run) : Nat :=
  match r.outcome with
  | .ok _ => 0
  | .error _ => 1

end Run

def versionText : String := "urldetect 0.1.0"

end UrlScan
