import UrlScan.FileSystem.Tree
import UrlScan.Report.Format
import UrlScan.Settings.Value
import UrlScan.Text.Alphanumeric
import UrlScan.Yaml.Fault

/-!
# Options of a scan

The options of a scan, the values they may have, and their defaults. Options are checked as a whole:
`ScanOptions.ofValues` turns a value for every option into checked options or tells the first fault.
Lists may be given as texts with commas, and numbers as flags, which count as zero and one; flags are
not checked, and any value that counts as set switches them on.
-/

namespace UrlScan

inductive ScanOption
  | concurrency
  | poolSize
  | includeComments
  /-- Whether hosts of one label are accepted. -/
  | includeSingleLabel
  /-- Whether files without a usable grammar are searched as plain text. -/
  | fallback
  /-- Languages that are always searched as plain text. -/
  | forceFallback
  /-- How many lines of context a URL has on each side. -/
  | contextLines
  /-- Whether the first file that cannot be scanned ends the scan. -/
  | failOnError
  /-- Domains whose URLs are dropped. -/
  | ignoreDomains
  /-- Whether files without URLs stay in the report. -/
  | keepEmptyFiles
  | schemes
  /-- The size in bytes above which a file is skipped; zero for no limit. -/
  | maxFileSize
deriving DecidableEq, Repr

namespace ScanOption

def all : List ScanOption :=
  [concurrency, poolSize, includeComments, includeSingleLabel, fallback, forceFallback,
   contextLines, failOnError, ignoreDomains, keepEmptyFiles, schemes, maxFileSize]

def name : ScanOption → Text
  | concurrency => "concurrency".toList
  | poolSize => "pool_size".toList
  | includeComments => "include_comments".toList
  | includeSingleLabel => "include_non_fqdn".toList
  | fallback => "fallback_regex".toList
  | forceFallback => "force_fallback".toList
  | contextLines => "context_lines".toList
  | failOnError => "fail_on_error".toList
  | ignoreDomains => "ignore_domains".toList
  | keepEmptyFiles => "keep_empty_files".toList
  | schemes => "schemes".toList
  | maxFileSize => "max_file_size".toList

def ofName? (name : Text) : Option ScanOption :=
  all.find? fun option => option.name == name

def default : ScanOption → Value
  | concurrency => .number 10
  | poolSize => .number 10
  | includeComments => .flag false
  | includeSingleLabel => .flag false
  | fallback => .flag true
  | forceFallback => .list []
  | contextLines => .number 0
  | failOnError => .flag false
  | ignoreDomains => .list []
  | keepEmptyFiles => .flag true
  | schemes => .texts ["http".toList, "https".toList]
  | maxFileSize => .number 0

end ScanOption

/-- Why an option, or a place where options are given, is refused. -/
inductive OptionFault
  | concurrencyTooSmall
  | poolSizeTooSmall
  | contextLinesNegative
  | maxFileSizeNegative
  | noScheme
  | invalidScheme (scheme : Text)
  | unknownScanOptions (names : List Text)
  | unknownOutputOption (name : Text)
  | outputKeyNotText
  /-- The output options are not a mapping but a value of the named kind. -/
  | outputNotMapping (kind : String)
  /-- The format, as it is shown, is none of the formats. -/
  | invalidFormat (shown : Text)
  | variableNotInteger (key raw : Text)
  | variableNotBoolean (key raw : Text)
  | maxDepthNegative
  | notDirectory (path : Text)
deriving Repr

/-- Values of the wrong kind, which no rule of the options speaks about. -/
inductive KindFault
  /-- A value that is to be shown has a number with too many digits. -/
  | tooManyDigits (error : Text.TooManyDigits)
  | schemeNotText
  /-- A date among the schemes, in which other parts are replaced than in a text. -/
  | schemeIsDate
  | domainNotText
  | languageNotText
  | sectionNotMapping
  | keyNotText
  | depthNotNumber
  | unknownOption (name : Text)
deriving Repr

/-- Why settings cannot be made. -/
inductive SettingsError
  | invalid (fault : OptionFault)
  | wrongKind (fault : KindFault)
  | undecodable (error : DecodeError)
  /-- The system refuses to look for a configuration file. -/
  | refused (error : AccessError)
  /-- A configuration file has a scalar without a value. -/
  | scalar (fault : Yaml.ScalarFault)
deriving Repr

def OptionFault.message : OptionFault → String
  | concurrencyTooSmall => "Concurrency must be >= 1"
  | poolSizeTooSmall => "Pool size must be >= 1"
  | contextLinesNegative => "Context lines must be >= 0"
  | maxFileSizeNegative => "Max file size must be >= 0"
  | noScheme => "At least one URL scheme is required"
  | invalidScheme scheme => "Invalid URL scheme: " ++ String.ofList scheme
  | unknownScanOptions names =>
    "Unknown scan option(s): " ++ String.ofList (Text.join ", ".toList names)
  | unknownOutputOption name =>
    "Invalid output options: OutputConfig.__init__() got an unexpected keyword argument '"
      ++ String.ofList name ++ "'"
  | outputKeyNotText => "Invalid output options: keywords must be strings"
  | outputNotMapping kind =>
    "Invalid output options: urldetect.config.OutputConfig() argument after ** must be a mapping"
      ++ ", not " ++ kind
  | invalidFormat shown =>
    "Invalid output format: " ++ String.ofList shown ++ ". Valid formats: "
      ++ String.ofList (Text.join ", ".toList (ReportFormat.all.map ReportFormat.name))
  | variableNotInteger key raw =>
    String.ofList key ++ " must be an integer, got " ++ String.ofList (Text.quote raw)
  | variableNotBoolean key raw =>
    String.ofList key ++ " must be a boolean, got " ++ String.ofList (Text.quote raw)
  | maxDepthNegative => "Max depth must be >= 0"
  | notDirectory path => "Not a directory: " ++ String.ofList path

/-- A count: a whole number, or a flag that counts as one or zero. -/
inductive Count
  | number (n : Int)
  | flag (b : Bool)
deriving DecidableEq, Repr

namespace Count

def toInt : Count → Int
  | number n => n
  | flag b => if b then 1 else 0

def toValue : Count → Value
  | number n => .number n
  | flag b => .flag b

end Count

def Value.count? : Value → Option Count
  | .scalar (.number n) => some (.number n)
  | .scalar (.flag b) => some (.flag b)
  | _ => none

def Value.text? : Value → Option Text
  | .scalar (.text t) => some t
  | _ => none

/-- A scheme has a letter or numeral of some script, and besides these only `+`, `-` and `.`. -/
def isScheme (scheme : Text) : Bool :=
  let core := scheme.filter fun c => c != '+' && c != '-' && c != '.'
  !core.isEmpty && core.all Text.isAlphanumeric

/-- Checked options of a scan. -/
structure ScanOptions where
  concurrency : Count
  poolSize : Count
  includeComments : Value
  includeSingleLabel : Value
  fallback : Value
  forceFallback : List Value
  contextLines : Count
  failOnError : Value
  ignoreDomains : List Value
  keepEmptyFiles : Value
  schemes : List Text
  maxFileSize : Count
  concurrency_pos : 1 ≤ concurrency.toInt
  poolSize_pos : 1 ≤ poolSize.toInt
  contextLines_nonneg : 0 ≤ contextLines.toInt
  maxFileSize_nonneg : 0 ≤ maxFileSize.toInt
  schemes_ne_nil : schemes ≠ []
  schemes_valid : ∀ scheme ∈ schemes, isScheme scheme = true
deriving Repr

/-- What is in the options that are lists, before it is checked. -/
structure OptionLists where
  forceFallback : List Value
  ignoreDomains : List Value
  schemes : List Value

namespace ScanOptions

/-- The items of an option that is a list. -/
def itemsOf (value : Value) : Except SettingsError (List Value) :=
  value.items.mapError fun error => .wrongKind (.tooManyDigits error)

/-- The count of a value that has at least the given size. -/
def countFrom (minimum : Int) (fault : OptionFault) (value : Value) :
    Except SettingsError { count : Count // minimum ≤ count.toInt } :=
  match value.count? with
  | some count =>
    if large : minimum ≤ count.toInt then .ok ⟨count, large⟩ else .error (.invalid fault)
  | none => .error (.invalid fault)

/-- What is wrong with a scheme that is no text. -/
def schemeFault : Value → KindFault
  | .scalar (.date _) | .scalar (.moment _) => .schemeIsDate
  | _ => .schemeNotText

def schemesOf : List Value →
    Except SettingsError { schemes : List Text // ∀ scheme ∈ schemes, isScheme scheme = true }
  | [] => .ok ⟨[], by simp⟩
  | value :: rest =>
    match value.text? with
    | none => .error (.wrongKind (schemeFault value))
    | some scheme =>
      if valid : isScheme scheme = true then
        match schemesOf rest with
        | .ok ⟨schemes, restValid⟩ => .ok ⟨scheme :: schemes, by simpa [valid] using restValid⟩
        | .error e => .error e
      else .error (.invalid (.invalidScheme scheme))

/-- The items of the options that are lists. -/
def listsOf (values : ScanOption → Value) : Except SettingsError OptionLists := do
  let forceFallback ← itemsOf (values .forceFallback)
  let ignoreDomains ← itemsOf (values .ignoreDomains)
  let schemes ← itemsOf (values .schemes)
  return ⟨forceFallback, ignoreDomains, schemes⟩

/-- Checks a value for every option, where the lists are taken apart. The first fault counts, in the
order concurrency, pool size, context lines, file size, schemes. -/
def check (values : ScanOption → Value) (lists : OptionLists) :
    Except SettingsError ScanOptions := do
  let ⟨concurrency, concurrency_pos⟩ ← countFrom 1 .concurrencyTooSmall (values .concurrency)
  let ⟨poolSize, poolSize_pos⟩ ← countFrom 1 .poolSizeTooSmall (values .poolSize)
  let ⟨contextLines, contextLines_nonneg⟩ ←
    countFrom 0 .contextLinesNegative (values .contextLines)
  let ⟨maxFileSize, maxFileSize_nonneg⟩ ← countFrom 0 .maxFileSizeNegative (values .maxFileSize)
  let ⟨schemes, schemes_valid⟩ ← schemesOf lists.schemes
  if schemes_ne_nil : schemes ≠ [] then
    return {
      concurrency, poolSize, contextLines, maxFileSize, schemes
      includeComments := values .includeComments
      includeSingleLabel := values .includeSingleLabel
      fallback := values .fallback
      forceFallback := lists.forceFallback
      failOnError := values .failOnError
      ignoreDomains := lists.ignoreDomains
      keepEmptyFiles := values .keepEmptyFiles
      concurrency_pos, poolSize_pos, contextLines_nonneg, maxFileSize_nonneg
      schemes_ne_nil, schemes_valid }
  else .error (.invalid .noScheme)

/-- The checked options with the given values. Lists may be given as texts. -/
def ofValues (values : ScanOption → Value) : Except SettingsError ScanOptions := do
  check values (← listsOf values)

def toValues (o : ScanOptions) : ScanOption → Value
  | .concurrency => o.concurrency.toValue
  | .poolSize => o.poolSize.toValue
  | .includeComments => o.includeComments
  | .includeSingleLabel => o.includeSingleLabel
  | .fallback => o.fallback
  | .forceFallback => .list o.forceFallback
  | .contextLines => o.contextLines.toValue
  | .failOnError => o.failOnError
  | .ignoreDomains => .list o.ignoreDomains
  | .keepEmptyFiles => o.keepEmptyFiles
  | .schemes => .texts o.schemes
  | .maxFileSize => o.maxFileSize.toValue

/-- The options as a mapping that gives each of them by its name. -/
def toEntries (o : ScanOptions) : List (Scalar × Value) :=
  ScanOption.all.map fun option => (.text option.name, o.toValues option)

/-- The keys of a mapping that name no option, as texts where they are texts. -/
def unknownKeys (keys : List Scalar) : List (Option Text) :=
  keys.filterMap fun key =>
    match key with
    | .text t => if (ScanOption.ofName? t).isSome then none else some (some t)
    | _ => some none

def checkKeys (keys : List Scalar) : Except SettingsError Unit :=
  match unknownKeys keys with
  | [] => .ok ()
  | unknown =>
    match unknown.mapM id with
    | some names => .error (.invalid (.unknownScanOptions (Text.sortedDistinct names)))
    | none => .error (.wrongKind .keyNotText)

/-- The options that a mapping gives, over the defaults. -/
def ofEntries (entries : List (Scalar × Value)) : Except SettingsError ScanOptions := do
  checkKeys (entries.map (·.1))
  ofValues fun option => (Value.get? entries option.name).getD option.default

/-- The options that the section of a configuration gives. A section that is not set gives none. A
text or a list is read as its characters or items for the names of unknown options only. -/
def ofSection (value : Value) : Except SettingsError ScanOptions :=
  if value.isSet then
    match value with
    | .mapping entries => ofEntries entries
    | .list items => do
      let keys ← items.mapM fun item =>
        match item with
        | .scalar s => .ok s
        | _ => .error (.wrongKind .keyNotText)
      checkKeys keys
      .error (.wrongKind .sectionNotMapping)
    | .scalar (.text t) => do
      checkKeys (t.map fun c => .text [c])
      .error (.wrongKind .sectionNotMapping)
    | .scalar _ => .error (.wrongKind .sectionNotMapping)
  else ofEntries []

/-- The options with some of them replaced. -/
def replace (o : ScanOptions) (replacement : ScanOption → Option Value) :
    Except SettingsError ScanOptions :=
  ofValues fun option => (replacement option).getD (o.toValues option)

/-- The options with those replaced that are given by name. Replacing by null changes nothing. -/
def override (o : ScanOptions) (replacements : List (Text × Value)) :
    Except SettingsError ScanOptions :=
  let given := replacements.filter fun replacement => !replacement.2.isNull
  match given.find? fun replacement => (ScanOption.ofName? replacement.1).isNone with
  | some (name, _) => .error (.wrongKind (.unknownOption name))
  | none => o.replace fun option => given.lookup option.name

/-- The options of a call that gives some of them by name. -/
def ofArguments (arguments : List (Text × Value)) : Except SettingsError ScanOptions :=
  match arguments.find? fun argument => (ScanOption.ofName? argument.1).isNone with
  | some (name, _) => .error (.wrongKind (.unknownOption name))
  | none => ofValues fun option => (arguments.lookup option.name).getD option.default

end ScanOptions

end UrlScan
