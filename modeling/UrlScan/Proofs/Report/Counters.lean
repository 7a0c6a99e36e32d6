import UrlScan.Proofs.Report.JsonReport
import UrlScan.Proofs.Scan.Rounds
import UrlScan.Proofs.Settings.Precedence

/-!
# What a scan counts and what its report counts

The counters of a scan are those that are logged; they are over all files that were scanned. The
report in JSON has counters of its own, over the files in the report. When the files without URLs
are left out of the report, these are fewer files, but the URLs are the same. So the two numbers of
URLs agree for every run (`summary_counts`), while the report does not count the files that it
leaves out (`summary_without_empty_file`).

Results:
1. `scan_counts`: a scan counts every file that it was given and that did not fail.
2. `exists_scan`: a run that delivers a report has scanned its files.
3. `summary_counts`: the summary of the report against the counters of the scan.
-/

namespace UrlScan

/-! ## Places in a batch -/

namespace Admission

variable {α ε : Type}

/-- All files of a batch are at one of its places, and while files are admitted none waits when no
file is in flight. -/
structure Complete (failFast : Bool) (total : Nat) (s : Admission α ε) : Prop where
  total_eq : s.waiting.length + s.inFlight.length + s.completed.length + s.failures.length = total
  idle : s.inFlight = [] → s.waiting = [] ∨ failFast = true ∧ s.failures ≠ []

section
variable {failFast : Bool} {total concurrency : Nat} {files : List Text} {s : Admission α ε}

theorem complete_start (room : 1 ≤ concurrency) :
    Complete failFast files.length (start concurrency files : Admission α ε) := by
  constructor
  case total_eq =>
    simp only [start, List.length_drop, List.length_take, length_numbered, List.length_nil]
    omega
  case idle =>
    intro none
    simp only [start, List.take_eq_nil_iff] at none ⊢
    rcases none with noRoom | noFiles
    · omega
    · rw [noFiles, List.drop_nil]
      exact .inl rfl

theorem length_outcome (number : Nat) (outcome : Except ε α) :
    (resultOf number outcome).length + (failureOf number outcome).length = 1 := by
  cases outcome <;> rfl

theorem Complete.settle (complete : Complete failFast total s) {position : Nat}
    {entry : Nat × Text} (present : s.inFlight[position]? = some entry) (outcome : Except ε α) :
    Complete failFast total (s.settle failFast position outcome) := by
  obtain ⟨admitted, waiting, inFlight, completed, failures, -, none⟩ :=
    settle_cases failFast outcome present
  have fits : position < s.inFlight.length := (List.getElem?_eq_some_iff.mp present).choose
  constructor
  case total_eq =>
    have before := complete.total_eq
    have one := length_outcome entry.1 outcome
    rw [waiting, List.length_append] at before
    rw [inFlight, completed, failures]
    simp only [List.length_append, List.length_eraseIdx_of_lt fits]
    omega
  case idle =>
    intro idle
    rw [inFlight, List.append_eq_nil_iff] at idle
    rw [idle.2, List.nil_append] at waiting
    exact waiting ▸ none idle.2

/-- When no file is in flight any more and the batch did not end early, every file is recorded. -/
theorem Complete.recorded (complete : Complete failFast total s) (idle : s.inFlight = [])
    (goesOn : failFast = true → s.failures = []) :
    s.completed.length + s.failures.length = total := by
  have noneWaits : s.waiting = [] := by
    rcases complete.idle idle with none | ⟨isFailFast, failed⟩
    · exact none
    · exact absurd (goesOn isFailFast) failed
  have places := complete.total_eq
  rw [noneWaits, idle, List.length_nil, Nat.zero_add] at places
  exact places

theorem failures_of_firstFailure? (none : ∀ error, s.firstFailure? ≠ some error) :
    s.failures = [] := by
  cases failures : s.failures with
  | nil => rfl
  | cons failure rest =>
    refine absurd ?_ (none failure.2)
    rw [firstFailure?, failures]
    rfl

theorem length_inOrder {β : Type} (recorded : List (Nat × β)) :
    (inOrder recorded).length = recorded.length := by
  rw [inOrder, List.length_map, List.length_mergeSort]

end

end Admission

/-! ## The scan -/

namespace Scanner

open Admission

/-- The scanner that keeps the files without URLs and is the same otherwise. -/
def keepingAll (s : Scanner) : Scanner :=
  { s with options := { s.options with keepEmptyFiles := .flag true } }

section
variable {s : Scanner} {fs : FileSystem} {files : List Text}

theorem scanFile_keepingAll (s : Scanner) (fs : FileSystem) (state : ScanState) (file : Text) :
    s.keepingAll.scanFile fs state file = s.scanFile fs state file :=
  rfl

theorem settleAll_keepingAll (s : Scanner) (fs : FileSystem)
    (batch : Admission FileResult FileError) (state : ScanState) :
    s.keepingAll.settleAll fs batch state = s.settleAll fs batch state := by
  fun_induction s.settleAll fs batch state with
  | case1 batch state idle =>
    rw [settleAll]
    split
    next => rfl
    next busy => cases idle.symm.trans busy
  | case2 batch state number file rest inFlight abort after scanned =>
    rw [settleAll]
    split
    next idle => cases inFlight.symm.trans idle
    next same =>
      cases inFlight.symm.trans same
      rw [scanFile_keepingAll, scanned]
      rfl
  | case3 batch state number file rest inFlight found after scanned logged ih =>
    rw [settleAll]
    split
    next idle => cases inFlight.symm.trans idle
    next same =>
      cases inFlight.symm.trans same
      rw [scanFile_keepingAll, scanned]
      exact ih

theorem settleAll_complete {total : Nat} {batch settled : Admission FileResult FileError}
    {state after : ScanState}
    (complete : Complete s.options.failOnError.isSet total batch)
    (settles : s.settleAll fs batch state = (.ok settled, after)) :
    Complete s.options.failOnError.isSet total settled ∧ settled.inFlight = [] := by
  fun_induction s.settleAll fs batch state with
  | case1 batch state idle =>
    cases settles
    exact ⟨complete, idle⟩
  | case2 batch state number file rest inFlight abort after scanned => cases settles
  | case3 batch state number file rest inFlight found after scanned logged ih =>
    have first : batch.inFlight[0]? = some (number, file) := by rw [inFlight]; rfl
    exact ih (complete.settle first found) settles

/-- A scan counts every file that was scanned, as the same scan does when it keeps the files without
URLs. Every other file has failed. -/
theorem scan_counts {state after : ScanState} {outcome : ScanOutcome}
    (scanned : s.scan fs files state = (.ok outcome, after)) :
    ∃ results,
      s.keepingAll.scan fs files state =
        (.ok ⟨results, outcome.tally, outcome.failures⟩, after) ∧
      outcome.tally = .ofResults results ∧
      outcome.results = (if s.options.keepEmptyFiles.isSet then results
        else results.filter fun result => !result.urls.isEmpty) ∧
      outcome.tally.files + outcome.failures.length = files.length ∧
      (files ≠ [] → .finished outcome.tally outcome.failures.length ∈ after.events) := by
  unfold scan at scanned ⊢
  split at scanned
  next none =>
    cases scanned
    refine ⟨[], if_pos none, rfl, ?_, ?_, fun some => absurd (List.isEmpty_iff.mp none) some⟩
    · cases s.options.keepEmptyFiles.isSet <;> rfl
    · rw [List.isEmpty_iff.mp none]
      rfl
  next some =>
    have sameOptions : s.keepingAll.options.concurrency = s.options.concurrency ∧
        s.keepingAll.options.failOnError = s.options.failOnError := ⟨rfl, rfl⟩
    rw [if_neg some, settleAll_keepingAll, sameOptions.1, sameOptions.2]
    split at scanned
    next => cases scanned
    next batch settled settles =>
      split at scanned
      next => cases scanned
      next goesOn =>
        cases scanned
        have room : 1 ≤ s.options.concurrency.toInt.toNat := by
          have := s.options.concurrency_pos
          omega
        obtain ⟨complete, idle⟩ := settleAll_complete (complete_start room) settles
        have recorded := complete.recorded idle fun failFast =>
          failures_of_firstFailure? fun error first => goesOn error first failFast
        refine ⟨inOrder batch.completed, rfl, rfl, rfl, ?_,
          fun _ => List.mem_append_right _ (List.mem_singleton_self _)⟩
        calc (inOrder batch.completed).length + (inOrder batch.failures).length
            = batch.completed.length + batch.failures.length := by
              rw [length_inOrder, length_inOrder]
          _ = files.length := recorded

end

end Scanner

/-! ## The run -/

/-- The text that is delivered. -/
def Delivery.text : Delivery → Text
  | standardOutput report => report
  | file _ report => report

/-- The scan of a run: the settings that the run uses, the files that it finds, and what comes of
scanning them. -/
structure RunScan (package : Option GrammarPackage) (fs : FileSystem) (userFile : Path)
    (environment : Environment) (a : Arguments) where
  used : Settings
  files : List Path
  scanner : Scanner
  outcome : ScanOutcome
  state : ScanState
  uses : ∃ user project, (Layers.mk user project environment a).Uses fs userFile used
  found : a.files fs = .ok files
  made : Scanner.ofOptions used.scan = .ok scanner
  scanned : scanner.scan fs (files.map Path.text) (scanner.newState (.builtIn package)) =
    (.ok outcome, state)

namespace Run

section
variable {package : Option GrammarPackage} {dialect : Report.Csv.Dialect} {fs : FileSystem}
  {userFile : Path} {environment : Environment} {a : Arguments} {settings : Settings}
  {delivery : Delivery}

theorem text_deliver {output : Option Text} {report : Text}
    (delivered : deliver fs output report = .ok delivery) : delivery.text = report ++ ['\n'] := by
  unfold deliver at delivered
  split at delivered
  next => cases delivered; rfl
  next => cases delivered; rfl
  next =>
    split at delivered
    next => cases delivered; rfl
    next => cases delivered

/-- A run that delivers a report has made a scanner, scanned the files and delivered the report on
the results. -/
theorem scanAndDeliver_ok {files : List Path}
    (completes : (scanAndDeliver package dialect fs a settings files).outcome = .ok delivery) :
    ∃ scanner outcome state report, Scanner.ofOptions settings.scan = .ok scanner ∧
      scanner.scan fs (files.map Path.text) (scanner.newState (.builtIn package)) =
        (.ok outcome, state) ∧
      Report.render dialect settings.output.style outcome.results = .ok report ∧
      delivery.text = report ++ ['\n'] ∧
      state.events ⊆ (scanAndDeliver package dialect fs a settings files).events := by
  unfold scanAndDeliver at completes ⊢
  cases made : Scanner.ofOptions settings.scan with
  | error fault =>
    rw [made] at completes
    cases completes
  | ok scanner =>
    rw [made] at completes
    cases scanned : scanner.scan fs (files.map Path.text) (scanner.newState (.builtIn package)) with
    | mk result state =>
      dsimp only at completes ⊢
      rw [scanned] at completes ⊢
      cases result with
      | error error => cases completes
      | ok outcome =>
        dsimp only at completes ⊢
        cases written : Report.render dialect settings.output.style outcome.results with
        | error error =>
          rw [written] at completes
          cases completes
        | ok report =>
          rw [written] at completes
          dsimp only at completes ⊢
          cases delivered : deliver fs a.output report with
          | error error =>
            rw [delivered] at completes
            cases completes
          | ok delivery =>
            rw [delivered] at completes
            cases completes
            refine ⟨scanner, outcome, state, report, rfl, scanned, written,
              text_deliver delivered, ?_⟩
            dsimp only
            rw [List.append_assoc]
            exact List.subset_append_left _ _

theorem withSettings_ok
    (completes : (withSettings package dialect fs a settings).outcome = .ok delivery) :
    ∃ used files, a.overlay settings = .ok used ∧ a.files fs = .ok files ∧
      (scanAndDeliver package dialect fs a used files).outcome = .ok delivery ∧
      (scanAndDeliver package dialect fs a used files).events ⊆
        (withSettings package dialect fs a settings).events := by
  unfold withSettings at completes ⊢
  cases overlaid : a.overlay settings with
  | error error =>
    rw [overlaid] at completes
    cases completes
  | ok used =>
    rw [overlaid] at completes
    cases found : a.files fs with
    | error error =>
      rw [found] at completes
      cases completes
    | ok files =>
      rw [found] at completes
      exact ⟨used, files, rfl, rfl, completes, List.subset_cons_self _ _⟩

/-- A run that delivers a report has loaded settings. -/
theorem ofArguments_ok
    (completes : (ofArguments package dialect fs userFile environment a).outcome = .ok delivery) :
    ∃ isDirectory settings, fs.isDirectory a.root = .ok isDirectory ∧
      (Settings.load fs userFile (if isDirectory then a.root else ⟨['/'], fs.workingDirectory⟩)
        environment).settings = .ok settings ∧
      (withSettings package dialect fs a settings).outcome = .ok delivery ∧
      (withSettings package dialect fs a settings).events ⊆
        (ofArguments package dialect fs userFile environment a).events := by
  unfold ofArguments at completes ⊢
  cases isRoot : fs.isDirectory a.root with
  | error error =>
    rw [isRoot] at completes
    cases completes
  | ok isDirectory =>
    rw [isRoot] at completes
    dsimp only at completes ⊢
    cases loaded : (Settings.load fs userFile
        (if isDirectory then a.root else ⟨['/'], fs.workingDirectory⟩) environment).settings with
    | error error =>
      rw [loaded] at completes
      cases completes
    | ok settings =>
      rw [loaded] at completes
      exact ⟨isDirectory, settings, rfl, loaded, completes, List.subset_append_right _ _⟩

/-- A run that delivers a report has scanned the files that it found with the settings that it uses,
and delivers the report on the results. -/
theorem exists_scan
    (completes : (ofArguments package dialect fs userFile environment a).outcome = .ok delivery) :
    ∃ (scan : RunScan package fs userFile environment a) (report : Text),
      Report.render dialect scan.used.output.style scan.outcome.results = .ok report ∧
      delivery.text = report ++ ['\n'] ∧
      scan.state.events ⊆ (ofArguments package dialect fs userFile environment a).events := by
  obtain ⟨isDirectory, settings, isRoot, loaded, completes, told⟩ := ofArguments_ok completes
  obtain ⟨user, _, project, _, userRead, projectRead, made⟩ := Settings.loadBy_ok loaded
  obtain ⟨used, files, overlaid, found, completes, toldThen⟩ := withSettings_ok completes
  obtain ⟨scanner, outcome, state, report, isScanner, scanned, written, delivered, toldLast⟩ :=
    scanAndDeliver_ok completes
  have uses : (Layers.mk user project environment a).Uses fs userFile used :=
    ⟨⟨_, userRead⟩, ⟨isDirectory, _, isRoot, projectRead⟩, settings, made, overlaid⟩
  exact ⟨⟨used, files, scanner, outcome, state, ⟨user, project, uses⟩, found, isScanner, scanned⟩,
    report, written, delivered, List.Subset.trans toldLast (List.Subset.trans toldThen told)⟩

end

end Run

/-! ## The report -/

namespace Scanner

theorem options_ofOptions {options : ScanOptions} {s : Scanner} (made : ofOptions options = .ok s) :
    s.options = options := by
  unfold ofOptions at made
  split at made
  next => cases made
  next => cases made; rfl

end Scanner

/-- Files without URLs have no part in the URLs of a report. -/
theorem FileResult.allUrls_filter (results : List FileResult) :
    allUrls (results.filter fun result => !result.urls.isEmpty) = allUrls results := by
  induction results with
  | nil => rfl
  | cons result rest ih =>
    have first : allUrls (result :: rest) = result.urls.map (·.url) ++ allUrls rest := rfl
    rw [List.filter_cons, first]
    split
    next => rw [← ih]; rfl
    next noUrls =>
      have none : result.urls = [] := by simpa using noUrls
      rw [none, ih]
      rfl

theorem FileResult.filter_eq_nil {results : List FileResult} (none : (allUrls results).length = 0) :
    (results.filter fun result => !result.urls.isEmpty) = [] := by
  rw [List.length_eq_zero_iff, allUrls, List.flatMap_eq_nil_iff] at none
  rw [List.filter_eq_nil_iff]
  intro result member some
  rw [List.map_eq_nil_iff.mp (none result member)] at some
  cases some

/-- The summary of a report in JSON counts the results in the report. -/
theorem Report.Json.read?_summary {limit : Option Nat} {lineNumbers : Bool}
    {results : List FileResult} {report : Text}
    (written : render limit lineNumbers results = .ok report) :
    ∃ files, JsonDatum.read? report = some (.object
      [("summary".toList, .object
        [("totalFiles".toList, .integer results.length),
         ("totalUrls".toList, .integer (FileResult.allUrls results).length),
         ("uniqueUrls".toList, .integer (FileResult.allUrls results).eraseDups.length)]),
       ("files".toList, .array files)]) := by
  rw [read?_render written, report_datum]
  exact ⟨_, rfl⟩

namespace Run

section
variable {package : Option GrammarPackage} {dialect : Report.Csv.Dialect} {fs : FileSystem}
  {userFile : Path} {environment : Environment} {a : Arguments} {delivery : Delivery}

/-- A run that delivers its report in JSON. The scan counts the files that did not fail, whether or
not the report has them, and their URLs; these are the counters that are logged. The summary of the
report has the same two numbers of URLs. It has the same number of files, too, if the files without
URLs are kept; otherwise it counts the scanned files that have URLs. -/
theorem summary_counts
    (completes : (ofArguments package dialect fs userFile environment a).outcome = .ok delivery) :
    ∃ (scan : RunScan package fs userFile environment a) (results : List FileResult),
      scan.scanner.keepingAll.scan fs (scan.files.map Path.text)
          (scan.scanner.newState (.builtIn package)) =
        (.ok ⟨results, scan.outcome.tally, scan.outcome.failures⟩, scan.state) ∧
      scan.outcome.tally = .ofResults results ∧
      scan.outcome.tally.files + scan.outcome.failures.length = scan.files.length ∧
      (scan.files ≠ [] → .finished scan.outcome.tally scan.outcome.failures.length ∈
        (ofArguments package dialect fs userFile environment a).events) ∧
      ∀ lineNumbers, scan.used.output.style = .formatted .json lineNumbers →
        ∃ report files, delivery.text = report ++ ['\n'] ∧
          JsonDatum.read? report = some (.object
            [("summary".toList, .object
              [("totalFiles".toList, .integer
                (if scan.used.scan.keepEmptyFiles.isSet then scan.outcome.tally.files
                  else results.countP fun result => !result.urls.isEmpty : Nat)),
               ("totalUrls".toList, .integer scan.outcome.tally.urls),
               ("uniqueUrls".toList, .integer scan.outcome.tally.distinct)]),
             ("files".toList, .array files)]) := by
  obtain ⟨scan, report, written, delivered, told⟩ := exists_scan completes
  obtain ⟨results, keepingAll, counts, kept, recorded, logged⟩ := Scanner.scan_counts scan.scanned
  rw [Scanner.options_ofOptions scan.made] at kept
  rw [List.length_map] at recorded
  refine ⟨scan, results, keepingAll, counts, recorded, fun some => told (logged ?_), ?_⟩
  · exact mt List.map_eq_nil_iff.mp some
  have sameUrls : FileResult.allUrls scan.outcome.results = FileResult.allUrls results := by
    rw [kept]
    split
    next => rfl
    next => exact FileResult.allUrls_filter results
  have files : scan.outcome.results.length =
      if scan.used.scan.keepEmptyFiles.isSet then scan.outcome.tally.files
      else results.countP fun result => !result.urls.isEmpty := by
    rw [kept, counts]
    split
    next => rfl
    next => exact List.countP_eq_length_filter.symm
  intro lineNumbers isJson
  rw [isJson] at written
  obtain ⟨reported, isRead⟩ := Report.Json.read?_summary written
  rw [sameUrls, files] at isRead
  refine ⟨report, reported, delivered, isRead.trans ?_⟩
  rw [counts]
  rfl

end

/-! ## Runs in a root directory -/

theorem entriesRead_eq {fs : FileSystem} {path : Path} {entries : List (Scalar × Value)}
    {notices : List ConfigurationNotice}
    (isRead : Settings.readFile fs path = .ok (entries, notices)) :
    Layers.entriesRead fs path = entries := by
  rw [Layers.entriesRead, isRead]

/-- The settings that a run for a directory uses can be computed from what is in the files. -/
theorem ofLayers_of_scan {package : Option GrammarPackage} {fs : FileSystem} {userFile : Path}
    {environment : Environment} {a : Arguments} (isRoot : fs.isDirectory a.root = .ok true)
    (scan : RunScan package fs userFile environment a) :
    (Settings.ofLayers (Layers.entriesRead fs userFile)
      (Layers.entriesRead fs (a.root.child Settings.projectFile)) environment).bind a.overlay =
        .ok scan.used := by
  obtain ⟨user, project, uses⟩ := scan.uses
  obtain ⟨_, userRead⟩ := uses.user_read
  obtain ⟨_, _, isDirectory, projectRead⟩ := uses.project_read
  obtain ⟨settings, made, overlaid⟩ := uses.valid
  cases isRoot.symm.trans isDirectory
  have projectEntries : Layers.entriesRead fs (a.root.child Settings.projectFile) = project :=
    entriesRead_eq projectRead
  rw [entriesRead_eq userRead, projectEntries, made]
  exact overlaid

/-- A directory with the file of a user who wants reports in JSON without the files that have no
URLs, with an empty file and with a file that has a URL. -/
def sparseFiles : FileSystem :=
  let options := "scan: {keep_empty_files: false, schemes: [https]}\n" ++ "output: {format: json}"
  ⟨.directory
    [("user".toList, .file (Utf8.encode options.toList)), ("empty.txt".toList, .file []),
     ("link.txt".toList, .file (Utf8.encode "https://example.com".toList))], []⟩

theorem sparse_isDirectory : sparseFiles.isDirectory (.parse ['.']) = .ok true := by
  have names : Path.parse ['.'] = ⟨[], []⟩ := by decide +kernel
  rw [names]
  rfl

def loggedTallies (r : Run) : List Tally :=
  r.events.filterMap fun event =>
    match event with
    | .finished tally _ => some tally
    | _ => none

theorem mem_loggedTallies {r : Run} {tally : Tally} {failures : Nat}
    (told : .finished tally failures ∈ r.events) : tally ∈ r.loggedTallies :=
  List.mem_filterMap.mpr ⟨_, told, rfl⟩

/-- A run for one of the files. -/
def sparseRun (file : String) : Run :=
  ofArguments none ⟨true⟩ sparseFiles Layers.rootUserFile [] { scan := some file.toList }

abbrev SparseScan (file : String) : Type :=
  RunScan none sparseFiles Layers.rootUserFile [] { scan := some file.toList }

theorem sparse_style {file : String} (scan : SparseScan file) :
    scan.used.output.style = .formatted .json true ∧
      scan.used.scan.keepEmptyFiles.isSet = false := by
  have made := ofLayers_of_scan sparse_isDirectory scan
  have computed : (((Settings.ofLayers (Layers.entriesRead sparseFiles Layers.rootUserFile)
      (Layers.entriesRead sparseFiles (Path.child (.parse ['.']) Settings.projectFile)) []).bind
        (Arguments.overlay {})).toOption.map fun used =>
          (used.output.style, used.scan.keepEmptyFiles.isSet)) =
        some (.formatted .json true, false) := by decide +kernel
  have same := (congrArg (fun used => used.toOption.map fun used : Settings =>
    (used.output.style, used.scan.keepEmptyFiles.isSet)) made).symm.trans computed
  exact Prod.mk.inj (Option.some.inj same)

theorem completes_of_isSome {r : Run} (completes : r.outcome.toOption.isSome = true) :
    ∃ delivery, r.outcome = .ok delivery := by
  cases isOutcome : r.outcome with
  | error error =>
    rw [isOutcome] at completes
    cases completes
  | ok delivery => exact ⟨delivery, rfl⟩

theorem sparse_found {file : String} (scan : SparseScan file)
    (finds : ((Arguments.files { scan := some file.toList } sparseFiles).toOption.map
      List.length) = some 1) : scan.files ≠ [] := by
  rw [scan.found] at finds
  rintro none
  rw [none] at finds
  cases finds

/-- The scan counts the empty file, and the report does not. -/
theorem summary_without_empty_file :
    ∃ (delivery : Delivery) (scan : SparseScan "empty.txt") (report : Text)
      (files : List JsonDatum),
      (sparseRun "empty.txt").outcome = .ok delivery ∧
      scan.used.output.style = .formatted .json true ∧
      scan.outcome.tally = ⟨1, 0, 0⟩ ∧
      delivery.text = report ++ ['\n'] ∧
      JsonDatum.read? report = some (.object
        [("summary".toList, .object
          [("totalFiles".toList, .integer 0), ("totalUrls".toList, .integer 0),
           ("uniqueUrls".toList, .integer 0)]),
         ("files".toList, .array files)]) := by
  have ran : (sparseRun "empty.txt").outcome.toOption.isSome = true ∧
      (sparseRun "empty.txt").loggedTallies = [⟨1, 0, 0⟩] := by decide +kernel
  obtain ⟨delivery, completes⟩ := completes_of_isSome ran.1
  obtain ⟨scan, report, written, delivered, told⟩ := exists_scan completes
  obtain ⟨isJson, dropsEmpty⟩ := sparse_style scan
  obtain ⟨results, -, counts, kept, recorded, logged⟩ := Scanner.scan_counts scan.scanned
  have some : scan.files.map Path.text ≠ [] :=
    mt List.map_eq_nil_iff.mp (sparse_found scan (by decide +kernel))
  have tally : scan.outcome.tally = ⟨1, 0, 0⟩ :=
    List.mem_singleton.mp (ran.2 ▸ mem_loggedTallies (told (logged some)))
  have noResult : scan.outcome.results = [] := by
    rw [kept, Scanner.options_ofOptions scan.made, dropsEmpty]
    exact FileResult.filter_eq_nil (congrArg Tally.urls (counts.symm.trans tally))
  rw [isJson] at written
  obtain ⟨files, isRead⟩ := Report.Json.read?_summary written
  refine ⟨delivery, scan, report, files, completes, isJson, tally, delivered, isRead.trans ?_⟩
  rw [noResult]
  rfl

/-- A file with a URL, which is counted in the report as in the scan. -/
theorem summary_counts_link :
    ∃ (delivery : Delivery) (scan : SparseScan "link.txt") (report : Text)
      (files : List JsonDatum),
      (sparseRun "link.txt").outcome = .ok delivery ∧
      scan.used.output.style = .formatted .json true ∧
      scan.outcome.tally = ⟨1, 1, 1⟩ ∧
      delivery.text = report ++ ['\n'] ∧
      JsonDatum.read? report = some (.object
        [("summary".toList, .object
          [("totalFiles".toList, .integer 1), ("totalUrls".toList, .integer 1),
           ("uniqueUrls".toList, .integer 1)]),
         ("files".toList, .array files)]) := by
  have ran : (sparseRun "link.txt").outcome.toOption.isSome = true ∧
      (sparseRun "link.txt").loggedTallies = [⟨1, 1, 1⟩] := by decide +kernel
  obtain ⟨delivery, completes⟩ := completes_of_isSome ran.1
  obtain ⟨scan, results, -, counts, -, logged, summary⟩ := summary_counts completes
  obtain ⟨isJson, dropsEmpty⟩ := sparse_style scan
  have some : scan.files ≠ [] := sparse_found scan (by decide +kernel)
  have tally : scan.outcome.tally = ⟨1, 1, 1⟩ :=
    List.mem_singleton.mp (ran.2 ▸ mem_loggedTallies (logged some))
  obtain ⟨report, files, delivered, isRead⟩ := summary true isJson
  refine ⟨delivery, scan, report, files, completes, isJson, tally, delivered, isRead.trans ?_⟩
  have withUrls : (results.countP fun result => !result.urls.isEmpty) = 1 := by
    have same : Tally.ofResults results = ⟨1, 1, 1⟩ := counts.symm.trans tally
    obtain ⟨result, rfl⟩ := List.length_eq_one_iff.mp (congrArg Tally.files same)
    have some : (!result.urls.isEmpty) = true := by
      cases urls : result.urls with
      | nil =>
        have one : (FileResult.allUrls [result]).length = 1 := congrArg Tally.urls same
        rw [Report.Json.length_allUrls, List.map_singleton, List.sum_singleton, urls] at one
        cases one
      | cons first rest => rfl
    exact List.countP_cons_of_pos some
  rw [dropsEmpty, tally, if_neg Bool.false_ne_true, withUrls]
  rfl

end Run

end UrlScan
