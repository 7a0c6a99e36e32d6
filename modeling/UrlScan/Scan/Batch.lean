import UrlScan.Scan.Admission
import UrlScan.Scan.Scanner

/-!
# Scanning a batch of files

The outcome of a scan has the results and the failures in the order of the batch, whatever the order
in which the files settle. Here the files settle in the order of their admission.
-/

namespace UrlScan

structure ScanOutcome where
  results : List FileResult
  /-- The counters over all scanned files, also those that the results leave out. -/
  tally : Tally
  failures : List FileError
deriving DecidableEq, Repr

/-- Why a scan has no outcome. -/
inductive ScanError
  /-- A file fails, and the scan is to end with the first failure. -/
  | failed (error : FileError)
  | aborted (abort : ScanAbort)
deriving Repr

namespace ScanOutcome

def empty : ScanOutcome :=
  ⟨[], .ofResults [], []⟩

/-- The outcome of a batch that has settled. -/
def ofAdmission (keepEmptyFiles : Bool) (s : Admission FileResult FileError) : ScanOutcome :=
  let results := Admission.inOrder s.completed
  { results := if keepEmptyFiles then results else results.filter fun result => !result.urls.isEmpty
    tally := .ofResults results
    failures := Admission.inOrder s.failures }

end ScanOutcome

namespace Scanner

/-- The state after scans whose results are not looked at. -/
def finishAll (s : Scanner) (fs : FileSystem) (files : List Text) (state : ScanState) :
    ScanState :=
  files.foldl (fun state file => (s.scanFile fs state file).2) state

/-- Scans the files in flight, and those admitted after them, until all have settled. When the scan
breaks off, the other files in flight are still scanned. -/
def settleAll (s : Scanner) (fs : FileSystem) (batch : Admission FileResult FileError)
    (state : ScanState) : Except ScanAbort (Admission FileResult FileError) × ScanState :=
  match _present : batch.inFlight with
  | [] => (.ok batch, state)
  | (_, file) :: rest =>
    match s.scanFile fs state file with
    | (.error abort, state) => (.error abort, s.finishAll fs (rest.map (·.2)) state)
    | (.ok outcome, state) =>
      let state :=
        match outcome with
        | .ok _ => state
        | .error error => state.emit (.failed error)
      s.settleAll fs (batch.settle s.options.failOnError.isSet 0 outcome) state
termination_by batch.weight
decreasing_by exact Admission.weight_settle_lt _ _ (by simp [_present])

def scan (s : Scanner) (fs : FileSystem) (files : List Text) (state : ScanState) :
    Except ScanError ScanOutcome × ScanState :=
  if files.isEmpty then (.ok .empty, state)
  else
    match s.settleAll fs (.start s.options.concurrency.toInt.toNat files) state with
    | (.error abort, state) => (.error (.aborted abort), state)
    | (.ok batch, state) =>
      match batch.firstFailure?, s.options.failOnError.isSet with
      | some error, true => (.error (.failed error), state)
      | _, _ =>
        let outcome := ScanOutcome.ofAdmission s.options.keepEmptyFiles.isSet batch
        (.ok outcome, state.emit (.finished outcome.tally outcome.failures.length))

end Scanner

end UrlScan
