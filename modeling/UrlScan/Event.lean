import UrlScan.Failure
import UrlScan.Language.Grammar
import UrlScan.Occurrence
import UrlScan.Settings.Layers

/-!
# Events

What a run tells about itself while it goes on. Every event has a severity, by which the listener
chooses what to hear, and words.
-/

namespace UrlScan

/-- How much an event matters. -/
inductive Severity
  | debug
  | info
  | warning
  | error
deriving DecidableEq, Repr

namespace Severity

def name : Severity → String
  | debug => "DEBUG"
  | info => "INFO"
  | warning => "WARNING"
  | error => "ERROR"

def rank : Severity → Nat
  | debug => 0
  | info => 1
  | warning => 2
  | error => 3

end Severity

/-- Something that happens during a run. -/
inductive Event
  /-- A configuration file is passed over. -/
  | configurationIgnored (notice : ConfigurationNotice)
  /-- The grammar of a language could not be loaded. -/
  | grammarUnavailable (error : GrammarError)
  | poolExhausted (language : Text)
  | discovered (files : Nat) (root : Path)
  /-- A file is larger than allowed. -/
  | skipped (file : Text) (size : Nat) (limit : Int)
  /-- A file is read and its language is known. -/
  | scanning (file language : Text)
  /-- A file has no usable grammar and is not searched as plain text either. -/
  | notSearched (file : Text)
  | failed (error : FileError)
  | finished (tally : Tally) (failures : Nat)
  | written (file : Path)
  | incomplete (failures : Nat)
deriving DecidableEq, Repr

namespace Event

def severity : Event → Severity
  | discovered _ _ | scanning _ _ | notSearched _ => .debug
  | skipped _ _ _ | finished _ _ | written _ => .info
  | configurationIgnored _ | grammarUnavailable _ | poolExhausted _ | failed _ | incomplete _ =>
    .warning

def message : Event → String
  | configurationIgnored notice => notice.message
  | grammarUnavailable error => error.message
  | poolExhausted language =>
    "Parser pool exhausted for " ++ String.ofList language
      ++ ", reusing parser (consider increasing pool size)"
  | discovered files root =>
    "Discovered " ++ toString files ++ " files under " ++ String.ofList root.text
  | skipped file size limit =>
    "Skipping " ++ String.ofList file ++ ": " ++ toString size ++ " bytes exceeds limit of "
      ++ toString limit
  | scanning file language =>
    "Scanning " ++ String.ofList file ++ " as " ++ String.ofList language
  | notSearched file =>
    "No grammar for " ++ String.ofList file ++ " and regex fallback disabled"
  | failed error => error.message
  | finished tally failures =>
    "Scanned " ++ toString tally.files ++ " files, found " ++ toString tally.urls ++ " URLs ("
      ++ toString tally.distinct ++ " unique), " ++ toString failures ++ " failed"
  | written file => "Output written to " ++ String.ofList file.text
  | incomplete failures => toString failures ++ " file(s) could not be scanned"

end Event

end UrlScan
