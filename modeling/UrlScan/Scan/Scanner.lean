import UrlScan.Event
import UrlScan.Extraction
import UrlScan.Filter
import UrlScan.Language.Registry
import UrlScan.ParserPool

/-!
# Scanning a file

A file is read and decoded, its language is detected, its URLs are extracted and the unwanted ones
among them are dropped. A file of a language with a usable grammar is searched in the strings of its
syntax tree; any other file is searched as plain text, if that is wanted. The parser is given back
whether the search succeeds or not.
-/

namespace UrlScan

/-- A scanner of files. -/
structure Scanner where
  options : ScanOptions
  extractor : Extractor
  /-- The languages that are always searched as plain text, in lower case. -/
  plainLanguages : List Text
  /-- The filter, if the ignored domains are texts. -/
  filter : Option Filter

/-- What a scanner remembers and tells. -/
structure ScanState where
  registry : Registry
  pool : ParserPool
  events : List Event

def ScanState.emit (s : ScanState) (event : Event) : ScanState :=
  { s with events := s.events ++ [event] }

/-- Why a scan breaks off without a failure of a file. -/
inductive ScanAbort
  | nulInPath
  | wrongKind (fault : KindFault)
deriving Repr

namespace Scanner

/-- The scanner for some options; the languages to be searched as plain text must be texts. -/
def ofOptions (options : ScanOptions) : Except KindFault Scanner :=
  match options.forceFallback.mapM Value.text? with
  | none => .error .languageNotText
  | some languages =>
    .ok
      { options
        extractor :=
          ⟨.ofSchemes options.schemes options.includeSingleLabel.isSet, options.contextLines.toInt⟩
        plainLanguages := languages.map Text.lowercase
        filter := (options.ignoreDomains.mapM Value.text?).map fun domains =>
          .ofDomains domains options.includeSingleLabel.isSet }

def newPool (s : Scanner) : ParserPool :=
  .ofCapacity s.options.poolSize.toInt.toNat (by have := s.options.poolSize_pos; omega)

/-- The state of a scanner before any scan. A registry without languages is replaced by the built-in
one. -/
def newState (s : Scanner) (registry : Registry) : ScanState :=
  let registry :=
    if registry.entries.isEmpty then .builtIn registry.library.package else registry
  ⟨registry, s.newPool, []⟩

/-! ## Steps -/

inductive Reading
  | tooLarge (size : Nat)
  | document (d : Document)

def read (s : Scanner) (fs : FileSystem) (file : Text) :
    Except ScanAbort (Except ScanFault Reading) :=
  match fs.read (.parse file) with
  | .error .nulInPath => .error .nulInPath
  | .error (.refused error) => .ok (.error (.unreadable error))
  | .ok bytes =>
    let limit := s.options.maxFileSize.toInt
    if limit ≠ 0 ∧ limit < bytes.length then .ok (.ok (.tooLarge bytes.length))
    else
      match Document.ofBytes .utf8 bytes with
      | .ok d => .ok (.ok (.document d))
      | .error error => .ok (.error (.undecodable error))

/-- How a document is to be searched. -/
inductive SearchPlan
  | asText
  | inTree (grammar : Grammar)
  | notAtAll

/-- Decides how a document of some language is searched. A grammar is asked for unless the language
is unknown or always searched as plain text. -/
def plan (s : Scanner) (file language : Text) (state : ScanState) : SearchPlan × ScanState :=
  let plain := s.plainLanguages.contains (Text.lowercase language)
  let found : GrammarLookup :=
    if language = Registry.unknown ∨ plain then ⟨none, state.registry, []⟩
    else state.registry.grammar language
  let state :=
    { state with
      registry := found.registry
      events := state.events ++ found.failures.map .grammarUnavailable }
  match found.grammar with
  | some grammar => (.inTree grammar, state)
  | none =>
    if plain || s.options.fallback.isSet then (.asText, state)
    else (.notAtAll, state.emit (.notSearched file))

def searchTree (s : Scanner) (d : Document) (grammar : Grammar) (parser : PooledParser) :
    Except ScanFault (List Occurrence) :=
  match parser.parse d.bytes with
  | .error reason => .error (.unparsable reason)
  | .ok tree =>
    match s.extractor.inTree? d grammar.language.kinds s.options.includeComments.isSet tree with
    | some occurrences => .ok occurrences
    | none => .error .nodeOutOfRange

/-- Takes a parser, searches a document with it, and gives the parser back. -/
def searchPooled (s : Scanner) (language : Text) (d : Document) (grammar : Grammar)
    (state : ScanState) : Except ScanFault (List Occurrence) × ScanState :=
  let taken := state.pool.acquire language grammar
  let state := { state with pool := taken.pool }
  let state := if taken.shared then state.emit (.poolExhausted language) else state
  match taken.parser with
  | .error reason => (.error (.noParser language reason), state)
  | .ok parser =>
    (s.searchTree d grammar parser,
      { state with pool := state.pool.release language parser.serial })

/-- Searches a document of some language. -/
def search (s : Scanner) (file language : Text) (d : Document) (state : ScanState) :
    Except ScanFault (List Occurrence) × ScanState :=
  match s.plan file language state with
  | (.asText, state) => (.ok (s.extractor.inText d), state)
  | (.notAtAll, state) => (.ok [], state)
  | (.inTree grammar, state) => s.searchPooled language d grammar state

/-- Scans a file: its result, or why it fails. -/
def scanFile (s : Scanner) (fs : FileSystem) (state : ScanState) (file : Text) :
    Except ScanAbort (Except FileError FileResult) × ScanState :=
  match s.read fs file with
  | .error abort => (.error abort, state)
  | .ok (.error fault) => (.ok (.error ⟨file, fault⟩), state)
  | .ok (.ok (.tooLarge size)) =>
    (.ok (.ok ⟨file, []⟩), state.emit (.skipped file size s.options.maxFileSize.toInt))
  | .ok (.ok (.document d)) =>
    let language := state.registry.detect file
    match s.search file language d (state.emit (.scanning file language)) with
    | (.error fault, state) => (.ok (.error ⟨file, fault⟩), state)
    | (.ok occurrences, state) =>
      match s.filter with
      | some filter => (.ok (.ok (filter.applyTo ⟨file, occurrences⟩)), state)
      | none => (.error (.wrongKind .domainNotText), state)

end Scanner

end UrlScan
