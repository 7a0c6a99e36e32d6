import UrlScan.FileSystem.Path
import UrlScan.Language.BuiltIn
import UrlScan.Language.Grammar

/-!
# The language registry

A registry is a list of languages with different names. Adding a language whose name is taken
replaces the old one in its place. The registry tells the language of a file and finds the grammar
of a language, which it loads when it is first asked for and then remembers, the failure to load it
included.
-/

namespace UrlScan

inductive GrammarStatus
  | notAsked
  | ready (grammar : Grammar)
  | unavailable

/-- A language of a registry, with its grammar. -/
structure Registration where
  language : Language
  /-- The grammar that was registered together with the language. -/
  adapter : Option Grammar
  status : GrammarStatus

/-- The known languages and their grammars. -/
structure Registry where
  entries : List Registration
  library : GrammarLibrary
  nextSerial : Nat

/-- What asking for a grammar yields. -/
structure GrammarLookup where
  grammar : Option Grammar
  registry : Registry
  /-- The failures that this request met for the first time. -/
  failures : List GrammarError

namespace Registry

def empty (package : Option GrammarPackage) : Registry :=
  ⟨[], .ofPackage package, 0⟩

/-- Puts a registration in the place of the one with the same key, or at the end. -/
def upsert (entry : Registration) : List Registration → List Registration
  | [] => [entry]
  | other :: rest =>
    if other.language.key = entry.language.key then entry :: rest else other :: upsert entry rest

/-- Adds a language or replaces the one of the same name. An engine given with it serves as its
grammar; otherwise its grammar comes from the grammar package. -/
def add (r : Registry) (language : Language) (engine : Option Engine) : Registry :=
  let adapter := engine.map fun e => ⟨r.nextSerial, language, .registered, e⟩
  { r with
    entries := upsert ⟨language, adapter, .notAsked⟩ r.entries
    nextSerial := r.nextSerial + 1 }

def builtIn (package : Option GrammarPackage) : Registry :=
  Language.builtIns.foldl (fun r language => r.add language none) (empty package)

/-! ## Questions about languages -/

def languages (r : Registry) : List Language :=
  r.entries.map (·.language)

/-- The registration of a name, in any case; the empty name has none. -/
def find? (r : Registry) (name : Text) : Option Registration :=
  if name.isEmpty then none
  else r.entries.find? fun entry => entry.language.key == Text.lowercase name

def language? (r : Registry) (name : Text) : Option Language :=
  (r.find? name).map (·.language)

/-- The first language with an extension, in any case. -/
def findExtension? (r : Registry) (extension : Text) : Option Registration :=
  r.entries.find? fun entry => entry.language.hasExtension extension

def extensions (r : Registry) : List Text :=
  Text.sortedDistinct (r.languages.flatMap fun l => l.extensions.map Text.lowercase)

/-- The name of the language of a file that no language is for. -/
def unknown : Text := "unknown".toList

/-- The languages with the extensions, in lower case, that a file name ends with. An extension is
shorter than the whole name. -/
def extensionMatches (r : Registry) (filename : Text) : List (Text × Language) :=
  let lowered := Text.lowercase filename
  r.languages.flatMap fun l =>
    ((l.extensions.map Text.lowercase).filter fun e =>
      e.length < lowered.length && Text.endsWith lowered e).map (·, l)

/-- The first of the longest extensions. -/
def longest : List (Text × Language) → Option (Text × Language)
  | [] => none
  | candidate :: rest =>
    match longest rest with
    | some best => if candidate.1.length < best.1.length then some best else some candidate
    | none => some candidate

/-- The name of the language of a file. Only the last component of the path counts: first the whole
name, then the longest extension, and among equals the earlier language. -/
def detect (r : Registry) (path : Text) : Text :=
  let filename := Path.name (.parse path)
  if filename.isEmpty then unknown
  else
    match r.languages.find? fun l => l.filenames.contains filename with
    | some language => language.name
    | none => ((longest (r.extensionMatches filename)).map (·.2.name)).getD unknown

/-! ## Grammars -/

def setStatus (r : Registry) (entry : Registration) (status : GrammarStatus) : Registry :=
  { r with entries := upsert { entry with status } r.entries }

def resolve (r : Registry) (entry : Registration) : GrammarLookup :=
  match entry.status with
  | .ready grammar => ⟨some grammar, r, []⟩
  | .unavailable => ⟨none, r, []⟩
  | .notAsked =>
    match entry.adapter with
    | some grammar => ⟨some grammar, r.setStatus entry (.ready grammar), []⟩
    | none =>
      let (loaded, library) := r.library.load entry.language.grammarSource
      let r := { r with library }
      match loaded with
      | .ok engine =>
        let grammar := ⟨r.nextSerial, entry.language, .package, engine⟩
        let r := { r with nextSerial := r.nextSerial + 1 }
        ⟨some grammar, r.setStatus entry (.ready grammar), []⟩
      | .error reason =>
        ⟨none, r.setStatus entry .unavailable, [⟨entry.language.name, reason⟩]⟩

/-- The grammar for an extension, which begins with a dot, or for the name of a language. -/
def grammar (r : Registry) (extensionOrName : Text) : GrammarLookup :=
  let entry :=
    if Text.startsWith extensionOrName ['.'] then r.findExtension? extensionOrName
    else r.find? extensionOrName
  match entry with
  | some entry => r.resolve entry
  | none => ⟨none, r, []⟩

end Registry

end UrlScan
