import UrlScan.FileSystem.Tree
import UrlScan.Settings.Output
import UrlScan.Text.Integer
import UrlScan.Text.LetterCase
import UrlScan.Yaml.Reader

/-!
# The layers of the settings

Settings come in layers, each over the ones before it: the defaults, the configuration file of the
user, the one of the project, and the environment. A configuration file that cannot be read as a
mapping is passed over and reported; a value that no rule allows is an error.
-/

namespace UrlScan

/-- Why a configuration file is passed over. -/
inductive ConfigurationNotice
  | unreadable (path : Path) (reason : String)
  | notMapping (path : Path)
deriving DecidableEq, Repr

def ConfigurationNotice.message : ConfigurationNotice → String
  | unreadable path reason =>
    "Ignoring unreadable config " ++ String.ofList path.text ++ ": " ++ reason
  | notMapping path =>
    "Ignoring config " ++ String.ofList path.text ++ ": expected a mapping"

/-- What the value of an environment variable is read as. -/
inductive VariableKind
  | integer
  | boolean
  | items
  | text
deriving DecidableEq, Repr

structure Variable where
  name : Text
  sectionKey : Text
  optionKey : Text
  kind : VariableKind
deriving DecidableEq, Repr

namespace Variable

def forScan (name : String) (option : ScanOption) (kind : VariableKind) : Variable :=
  ⟨name.toList, Settings.scanSection, option.name, kind⟩

/-- The environment variables, in the order in which they are read. -/
def all : List Variable :=
  [forScan "URLDETECT_CONCURRENCY" .concurrency .integer,
   forScan "URLDETECT_POOL_SIZE" .poolSize .integer,
   forScan "URLDETECT_CONTEXT" .contextLines .integer,
   forScan "URLDETECT_MAX_FILE_SIZE" .maxFileSize .integer,
   forScan "URLDETECT_INCLUDE_COMMENTS" .includeComments .boolean,
   forScan "URLDETECT_INCLUDE_NON_FQDN" .includeSingleLabel .boolean,
   forScan "URLDETECT_FALLBACK_REGEX" .fallback .boolean,
   forScan "URLDETECT_FAIL_ON_ERROR" .failOnError .boolean,
   forScan "URLDETECT_IGNORE_DOMAINS" .ignoreDomains .items,
   ⟨"URLDETECT_FORMAT".toList, Settings.outputSection, OutputOptions.formatKey, .text⟩]

def trueWords : List String := ["true", "1", "yes", "on"]

def falseWords : List String := ["false", "0", "no", "off"]

def value (v : Variable) (raw : Text) : Except OptionFault Value :=
  match v.kind with
  | .integer =>
    match Text.integer? raw with
    | some n => .ok (.number n)
    | none => .error (.variableNotInteger v.name raw)
  | .boolean =>
    let word := String.ofList (Text.lowercase (Text.strip raw))
    if trueWords.contains word then .ok (.flag true)
    else if falseWords.contains word then .ok (.flag false)
    else .error (.variableNotBoolean v.name raw)
  | .items => .ok (.texts (Text.commaItems raw))
  | .text => .ok (.text raw)

end Variable

/-- The environment: its variables and their values. -/
abbrev Environment := List (Text × Text)

namespace Settings

/-- Sets an option in a section; the section must be a mapping unless it is absent. -/
def setOption (entries : List (Scalar × Value)) (sectionKey optionKey : Text) (value : Value) :
    Except SettingsError (List (Scalar × Value)) :=
  match Value.get? entries sectionKey with
  | none => .ok (Value.put (.text sectionKey) (.mapping [(.text optionKey, value)]) entries)
  | some (.mapping options) =>
    let options := Value.put (.text optionKey) value options
    .ok (Value.put (.text sectionKey) (.mapping options) entries)
  | some _ => .error (.wrongKind .sectionNotMapping)

/-- Lays the environment over a configuration. A variable that is empty counts as absent. -/
def overlay (environment : Environment) :
    List Variable → List (Scalar × Value) → Except SettingsError (List (Scalar × Value))
  | [], entries => .ok entries
  | v :: rest, entries =>
    match environment.lookup v.name with
    | none | some [] => overlay environment rest entries
    | some raw =>
      match v.value raw with
      | .error fault => .error (.invalid fault)
      | .ok value =>
        match setOption entries v.sectionKey v.optionKey value with
        | .error e => .error e
        | .ok entries => overlay environment rest entries

/-- The settings that the configurations of user and project and the environment make together. -/
def ofLayers (user project : List (Scalar × Value)) (environment : Environment) :
    Except SettingsError Settings := do
  let entries := Value.mergeEntries (Value.mergeEntries [] user) project
  ofEntries (← overlay environment Variable.all entries)

/-! ## Configuration files -/

/-- The number of bytes of a configuration file that are decoded at a time. -/
def blockSize : Nat := 8192

/-- Decodes a configuration file block by block. Bytes at the end of a block that may begin a
character stay for the next block, and the offset in an error counts from the first of them. -/
def decodeBlocks : (fuel : Nat) → (pending : Bytes) → Bytes → Except DecodeError Text
  | 0, _, _ => .ok []
  | fuel + 1, pending, bytes =>
    let block := pending ++ bytes.take blockSize
    let rest := bytes.drop blockSize
    match Utf8.decode block with
    | .ok t =>
      if rest.isEmpty then .ok t else (decodeBlocks fuel [] rest).map (t ++ ·)
    | .error e =>
      if e.fault = .endOfData ∧ ¬bytes.isEmpty then
        match Utf8.decode (block.take e.start) with
        | .ok t => (decodeBlocks fuel (block.drop e.start) rest).map (t ++ ·)
        | .error e => .error e
      else .error e

/-- The text of a configuration file, with line feeds as its only line ends. -/
def decodeFile (bytes : Bytes) : Except DecodeError Text :=
  (decodeBlocks (bytes.length + 2) [] bytes).map Text.unifyLineEnds

/-- Why the bytes of a configuration file have no value. -/
inductive ReadFault
  | malformed
  | undecodable (error : DecodeError)
  | scalar (fault : Yaml.ScalarFault)
deriving DecidableEq, Repr

/-- What takes the bytes of a configuration file for a value. -/
abbrev Reader := Bytes → Except ReadFault Value

def ReadFault.ofYaml : Yaml.Fault → ReadFault
  | .malformed => .malformed
  | .scalar fault => .scalar fault

/-- Reads the bytes as YAML, all of which are decoded before. -/
def readYaml : Reader := fun bytes =>
  match decodeFile bytes with
  | .error error => .error (.undecodable error)
  | .ok t => (Yaml.read t).mapError .ofYaml

def malformed : String := "malformed YAML"

section
variable (reader : Reader)

/-- The configuration in a file and what there is to report about it. A file that does not exist, or
whose value does not count as set, gives an empty configuration. -/
def readFileBy (fs : FileSystem) (path : Path) :
    Except SettingsError (List (Scalar × Value) × List ConfigurationNotice) :=
  match fs.pathExists path with
  | .error error => .error (.refused error)
  | .ok false => .ok ([], [])
  | .ok true =>
    match fs.read path with
    | .error fault => .ok ([], [.unreadable path fault.message])
    | .ok bytes =>
      match reader bytes with
      | .error .malformed => .ok ([], [.unreadable path malformed])
      | .error (.undecodable error) => .error (.undecodable error)
      | .error (.scalar fault) => .error (.scalar fault)
      | .ok (.mapping entries) => .ok (entries, [])
      | .ok value => .ok ([], if value.isSet then [.notMapping path] else [])

def projectFile : Text := ".urldetect.yaml".toList

/-- What loading the settings yields: the settings or an error, and the notices before it. -/
structure Loaded where
  settings : Except SettingsError Settings
  notices : List ConfigurationNotice

/-- Loads the settings from the configuration files of the user and of the project directory and
from the environment. -/
def loadBy (fs : FileSystem) (userFile projectDirectory : Path) (environment : Environment) :
    Loaded :=
  match readFileBy reader fs userFile with
  | .error e => ⟨.error e, []⟩
  | .ok (user, userNotices) =>
    match readFileBy reader fs (projectDirectory.child projectFile) with
    | .error e => ⟨.error e, userNotices⟩
    | .ok (project, projectNotices) =>
      ⟨ofLayers user project environment, userNotices ++ projectNotices⟩

end

/-- The configuration in a file of YAML. -/
def readFile (fs : FileSystem) (path : Path) :
    Except SettingsError (List (Scalar × Value) × List ConfigurationNotice) :=
  readFileBy readYaml fs path

/-- Loads the settings from configuration files of YAML. -/
def load (fs : FileSystem) (userFile projectDirectory : Path) (environment : Environment) :
    Loaded :=
  loadBy readYaml fs userFile projectDirectory environment

end Settings

/-- The settings loaded from given places, which are kept once loading has succeeded. -/
structure SettingsLoader where
  userFile : Path
  projectDirectory : Path
  environment : Environment
  kept : Option Settings

/-- Loads the settings, unless they are kept. -/
def SettingsLoader.load (loader : SettingsLoader) (fs : FileSystem) :
    Settings.Loaded × SettingsLoader :=
  match loader.kept with
  | some settings => (⟨.ok settings, []⟩, loader)
  | none =>
    let loaded := Settings.load fs loader.userFile loader.projectDirectory loader.environment
    (loaded, { loader with kept := loaded.settings.toOption })

end UrlScan
