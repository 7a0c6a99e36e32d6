import UrlScan.CommandLine.Run
import UrlScan.Proofs.Text.CommaLists
import UrlScan.Proofs.Yaml.DistinctKeys

/-!
# The value of an option

The settings are records of checked values. Here they are looked at as a function from options to
values (`Settings.value`), and a check that succeeds is described by this function: it takes every
value as it is given, but for the options that are lists, of which it takes the items
(`Setting.taken`). Whether a value passes the check is not spoken of.

Results:
1. `taken_padded`: a list may be laid out between commas.
2. `value_ofValues`: checked options of a scan have the values that were given.
3. `value_ofSections`: settings made of two sections have the values in them, or the defaults.
4. `value_overlay`: settings with arguments over them have the values of the arguments, or the
   values from before.
-/

namespace UrlScan

/-- An option of the scan or of the report. -/
inductive Setting
  | scan (option : ScanOption)
  | format
  | lineNumbers
  | onlyUrls
deriving DecidableEq, Repr

namespace Setting

/-- The section of a configuration in which an option is given. -/
def sectionKey : Setting → Text
  | scan _ => Settings.scanSection
  | format | lineNumbers | onlyUrls => Settings.outputSection

/-- The key of an option in its section. -/
def optionKey : Setting → Text
  | scan option => option.name
  | format => OutputOptions.formatKey
  | lineNumbers => OutputOptions.lineNumbersKey
  | onlyUrls => OutputOptions.onlyUrlsKey

def default : Setting → Value
  | scan option => option.default
  | format => .text ReportFormat.table.name
  | lineNumbers => .flag true
  | onlyUrls => .flag false

/-- Whether an option is a list, which may also be given as a text with commas. -/
def isList : Setting → Bool
  | scan .forceFallback | scan .ignoreDomains | scan .schemes => true
  | _ => false

/-- What an option takes of a value that it is given: the items if it is a list, and otherwise the
value itself. A value that cannot be shown has no items, but no option takes it then. -/
def taken (s : Setting) (value : Value) : Value :=
  if s.isList then .list (value.items.toOption.getD []) else value

theorem taken_of_items {s : Setting} (isList : s.isList = true) {value : Value}
    {items : List Value} (areItems : value.items = .ok items) : s.taken value = .list items := by
  rw [taken, if_pos isList, areItems]
  rfl

theorem taken_taken (s : Setting) (value : Value) : s.taken (s.taken value) = s.taken value := by
  unfold taken
  split <;> rfl

/-- It makes no difference to a list whether its items are given one by one or in a text. -/
theorem taken_padded {s : Setting} (isList : s.isList = true) {items places : List Text}
    (areItems : ∀ item ∈ items, Text.IsItem item) (padded : Text.Padded items places) :
    s.taken (.text (Text.join [','] places)) = s.taken (.texts items) := by
  have sameItems : (Value.text (Text.join [','] places)).items = .ok (items.map .text) :=
    congrArg (Except.ok <| List.map Value.text ·) (padded.commaItems_join areItems)
  have given : (Value.texts items).items = .ok (items.map .text) := rfl
  rw [taken_of_items isList sameItems, taken_of_items isList given]

end Setting

namespace Settings

/-- The value of an option in some settings. -/
def value (settings : Settings) : Setting → Value
  | .scan option => settings.scan.toValues option
  | .format => .text settings.output.format.name
  | .lineNumbers => settings.output.lineNumbers
  | .onlyUrls => settings.output.onlyUrls

end Settings

/-! ## Checked values -/

namespace ScanOptions

theorem toValue_of_count? {value : Value} {count : Count} (found : value.count? = some count) :
    count.toValue = value := by
  unfold Value.count? at found
  split at found
  next => cases found; rfl
  next => cases found; rfl
  next => cases found

/-- A value that is taken for a count is this count. -/
theorem toValue_of_countFrom {minimum : Int} {fault : OptionFault} {value : Value}
    {count : { count : Count // minimum ≤ count.toInt }}
    (checked : countFrom minimum fault value = .ok count) : count.val.toValue = value := by
  unfold countFrom at checked
  split at checked
  next found =>
    split at checked
    next => cases checked; exact toValue_of_count? found
    next => cases checked
  next => cases checked

theorem text_of_text? {value : Value} {t : Text} (found : value.text? = some t) :
    value = .text t := by
  unfold Value.text? at found
  split at found
  next => cases found; rfl
  next => cases found

theorem itemsOf_eq_ok_iff {value : Value} {items : List Value} :
    itemsOf value = .ok items ↔ value.items = .ok items :=
  mapError_eq_ok_iff

/-- The lists are taken apart if each of them has items. -/
theorem listsOf_eq_ok_iff {values : ScanOption → Value} {lists : OptionLists} :
    listsOf values = .ok lists ↔
      (values .forceFallback).items = .ok lists.forceFallback ∧
      (values .ignoreDomains).items = .ok lists.ignoreDomains ∧
      (values .schemes).items = .ok lists.schemes := by
  unfold listsOf
  simp only [bind_eq_ok_iff, itemsOf_eq_ok_iff]
  constructor
  · rintro ⟨languages, areLanguages, domains, areDomains, schemes, areSchemes, same⟩
    cases same
    exact ⟨areLanguages, areDomains, areSchemes⟩
  · rintro ⟨areLanguages, areDomains, areSchemes⟩
    exact ⟨_, areLanguages, _, areDomains, _, areSchemes, rfl⟩

/-- Values that are taken for schemes are the texts of these schemes. -/
theorem map_text_schemesOf {values : List Value}
    {schemes : { schemes : List Text // ∀ scheme ∈ schemes, isScheme scheme = true }}
    (checked : schemesOf values = .ok schemes) : values = schemes.val.map .text := by
  induction values generalizing schemes with
  | nil => cases checked; rfl
  | cons value rest ih =>
    rw [schemesOf] at checked
    split at checked
    next => cases checked
    next scheme found =>
      split at checked
      next =>
        split at checked
        next more _ isRest =>
          cases checked
          rw [text_of_text? found, ih isRest]
          rfl
        next => cases checked
      next => cases checked

/-- Checked options have the values that were given. -/
theorem value_ofValues {values : ScanOption → Value} {o : ScanOptions}
    (checked : ofValues values = .ok o) (option : ScanOption) :
    o.toValues option = (Setting.scan option).taken (values option) := by
  unfold ofValues at checked
  obtain ⟨lists, areLists, checked⟩ := ok_of_bind checked
  obtain ⟨areLanguages, areDomains, areSchemes⟩ := listsOf_eq_ok_iff.mp areLists
  unfold check at checked
  obtain ⟨concurrency, isConcurrency, checked⟩ := ok_of_bind checked
  obtain ⟨poolSize, isPoolSize, checked⟩ := ok_of_bind checked
  obtain ⟨contextLines, isContextLines, checked⟩ := ok_of_bind checked
  obtain ⟨maxFileSize, isMaxFileSize, checked⟩ := ok_of_bind checked
  obtain ⟨⟨schemes, valid⟩, isSchemes, checked⟩ := ok_of_bind checked
  dsimp only at checked
  split at checked
  next =>
    cases checked
    cases option with
    | concurrency => exact toValue_of_countFrom isConcurrency
    | poolSize => exact toValue_of_countFrom isPoolSize
    | contextLines => exact toValue_of_countFrom isContextLines
    | maxFileSize => exact toValue_of_countFrom isMaxFileSize
    | forceFallback => exact (Setting.taken_of_items rfl areLanguages).symm
    | ignoreDomains => exact (Setting.taken_of_items rfl areDomains).symm
    | schemes =>
      rw [Setting.taken_of_items rfl areSchemes, map_text_schemesOf isSchemes]
      rfl
    | _ => rfl
  next => cases checked

end ScanOptions

namespace OutputOptions

/-- Checked options of the report have the values that were given. -/
theorem values_of_ofValues {format lineNumbers onlyUrls : Value} {o : OutputOptions}
    (checked : ofValues format lineNumbers onlyUrls = .ok o) :
    .text o.format.name = format ∧ o.lineNumbers = lineNumbers ∧ o.onlyUrls = onlyUrls := by
  unfold ofValues at checked
  split at checked
  next found isFormat =>
    cases checked
    obtain ⟨name, isText, isName⟩ := Option.bind_eq_some_iff.mp isFormat
    have sameName := List.find?_some (p := fun format : ReportFormat => format.name == name) isName
    rw [beq_iff_eq] at sameName
    exact ⟨sameName ▸ (ScanOptions.text_of_text? isText).symm, rfl, rfl⟩
  next =>
    split at checked
    next => cases checked
    next => cases checked

end OutputOptions

/-! ## Sections -/

namespace Value

/-- The options in a section of a configuration; none when the section is absent. -/
def sectionOf (entries : List (Scalar × Value)) (sectionKey : Text) : List (Scalar × Value) :=
  match get? entries sectionKey with
  | some (.mapping options) => options
  | _ => []

/-- A section is absent or a mapping. -/
def SectionFits (entries : List (Scalar × Value)) (sectionKey : Text) : Prop :=
  get? entries sectionKey = none ∨ ∃ options, get? entries sectionKey = some (.mapping options)

end Value

namespace Setting

/-- The value that a configuration gives to an option. -/
def inEntries? (s : Setting) (entries : List (Scalar × Value)) : Option Value :=
  Value.get? (Value.sectionOf entries s.sectionKey) s.optionKey

end Setting

section
variable {entries : List (Scalar × Value)}

theorem ScanOptions.ofSection_of_fits (fits : Value.SectionFits entries Settings.scanSection) :
    ScanOptions.ofSection ((Value.get? entries Settings.scanSection).getD .null) =
      ScanOptions.ofEntries (Value.sectionOf entries Settings.scanSection) := by
  unfold Value.sectionOf
  rcases fits with absent | ⟨options, found⟩
  · rw [absent]
    rfl
  · rw [found]
    cases options <;> rfl

theorem OutputOptions.ofSection_of_fits
    (fits : Value.SectionFits entries Settings.outputSection) :
    OutputOptions.ofSection ((Value.get? entries Settings.outputSection).getD .null) =
      OutputOptions.ofEntries (Value.sectionOf entries Settings.outputSection) := by
  unfold Value.sectionOf
  rcases fits with absent | ⟨options, found⟩
  · rw [absent]
    rfl
  · rw [found]
    cases options <;> rfl

/-- Settings made of two sections have the values in them, and otherwise the defaults. -/
theorem Settings.value_ofSections {settings : Settings}
    (fits : ∀ s : Setting, Value.SectionFits entries s.sectionKey)
    (made : Settings.ofEntries entries = .ok settings) (s : Setting) :
    settings.value s = s.taken ((s.inEntries? entries).getD s.default) := by
  unfold Settings.ofEntries at made
  obtain ⟨output, isOutput, made⟩ := ok_of_bind made
  obtain ⟨scan, isScan, made⟩ := ok_of_bind made
  cases made
  rw [OutputOptions.ofSection_of_fits (fits .format)] at isOutput
  rw [ScanOptions.ofSection_of_fits (fits (.scan .concurrency))] at isScan
  have outputValues : OutputOptions.ofValues ((Setting.inEntries? .format entries).getD
        (Setting.default .format))
      ((Setting.inEntries? .lineNumbers entries).getD (Setting.default .lineNumbers))
      ((Setting.inEntries? .onlyUrls entries).getD (Setting.default .onlyUrls)) = .ok output := by
    unfold OutputOptions.ofEntries at isOutput
    split at isOutput
    next => cases isOutput
    next =>
      split at isOutput
      next => cases isOutput
      next => exact isOutput
  obtain ⟨format, lineNumbers, onlyUrls⟩ := OutputOptions.values_of_ofValues outputValues
  cases s with
  | scan option =>
    unfold ScanOptions.ofEntries at isScan
    obtain ⟨-, -, checked⟩ := ok_of_bind isScan
    exact ScanOptions.value_ofValues checked option
  | format => exact format
  | lineNumbers => exact lineNumbers
  | onlyUrls => exact onlyUrls

end

/-! ## Arguments -/

namespace Arguments

/-- The value that the arguments give to an option. An empty format counts as not given. -/
def given? (a : Arguments) : Setting → Option Value
  | .scan option => a.scanValue? option
  | .format =>
    match a.format with
    | some (c :: rest) => some (.text (c :: rest))
    | _ => none
  | .lineNumbers => if a.noLineNumbers then some (.flag false) else none
  | .onlyUrls => if a.onlyUrls then some (.flag true) else none

/-- Settings with arguments over them have the values of the arguments, and otherwise the values
from before. -/
theorem value_overlay {a : Arguments} {settings used : Settings}
    (overlaid : a.overlay settings = .ok used) (s : Setting) :
    used.value s = s.taken ((a.given? s).getD (settings.value s)) := by
  unfold overlay at overlaid
  obtain ⟨scan, isScan, overlaid⟩ := ok_of_bind overlaid
  obtain ⟨output, isOutput, overlaid⟩ := ok_of_bind overlaid
  cases overlaid
  obtain ⟨format, lineNumbers, onlyUrls⟩ := OutputOptions.values_of_ofValues isOutput
  cases s with
  | scan option => exact ScanOptions.value_ofValues isScan option
  | format =>
    have given : a.given? .format =
        match a.format with
        | some (c :: rest) => some (.text (c :: rest))
        | _ => none := rfl
    rw [given]
    refine format.trans ?_
    cases a.format with
    | none => rfl
    | some name => cases name <;> rfl
  | lineNumbers =>
    have given : a.given? .lineNumbers = if a.noLineNumbers then some (.flag false) else none := rfl
    rw [given]
    refine lineNumbers.trans ?_
    split <;> rfl
  | onlyUrls =>
    have given : a.given? .onlyUrls = if a.onlyUrls then some (.flag true) else none := rfl
    rw [given]
    refine onlyUrls.trans ?_
    split <;> rfl

end Arguments

end UrlScan
