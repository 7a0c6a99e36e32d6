import UrlScan.Settings.Scan

/-!
# Options of the report

How results are reported: the format, whether line numbers are shown, and whether only the URLs are
listed. The format is checked; the two flags are not.
-/

namespace UrlScan

structure OutputOptions where
  format : ReportFormat
  lineNumbers : Value
  onlyUrls : Value
deriving Repr

namespace OutputOptions

def formatKey : Text := "format".toList

def lineNumbersKey : Text := "with_line_numbers".toList

def onlyUrlsKey : Text := "only_urls".toList

def keys : List Text :=
  [formatKey, lineNumbersKey, onlyUrlsKey]

/-- The options with a checked format. The fault shows a format that is not valid, so this ends with
another error if the format cannot be shown. -/
def ofValues (format lineNumbers onlyUrls : Value) : Except SettingsError OutputOptions :=
  match format.text?.bind ReportFormat.ofName? with
  | some format => .ok ⟨format, lineNumbers, onlyUrls⟩
  | none =>
    match format.display with
    | .ok shown => .error (.invalid (.invalidFormat shown))
    | .error error => .error (.wrongKind (.tooManyDigits error))

def isText : Scalar → Bool
  | .text _ => true
  | _ => false

/-- The first key that is a text and no option of the report. -/
def unknownKey? (given : List Scalar) : Option Text :=
  (given.filterMap fun key => (Value.scalar key).text?).find? fun key => !keys.contains key

/-- The options that a mapping gives, over the defaults. -/
def ofEntries (entries : List (Scalar × Value)) : Except SettingsError OutputOptions :=
  if entries.any fun entry => !isText entry.1 then .error (.invalid .outputKeyNotText)
  else
    match unknownKey? (entries.map (·.1)) with
    | some key => .error (.invalid (.unknownOutputOption key))
    | none =>
      ofValues ((Value.get? entries formatKey).getD (.text ReportFormat.table.name))
        ((Value.get? entries lineNumbersKey).getD (.flag true))
        ((Value.get? entries onlyUrlsKey).getD (.flag false))

def kindName : Value → String
  | .scalar .null => "NoneType"
  | .scalar (.flag _) => "bool"
  | .scalar (.number _) => "int"
  | .scalar (.real _) => "float"
  | .scalar (.date _) => "datetime.date"
  | .scalar (.moment _) => "datetime.datetime"
  | .scalar (.text _) => "str"
  | .list _ => "list"
  | .mapping _ => "dict"

/-- The options that the section of a configuration gives. A section that is not set gives none. -/
def ofSection (value : Value) : Except SettingsError OutputOptions :=
  if value.isSet then
    match value with
    | .mapping entries => ofEntries entries
    | other => .error (.invalid (.outputNotMapping (kindName other)))
  else ofEntries []

end OutputOptions

structure Settings where
  scan : ScanOptions
  output : OutputOptions
deriving Repr

namespace Settings

def scanSection : Text := "scan".toList

def outputSection : Text := "output".toList

/-- The settings of a configuration. The report comes first, so its faults are told first. -/
def ofEntries (entries : List (Scalar × Value)) : Except SettingsError Settings := do
  let output ← OutputOptions.ofSection ((Value.get? entries outputSection).getD .null)
  let scan ← ScanOptions.ofSection ((Value.get? entries scanSection).getD .null)
  return ⟨scan, output⟩

end Settings

end UrlScan
