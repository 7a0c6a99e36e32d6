import UrlScan.Proofs.Settings.Files
import UrlScan.Proofs.Settings.Precedence
import UrlScan.Proofs.Settings.Sections

/-!
# What loading the settings may end with

Loading ends with settings, with a fault of an option, or with an error that no rule of the options
speaks about. Here it is said exactly when there is an error of the last kind: a configuration file
cannot be passed over (`FileBreaks`), or the values in the files have a shape that some step does
not expect (`LayersBreak`). This holds for any reader of configuration files.

Results:
1. `overlay_eq_error_iff`: the first variable at fault decides.
2. `ofLayers_breaks_iff`: the values of the files together with the environment.
3. `load_fault_or_breaks`: loading.
-/

namespace UrlScan

/-! ## The environment -/

namespace Variable

/-- What is wrong with a variable: its value is invalid, or its section is there and is no mapping.
A variable that is not given has no fault. -/
def fault? (environment : Environment) (entries : List (Scalar × Value)) (v : Variable) :
    Option SettingsError :=
  match environment.lookup v.name with
  | none | some [] => none
  | some raw =>
    match v.value raw with
    | .error fault => some (.invalid fault)
    | .ok _ =>
      if Layers.sectionFits entries v.sectionKey then none
      else some (.wrongKind .sectionNotMapping)

theorem eq_of_fault? {environment : Environment} {entries : List (Scalar × Value)} {v : Variable}
    {e : SettingsError} (isFault : v.fault? environment entries = some e)
    (unlike : e.isFault = false) : e = .wrongKind .sectionNotMapping := by
  unfold fault? at isFault
  split at isFault
  next => cases isFault
  next => cases isFault
  next =>
    split at isFault
    next => cases isFault; cases unlike
    next =>
      split at isFault
      next => cases isFault
      next => exact (Option.some.inj isFault).symm

end Variable

namespace Settings

section
variable {environment : Environment} {entries : List (Scalar × Value)} {e : SettingsError}

/-- An option that is set leaves every section as it is: absent, a mapping or something else. Only
an absent section becomes a mapping. -/
theorem sectionFits_setOption {laid : List (Scalar × Value)} {sectionKey optionKey : Text}
    {value : Value} (fits : Layers.sectionFits entries sectionKey = true)
    (isSet : setOption entries sectionKey optionKey value = .ok laid) :
    Layers.sectionFits laid = Layers.sectionFits entries := by
  funext otherSection
  cases PrecedenceLemmas.setOption_eq isSet
  unfold Layers.sectionFits at fits ⊢
  rw [Value.get?_put]
  by_cases same : Scalar.text sectionKey = .text otherSection
  · cases same
    rw [if_pos rfl]
    exact fits.symm
  · rw [if_neg same]

theorem setOption_cases (entries : List (Scalar × Value)) (sectionKey optionKey : Text)
    (value : Value) :
    (Layers.sectionFits entries sectionKey = true ∧
      ∃ laid, setOption entries sectionKey optionKey value = .ok laid) ∨
    (Layers.sectionFits entries sectionKey = false ∧
      setOption entries sectionKey optionKey value = .error (.wrongKind .sectionNotMapping)) := by
  unfold setOption Layers.sectionFits
  cases Value.get? entries sectionKey with
  | none => exact .inl ⟨rfl, _, rfl⟩
  | some found =>
    cases found with
    | mapping options => exact .inl ⟨rfl, _, rfl⟩
    | scalar s => exact .inr ⟨rfl, rfl⟩
    | list items => exact .inr ⟨rfl, rfl⟩

/-- The first variable at fault decides. -/
theorem overlay_eq_error_iff {vs : List Variable} :
    overlay environment vs entries = .error e ↔
      vs.findSome? (·.fault? environment entries) = some e := by
  induction vs generalizing entries with
  | nil => exact iff_of_false (fun same => by cases same) fun same => by cases same
  | cons v rest ih =>
    rw [overlay, List.findSome?_cons, Variable.fault?]
    cases environment.lookup v.name with
    | none => exact ih
    | some raw =>
      cases raw with
      | nil => exact ih
      | cons c raw =>
        dsimp only
        cases v.value (c :: raw) with
        | error fault =>
          dsimp only
          rw [Except.error.injEq, Option.some.injEq]
        | ok value =>
          dsimp only
          rcases setOption_cases entries v.sectionKey v.optionKey value with
            ⟨fits, laid, isSet⟩ | ⟨unfit, isError⟩
          · rw [isSet, if_pos fits]
            have sameFaults : Variable.fault? environment laid =
                Variable.fault? environment entries := by
              funext w
              rw [Variable.fault?, Variable.fault?, sectionFits_setOption fits isSet]
            exact ih.trans (by rw [sameFaults])
          · rw [isError, unfit, if_neg Bool.false_ne_true, Except.error.injEq, Option.some.injEq]

end

/-! ## The layers -/

/-- The configuration of the project over the one of the user. -/
def merged (user project : List (Scalar × Value)) : List (Scalar × Value) :=
  Value.mergeEntries (Value.mergeEntries [] user) project

/-- The configurations and the environment have a shape that no rule of the options speaks about.

* `overlaid`: the first variable at fault is valid but its section is no mapping.
* `outputSection`: the variables are without fault, and the section of the report has such a shape.
* `scanSection`: the variables and the section of the report are without fault, and the section of
  the scan has such a shape. -/
inductive LayersBreak (user project : List (Scalar × Value)) (environment : Environment) :
    KindFault → Prop
  | overlaid {fault : KindFault} :
      Variable.all.findSome? (·.fault? environment (merged user project)) =
        some (.wrongKind fault) →
      LayersBreak user project environment fault
  | outputSection {laid : List (Scalar × Value)} {fault : KindFault} :
      overlay environment Variable.all (merged user project) = .ok laid →
      OutputOptions.SectionBreaks ((Value.get? laid outputSection).getD .null) fault →
      LayersBreak user project environment fault
  | scanSection {laid : List (Scalar × Value)} {output : OutputOptions} {fault : KindFault} :
      overlay environment Variable.all (merged user project) = .ok laid →
      OutputOptions.ofSection ((Value.get? laid outputSection).getD .null) = .ok output →
      ScanOptions.SectionBreaks ((Value.get? laid scanSection).getD .null) fault →
      LayersBreak user project environment fault

section
variable {user project : List (Scalar × Value)} {environment : Environment} {e : SettingsError}

/-- The section of the report is read first. -/
theorem ofEntries_breaks_iff {entries : List (Scalar × Value)} (unlike : e.isFault = false) :
    ofEntries entries = .error e ↔
      ∃ fault, e = .wrongKind fault ∧
        (OutputOptions.SectionBreaks ((Value.get? entries outputSection).getD .null) fault ∨
          ∃ output,
            OutputOptions.ofSection ((Value.get? entries outputSection).getD .null) = .ok output ∧
            ScanOptions.SectionBreaks ((Value.get? entries scanSection).getD .null) fault) := by
  have last {section' : Value} {output : OutputOptions} :
      (ScanOptions.ofSection section' >>= fun scan => .ok (⟨scan, output⟩ : Settings)) = .error e ↔
        ∃ fault, e = .wrongKind fault ∧ ScanOptions.SectionBreaks section' fault := by
    rw [bind_eq_error_iff, ScanOptions.ofSection_breaks_iff unlike]
    refine or_iff_left ?_
    rintro ⟨scan, -, impossible⟩
    cases impossible
  unfold ofEntries
  rw [bind_eq_error_iff, OutputOptions.ofSection_breaks_iff unlike]
  constructor
  · rintro (⟨fault, isKind, broken⟩ | ⟨output, isOutput, failed⟩)
    · exact ⟨fault, isKind, .inl broken⟩
    · obtain ⟨fault, isKind, broken⟩ := last.mp failed
      exact ⟨fault, isKind, .inr ⟨output, isOutput, broken⟩⟩
  · rintro ⟨fault, isKind, broken | ⟨output, isOutput, broken⟩⟩
    · exact .inl ⟨fault, isKind, broken⟩
    · exact .inr ⟨output, isOutput, last.mpr ⟨fault, isKind, broken⟩⟩

/-- Whatever the values in the two configurations are, and however deep, an error that is no fault
of an option comes from a shape of `LayersBreak`. -/
theorem ofLayers_breaks_iff (unlike : e.isFault = false) :
    ofLayers user project environment = .error e ↔
      ∃ fault, e = .wrongKind fault ∧ LayersBreak user project environment fault := by
  unfold ofLayers
  rw [bind_eq_error_iff, overlay_eq_error_iff]
  constructor
  · rintro (atFault | ⟨laid, isLaid, failed⟩)
    · obtain ⟨v, -, isFault⟩ := List.exists_of_findSome?_eq_some atFault
      obtain rfl := Variable.eq_of_fault? isFault unlike
      exact ⟨_, rfl, .overlaid atFault⟩
    · obtain ⟨fault, isKind, broken | ⟨output, isOutput, broken⟩⟩ :=
        (ofEntries_breaks_iff unlike).mp failed
      · exact ⟨fault, isKind, .outputSection isLaid broken⟩
      · exact ⟨fault, isKind, .scanSection isLaid isOutput broken⟩
  · rintro ⟨fault, rfl, broken⟩
    cases broken with
    | overlaid atFault => exact .inl atFault
    | outputSection isLaid broken =>
      exact .inr ⟨_, isLaid, (ofEntries_breaks_iff rfl).mpr ⟨fault, rfl, .inl broken⟩⟩
    | scanSection isLaid isOutput broken =>
      exact .inr ⟨_, isLaid, (ofEntries_breaks_iff rfl).mpr ⟨fault, rfl, .inr ⟨_, isOutput, broken⟩⟩⟩

end

/-! ## Loading -/

/-- Loading ends with an error that is no fault of an option.

* `user`, `project`: a configuration file cannot be passed over. The one of the user is read first.
* `layers`: both files are read, and their values have a shape that no rule of the options speaks
  about. -/
inductive LoadBreaks (reader : Reader) (fs : FileSystem) (userFile projectDirectory : Path)
    (environment : Environment) : SettingsError → Prop
  | user {e : SettingsError} : FileBreaks reader fs userFile e →
      LoadBreaks reader fs userFile projectDirectory environment e
  | project {user : List (Scalar × Value) × List ConfigurationNotice} {e : SettingsError} :
      readFileBy reader fs userFile = .ok user →
      FileBreaks reader fs (projectDirectory.child projectFile) e →
      LoadBreaks reader fs userFile projectDirectory environment e
  | layers {user project : List (Scalar × Value) × List ConfigurationNotice} {fault : KindFault} :
      readFileBy reader fs userFile = .ok user →
      readFileBy reader fs (projectDirectory.child projectFile) = .ok project →
      LayersBreak user.1 project.1 environment fault →
      LoadBreaks reader fs userFile projectDirectory environment (.wrongKind fault)

section
variable {reader : Reader} {fs : FileSystem} {userFile projectDirectory : Path}
  {environment : Environment} {e : SettingsError}

theorem FileBreaks.isFault {path : Path} (broken : FileBreaks reader fs path e) :
    e.isFault = false := by
  cases broken <;> rfl

theorem LoadBreaks.isFault
    (broken : LoadBreaks reader fs userFile projectDirectory environment e) :
    e.isFault = false := by
  cases broken with
  | user broken => exact broken.isFault
  | project _ broken => exact broken.isFault
  | layers => rfl

theorem loadBy_breaks_iff (unlike : e.isFault = false) :
    (loadBy reader fs userFile projectDirectory environment).settings = .error e ↔
      LoadBreaks reader fs userFile projectDirectory environment e := by
  constructor
  · intro failed
    cases userRead : readFileBy reader fs userFile with
    | error other =>
      rw [loadBy_user_error userRead] at failed
      cases failed
      exact .user (readFileBy_breaks_iff.mp userRead)
    | ok user =>
      cases projectRead : readFileBy reader fs (projectDirectory.child projectFile) with
      | error other =>
        rw [loadBy_project_error userRead projectRead] at failed
        cases failed
        exact .project userRead (readFileBy_breaks_iff.mp projectRead)
      | ok project =>
        rw [loadBy_read userRead projectRead] at failed
        obtain ⟨fault, rfl, broken⟩ := (ofLayers_breaks_iff unlike).mp failed
        exact .layers userRead projectRead broken
  · intro broken
    cases broken with
    | user broken => rw [loadBy_user_error (readFileBy_breaks_iff.mpr broken)]
    | project userRead broken =>
      rw [loadBy_project_error userRead (readFileBy_breaks_iff.mpr broken)]
    | layers userRead projectRead broken =>
      rw [loadBy_read userRead projectRead]
      exact (ofLayers_breaks_iff rfl).mpr ⟨_, rfl, broken⟩

/-- A configuration file of the user that is passed over is reported whatever comes next. -/
theorem mem_notices_loadBy {user : List (Scalar × Value)} {notices : List ConfigurationNotice}
    {notice : ConfigurationNotice} (userRead : readFileBy reader fs userFile = .ok (user, notices))
    (member : notice ∈ notices) :
    notice ∈ (loadBy reader fs userFile projectDirectory environment).notices := by
  cases projectRead : readFileBy reader fs (projectDirectory.child projectFile) with
  | error e =>
    rw [loadBy_project_error userRead projectRead]
    exact member
  | ok project =>
    rw [loadBy_read userRead projectRead]
    exact List.mem_append_left _ member

end

/-- Whether loading ends with an error that is no fault of an option. -/
def Loaded.escapes (loaded : Loaded) : Bool :=
  match loaded.settings with
  | .ok _ => false
  | .error e => !e.isFault

theorem Loaded.escapes_iff {loaded : Loaded} :
    loaded.escapes = true ↔ ∃ e, loaded.settings = .error e ∧ e.isFault = false := by
  unfold escapes
  cases loaded.settings with
  | ok settings => simp
  | error e => simp

/-- Loading where the user has a configuration file of a given content and the project has none. -/
def loadUserFile (content : Bytes) (environment : Environment) : Loaded :=
  load ⟨.directory [("user".toList, .file content)], []⟩ Layers.rootUserFile ⟨['/'], []⟩
    environment

/-- Whatever takes the bytes of the files for values or finds faults in them, whatever the files hold
and the environment is, loading ends with settings, with a fault of an option, or with an error of
`LoadBreaks`. The last kind are exactly the errors that are no fault of an option. A configuration
file that is passed over is reported, and the settings are those of the other layers. Whatever values
two configurations have, whether they are read from a file or not, the settings that they make end in
one of the same three ways.

The reader of YAML is one such reader. The files that it cannot decode are exactly those whose bytes
are no text in UTF-8, and the value or the fault of another file is that of its text. -/
theorem load_fault_or_breaks (reader : Reader) (fs : FileSystem) (userFile projectDirectory : Path)
    (environment : Environment) :
    let loaded := loadBy reader fs userFile projectDirectory environment
    ((∃ settings, loaded.settings = .ok settings) ∨
      (∃ fault, loaded.settings = .error (.invalid fault)) ∨
      ∃ e, loaded.settings = .error e ∧
        LoadBreaks reader fs userFile projectDirectory environment e) ∧
    (∀ e, LoadBreaks reader fs userFile projectDirectory environment e ↔
      loaded.settings = .error e ∧ e.isFault = false) ∧
    (∀ notice, FileSkipped reader fs userFile notice →
      notice ∈ loaded.notices ∧
      ∀ project notices,
        readFileBy reader fs (projectDirectory.child projectFile) = .ok (project, notices) →
        loaded.settings = ofLayers [] project environment) ∧
    (∀ user notices notice, readFileBy reader fs userFile = .ok (user, notices) →
      FileSkipped reader fs (projectDirectory.child projectFile) notice →
      loaded.notices = notices ++ [notice] ∧
        loaded.settings = ofLayers user [] environment) ∧
    (∀ user project,
      (∃ settings, ofLayers user project environment = .ok settings) ∨
      (∃ fault, ofLayers user project environment = .error (.invalid fault)) ∨
      ∃ e, ofLayers user project environment = .error e ∧
        ∃ fault, e = .wrongKind fault ∧ LayersBreak user project environment fault) ∧
    load fs userFile projectDirectory environment =
      loadBy readYaml fs userFile projectDirectory environment ∧
    (∀ bytes, (∃ e, readYaml bytes = .error (.undecodable e)) ↔ ∀ t, bytes ≠ Utf8.encode t) ∧
    ∀ t, readYaml (Utf8.encode t) = (Yaml.read (Text.unifyLineEnds t)).mapError .ofYaml := by
  intro loaded
  refine ⟨ok_or_fault_or fun e unlike => (loadBy_breaks_iff unlike).mp, ?breaks, ?userSkipped,
    ?projectSkipped,
    fun user project => ok_or_fault_or fun e unlike => (ofLayers_breaks_iff unlike).mp,
    rfl, fun bytes => readYaml_undecodable_iff, readYaml_encode⟩
  case breaks =>
    intro e
    constructor
    · exact fun broken => ⟨(loadBy_breaks_iff broken.isFault).mpr broken, broken.isFault⟩
    · exact fun ⟨failed, unlike⟩ => (loadBy_breaks_iff unlike).mp failed
  case userSkipped =>
    intro notice skipped
    have userRead := readFileBy_skips_iff.mpr skipped
    refine ⟨mem_notices_loadBy userRead List.mem_cons_self, fun project notices projectRead => ?_⟩
    exact congrArg Loaded.settings (loadBy_read userRead projectRead)
  case projectSkipped =>
    intro user notices notice userRead skipped
    have whole : loaded = ⟨ofLayers user [] environment, notices ++ [notice]⟩ :=
      loadBy_read userRead (readFileBy_skips_iff.mpr skipped)
    exact ⟨congrArg Loaded.notices whole, congrArg Loaded.settings whole⟩

/-- A file that is not UTF-8 is not passed over. A section of the scan that is a number, that has a
number for a scheme, or that is empty under a variable, is told as no fault of an option. -/
theorem load_escapes :
    (∃ e, (loadUserFile [0xFF] []).settings = .error e ∧ e.isFault = false) ∧
    (loadUserFile [0xFF] []).notices = [] ∧
    (∃ e, (loadUserFile (Utf8.encode "scan: 5".toList) []).settings = .error e ∧
      e.isFault = false) ∧
    (∃ e, (loadUserFile (Utf8.encode "scan: {schemes: [1]}".toList) []).settings = .error e ∧
      e.isFault = false) ∧
    ∃ e, (loadUserFile (Utf8.encode "scan:".toList)
        [("URLDETECT_CONCURRENCY".toList, ['3'])]).settings = .error e ∧ e.isFault = false :=
  ⟨Loaded.escapes_iff.mp (by decide +kernel), by decide +kernel,
    Loaded.escapes_iff.mp (by decide +kernel), Loaded.escapes_iff.mp (by decide +kernel),
    Loaded.escapes_iff.mp (by decide +kernel)⟩

end Settings

end UrlScan
