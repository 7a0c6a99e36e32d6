import UrlScan.Proofs.Settings.Options
import UrlScan.Proofs.Settings.Shown

/-!
# What is wrong with a section

An error in a section is a fault of an option, which is told as such, or an error that no rule of
the options speaks about. A section of the report has an error of the second kind in one case, a
format that is not valid and cannot be shown (`OutputOptions.SectionBreaks`). A section of the scan
has the shapes of `ScanOptions.SectionBreaks`.

Results:
1. `bind_breaks_iff`: steps whose errors are faults.
2. `OutputOptions.ofSection_breaks_iff`: the section of the report.
3. `ScanOptions.ofValues_breaks_iff`, `ScanOptions.checkKeys_breaks_iff`: the values and the keys.
4. `ScanOptions.ofSection_breaks_iff`: the whole section of the scan.
-/

namespace UrlScan

/-- Whether an error is a fault of an option. -/
def SettingsError.isFault : SettingsError → Bool
  | invalid _ => true
  | _ => false

/-! ## Steps -/

section
variable {α β : Type}

/-- Behind a step whose errors are faults of options, other errors come from what follows. -/
theorem bind_breaks_iff {first : Except SettingsError α} {second : α → Except SettingsError β}
    {e : SettingsError} (faults : ∀ e, first = .error e → e.isFault = true)
    (unlike : e.isFault = false) :
    first >>= second = .error e ↔ ∃ a, first = .ok a ∧ second a = .error e := by
  rw [bind_eq_error_iff]
  refine or_iff_right fun failed => ?_
  rw [faults e failed] at unlike
  cases unlike

/-- A result is there, or there is a fault of an option, or else an error of the other kind. -/
theorem ok_or_fault_or {result : Except SettingsError α} {Breaks : SettingsError → Prop}
    (breaks : ∀ e, e.isFault = false → result = .error e → Breaks e) :
    (∃ a, result = .ok a) ∨ (∃ fault, result = .error (.invalid fault)) ∨
      ∃ e, result = .error e ∧ Breaks e := by
  cases ending : result with
  | ok a => exact .inl ⟨a, rfl⟩
  | error e =>
    cases isFault : e.isFault with
    | false => exact .inr (.inr ⟨e, rfl, breaks e isFault ending⟩)
    | true =>
      cases e with
      | invalid fault => exact .inr (.inl ⟨fault, rfl⟩)
      | _ => cases isFault

end

/-! ## The section of the report -/

namespace OutputOptions

/-- The shape of the section of the report that no rule of the options speaks about: a mapping
without unknown options, whose format cannot be shown and so is not valid. -/
inductive SectionBreaks : Value → KindFault → Prop
  | format {entries : List (Scalar × Value)} {format : Value} :
      (∀ entry ∈ entries, ∃ key ∈ keys, entry.1 = .text key) →
      Value.get? entries formatKey = some format → ¬format.Shows →
      SectionBreaks (.mapping entries) (.tooManyDigits digitError)

section
variable {e : SettingsError}

theorem ofValues_breaks_iff {format lineNumbers onlyUrls : Value} (unlike : e.isFault = false) :
    ofValues format lineNumbers onlyUrls = .error e ↔
      e = .wrongKind (.tooManyDigits digitError) ∧ ¬format.Shows := by
  unfold ofValues
  split
  next found isFormat =>
    obtain ⟨name, isText, -⟩ := Option.bind_eq_some_iff.mp isFormat
    rw [ScanOptions.text_of_text? isText]
    exact iff_of_false (fun same => by cases same) fun broken => broken.2 (.scalar trivial)
  next =>
    obtain ⟨shown, guarded⟩ := format.display_guarded
    by_cases shows : format.Shows
    · rw [guarded.ok shows]
      refine iff_of_false (fun same => ?_) fun broken => broken.2 shows
      cases same
      cases unlike
    · rw [guarded.error shows, Except.error.injEq, eq_comm]
      exact (and_iff_left shows).symm

theorem unknownKey?_eq_none_iff {given : List Scalar} (texts : ∀ key ∈ given, isText key = true) :
    unknownKey? given = none ↔ ∀ key ∈ given, ∃ known ∈ keys, key = .text known := by
  unfold unknownKey?
  simp only [List.find?_eq_none, List.mem_filterMap]
  refine ⟨fun none key member => ?_, fun known t isGiven => ?_⟩
  · cases key with
    | text t =>
      have isKnown := none t ⟨.text t, member, rfl⟩
      exact ⟨t, by simpa only [Bool.not_eq_true', Bool.not_eq_false, List.contains_iff_mem]
        using isKnown, rfl⟩
    | _ => cases texts _ member
  · obtain ⟨key, member, isText⟩ := isGiven
    obtain ⟨name, isKnown, rfl⟩ := known key member
    cases isText
    simpa only [Bool.not_eq_true', Bool.not_eq_false, List.contains_iff_mem] using isKnown

theorem ofEntries_breaks_iff {entries : List (Scalar × Value)} (unlike : e.isFault = false) :
    ofEntries entries = .error e ↔
      ∃ fault, e = .wrongKind fault ∧ SectionBreaks (.mapping entries) fault := by
  constructor
  · intro failed
    unfold ofEntries at failed
    split at failed
    next => cases failed; cases unlike
    next texts =>
      split at failed
      next => cases failed; cases unlike
      next known =>
        obtain ⟨isKind, hidden⟩ := (ofValues_breaks_iff unlike).mp failed
        have texts : ∀ key ∈ entries.map (·.1), isText key = true := by
          simpa using texts
        have known := (unknownKey?_eq_none_iff texts).mp known
        refine ⟨_, isKind, ?_⟩
        cases given : Value.get? entries formatKey with
        | none =>
          rw [given] at hidden
          exact absurd (.scalar trivial) hidden
        | some format =>
          rw [given] at hidden
          exact .format (fun entry member => known _ (List.mem_map_of_mem member)) given hidden
  · rintro ⟨fault, rfl, broken⟩
    cases broken with
    | format known given hidden =>
      have inKeys : ∀ key ∈ entries.map (·.1), ∃ known ∈ keys, key = .text known := by
        simpa using known
      have texts : ∀ key ∈ entries.map (·.1), isText key = true := by
        intro key member
        obtain ⟨t, -, rfl⟩ := inKeys key member
        rfl
      have noOther : ¬(entries.any fun entry => !isText entry.1) = true := by
        simpa using texts
      unfold ofEntries
      rw [if_neg noOther, (unknownKey?_eq_none_iff texts).mpr inKeys, given]
      exact (ofValues_breaks_iff rfl).mpr ⟨rfl, hidden⟩

/-- An error in the section of the report is a fault of an option unless the format cannot be
shown. -/
theorem ofSection_breaks_iff {value : Value} (unlike : e.isFault = false) :
    ofSection value = .error e ↔ ∃ fault, e = .wrongKind fault ∧ SectionBreaks value fault := by
  have noSection : ofEntries [] ≠ .error e := by
    intro failed
    obtain ⟨_, -, broken⟩ := (ofEntries_breaks_iff unlike).mp failed
    cases broken with
    | format _ given _ => cases given
  have other (kept : ofSection value ≠ .error e) (notMapping : ∀ entries, value ≠ .mapping entries) :
      ofSection value = .error e ↔ ∃ fault, e = .wrongKind fault ∧ SectionBreaks value fault := by
    refine iff_of_false kept ?_
    rintro ⟨fault, -, broken⟩
    cases broken
    exact notMapping _ rfl
  cases value with
  | mapping entries =>
    have isEntries : ofSection (.mapping entries) = ofEntries entries := by cases entries <;> rfl
    rw [isEntries, ofEntries_breaks_iff unlike]
  | _ =>
    refine other ?_ fun entries same => by cases same
    unfold ofSection
    split
    next =>
      intro failed
      cases failed
      cases unlike
    next => exact noSection

end

end OutputOptions

/-! ## The section of the scan -/

namespace ScanOptions

/-- A list of schemes in which something that is no text comes before any invalid scheme. -/
inductive SchemesBreak : List Value → KindFault → Prop
  | here {value : Value} {rest : List Value} : value.text? = none →
      SchemesBreak (value :: rest) (schemeFault value)
  | later {scheme : Text} {rest : List Value} {fault : KindFault} : isScheme scheme = true →
      SchemesBreak rest fault → SchemesBreak (.text scheme :: rest) fault

/-- A value that is a number or a flag and is large enough. -/
def CountFits (minimum : Int) (value : Value) : Prop :=
  ∃ count, value.count? = some count ∧ minimum ≤ count.toInt

/-- The values of the options that are lists have items. -/
def ListsFit (values : ScanOption → Value) : Prop :=
  ∀ option, (Setting.scan option).isList = true → (values option).HasItems

structure NumbersFit (values : ScanOption → Value) : Prop where
  concurrency : CountFits 1 (values .concurrency)
  poolSize : CountFits 1 (values .poolSize)
  contextLines : CountFits 0 (values .contextLines)
  maxFileSize : CountFits 0 (values .maxFileSize)

/-- Values whose check ends in an error that no rule of the options speaks about.

* `list`: an option that is a list has a value that is none and cannot be shown for its items.
* `schemes`: the lists have items, the numbers are valid, and the check comes to something that is
  no text among the schemes. -/
inductive ValuesBreak (values : ScanOption → Value) : KindFault → Prop
  | list : ¬ListsFit values → ValuesBreak values (.tooManyDigits digitError)
  | schemes {lists : OptionLists} {fault : KindFault} : listsOf values = .ok lists →
      NumbersFit values → SchemesBreak lists.schemes fault → ValuesBreak values fault

/-- The values that a mapping gives, over the defaults. -/
def valuesOf (entries : List (Scalar × Value)) (option : ScanOption) : Value :=
  (Value.get? entries option.name).getD option.default

/-- The shapes of the section of the scan that no rule of the options speaks about.

* `scalar`: a number, a date or the flag true.
* `item`: a list with an item that is no text.
* `names`: a list of nothing but names of options.
* `key`: a mapping with a key that is no text.
* `values`: a mapping without unknown options whose values are not taken apart or, when all numbers
  are valid, whose schemes are not all texts. -/
inductive SectionBreaks : Value → KindFault → Prop
  | scalar {s : Scalar} : s.isSet = true → OutputOptions.isText s = false →
      SectionBreaks (.scalar s) .sectionNotMapping
  | item {items : List Value} {item : Value} : item ∈ items → item.text? = none →
      SectionBreaks (.list items) .keyNotText
  | names {items : List Value} : items ≠ [] →
      (∀ item ∈ items, ∃ option : ScanOption, item = .text option.name) →
      SectionBreaks (.list items) .sectionNotMapping
  | key {entries : List (Scalar × Value)} {entry : Scalar × Value} : entry ∈ entries →
      OutputOptions.isText entry.1 = false → SectionBreaks (.mapping entries) .keyNotText
  | values {entries : List (Scalar × Value)} {fault : KindFault} :
      (∀ entry ∈ entries, ∃ option : ScanOption, entry.1 = .text option.name) →
      ValuesBreak (valuesOf entries) fault → SectionBreaks (.mapping entries) fault

section
variable {e : SettingsError}

theorem fault_of_countFrom {minimum : Int} {fault : OptionFault} {value : Value}
    (failed : countFrom minimum fault value = .error e) : e.isFault = true := by
  unfold countFrom at failed
  split at failed
  next =>
    split at failed
    next => cases failed
    next => cases failed; rfl
  next => cases failed; rfl

theorem countFrom_ok_iff {minimum : Int} {fault : OptionFault} {value : Value} :
    (∃ count, countFrom minimum fault value = .ok count) ↔ CountFits minimum value := by
  unfold countFrom CountFits
  constructor
  · rintro ⟨checked, isChecked⟩
    split at isChecked
    next count isCount =>
      split at isChecked
      next large => exact ⟨count, isCount, large⟩
      next => cases isChecked
    next => cases isChecked
  · rintro ⟨count, isCount, large⟩
    rw [isCount]
    exact ⟨⟨count, large⟩, dif_pos large⟩

theorem schemesBreak_of_notText {value : Value} {rest : List Value} {fault : KindFault}
    (notText : value.text? = none) :
    SchemesBreak (value :: rest) fault ↔ fault = schemeFault value := by
  constructor
  · intro broken
    cases broken with
    | here => rfl
    | later => cases notText
  · rintro rfl
    exact .here notText

theorem schemesBreak_text_iff {scheme : Text} {rest : List Value} {fault : KindFault} :
    SchemesBreak (.text scheme :: rest) fault ↔
      isScheme scheme = true ∧ SchemesBreak rest fault := by
  constructor
  · intro broken
    cases broken with
    | here none => cases none
    | later valid broken => exact ⟨valid, broken⟩
  · rintro ⟨valid, broken⟩
    exact .later valid broken

theorem schemesOf_breaks_iff {values : List Value} (unlike : e.isFault = false) :
    schemesOf values = .error e ↔ ∃ fault, e = .wrongKind fault ∧ SchemesBreak values fault := by
  induction values with
  | nil =>
    refine iff_of_false (fun failed => by cases failed) ?_
    rintro ⟨fault, -, broken⟩
    cases broken
  | cons value rest ih =>
    rw [schemesOf]
    cases isText : value.text? with
    | none =>
      simp only [schemesBreak_of_notText isText, exists_eq_right]
      rw [Except.error.injEq, eq_comm]
    | some scheme =>
      cases text_of_text? isText
      dsimp only
      by_cases valid : isScheme scheme = true
      · simp only [schemesBreak_text_iff, valid, true_and]
        rw [dif_pos trivial, ← ih]
        cases schemesOf rest with
        | ok schemes => exact iff_of_false (fun same => by cases same) fun same => by cases same
        | error other => rfl
      · rw [dif_neg valid]
        refine iff_of_false (fun same => ?_) ?_
        · cases same
          cases unlike
        · rintro ⟨fault, -, broken⟩
          exact valid (schemesBreak_text_iff.mp broken).1

theorem check_breaks_iff {values : ScanOption → Value} {lists : OptionLists}
    (unlike : e.isFault = false) :
    check values lists = .error e ↔
      ∃ fault, e = .wrongKind fault ∧ NumbersFit values ∧ SchemesBreak lists.schemes fault := by
  unfold check
  constructor
  · intro failed
    obtain ⟨concurrency, isConcurrency, failed⟩ :=
      (bind_breaks_iff (fun _ => fault_of_countFrom) unlike).mp failed
    obtain ⟨poolSize, isPoolSize, failed⟩ :=
      (bind_breaks_iff (fun _ => fault_of_countFrom) unlike).mp failed
    obtain ⟨contextLines, isContextLines, failed⟩ :=
      (bind_breaks_iff (fun _ => fault_of_countFrom) unlike).mp failed
    obtain ⟨maxFileSize, isMaxFileSize, failed⟩ :=
      (bind_breaks_iff (fun _ => fault_of_countFrom) unlike).mp failed
    rcases bind_eq_error_iff.mp failed with failed | ⟨⟨schemes, valid⟩, -, failed⟩
    · obtain ⟨fault, isKind, broken⟩ := (schemesOf_breaks_iff unlike).mp failed
      exact ⟨fault, isKind, ⟨countFrom_ok_iff.mp ⟨_, isConcurrency⟩,
        countFrom_ok_iff.mp ⟨_, isPoolSize⟩, countFrom_ok_iff.mp ⟨_, isContextLines⟩,
        countFrom_ok_iff.mp ⟨_, isMaxFileSize⟩⟩, broken⟩
    · dsimp only at failed
      split at failed
      next => cases failed
      next =>
        cases failed
        cases unlike
  · rintro ⟨fault, isKind, ⟨concurrency, poolSize, contextLines, maxFileSize⟩, broken⟩
    obtain ⟨count, isConcurrency⟩ := countFrom_ok_iff.mpr concurrency
    obtain ⟨size, isPoolSize⟩ := countFrom_ok_iff.mpr poolSize
    obtain ⟨lines, isContextLines⟩ := countFrom_ok_iff.mpr contextLines
    obtain ⟨limit, isMaxFileSize⟩ := countFrom_ok_iff.mpr maxFileSize
    have failed := (schemesOf_breaks_iff unlike).mpr ⟨fault, isKind, broken⟩
    rw [isConcurrency, isPoolSize, isContextLines, isMaxFileSize, failed]
    rfl

/-- The lists are taken apart unless the value of one cannot be shown. -/
theorem listsOf_guarded (values : ScanOption → Value) :
    ∃ lists, Guarded (listsOf values) (ListsFit values) lists
      (.wrongKind (.tooManyDigits digitError)) := by
  obtain ⟨languages, ofLanguages⟩ := itemsOf_guarded (values .forceFallback)
  obtain ⟨domains, ofDomains⟩ := itemsOf_guarded (values .ignoreDomains)
  obtain ⟨schemes, ofSchemes⟩ := itemsOf_guarded (values .schemes)
  unfold listsOf
  refine ⟨⟨languages, domains, schemes⟩,
    (ofLanguages.bind (ofDomains.bind (ofSchemes.map _))).of_iff ?_⟩
  refine ⟨fun ⟨hasLanguages, hasDomains, hasSchemes⟩ option isList => ?_,
    fun fit => ⟨fit _ rfl, fit _ rfl, fit _ rfl⟩⟩
  cases option with
  | forceFallback => exact hasLanguages
  | ignoreDomains => exact hasDomains
  | schemes => exact hasSchemes
  | _ => cases isList

theorem ofValues_breaks_iff {values : ScanOption → Value} (unlike : e.isFault = false) :
    ofValues values = .error e ↔ ∃ fault, e = .wrongKind fault ∧ ValuesBreak values fault := by
  obtain ⟨taken, guarded⟩ := listsOf_guarded values
  unfold ofValues
  rw [bind_eq_error_iff, guarded.error_iff]
  constructor
  · rintro (⟨rfl, unfit⟩ | ⟨lists, areLists, failed⟩)
    · exact ⟨_, rfl, .list unfit⟩
    · obtain ⟨fault, isKind, numbers, broken⟩ := (check_breaks_iff unlike).mp failed
      exact ⟨fault, isKind, .schemes areLists numbers broken⟩
  · rintro ⟨fault, isKind, broken⟩
    cases broken with
    | list unfit => exact .inl ⟨isKind, unfit⟩
    | schemes areLists numbers broken =>
      exact .inr ⟨_, areLists, (check_breaks_iff unlike).mpr ⟨fault, isKind, numbers, broken⟩⟩

/-! ### Keys -/

theorem isSome_ofName?_iff {t : Text} :
    (ScanOption.ofName? t).isSome = true ↔ ∃ option : ScanOption, t = option.name := by
  unfold ScanOption.ofName?
  rw [List.find?_isSome]
  constructor
  · rintro ⟨option, -, same⟩
    exact ⟨option, (beq_iff_eq.mp same).symm⟩
  · rintro ⟨option, rfl⟩
    exact ⟨option, by cases option <;> decide, beq_self_eq_true _⟩

/-- No option has a name of one character. -/
theorem ofName?_singleton (c : Char) : ScanOption.ofName? [c] = none := by
  rw [← Option.not_isSome_iff_eq_none, isSome_ofName?_iff]
  rintro ⟨option, same⟩
  have length : option.name.length ≠ 1 := by cases option <;> decide
  exact length (congrArg List.length same).symm

theorem unknownKeys_eq_nil_iff {keys : List Scalar} :
    unknownKeys keys = [] ↔ ∀ key ∈ keys, ∃ option : ScanOption, key = .text option.name := by
  unfold unknownKeys
  rw [List.filterMap_eq_nil_iff]
  refine forall₂_congr fun key _ => ?_
  cases key with
  | text t =>
    dsimp only
    simp only [Scalar.text.injEq, ← isSome_ofName?_iff]
    split
    next known => exact iff_of_true rfl known
    next unknown => exact iff_of_false (Option.some_ne_none _) unknown
  | _ => simp

theorem none_mem_unknownKeys_iff {keys : List Scalar} :
    none ∈ unknownKeys keys ↔ ∃ key ∈ keys, OutputOptions.isText key = false := by
  unfold unknownKeys
  rw [List.mem_filterMap]
  refine exists_congr fun key => and_congr_right fun _ => ?_
  cases key with
  | text t =>
    dsimp only [OutputOptions.isText]
    split <;> simp
  | _ => simp [OutputOptions.isText]

theorem mapM_id_eq_none_iff {α : Type} {items : List (Option α)} :
    items.mapM id = none ↔ none ∈ items := by
  induction items with
  | nil => exact iff_of_false (Option.some_ne_none _) List.not_mem_nil
  | cons item rest ih =>
    rw [List.mapM_cons, List.mem_cons, ← ih]
    cases item with
    | none => exact iff_of_true rfl (.inl rfl)
    | some a =>
      rw [or_iff_right (Option.some_ne_none a).symm]
      cases rest.mapM id with
      | none => exact iff_of_true rfl rfl
      | some others => exact iff_of_false (Option.some_ne_none _) (Option.some_ne_none _)

theorem checkKeys_eq_ok_iff {keys : List Scalar} :
    checkKeys keys = .ok () ↔ ∀ key ∈ keys, ∃ option : ScanOption, key = .text option.name := by
  rw [← unknownKeys_eq_nil_iff]
  unfold checkKeys
  split
  next none => exact iff_of_true rfl none
  next some =>
    refine iff_of_false ?_ some
    split
    next => exact fun same => by cases same
    next => exact fun same => by cases same

theorem checkKeys_breaks_iff {keys : List Scalar} (unlike : e.isFault = false) :
    checkKeys keys = .error e ↔
      e = .wrongKind .keyNotText ∧ ∃ key ∈ keys, OutputOptions.isText key = false := by
  rw [← none_mem_unknownKeys_iff, ← mapM_id_eq_none_iff]
  unfold checkKeys
  split
  next none =>
    rw [none]
    refine iff_of_false (fun same => by cases same) ?_
    rintro ⟨-, same⟩
    cases same
  next some =>
    split
    next names isNames =>
      rw [isNames]
      refine iff_of_false (fun same => ?_) ?_
      · cases same
        cases unlike
      · rintro ⟨-, same⟩
        cases same
    next none =>
      rw [none, Except.error.injEq, eq_comm]
      exact (and_iff_left rfl).symm

/-! ### The whole section -/

theorem ofEntries_breaks_iff {entries : List (Scalar × Value)} (unlike : e.isFault = false) :
    ofEntries entries = .error e ↔
      ∃ fault, e = .wrongKind fault ∧ SectionBreaks (.mapping entries) fault := by
  unfold ofEntries
  rw [bind_eq_error_iff, checkKeys_breaks_iff unlike]
  constructor
  · rintro (⟨isKind, key, member, notText⟩ | ⟨⟨⟩, isKnown, failed⟩)
    · obtain ⟨entry, inEntries, rfl⟩ := List.mem_map.mp member
      exact ⟨_, isKind, .key inEntries notText⟩
    · have known := checkKeys_eq_ok_iff.mp isKnown
      obtain ⟨fault, isKind, broken⟩ := (ofValues_breaks_iff unlike).mp failed
      exact ⟨fault, isKind,
        .values (fun entry member => known _ (List.mem_map_of_mem member)) broken⟩
  · rintro ⟨fault, isKind, broken⟩
    cases broken with
    | key member notText => exact .inl ⟨isKind, _, List.mem_map_of_mem member, notText⟩
    | values known broken =>
      refine .inr ⟨(), checkKeys_eq_ok_iff.mpr fun key member => ?_,
        (ofValues_breaks_iff unlike).mpr ⟨fault, isKind, broken⟩⟩
      obtain ⟨entry, inEntries, rfl⟩ := List.mem_map.mp member
      exact known entry inEntries

/-- An item of a list, read as a key. -/
def keyOf : Value → Except SettingsError Scalar
  | .scalar s => .ok s
  | _ => .error (.wrongKind .keyNotText)

theorem ofSection_cons (item : Value) (rest : List Value) :
    ofSection (.list (item :: rest)) = (do
      let keys ← (item :: rest).mapM keyOf
      checkKeys keys
      .error (.wrongKind .sectionNotMapping)) :=
  rfl

/-- The items of a list are read as keys, unless one of them is a list or a mapping. -/
theorem mapM_keyOf_cases (items : List Value) :
    (∃ keys, items = keys.map .scalar ∧ items.mapM keyOf = .ok keys) ∨
    (∃ item ∈ items, item.text? = none) ∧
      items.mapM keyOf = .error (.wrongKind .keyNotText) := by
  induction items with
  | nil => exact .inl ⟨[], rfl, rfl⟩
  | cons item rest ih =>
    rw [List.mapM_cons]
    cases item with
    | scalar s =>
      rcases ih with ⟨keys, rfl, isKeys⟩ | ⟨⟨item, member, notText⟩, failed⟩
      · rw [isKeys]
        exact .inl ⟨s :: keys, rfl, rfl⟩
      · rw [failed]
        exact .inr ⟨⟨item, List.mem_cons_of_mem _ member, notText⟩, rfl⟩
    | list items => exact .inr ⟨⟨_, List.mem_cons_self, rfl⟩, rfl⟩
    | mapping entries => exact .inr ⟨⟨_, List.mem_cons_self, rfl⟩, rfl⟩

theorem text?_scalar_eq_none_iff {s : Scalar} :
    (Value.scalar s).text? = none ↔ OutputOptions.isText s = false := by
  cases s <;> simp [Value.text?, OutputOptions.isText]

/-- Keys that are checked where no mapping stands: all of them name options, or one is no text. -/
theorem checkKeys_then_breaks_iff {keys : List Scalar} (unlike : e.isFault = false) :
    (do checkKeys keys; .error (.wrongKind .sectionNotMapping) : Except SettingsError ScanOptions) =
        .error e ↔
      e = .wrongKind .sectionNotMapping ∧
        (∀ key ∈ keys, ∃ option : ScanOption, key = .text option.name) ∨
      e = .wrongKind .keyNotText ∧ ∃ key ∈ keys, OutputOptions.isText key = false := by
  rw [bind_eq_error_iff, checkKeys_breaks_iff unlike, ← checkKeys_eq_ok_iff, or_comm]
  refine or_congr_left ?_
  constructor
  · rintro ⟨⟨⟩, known, same⟩
    exact ⟨(Except.error.inj same).symm, known⟩
  · rintro ⟨rfl, known⟩
    exact ⟨(), known, rfl⟩

/-- Without a section there is no error. -/
theorem ofEntries_nil_ne_error (e : SettingsError) : ofEntries [] ≠ .error e := by
  have valid : (ofEntries []).isOk = true := by decide +kernel
  intro failed
  rw [failed] at valid
  cases valid

theorem sectionBreaks_of_notText {items : List Value} {item : Value} {fault : KindFault}
    (member : item ∈ items) (notText : item.text? = none) :
    SectionBreaks (.list items) fault ↔ fault = .keyNotText := by
  constructor
  · intro broken
    cases broken with
    | item => rfl
    | names _ known =>
      obtain ⟨option, rfl⟩ := known item member
      cases notText
  · rintro rfl
    exact .item member notText

/-- A list of scalars is no section: all of them name options, or one is no text. -/
theorem sectionBreaks_scalars_iff {keys : List Scalar} {fault : KindFault} (some : keys ≠ []) :
    SectionBreaks (.list (keys.map .scalar)) fault ↔
      fault = .sectionNotMapping ∧
        (∀ key ∈ keys, ∃ option : ScanOption, key = .text option.name) ∨
      fault = .keyNotText ∧ ∃ key ∈ keys, OutputOptions.isText key = false := by
  constructor
  · intro broken
    cases broken with
    | item member notText =>
      obtain ⟨key, inKeys, rfl⟩ := List.mem_map.mp member
      exact .inr ⟨rfl, key, inKeys, text?_scalar_eq_none_iff.mp notText⟩
    | names _ known =>
      refine .inl ⟨rfl, fun key member => ?_⟩
      obtain ⟨option, same⟩ := known _ (List.mem_map_of_mem member)
      exact ⟨option, Value.scalar.inj same⟩
  · rintro (⟨rfl, known⟩ | ⟨rfl, key, member, notText⟩)
    · refine .names (mt List.map_eq_nil_iff.mp some) fun item member => ?_
      obtain ⟨key, inKeys, rfl⟩ := List.mem_map.mp member
      obtain ⟨option, rfl⟩ := known key inKeys
      exact ⟨option, rfl⟩
    · exact .item (List.mem_map_of_mem member) (text?_scalar_eq_none_iff.mpr notText)

theorem ofSection_list_breaks_iff {items : List Value} (unlike : e.isFault = false) :
    ofSection (.list items) = .error e ↔
      ∃ fault, e = .wrongKind fault ∧ SectionBreaks (.list items) fault := by
  cases items with
  | nil =>
    refine iff_of_false (ofEntries_nil_ne_error e) ?_
    rintro ⟨fault, -, broken⟩
    cases broken with
    | item member _ => exact List.not_mem_nil member
    | names some _ => exact some rfl
  | cons first rest =>
    rw [ofSection_cons]
    rcases mapM_keyOf_cases (first :: rest) with
      ⟨keys, isItems, isKeys⟩ | ⟨⟨item, member, notText⟩, failed⟩
    · have some : keys ≠ [] := by
        rintro rfl
        cases isItems
      rw [isKeys, isItems]
      refine (checkKeys_then_breaks_iff unlike).trans ?_
      simp only [sectionBreaks_scalars_iff some, and_or_left, exists_or, ← and_assoc,
        exists_and_right, exists_eq_right]
    · rw [failed]
      simp only [sectionBreaks_of_notText member notText, exists_eq_right]
      exact ⟨fun same => (Except.error.inj same).symm, fun same => congrArg _ same.symm⟩

/-- A text is read as its characters, which name no options. So it is never taken for a section. -/
theorem ofSection_text_ne_error {t : Text} (unlike : e.isFault = false) :
    ofSection (.text t) ≠ .error e := by
  cases t with
  | nil => exact ofEntries_nil_ne_error e
  | cons c rest =>
    have isSet : (Value.text (c :: rest)).isSet = true := rfl
    unfold ofSection
    rw [if_pos isSet]
    intro failed
    rcases (checkKeys_then_breaks_iff unlike).mp failed with ⟨-, known⟩ | ⟨-, key, member, notText⟩
    · obtain ⟨option, same⟩ := known (.text [c]) List.mem_cons_self
      have named := isSome_ofName?_iff.mpr ⟨option, Scalar.text.inj same⟩
      rw [ofName?_singleton] at named
      cases named
    · obtain ⟨c, -, rfl⟩ := List.mem_map.mp member
      cases notText

theorem ofSection_scalar_breaks_iff {s : Scalar} (unlike : e.isFault = false) :
    ofSection (.scalar s) = .error e ↔
      ∃ fault, e = .wrongKind fault ∧ SectionBreaks (.scalar s) fault := by
  cases isText : OutputOptions.isText s with
  | true =>
    refine iff_of_false ?_ ?_
    · cases s with
      | text t => exact ofSection_text_ne_error unlike
      | _ => cases isText
    · rintro ⟨fault, -, broken⟩
      cases broken with
      | scalar _ notText => cases isText.symm.trans notText
  | false =>
    by_cases isSet : s.isSet = true
    · have failed : ofSection (.scalar s) = .error (.wrongKind .sectionNotMapping) := by
        have isSetValue : (Value.scalar s).isSet = true := isSet
        unfold ofSection
        rw [if_pos isSetValue]
        cases s with
        | text t => cases isText
        | _ => rfl
      rw [failed]
      constructor
      · exact fun same => ⟨_, (Except.error.inj same).symm, .scalar isSet isText⟩
      · rintro ⟨fault, rfl, broken⟩
        cases broken
        rfl
    · have isUnset : ofSection (.scalar s) = ofEntries [] := by
        have isUnsetValue : ¬(Value.scalar s).isSet = true := isSet
        unfold ofSection
        rw [if_neg isUnsetValue]
      rw [isUnset]
      refine iff_of_false (ofEntries_nil_ne_error e) ?_
      rintro ⟨fault, -, broken⟩
      cases broken with
      | scalar set _ => exact isSet set

theorem ofSection_breaks_iff {value : Value} (unlike : e.isFault = false) :
    ofSection value = .error e ↔ ∃ fault, e = .wrongKind fault ∧ SectionBreaks value fault := by
  cases value with
  | mapping entries =>
    have isEntries : ofSection (.mapping entries) = ofEntries entries := by cases entries <;> rfl
    rw [isEntries, ofEntries_breaks_iff unlike]
  | list items => exact ofSection_list_breaks_iff unlike
  | scalar s => exact ofSection_scalar_breaks_iff unlike

end

end ScanOptions

end UrlScan
