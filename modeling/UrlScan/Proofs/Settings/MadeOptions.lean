import UrlScan.Proofs.Settings.Sections

/-!
# Options that are made of options

Options of a scan are made by a call, from a mapping, or from other options by replacing some of
them, and this any number of times (`ScanOptions.Made`). If the values are of the declared kinds,
then whatever is made can be scanned with: every part of a scanner can be built. Written as a
mapping and read again, options are what they were; and a replacement changes the options that it
gives, and no others (`ScanOptions.closed_of_made`).

What is given may be refused: the check lets through the values that fit (`ScanOption.Fits`) and no
others (`ofValues_ok_iff`). It lets through its own results (`ofValues_toValues`), since the items
of a list are what they were when they are taken a second time.

Results:
1. `ofValues_ok_iff`: which values pass the check.
2. `toValues_injective`, `ofValues_toValues`: options are their values.
3. `ofEntries_toEntries`: options as a mapping.
4. `override_ok_iff`, `value_override`: replacing some options.
5. `Made.typed`: the kinds of the values are kept.
6. `exists_builds`: the parts of a scanner.
-/

namespace UrlScan

/-! ## What the values are meant to be -/

/-- What an option is declared to be. -/
inductive OptionKind
  | count
  | flag
  | texts
deriving DecidableEq

namespace ScanOption

def kind : ScanOption → OptionKind
  | concurrency | poolSize | contextLines | maxFileSize => .count
  | includeComments | includeSingleLabel | fallback | failOnError | keepEmptyFiles => .flag
  | forceFallback | ignoreDomains | schemes => .texts

end ScanOption

/-- Whether a value is of a kind. A list of texts may also be given as a text with commas. -/
def Value.HasKind (value : Value) : OptionKind → Prop
  | .count => ∃ count : Count, value = count.toValue
  | .flag => ∃ b, value = .flag b
  | .texts => (∃ ts, value = .texts ts) ∨ ∃ t, value = .text t

namespace ScanOption

/-- The values that an option may have: there is room for one file and for one parser, lines and
bytes are not negative, lists have items, and there is some scheme and no invalid one. -/
def Fits : ScanOption → Value → Prop
  | concurrency | poolSize => ScanOptions.CountFits 1
  | contextLines | maxFileSize => ScanOptions.CountFits 0
  | forceFallback | ignoreDomains => Value.HasItems
  | schemes => fun value => ∃ items, value.items = .ok items ∧ items ≠ [] ∧
    ∀ item ∈ items, ∃ scheme, item = .text scheme ∧ isScheme scheme = true
  | _ => fun _ => True

theorem ofName?_name (option : ScanOption) : ofName? option.name = some option := by
  cases option <;> rfl

theorem name_injective {a b : ScanOption} (same : a.name = b.name) : a = b := by
  have found := congrArg ofName? same
  rw [ofName?_name, ofName?_name] at found
  exact Option.some.inj found

theorem mem_all (option : ScanOption) : option ∈ all := by
  cases option <;> decide

theorem default_hasKind (option : ScanOption) : option.default.HasKind option.kind := by
  cases option with
  | concurrency | poolSize => exact ⟨.number 10, rfl⟩
  | contextLines | maxFileSize => exact ⟨.number 0, rfl⟩
  | forceFallback | ignoreDomains => exact .inl ⟨[], rfl⟩
  | schemes => exact .inl ⟨_, rfl⟩
  | _ => exact ⟨_, rfl⟩

/-- What an option takes of a value of its kind is of this kind. -/
theorem taken_hasKind {option : ScanOption} {value : Value} (typed : value.HasKind option.kind) :
    ((Setting.scan option).taken value).HasKind option.kind := by
  have items {option : ScanOption} (isList : (Setting.scan option).isList = true)
      (isText : value.HasKind .texts) : ((Setting.scan option).taken value).HasKind .texts := by
    rcases isText with ⟨ts, rfl⟩ | ⟨t, rfl⟩
    · rw [Setting.taken_of_items isList rfl]
      exact .inl ⟨ts, rfl⟩
    · rw [Setting.taken_of_items isList rfl]
      exact .inl ⟨Text.commaItems t, rfl⟩
  cases option with
  | forceFallback | ignoreDomains | schemes => exact items rfl typed
  | _ => exact typed

/-- An option may have what it takes of a value exactly if it may have the value, provided that a
value for a list has items. -/
theorem fits_taken_iff {option : ScanOption} {value : Value}
    (hasItems : (Setting.scan option).isList = true → value.HasItems) :
    option.Fits ((Setting.scan option).taken value) ↔ option.Fits value := by
  cases option with
  | forceFallback | ignoreDomains =>
    obtain ⟨items, areItems⟩ := Value.hasItems_iff.mp (hasItems rfl)
    rw [Setting.taken_of_items rfl areItems]
    exact iff_of_true trivial (hasItems rfl)
  | schemes =>
    obtain ⟨items, areItems⟩ := Value.hasItems_iff.mp (hasItems rfl)
    rw [Setting.taken_of_items rfl areItems]
    simp only [Fits, areItems]
    exact Iff.rfl
  | _ => exact Iff.rfl

theorem Fits.hasItems {option : ScanOption} {value : Value} (fits : option.Fits value)
    (isList : (Setting.scan option).isList = true) : value.HasItems := by
  cases option with
  | forceFallback | ignoreDomains => exact fits
  | schemes => exact Value.hasItems_iff.mpr (fits.imp fun _ => And.left)
  | _ => cases isList

end ScanOption

namespace ScanOptions

/-! ## Values that pass the check -/

theorem schemesOf_ok_iff {values : List Value} :
    (∃ schemes, schemesOf values = .ok schemes) ↔
      ∀ value ∈ values, ∃ scheme, value = .text scheme ∧ isScheme scheme = true := by
  constructor
  · rintro ⟨⟨schemes, valid⟩, checked⟩ value member
    rw [map_text_schemesOf checked] at member
    obtain ⟨scheme, inSchemes, rfl⟩ := List.mem_map.mp member
    exact ⟨scheme, rfl, valid scheme inSchemes⟩
  · intro fit
    induction values with
    | nil => exact ⟨_, rfl⟩
    | cons value rest ih =>
      obtain ⟨⟨scheme, rfl, valid⟩, others⟩ := List.forall_mem_cons.mp fit
      obtain ⟨schemes, checked⟩ := ih others
      have first : (Value.text scheme).text? = some scheme := rfl
      refine ⟨⟨scheme :: schemes.val, by simpa [valid] using schemes.property⟩, ?_⟩
      rw [schemesOf, first]
      dsimp only
      rw [dif_pos valid, checked]

theorem count?_toValue (count : Count) : count.toValue.count? = some count := by
  cases count <;> rfl

/-- Checked options have values that they may have. -/
theorem fits_toValues (o : ScanOptions) (option : ScanOption) :
    option.Fits (o.toValues option) := by
  cases option with
  | concurrency => exact ⟨_, count?_toValue _, o.concurrency_pos⟩
  | poolSize => exact ⟨_, count?_toValue _, o.poolSize_pos⟩
  | contextLines => exact ⟨_, count?_toValue _, o.contextLines_nonneg⟩
  | maxFileSize => exact ⟨_, count?_toValue _, o.maxFileSize_nonneg⟩
  | schemes =>
    refine ⟨_, rfl, mt List.map_eq_nil_iff.mp o.schemes_ne_nil, fun item member => ?_⟩
    obtain ⟨scheme, inSchemes, rfl⟩ := List.mem_map.mp member
    exact ⟨scheme, rfl, o.schemes_valid scheme inSchemes⟩
  | _ => trivial

/-- Values pass the check exactly if each is one that its option may have. -/
theorem ofValues_ok_iff {values : ScanOption → Value} :
    (∃ o, ofValues values = .ok o) ↔ ∀ option : ScanOption, option.Fits (values option) := by
  obtain ⟨taken, guarded⟩ := listsOf_guarded values
  constructor
  · rintro ⟨o, checked⟩ option
    obtain ⟨lists, areLists, -⟩ := ok_of_bind checked
    rw [← ScanOption.fits_taken_iff (guarded.of_ok areLists option), ← value_ofValues checked]
    exact fits_toValues o option
  · intro fit
    have areLists := guarded.ok fun option isList => (fit option).hasItems isList
    obtain ⟨-, -, areSchemes⟩ := listsOf_eq_ok_iff.mp areLists
    obtain ⟨concurrency, isConcurrency⟩ := countFrom_ok_iff.mpr (fit .concurrency)
    obtain ⟨poolSize, isPoolSize⟩ := countFrom_ok_iff.mpr (fit .poolSize)
    obtain ⟨contextLines, isContextLines⟩ := countFrom_ok_iff.mpr (fit .contextLines)
    obtain ⟨maxFileSize, isMaxFileSize⟩ := countFrom_ok_iff.mpr (fit .maxFileSize)
    obtain ⟨items, areItems, someScheme, valid⟩ := fit .schemes
    cases areItems.symm.trans areSchemes
    obtain ⟨schemes, isSchemes⟩ := schemesOf_ok_iff.mpr valid
    have notEmpty : schemes.val ≠ [] := by
      intro none
      rw [map_text_schemesOf isSchemes, none] at someScheme
      exact someScheme rfl
    have checked : ∃ o, check values taken = .ok o := by
      unfold check
      rw [isConcurrency, isPoolSize, isContextLines, isMaxFileSize, isSchemes]
      exact ⟨_, dif_pos notEmpty⟩
    exact checked.imp fun o isChecked => bind_eq_ok_iff.mpr ⟨taken, areLists, isChecked⟩

/-! ## Options are their values -/

theorem toValue_injective {a b : Count} (same : a.toValue = b.toValue) : a = b := by
  have counts := congrArg Value.count? same
  rw [count?_toValue, count?_toValue] at counts
  exact Option.some.inj counts

theorem toValues_injective {o o' : ScanOptions} (same : o.toValues = o'.toValues) : o = o' := by
  have textInjective : Function.Injective Value.text := fun a b equal =>
    Scalar.text.inj (Value.scalar.inj equal)
  have schemes : o.schemes = o'.schemes :=
    List.map_injective_iff.mpr textInjective (Value.list.inj (congrFun same .schemes))
  have concurrency := toValue_injective (congrFun same .concurrency)
  have poolSize := toValue_injective (congrFun same .poolSize)
  have contextLines := toValue_injective (congrFun same .contextLines)
  have maxFileSize := toValue_injective (congrFun same .maxFileSize)
  have languages := Value.list.inj (congrFun same .forceFallback)
  have domains := Value.list.inj (congrFun same .ignoreDomains)
  have comments := congrFun same .includeComments
  have singleLabel := congrFun same .includeSingleLabel
  have fallback := congrFun same .fallback
  have failOnError := congrFun same .failOnError
  have keepEmptyFiles := congrFun same .keepEmptyFiles
  cases o
  cases o'
  dsimp only [toValues] at *
  subst schemes concurrency poolSize contextLines maxFileSize languages domains comments singleLabel
    fallback failOnError keepEmptyFiles
  rfl

theorem taken_toValues (o : ScanOptions) (option : ScanOption) :
    (Setting.scan option).taken (o.toValues option) = o.toValues option := by
  cases option <;> rfl

/-- Checked options pass the check again and stay what they are. -/
theorem ofValues_toValues (o : ScanOptions) : ofValues o.toValues = .ok o := by
  obtain ⟨again, checked⟩ := ofValues_ok_iff.mpr (fits_toValues o)
  have same : again.toValues = o.toValues := by
    funext option
    rw [value_ofValues checked, taken_toValues]
  rw [checked, toValues_injective same]

/-! ## Options as a mapping -/

/-- Different options have different names, so each is found under its own. -/
theorem lookup_name (value : ScanOption → Value) {option : ScanOption} {options : List ScanOption}
    (member : option ∈ options) :
    (options.map fun option => (Scalar.text option.name, value option)).lookup
      (.text option.name) = some (value option) := by
  induction options with
  | nil => cases member
  | cons first rest ih =>
    rw [List.map_cons, List.lookup_cons]
    by_cases same : option = first
    · subst same
      rw [beq_self_eq_true]
    · have differ : (Scalar.text option.name == Scalar.text first.name) = false :=
        beq_eq_false_iff_ne.mpr fun equal =>
          same (ScanOption.name_injective (Scalar.text.inj equal))
      rw [differ]
      exact ih ((List.mem_cons.mp member).resolve_left same)

theorem get?_toEntries (o : ScanOptions) (option : ScanOption) :
    Value.get? o.toEntries option.name = some (o.toValues option) :=
  lookup_name o.toValues option.mem_all

/-- Options that are written as a mapping and read again are what they were. -/
theorem ofEntries_toEntries (o : ScanOptions) : ofEntries o.toEntries = .ok o := by
  have known : checkKeys (o.toEntries.map (·.1)) = .ok () := by
    refine checkKeys_eq_ok_iff.mpr fun key member => ?_
    rw [toEntries, List.map_map] at member
    obtain ⟨option, -, rfl⟩ := List.mem_map.mp member
    exact ⟨option, rfl⟩
  have values : (fun option : ScanOption =>
      (Value.get? o.toEntries option.name).getD option.default) = o.toValues := by
    funext option
    rw [get?_toEntries, Option.getD_some]
  rw [ofEntries, known, values, ← ofValues_toValues o]
  rfl

/-! ## Replacing some options -/

/-- The value that some replacements give to an option. Null gives none. -/
def given? (replacements : List (Text × Value)) (option : ScanOption) : Option Value :=
  (replacements.filter fun replacement => !replacement.2.isNull).lookup option.name

/-- The replacements that are not null have names of options. -/
def Named (replacements : List (Text × Value)) : Prop :=
  ∀ replacement ∈ replacements, replacement.2.isNull = false →
    ∃ option : ScanOption, replacement.1 = option.name

theorem override_eq_ok_iff {o o' : ScanOptions} {replacements : List (Text × Value)} :
    o.override replacements = .ok o' ↔
      Named replacements ∧ o.replace (given? replacements) = .ok o' := by
  unfold override
  dsimp only
  split
  next name value found =>
    have unknown := List.find?_some found
    obtain ⟨inReplacements, notNull⟩ := List.mem_filter.mp (List.mem_of_find?_eq_some found)
    refine iff_of_false (fun same => by cases same) fun ⟨named, _⟩ => ?_
    have known := isSome_ofName?_iff.mpr (named _ inReplacements (by simpa using notNull))
    rw [Option.isNone_iff_eq_none.mp unknown] at known
    cases known
  next none =>
    refine (and_iff_right fun replacement member notNull => ?_).symm
    have isGiven : (!replacement.2.isNull) = true := by rw [notNull]; rfl
    have known := List.find?_eq_none.mp none _ (List.mem_filter.mpr ⟨member, isGiven⟩)
    rw [← isSome_ofName?_iff]
    simpa [Option.isSome_iff_ne_none] using known

/-- Options with some replaced are there exactly if the replacements name options and give them
values that they may have. -/
theorem override_ok_iff {o : ScanOptions} {replacements : List (Text × Value)} :
    (∃ o', o.override replacements = .ok o') ↔
      Named replacements ∧
      ∀ option value, given? replacements option = some value → option.Fits value := by
  simp only [override_eq_ok_iff, exists_and_left, replace, ofValues_ok_iff]
  refine and_congr_right fun _ => forall_congr' fun option => ?_
  cases given? replacements option with
  | none => simpa using fits_toValues o option
  | some value => simp

/-- Replacing changes the options that are given, and no others. -/
theorem value_override {o o' : ScanOptions} {replacements : List (Text × Value)}
    (replaced : o.override replacements = .ok o') (option : ScanOption) :
    o'.toValues option =
      (given? replacements option).elim (o.toValues option) (Setting.scan option).taken := by
  rw [value_ofValues (override_eq_ok_iff.mp replaced).2]
  cases given? replacements option with
  | none => exact taken_toValues o option
  | some value => rfl

/-! ## Whatever is made -/

/-- The values that are given to options are of the declared kinds. -/
def GivesKinds (given : ScanOption → Option Value) : Prop :=
  ∀ (option : ScanOption) (value : Value), given option = some value → value.HasKind option.kind

/-- Options that are made of values of the declared kinds: by a call, from a mapping, or by
replacing some of the options that were made before, where null replaces nothing. -/
inductive Made : ScanOptions → Prop
  | call {arguments : List (Text × Value)} {o : ScanOptions}
    (typed : GivesKinds fun option => arguments.lookup option.name)
    (made : ofArguments arguments = .ok o) : Made o
  | mapping {entries : List (Scalar × Value)} {o : ScanOptions}
    (typed : GivesKinds fun option => Value.get? entries option.name)
    (made : ofEntries entries = .ok o) : Made o
  | replaced {replacements : List (Text × Value)} {o o' : ScanOptions} (earlier : Made o)
    (typed : GivesKinds (given? replacements))
    (made : o.override replacements = .ok o') : Made o'

/-- The options have values of the declared kinds. -/
def Typed (o : ScanOptions) : Prop :=
  ∀ option : ScanOption, (o.toValues option).HasKind option.kind

/-- Options are typed when their values are given with the declared kinds, over typed ones. -/
theorem typed_of_ofValues {given : ScanOption → Option Value} {below : ScanOption → Value}
    {o : ScanOptions} (typed : GivesKinds given)
    (typedBelow : ∀ option, (below option).HasKind option.kind)
    (made : ofValues (fun option => (given option).getD (below option)) = .ok o) : o.Typed := by
  intro option
  rw [value_ofValues made]
  refine ScanOption.taken_hasKind ?_
  cases isGiven : given option with
  | none => exact typedBelow option
  | some value => exact typed option value isGiven

theorem ofValues_of_ofArguments {arguments : List (Text × Value)} {o : ScanOptions}
    (made : ofArguments arguments = .ok o) :
    ofValues (fun option => (arguments.lookup option.name).getD option.default) = .ok o := by
  unfold ofArguments at made
  split at made
  next => cases made
  next => exact made

theorem Made.typed {o : ScanOptions} (made : Made o) : o.Typed := by
  induction made with
  | call typed made =>
    exact typed_of_ofValues typed ScanOption.default_hasKind (ofValues_of_ofArguments made)
  | mapping typed made =>
    unfold ofEntries at made
    obtain ⟨-, -, made⟩ := ok_of_bind made
    exact typed_of_ofValues typed ScanOption.default_hasKind made
  | replaced _ typed made earlier =>
    exact typed_of_ofValues typed earlier (override_eq_ok_iff.mp made).2

/-- All parts of a scanner can be built: the options pass the check again, there are a matcher for
the schemes and a pool with room for the parsers, the languages and domains are texts, and whenever
there are files, some of them are admitted at the start, at most one for each file. -/
structure Builds (o : ScanOptions) (s : Scanner) : Prop where
  checked : ofValues o.toValues = .ok o
  scanner : Scanner.ofOptions o = .ok s
  matcher : Matcher.ofSchemes? o.schemes o.includeSingleLabel.isSet = some s.extractor.matcher
  pool : ParserPool.ofCapacity? o.poolSize.toInt = some s.newPool
  filter : s.filter.isSome = true
  workers : ∀ files : List Text, files ≠ [] →
    (Admission.start (α := FileResult) (ε := FileError) s.options.concurrency.toInt.toNat
      files).inFlight.length = min o.concurrency.toInt.toNat files.length ∧
    1 ≤ min o.concurrency.toInt.toNat files.length

theorem mapM_text?_texts (ts : List Text) : (ts.map Value.text).mapM Value.text? = some ts := by
  induction ts with
  | nil => rfl
  | cons t rest ih =>
    rw [List.map_cons, List.mapM_cons, ih]
    rfl

/-- A list of texts is read as texts. -/
theorem mapM_text?_of_hasKind {items : List Value} (typed : (Value.list items).HasKind .texts) :
    ∃ ts, items.mapM Value.text? = some ts := by
  rcases typed with ⟨ts, isTexts⟩ | ⟨t, isText⟩
  · cases isTexts
    exact ⟨ts, mapM_text?_texts ts⟩
  · cases isText

theorem length_inFlight_start (concurrency : Nat) (files : List Text) :
    (Admission.start concurrency files : Admission FileResult FileError).inFlight.length =
      min concurrency files.length := by
  simp only [Admission.start, Admission.numbered, List.length_take, List.length_map,
    List.length_zipIdx]

/-- The scanner for options whose languages and domains are texts. -/
theorem ofOptions_of_texts {o : ScanOptions} {languages domains : List Text}
    (areLanguages : o.forceFallback.mapM Value.text? = some languages)
    (areDomains : o.ignoreDomains.mapM Value.text? = some domains) :
    Scanner.ofOptions o = .ok
      { options := o
        extractor := ⟨.ofSchemes o.schemes o.includeSingleLabel.isSet, o.contextLines.toInt⟩
        plainLanguages := languages.map Text.lowercase
        filter := some (.ofDomains domains o.includeSingleLabel.isSet) } := by
  unfold Scanner.ofOptions
  rw [areLanguages, areDomains]
  rfl

theorem Typed.exists_builds {o : ScanOptions} (typed : o.Typed) : ∃ s, o.Builds s := by
  obtain ⟨languages, areLanguages⟩ := mapM_text?_of_hasKind (typed .forceFallback)
  obtain ⟨domains, areDomains⟩ := mapM_text?_of_hasKind (typed .ignoreDomains)
  have concurrency_pos := o.concurrency_pos
  have poolSize_pos : 0 < o.poolSize.toInt.toNat := by have := o.poolSize_pos; omega
  refine ⟨_, ofValues_toValues o, ofOptions_of_texts areLanguages areDomains, ?_,
    dif_pos poolSize_pos, rfl, fun files someFile => ?_⟩
  · rw [Matcher.ofSchemes?, if_neg (mt List.isEmpty_iff.mp o.schemes_ne_nil)]
  · have someLength := List.length_pos_iff.mpr someFile
    exact ⟨length_inFlight_start _ files, by omega⟩

/-- Whatever options are made of values of the declared kinds, in however many steps:

* they have room for a file and a parser, no negative number of lines or bytes, and some scheme and
  no invalid one;
* a scanner can be built from them;
* they are what they were when they are written as a mapping and read again;
* some of them can be replaced exactly if the replacements name options and give them values that
  they may have, and then the options that are given a value other than null have what they take of
  it, and the others are what they were. -/
theorem closed_of_made {o : ScanOptions} (made : Made o) :
    (1 ≤ o.concurrency.toInt ∧ 1 ≤ o.poolSize.toInt ∧ 0 ≤ o.contextLines.toInt ∧
      0 ≤ o.maxFileSize.toInt ∧ o.schemes ≠ [] ∧ ∀ scheme ∈ o.schemes, isScheme scheme = true) ∧
    (∃ s, o.Builds s) ∧
    ofEntries o.toEntries = .ok o ∧
    ∀ replacements : List (Text × Value),
      ((∃ o', o.override replacements = .ok o') ↔
        Named replacements ∧
        ∀ option value, given? replacements option = some value → option.Fits value) ∧
      ∀ o', o.override replacements = .ok o' → ∀ option : ScanOption,
        o'.toValues option =
          (given? replacements option).elim (o.toValues option) (Setting.scan option).taken := by
  refine ⟨⟨o.concurrency_pos, o.poolSize_pos, o.contextLines_nonneg, o.maxFileSize_nonneg,
    o.schemes_ne_nil, o.schemes_valid⟩, made.typed.exists_builds, ofEntries_toEntries o,
    fun replacements => ?_⟩
  exact ⟨override_ok_iff, fun o' replaced => value_override replaced⟩

/-- Options for schemes that are given as a text with commas. -/
def calledOptions : List (Text × Value) :=
  [("schemes".toList, .text "http, svn+ssh".toList), ("concurrency".toList, .number 4)]

/-- Replacements of which the first replaces nothing. -/
def someReplacements : List (Text × Value) :=
  [("concurrency".toList, .null), ("ignore_domains".toList, .text "a.example,, b.example ".toList)]

theorem givesKinds_calledOptions :
    GivesKinds fun option => calledOptions.lookup option.name := by
  intro option value given
  cases option with
  | schemes => cases given; exact .inr ⟨_, rfl⟩
  | concurrency => cases given; exact ⟨.number 4, rfl⟩
  | _ => cases given

theorem givesKinds_someReplacements : GivesKinds (given? someReplacements) := by
  intro option value given
  cases option with
  | ignoreDomains => cases given; exact .inr ⟨_, rfl⟩
  | _ => cases given

/-- A call and a replacement behind it. -/
theorem closed_of_made_replaced :
    ∃ called o : ScanOptions,
      ofArguments calledOptions = .ok called ∧ called.override someReplacements = .ok o ∧
      o.toValues .concurrency = .number 4 ∧
      o.toValues .schemes = .texts ["http".toList, "svn+ssh".toList] ∧
      o.toValues .ignoreDomains = .texts ["a.example".toList, "b.example".toList] ∧
      (∃ s, o.Builds s) ∧ ofEntries o.toEntries = .ok o := by
  obtain ⟨called, isCalled⟩ : ∃ called, ofArguments calledOptions = .ok called := ⟨_, rfl⟩
  have made : Made called := .call givesKinds_calledOptions isCalled
  have values := value_ofValues (ofValues_of_ofArguments isCalled)
  obtain ⟨-, -, -, replacing⟩ := closed_of_made made
  obtain ⟨canReplace, changes⟩ := replacing someReplacements
  have named : Named someReplacements := by
    refine List.forall_mem_cons.mpr ⟨fun _ => ⟨.concurrency, rfl⟩, ?_⟩
    exact List.forall_mem_singleton.mpr fun _ => ⟨.ignoreDomains, rfl⟩
  obtain ⟨o, replaced⟩ := canReplace.mpr ⟨named, fun option value given => by
    cases option with
    | ignoreDomains => cases given; exact .scalar trivial
    | _ => cases given⟩
  obtain ⟨-, builds, readAgain, -⟩ :=
    closed_of_made (made.replaced givesKinds_someReplacements replaced)
  have kept {option : ScanOption} (notGiven : given? someReplacements option = none) :
      o.toValues option = called.toValues option := by
    rw [changes o replaced, notGiven, Option.elim_none]
  exact ⟨called, o, isCalled, replaced, (kept rfl).trans (values .concurrency),
    (kept rfl).trans (values .schemes), changes o replaced .ignoreDomains, builds, readAgain⟩

end ScanOptions

end UrlScan
