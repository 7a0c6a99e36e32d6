import UrlScan.Proofs.Settings.Files
import UrlScan.Proofs.Settings.Options

/-!
# The highest layer that gives an option counts

Every option has a value of its own in the settings that a run uses: that of the highest layer that
gives it. The layers are, from the highest to the lowest, the arguments, the environment, the
configuration of the project and that of the user; below them is the default. What a layer gives to
one option has no effect on another.

The two configurations are merged before the environment is laid over them. So there is one
exception: where both give a mapping to an option, the option has the two mappings merged, with the
entries of the user that the project does not have (`project_under_user`).

Results:
1. `get?_section_merged`: what the two configurations give to an option together.
2. `inEntries?_overlay`: the environment over a configuration.
3. `value_ofLayers`: the settings of the configurations and the environment.
4. `used_of_highest_layer`: the settings that a run uses.
-/

namespace UrlScan

/-! ## Layers -/

namespace Variable

/-- The value that the environment gives by a variable. An empty variable gives none. -/
def given? (environment : Environment) (v : Variable) : Option Value :=
  match environment.lookup v.name with
  | none | some [] => none
  | some raw => (v.value raw).toOption

def isFor (s : Setting) (v : Variable) : Bool :=
  v.sectionKey == s.sectionKey && v.optionKey == s.optionKey

end Variable

namespace Setting

/-- The value that the environment gives to an option. Not every option has a variable. -/
def inEnvironment? (s : Setting) (environment : Environment) : Option Value :=
  (Variable.all.find? (·.isFor s)).bind (·.given? environment)

end Setting

/-- The values that the layers give to an option. -/
structure Given where
  arguments : Option Value
  environment : Option Value
  project : Option Value
  user : Option Value

namespace Given

/-- The value that the configurations of project and user give: that of the project if there is one.
Two mappings are merged, entry by entry. -/
def configured? (g : Given) : Option Value :=
  match g.user, g.project with
  | some (.mapping lower), some (.mapping upper) => some (.mapping (Value.mergeEntries lower upper))
  | _, some value => some value
  | lower, none => lower

/-- The value of the highest layer that gives one. -/
def highest? (g : Given) : Option Value :=
  g.arguments.or (g.environment.or g.configured?)

end Given

/-- The layers from which the settings of a run are made. -/
structure Layers where
  user : List (Scalar × Value)
  project : List (Scalar × Value)
  environment : Environment
  arguments : Arguments

namespace Layers

def given (l : Layers) (s : Setting) : Given where
  arguments := l.arguments.given? s
  environment := s.inEnvironment? l.environment
  project := s.inEntries? l.project
  user := s.inEntries? l.user

/-- In both configurations the sections are absent or mappings. -/
structure Sectioned (l : Layers) : Prop where
  user : ∀ s : Setting, Value.SectionFits l.user s.sectionKey
  project : ∀ s : Setting, Value.SectionFits l.project s.sectionKey

/-- A run uses some settings: the two configurations are read from their files, the settings that
they make with the environment are valid, and so are these with the arguments over them. The project
is the directory to scan or, when that is no directory, the working directory. -/
structure Uses (l : Layers) (fs : FileSystem) (userFile : Path) (used : Settings) : Prop where
  user_read : ∃ notices, Settings.readFile fs userFile = .ok (l.user, notices)
  project_read : ∃ isDirectory notices, fs.isDirectory l.arguments.root = .ok isDirectory ∧
    Settings.readFile fs
      ((if isDirectory then l.arguments.root else ⟨['/'], fs.workingDirectory⟩).child
        Settings.projectFile) = .ok (l.project, notices)
  valid : ∃ settings, Settings.ofLayers l.user l.project l.environment = .ok settings ∧
    l.arguments.overlay settings = .ok used

end Layers

namespace PrecedenceLemmas

open Value

/-! ## The two configurations -/

/-- What is read from a configuration file has distinct keys. -/
theorem wellKeyed_of_readFile {fs : FileSystem} {path : Path} {entries : List (Scalar × Value)}
    {notices : List ConfigurationNotice}
    (isRead : Settings.readFile fs path = .ok (entries, notices)) :
    (Value.mapping entries).WellKeyed := by
  have empty : (Value.mapping []).WellKeyed := .mapping .nil (List.forall_mem_nil _)
  unfold Settings.readFile Settings.readFileBy at isRead
  split at isRead
  next => cases isRead
  next => cases isRead; exact empty
  next =>
    split at isRead
    next => cases isRead; exact empty
    next =>
      split at isRead
      next => cases isRead; exact empty
      next => cases isRead
      next => cases isRead
      next isMapping =>
        cases isRead
        obtain ⟨t, -, isMapping⟩ := Settings.readYaml_eq_ok_iff.mp isMapping
        exact Yaml.read_wellKeyed isMapping
      next => cases isRead; exact empty

theorem mem_of_get? {entries : List (Scalar × Value)} {name : Text} {value : Value}
    (found : get? entries name = some value) : (Scalar.text name, value) ∈ entries := by
  induction entries with
  | nil => cases found
  | cons entry rest ih =>
    obtain ⟨key, first⟩ := entry
    rw [get?_cons] at found
    split at found
    next isName =>
      cases found
      rw [isName]
      exact List.mem_cons_self
    next => exact List.mem_cons_of_mem _ (ih found)

/-- The options in a section have distinct keys. -/
theorem distinctKeys_section {entries : List (Scalar × Value)}
    (wellKeyed : (Value.mapping entries).WellKeyed) (sectionKey : Text) :
    DistinctKeys (sectionOf entries sectionKey) := by
  cases wellKeyed with
  | mapping _ inside =>
    unfold sectionOf
    split
    next found =>
      cases inside _ (mem_of_get? found) with
      | mapping distinct _ => exact distinct
    next => exact .nil

theorem configured?_eq (g : Given) : g.configured? = mergedValue? g.user g.project := by
  obtain ⟨-, -, project, user⟩ := g
  cases user with
  | none => cases project <;> rfl
  | some lower =>
    cases project with
    | none => cases lower <;> rfl
    | some upper => cases lower <;> cases upper <;> rfl

section
variable {user project : List (Scalar × Value)} {sectionKey : Text}

theorem fits_merged (userKeyed : (Value.mapping user).WellKeyed)
    (projectKeyed : (Value.mapping project).WellKeyed) (userFits : SectionFits user sectionKey)
    (projectFits : SectionFits project sectionKey) :
    SectionFits (mergeEntries (mergeEntries [] user) project) sectionKey := by
  unfold SectionFits
  rw [get?_merged userKeyed.distinct projectKeyed.distinct]
  rcases projectFits with noProject | ⟨upper, isProject⟩
  · rw [noProject, mergedValue?_of_none]
    exact userFits
  · rcases userFits with noUser | ⟨lower, isUser⟩
    · rw [noUser, isProject]
      exact .inr ⟨upper, rfl⟩
    · rw [isUser, isProject]
      exact .inr ⟨mergeEntries lower upper, rfl⟩

/-- In a section of the merged configurations an option has the two values merged. -/
theorem get?_section_merged (userKeyed : (Value.mapping user).WellKeyed)
    (projectKeyed : (Value.mapping project).WellKeyed) (userFits : SectionFits user sectionKey)
    (projectFits : SectionFits project sectionKey) (name : Text) :
    get? (sectionOf (mergeEntries (mergeEntries [] user) project) sectionKey) name =
      mergedValue? (get? (sectionOf user sectionKey) name)
        (get? (sectionOf project sectionKey) name) := by
  have distinct := distinctKeys_section projectKeyed sectionKey
  unfold sectionOf at distinct ⊢
  rw [get?_merged userKeyed.distinct projectKeyed.distinct]
  rcases projectFits with noProject | ⟨upper, isProject⟩
  · rw [noProject, mergedValue?_of_none]
    exact (mergedValue?_of_none _).symm
  · rcases userFits with noUser | ⟨lower, isUser⟩
    · rw [noUser, isProject]
      exact (mergedValue?_none _).symm
    · rw [isProject] at distinct
      rw [isUser, isProject]
      exact get?_mergeEntries distinct lower name

end

/-! ## The environment -/

section
variable {entries laid : List (Scalar × Value)} {sectionKey optionKey : Text} {value : Value}

theorem setOption_eq (set : Settings.setOption entries sectionKey optionKey value = .ok laid) :
    laid = put (.text sectionKey)
      (.mapping (put (.text optionKey) value (sectionOf entries sectionKey))) entries := by
  unfold Settings.setOption at set
  unfold sectionOf
  split at set
  next absent =>
    cases set
    rw [absent]
    rfl
  next options found =>
    cases set
    rw [found]
  next => cases set

/-- Setting an option of a section leaves the other options and the other section alone. -/
theorem get?_section_setOption
    (set : Settings.setOption entries sectionKey optionKey value = .ok laid)
    (otherSection otherOption : Text) :
    get? (sectionOf laid otherSection) otherOption =
      if sectionKey = otherSection ∧ optionKey = otherOption then some value
      else get? (sectionOf entries otherSection) otherOption := by
  cases setOption_eq set
  by_cases sameSection : sectionKey = otherSection
  · subst sameSection
    have inSection :
        sectionOf (put (.text sectionKey) (.mapping
          (put (.text optionKey) value (sectionOf entries sectionKey))) entries) sectionKey =
        put (.text optionKey) value (sectionOf entries sectionKey) := by
      rw [sectionOf, get?_put, if_pos rfl]
    rw [inSection, get?_put]
    simp only [Scalar.text.injEq, true_and]
  · have otherKey : Scalar.text sectionKey ≠ .text otherSection :=
      fun same => sameSection (Scalar.text.inj same)
    have unchanged : sectionOf (put (.text sectionKey)
        (.mapping (put (.text optionKey) value (sectionOf entries sectionKey))) entries)
          otherSection = sectionOf entries otherSection := by
      rw [sectionOf, get?_put, if_neg otherKey, sectionOf]
    rw [unchanged, if_neg fun same => sameSection same.1]

theorem fits_setOption (set : Settings.setOption entries sectionKey optionKey value = .ok laid)
    {otherSection : Text} (fits : SectionFits entries otherSection) :
    SectionFits laid otherSection := by
  cases setOption_eq set
  unfold SectionFits
  rw [get?_put]
  split
  next => exact .inr ⟨_, rfl⟩
  next => exact fits

/-- The environment sets what it gives by one of the variables, and nothing else. -/
theorem overlay_cases {environment : Environment} {v : Variable} {rest : List Variable}
    (isLaid : Settings.overlay environment (v :: rest) entries = .ok laid) :
    (v.given? environment = none ∧ Settings.overlay environment rest entries = .ok laid) ∨
    ∃ value set, v.given? environment = some value ∧
      Settings.setOption entries v.sectionKey v.optionKey value = .ok set ∧
      Settings.overlay environment rest set = .ok laid := by
  rw [Variable.given?]
  unfold Settings.overlay at isLaid
  cases found : environment.lookup v.name with
  | none =>
    rw [found] at isLaid
    exact .inl ⟨rfl, isLaid⟩
  | some raw =>
    rw [found] at isLaid
    cases raw with
    | nil => exact .inl ⟨rfl, isLaid⟩
    | cons c raw =>
      dsimp only at isLaid
      cases isValue : v.value (c :: raw) with
      | error fault =>
        rw [isValue] at isLaid
        cases isLaid
      | ok value =>
        rw [isValue] at isLaid
        dsimp only at isLaid
        cases isSet : Settings.setOption entries v.sectionKey v.optionKey value with
        | error e =>
          rw [isSet] at isLaid
          cases isLaid
        | ok set =>
          rw [isSet] at isLaid
          exact .inr ⟨value, set, congrArg Except.toOption isValue, isSet, isLaid⟩

theorem isFor_iff {s : Setting} {v : Variable} :
    v.isFor s = true ↔ v.sectionKey = s.sectionKey ∧ v.optionKey = s.optionKey := by
  rw [Variable.isFor, Bool.and_eq_true, beq_iff_eq, beq_iff_eq]

theorem fits_overlay {environment : Environment} {vs : List Variable}
    (isLaid : Settings.overlay environment vs entries = .ok laid)
    (fits : SectionFits entries sectionKey) : SectionFits laid sectionKey := by
  induction vs generalizing entries with
  | nil =>
    cases isLaid
    exact fits
  | cons v rest ih =>
    rcases overlay_cases isLaid with ⟨-, isLaid⟩ | ⟨value, set, -, isSet, isLaid⟩
    · exact ih isLaid fits
    · exact ih isLaid (fits_setOption isSet fits)

/-- The environment over a configuration: an option has the value that its variable gives, and
otherwise the one from before. -/
theorem inEntries?_overlay {environment : Environment} {vs : List Variable}
    (distinct : vs.Pairwise fun v w =>
      ¬(v.sectionKey = w.sectionKey ∧ v.optionKey = w.optionKey))
    (isLaid : Settings.overlay environment vs entries = .ok laid) (s : Setting) :
    s.inEntries? laid =
      ((vs.find? (·.isFor s)).bind (·.given? environment)).or (s.inEntries? entries) := by
  induction vs generalizing entries with
  | nil =>
    cases isLaid
    rfl
  | cons v rest ih =>
    obtain ⟨apart, distinctRest⟩ := List.pairwise_cons.mp distinct
    rw [List.find?_cons]
    by_cases isFor : v.isFor s = true
    · obtain ⟨isSection, isOption⟩ := isFor_iff.mp isFor
      have noOther : rest.find? (·.isFor s) = none := by
        rw [List.find?_eq_none]
        intro w member otherFor
        obtain ⟨otherSection, otherOption⟩ := isFor_iff.mp otherFor
        exact apart w member ⟨isSection.trans otherSection.symm, isOption.trans otherOption.symm⟩
      rw [isFor]
      rcases overlay_cases isLaid with ⟨notGiven, isLaid⟩ | ⟨value, set, given, isSet, isLaid⟩
      · rw [ih distinctRest isLaid, noOther, Option.bind_some, notGiven]
        rfl
      · rw [ih distinctRest isLaid, noOther, Option.bind_some, given, Setting.inEntries?,
          get?_section_setOption isSet, if_pos ⟨isSection, isOption⟩]
        rfl
    · rw [Bool.eq_false_iff.mpr isFor]
      rcases overlay_cases isLaid with ⟨-, isLaid⟩ | ⟨value, set, -, isSet, isLaid⟩
      · exact ih distinctRest isLaid
      · rw [ih distinctRest isLaid, Setting.inEntries?, get?_section_setOption isSet,
          if_neg (mt isFor_iff.mpr isFor), Setting.inEntries?]

end

end PrecedenceLemmas

open PrecedenceLemmas

namespace Settings

/-- The settings that the two configurations and the environment make: an option has the value that
its variable gives, or the one that the configurations give, or the default. -/
theorem value_ofLayers {l : Layers} {settings : Settings} (sectioned : l.Sectioned)
    (userKeyed : (Value.mapping l.user).WellKeyed)
    (projectKeyed : (Value.mapping l.project).WellKeyed)
    (made : ofLayers l.user l.project l.environment = .ok settings) (s : Setting) :
    settings.value s =
      s.taken (((l.given s).environment.or (l.given s).configured?).getD s.default) := by
  have distinct : Variable.all.Pairwise fun v w =>
      ¬(v.sectionKey = w.sectionKey ∧ v.optionKey = w.optionKey) := by decide +kernel
  unfold ofLayers at made
  obtain ⟨laid, isLaid, made⟩ := ok_of_bind made
  have fits : ∀ s : Setting, Value.SectionFits laid s.sectionKey := fun s =>
    fits_overlay isLaid
      (fits_merged userKeyed projectKeyed (sectioned.user s) (sectioned.project s))
  have configured : s.inEntries? (Value.mergeEntries (Value.mergeEntries [] l.user) l.project) =
      (l.given s).configured? := by
    rw [configured?_eq]
    exact get?_section_merged userKeyed projectKeyed (sectioned.user s) (sectioned.project s) _
  rw [value_ofSections fits made, inEntries?_overlay distinct isLaid, configured]
  rfl

end Settings

namespace Layers

variable {l other : Layers} {fs otherFs : FileSystem} {userFile otherFile : Path}
  {used otherUsed : Settings}

theorem Uses.value_eq (sectioned : l.Sectioned) (uses : l.Uses fs userFile used) (s : Setting) :
    used.value s = s.taken ((l.given s).highest?.getD s.default) := by
  obtain ⟨_, userRead⟩ := uses.user_read
  obtain ⟨_, _, -, projectRead⟩ := uses.project_read
  obtain ⟨settings, made, overlaid⟩ := uses.valid
  rw [Arguments.value_overlay overlaid, Settings.value_ofLayers sectioned
    (wellKeyed_of_readFile userRead) (wellKeyed_of_readFile projectRead) made]
  have arguments : (l.given s).arguments = l.arguments.given? s := rfl
  rw [Given.highest?, arguments]
  cases l.arguments.given? s with
  | none => exact s.taken_taken _
  | some value => rfl

/-- A run goes on with the settings that it uses. -/
theorem Uses.outcome_eq (uses : l.Uses fs userFile used) (package : Option GrammarPackage)
    (dialect : Report.Csv.Dialect) :
    (Run.ofArguments package dialect fs userFile l.environment l.arguments).outcome =
      match l.arguments.files fs with
      | .error error => .error error
      | .ok files => (Run.scanAndDeliver package dialect fs l.arguments used files).outcome := by
  obtain ⟨_, userRead⟩ := uses.user_read
  obtain ⟨isDirectory, _, isRoot, projectRead⟩ := uses.project_read
  obtain ⟨settings, made, overlaid⟩ := uses.valid
  unfold Run.ofArguments
  rw [isRoot]
  dsimp only
  rw [Settings.load, Settings.loadBy_read userRead projectRead, made]
  dsimp only
  unfold Run.withSettings
  rw [overlaid]
  dsimp only
  cases l.arguments.files fs <;> rfl

/-- Every option of the settings that a run uses has the value of the highest layer that gives it:
the arguments, the environment, the configuration of the project, that of the user, and the default
below them. A run goes on with these settings. Two runs in which every layer gives the same to an
option have the same value for it, whatever else their layers give. -/
theorem used_of_highest_layer (sectioned : l.Sectioned) (uses : l.Uses fs userFile used) :
    (∀ package dialect,
      (Run.ofArguments package dialect fs userFile l.environment l.arguments).outcome =
        match l.arguments.files fs with
        | .error error => .error error
        | .ok files => (Run.scanAndDeliver package dialect fs l.arguments used files).outcome) ∧
    (∀ s, used.value s = s.taken ((l.given s).highest?.getD s.default)) ∧
    (other.Sectioned → other.Uses otherFs otherFile otherUsed →
      ∀ s, other.given s = l.given s → otherUsed.value s = used.value s) := by
  refine ⟨uses.outcome_eq, uses.value_eq sectioned, fun otherSectioned otherUses s same => ?_⟩
  rw [otherUses.value_eq otherSectioned, uses.value_eq sectioned, same]

end Layers

/-! ## Runs in a root directory -/

namespace Layers

/-- The entries of a configuration file, and none when it is refused. -/
def entriesRead (fs : FileSystem) (path : Path) : List (Scalar × Value) :=
  match Settings.readFile fs path with
  | .ok (entries, _) => entries
  | .error _ => []

/-- The layers that a run for a directory finds. -/
def found (fs : FileSystem) (userFile : Path) (environment : Environment) (a : Arguments) :
    Layers where
  user := entriesRead fs userFile
  project := entriesRead fs (a.root.child Settings.projectFile)
  environment := environment
  arguments := a

theorem readFile_eq {fs : FileSystem} {path : Path}
    (isRead : (Settings.readFile fs path).isOk = true) :
    ∃ notices, Settings.readFile fs path = .ok (entriesRead fs path, notices) := by
  unfold entriesRead
  cases content : Settings.readFile fs path with
  | error e =>
    rw [content] at isRead
    cases isRead
  | ok pair => exact ⟨pair.2, rfl⟩

/-- A run for a directory uses some settings if both files can be read and the settings are valid,
without the arguments and with them. -/
theorem exists_uses {fs : FileSystem} {userFile : Path} {environment : Environment} {a : Arguments}
    (isRoot : fs.isDirectory a.root = .ok true)
    (userRead : (Settings.readFile fs userFile).isOk = true)
    (projectRead : (Settings.readFile fs (a.root.child Settings.projectFile)).isOk = true)
    (valid : ((Settings.ofLayers (entriesRead fs userFile)
      (entriesRead fs (a.root.child Settings.projectFile)) environment).bind
        a.overlay).isOk = true) :
    ∃ used, (found fs userFile environment a).Uses fs userFile used := by
  obtain ⟨projectNotices, projectRead⟩ := readFile_eq projectRead
  cases made : (Settings.ofLayers (entriesRead fs userFile)
      (entriesRead fs (a.root.child Settings.projectFile)) environment).bind a.overlay with
  | error e =>
    rw [made] at valid
    cases valid
  | ok used =>
    obtain ⟨settings, isMade, overlaid⟩ := ok_of_bind made
    exact ⟨used, readFile_eq userRead, ⟨true, projectNotices, isRoot, projectRead⟩,
      settings, isMade, overlaid⟩

def sectionFits (entries : List (Scalar × Value)) (sectionKey : Text) : Bool :=
  match Value.get? entries sectionKey with
  | none | some (.mapping _) => true
  | _ => false

theorem fits_of_sectionFits {entries : List (Scalar × Value)}
    (fits : [Settings.scanSection, Settings.outputSection].all (sectionFits entries) = true)
    (s : Setting) : Value.SectionFits entries s.sectionKey := by
  have member : s.sectionKey ∈ [Settings.scanSection, Settings.outputSection] := by
    cases s <;> simp [Setting.sectionKey]
  have fitsHere := List.all_eq_true.mp fits _ member
  unfold sectionFits at fitsHere
  split at fitsHere
  next absent => exact .inl absent
  next options isMapping => exact .inr ⟨options, isMapping⟩
  next => cases fitsHere

/-- The file system with two configuration files in the root directory, which is also the working
directory. -/
def rootFiles (user project : String) : FileSystem :=
  ⟨.directory [("user".toList, .file (Utf8.encode user.toList)),
    (Settings.projectFile, .file (Utf8.encode project.toList))], []⟩

def rootUserFile : Path :=
  ⟨['/'], ["user".toList]⟩

theorem isDirectory_rootFiles (user project : String) :
    (rootFiles user project).isDirectory (.parse ['.']) = .ok true := by
  have names : Path.parse ['.'] = ⟨[], []⟩ := by decide +kernel
  rw [names]
  rfl

/-- An empty mapping of the project does not take the place of the mapping of the user. -/
theorem project_under_user :
    ∃ (l : Layers) (fs : FileSystem) (userFile : Path) (used : Settings),
      l.Sectioned ∧ l.Uses fs userFile used ∧
      used.value .onlyUrls ≠ Setting.onlyUrls.taken
        (((l.given .onlyUrls).arguments.or ((l.given .onlyUrls).environment.or
          ((l.given .onlyUrls).project.or (l.given .onlyUrls).user))).getD
            Setting.onlyUrls.default) := by
  let fs := rootFiles "output: {only_urls: {a: 1}}" "output: {only_urls: {}}"
  let l := found fs rootUserFile [] {}
  have sectioned : l.Sectioned := ⟨fits_of_sectionFits (by decide +kernel),
    fits_of_sectionFits (by decide +kernel)⟩
  obtain ⟨used, uses⟩ : ∃ used, l.Uses fs rootUserFile used :=
    exists_uses (isDirectory_rootFiles _ _) (by decide +kernel) (by decide +kernel)
      (by decide +kernel)
  refine ⟨l, fs, rootUserFile, used, sectioned, uses, fun same => ?_⟩
  rw [uses.value_eq sectioned] at same
  exact absurd (congrArg Value.isSet same) (by decide +kernel)

/-- The files of a user and a project that give the same option. -/
def poolFiles : FileSystem :=
  rootFiles "scan: {pool_size: 3}" "scan: {pool_size: 4}"

/-- Layers with a value of zero in the environment, and with an argument for an option that has a
variable, too. -/
def poolLayers (environment : Environment) : Layers :=
  found poolFiles rootUserFile
    (("URLDETECT_CONCURRENCY".toList, ['7']) :: ("URLDETECT_CONTEXT".toList, ['0']) :: environment)
    { concurrency := some (.number 2) }

/-- A run with these layers, and one with a further variable, which changes no other option. -/
theorem used_of_highest_layer_pool :
    ∃ used otherUsed : Settings,
      (poolLayers []).Sectioned ∧ (poolLayers []).Uses poolFiles rootUserFile used ∧
      (poolLayers [("URLDETECT_FAIL_ON_ERROR".toList, ['1'])]).Sectioned ∧
      (poolLayers [("URLDETECT_FAIL_ON_ERROR".toList, ['1'])]).Uses poolFiles rootUserFile
        otherUsed ∧
      (used.value (.scan .concurrency)).count? = some (.number 2) ∧
      (used.value (.scan .contextLines)).count? = some (.number 0) ∧
      (used.value (.scan .poolSize)).count? = some (.number 4) ∧
      otherUsed.value (.scan .poolSize) = used.value (.scan .poolSize) := by
  have userFits : [Settings.scanSection, Settings.outputSection].all
      (sectionFits (poolLayers []).user) = true := by decide +kernel
  have projectFits : [Settings.scanSection, Settings.outputSection].all
      (sectionFits (poolLayers []).project) = true := by decide +kernel
  have sectioned (environment : Environment) : (poolLayers environment).Sectioned :=
    ⟨fits_of_sectionFits userFits, fits_of_sectionFits projectFits⟩
  have userRead : (Settings.readFile poolFiles rootUserFile).isOk = true := by decide +kernel
  have projectRead : (Settings.readFile poolFiles
      (({ concurrency := some (.number 2) } : Arguments).root.child Settings.projectFile)).isOk =
        true := by decide +kernel
  obtain ⟨used, uses⟩ : ∃ used, (poolLayers []).Uses poolFiles rootUserFile used :=
    exists_uses (isDirectory_rootFiles _ _) userRead projectRead (by decide +kernel)
  obtain ⟨otherUsed, otherUses⟩ : ∃ used,
      (poolLayers [("URLDETECT_FAIL_ON_ERROR".toList, ['1'])]).Uses poolFiles rootUserFile used :=
    exists_uses (isDirectory_rootFiles _ _) userRead projectRead (by decide +kernel)
  obtain ⟨-, highest, alone⟩ := used_of_highest_layer (sectioned []) uses
  have noVariable : (Setting.scan .poolSize).inEnvironment? (poolLayers []).environment = none :=
    Option.isNone_iff_eq_none.mp (by decide +kernel)
  have noOtherVariable : (Setting.scan .poolSize).inEnvironment?
      (poolLayers [("URLDETECT_FAIL_ON_ERROR".toList, ['1'])]).environment = none :=
    Option.isNone_iff_eq_none.mp (by decide +kernel)
  refine ⟨used, otherUsed, sectioned _, uses, sectioned _, otherUses, ?_, ?_, ?_,
    alone (sectioned _) otherUses _ ?_⟩
  · rw [highest]
    decide +kernel
  · rw [highest]
    decide +kernel
  · rw [highest]
    decide +kernel
  · unfold given
    rw [noVariable, noOtherVariable]
    rfl

end Layers

end UrlScan
