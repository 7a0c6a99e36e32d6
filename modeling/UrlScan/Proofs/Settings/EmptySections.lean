import UrlScan.Proofs.Settings.Faults

/-!
# Sections without options

A section of a configuration file whose lines are all comments is read as null. It gives no options,
so one would expect that it makes no difference whether such a section is there or not. When the
settings are made of the two sections, it makes none. But two steps before that take null for a
value like any other: the merging of the two files, in which it replaces the section of the user,
and the environment, which finds a section that is no mapping.

So an empty section makes no difference exactly where neither of these steps meets it:

* in the file of the user, when the file of the project has the section, or no variable belongs to
  the section;
* in the file of the project, when the file of the user does not have the section and no variable
  belongs to it.

Where only the first step meets it, the options of the user are lost and nothing else is. Where a
variable belongs to the section, there are no settings.

Results:
1. `overlay_agree`, `ofLayers_agree`: configurations that differ in sections without options only.
2. `ofLayers_unfit`: variables for a section that is null.
3. `load_emptied`: what an empty section does, in either file.
4. `load_emptied_differs`: it may take the options of the user away, or end the loading.
-/

namespace UrlScan

open Value

/-- A variable of the environment has a value that is not empty. -/
def Variable.IsGiven (environment : Environment) (v : Variable) : Prop :=
  ∃ c raw, environment.lookup v.name = some (c :: raw)

namespace Settings

/-- Some variable of a section has a value. -/
def HasVariable (environment : Environment) (sectionKey : Text) : Prop :=
  ∃ v ∈ Variable.all, v.sectionKey = sectionKey ∧ v.IsGiven environment

/-- The second configuration has an empty section where the first one has none. -/
structure Emptied (sectionKey : Text) (entries emptied : List (Scalar × Value)) : Prop where
  absent : get? entries sectionKey = none
  empty : get? emptied sectionKey = some .null
  others : ∀ name, name ≠ sectionKey → get? emptied name = get? entries name

/-- A configuration without one of its sections. -/
def without (sectionKey : Text) (entries : List (Scalar × Value)) : List (Scalar × Value) :=
  entries.filter fun entry => entry.1 ≠ .text sectionKey

/-- The two configuration files can be read, and these are the configurations in them. -/
structure Reads (fs : FileSystem) (userFile projectDirectory : Path)
    (user project : List (Scalar × Value)) : Prop where
  user_read : ∃ notices, readFile fs userFile = .ok (user, notices)
  project_read : ∃ notices,
    readFile fs (projectDirectory.child projectFile) = .ok (project, notices)

/-- There are no settings: the loading ends with the error for a section that is no mapping, or with
the invalid value that ends it anyway. -/
def Unfit (emptied plain : Except SettingsError Settings) : Prop :=
  emptied = .error (.wrongKind .sectionNotMapping) ∨
    ∃ fault, emptied = .error (.invalid fault) ∧ plain = .error (.invalid fault)

section
variable {entries other : List (Scalar × Value)} {environment : Environment} {sectionKey : Text}

/-! ## Reading sections -/

theorem get?_without (entries : List (Scalar × Value)) (name : Text) :
    get? (without sectionKey entries) name =
      if name = sectionKey then none else get? entries name := by
  induction entries with
  | nil => exact (ite_self _).symm
  | cons entry rest ih =>
    unfold without at ih ⊢
    rw [List.filter_cons, get?_cons]
    by_cases isSection : entry.1 = .text sectionKey
    · have dropped : ¬decide (entry.1 ≠ .text sectionKey) = true := by simpa using isSection
      rw [if_neg dropped, ih, isSection]
      simp only [Scalar.text.injEq, eq_comm (a := sectionKey)]
      split <;> rfl
    · have kept : decide (entry.1 ≠ .text sectionKey) = true := by simpa using isSection
      rw [if_pos kept, get?_cons, ih]
      by_cases isName : entry.1 = .text name
      · have notSection : name ≠ sectionKey := by
          rintro rfl
          exact isSection isName
        rw [if_pos isName, if_pos isName, if_neg notSection]
      · rw [if_neg isName, if_neg isName]

/-- Null under a value leaves the value as it is. -/
theorem merge_null (value : Value) : merge .null value = value := by
  cases value <;> rfl

theorem mergedValue?_over_null (value : Option Value) :
    mergedValue? (some .null) value = some (value.getD .null) := by
  cases value with
  | none => rfl
  | some value => exact congrArg some (merge_null value)

/-- Null over a value takes its place. -/
theorem mergedValue?_null_over (value : Option Value) :
    mergedValue? value (some .null) = some .null := by
  cases value <;> rfl

/-! ## Configurations that agree -/

/-- Two configurations agree under some variables: they have the same sections, but one of them may
have an empty section where the other one has none if no variable belongs to it. -/
def Agree (environment : Environment) (vs : List Variable)
    (entries other : List (Scalar × Value)) : Prop :=
  ∀ name, get? other name = get? entries name ∨
    (get? other name).getD .null = (get? entries name).getD .null ∧
      ∀ v ∈ vs, v.sectionKey = name → ¬v.IsGiven environment

theorem Agree.rest {v : Variable} {rest : List Variable}
    (agree : Agree environment (v :: rest) entries other) : Agree environment rest entries other :=
  fun name => (agree name).imp_right (And.imp_right fun none w member =>
    none w (List.mem_cons_of_mem _ member))

theorem Agree.put {vs : List Variable} (agree : Agree environment vs entries other)
    (key : Scalar) (value : Value) :
    Agree environment vs (put key value entries) (put key value other) := by
  intro name
  rw [get?_put, get?_put]
  split
  next => exact .inl rfl
  next => exact agree name

theorem Agree.getD_eq {vs : List Variable} (agree : Agree environment vs entries other)
    (name : Text) : (get? other name).getD .null = (get? entries name).getD .null := by
  rcases agree name with same | ⟨same, -⟩
  · rw [same]
  · exact same

/-- An option that is set in a section that both have, or that both do not have. -/
theorem setOption_agree (same : get? other sectionKey = get? entries sectionKey)
    (optionKey : Text) (value : Value) :
    (∃ e, setOption entries sectionKey optionKey value = .error e ∧
      setOption other sectionKey optionKey value = .error e) ∨
    ∃ options, setOption entries sectionKey optionKey value =
        .ok (put (.text sectionKey) options entries) ∧
      setOption other sectionKey optionKey value =
        .ok (put (.text sectionKey) options other) := by
  unfold setOption
  rw [same]
  cases get? entries sectionKey with
  | none => exact .inr ⟨_, rfl, rfl⟩
  | some found =>
    cases found with
    | mapping options => exact .inr ⟨_, rfl, rfl⟩
    | scalar s => exact .inl ⟨_, rfl, rfl⟩
    | list items => exact .inl ⟨_, rfl, rfl⟩

/-- The environment does the same to configurations that agree. -/
theorem overlay_agree {vs : List Variable} (agree : Agree environment vs entries other) :
    (∃ e, overlay environment vs entries = .error e ∧ overlay environment vs other = .error e) ∨
    ∃ laid laidOther, overlay environment vs entries = .ok laid ∧
      overlay environment vs other = .ok laidOther ∧ Agree environment [] laid laidOther := by
  induction vs generalizing entries other with
  | nil => exact .inr ⟨entries, other, rfl, rfl, agree⟩
  | cons v rest ih =>
    rw [overlay, overlay]
    cases isRaw : environment.lookup v.name with
    | none => exact ih agree.rest
    | some raw =>
      cases raw with
      | nil => exact ih agree.rest
      | cons c raw =>
        dsimp only
        cases v.value (c :: raw) with
        | error fault => exact .inl ⟨_, rfl, rfl⟩
        | ok value =>
          -- The variable is given, so both have its section or neither has it.
          have same : get? other v.sectionKey = get? entries v.sectionKey := by
            refine (agree v.sectionKey).resolve_right fun notGiven => ?_
            exact notGiven.2 v List.mem_cons_self rfl ⟨c, raw, isRaw⟩
          dsimp only
          rcases setOption_agree same v.optionKey value with
            ⟨e, failed, failedOther⟩ | ⟨options, set, setOther⟩
          · rw [failed, failedOther]
            exact .inl ⟨e, rfl, rfl⟩
          · rw [set, setOther]
            exact ih (agree.rest.put _ _)

theorem ofLayers_agree {user project otherUser otherProject : List (Scalar × Value)}
    (agree : Agree environment Variable.all (merged user project)
      (merged otherUser otherProject)) :
    ofLayers otherUser otherProject environment = ofLayers user project environment := by
  unfold merged at agree
  unfold ofLayers
  dsimp only
  rcases overlay_agree agree with
    ⟨e, failed, failedOther⟩ | ⟨laid, laidOther, isLaid, isOther, same⟩
  · rw [failed, failedOther]
  · rw [isLaid, isOther]
    have sameSettings : ofEntries laidOther = ofEntries laid := by
      unfold ofEntries
      rw [same.getD_eq, same.getD_eq]
    exact sameSettings

/-! ## Variables for a section that is null -/

/-- A variable is not given, or its value is invalid, or it needs its section to be a mapping. -/
theorem fault?_cases (environment : Environment) (v : Variable) :
    (¬v.IsGiven environment ∧ ∀ entries, v.fault? environment entries = none) ∨
    (∃ fault, ∀ entries, v.fault? environment entries = some (.invalid fault)) ∨
    ∀ entries, v.fault? environment entries =
      if Layers.sectionFits entries v.sectionKey then none
      else some (.wrongKind .sectionNotMapping) := by
  unfold Variable.fault? Variable.IsGiven
  cases environment.lookup v.name with
  | none => exact .inl ⟨fun ⟨_, _, isGiven⟩ => (Option.some_ne_none _ isGiven.symm), fun _ => rfl⟩
  | some raw =>
    cases raw with
    | nil =>
      refine .inl ⟨?_, fun _ => rfl⟩
      rintro ⟨c, raw, isGiven⟩
      cases isGiven
    | cons c raw =>
      dsimp only
      cases v.value (c :: raw) with
      | error fault => exact .inr (.inl ⟨fault, fun _ => rfl⟩)
      | ok value => exact .inr (.inr fun _ => rfl)

/-- A variable for a section that is null is at fault, and it is the first one unless a value before
it is invalid. -/
theorem overlay_unfit (given : HasVariable environment sectionKey)
    (isNull : get? other sectionKey = some .null)
    (others : ∀ name, name ≠ sectionKey → get? other name = get? entries name) :
    overlay environment Variable.all other = .error (.wrongKind .sectionNotMapping) ∨
    ∃ fault, overlay environment Variable.all other = .error (.invalid fault) ∧
      overlay environment Variable.all entries = .error (.invalid fault) := by
  simp only [overlay_eq_error_iff]
  have unfit : Layers.sectionFits other sectionKey = false := by
    unfold Layers.sectionFits
    rw [isNull]
    rfl
  have atFault : (Variable.all.findSome? (·.fault? environment other)).isSome = true := by
    obtain ⟨v, member, rfl, isGiven⟩ := given
    refine List.findSome?_isSome_iff.mpr ⟨v, member, ?_⟩
    rcases fault?_cases environment v with ⟨notGiven, -⟩ | ⟨fault, invalid⟩ | checked
    · exact absurd isGiven notGiven
    · rw [invalid]
      rfl
    · rw [checked, unfit]
      rfl
  obtain ⟨e, found⟩ := Option.isSome_iff_exists.mp atFault
  obtain ⟨before, v, behind, whole, isFault, faultless⟩ := List.findSome?_eq_some_iff.mp found
  rcases fault?_cases environment v with ⟨-, none⟩ | ⟨fault, invalid⟩ | checked
  · cases isFault.symm.trans (none other)
  · cases isFault.symm.trans (invalid other)
    refine .inr ⟨fault, found, List.findSome?_eq_some_iff.mpr
      ⟨before, v, behind, whole, invalid entries, fun w member => ?_⟩⟩
    -- No variable before it belongs to the null section, and the other sections are the same.
    have isFaultless := faultless w member
    rcases fault?_cases environment w with ⟨-, none⟩ | ⟨fault, invalid⟩ | checked
    · exact none entries
    · cases isFaultless.symm.trans (invalid other)
    · rw [checked] at isFaultless ⊢
      by_cases isSection : w.sectionKey = sectionKey
      · rw [isSection, unfit] at isFaultless
        cases isFaultless
      · unfold Layers.sectionFits at isFaultless ⊢
        rw [others _ isSection] at isFaultless
        exact isFaultless
  · rw [checked] at isFault
    split at isFault
    next => cases isFault
    next => exact .inl (found.trans isFault.symm)

theorem ofLayers_of_overlay_error {user project : List (Scalar × Value)} {e : SettingsError}
    (failed : overlay environment Variable.all (merged user project) = .error e) :
    ofLayers user project environment = .error e := by
  unfold merged at failed
  unfold ofLayers
  dsimp only
  rw [failed]
  rfl

theorem ofLayers_unfit {user project otherUser otherProject : List (Scalar × Value)}
    (given : HasVariable environment sectionKey)
    (isNull : get? (merged otherUser otherProject) sectionKey = some .null)
    (others : ∀ name, name ≠ sectionKey →
      get? (merged otherUser otherProject) name = get? (merged user project) name) :
    Unfit (ofLayers otherUser otherProject environment) (ofLayers user project environment) := by
  rcases overlay_unfit given isNull others with failed | ⟨fault, failed, failedPlain⟩
  · exact .inl (ofLayers_of_overlay_error failed)
  · exact .inr ⟨fault, ofLayers_of_overlay_error failed, ofLayers_of_overlay_error failedPlain⟩

end

/-! ## An empty section in one of the files -/

section
variable {user project emptied : List (Scalar × Value)} {environment : Environment}
  {sectionKey : Text}

theorem distinct_without (distinct : DistinctKeys user) :
    DistinctKeys (without sectionKey user) :=
  (List.filter_sublist.map _).nodup distinct

section
variable (isEmptied : Emptied sectionKey user emptied) (distinctUser : DistinctKeys user)
  (distinctEmptied : DistinctKeys emptied) (distinctProject : DistinctKeys project)
include isEmptied distinctUser distinctEmptied distinctProject

theorem get?_merged_emptied_user {name : Text} (other : name ≠ sectionKey) :
    get? (merged emptied project) name = get? (merged user project) name := by
  unfold merged
  rw [get?_merged distinctEmptied distinctProject, get?_merged distinctUser distinctProject,
    isEmptied.others name other]

/-- An empty section of the user makes no difference when the project has the section, or when no
variable belongs to it. -/
theorem ofLayers_emptied_user
    (unmet : get? project sectionKey ≠ none ∨ ¬HasVariable environment sectionKey) :
    ofLayers emptied project environment = ofLayers user project environment := by
  refine ofLayers_agree fun name => ?_
  by_cases isSection : name = sectionKey
  · subst isSection
    unfold merged
    rw [get?_merged distinctEmptied distinctProject, get?_merged distinctUser distinctProject,
      isEmptied.empty, isEmptied.absent, mergedValue?_over_null, mergedValue?_none]
    cases inProject : get? project name with
    | some value => exact .inl rfl
    | none =>
      have noVariable := unmet.resolve_left fun inFile => inFile inProject
      exact .inr ⟨rfl, fun v member isSection isGiven => noVariable ⟨v, member, isSection, isGiven⟩⟩
  · exact .inl (get?_merged_emptied_user isEmptied distinctUser distinctEmptied distinctProject
      isSection)

theorem ofLayers_emptied_user_unfit (absent : get? project sectionKey = none)
    (given : HasVariable environment sectionKey) :
    Unfit (ofLayers emptied project environment) (ofLayers user project environment) := by
  refine ofLayers_unfit given ?_ fun name =>
    get?_merged_emptied_user isEmptied distinctUser distinctEmptied distinctProject
  unfold merged
  rw [get?_merged distinctEmptied distinctProject, isEmptied.empty, absent]
  rfl

end

section
variable (isEmptied : Emptied sectionKey project emptied) (distinctUser : DistinctKeys user)
  (distinctEmptied : DistinctKeys emptied) (distinctProject : DistinctKeys project)
include isEmptied distinctUser distinctEmptied

theorem get?_merged_emptied_project :
    get? (merged user emptied) sectionKey = some .null := by
  unfold merged
  rw [get?_merged distinctUser distinctEmptied, isEmptied.empty, mergedValue?_null_over]

include distinctProject

/-- When no variable belongs to a section, an empty one in the file of the project takes the options
of the user away. -/
theorem ofLayers_emptied_project (noVariable : ¬HasVariable environment sectionKey) :
    ofLayers user emptied environment =
      ofLayers (without sectionKey user) project environment := by
  refine ofLayers_agree fun name => ?_
  by_cases isSection : name = sectionKey
  · subst isSection
    right
    rw [get?_merged_emptied_project isEmptied distinctUser distinctEmptied]
    unfold merged
    rw [get?_merged (distinct_without distinctUser) distinctProject, get?_without, if_pos rfl,
      isEmptied.absent]
    exact ⟨rfl, fun v member isSection isGiven => noVariable ⟨v, member, isSection, isGiven⟩⟩
  · left
    unfold merged
    rw [get?_merged distinctUser distinctEmptied,
      get?_merged (distinct_without distinctUser) distinctProject, get?_without,
      if_neg isSection, isEmptied.others name isSection]

theorem ofLayers_emptied_project_unfit (given : HasVariable environment sectionKey) :
    Unfit (ofLayers user emptied environment) (ofLayers user project environment) := by
  refine ofLayers_unfit given
    (get?_merged_emptied_project isEmptied distinctUser distinctEmptied) fun name other => ?_
  unfold merged
  rw [get?_merged distinctUser distinctEmptied, get?_merged distinctUser distinctProject,
    isEmptied.others name other]

end

/-- A section that is absent may as well be taken away. -/
theorem ofLayers_without (absent : get? user sectionKey = none) (distinctUser : DistinctKeys user)
    (distinctProject : DistinctKeys project) :
    ofLayers (without sectionKey user) project environment =
      ofLayers user project environment := by
  refine ofLayers_agree fun name => .inl ?_
  unfold merged
  rw [get?_merged (distinct_without distinctUser) distinctProject,
    get?_merged distinctUser distinctProject, get?_without]
  split
  next isSection => rw [isSection, absent]
  next => rfl

end

/-! ## Loading -/

theorem settings_load {fs : FileSystem} {userFile projectDirectory : Path}
    {environment : Environment} {user project : List (Scalar × Value)}
    (reads : Reads fs userFile projectDirectory user project) :
    (load fs userFile projectDirectory environment).settings =
      ofLayers user project environment := by
  obtain ⟨⟨_, userRead⟩, _, projectRead⟩ := reads
  exact congrArg Loaded.settings (loadBy_read userRead projectRead)

theorem Reads.distinct {fs : FileSystem} {userFile projectDirectory : Path}
    {user project : List (Scalar × Value)}
    (reads : Reads fs userFile projectDirectory user project) :
    DistinctKeys user ∧ DistinctKeys project := by
  obtain ⟨⟨_, userRead⟩, _, projectRead⟩ := reads
  exact ⟨(PrecedenceLemmas.wellKeyed_of_readFile userRead).distinct,
    (PrecedenceLemmas.wellKeyed_of_readFile projectRead).distinct⟩

/-- What loading yields after a section that is absent in one of the files has been put there,
empty.

In the file of the user it makes no difference when the file of the project has the section, or when
no variable belongs to it. In the file of the project it makes no difference when the file of the
user does not have the section and no variable belongs to it; when only no variable belongs to it,
the settings are those without the section of the user. In all other cases there are no settings:
the loading ends with the error for a section that is no mapping, or with the invalid value that
ends it anyway. -/
theorem load_emptied {fs : FileSystem} {userFile projectDirectory : Path}
    {user project : List (Scalar × Value)} (environment : Environment) (sectionKey : Text)
    (reads : Reads fs userFile projectDirectory user project) :
    let settings (fs : FileSystem) := (load fs userFile projectDirectory environment).settings
    (∀ emptiedFs emptied, Emptied sectionKey user emptied →
      Reads emptiedFs userFile projectDirectory emptied project →
      (get? project sectionKey ≠ none ∨ ¬HasVariable environment sectionKey →
        settings emptiedFs = settings fs) ∧
      (get? project sectionKey = none → HasVariable environment sectionKey →
        Unfit (settings emptiedFs) (settings fs))) ∧
    ∀ emptiedFs emptied, Emptied sectionKey project emptied →
      Reads emptiedFs userFile projectDirectory user emptied →
      (get? user sectionKey = none → ¬HasVariable environment sectionKey →
        settings emptiedFs = settings fs) ∧
      (¬HasVariable environment sectionKey →
        settings emptiedFs = ofLayers (without sectionKey user) project environment) ∧
      (HasVariable environment sectionKey → Unfit (settings emptiedFs) (settings fs)) := by
  intro settings
  obtain ⟨distinctUser, distinctProject⟩ := reads.distinct
  have plain : settings fs = ofLayers user project environment := settings_load reads
  constructor
  · intro emptiedFs emptied isEmptied readsEmptied
    have isLayers : settings emptiedFs = ofLayers emptied project environment :=
      settings_load readsEmptied
    have distinctEmptied := readsEmptied.distinct.1
    rw [plain, isLayers]
    exact ⟨ofLayers_emptied_user isEmptied distinctUser distinctEmptied distinctProject,
      ofLayers_emptied_user_unfit isEmptied distinctUser distinctEmptied distinctProject⟩
  · intro emptiedFs emptied isEmptied readsEmptied
    have isLayers : settings emptiedFs = ofLayers user emptied environment :=
      settings_load readsEmptied
    have distinctEmptied := readsEmptied.distinct.2
    have withoutUser (noVariable : ¬HasVariable environment sectionKey) :=
      ofLayers_emptied_project isEmptied distinctUser distinctEmptied distinctProject noVariable
    rw [plain, isLayers]
    refine ⟨fun absent noVariable => ?_, withoutUser,
      ofLayers_emptied_project_unfit isEmptied distinctUser distinctEmptied distinctProject⟩
    rw [withoutUser noVariable, ofLayers_without absent distinctUser distinctProject]

/-! ## Two files in a root directory -/

/-- The settings of two configuration files and an environment. -/
def loadFiles (user project : String) (environment : Environment) :
    Except SettingsError Settings :=
  (load (Layers.rootFiles user project) Layers.rootUserFile ⟨['/'], []⟩ environment).settings

/-- With the concurrency in the environment, an empty section of the user ends the loading. With the
concurrency in the file of the user, one of the project takes it away. -/
theorem load_emptied_differs :
    (loadFiles "" "" [("URLDETECT_CONCURRENCY".toList, ['3'])]).toOption.map (·.scan.concurrency) =
      some (.number 3) ∧
    (loadFiles "scan:" "" [("URLDETECT_CONCURRENCY".toList, ['3'])]).isOk = false ∧
    (loadFiles "scan: {concurrency: 3}" "" []).toOption.map (·.scan.concurrency) =
      some (.number 3) ∧
    (loadFiles "scan: {concurrency: 3}" "scan:" []).toOption.map (·.scan.concurrency) =
      some (.number 10) := by
  decide +kernel

/-- Whether a configuration has a single section, which is empty. -/
def isEmptySection (sectionKey : Text) : List (Scalar × Value) → Bool
  | [(.text key, .scalar .null)] => key == sectionKey
  | _ => false

theorem emptied_of_isEmptySection {sectionKey : Text} {entries : List (Scalar × Value)}
    (isSingle : isEmptySection sectionKey entries = true) : Emptied sectionKey [] entries := by
  unfold isEmptySection at isSingle
  split at isSingle
  next key =>
    cases beq_iff_eq.mp isSingle
    refine ⟨rfl, by rw [get?_cons, if_pos rfl]; rfl, fun name other => ?_⟩
    rw [get?_cons, if_neg]
    rintro ⟨⟩
    exact other rfl
  next => cases isSingle

theorem reads_rootFiles (user project : String)
    (userRead : (readFile (Layers.rootFiles user project) Layers.rootUserFile).isOk = true)
    (projectRead : (readFile (Layers.rootFiles user project)
      (Path.child ⟨['/'], []⟩ projectFile)).isOk = true) :
    Reads (Layers.rootFiles user project) Layers.rootUserFile ⟨['/'], []⟩
      (Layers.entriesRead (Layers.rootFiles user project) Layers.rootUserFile)
      (Layers.entriesRead (Layers.rootFiles user project) (Path.child ⟨['/'], []⟩ projectFile)) :=
  ⟨Layers.readFile_eq userRead, Layers.readFile_eq projectRead⟩

/-- An empty section of the user below one of the project, with a variable that belongs to it. -/
theorem load_emptied_below :
    ∃ user project emptied,
      Reads (Layers.rootFiles "" "scan: {pool_size: 4}") Layers.rootUserFile ⟨['/'], []⟩ user
        project ∧
      Reads (Layers.rootFiles "scan:" "scan: {pool_size: 4}") Layers.rootUserFile ⟨['/'], []⟩
        emptied project ∧
      Emptied scanSection user emptied ∧ get? project scanSection ≠ none ∧
      loadFiles "scan:" "scan: {pool_size: 4}" [("URLDETECT_CONCURRENCY".toList, ['3'])] =
        loadFiles "" "scan: {pool_size: 4}" [("URLDETECT_CONCURRENCY".toList, ['3'])] ∧
      (loadFiles "" "scan: {pool_size: 4}"
        [("URLDETECT_CONCURRENCY".toList, ['3'])]).toOption.map (·.scan.concurrency) =
          some (.number 3) := by
  let emptiedFs := Layers.rootFiles "scan:" "scan: {pool_size: 4}"
  have noEntries : Layers.entriesRead (Layers.rootFiles "" "scan: {pool_size: 4}")
      Layers.rootUserFile = [] := List.isEmpty_iff.mp (by decide +kernel)
  have isEmptied : Emptied scanSection
      (Layers.entriesRead (Layers.rootFiles "" "scan: {pool_size: 4}") Layers.rootUserFile)
      (Layers.entriesRead emptiedFs Layers.rootUserFile) := by
    rw [noEntries]
    exact emptied_of_isEmptySection (by decide +kernel)
  have inProject : get? (Layers.entriesRead (Layers.rootFiles "" "scan: {pool_size: 4}")
      (Path.child ⟨['/'], []⟩ projectFile)) scanSection ≠ none := by
    rw [Option.ne_none_iff_isSome]
    decide +kernel
  have reads := reads_rootFiles "" "scan: {pool_size: 4}" (by decide +kernel) (by decide +kernel)
  have readsEmptied :=
    reads_rootFiles "scan:" "scan: {pool_size: 4}" (by decide +kernel) (by decide +kernel)
  have same := (load_emptied [("URLDETECT_CONCURRENCY".toList, ['3'])] scanSection reads).1
    emptiedFs _ isEmptied readsEmptied
  exact ⟨_, _, _, reads, readsEmptied, isEmptied, inProject, same.1 (.inl inProject),
    by decide +kernel⟩

end Settings

end UrlScan
