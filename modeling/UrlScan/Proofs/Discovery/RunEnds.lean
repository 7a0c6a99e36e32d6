import UrlScan.Proofs.Discovery.Faults
import UrlScan.Proofs.Discovery.SetFilter
import UrlScan.Proofs.Settings.Precedence
import UrlScan.Proofs.Text.Trimmed

/-!
# How a run with some patterns ends

The patterns of a command line are texts that are not empty and have no white space around them. A
run that gets as far as discovery finds the files and scans them, or ends there. It expects a
negative depth, a root that is no directory, and the refusals of the system, and tells these. It
does not expect the errors of patterns: a pattern that is no glob, and an exclude pattern without
components that some file comes to (`Run.discovery_ends`).

Results:
1. `Arguments.mem_patterns`: the patterns that a command line gives.
2. `Discovery.Stops.exists_pattern`: where the error of a pattern comes from.
3. `Discovery.patterns_break_off`: patterns that break a run off.
4. `Run.outcome_of_uses`: a run whose settings are there gets as far as discovery.
5. `Run.discovery_ends`: how a run ends at discovery.
-/

namespace UrlScan

/-! ## Patterns of the command line -/

namespace Arguments

/-- The patterns of a command line are not empty and have no white space around them. -/
theorem mem_patterns {fs : FileSystem} {inline file : Option Text} {found : List Text}
    (read : patterns fs inline file = .ok found) {pattern : Text} (member : pattern ∈ found) :
    pattern ≠ [] ∧ Text.strip pattern = pattern := by
  unfold patterns at read
  dsimp only at read
  split at read
  next => cases read; exact Text.mem_stripped member rfl
  next => cases read; exact Text.mem_stripped member rfl
  next name _ =>
    split at read
    next lines isRead =>
      cases read
      rcases List.mem_append.mp member with inItems | inLines
      · exact Text.mem_stripped inItems rfl
      · unfold patternsOfFile at isRead
        split at isRead
        next => cases isRead
        next =>
          split at isRead
          next => cases isRead
          next => cases isRead; exact Text.mem_stripped inLines rfl
    next => cases read
    next => cases read

/-- The arguments ask for these rules: the pattern files can be read, and the depth is a number. -/
structure Asks (a : Arguments) (fs : FileSystem) (rules : DiscoveryRules) : Prop where
  scan : patterns fs a.scan a.scanFile = .ok rules.scan
  exclude : patterns fs a.exclude a.excludeFile = .ok rules.exclude
  maxDepth : a.depth = .ok rules.maxDepth

variable {a : Arguments} {fs : FileSystem} {rules : DiscoveryRules}

theorem Asks.files_eq (asks : a.Asks fs rules) :
    a.files fs = (Discovery.files fs a.root rules).mapError .discovery := by
  unfold files
  rw [asks.scan, asks.exclude, asks.maxDepth]
  rfl

theorem Asks.mem (asks : a.Asks fs rules) {pattern : Text}
    (member : pattern ∈ rules.scan ++ rules.exclude) :
    pattern ≠ [] ∧ Text.strip pattern = pattern := by
  rcases List.mem_append.mp member with inScan | inExclude
  · exact mem_patterns asks.scan inScan
  · exact mem_patterns asks.exclude inExclude

end Arguments

/-! ## Errors of patterns -/

/-- Whether an error is that of a pattern. -/
def DiscoveryError.isOfPattern : DiscoveryError → Bool
  | glob _ | emptyPattern => true
  | invalid _ | refused _ => false

/-- The errors of patterns are those that no run expects. -/
theorem RunError.report?_discovery {e : DiscoveryError} :
    (discovery e).report? = none ↔ e.isOfPattern = true := by
  cases e <;> simp [report?, DiscoveryError.isOfPattern]

namespace Discovery

variable {fs : FileSystem} {root : Path} {rules : DiscoveryRules} {e : DiscoveryError}

/-- An error of a pattern is one of a glob or of an exclude pattern of the rules. -/
theorem Stops.exists_pattern (stops : Stops fs root rules e) (ofPattern : e.isOfPattern = true) :
    (∃ glob ∈ globs rules, ∃ fault, e = .glob fault ∧ Glob.Faulty glob fault) ∨
      e = .emptyPattern ∧ ∃ pattern ∈ rules.exclude, ¬Answers pattern := by
  cases stops with
  | depth | refused | noDirectory => cases ofPattern
  | glob _ _ reaches =>
    obtain ⟨glob, inGlobs, stopsHere⟩ := reaches.exists_mem
    cases stopsHere with
    | faulty faulty => exact .inl ⟨glob, inGlobs, _, rfl, faulty⟩
    | refused => cases ofPattern
    | path _ reaches =>
      obtain ⟨p, -, stopsHere⟩ := reaches.exists_mem
      cases stopsHere with
      | refused => cases ofPattern
      | pattern _ unanswered =>
        obtain ⟨pattern, inExclude, -, mute⟩ := unanswered.2.exists_mem
        exact .inr ⟨rfl, pattern, inExclude, mute⟩

/-- Whether a search ends with the error of a pattern. -/
def breaksOff : Except DiscoveryError (List Path) → Bool
  | .ok _ => false
  | .error e => e.isOfPattern

theorem files_of_breaksOff (breaks : breaksOff (files fs root rules) = true)
    (sound : ∀ glob ∈ globs rules, ∀ fault, ¬Glob.Faulty glob fault) :
    files fs root rules = .error .emptyPattern := by
  cases ran : files fs root rules with
  | ok found =>
    rw [ran] at breaks
    cases breaks
  | error e =>
    rw [ran] at breaks
    rcases (files_eq_error_iff.mp ran).exists_pattern breaks with
      ⟨glob, inGlobs, fault, -, faulty⟩ | ⟨isEmpty, -⟩
    · exact absurd faulty (sound glob inGlobs fault)
    · rw [isEmpty]

theorem files_of_faulty {glob : Text} {fault : GlobFault} {more : List Text}
    (depth : ∀ depth ∈ rules.maxDepth, 0 ≤ depth) (isRoot : fs.isDirectory root = .ok true)
    (scan : globs rules = glob :: more) (faulty : Glob.Faulty glob fault) :
    files fs root rules = .error (.glob fault) :=
  files_eq_error_iff.mpr (.glob depth isRoot (scan ▸ reaches_cons.mpr (.inl (.faulty faulty))))

/-- The glob for every file is none of the faulty ones. -/
theorem not_faulty_everyFile (fault : GlobFault) : ¬Glob.Faulty everyFile fault := by
  have parsed : (Glob.parse everyFile).isOk = true := by decide +kernel
  rw [← Glob.parse_eq_error_iff]
  intro failed
  rw [failed] at parsed
  cases parsed

/-- Patterns as a command line gives them, with which a search in the sample ends with an error that
no run expects: globs with two asterisks beside something else, beginning with a slash, or without
names, and an exclude pattern without names. -/
theorem patterns_break_off :
    let search (scan exclude : List String) :=
      files sample top ⟨scan.map String.toList, exclude.map String.toList, none⟩
    (∀ pattern ∈ ["**.py", "/src", ".", "./"].map String.toList,
      Arguments.patterns sample (some pattern) none = .ok [pattern]) ∧
    search ["**.py"] [] = .error (.glob .embeddedAnyDepth) ∧
    search ["/src"] [] = .error (.glob .absolute) ∧
    search ["."] [] = .error (.glob .noComponent) ∧
    search ["./"] [] = .error (.glob .onlySlash) ∧
    search [] ["."] = .error .emptyPattern ∧
    ∀ e : DiscoveryError, e.isOfPattern = true → (RunError.discovery e).report? = none := by
  intro search
  have faulty {glob : String} {fault : GlobFault} (faulty : Glob.Faulty glob.toList fault) :
      search [glob] [] = .error (.glob fault) :=
    files_of_faulty (by simp) rfl rfl faulty
  have names : (Path.parse "**.py".toList).names = ["**.py".toList] ∧
      (Path.parse ".".toList).names = [] ∧ (Path.parse "./".toList).names = [] := by
    decide +kernel
  have inNames : "**.py".toList ∈ (Path.parse "**.py".toList).names := by
    rw [names.1]
    exact List.mem_singleton_self _
  have asterisks : ['*', '*'] <:+: "**.py".toList := ⟨[], ".py".toList, rfl⟩
  refine ⟨?_, faulty (.embeddedAnyDepth (by decide) inNames (by decide) asterisks),
    faulty (.absolute rfl), faulty (.noComponent (by decide) (by decide) names.2.1 (by decide)),
    faulty (.onlySlash (by decide) names.2.2 (by decide)),
    files_of_breaksOff (by decide +kernel) ?_, fun e => RunError.report?_discovery.mpr⟩
  · simp only [List.map_cons, List.map_nil, List.forall_mem_cons]
    exact ⟨rfl, rfl, rfl, rfl, List.forall_mem_nil _⟩
  · exact List.forall_mem_singleton.mpr not_faulty_everyFile

end Discovery

theorem Arguments.Asks.glob_ne_nil {a : Arguments} {fs : FileSystem} {rules : DiscoveryRules}
    (asks : a.Asks fs rules) {glob : Text} (member : glob ∈ Discovery.globs rules) : glob ≠ [] := by
  unfold Discovery.globs at member
  split at member
  next =>
    rw [List.mem_singleton.mp member]
    decide
  next => exact (asks.mem (List.mem_append_left _ member)).1

/-! ## Runs -/

namespace Run

variable {package : Option GrammarPackage} {dialect : Report.Csv.Dialect} {fs : FileSystem}
  {userFile : Path} {environment : Environment} {a : Arguments} {user project : List (Scalar × Value)}
  {used : Settings} {rules : DiscoveryRules}

/-- An error that the run expects is the last thing that it tells. -/
theorem getLast?_standardError {r : Run} {error : RunError} {message : String}
    (failed : r.outcome = .error error) (isReport : error.report? = some message)
    (verbosity : Option Verbosity) :
    (r.standardError verbosity).getLast? = some ("Error: " ++ message) := by
  unfold standardError
  rw [failed]
  dsimp only
  rw [isReport]
  exact List.getLast?_concat

/-- A run whose settings are there and whose pattern files can be read, with the patterns of its
command line, which are not empty and have no white space around them:

* It scans the files that it finds, or ends with the error of finding them.
* It ends with an error exactly if this stops the search.
* An error that is none of a pattern is told in the last line, and the exit code is one. An error of
  a pattern is none that the run expects, so nothing is told of it.
* An error of a pattern is that of a glob, which is not the empty one, or of an exclude pattern
  without components. Where all patterns are sound there is none. -/
theorem discovery_ends (uses : (Layers.mk user project environment a).Uses fs userFile used)
    (asks : a.Asks fs rules) :
    let r := ofArguments package dialect fs userFile environment a
    let search := Discovery.files fs a.root rules
    (∀ pattern ∈ rules.scan ++ rules.exclude, pattern ≠ [] ∧ Text.strip pattern = pattern) ∧
    (∀ found, search = .ok found →
      r.outcome = (scanAndDeliver package dialect fs a used found).outcome) ∧
    (∀ e, search = .error e ↔ Discovery.Stops fs a.root rules e) ∧
    (∀ e, search = .error e → r.outcome = .error (.discovery e) ∧
      (e.isOfPattern = false ∧ r.exitCode = 1 ∧ (∃ message, ∀ verbosity,
          (r.standardError verbosity).getLast? = some ("Error: " ++ message)) ∨
        e.isOfPattern = true ∧ (RunError.discovery e).report? = none)) ∧
    ∀ e, search = .error e → e.isOfPattern = true →
      (∃ glob ∈ Discovery.globs rules, ∃ fault, e = .glob fault ∧ fault ≠ .empty ∧
          Glob.Faulty glob fault) ∨
        e = .emptyPattern ∧ ∃ pattern ∈ rules.exclude, ¬Discovery.Answers pattern := by
  intro r search
  have outcome : r.outcome = _ := uses.outcome_eq package dialect
  dsimp only at outcome
  rw [asks.files_eq] at outcome
  refine ⟨fun pattern => asks.mem, fun found isFound => ?_,
    fun e => Discovery.files_eq_error_iff, fun e failed => ?_, fun e failed ofPattern => ?_⟩
  · have isSearch : Discovery.files fs a.root rules = .ok found := isFound
    rw [isSearch] at outcome
    exact outcome
  · have isSearch : Discovery.files fs a.root rules = .error e := failed
    rw [isSearch] at outcome
    have isOutcome : r.outcome = .error (.discovery e) := outcome
    refine ⟨isOutcome, ?_⟩
    cases isReport : (RunError.discovery e).report? with
    | none => exact .inr ⟨RunError.report?_discovery.mp isReport, rfl⟩
    | some message =>
      refine .inl ⟨?_, ?_, message, getLast?_standardError isOutcome isReport⟩
      · rw [← Bool.not_eq_true, ← RunError.report?_discovery, isReport]
        exact Option.some_ne_none _
      · unfold exitCode
        rw [isOutcome]
  · rcases (Discovery.files_eq_error_iff.mp failed).exists_pattern ofPattern with
      ⟨glob, inGlobs, fault, isGlob, faulty⟩ | empty
    · refine .inl ⟨glob, inGlobs, fault, isGlob, ?_, faulty⟩
      rintro rfl
      cases faulty with
      | empty none => exact asks.glob_ne_nil inGlobs none
    · exact .inr empty

/-- A run that is to exclude a dot. No run expects how it ends. -/
theorem discovery_ends_dot :
    let a : Arguments := { exclude := some ['.'] }
    let fs := Discovery.sample
    (∃ used, (Layers.found fs Layers.rootUserFile [] a).Uses fs Layers.rootUserFile used) ∧
      a.Asks fs ⟨[], [['.']], none⟩ ∧
      (ofArguments none ⟨true⟩ fs Layers.rootUserFile [] a).outcome =
        .error (.discovery .emptyPattern) ∧
      (RunError.discovery .emptyPattern).report? = none := by
  intro a fs
  have isRoot : fs.isDirectory a.root = .ok true := by
    have names : a.root = ⟨[], []⟩ := by decide +kernel
    rw [names]
    rfl
  obtain ⟨used, uses⟩ : ∃ used,
      (Layers.found fs Layers.rootUserFile [] a).Uses fs Layers.rootUserFile used :=
    Layers.exists_uses isRoot (by decide +kernel) (by decide +kernel) (by decide +kernel)
  have asks : a.Asks fs ⟨[], [['.']], none⟩ := ⟨rfl, rfl, rfl⟩
  have failed : Discovery.files fs a.root ⟨[], [['.']], none⟩ = .error .emptyPattern :=
    Discovery.files_of_breaksOff (by decide +kernel)
      (List.forall_mem_singleton.mpr Discovery.not_faulty_everyFile)
  obtain ⟨-, -, -, ends, -⟩ := discovery_ends uses asks
  obtain ⟨outcome, ⟨other, -⟩ | ⟨-, notExpected⟩⟩ := ends _ failed
  · cases other
  · exact ⟨⟨used, uses⟩, asks, outcome, notExpected⟩

end Run

end UrlScan
