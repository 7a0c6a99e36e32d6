import UrlScan.Proofs.Discovery.Selection

/-!
# Which patterns break a run off

A run goes through the globs, through the paths that each of them selects, and for every file
through the exclude patterns, and ends at the first step that has an error. An error is the refusal
of the system to be asked about a path, or it is that of a pattern: a glob that is none
(`Glob.Faulty`), or an exclude pattern without components. The latter is only noticed when a file
gets as far as that pattern (`Unanswered`).

Results:
1. `Glob.parse_eq_error_iff`: which texts are no globs, and why.
2. `isExcluded_eq_error_iff`: for which files the exclude patterns have an error.
3. `keepFiles_eq_error_iff`, `collect_eq_error_iff`: the first step with an error.
4. `files_eq_error_iff`: which errors a run ends with.
-/

namespace UrlScan

namespace Path

theorem rootOf_eq_nil_iff {t : Text} : rootOf t = [] ↔ t.head? ≠ some '/' := by
  have slashes : rootOf t = [] ↔ (t.takeWhile (· == '/')).length = 0 := by
    unfold rootOf
    split
    next none => exact iff_of_true rfl none
    next two => exact iff_of_false (List.cons_ne_nil _ _) (by rw [two]; decide)
    next some _ => exact iff_of_false (List.cons_ne_nil _ _) some
  rw [slashes, List.length_eq_zero_iff]
  cases t with
  | nil => simp
  | cons c rest => by_cases slash : c = '/' <;> simp [slash]

theorem isAbsolute_parse_iff {t : Text} : (parse t).isAbsolute = true ↔ t.head? = some '/' := by
  rw [isAbsolute, parse, Bool.not_eq_true', ← Bool.not_eq_true, List.isEmpty_iff,
    rootOf_eq_nil_iff, not_not]

end Path

/-! ## Globs -/

namespace Glob

theorem hasTwoAsterisks_iff {t : Text} : hasTwoAsterisks t = true ↔ ['*', '*'] <:+: t := by
  induction t with
  | nil => simp [hasTwoAsterisks]
  | cons c rest ih =>
    rw [List.infix_cons_iff, ← ih]
    cases rest with
    | nil => simp [hasTwoAsterisks]
    | cons d rest =>
      by_cases both : c = '*' ∧ d = '*'
      · simp [both.1, both.2, hasTwoAsterisks]
      · have step : hasTwoAsterisks (c :: d :: rest) = hasTwoAsterisks (d :: rest) := by
          rw [hasTwoAsterisks]
          grind
        have prefixed : ¬['*', '*'] <+: c :: d :: rest := by
          simp only [List.cons_prefix_cons, List.nil_prefix, and_true]
          exact fun same => both ⟨same.1.symm, same.2.symm⟩
        rw [step, or_iff_right prefixed]

/-- Why a text is no glob.

* `empty`: there is nothing.
* `absolute`: it begins with a slash.
* `noComponent`: it is of nothing but dots between slashes, and does not end in a slash.
* `onlySlash`: the same with a slash at the end.
* `embeddedAnyDepth`: one of its names has two asterisks together, with something else. -/
inductive Faulty (t : Text) : GlobFault → Prop
  | empty : t = [] → Faulty t .empty
  | absolute : t.head? = some '/' → Faulty t .absolute
  | noComponent : t ≠ [] → t.head? ≠ some '/' → (Path.parse t).names = [] →
      t.getLast? ≠ some '/' → Faulty t .noComponent
  | onlySlash : t.head? ≠ some '/' → (Path.parse t).names = [] → t.getLast? = some '/' →
      Faulty t .onlySlash
  | embeddedAnyDepth {name : Text} : t.head? ≠ some '/' → name ∈ (Path.parse t).names →
      name ≠ ['*', '*'] → ['*', '*'] <:+: name → Faulty t .embeddedAnyDepth

theorem component_eq_error_iff {name : Text} {fault : GlobFault} :
    component name = .error fault ↔
      fault = .embeddedAnyDepth ∧ name ≠ ['*', '*'] ∧ ['*', '*'] <:+: name := by
  rw [← hasTwoAsterisks_iff]
  unfold component
  split
  next any => simp [any]
  next other =>
    split
    next both => simp [other, both, eq_comm]
    next single => split <;> simp [single]

theorem mapM_component_eq_error_iff {names : List Text} {fault : GlobFault} :
    names.mapM component = .error fault ↔
      fault = .embeddedAnyDepth ∧ ∃ name ∈ names, name ≠ ['*', '*'] ∧ ['*', '*'] <:+: name := by
  by_cases embedded : fault = .embeddedAnyDepth
  · subst embedded
    have either (name : Text) :
        (∃ c, component name = .ok c) ∨ component name = .error .embeddedAnyDepth := by
      cases outcome : component name with
      | ok c => exact .inl ⟨c, rfl⟩
      | error fault => exact .inr (by rw [(component_eq_error_iff.mp outcome).1])
    rw [mapM_eq_error_iff, reaches_iff_exists_mem either, and_iff_right rfl]
    simp only [component_eq_error_iff, true_and]
  · refine iff_of_false (fun failed => embedded ?_) fun both => embedded both.1
    obtain ⟨name, -, stops⟩ := (mapM_eq_error_iff.mp failed).exists_mem
    exact (component_eq_error_iff.mp stops).1

theorem endsWith_slash_iff {t : Text} : Text.endsWith t ['/'] = true ↔ t.getLast? = some '/' := by
  rw [Text.endsWith, List.isSuffixOf_iff_suffix]
  constructor
  · rintro ⟨start, rfl⟩
    exact List.getLast?_concat
  · intro last
    obtain ⟨start, rfl⟩ := List.getLast?_eq_some_iff.mp last
    exact List.suffix_append _ _

theorem parse_absolute {t : Text} (absolute : t.head? = some '/') :
    parse t = .error .absolute := by
  have notEmpty : ¬t.isEmpty = true := by
    rw [List.isEmpty_iff]
    rintro rfl
    cases absolute
  rw [parse, if_neg notEmpty]
  exact if_pos (Path.isAbsolute_parse_iff.mpr absolute)

theorem parse_relative {t : Text} (notEmpty : t ≠ []) (relative : t.head? ≠ some '/') :
    parse t =
      if (Path.parse t).names = [] then
        .error (if t.getLast? = some '/' then .onlySlash else .noComponent)
      else (Path.parse t).names.mapM component >>= fun components =>
        .ok ⟨components, Text.endsWith t ['/']⟩ := by
  rw [parse, if_neg (mt List.isEmpty_iff.mp notEmpty)]
  dsimp only
  rw [if_neg (mt Path.isAbsolute_parse_iff.mp relative)]
  simp only [List.isEmpty_iff, endsWith_slash_iff]
  rfl

/-- A text is a glob unless it is faulty. -/
theorem parse_eq_error_iff {t : Text} {fault : GlobFault} :
    parse t = .error fault ↔ Faulty t fault := by
  constructor
  · intro failed
    by_cases none : t = []
    · subst none
      cases failed
      exact .empty rfl
    by_cases absolute : t.head? = some '/'
    · rw [parse_absolute absolute] at failed
      cases failed
      exact .absolute absolute
    rw [parse_relative none absolute] at failed
    split at failed
    next noNames =>
      cases failed
      split
      next slash => exact .onlySlash absolute noNames slash
      next noSlash => exact .noComponent none absolute noNames noSlash
    next =>
      rcases bind_eq_error_iff.mp failed with failed | ⟨components, -, failed⟩
      · obtain ⟨rfl, name, member, other, both⟩ := mapM_component_eq_error_iff.mp failed
        exact .embeddedAnyDepth absolute member other both
      · cases failed
  · intro faulty
    cases faulty with
    | empty none => rw [none]; rfl
    | absolute absolute => exact parse_absolute absolute
    | noComponent notEmpty relative noNames noSlash =>
      rw [parse_relative notEmpty relative, if_pos noNames, if_neg noSlash]
    | onlySlash relative noNames slash =>
      have notEmpty : t ≠ [] := by
        rintro rfl
        cases slash
      rw [parse_relative notEmpty relative, if_pos noNames, if_pos slash]
    | embeddedAnyDepth relative member other both =>
      have notEmpty : t ≠ [] := by
        rintro rfl
        exact absurd member List.not_mem_nil
      rw [parse_relative notEmpty relative, if_neg (List.ne_nil_of_mem member)]
      exact bind_eq_error_iff.mpr
        (.inl (mapM_component_eq_error_iff.mpr ⟨rfl, _, member, other, both⟩))

end Glob

namespace Discovery

/-! ## Exclude patterns -/

section
variable {names : List Text} {rules : DiscoveryRules} {e : DiscoveryError} {pattern : Text}

theorem matchesFromRight_eq_error_iff :
    matchesFromRight names pattern = .error e ↔ e = .emptyPattern ∧ ¬Answers pattern := by
  unfold matchesFromRight Answers
  dsimp only
  split
  next absolute => simp [absolute]
  next relative =>
    split
    next none =>
      rw [List.isEmpty_iff] at none
      simp [none, relative, eq_comm]
    next some =>
      rw [List.isEmpty_iff] at some
      simp [some]

/-- An exclude pattern has an error where it has no components to compare with the path, and is not
of the form of the whole path. -/
theorem isExcludedBy_eq_error_iff :
    isExcludedBy names pattern = .error e ↔
      e = .emptyPattern ∧ Wildcard.accepts pattern (Text.join ['/'] names) = false ∧
        ¬Answers pattern := by
  rw [isExcludedBy_eq]
  split
  next accepted => simp [accepted]
  next notAccepted =>
    rw [Bool.not_eq_true] at notAccepted
    rw [bind_eq_error_iff, matchesFromRight_eq_error_iff, and_iff_right notAccepted]
    refine or_iff_left ?_
    rintro ⟨isMatch, -, failed⟩
    cases failed

/-- The exclude patterns have the error of the first one that has an error, unless one before it is
about the file. -/
theorem isExcludedByAny_eq_error_iff {patterns : List Text} :
    isExcludedByAny names patterns = .error e ↔
      Reaches (fun pattern => isExcludedBy names pattern = .ok false)
        (fun pattern => isExcludedBy names pattern = .error e) patterns := by
  induction patterns with
  | nil => exact iff_of_false (fun failed => by cases failed) not_reaches_nil
  | cons pattern rest ih =>
    rw [isExcludedByAny, bind_eq_error_iff, reaches_cons, ← ih]
    refine or_congr_right ?_
    constructor
    · rintro ⟨excluded, found, failed⟩
      cases excluded with
      | true => cases failed
      | false => exact ⟨found, failed⟩
    · rintro ⟨found, failed⟩
      exact ⟨false, found, failed⟩

/-- A file is not skipped, and the exclude patterns, none of which is about it before, come to one
that has no components and is not of the form of the whole path. -/
def Unanswered (rules : DiscoveryRules) (names : List Text) : Prop :=
  isSkipped rules.maxDepth names = false ∧
    Reaches (fun pattern => isExcludedBy names pattern = .ok false)
      (fun pattern => Wildcard.accepts pattern (Text.join ['/'] names) = false ∧ ¬Answers pattern)
      rules.exclude

theorem isExcluded_eq_error_iff :
    isExcluded rules names = .error e ↔ e = .emptyPattern ∧ Unanswered rules names := by
  unfold isExcluded Unanswered
  split
  next skipped => simp [skipped]
  next notSkipped =>
    rw [Bool.not_eq_true] at notSkipped
    rw [isExcludedByAny_eq_error_iff, and_iff_right notSkipped]
    by_cases isEmpty : e = .emptyPattern
    · simp only [isExcludedBy_eq_error_iff, and_iff_right isEmpty]
    · refine iff_of_false (fun reaches => isEmpty ?_) fun both => isEmpty both.1
      obtain ⟨pattern, -, failed⟩ := reaches.exists_mem
      exact (isExcludedBy_eq_error_iff.mp failed).1

end

/-! ## Where a run stops -/

section
variable (fs : FileSystem) (root : Path) (rules : DiscoveryRules)

/-- What stops a run at a path: the system refuses to be asked about it, or it is that of a file for
which an exclude pattern has an error. -/
inductive PathStops (p : Path) : DiscoveryError → Prop
  | refused {error : AccessError} : fs.isFile p = .error error → PathStops p (.refused error)
  | pattern : fs.isFile p = .ok true → Unanswered rules (below root p) → PathStops p .emptyPattern

/-- A glob can be followed, and every path that it selects can be decided on. -/
def Passes (glob : Text) : Prop :=
  ∃ selected, Globs fs root glob selected ∧ ∀ p ∈ selected, Decides fs root rules p

/-- What stops a run at a glob: it is none; one of the paths that it selects stops the run; or every
path that it selects can be decided on, and behind them the system refuses to follow the glob. -/
inductive GlobStops (glob : Text) : DiscoveryError → Prop
  | faulty {fault : GlobFault} : Glob.Faulty glob fault → GlobStops glob (.glob fault)
  | path {parsed : Glob} {e : DiscoveryError} : Glob.parse glob = .ok parsed →
      Reaches (Decides fs root rules) (fun p => PathStops fs root rules p e)
        (parsed.selection fs root).paths →
      GlobStops glob e
  | refused {parsed : Glob} {error : AccessError} : Glob.parse glob = .ok parsed →
      (∀ p ∈ (parsed.selection fs root).paths, Decides fs root rules p) →
      (parsed.selection fs root).refusal = some error → GlobStops glob (.refused error)

/-- What stops a run: a negative depth; a root that the system refuses to be asked about, or that is
no directory; or else the first of the globs that does not pass. -/
inductive Stops : DiscoveryError → Prop
  | depth {depth : Int} : depth ∈ rules.maxDepth → depth < 0 → Stops (.invalid .maxDepthNegative)
  | refused {error : AccessError} : (∀ depth ∈ rules.maxDepth, 0 ≤ depth) →
      fs.isDirectory root = .error error → Stops (.refused error)
  | noDirectory : (∀ depth ∈ rules.maxDepth, 0 ≤ depth) → fs.isDirectory root = .ok false →
      Stops (.invalid (.notDirectory root.text))
  | glob {e : DiscoveryError} : (∀ depth ∈ rules.maxDepth, 0 ≤ depth) →
      fs.isDirectory root = .ok true →
      Reaches (Passes fs root rules) (fun glob => GlobStops fs root rules glob e) (globs rules) →
      Stops e

end

section
variable {fs : FileSystem} {root : Path} {rules : DiscoveryRules} {e : DiscoveryError}

theorem keepFiles_cons_eq_error_iff {path : Path} {paths : List Path} :
    keepFiles fs rules root (path :: paths) = .error e ↔
      PathStops fs root rules path e ∨
        Decides fs root rules path ∧ keepFiles fs rules root paths = .error e := by
  simp only [keepFiles_cons, bind_eq_error_iff, mapError_eq_error_iff, mapError_eq_ok_iff,
    reduceCtorEq, and_false, exists_false, or_false]
  constructor
  · rintro (⟨error, refused, rfl⟩ | ⟨isFile, asked, failed | ⟨excluded, found, failed⟩⟩)
    · exact .inl (.refused refused)
    · cases isFile with
      | false => cases failed
      | true =>
        obtain ⟨rfl, unanswered⟩ := isExcluded_eq_error_iff.mp failed
        exact .inl (.pattern asked unanswered)
    · cases isFile with
      | false => exact .inr ⟨.inl asked, failed⟩
      | true => exact .inr ⟨.inr ⟨asked, excluded, found⟩, failed⟩
  · rintro (stops | ⟨noFile | ⟨isFile, excluded, found⟩, failed⟩)
    · cases stops with
      | refused refused => exact .inl ⟨_, refused, rfl⟩
      | pattern isFile unanswered =>
        exact .inr ⟨true, isFile, .inl (isExcluded_eq_error_iff.mpr ⟨rfl, unanswered⟩)⟩
    · exact .inr ⟨false, noFile, .inr ⟨true, rfl, failed⟩⟩
    · exact .inr ⟨true, isFile, .inr ⟨excluded, found, failed⟩⟩

theorem keepFiles_eq_error_iff {paths : List Path} :
    keepFiles fs rules root paths = .error e ↔
      Reaches (Decides fs root rules) (fun p => PathStops fs root rules p e) paths := by
  induction paths with
  | nil => exact iff_of_false (fun failed => by cases failed) not_reaches_nil
  | cons path paths ih => rw [keepFiles_cons_eq_error_iff, reaches_cons, ← ih]

theorem ends_eq_error_iff {s : Selection} {error : AccessError} :
    s.ends = .error error ↔ s.refusal = some error := by
  unfold Selection.ends
  cases s.refusal <;> simp

theorem collect_cons_eq_error_iff {glob : Text} {rest : List Text} :
    collect fs rules root (glob :: rest) = .error e ↔
      GlobStops fs root rules glob e ∨
        Passes fs root rules glob ∧ collect fs rules root rest = .error e := by
  simp only [collect, bind_eq_error_iff, mapError_eq_error_iff, mapError_eq_ok_iff, reduceCtorEq,
    and_false, exists_false, or_false, pure, Except.pure]
  constructor
  · rintro (⟨fault, faulty, rfl⟩ | ⟨parsed, isParsed, failed | ⟨kept, areKept,
      ⟨error, refused, rfl⟩ | ⟨⟨⟩, ends, failed⟩⟩⟩)
    · exact .inl (.faulty (Glob.parse_eq_error_iff.mp faulty))
    · exact .inl (.path isParsed (keepFiles_eq_error_iff.mp failed))
    · exact .inl (.refused isParsed (exists_keepFiles_iff.mp ⟨kept, areKept⟩)
        (ends_eq_error_iff.mp refused))
    · exact .inr ⟨⟨_, ⟨parsed, isParsed, Selection.eq_of_ends ends⟩,
        exists_keepFiles_iff.mp ⟨kept, areKept⟩⟩, failed⟩
  · rintro (stops | ⟨⟨selected, ⟨parsed, isParsed, selects⟩, decide⟩, failed⟩)
    · cases stops with
      | faulty faulty => exact .inl ⟨_, Glob.parse_eq_error_iff.mpr faulty, rfl⟩
      | path isParsed reaches =>
        exact .inr ⟨_, isParsed, .inl (keepFiles_eq_error_iff.mpr reaches)⟩
      | refused isParsed decide refused =>
        obtain ⟨kept, areKept⟩ := exists_keepFiles_iff.mpr decide
        exact .inr ⟨_, isParsed,
          .inr ⟨kept, areKept, .inl ⟨_, ends_eq_error_iff.mpr refused, rfl⟩⟩⟩
    · obtain ⟨kept, areKept⟩ := exists_keepFiles_iff.mpr decide
      exact .inr ⟨parsed, isParsed,
        .inr ⟨kept, by rwa [selects], .inr ⟨(), by rw [selects]; rfl, failed⟩⟩⟩

theorem collect_eq_error_iff {globs : List Text} :
    collect fs rules root globs = .error e ↔
      Reaches (Passes fs root rules) (fun glob => GlobStops fs root rules glob e) globs := by
  induction globs with
  | nil => exact iff_of_false (fun failed => by cases failed) not_reaches_nil
  | cons glob rest ih => rw [collect_cons_eq_error_iff, reaches_cons, ← ih]

/-- A run ends with an error exactly if this stops it. -/
theorem files_eq_error_iff : files fs root rules = .error e ↔ Stops fs root rules e := by
  have depths : rules.maxDepth.any (· < 0) = true ↔ ∃ depth ∈ rules.maxDepth, depth < 0 := by
    cases rules.maxDepth <;> simp
  unfold files
  by_cases negative : rules.maxDepth.any (· < 0) = true
  · rw [if_pos negative]
    obtain ⟨depth, isDepth, below⟩ := depths.mp negative
    have notAll : ¬∀ depth ∈ rules.maxDepth, 0 ≤ depth := fun all =>
      absurd below (Int.not_lt.mpr (all depth isDepth))
    constructor
    · intro failed
      cases failed
      exact .depth isDepth below
    · intro stops
      cases stops with
      | depth => rfl
      | refused all => exact absurd all notAll
      | noDirectory all => exact absurd all notAll
      | glob all => exact absurd all notAll
  · rw [if_neg negative]
    have all : ∀ depth ∈ rules.maxDepth, 0 ≤ depth := fun depth isDepth =>
      Int.not_lt.mp fun below => negative (depths.mpr ⟨depth, isDepth, below⟩)
    refine bind_eq_error_iff.trans ?_
    simp only [mapError_eq_error_iff, mapError_eq_ok_iff]
    constructor
    · rintro (⟨error, refused, rfl⟩ | ⟨isDirectory, asked, failed⟩)
      · exact .refused all refused
      · cases isDirectory with
        | false =>
          cases failed
          exact .noDirectory all asked
        | true =>
          rcases bind_eq_error_iff.mp failed with failed | ⟨paths, -, failed⟩
          · exact .glob all asked (collect_eq_error_iff.mp failed)
          · cases failed
    · intro stops
      cases stops with
      | depth isDepth below => exact absurd below (Int.not_lt.mpr (all _ isDepth))
      | refused _ refused => exact .inl ⟨_, refused, rfl⟩
      | noDirectory _ asked => exact .inr ⟨false, asked, rfl⟩
      | glob _ asked reaches =>
        refine .inr ⟨true, asked, ?_⟩
        exact bind_eq_error_iff.mpr (.inl (collect_eq_error_iff.mpr reaches))

end

end Discovery

end UrlScan
