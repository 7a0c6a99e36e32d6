import UrlScan.Proofs.Discovery.Selection

/-!
# Discovery is a filter on sets

What a run finds is the set of the files that the globs select, without those that a rule leaves
out, in the order of their components. So the rules may be taken apart: the globs of two lists find
what either of them finds, the exclude patterns of two lists leave what both of them leave, and a
greatest depth leaves the files that lie no deeper. The order of a list of patterns says nothing.

A run may end with an error instead, so each law also says which runs end with a list. Paths are
compared as they are selected: one that leads up with `..` and down again is another path than the
one that does not, and its depth counts all its names. No file is found below a skipped directory
either way.

Results:
1. `exists_files_iff_of_answers`: exactly when a run ends with a list, whatever it leaves out.
2. `files_scannable`: what holds of each file that is found.
3. `files_scan_append`, `files_exclude_append`, `files_maxDepth`: the rules taken apart.
4. `files_narrowed`: further exclude patterns or a lower depth add no file.
5. `files_reordered`: the order of the patterns, and how often they are given, says nothing.
6. `files_setFilter`: all of these together.
-/

namespace UrlScan.Discovery

variable {fs : FileSystem} {root p : Path} {rules : DiscoveryRules} {found more both : List Path}

/-! ## Which runs end with a list -/

/-- Some list is found if no exclude pattern has an error: the depth is not negative, there is a
directory, every glob can be followed, and every path that is selected can be asked about. -/
theorem exists_files_iff_of_answers (answer : ∀ pattern ∈ rules.exclude, Answers pattern) :
    (∃ found, files fs root rules = .ok found) ↔
      (∀ depth ∈ rules.maxDepth, 0 ≤ depth) ∧ fs.isDirectory root = .ok true ∧
        (∀ glob ∈ globs rules, ∃ selected, Globs fs root glob selected) ∧
        ∀ p, Selects fs root (globs rules) p → ∃ isFile, fs.isFile p = .ok isFile := by
  rw [exists_files_iff]
  constructor
  · intro runs
    refine ⟨runs.depth, runs.directory, runs.globs, fun p selects => ?_⟩
    obtain noFile | ⟨isFile, -⟩ := runs.decides p selects
    exacts [⟨false, noFile⟩, ⟨true, isFile⟩]
  · rintro ⟨depth, directory, globs, asked⟩
    refine ⟨depth, directory, globs, fun p selects => ?_⟩
    obtain ⟨isFile, found⟩ := asked p selects
    cases isFile with
    | false => exact .inl found
    | true => exact .inr ⟨found, isExcluded_answers answer _⟩

/-! ## What is found -/

/-- What holds of a path that is found below a directory. -/
structure Scannable (fs : FileSystem) (root : Path) (maxDepth : Option Int) (p : Path) : Prop where
  further : p = root.further (below root p)
  ne_nil : below root p ≠ []
  isFile : fs.isFile p = .ok true
  /-- No directory that the path names is a skipped one. -/
  directories : ∀ name ∈ (below root p).dropLast, name ∉ skippedDirectories
  /-- No directory between the root and the file is a skipped one, wherever the path leads. -/
  place : ∀ names, fs.resolved p = fs.resolved root ++ names →
    ∀ name ∈ names.dropLast, name ∉ skippedDirectories
  extension : Text.lowercase (Path.extensionOf p.name) ∉ binaryExtensions
  depth : ∀ depth ∈ maxDepth, ((below root p).length : Int) ≤ depth + 1

theorem files_scannable (ran : files fs root rules = .ok found) (member : p ∈ found) :
    Scannable fs root rules.maxDepth p := by
  obtain ⟨runs, -, members⟩ := files_eq_ok_iff.mp ran
  obtain ⟨selects, isFile, notExcluded⟩ := (members p).mp member
  obtain ⟨notSkipped, -⟩ := isExcluded_eq_false_iff.mp notExcluded
  obtain ⟨directories, extension, depth⟩ := isSkipped_eq_false_iff.mp notSkipped
  obtain ⟨names, rfl⟩ := selects.further
  rw [below_further] at directories extension depth
  have nonempty : names ≠ [] := by
    rintro rfl
    rw [Path.further_nil] at isFile
    cases runs.directory.symm.trans (FileSystem.isDirectory_of_isFile isFile)
  refine ⟨by rw [below_further], by rwa [below_further], isFile, by rwa [below_further], ?_, ?_,
    by rwa [below_further]⟩
  · intro between place name inBetween
    exact directories name ((FileSystem.resolved_further isFile place).subset inBetween)
  · rwa [Path.name_further _ nonempty]

/-! ## The globs taken apart -/

theorem selects_append_iff {scan other : List Text} :
    Selects fs root (scan ++ other) p ↔ Selects fs root scan p ∨ Selects fs root other p := by
  unfold Selects
  simp only [List.mem_append, or_and_right, exists_or]

theorem globs_of_ne_nil {scan : List Text} (nonempty : scan ≠ []) :
    globs { rules with scan := scan } = scan :=
  if_neg (by simpa using nonempty)

theorem runs_scan_append_iff {scan other : List Text} (nonempty : scan ≠ [])
    (otherNonempty : other ≠ []) :
    Runs fs root { rules with scan := scan ++ other } ↔
      Runs fs root { rules with scan := scan } ∧ Runs fs root { rules with scan := other } := by
  have together : globs { rules with scan := scan ++ other } = scan ++ other :=
    globs_of_ne_nil (by simp [nonempty])
  constructor
  · rintro ⟨depth, directory, globs, decides⟩
    rw [together] at globs decides
    refine ⟨⟨depth, directory, ?_, ?_⟩, ⟨depth, directory, ?_, ?_⟩⟩
    · rw [globs_of_ne_nil nonempty]
      exact fun glob member => globs glob (List.mem_append_left other member)
    · rw [globs_of_ne_nil nonempty]
      exact fun p selects => decides p (selects_append_iff.mpr (.inl selects))
    · rw [globs_of_ne_nil otherNonempty]
      exact fun glob member => globs glob (List.mem_append_right scan member)
    · rw [globs_of_ne_nil otherNonempty]
      exact fun p selects => decides p (selects_append_iff.mpr (.inr selects))
  · rintro ⟨⟨depth, directory, globs, decides⟩, ⟨-, -, otherGlobs, otherDecides⟩⟩
    rw [globs_of_ne_nil nonempty] at globs decides
    rw [globs_of_ne_nil otherNonempty] at otherGlobs otherDecides
    refine ⟨depth, directory, ?_, ?_⟩
    · rw [together]
      exact fun glob member => (List.mem_append.mp member).elim (globs glob) (otherGlobs glob)
    · rw [together]
      exact fun p selects =>
        (selects_append_iff.mp selects).elim (decides p) (otherDecides p)

/-- The globs of two lists find what either of them finds. -/
theorem files_scan_append {scan other : List Text} (nonempty : scan ≠ [])
    (otherNonempty : other ≠ []) :
    files fs root { rules with scan := scan ++ other } = .ok both ↔
      ∃ found more, files fs root { rules with scan := scan } = .ok found ∧
        files fs root { rules with scan := other } = .ok more ∧
        Increases both ∧ ∀ p, p ∈ both ↔ p ∈ found ∨ p ∈ more := by
  have members {p : Path} :
      Selects fs root (globs { rules with scan := scan ++ other }) p ∧ Keeps fs root rules p ↔
        Selects fs root (globs { rules with scan := scan }) p ∧ Keeps fs root rules p ∨
          Selects fs root (globs { rules with scan := other }) p ∧ Keeps fs root rules p := by
    rw [globs_of_ne_nil (by simp [nonempty]), globs_of_ne_nil nonempty,
      globs_of_ne_nil otherNonempty, selects_append_iff, or_and_right]
  constructor
  · intro ran
    obtain ⟨runs, increases, areBoth⟩ := files_eq_ok_iff.mp ran
    obtain ⟨runsFirst, runsSecond⟩ := (runs_scan_append_iff nonempty otherNonempty).mp runs
    obtain ⟨found, ranFirst⟩ := exists_files_iff.mpr runsFirst
    obtain ⟨more, ranSecond⟩ := exists_files_iff.mpr runsSecond
    refine ⟨found, more, ranFirst, ranSecond, increases, fun p => ?_⟩
    exact (areBoth p).trans (members.trans (or_congr ((files_eq_ok_iff.mp ranFirst).2.2 p).symm
      ((files_eq_ok_iff.mp ranSecond).2.2 p).symm))
  · rintro ⟨found, more, ranFirst, ranSecond, increases, areBoth⟩
    obtain ⟨runsFirst, -, areFound⟩ := files_eq_ok_iff.mp ranFirst
    obtain ⟨runsSecond, -, areMore⟩ := files_eq_ok_iff.mp ranSecond
    refine files_eq_ok_iff.mpr
      ⟨(runs_scan_append_iff nonempty otherNonempty).mpr ⟨runsFirst, runsSecond⟩, increases, ?_⟩
    exact fun p => (areBoth p).trans ((or_congr (areFound p) (areMore p)).trans members.symm)

/-! ## The other rules taken apart -/

/-- A run with other rules about the same globs finds a part of the files. -/
theorem files_filter {others : DiscoveryRules} {keep : Path → Bool}
    (ran : files fs root rules = .ok found) (sameScan : others.scan = rules.scan)
    (depth : ∀ depth ∈ others.maxDepth, 0 ≤ depth)
    (decides : ∀ p, Selects fs root (globs rules) p → Decides fs root others p)
    (keeps : ∀ p, Selects fs root (globs rules) p →
      (Keeps fs root others p ↔ Keeps fs root rules p ∧ keep p = true)) :
    files fs root others = .ok (found.filter keep) := by
  obtain ⟨runs, increases, members⟩ := files_eq_ok_iff.mp ran
  have sameGlobs : globs others = globs rules := by
    rw [globs, globs, sameScan]
  refine files_eq_ok_iff.mpr
    ⟨⟨depth, runs.directory, ?_, ?_⟩, increases.filter keep, fun p => ?_⟩
  · rw [sameGlobs]
    exact runs.globs
  · rw [sameGlobs]
    exact decides
  · rw [sameGlobs, List.mem_filter, members, and_assoc]
    exact and_congr_right fun selects => (keeps p selects).symm

theorem isExcluded_append {names exclude other : List Text} :
    isExcluded { rules with exclude := exclude ++ other } names =
      isExcluded { rules with exclude := exclude } names >>= fun excluded =>
        if excluded then .ok true else isExcluded { rules with exclude := other } names := by
  unfold isExcluded
  split
  · rfl
  · exact isExcludedByAny_append exclude other

theorem Decides.append {exclude other : List Text}
    (decides : Decides fs root { rules with exclude := exclude } p)
    (otherDecides : Decides fs root { rules with exclude := other } p) :
    Decides fs root { rules with exclude := exclude ++ other } p := by
  obtain noFile | ⟨isFile, excluded, found⟩ := decides
  · exact .inl noFile
  · obtain noFile | ⟨-, alsoExcluded, alsoFound⟩ := otherDecides
    · exact .inl noFile
    · rw [Decides, isExcluded_append, found]
      cases excluded with
      | true => exact .inr ⟨isFile, true, rfl⟩
      | false => exact .inr ⟨isFile, alsoExcluded, alsoFound⟩

theorem keeps_append_iff {exclude other : List Text} :
    Keeps fs root { rules with exclude := exclude ++ other } p ↔
      Keeps fs root { rules with exclude := exclude } p ∧
        Keeps fs root { rules with exclude := other } p := by
  simp only [Keeps, isExcluded_eq_false_iff, List.forall_mem_append]
  tauto

/-- The exclude patterns of two lists leave what both of them leave. -/
theorem files_exclude_append {exclude other : List Text}
    (ran : files fs root { rules with exclude := exclude } = .ok found)
    (ranOther : files fs root { rules with exclude := other } = .ok more) :
    files fs root { rules with exclude := exclude ++ other } =
      .ok (found.filter fun p => p ∈ more) := by
  have runs := exists_files_iff.mp ⟨found, ran⟩
  obtain ⟨runsOther, -, areMore⟩ := files_eq_ok_iff.mp ranOther
  refine files_filter ran rfl runs.depth (fun p selects => ?_) fun p selects => ?_
  · exact (runs.decides p selects).append (runsOther.decides p selects)
  · rw [keeps_append_iff, decide_eq_true_iff, areMore]
    exact and_congr_right fun _ => (and_iff_right selects).symm

theorem isSkipped_depth_eq_false_iff {names : List Text} {depth : Nat} :
    isSkipped (some (depth : Int)) names = false ↔
      isSkipped none names = false ∧ names.length ≤ depth + 1 := by
  simp only [isSkipped_eq_false_iff, Option.mem_some_iff, forall_eq']
  norm_cast
  simp [and_assoc]

/-- A greatest depth leaves the files that lie no deeper. -/
theorem files_maxDepth (ran : files fs root { rules with maxDepth := none } = .ok found)
    (depth : Nat) :
    files fs root { rules with maxDepth := some (depth : Int) } =
      .ok (found.filter fun p => (below root p).length ≤ depth + 1) := by
  have runs := exists_files_iff.mp ⟨found, ran⟩
  refine files_filter ran rfl (fun other isDepth => ?_) (fun p selects => ?_) fun p selects => ?_
  · cases isDepth
    exact Int.natCast_nonneg depth
  · obtain noFile | ⟨isFile, excluded, found⟩ := runs.decides p selects
    · exact .inl noFile
    · refine .inr ⟨isFile, ?_⟩
      unfold isExcluded at found ⊢
      split
      · exact ⟨true, rfl⟩
      next notSkipped =>
        rw [Bool.not_eq_true, isSkipped_depth_eq_false_iff] at notSkipped
        rw [notSkipped.1] at found
        exact ⟨excluded, found⟩
  · simp only [Keeps, isExcluded_eq_false_iff, isSkipped_depth_eq_false_iff, decide_eq_true_eq]
    tauto

/-! ## Other rules about the same globs -/

/-- Further exclude patterns or a lower depth add no file. -/
theorem files_narrowed {narrower : DiscoveryRules} {fewer : List Path}
    (sameScan : narrower.scan = rules.scan) (excludes : rules.exclude ⊆ narrower.exclude)
    (depths : ∀ depth ∈ rules.maxDepth, ∃ lower ∈ narrower.maxDepth, lower ≤ depth)
    (ran : files fs root rules = .ok found) (ranNarrower : files fs root narrower = .ok fewer) :
    ∀ p ∈ fewer, p ∈ found := by
  intro p member
  obtain ⟨-, -, members⟩ := files_eq_ok_iff.mp ran
  obtain ⟨-, -, areFewer⟩ := files_eq_ok_iff.mp ranNarrower
  obtain ⟨selects, isFile, notExcluded⟩ := (areFewer p).mp member
  obtain ⟨notSkipped, others⟩ := isExcluded_eq_false_iff.mp notExcluded
  obtain ⟨directories, extension, depth⟩ := isSkipped_eq_false_iff.mp notSkipped
  rw [globs, sameScan] at selects
  refine (members p).mpr ⟨selects, isFile, isExcluded_eq_false_iff.mpr ⟨?_, ?_⟩⟩
  · refine isSkipped_eq_false_iff.mpr ⟨directories, extension, fun bound isBound => ?_⟩
    obtain ⟨lower, isLower, below⟩ := depths bound isBound
    exact (depth lower isLower).trans (Int.add_le_add_right below 1)
  · exact fun pattern isPattern => others pattern (excludes isPattern)

/-- Two rules have the same globs, the same exclude patterns and the same depth, in any order and
however often they are given. -/
structure SameRules (rules others : DiscoveryRules) : Prop where
  scan : ∀ glob, glob ∈ rules.scan ↔ glob ∈ others.scan
  exclude : ∀ pattern, pattern ∈ rules.exclude ↔ pattern ∈ others.exclude
  maxDepth : rules.maxDepth = others.maxDepth

theorem SameRules.globs {others : DiscoveryRules} (same : SameRules rules others) (glob : Text) :
    glob ∈ Discovery.globs rules ↔ glob ∈ Discovery.globs others := by
  have empty : rules.scan.isEmpty = true ↔ others.scan.isEmpty = true := by
    simp only [List.isEmpty_iff, List.eq_nil_iff_forall_not_mem, same.scan]
  unfold Discovery.globs
  by_cases none : rules.scan.isEmpty = true
  · rw [if_pos none, if_pos (empty.mp none)]
  · rw [if_neg none, if_neg (mt empty.mpr none)]
    exact same.scan glob

theorem SameRules.selects {others : DiscoveryRules} (same : SameRules rules others) :
    Selects fs root (Discovery.globs rules) p ↔ Selects fs root (Discovery.globs others) p :=
  exists_congr fun glob => and_congr_left fun _ => same.globs glob

theorem SameRules.keeps {others : DiscoveryRules} (same : SameRules rules others) :
    Keeps fs root rules p ↔ Keeps fs root others p := by
  simp only [Keeps, isExcluded_eq_false_iff, same.exclude, same.maxDepth]

/-- The order of the patterns, and how often they are given, says nothing. -/
theorem files_reordered {others : DiscoveryRules} (same : SameRules rules others)
    (ran : files fs root rules = .ok found) (ranOthers : files fs root others = .ok more) :
    found = more := by
  obtain ⟨-, increases, members⟩ := files_eq_ok_iff.mp ran
  obtain ⟨-, moreIncrease, areMore⟩ := files_eq_ok_iff.mp ranOthers
  refine increases.ext moreIncrease fun p => ?_
  rw [members, areMore, same.selects, same.keeps]

/-- If no exclude pattern has an error, the run with the patterns in another order ends with a list
as well. -/
theorem files_reordered_of_answers {others : DiscoveryRules} (same : SameRules rules others)
    (answer : ∀ pattern ∈ rules.exclude, Answers pattern) (ran : files fs root rules = .ok found) :
    files fs root others = .ok found := by
  obtain ⟨depth, directory, globs, asked⟩ :=
    (exists_files_iff_of_answers answer).mp ⟨found, ran⟩
  have otherAnswers : ∀ pattern ∈ others.exclude, Answers pattern :=
    fun pattern member => answer pattern ((same.exclude pattern).mpr member)
  obtain ⟨more, ranOthers⟩ : ∃ more, files fs root others = .ok more :=
    (exists_files_iff_of_answers otherAnswers).mpr
      ⟨same.maxDepth ▸ depth, directory,
        fun glob member => globs glob ((same.globs glob).mpr member),
        fun p selects => asked p (same.selects.mpr selects)⟩
  rw [ranOthers, files_reordered same ran ranOthers]

/-! ## All of it -/

/-- Discovery is a filter on sets: the parts say which runs end with a list, what the list is and
what holds of its members, what the globs of two lists find, what the exclude patterns of two lists
leave, what a greatest depth leaves, and that further rules add nothing and the order of the
patterns says nothing. -/
theorem files_setFilter (fs : FileSystem) (root : Path) (rules : DiscoveryRules) :
    let run := files fs root
    ((∀ pattern ∈ rules.exclude, Answers pattern) →
      ((∃ found, run rules = .ok found) ↔
        (∀ depth ∈ rules.maxDepth, 0 ≤ depth) ∧ fs.isDirectory root = .ok true ∧
          (∀ glob ∈ globs rules, ∃ selected, Globs fs root glob selected) ∧
          ∀ p, Selects fs root (globs rules) p → ∃ isFile, fs.isFile p = .ok isFile)) ∧
    (∀ found, run rules = .ok found →
      Increases found ∧
        (∀ p, p ∈ found ↔ Selects fs root (globs rules) p ∧ Keeps fs root rules p) ∧
        ∀ p ∈ found, Scannable fs root rules.maxDepth p) ∧
    (∀ scan ≠ [], ∀ other ≠ [], ∀ both,
      run { rules with scan := scan ++ other } = .ok both ↔
        ∃ found more, run { rules with scan := scan } = .ok found ∧
          run { rules with scan := other } = .ok more ∧
          Increases both ∧ ∀ p, p ∈ both ↔ p ∈ found ∨ p ∈ more) ∧
    (∀ exclude other found more, run { rules with exclude := exclude } = .ok found →
      run { rules with exclude := other } = .ok more →
      run { rules with exclude := exclude ++ other } = .ok (found.filter fun p => p ∈ more)) ∧
    (∀ found, run { rules with maxDepth := none } = .ok found → ∀ depth : Nat,
      run { rules with maxDepth := some (depth : Int) } =
        .ok (found.filter fun p => (below root p).length ≤ depth + 1)) ∧
    (∀ narrower : DiscoveryRules, narrower.scan = rules.scan → rules.exclude ⊆ narrower.exclude →
      (∀ depth ∈ rules.maxDepth, ∃ lower ∈ narrower.maxDepth, lower ≤ depth) →
      ∀ found fewer, run rules = .ok found → run narrower = .ok fewer → ∀ p ∈ fewer, p ∈ found) ∧
    ∀ others, SameRules rules others → ∀ found, run rules = .ok found →
      (∀ more, run others = .ok more → found = more) ∧
        ((∀ pattern ∈ rules.exclude, Answers pattern) → run others = .ok found) := by
  intro run
  refine ⟨exists_files_iff_of_answers, fun found ran => ?_, ?_, ?_, ?_, ?_, ?_⟩
  · obtain ⟨-, increases, members⟩ := files_eq_ok_iff.mp ran
    exact ⟨increases, members, fun p member => files_scannable ran member⟩
  · exact fun scan nonempty other otherNonempty both => files_scan_append nonempty otherNonempty
  · exact fun exclude other found more => files_exclude_append
  · exact fun found => files_maxDepth
  · exact fun narrower sameScan excludes depths found fewer ran =>
      files_narrowed sameScan excludes depths ran
  · intro others same found ran
    exact ⟨fun more => files_reordered same ran,
      fun answer => files_reordered_of_answers same answer ran⟩

/-- A tree with a file, directories with files in them, and a directory that is skipped. -/
def sample : FileSystem :=
  ⟨.directory
    [("README.md".toList, .file []),
     ("src".toList, .directory
       [("app.js".toList, .file []), ("lib".toList, .directory [("util.py".toList, .file [])])]),
     (".git".toList, .directory [("config".toList, .file [])])], []⟩

def top : Path := ⟨['/'], []⟩

theorem files_sample {paths : List Path} (unlimited : rules.maxDepth = none)
    (collected : (collect sample rules top (globs rules)).toOption = some paths)
    (increases : Increases paths) : files sample top rules = .ok paths :=
  files_of_collect (by simp [unlimited]) rfl collected increases

/-- In the sample, below the top: everything, what two exclude patterns leave in either order, the
files that are at most one directory deep, and what two globs find. -/
theorem files_setFilter_sample :
    let run := files sample top
    let readme := top.further ["README.md".toList]
    let app := top.further ["src".toList, "app.js".toList]
    let util := top.further ["src".toList, "lib".toList, "util.py".toList]
    run ⟨[], [], none⟩ = .ok [readme, app, util] ∧ Scannable sample top none util ∧
      (∀ glob ∈ [everyFile], ∃ selected, Globs sample top glob selected) ∧
      run ⟨[], ["lib".toList] ++ ["*.md".toList], none⟩ = .ok [app] ∧
      run ⟨[], ["*.md".toList, "lib".toList], none⟩ = .ok [app] ∧
      run ⟨[], [], some 1⟩ = .ok [readme, app] ∧ (∀ p ∈ [readme, app], p ∈ [readme, app, util]) ∧
      ∃ both, run ⟨["*".toList] ++ ["src/app.js".toList], [], none⟩ = .ok both ∧
        ∀ p, p ∈ both ↔ p ∈ [readme] ∨ p ∈ [app] := by
  intro run readme app util
  have everything : run ⟨[], [], none⟩ = .ok [readme, app, util] :=
    files_sample rfl (by decide +kernel) (by decide +kernel)
  have noLib : run ⟨[], ["lib".toList], none⟩ = .ok [readme, app] :=
    files_sample rfl (by decide +kernel) (by decide +kernel)
  have noMarkdown : run ⟨[], ["*.md".toList], none⟩ = .ok [app, util] :=
    files_sample rfl (by decide +kernel) (by decide +kernel)
  have atTop : run ⟨["*".toList], [], none⟩ = .ok [readme] :=
    files_sample rfl (by decide +kernel) (by decide +kernel)
  have named : run ⟨["src/app.js".toList], [], none⟩ = .ok [app] :=
    files_sample rfl (by decide +kernel) (by decide +kernel)
  obtain ⟨returns, spec, union, exclude, depth, narrowed, -⟩ :=
    files_setFilter sample top ⟨[], [], none⟩
  have both : run ⟨[], ["lib".toList] ++ ["*.md".toList], none⟩ = .ok [app] :=
    exclude ["lib".toList] ["*.md".toList] _ _ noLib noMarkdown
  obtain ⟨-, -, -, -, -, -, reordered⟩ :=
    files_setFilter sample top ⟨[], ["lib".toList] ++ ["*.md".toList], none⟩
  obtain ⟨-, -, globs, -⟩ := (returns (by simp)).mp ⟨_, everything⟩
  refine ⟨everything, (spec _ everything).2.2 util (by simp), globs, both, ?_, ?_, ?_, ?_⟩
  · have same : SameRules ⟨[], ["lib".toList] ++ ["*.md".toList], none⟩
        ⟨[], ["*.md".toList, "lib".toList], none⟩ :=
      ⟨fun _ => Iff.rfl, fun pattern => by simp [or_comm], rfl⟩
    exact (reordered _ same _ both).2 (by decide)
  · exact depth _ everything 1
  · exact narrowed ⟨[], ["lib".toList], none⟩ rfl (List.nil_subset _) (by simp) _ _ everything noLib
  · obtain ⟨both, ran⟩ : ∃ both, run ⟨["*".toList] ++ ["src/app.js".toList], [], none⟩ = .ok both :=
      ⟨[readme, app], files_sample rfl (by decide +kernel) (by decide +kernel)⟩
    obtain ⟨found, more, isFound, isMore, -, members⟩ := (union _ (by simp) _ (by simp) both).mp ran
    cases isFound.symm.trans atTop
    cases isMore.symm.trans named
    exact ⟨both, ran, members⟩

end UrlScan.Discovery
