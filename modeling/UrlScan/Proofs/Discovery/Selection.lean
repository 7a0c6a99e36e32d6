import UrlScan.Discovery.Basic
import UrlScan.Proofs.FileSystem.Resolved
import UrlScan.Proofs.Outcome
import UrlScan.Proofs.Text.Order

/-!
# What a run finds

A run goes through the globs and through the paths that each of them selects, and ends with an error
at the first step that has one. If no step has, it does not matter in which order the steps are
taken: a path is found if some glob selects it, it is that of a file, and the rules do not leave the
file out. The order of the list is that of the components of the paths, so these paths determine the
whole result.

Results:
1. `Glob.select_further`: a glob selects paths that go on from the directory it starts at.
2. `pathAtMost_iff`: the order of paths is that of their components.
3. `isExcluded_eq_false_iff`: a file is not left out if it is not skipped and no exclude pattern is
   about it.
4. `files_eq_ok_iff`: exactly when a run ends with a list, and with which one.
-/

namespace UrlScan

/-- A selection that is not refused is all of its paths. -/
theorem Selection.eq_of_ends {s : Selection} (ends : s.ends = .ok ()) : s = ⟨s.paths, none⟩ := by
  obtain ⟨paths, refusal⟩ := s
  cases refusal with
  | none => rfl
  | some error => cases ends

namespace Glob

mutual
theorem directories_further {path p : Path} :
    (tree : FileTree) → p ∈ directories path tree → ∃ names, p = path.further names
  | .file _, member => by cases member
  | .directory entries, member => by
    obtain rfl | inside := List.mem_cons.mp member
    · exact ⟨[], p.further_nil.symm⟩
    · exact directoriesIn_further entries inside

theorem directoriesIn_further {path p : Path} :
    (entries : List (Text × FileTree)) → p ∈ directoriesIn path entries →
      ∃ names, p = path.further names
  | [], member => by cases member
  | (name, tree) :: rest, member => by
    obtain here | later := List.mem_append.mp member
    · obtain ⟨names, rfl⟩ := directories_further tree here
      exact ⟨name :: names, path.child_further names name⟩
    · exact directoriesIn_further rest later
end

theorem mem_join {selections : List Selection} {p : Path}
    (member : p ∈ (Selection.join selections).paths) :
    ∃ selection ∈ selections, p ∈ selection.paths := by
  induction selections with
  | nil => cases member
  | cons first rest ih =>
    rw [List.exists_mem_cons_iff]
    rw [Selection.join] at member
    split at member
    next => exact .inl member
    next => exact (List.mem_append.mp member).imp_right ih

variable {fs : FileSystem} {directoriesOnly : Bool}

/-- A glob selects paths that go on from the directory it starts at. -/
theorem select_further {components : List GlobComponent} {base p : Path}
    (member : p ∈ (select fs directoriesOnly components base).paths) :
    ∃ names, p = base.further names := by
  induction components generalizing base with
  | nil =>
    obtain rfl := List.mem_singleton.mp member
    exact ⟨[], p.further_nil.symm⟩
  | cons component rest ih =>
    cases component with
    | name name =>
      simp only [select] at member
      split at member
      next => cases member
      next =>
        split at member
        next =>
          obtain ⟨names, rfl⟩ := ih member
          exact ⟨name :: names, base.child_further names name⟩
        next => cases member
    | wildcard pieces =>
      simp only [select] at member
      split at member
      next => cases member
      next =>
        obtain ⟨selection, inSelections, inSelection⟩ := mem_join member
        obtain ⟨entry, -, rfl⟩ := List.mem_map.mp inSelections
        obtain ⟨names, rfl⟩ := ih inSelection
        exact ⟨entry.1 :: names, base.child_further names entry.1⟩
    | anyDepth =>
      simp only [select] at member
      split at member
      next => cases member
      next =>
        obtain ⟨selection, inSelections, inSelection⟩ := mem_join (List.mem_eraseDups.mp member)
        obtain ⟨directory, inTree, rfl⟩ := List.mem_map.mp inSelections
        obtain ⟨upper, rfl⟩ := directories_further _ inTree
        obtain ⟨names, rfl⟩ := ih inSelection
        exact ⟨upper ++ names, base.further_further upper names⟩

end Glob

namespace Discovery

/-! ## The order of paths -/

theorem componentsBefore_iff_lt {s t : List Text} : componentsBefore s t = true ↔ s < t := by
  induction s generalizing t with
  | nil => cases t <;> simp [componentsBefore]
  | cons a s ih =>
    cases t with
    | nil => simp [componentsBefore]
    | cons b t => simp [componentsBefore, Text.before_iff_lt, List.cons_lt_cons_iff, ih]

theorem pathAtMost_iff {p q : Path} : pathAtMost p q = true ↔ p.components ≤ q.components := by
  rw [pathAtMost, Bool.not_eq_true', ← Bool.not_eq_true, componentsBefore_iff_lt, not_lt]

/-- The paths of a list stand in the order of their components, each once. -/
def Increases (paths : List Path) : Prop :=
  paths.Pairwise fun p q => p.components < q.components

instance (paths : List Path) : Decidable (Increases paths) :=
  inferInstanceAs (Decidable (paths.Pairwise _))

theorem Increases.filter {paths : List Path} (increases : Increases paths) (keep : Path → Bool) :
    Increases (paths.filter keep) :=
  List.Pairwise.filter keep increases

theorem Increases.ext {paths others : List Path} (increases : Increases paths)
    (othersIncrease : Increases others) (same : ∀ p, p ∈ paths ↔ p ∈ others) : paths = others :=
  eq_of_increases increases othersIncrease same

/-! ## The rules -/

section
variable {names : List Text} {rules : DiscoveryRules}

/-- The names behind a directory that a path goes on by. -/
def below (root p : Path) : List Text :=
  p.names.drop root.names.length

@[simp] theorem below_further (root : Path) (names : List Text) :
    below root (root.further names) = names :=
  root.drop_further names

/-- An exclude pattern has components to compare a path with, or it is about no relative path. -/
def Answers (pattern : Text) : Prop :=
  (Path.parse pattern).isAbsolute = true ∨ (Path.parse pattern).names ≠ []

instance (pattern : Text) : Decidable (Answers pattern) :=
  inferInstanceAs (Decidable (_ ∨ _))

theorem matchesFromRight_answers {pattern : Text} (answers : Answers pattern) :
    ∃ isMatch, matchesFromRight names pattern = .ok isMatch := by
  unfold matchesFromRight
  dsimp only
  split
  · exact ⟨false, rfl⟩
  next relative =>
    rw [if_neg]
    · exact ⟨_, rfl⟩
    · simpa using answers.resolve_left relative

/-- What an exclude pattern is about, as one condition: all but the first test are made together. -/
theorem isExcludedBy_eq (names : List Text) (pattern : Text) :
    isExcludedBy names pattern =
      if Wildcard.accepts pattern (Text.join ['/'] names) then .ok true
      else matchesFromRight names pattern >>= fun isMatch =>
        .ok (isMatch ||
          (Text.startsWith pattern "**/".toList
            && Wildcard.accepts (pattern.drop 3) (Text.join ['/'] names)) ||
          (!(Text.trimEnd (· == '/') pattern).isEmpty
            && names.dropLast.contains (Text.trimEnd (· == '/') pattern))) := by
  unfold isExcludedBy
  dsimp only
  split
  · rfl
  · refine bind_congr fun isMatch => ?_
    cases isMatch
    · simp only [Bool.false_or, Bool.false_eq_true, if_false]
      split
      next prefixed => rw [prefixed]; rfl
      next other => rw [Bool.not_eq_true] at other; rw [other]; rfl
    · rfl

theorem isExcludedBy_answers {pattern : Text} (answers : Answers pattern) :
    ∃ excluded, isExcludedBy names pattern = .ok excluded := by
  obtain ⟨isMatch, found⟩ := @matchesFromRight_answers names _ answers
  rw [isExcludedBy_eq, found]
  split <;> exact ⟨_, rfl⟩

theorem isExcludedByAny_answers {patterns : List Text}
    (answer : ∀ pattern ∈ patterns, Answers pattern) :
    ∃ excluded, isExcludedByAny names patterns = .ok excluded := by
  induction patterns with
  | nil => exact ⟨false, rfl⟩
  | cons pattern rest ih =>
    rw [List.forall_mem_cons] at answer
    obtain ⟨excluded, found⟩ := @isExcludedBy_answers names _ answer.1
    rw [isExcludedByAny, found]
    cases excluded with
    | true => exact ⟨true, rfl⟩
    | false => exact ih answer.2

/-- No file makes rules whose exclude patterns have no error end with one. -/
theorem isExcluded_answers (answer : ∀ pattern ∈ rules.exclude, Answers pattern)
    (names : List Text) : ∃ excluded, isExcluded rules names = .ok excluded := by
  unfold isExcluded
  split
  exacts [⟨true, rfl⟩, isExcludedByAny_answers answer]

theorem isExcludedByAny_append (patterns more : List Text) :
    isExcludedByAny names (patterns ++ more) =
      isExcludedByAny names patterns >>= fun excluded =>
        if excluded then .ok true else isExcludedByAny names more := by
  induction patterns with
  | nil => rfl
  | cons pattern rest ih =>
    rw [List.cons_append, isExcludedByAny, isExcludedByAny, bind_assoc]
    refine bind_congr fun excluded => ?_
    cases excluded with
    | true => rfl
    | false => exact ih

theorem isExcludedByAny_eq_false_iff {patterns : List Text} :
    isExcludedByAny names patterns = .ok false ↔
      ∀ pattern ∈ patterns, isExcludedBy names pattern = .ok false := by
  induction patterns with
  | nil => simp [isExcludedByAny]
  | cons pattern rest ih =>
    rw [List.forall_mem_cons, ← ih, isExcludedByAny, bind_eq_ok_iff]
    constructor
    · rintro ⟨excluded, isExcluded, others⟩
      cases excluded with
      | true => cases others
      | false => exact ⟨isExcluded, others⟩
    · rintro ⟨isExcluded, others⟩
      exact ⟨false, isExcluded, others⟩

/-- A file is not left out if it is not skipped and no exclude pattern is about it. -/
theorem isExcluded_eq_false_iff :
    isExcluded rules names = .ok false ↔
      isSkipped rules.maxDepth names = false ∧
        ∀ pattern ∈ rules.exclude, isExcludedBy names pattern = .ok false := by
  rw [← isExcludedByAny_eq_false_iff, isExcluded]
  cases isSkipped rules.maxDepth names <;> simp

theorem isSkipped_eq_false_iff {maxDepth : Option Int} :
    isSkipped maxDepth names = false ↔
      (∀ name ∈ names.dropLast, name ∉ skippedDirectories) ∧
      Text.lowercase (Path.extensionOf (names.getLastD [])) ∉ binaryExtensions ∧
      ∀ depth ∈ maxDepth, (names.length : Int) ≤ depth + 1 := by
  rw [isSkipped, Bool.or_eq_false_iff, Bool.or_eq_false_iff, List.any_eq_false, and_assoc]
  refine and_congr (by simp) (and_congr (by simp) ?_)
  cases maxDepth with
  | none => simp
  | some depth =>
    simp only [Option.any_some, Option.mem_some_iff, forall_eq', decide_eq_false_iff_not]
    omega

end

/-! ## Runs -/

/-- The globs of a run. -/
def globs (rules : DiscoveryRules) : List Text :=
  if rules.scan.isEmpty then [everyFile] else rules.scan

section
variable (fs : FileSystem) (root : Path) (rules : DiscoveryRules)

/-- A glob can be followed to its end, and these are the paths it selects. -/
def Globs (glob : Text) (selected : List Path) : Prop :=
  ∃ parsed, Glob.parse glob = .ok parsed ∧ parsed.selection fs root = ⟨selected, none⟩

/-- One of the globs selects a path. -/
def Selects (globs : List Text) (p : Path) : Prop :=
  ∃ glob ∈ globs, ∃ selected, Globs fs root glob selected ∧ p ∈ selected

/-- A path is that of a file, and the rules do not leave it out. -/
def Keeps (p : Path) : Prop :=
  fs.isFile p = .ok true ∧ isExcluded rules (below root p) = .ok false

/-- A path can be asked about, and if it is that of a file, the rules say whether it is left out. -/
def Decides (p : Path) : Prop :=
  fs.isFile p = .ok false ∨
    fs.isFile p = .ok true ∧ ∃ excluded, isExcluded rules (below root p) = .ok excluded

/-- No step of a run has an error. -/
structure Runs : Prop where
  depth : ∀ depth ∈ rules.maxDepth, 0 ≤ depth
  directory : fs.isDirectory root = .ok true
  globs : ∀ glob ∈ globs rules, ∃ selected, Globs fs root glob selected
  decides : ∀ p, Selects fs root (Discovery.globs rules) p → Decides fs root rules p

end

variable {fs : FileSystem} {root p : Path} {rules : DiscoveryRules} {paths kept found : List Path}

theorem Globs.unique {glob : Text} {selected others : List Path}
    (first : Globs fs root glob selected) (second : Globs fs root glob others) :
    selected = others := by
  obtain ⟨parsed, isParsed, selects⟩ := first
  obtain ⟨other, isOther, otherSelects⟩ := second
  rw [isParsed] at isOther
  cases isOther
  rw [selects] at otherSelects
  cases otherSelects
  rfl

theorem Selects.further {globs : List Text} (selects : Selects fs root globs p) :
    ∃ names, p = root.further names := by
  obtain ⟨glob, -, selected, ⟨parsed, -, selects⟩, member⟩ := selects
  have inSelection : p ∈ (parsed.selection fs root).paths := by rwa [selects]
  exact Glob.select_further inSelection

theorem Decides.keeps_or (decides : Decides fs root rules p) :
    Keeps fs root rules p ∨ fs.isFile p = .ok false ∨
      fs.isFile p = .ok true ∧ isExcluded rules (below root p) = .ok true := by
  obtain noFile | ⟨isFile, excluded, isExcluded⟩ := decides
  · exact .inr (.inl noFile)
  · cases excluded with
    | true => exact .inr (.inr ⟨isFile, isExcluded⟩)
    | false => exact .inl ⟨isFile, isExcluded⟩

theorem keepFiles_cons (path : Path) :
    keepFiles fs rules root (path :: paths) =
      (fs.isFile path).mapError .refused >>= fun isFile =>
        (if isFile then isExcluded rules (below root path) else .ok true) >>= fun excluded =>
          keepFiles fs rules root paths >>= fun more =>
            .ok (if excluded then more else path :: more) := by
  rw [keepFiles]
  refine bind_congr fun isFile => ?_
  cases isFile <;> rfl

/-- One path is kept or passed over, and the others are gone through. -/
theorem keepFiles_cons_eq_ok_iff {path : Path} :
    keepFiles fs rules root (path :: paths) = .ok kept ↔
      Decides fs root rules path ∧ ∃ more, keepFiles fs rules root paths = .ok more ∧
        (Keeps fs root rules path ∧ kept = path :: more ∨
          ¬Keeps fs root rules path ∧ kept = more) := by
  simp only [keepFiles_cons, bind_eq_ok_iff, mapError_eq_ok_iff, Except.ok.injEq]
  constructor
  · rintro ⟨isFile, asked, excluded, found, more, areMore, rfl⟩
    cases isFile with
    | false =>
      cases found
      refine ⟨.inl asked, more, areMore, .inr ⟨fun keeps => ?_, rfl⟩⟩
      cases keeps.1.symm.trans asked
    | true =>
      refine ⟨.inr ⟨asked, excluded, found⟩, more, areMore, ?_⟩
      cases excluded with
      | false => exact .inl ⟨⟨asked, found⟩, rfl⟩
      | true =>
        refine .inr ⟨fun keeps => ?_, rfl⟩
        cases keeps.2.symm.trans found
  · rintro ⟨decides, more, areMore, isKept⟩
    obtain keeps | noFile | ⟨isFile, excluded⟩ := decides.keeps_or
    · obtain ⟨-, rfl⟩ | ⟨not, -⟩ := isKept
      · exact ⟨true, keeps.1, false, keeps.2, more, areMore, rfl⟩
      · exact absurd keeps not
    · obtain ⟨keeps, -⟩ | ⟨-, rfl⟩ := isKept
      · cases keeps.1.symm.trans noFile
      · exact ⟨false, noFile, true, rfl, kept, areMore, rfl⟩
    · obtain ⟨keeps, -⟩ | ⟨-, rfl⟩ := isKept
      · cases keeps.2.symm.trans excluded
      · exact ⟨true, isFile, true, excluded, kept, areMore, rfl⟩

theorem exists_keepFiles_iff :
    (∃ kept, keepFiles fs rules root paths = .ok kept) ↔
      ∀ p ∈ paths, Decides fs root rules p := by
  induction paths with
  | nil => simp [keepFiles]
  | cons path paths ih =>
    rw [List.forall_mem_cons, ← ih]
    constructor
    · rintro ⟨kept, ran⟩
      obtain ⟨decides, more, areMore, -⟩ := keepFiles_cons_eq_ok_iff.mp ran
      exact ⟨decides, more, areMore⟩
    · rintro ⟨decides, more, areMore⟩
      by_cases keeps : Keeps fs root rules path
      · exact ⟨path :: more,
          keepFiles_cons_eq_ok_iff.mpr ⟨decides, more, areMore, .inl ⟨keeps, rfl⟩⟩⟩
      · exact ⟨more, keepFiles_cons_eq_ok_iff.mpr ⟨decides, more, areMore, .inr ⟨keeps, rfl⟩⟩⟩

theorem mem_keepFiles (ran : keepFiles fs rules root paths = .ok kept) :
    p ∈ kept ↔ p ∈ paths ∧ Keeps fs root rules p := by
  induction paths generalizing kept with
  | nil =>
    cases ran
    simp
  | cons path paths ih =>
    obtain ⟨-, more, areMore, ⟨keeps, rfl⟩ | ⟨not, rfl⟩⟩ := keepFiles_cons_eq_ok_iff.mp ran
    · rw [List.mem_cons, List.mem_cons, ih areMore]
      constructor
      · rintro (rfl | ⟨member, kept⟩)
        exacts [⟨.inl rfl, keeps⟩, ⟨.inr member, kept⟩]
      · rintro ⟨rfl | member, kept⟩
        exacts [.inl rfl, .inr ⟨member, kept⟩]
    · rw [List.mem_cons, ih areMore]
      constructor
      · exact fun ⟨member, kept⟩ => ⟨.inr member, kept⟩
      · rintro ⟨rfl | member, kept⟩
        exacts [absurd kept not, ⟨member, kept⟩]

/-- What one glob selects is gone through, and then what the others select. -/
theorem collect_cons_eq_ok_iff {glob : Text} {rest : List Text} :
    collect fs rules root (glob :: rest) = .ok found ↔
      ∃ selected, Globs fs root glob selected ∧
        ∃ kept, keepFiles fs rules root selected = .ok kept ∧
          ∃ more, collect fs rules root rest = .ok more ∧ found = kept ++ more := by
  simp only [collect, bind_eq_ok_iff, mapError_eq_ok_iff, Globs]
  constructor
  · rintro ⟨parsed, isParsed, kept, areKept, ⟨⟩, ends, more, areMore, together⟩
    cases together
    exact ⟨_, ⟨parsed, isParsed, Selection.eq_of_ends ends⟩, kept, areKept, more, areMore, rfl⟩
  · rintro ⟨selected, ⟨parsed, isParsed, selects⟩, kept, areKept, more, areMore, rfl⟩
    exact ⟨parsed, isParsed, kept, by rwa [selects], (), by rw [selects]; rfl, more, areMore, rfl⟩

theorem selects_cons_iff {glob : Text} {rest : List Text} {selected : List Path}
    (globs : Globs fs root glob selected) :
    Selects fs root (glob :: rest) p ↔ p ∈ selected ∨ Selects fs root rest p := by
  unfold Selects
  rw [List.exists_mem_cons_iff]
  refine or_congr_left ⟨?_, fun member => ⟨selected, globs, member⟩⟩
  rintro ⟨others, otherGlobs, member⟩
  exact globs.unique otherGlobs ▸ member

theorem exists_collect_iff {globs : List Text} :
    (∃ found, collect fs rules root globs = .ok found) ↔
      (∀ glob ∈ globs, ∃ selected, Globs fs root glob selected) ∧
        ∀ p, Selects fs root globs p → Decides fs root rules p := by
  induction globs with
  | nil => simp [collect, Selects]
  | cons glob rest ih =>
    rw [List.forall_mem_cons]
    constructor
    · rintro ⟨found, ran⟩
      obtain ⟨selected, globs, kept, areKept, more, areMore, -⟩ := collect_cons_eq_ok_iff.mp ran
      obtain ⟨others, decide⟩ := ih.mp ⟨more, areMore⟩
      refine ⟨⟨⟨selected, globs⟩, others⟩, fun p selects => ?_⟩
      obtain here | later := (selects_cons_iff globs).mp selects
      · exact exists_keepFiles_iff.mp ⟨kept, areKept⟩ p here
      · exact decide p later
    · rintro ⟨⟨⟨selected, globs⟩, others⟩, decide⟩
      have selects {p : Path} := @selects_cons_iff fs root p glob rest selected globs
      obtain ⟨kept, areKept⟩ :=
        exists_keepFiles_iff.mpr fun p member => decide p (selects.mpr (.inl member))
      obtain ⟨more, areMore⟩ := ih.mpr ⟨others, fun p later => decide p (selects.mpr (.inr later))⟩
      exact ⟨kept ++ more,
        collect_cons_eq_ok_iff.mpr ⟨selected, globs, kept, areKept, more, areMore, rfl⟩⟩

theorem mem_collect {globs : List Text} (ran : collect fs rules root globs = .ok found) :
    p ∈ found ↔ Selects fs root globs p ∧ Keeps fs root rules p := by
  induction globs generalizing found with
  | nil =>
    cases ran
    simp [Selects]
  | cons glob rest ih =>
    obtain ⟨selected, globs, kept, areKept, more, areMore, rfl⟩ := collect_cons_eq_ok_iff.mp ran
    rw [List.mem_append, mem_keepFiles areKept, ih areMore, selects_cons_iff globs, or_and_right]

/-- The components of paths that go on from one directory tell them apart. -/
theorem eq_of_components {q : Path} (further : ∃ names, p = root.further names)
    (others : ∃ names, q = root.further names) (same : p.components = q.components) : p = q := by
  obtain ⟨names, rfl⟩ := further
  obtain ⟨more, rfl⟩ := others
  rw [Path.components_further, Path.components_further, List.append_cancel_left_eq] at same
  rw [same]

theorem files_eq_ok :
    files fs root rules = .ok found ↔
      (∀ depth ∈ rules.maxDepth, 0 ≤ depth) ∧ fs.isDirectory root = .ok true ∧
        ∃ paths, collect fs rules root (globs rules) = .ok paths ∧
          found = paths.eraseDups.mergeSort pathAtMost := by
  have depths : rules.maxDepth.any (· < 0) = true ↔ ¬∀ depth ∈ rules.maxDepth, 0 ≤ depth := by
    cases rules.maxDepth <;> simp
  unfold files
  by_cases negative : rules.maxDepth.any (· < 0) = true
  · rw [if_pos negative]
    exact iff_of_false (fun ran => by cases ran) fun ⟨ok, _⟩ => depths.mp negative ok
  · rw [if_neg negative, and_iff_right (not_not.mp (mt depths.mpr negative))]
    refine bind_eq_ok_iff.trans ?_
    simp only [mapError_eq_ok_iff]
    constructor
    · rintro ⟨isDirectory, asked, ran⟩
      cases isDirectory with
      | false => cases ran
      | true =>
        obtain ⟨paths, collected, sorted⟩ := ok_of_bind ran
        cases sorted
        exact ⟨asked, paths, collected, rfl⟩
    · rintro ⟨asked, paths, collected, rfl⟩
      exact ⟨true, asked, bind_eq_ok_iff.mpr ⟨paths, collected, rfl⟩⟩

theorem exists_files_iff :
    (∃ found, files fs root rules = .ok found) ↔ Runs fs root rules := by
  simp only [files_eq_ok]
  constructor
  · rintro ⟨found, depth, directory, paths, collected, -⟩
    obtain ⟨globs, decides⟩ := exists_collect_iff.mp ⟨paths, collected⟩
    exact ⟨depth, directory, globs, decides⟩
  · rintro ⟨depth, directory, globs, decides⟩
    obtain ⟨paths, collected⟩ := exists_collect_iff.mpr ⟨globs, decides⟩
    exact ⟨_, depth, directory, paths, collected, rfl⟩

theorem increases_sorted (further : ∀ p ∈ paths, ∃ names, p = root.further names) :
    Increases (paths.eraseDups.mergeSort pathAtMost) := by
  refine mergeSort_increases (fun p q => pathAtMost_iff) (nodup_eraseDups paths) ?_
  intro p inPaths q alsoInPaths same
  exact eq_of_components (further p (List.mem_eraseDups.mp inPaths))
    (further q (List.mem_eraseDups.mp alsoInPaths)) same

/-- A run ends with a list exactly if no step of it has an error, and the list is the one in the
order of components whose members are selected and kept. -/
theorem files_eq_ok_iff :
    files fs root rules = .ok found ↔
      Runs fs root rules ∧ Increases found ∧
        ∀ p, p ∈ found ↔ Selects fs root (globs rules) p ∧ Keeps fs root rules p := by
  -- What a run finds has these members in this order, and no other list has.
  have spec {found : List Path} (ran : files fs root rules = .ok found) :
      Increases found ∧
        ∀ p, p ∈ found ↔ Selects fs root (globs rules) p ∧ Keeps fs root rules p := by
    obtain ⟨-, -, paths, collected, rfl⟩ := files_eq_ok.mp ran
    refine ⟨increases_sorted fun p member => ((mem_collect collected).mp member).1.further, ?_⟩
    intro p
    rw [List.mem_mergeSort, List.mem_eraseDups, mem_collect collected]
  refine ⟨fun ran => ⟨exists_files_iff.mp ⟨found, ran⟩, spec ran⟩, ?_⟩
  rintro ⟨runs, increases, members⟩
  obtain ⟨other, ran⟩ := exists_files_iff.mpr runs
  obtain ⟨otherIncreases, otherMembers⟩ := spec ran
  rw [ran, otherIncreases.ext increases fun p => (otherMembers p).trans (members p).symm]

/-- Paths that are collected in their order are what a run finds. -/
theorem files_of_collect (depth : ∀ depth ∈ rules.maxDepth, 0 ≤ depth)
    (directory : fs.isDirectory root = .ok true)
    (collected : (collect fs rules root (globs rules)).toOption = some paths)
    (increases : Increases paths) : files fs root rules = .ok paths := by
  have collected : collect fs rules root (globs rules) = .ok paths := by
    cases ran : collect fs rules root (globs rules) with
    | error error => rw [ran] at collected; cases collected
    | ok paths => rw [ran] at collected; cases collected; rfl
  refine files_eq_ok.mpr ⟨depth, directory, paths, collected, ?_⟩
  have sorted : Increases (paths.eraseDups.mergeSort pathAtMost) :=
    increases_sorted fun p member => ((mem_collect collected).mp member).1.further
  exact increases.ext sorted fun p => by
    rw [List.mem_mergeSort, List.mem_eraseDups]

end Discovery

end UrlScan
