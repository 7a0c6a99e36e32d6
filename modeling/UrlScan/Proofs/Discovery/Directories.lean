import UrlScan.Proofs.Discovery.SetFilter
import UrlScan.Proofs.Text.Joined

/-!
# Excluding a directory

An exclude pattern may name a directory, as `src`, `src/` or `src/lib`, and is meant to leave out
everything below it. The test for this takes the slashes from the end of the pattern and looks for
what is left among the directories of the path. These are single names. So a pattern of one name
leaves out everything below each directory of the name. What is left of a pattern of two names or
more has a slash in it and is none of them, and the other tests are about the whole path or its end:
such a pattern leaves out the files whose path ends in its names, and no file for lying below the
directory.

Results:
1. `isExcludedBy_directory`: exactly which paths a pattern that names a directory is about.
2. `files_below_name`: nothing is found below a directory that one name excludes, by whichever way.
3. `files_exclude_names`: what a pattern of two names or more leaves.
4. `files_excludeDirectory`: both together.
5. `nested_directory_found`: excluding a directory in a directory does not leave out what is below.
-/

namespace UrlScan

namespace Wildcard

theorem parse_literal {pattern : Text} (literal : isPattern pattern = false) :
    parse pattern = pattern.map .char := by
  induction pattern with
  | nil => rw [parse]; rfl
  | cons c pattern ih =>
    simp only [isPattern, List.any_cons, Bool.or_eq_false_iff, beq_eq_false_iff_ne] at literal
    obtain ⟨⟨⟨star, one⟩, set⟩, rest⟩ := literal
    rw [List.map_cons, ← ih rest]
    simp [parse]

theorem matchesPieces_chars (pattern t : Text) :
    matchesPieces (pattern.map .char) t = (t == pattern) := by
  induction pattern generalizing t with
  | nil => cases t <;> rfl
  | cons c pattern ih =>
    rw [List.map_cons]
    cases t with
    | nil => rfl
    | cons d t =>
      rw [matchesPieces_cons (by simp), ih]
      rfl

/-- Without a sign that makes it a pattern, a text accepts itself only. -/
theorem accepts_literal {pattern : Text} (literal : isPattern pattern = false) (t : Text) :
    accepts pattern t = (t == pattern) := by
  rw [accepts, parse_literal literal, matchesPieces_chars]

end Wildcard

namespace Discovery

/-! ## Patterns that name a directory -/

/-- A name of a directory that stands for itself in a pattern. -/
structure IsLiteral (name : Text) : Prop where
  nonempty : name ≠ []
  noSlash : '/' ∉ name
  noDot : name ≠ ['.']
  noSign : Wildcard.isPattern name = false

/-- The pattern of some names with a number of slashes behind them. -/
def spelled (names : List Text) (slashes : Nat) : Text :=
  Text.join ['/'] names ++ List.replicate slashes '/'

section
variable {directory names : List Text} {slashes : Nat}

theorem join_slashes (slashes : Nat) :
    Text.join ['/'] ([] :: List.replicate slashes []) = List.replicate slashes '/' := by
  induction slashes with
  | zero => rfl
  | succ slashes ih =>
    rw [List.replicate_succ, Text.join_cons_cons, ih]
    rfl

/-- A slash at the end of a pattern is as one behind which there is an empty name. -/
theorem spelled_eq_join (nonempty : directory ≠ []) (slashes : Nat) :
    spelled directory slashes = Text.join ['/'] (directory ++ List.replicate slashes []) := by
  induction directory with
  | nil => exact absurd rfl nonempty
  | cons name rest ih =>
    cases rest with
    | nil =>
      rw [spelled, Text.join_singleton, List.singleton_append]
      cases slashes with
      | zero => rw [List.replicate_zero, List.replicate_zero, Text.join_singleton, List.append_nil]
      | succ slashes =>
        rw [List.replicate_succ, List.replicate_succ, Text.join_cons_cons, join_slashes]
    | cons next rest =>
      have later := ih (List.cons_ne_nil next rest)
      rw [List.cons_append, Text.join_cons (by simp), ← later, spelled, spelled,
        Text.join_cons_cons, List.append_assoc, List.cons_append]

theorem splitOn_spelled (nonempty : directory ≠ []) (literal : ∀ name ∈ directory, IsLiteral name) :
    (spelled directory slashes).splitOn '/' = directory ++ List.replicate slashes [] := by
  rw [spelled_eq_join nonempty]
  refine List.splitOn_intercalate '/' (fun name member => ?_) (by simp [nonempty])
  obtain inDirectory | empty := List.mem_append.mp member
  · exact (literal name inDirectory).noSlash
  · rw [List.eq_of_mem_replicate empty]
    exact List.not_mem_nil

theorem join_ne_nil (nonempty : directory ≠ []) (literal : ∀ name ∈ directory, IsLiteral name) :
    Text.join ['/'] directory ≠ [] := by
  obtain ⟨start, last, member, whole⟩ := @Text.join_eq_append_last '/' directory nonempty
  rw [whole]
  exact List.append_ne_nil_of_right_ne_nil start (literal last member).nonempty

theorem noSign_spelled (literal : ∀ name ∈ directory, IsLiteral name) :
    Wildcard.isPattern (spelled directory slashes) = false := by
  refine List.any_eq_false.mpr fun c member => ?_
  obtain inNames | isSlash := List.mem_append.mp member
  · obtain rfl | ⟨name, inDirectory, inName⟩ := Text.mem_join inNames
    · decide
    · exact List.any_eq_false.mp (literal name inDirectory).noSign c inName
  · rw [List.eq_of_mem_replicate isSlash]
    decide

theorem rootOf_spelled (nonempty : directory ≠ []) (literal : ∀ name ∈ directory, IsLiteral name) :
    Path.rootOf (spelled directory slashes) = [] := by
  obtain ⟨name, rest, rfl⟩ := List.exists_cons_of_ne_nil nonempty
  have first := literal name List.mem_cons_self
  obtain ⟨c, letters, rfl⟩ := List.exists_cons_of_ne_nil first.nonempty
  obtain ⟨behind, begins⟩ : ∃ behind, spelled ((c :: letters) :: rest) slashes = c :: behind := by
    cases rest with
    | nil => exact ⟨_, by rw [spelled, Text.join_singleton, List.cons_append]⟩
    | cons next rest => exact ⟨_, by rw [spelled, Text.join_cons_cons]; rfl⟩
  have noSlash : (c == '/') = false := by
    rw [beq_eq_false_iff_ne]
    rintro rfl
    exact first.noSlash List.mem_cons_self
  rw [Path.rootOf, begins, List.takeWhile_cons_of_neg (by simp [noSlash])]
  rfl

theorem parse_spelled (nonempty : directory ≠ []) (literal : ∀ name ∈ directory, IsLiteral name) :
    Path.parse (spelled directory slashes) = ⟨[], directory⟩ := by
  have names : (directory ++ List.replicate slashes []).filter
      (fun name => !name.isEmpty && name != ['.']) = directory := by
    rw [List.filter_append, List.filter_eq_self.mpr, List.filter_eq_nil_iff.mpr, List.append_nil]
    · intro name empty
      rw [List.eq_of_mem_replicate empty]
      decide
    · intro name member
      simpa using ⟨(literal name member).nonempty, (literal name member).noDot⟩
  rw [Path.parse, splitOn_spelled nonempty literal, rootOf_spelled nonempty literal, names]

theorem trimEnd_spelled (nonempty : directory ≠ []) (literal : ∀ name ∈ directory, IsLiteral name) :
    Text.trimEnd (· == '/') (spelled directory slashes) = Text.join ['/'] directory := by
  obtain ⟨start, last, member, whole⟩ := @Text.join_eq_append_last '/' directory nonempty
  have isLast := literal last member
  obtain ⟨letters, c, rfl⟩ := (List.eq_nil_or_concat' last).resolve_left isLast.nonempty
  have noSlash : ¬(c == '/') = true := by
    rw [beq_iff_eq]
    rintro rfl
    exact isLast.noSlash (by simp)
  have kept : ((c :: (start ++ letters).reverse).dropWhile (· == '/')) =
      c :: (start ++ letters).reverse := List.dropWhile_cons_of_neg noSlash
  rw [spelled, whole, Text.trimEnd, List.reverse_append, List.dropWhile_append_of_pos (by simp),
    ← List.append_assoc, List.reverse_concat, kept, ← List.reverse_concat, List.reverse_reverse]

/-! ## What such a pattern is about -/

theorem all_accepts_eq_isPrefixOf {components : List Text}
    (literal : ∀ component ∈ components, IsLiteral component) (names : List Text) :
    (decide (components.length ≤ names.length) &&
      (names.zip components).all fun pair => Wildcard.accepts pair.2 pair.1) =
      components.isPrefixOf names := by
  induction components generalizing names with
  | nil => simp
  | cons component components ih =>
    rw [List.forall_mem_cons] at literal
    cases names with
    | nil => rfl
    | cons name names =>
      rw [List.isPrefixOf_cons_cons, ← ih literal.2 names, List.zip_cons_cons, List.all_cons,
        Wildcard.accepts_literal literal.1.noSign, BEq.comm, Bool.and_left_comm]
      simp only [List.length_cons, Nat.add_le_add_iff_right]

theorem matchesFromRight_spelled (nonempty : directory ≠ [])
    (literal : ∀ name ∈ directory, IsLiteral name) :
    matchesFromRight names (spelled directory slashes) = .ok (directory.isSuffixOf names) := by
  unfold matchesFromRight
  rw [parse_spelled nonempty literal]
  dsimp only
  have reversed := all_accepts_eq_isPrefixOf
    (fun name member => literal name (List.mem_reverse.mp member)) names.reverse
  rw [List.length_reverse, List.length_reverse] at reversed
  rw [if_neg (by simp [Path.isAbsolute]), if_neg (by simpa using nonempty), reversed]
  rfl

/-- Exactly the paths that a pattern with the names of a directory is about: the pattern is the
whole path, or its names are the last ones of the path, or all of it is the name of one of the
directories above the file. -/
theorem isExcludedBy_directory (nonempty : directory ≠ [])
    (literal : ∀ name ∈ directory, IsLiteral name) :
    isExcludedBy names (spelled directory slashes) =
      .ok (Text.join ['/'] names == spelled directory slashes || directory.isSuffixOf names ||
        names.dropLast.contains (Text.join ['/'] directory)) := by
  have literalText : Wildcard.isPattern (spelled directory slashes) = false :=
    noSign_spelled literal
  have noAsterisk : Text.startsWith (spelled directory slashes) "**/".toList = false := by
    rw [Bool.eq_false_iff]
    intro starts
    have asterisk : '*' ∈ spelled directory slashes :=
      (List.isPrefixOf_iff_prefix.mp starts).subset (by decide)
    exact List.any_eq_false.mp literalText '*' asterisk rfl
  have stripped : (Text.join ['/'] directory).isEmpty = false := by
    simpa using join_ne_nil nonempty literal
  rw [isExcludedBy_eq, Wildcard.accepts_literal literalText, noAsterisk,
    trimEnd_spelled nonempty literal, matchesFromRight_spelled nonempty literal, stripped]
  cases Text.join ['/'] names == spelled directory slashes
  · rw [Bool.false_or]
    simp [bind, Except.bind]
  · rfl

/-- Names as a file system has them. -/
def AreNames (names : List Text) : Prop :=
  ∀ name ∈ names, name ≠ [] ∧ '/' ∉ name

/-- A pattern of two names or more is about the paths that end in them. -/
theorem isExcludedBy_names (literal : ∀ name ∈ directory, IsLiteral name)
    (several : 2 ≤ directory.length) (areNames : AreNames names) :
    isExcludedBy names (spelled directory slashes) = .ok (directory.isSuffixOf names) := by
  have nonempty : directory ≠ [] := by
    rintro rfl
    cases several
  have noDirectory : names.dropLast.contains (Text.join ['/'] directory) = false := by
    rw [Bool.eq_false_iff]
    intro contained
    have member := List.contains_iff_mem.mp contained
    exact (areNames _ (List.dropLast_subset _ member)).2 (Text.separator_mem_join several)
  rw [isExcludedBy_directory nonempty literal, noDirectory, Bool.or_false]
  cases isWhole : Text.join ['/'] names == spelled directory slashes with
  | false => rw [Bool.false_or]
  | true =>
    -- The whole path is written as the pattern is, so that its names are those of the pattern.
    have whole : Text.join ['/'] names = spelled directory slashes := beq_iff_eq.mp isWhole
    have some : names ≠ [] := by
      rintro rfl
      exact join_ne_nil nonempty literal (List.append_eq_nil_iff.mp whole.symm).1
    have same : names = directory ++ List.replicate slashes [] := by
      rw [← splitOn_spelled nonempty literal, ← whole]
      exact (List.splitOn_intercalate '/' (fun name member => (areNames name member).2) some).symm
    cases slashes with
    | zero =>
      rw [List.replicate_zero, List.append_nil] at same
      rw [same, Bool.true_or]
      exact congrArg Except.ok (List.isSuffixOf_iff_suffix.mpr (List.suffix_refl directory)).symm
    | succ slashes =>
      have empty : [] ∈ names := by
        rw [same]
        simp
      exact absurd rfl (areNames [] empty).1

end

/-! ## Runs -/

section
variable {fs : FileSystem} {root p : Path} {rules : DiscoveryRules} {found : List Path}

/-- Nothing is found below a directory that a pattern of one name excludes, by whichever way the
path of the file leads there. -/
theorem files_below_name {name : Text} {slashes : Nat} (literal : IsLiteral name)
    (excluded : spelled [name] slashes ∈ rules.exclude) (ran : files fs root rules = .ok found)
    (member : p ∈ found) :
    name ∉ (below root p).dropLast ∧
      ∀ names, fs.resolved p = fs.resolved root ++ names → name ∉ names.dropLast := by
  obtain ⟨-, -, members⟩ := files_eq_ok_iff.mp ran
  obtain ⟨selects, isFile, notExcluded⟩ := (members p).mp member
  have notAbout := (isExcluded_eq_false_iff.mp notExcluded).2 _ excluded
  rw [isExcludedBy_directory (List.cons_ne_nil name []) (by simpa using literal), Except.ok.injEq,
    Bool.or_eq_false_iff, Text.join_singleton, ← Bool.not_eq_true, ← Bool.not_eq_true,
    List.contains_iff_mem] at notAbout
  refine ⟨notAbout.2, fun names place inNames => notAbout.2 ?_⟩
  obtain ⟨behind, rfl⟩ := selects.further
  rw [below_further]
  exact (FileSystem.resolved_further isFile place).subset inNames

theorem answers_spelled {directory : List Text} {slashes : Nat} (nonempty : directory ≠ [])
    (literal : ∀ name ∈ directory, IsLiteral name) : Answers (spelled directory slashes) := by
  rw [Answers, parse_spelled nonempty literal]
  exact .inr nonempty

/-- A pattern that never has an error leaves a run without one. -/
theorem Decides.insert {before after : List Text} {pattern : Text} (answers : Answers pattern)
    (decides : Decides fs root { rules with exclude := before ++ after } p) :
    Decides fs root { rules with exclude := before ++ [pattern] ++ after } p := by
  obtain noFile | ⟨isFile, excluded, found⟩ := decides
  · exact .inl noFile
  rw [isExcluded_append] at found
  -- The patterns behind the new one are asked only if neither the ones before nor it say yes.
  obtain ⟨first, isFirst, rest⟩ := ok_of_bind found
  obtain ⟨second, isSecond⟩ := @isExcluded_answers { rules with exclude := [pattern] }
    (by simpa using answers) (below root p)
  rw [Decides, isExcluded_append, isExcluded_append, isFirst]
  cases first with
  | true => exact .inr ⟨isFile, true, rfl⟩
  | false =>
    cases second with
    | true => exact .inr ⟨isFile, true, by rw [isSecond]; rfl⟩
    | false => exact .inr ⟨isFile, excluded, by rw [isSecond]; exact rest⟩

/-- A pattern of two names or more leaves out the files whose paths end in them, and no others. -/
theorem files_exclude_names {directory before after : List Text} {slashes : Nat}
    (literal : ∀ name ∈ directory, IsLiteral name) (several : 2 ≤ directory.length)
    (ran : files fs root { rules with exclude := before ++ after } = .ok found)
    (areNames : ∀ p ∈ found, AreNames (below root p)) :
    files fs root { rules with exclude := before ++ [spelled directory slashes] ++ after } =
      .ok (found.filter fun p => !directory.isSuffixOf (below root p)) := by
  have nonempty : directory ≠ [] := by
    rintro rfl
    cases several
  obtain ⟨runs, -, members⟩ := files_eq_ok_iff.mp ran
  refine files_filter ran rfl runs.depth (fun p selects => ?_) fun p selects => ?_
  · exact (runs.decides p selects).insert (answers_spelled nonempty literal)
  have kept : Keeps fs root
        { rules with exclude := before ++ [spelled directory slashes] ++ after } p ↔
      Keeps fs root { rules with exclude := before ++ after } p ∧
        isExcludedBy (below root p) (spelled directory slashes) = .ok false := by
    simp only [Keeps, isExcluded_eq_false_iff, List.forall_mem_append, List.forall_mem_singleton]
    tauto
  rw [kept]
  -- Only a path that is found without the pattern is known to have proper names.
  refine and_congr_right fun keeps => ?_
  rw [isExcludedBy_names literal several (areNames p ((members p).mpr ⟨selects, keeps⟩)),
    Except.ok.injEq, Bool.not_eq_true']

/-- What excluding a directory leaves. One name leaves nothing below a directory of that name. Two
names or more leave every file whose path does not end in them, also those below the directory. -/
theorem files_excludeDirectory (fs : FileSystem) (root : Path) (rules : DiscoveryRules)
    {directory : List Text} (literal : ∀ name ∈ directory, IsLiteral name) (slashes : Nat) :
    (∀ name, directory = [name] → spelled directory slashes ∈ rules.exclude →
      ∀ found, files fs root rules = .ok found → ∀ p ∈ found, name ∉ (below root p).dropLast ∧
        ∀ names, fs.resolved p = fs.resolved root ++ names → name ∉ names.dropLast) ∧
    (2 ≤ directory.length → ∀ before after found,
      files fs root { rules with exclude := before ++ after } = .ok found →
      (∀ p ∈ found, AreNames (below root p)) →
      files fs root { rules with exclude := before ++ [spelled directory slashes] ++ after } =
        .ok (found.filter fun p => !directory.isSuffixOf (below root p))) := by
  constructor
  · rintro name rfl excluded found ran p member
    exact files_below_name (literal name (List.mem_singleton_self name)) excluded ran member
  · exact fun several before after found => files_exclude_names literal several

/-- Excluding a directory does not leave out everything below it. In the sample, excluding `src/lib`
leaves a file below this directory. -/
theorem nested_directory_found :
    ¬∀ (fs : FileSystem) (root : Path) (rules : DiscoveryRules) (directory : List Text)
      (slashes : Nat) (found : List Path),
      fs.isDirectory (root.further directory) = .ok true →
      (∀ name ∈ directory, IsLiteral name) → spelled directory slashes ∈ rules.exclude →
      files fs root rules = .ok found →
      ∀ p ∈ found, ¬directory <+: (below root p).dropLast := by
  intro claim
  have kept : files sample top ⟨[], ["src/lib".toList], none⟩ =
      .ok [top.further ["README.md".toList], top.further ["src".toList, "app.js".toList],
        top.further ["src".toList, "lib".toList, "util.py".toList]] :=
    files_sample rfl (by decide +kernel) (by decide +kernel)
  have literal : ∀ name ∈ ["src".toList, "lib".toList], IsLiteral name := by
    intro name member
    constructor <;> revert name <;> decide +kernel
  refine claim sample top _ ["src".toList, "lib".toList] 0 _ (by decide +kernel) literal
    (List.mem_singleton_self _) kept (top.further ["src".toList, "lib".toList, "util.py".toList])
    (by simp) ?_
  rw [below_further]
  exact List.prefix_refl _

/-- In the sample, excluding `lib/` leaves nothing below it, and excluding `src/app.js` as if it
were a directory leaves everything but this file. -/
theorem files_excludeDirectory_sample :
    (∃ found, files sample top ⟨[], [spelled ["lib".toList] 1], none⟩ = .ok found ∧
      ∀ p ∈ found, "lib".toList ∉ (below top p).dropLast) ∧
    files sample top ⟨[], [spelled ["src".toList, "app.js".toList] 0], none⟩ =
      .ok [top.further ["README.md".toList],
        top.further ["src".toList, "lib".toList, "util.py".toList]] := by
  have literal : ∀ name ∈ ["lib".toList, "src".toList, "app.js".toList], IsLiteral name := by
    intro name member
    constructor <;> revert name <;> decide +kernel
  have withoutLib : files sample top ⟨[], [spelled ["lib".toList] 1], none⟩ =
      .ok [top.further ["README.md".toList], top.further ["src".toList, "app.js".toList]] :=
    files_sample rfl (by decide +kernel) (by decide +kernel)
  have everything : files sample top ⟨[], [], none⟩ =
      .ok [top.further ["README.md".toList], top.further ["src".toList, "app.js".toList],
        top.further ["src".toList, "lib".toList, "util.py".toList]] :=
    files_sample rfl (by decide +kernel) (by decide +kernel)
  refine ⟨⟨_, withoutLib, fun p member => ?_⟩, ?_⟩
  · have single := (@files_excludeDirectory sample top ⟨[], [spelled ["lib".toList] 1], none⟩
      ["lib".toList] (fun name member => literal name (by simp_all)) 1).1
    exact (single _ rfl (List.mem_singleton_self _) _ withoutLib p member).1
  · have several := (@files_excludeDirectory sample top ⟨[], [], none⟩
      ["src".toList, "app.js".toList] (fun name member => literal name (by simp_all)) 0).2
    exact several (by decide) [] [] _ everything (by unfold AreNames; decide +kernel)

end

end Discovery

end UrlScan
