import Mathlib.Data.List.Basic
import UrlScan.FileSystem.Tree

/-!
# Where a path leads

With `..` in it, a path leads up and down again before it ends. There are no links in a tree, so
every `..` takes back the name before it, and the names that are left lead downwards. Of the names
behind a directory only those are left that lead down, so what a path has to say about the
directories below that one, it says with names of its own.

Results:
1. `not_isFile_up`: no path to a file ends in `..`.
2. `resolved_further`: the directories between a directory and a file that a path from the one leads
   to are among the names of the path, in their order.
-/

namespace UrlScan

namespace Path

/-- The path that goes on by further names. -/
def further (p : Path) (names : List Text) : Path :=
  { p with names := p.names ++ names }

variable (p : Path) (names more : List Text)

@[simp] theorem further_nil : p.further [] = p := by
  rw [further, List.append_nil]

@[simp] theorem further_further : (p.further names).further more = p.further (names ++ more) := by
  simp only [further, List.append_assoc]

@[simp] theorem child_further (name : Text) :
    (p.child name).further names = p.further (name :: names) :=
  further_further p [name] names

/-- The names behind a path are those that it goes on by. -/
@[simp] theorem drop_further : (p.further names).names.drop p.names.length = names :=
  List.drop_left

theorem name_further {names : List Text} (nonempty : names ≠ []) :
    (p.further names).name = names.getLastD [] := by
  obtain ⟨names, last, rfl⟩ := names.eq_nil_or_concat'.resolve_left nonempty
  rw [name, further, ← List.append_assoc, List.getLastD_concat, List.getLastD_concat]

theorem components_further : (p.further names).components = p.components ++ names := by
  unfold components
  change (if p.isAbsolute then p.root :: (p.names ++ names) else p.names ++ names) = _
  split <;> rfl

end Path

namespace FileSystem

/-! ## The same place without `..` -/

/-- The names, the last one first, that lead downwards from the root of a tree to a place in it, and
the directories above the place, the nearest first. -/
inductive Leads (root : FileTree) : List Text → List FileTree → FileTree → Prop
  | root : Leads root [] [] root
  | entry {names : List Text} {above : List FileTree} {entries : List (Text × FileTree)}
      {name : Text} {tree : FileTree} : Leads root names above (.directory entries) →
      name ≠ ['.', '.'] → (Utf8.encode name).length ≤ maxName → entries.lookup name = some tree →
      Leads root (name :: names) (.directory entries :: above) tree

section
variable {root here tree : FileTree} {above : List FileTree} {names : List Text}

/-- Following names leads to the place of the names they resolve to, and on from there. -/
theorem Leads.follow (leads : Leads root names above here) {first more : List Text}
    (found : follow above here (first ++ more) = .ok tree) :
    ∃ aboveThere there, Leads root (resolve names first).reverse aboveThere there ∧
      FileSystem.follow aboveThere there more = .ok tree := by
  induction first generalizing names above here with
  | nil => exact ⟨above, here, by simpa [resolve] using leads, found⟩
  | cons name first ih =>
    cases here with
    | file content => cases found
    | directory entries =>
      simp only [List.cons_append, FileSystem.follow] at found
      by_cases up : name = ['.', '.']
      · rw [if_pos up] at found
        rw [resolve, if_pos up]
        cases leads with
        | root => exact ih .root found
        | entry upper _ _ _ => exact ih upper found
      · -- The name leads down, to an entry of the directory, which is now above the place.
        rw [if_neg up] at found
        rw [resolve, if_neg up]
        split at found
        · cases found
        next short =>
          cases entry : entries.lookup name with
          | none => simp [entry] at found
          | some below =>
            rw [entry] at found
            exact ih (.entry leads up (Nat.le_of_not_lt short) entry) found

/-- What `..` leads to is a directory. -/
theorem Leads.isDirectory_of_up (leads : Leads root names above here)
    (found : FileSystem.follow above here [['.', '.']] = .ok tree) : tree.isDirectory = true := by
  cases here with
  | file content => cases found
  | directory entries =>
    cases leads with
    | root => cases found; rfl
    | entry upper _ _ _ => cases found; rfl

end

variable {fs : FileSystem} {p root : Path} {tree : FileTree}

/-- The names that lead to a path from the root, `..` among them. -/
def way (fs : FileSystem) (p : Path) : List Text :=
  if p.isAbsolute then p.names else fs.workingDirectory ++ p.names

theorem way_further (names : List Text) : fs.way (p.further names) = fs.way p ++ names := by
  unfold way
  change (if p.isAbsolute then p.names ++ names else fs.workingDirectory ++ (p.names ++ names)) = _
  split
  · rfl
  · rw [List.append_assoc]

theorem follow_way (found : fs.lookup p = .ok tree) : follow [] fs.root (fs.way p) = .ok tree := by
  unfold lookup at found
  split at found
  · cases found
  · exact found

/-! ## The names that are left -/

theorem resolve_append (above first more : List Text) :
    resolve above (first ++ more) = resolve (resolve above first).reverse more := by
  induction first generalizing above with
  | nil => simp [resolve]
  | cons name first ih =>
    simp only [List.cons_append, resolve]
    split <;> exact ih _

/-- Following names takes some of the given names back and adds some of the names. -/
theorem resolve_parts (above names : List Text) :
    ∃ back added, resolve above names = (above.drop back).reverse ++ added ∧
      added.Sublist names := by
  induction names generalizing above with
  | nil => exact ⟨0, [], by simp [resolve], .refl []⟩
  | cons name names ih =>
    rw [resolve]
    split
    · obtain ⟨back, added, resolved, sub⟩ := ih above.tail
      refine ⟨back + 1, added, ?_, sub.cons name⟩
      rw [resolved, List.drop_tail]
    · obtain ⟨back, added, resolved, sub⟩ := ih (name :: above)
      cases back with
      | zero => exact ⟨0, name :: added, by simp [resolved], sub.cons_cons name⟩
      | succ back => exact ⟨back, added, resolved, sub.cons name⟩

theorem resolved_eq : fs.resolved p = resolve [] (fs.way p) := rfl

theorem isFile_eq_true (isFile : fs.isFile p = .ok true) :
    ∃ content, fs.lookup p = .ok (.file content) := by
  simp only [FileSystem.isFile, probe] at isFile
  split at isFile
  · cases isFile
  · split at isFile
    next tree found =>
      cases tree with
      | file content => exact ⟨content, found⟩
      | directory entries => cases isFile
    all_goals cases isFile

theorem isDirectory_of_isFile (isFile : fs.isFile p = .ok true) :
    fs.isDirectory p = .ok false := by
  unfold isDirectory
  simp only [FileSystem.isFile] at isFile
  rcases probed : fs.probe p with error | _ | _ | _ <;> rw [probed] at isFile <;>
    first | rfl | cases isFile

/-- No path to a file ends in `..`. -/
theorem not_isFile_up : fs.isFile (p.further [['.', '.']]) ≠ .ok true := by
  intro isFile
  obtain ⟨content, found⟩ := isFile_eq_true isFile
  obtain ⟨above, there, leads, rest⟩ :=
    Leads.follow .root (by rw [← way_further]; exact follow_way found)
  exact Bool.noConfusion (leads.isDirectory_of_up rest)

/-- The directories between a directory and a file that a path from the one leads to are among the
names of the path. -/
theorem resolved_further {names below : List Text}
    (isFile : fs.isFile (root.further names) = .ok true)
    (place : fs.resolved (root.further names) = fs.resolved root ++ below) :
    below.dropLast.Sublist names.dropLast := by
  obtain rfl | ⟨names, last, rfl⟩ := names.eq_nil_or_concat'
  · have none : below = [] := by simpa using place
    simp [none]
  obtain rfl | ⟨below, final, rfl⟩ := below.eq_nil_or_concat'
  · exact List.nil_sublist _
  rw [List.dropLast_concat, List.dropLast_concat]
  have down : last ≠ ['.', '.'] := by
    rintro rfl
    rw [← Path.further_further] at isFile
    exact not_isFile_up isFile
  obtain ⟨back, added, resolved, sub⟩ := resolve_parts (fs.resolved root).reverse names
  have split : ((fs.resolved root).reverse.drop back).reverse ++ added =
      fs.resolved root ++ below := by
    rw [resolved_eq, way_further, ← List.append_assoc, resolve_append, resolve_append,
      ← resolved_eq, resolved] at place
    simp only [resolve, down, if_false, List.reverse_cons, List.reverse_reverse] at place
    rw [← List.append_assoc] at place
    exact (List.append_inj' place rfl).1
  -- The names that are kept of the directory are not more than it has.
  obtain ⟨gap, -, behind⟩ | ⟨gap, kept, behind⟩ := List.append_eq_append_iff.mp split
  · exact (behind ▸ List.sublist_append_right gap below).trans sub
  · have fits := congrArg List.length kept
    simp only [List.length_reverse, List.length_drop, List.length_append] at fits
    have noGap : gap = [] := List.eq_nil_of_length_eq_zero (by omega)
    rw [behind, noGap, List.nil_append]
    exact sub

end FileSystem

end UrlScan
