import UrlScan.Filter
import UrlScan.Proofs.Text.Recased
import UrlScan.Proofs.Text.Trimmed

/-!
# Decorated domains

An entry of the list of ignored domains may be decorated: with white space around it, with `*.` in
front of the domain, with dots before and behind it, and with capitals. Normalizing takes the
decoration off in a fixed order. White space goes first, then the capitals, then `*.`, and the dots
last. Each step leaves what the next one looks for in its place: no decoration hides white space at
the ends, a text in lower case stays one among asterisks and dots, and a domain that does not begin
with an asterisk is not taken for a decorated one.

1. `IsPlain`, `Decoration.write`: a domain without decoration, and the entry with one.
2. `normalize_write`: normalizing takes the decoration off.
3. `normalize_decorated`: so a filter does not tell the entry from the domain.
-/

namespace UrlScan.Domain

/-- A domain in lower case, without white space or dots at its ends and without an asterisk at its
beginning. -/
structure IsPlain (domain : Text) : Prop where
  lowercase : Text.lowercase domain = domain
  stripped : Text.strip domain = domain
  noDot : Text.IsTrimmed isDot domain
  noAsterisk : domain.head? ≠ some '*'

/-- What an entry of the list may have around a domain. -/
structure Decoration where
  before : Text
  wildcard : Bool
  /-- The number of dots between `*.`, if it is there, and the domain. -/
  dotsBefore : Nat
  dotsBehind : Nat
  after : Text
  before_blank : ∀ c ∈ before, Text.isBlank c = true
  after_blank : ∀ c ∈ after, Text.isBlank c = true

namespace Decoration

/-- What stands between the white space and the domain. -/
def front (x : Decoration) : Text :=
  (if x.wildcard then ['*', '.'] else []) ++ List.replicate x.dotsBefore '.'

def back (x : Decoration) : Text :=
  List.replicate x.dotsBehind '.'

/-- The entry that has the decoration around a domain. -/
def write (x : Decoration) (domain : Text) : Text :=
  x.before ++ (x.front ++ domain ++ x.back) ++ x.after

variable {x : Decoration}

theorem mem_front {c : Char} (member : c ∈ x.front) : c = '*' ∨ c = '.' := by
  obtain inWildcard | inDots := List.mem_append.mp member
  · split at inWildcard
    · simpa using inWildcard
    · cases inWildcard
  · exact .inr (List.eq_of_mem_replicate inDots)

theorem mem_back {c : Char} (member : c ∈ x.back) : c = '.' :=
  List.eq_of_mem_replicate member

end Decoration

variable {domain spelling : Text} {x : Decoration}

/-- Asterisks and dots around a text in lower case leave it in lower case. -/
theorem lowercase_surrounded (fixed : Text.lowercase domain = domain) :
    Text.lowercase (x.front ++ domain ++ x.back) = x.front ++ domain ++ x.back := by
  have signs {t : Text} (signs : ∀ c ∈ t, c = '*' ∨ c = '.') :
      '\u03A3' ∉ t ∧ Text.lowercase t = t := by
    have ascii : ∀ c ∈ t, c.toNat < 128 := by
      intro c member
      rcases signs c member with rfl | rfl <;> decide
    refine ⟨fun sigma => absurd (ascii _ sigma) (by decide), ?_⟩
    have unchanged : ∀ c ∈ t, c.toLower = id c := by
      intro c member
      rcases signs c member with rfl | rfl <;> rfl
    rw [Text.lowercase_ascii ascii, List.map_congr_left unchanged, List.map_id]
  obtain ⟨noSigma, front⟩ := signs fun c => x.mem_front (c := c)
  obtain ⟨noSigma', back⟩ := signs (t := x.back) fun c member => .inr (x.mem_back member)
  have noSigmaInside : '\u03A3' ∉ domain := by
    rw [← fixed]
    exact Text.sigma_notMem_lowercase domain
  rw [Text.lowercase_append (by simp [noSigma, noSigma', noSigmaInside]),
    Text.lowercase_append (by simp [noSigma, noSigmaInside]), front, back, fixed]

/-- White space is the first to go, as no other decoration is blank. -/
theorem strip_write (stripped : Text.strip domain = domain)
    (recased : Text.Recased domain spelling) :
    Text.strip (x.write spelling) = x.front ++ spelling ++ x.back := by
  have ignores : Text.IgnoresCase Text.isBlank := .of_letters (by decide)
  have ends : Text.IsTrimmed Text.isBlank spelling :=
    recased.isTrimmed ignores (Text.trimBoth_eq_self_iff.mp stripped)
  have front : Text.IsTrimmed Text.isBlank x.front := by
    refine .of_forall fun c member => ?_
    rcases x.mem_front member with rfl | rfl <;> decide
  have back : Text.IsTrimmed Text.isBlank x.back := by
    refine .of_forall fun c member => ?_
    rw [x.mem_back member]
    decide
  exact Text.trimBoth_surrounded x.before_blank ((front.append ends).append back) x.after_blank

/-- Behind the white space and the capitals, normalizing takes `*.` and the dots away. -/
theorem trimBoth_front (noDot : Text.IsTrimmed isDot domain)
    (noAsterisk : domain.head? ≠ some '*') :
    Text.trimBoth isDot
      (if Text.startsWith (x.front ++ domain ++ x.back) ['*', '.'] then
        (x.front ++ domain ++ x.back).drop 2
      else x.front ++ domain ++ x.back) = domain := by
  have dots {n : Nat} : ∀ c ∈ List.replicate n '.', isDot c = true := by
    intro c member
    rw [List.eq_of_mem_replicate member]
    rfl
  have trimmed :
      Text.trimBoth isDot (List.replicate x.dotsBefore '.' ++ domain ++ x.back) = domain :=
    Text.trimBoth_surrounded dots noDot dots
  unfold Decoration.front
  cases x.wildcard with
  | true => exact trimmed
  | false =>
    rw [if_neg]
    · exact trimmed
    -- The first character is a dot or that of the domain.
    · intro starts
      have first : (List.replicate x.dotsBefore '.' ++ domain ++ x.back).head? = some '*' := by
        obtain ⟨rest, whole⟩ := List.isPrefixOf_iff_prefix.mp starts
        exact congrArg List.head? whole.symm
      cases number : x.dotsBefore with
      | succ n =>
        rw [number] at first
        cases first
      | zero =>
        rw [number] at first
        cases domain with
        | cons c rest => exact noAsterisk first
        | nil =>
          have isDot := x.mem_back (List.mem_of_head? first)
          cases isDot

/-- Normalizing takes the decoration off a domain, and undoes a change of letter case. -/
theorem normalize_write (plain : IsPlain domain) (recased : Text.Recased domain spelling)
    (x : Decoration) : normalize (x.write spelling) = domain := by
  have around : Text.Recased (x.front ++ domain ++ x.back) (x.front ++ spelling ++ x.back) :=
    (Text.Recased.append rfl recased).append rfl
  unfold normalize
  rw [strip_write plain.stripped recased,
    around.lowercase_of_fixed (lowercase_surrounded plain.lowercase)]
  exact trimBoth_front plain.noDot plain.noAsterisk

/-- A plain domain is an entry without decoration. -/
def noDecoration : Decoration :=
  ⟨[], false, 0, 0, [], by simp, by simp⟩

theorem normalize_plain (plain : IsPlain domain) : normalize domain = domain := by
  have undecorated := @normalize_write domain domain plain rfl noDecoration
  simpa [Decoration.write, Decoration.front, Decoration.back, noDecoration] using undecorated

/-- However a plain domain is decorated and spelled in ASCII capitals, normalizing gives it back. So
at every place in a list of domains the decorated entry and the domain make the same filter, which
leaves the same of all results. -/
theorem normalize_decorated (plain : IsPlain domain) (recased : Text.Recased domain spelling)
    (x : Decoration) :
    normalize (x.write spelling) = domain ∧
    ∀ (before after : List Text) (singleLabel : Bool) (results : List FileResult),
      (Filter.ofDomains (before ++ x.write spelling :: after) singleLabel).applyToAll results =
        (Filter.ofDomains (before ++ domain :: after) singleLabel).applyToAll results := by
  have undecorated := normalize_write plain recased x
  refine ⟨undecorated, fun before after singleLabel results => ?_⟩
  have sameFilter : Filter.ofDomains (before ++ x.write spelling :: after) singleLabel =
      Filter.ofDomains (before ++ domain :: after) singleLabel := by
    simp only [Filter.ofDomains, List.map_append, List.map_cons, undecorated, normalize_plain plain]
  rw [sameFilter]

instance (domain : Text) : Decidable (IsPlain domain) :=
  decidable_of_iff (Text.lowercase domain = domain ∧ Text.strip domain = domain ∧
      Text.IsTrimmed isDot domain ∧ domain.head? ≠ some '*')
    ⟨fun ⟨lowercase, stripped, noDot, noAsterisk⟩ => ⟨lowercase, stripped, noDot, noAsterisk⟩,
      fun plain => ⟨plain.lowercase, plain.stripped, plain.noDot, plain.noAsterisk⟩⟩

/-- A domain with a final sigma, in capitals as far as they are ASCII, with every decoration. -/
theorem normalize_decorated_sigma :
    IsPlain "λόγος.example".toList ∧
    Text.Recased "λόγος.example".toList "λόγος.ExamPLE".toList ∧
    normalize " \t*...λόγος.ExamPLE.. ".toList = "λόγος.example".toList ∧
    ∀ results : List FileResult,
      (Filter.ofDomains [" \t*...λόγος.ExamPLE.. ".toList] false).applyToAll results =
        (Filter.ofDomains ["λόγος.example".toList] false).applyToAll results := by
  have plain : IsPlain "λόγος.example".toList := by decide +kernel
  have recased : Text.Recased "λόγος.example".toList "λόγος.ExamPLE".toList := by decide +kernel
  let x : Decoration :=
    ⟨[' ', '\t'], true, 2, 2, [' '], List.all_eq_true.mp (by decide),
      List.all_eq_true.mp (by decide)⟩
  have written : x.write "λόγος.ExamPLE".toList = " \t*...λόγος.ExamPLE.. ".toList := by
    decide +kernel
  obtain ⟨undecorated, alike⟩ := normalize_decorated plain recased x
  rw [written] at undecorated alike
  exact ⟨plain, recased, undecorated, alike [] [] false⟩

/-- A dot in front of `*.` hides it. -/
example : normalize ".*.a.example".toList = "*.a.example".toList := by decide +kernel

end UrlScan.Domain
