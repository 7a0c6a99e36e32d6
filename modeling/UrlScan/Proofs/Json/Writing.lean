import UrlScan.JsonValue
import UrlScan.Proofs.Text.WholeNumbers

/-!
# Which values are written as JSON

A value is written exactly if all numbers in it, however deep, can be (`render_guarded`). The limit
to the digits of a number decides whether there is a text, but not which (`textAt`).
-/

namespace UrlScan.JsonValue

/-- What holds of a container when it holds of all that is in it, and of the other values, holds of
every value. -/
@[elab_as_elim, induction_eliminator]
theorem induction {P : JsonValue → Prop} (number : ∀ n, P (.number n)) (string : ∀ t, P (.string t))
    (array : ∀ elements, (∀ element ∈ elements, P element) → P (.array elements))
    (object : ∀ members : List (Text × JsonValue), (∀ member ∈ members, P member.2) →
      P (.object members)) (v : JsonValue) : P v :=
  @JsonValue.rec P (fun elements => ∀ element ∈ elements, P element)
    (fun members => ∀ member ∈ members, P member.2) (fun member => P member.2)
    number string array object
    (fun _ member => absurd member List.not_mem_nil)
    (fun _ _ first others => List.forall_mem_cons.mpr ⟨first, others⟩)
    (fun _ member => absurd member List.not_mem_nil)
    (fun _ _ first others => List.forall_mem_cons.mpr ⟨first, others⟩)
    (fun _ _ value => value) v

mutual
/-- The text of a value that begins at a depth, however many digits its numbers have. -/
def textAt (depth : Nat) : JsonValue → Text
  | number n => Text.decimal n
  | string t => renderString t
  | array [] => ['[', ']']
  | array (element :: rest) =>
    '[' :: newLine (depth + 1) ++ textAt (depth + 1) element
      ++ textOfElements (depth + 1) rest ++ newLine depth ++ [']']
  | object [] => ['\x7b', '\x7d']
  | object ((name, value) :: rest) =>
    '\x7b' :: newLine (depth + 1) ++ renderString name ++ [':', ' '] ++ textAt (depth + 1) value
      ++ textOfMembers (depth + 1) rest ++ newLine depth ++ ['\x7d']

def textOfElements (depth : Nat) : List JsonValue → Text
  | [] => []
  | element :: rest => ',' :: newLine depth ++ textAt depth element ++ textOfElements depth rest

def textOfMembers (depth : Nat) : List (Text × JsonValue) → Text
  | [] => []
  | (name, value) :: rest =>
    ',' :: newLine depth ++ renderString name ++ [':', ' '] ++ textAt depth value
      ++ textOfMembers depth rest
end

/-- The numbers in a value, in its order. -/
def numbers : JsonValue → List Int
  | number n => [n]
  | string _ => []
  | array elements => elements.flatMap numbers
  | object members => members.flatMap fun member => member.2.numbers
decreasing_by
  · next present =>
      have smaller := List.sizeOf_lt_of_mem present
      simp only [array.sizeOf_spec]
      omega
  · next present =>
      have smaller := List.sizeOf_lt_of_mem present
      obtain ⟨name, value⟩ := member
      simp only [Prod.mk.sizeOf_spec] at smaller
      simp only [object.sizeOf_spec]
      omega

section
variable (limit : Option Nat)

/-- The numbers in a value can be written. -/
def Fits (v : JsonValue) : Prop :=
  ∀ n ∈ v.numbers, Text.Writable limit n

/-- A value is written exactly if it fits, and otherwise its writing ends with an error. -/
def IsGuarded (v : JsonValue) : Prop :=
  ∀ depth, Guarded (renderAt limit depth v) (v.Fits limit) (textAt depth v) ⟨limit.getD 0⟩

theorem fits_array_iff {elements : List JsonValue} :
    (array elements).Fits limit ↔ ∀ element ∈ elements, element.Fits limit := by
  simp only [Fits, numbers, List.mem_flatMap]
  exact ⟨fun fits element member n inside => fits n ⟨element, member, inside⟩,
    fun fits n ⟨element, member, inside⟩ => fits element member n inside⟩

theorem fits_object_iff {members : List (Text × JsonValue)} :
    (object members).Fits limit ↔ ∀ member ∈ members, member.2.Fits limit := by
  simp only [Fits, numbers, List.mem_flatMap]
  exact ⟨fun fits member present n inside => fits n ⟨member, present, inside⟩,
    fun fits n ⟨member, present, inside⟩ => fits member present n inside⟩

variable {limit}

theorem renderElements_guarded {elements : List JsonValue}
    (guarded : ∀ element ∈ elements, element.IsGuarded limit) (depth : Nat) :
    Guarded (renderElements limit depth elements) (∀ element ∈ elements, element.Fits limit)
      (textOfElements depth elements) ⟨limit.getD 0⟩ := by
  induction elements with
  | nil => exact (guarded_ok _ _).of_iff (iff_of_true trivial (List.forall_mem_nil _))
  | cons element rest ih =>
    rw [List.forall_mem_cons] at guarded
    rw [renderElements, List.forall_mem_cons]
    exact (guarded.1 depth).bind ((ih guarded.2).map _)

theorem renderMembers_guarded {members : List (Text × JsonValue)}
    (guarded : ∀ member ∈ members, member.2.IsGuarded limit) (depth : Nat) :
    Guarded (renderMembers limit depth members) (∀ member ∈ members, member.2.Fits limit)
      (textOfMembers depth members) ⟨limit.getD 0⟩ := by
  induction members with
  | nil => exact (guarded_ok _ _).of_iff (iff_of_true trivial (List.forall_mem_nil _))
  | cons member rest ih =>
    rw [List.forall_mem_cons] at guarded
    rw [renderMembers, List.forall_mem_cons]
    exact (guarded.1 depth).bind ((ih guarded.2).map _)

theorem renderAt_guarded (v : JsonValue) : v.IsGuarded limit := by
  induction v with
  | number n =>
    intro depth
    exact (Text.ofInt_guarded limit n).of_iff (by simp [Fits, numbers])
  | string t =>
    intro depth
    exact (guarded_ok _ _).of_iff (by simp [Fits, numbers])
  | array elements ih =>
    intro depth
    rw [fits_array_iff]
    cases elements with
    | nil => exact (guarded_ok _ _).of_iff (iff_of_true trivial (List.forall_mem_nil _))
    | cons element rest =>
      rw [List.forall_mem_cons] at ih
      rw [renderAt, List.forall_mem_cons]
      exact (ih.1 (depth + 1)).bind ((renderElements_guarded ih.2 (depth + 1)).map _)
  | object members ih =>
    intro depth
    rw [fits_object_iff]
    cases members with
    | nil => exact (guarded_ok _ _).of_iff (iff_of_true trivial (List.forall_mem_nil _))
    | cons member rest =>
      rw [List.forall_mem_cons] at ih
      rw [renderAt, List.forall_mem_cons]
      exact (ih.1 (depth + 1)).bind ((renderMembers_guarded ih.2 (depth + 1)).map _)

/-- A value is written exactly if all numbers in it can be. -/
theorem render_guarded (v : JsonValue) :
    Guarded (v.render limit) (v.Fits limit) (textAt 0 v) ⟨limit.getD 0⟩ :=
  renderAt_guarded v 0

end

end UrlScan.JsonValue
