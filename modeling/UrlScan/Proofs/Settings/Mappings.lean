import UrlScan.Settings.Value

/-!
# Looking up keys of mappings

A mapping is looked at through `Value.get?`, the value of a key that is a text. Setting a key and
merging two layers are described by what they do to this view, so that neither the order of the keys
nor the keys that are no texts need to be spoken of.

Results:
1. `get?_put`: setting a key changes the value of this key only.
2. `get?_mergeEntries`: a merged mapping has the keys of both layers, and a key of both has the two
   values merged.
3. `get?_merged`: two configurations, one over the other.
4. `DistinctKeys.put`: setting a key repeats no key.
-/

namespace UrlScan

/-- No key is there twice. -/
def DistinctKeys (entries : List (Scalar × Value)) : Prop :=
  (entries.map (·.1)).Nodup

/-! ## Keys -/

namespace Scalar

/-- Only a text is the same key as a text, and only itself. -/
theorem sameKey_text_iff {a : Scalar} {t : Text} : a.sameKey (.text t) = true ↔ a = .text t := by
  have notWhole : (Scalar.text t).whole? = none := rfl
  unfold sameKey
  rw [notWhole]
  cases whole : a.whole? with
  | some n =>
    refine iff_of_false Bool.false_ne_true ?_
    rintro rfl
    cases whole
  | none =>
    dsimp only
    split
    next isMoment => cases isMoment
    next => exact beq_iff_eq

theorem text_sameKey_iff {a : Scalar} {t : Text} :
    (Scalar.text t).sameKey a = true ↔ a = .text t := by
  have notWhole : (Scalar.text t).whole? = none := rfl
  unfold sameKey
  rw [notWhole]
  cases whole : a.whole? with
  | some n =>
    refine iff_of_false Bool.false_ne_true ?_
    rintro rfl
    cases whole
  | none => exact beq_iff_eq.trans eq_comm

/-- Every scalar is the same key as itself. -/
theorem sameKey_self (a : Scalar) : a.sameKey a = true := by
  unfold sameKey
  split
  next m n first second =>
    cases first.symm.trans second
    exact beq_self_eq_true m
  next =>
    split
    next => simp only [Moment.same, beq_self_eq_true, Bool.and_self]
    next => exact beq_self_eq_true a
  next notBoth notNeither =>
    cases whole : a.whole? with
    | some n => exact absurd whole (notBoth n n whole)
    | none => exact absurd whole (notNeither whole)

end Scalar

namespace Value

/-! ## Setting a key -/

theorem get?_cons (key : Scalar) (value : Value) (rest : List (Scalar × Value)) (name : Text) :
    get? ((key, value) :: rest) name = if key = .text name then some value else get? rest name := by
  unfold get?
  rw [List.lookup_cons]
  by_cases same : key = .text name
  · rw [same, beq_self_eq_true, if_pos rfl]
  · rw [beq_false_of_ne (Ne.symm same), if_neg same]

theorem find?_text (entries : List (Scalar × Value)) (name : Text) :
    find? entries (.text name) = get? entries name := by
  induction entries with
  | nil => rfl
  | cons entry rest ih =>
    obtain ⟨key, value⟩ := entry
    rw [get?_cons, ← ih]
    unfold find?
    rw [List.find?_cons]
    by_cases same : key = .text name
    · rw [Scalar.sameKey_text_iff.mpr same, if_pos same]
      rfl
    · rw [Bool.eq_false_iff.mpr (mt Scalar.sameKey_text_iff.mp same), if_neg same]

/-- A key that is set has its value, and the other keys keep theirs. -/
theorem get?_put (key : Scalar) (value : Value) (entries : List (Scalar × Value)) (name : Text) :
    get? (put key value entries) name =
      if key = .text name then some value else get? entries name := by
  induction entries with
  | nil => rw [put, get?_cons]
  | cons entry rest ih =>
    obtain ⟨other, old⟩ := entry
    rw [put]
    split
    next same =>
      rw [get?_cons, get?_cons]
      by_cases isName : other = .text name
      · rw [isName, Scalar.text_sameKey_iff] at same
        rw [if_pos isName, if_pos same]
      · have notName : key ≠ .text name := by
          rintro rfl
          exact isName (Scalar.sameKey_text_iff.mp same)
        rw [if_neg isName, if_neg notName, if_neg isName]
    next different =>
      rw [get?_cons, get?_cons, ih]
      by_cases isName : other = .text name
      · have notName : key ≠ .text name := by
          rintro rfl
          exact different (Scalar.sameKey_text_iff.mpr isName)
        rw [if_pos isName, if_neg notName, if_pos isName]
      · rw [if_neg isName, if_neg isName]

theorem get?_eq_none_iff {entries : List (Scalar × Value)} {name : Text} :
    get? entries name = none ↔ .text name ∉ entries.map (·.1) := by
  induction entries with
  | nil => exact iff_of_true rfl List.not_mem_nil
  | cons entry rest ih =>
    rw [get?_cons, List.map_cons, List.mem_cons, not_or, ← ih]
    by_cases same : entry.1 = .text name
    · rw [if_pos same]
      exact iff_of_false (Option.some_ne_none _) fun absent => absent.1 same.symm
    · rw [if_neg same]
      exact (and_iff_right (Ne.symm same)).symm

theorem mem_put {key : Scalar} {value : Value} {entries : List (Scalar × Value)}
    {entry : Scalar × Value} (member : entry ∈ put key value entries) :
    entry ∈ entries ∨ entry.2 = value ∧ (entry.1 = key ∨ entry.1 ∈ entries.map (·.1)) := by
  induction entries with
  | nil =>
    cases List.mem_singleton.mp member
    exact .inr ⟨rfl, .inl rfl⟩
  | cons first rest ih =>
    obtain ⟨other, old⟩ := first
    rw [put] at member
    split at member
    next =>
      rcases List.mem_cons.mp member with rfl | inRest
      · exact .inr ⟨rfl, .inr List.mem_cons_self⟩
      · exact .inl (List.mem_cons_of_mem _ inRest)
    next =>
      rcases List.mem_cons.mp member with rfl | inRest
      · exact .inl List.mem_cons_self
      · rcases ih inRest with old | ⟨isValue, isKey | isOld⟩
        · exact .inl (List.mem_cons_of_mem _ old)
        · exact .inr ⟨isValue, .inl isKey⟩
        · exact .inr ⟨isValue, .inr (List.mem_cons_of_mem _ isOld)⟩

end Value

/-- Setting a key repeats no key. -/
theorem DistinctKeys.put {entries : List (Scalar × Value)} (distinct : DistinctKeys entries)
    (key : Scalar) (value : Value) : DistinctKeys (Value.put key value entries) := by
  induction entries with
  | nil => exact List.nodup_cons.mpr ⟨List.not_mem_nil, .nil⟩
  | cons first rest ih =>
    obtain ⟨other, old⟩ := first
    rw [Value.put]
    split
    next => exact distinct
    next different =>
      obtain ⟨notInRest, distinctRest⟩ := List.nodup_cons.mp distinct
      refine List.nodup_cons.mpr ⟨fun member => ?_, ih distinctRest⟩
      obtain ⟨entry, inPut, isOther⟩ := List.mem_map.mp member
      rcases Value.mem_put inPut with inRest | ⟨-, isKey | isOld⟩
      · exact notInRest (isOther ▸ List.mem_map_of_mem inRest)
      · rw [← isOther.symm.trans isKey] at different
        exact different (Scalar.sameKey_self other)
      · exact notInRest (isOther ▸ isOld)

namespace Value

/-! ## Merging layers -/

/-- The value of a key in two layers, given its value in each. -/
def mergedValue? : Option Value → Option Value → Option Value
  | some old, some value => some (merge old value)
  | none, some value => some value
  | old, none => old

/-- A merged mapping has the keys of both layers, and a key of both has the two values merged. -/
theorem get?_mergeEntries {upper : List (Scalar × Value)} (distinct : DistinctKeys upper)
    (lower : List (Scalar × Value)) (name : Text) :
    get? (mergeEntries lower upper) name = mergedValue? (get? lower name) (get? upper name) := by
  induction upper generalizing lower with
  | nil =>
    have none : get? [] name = none := rfl
    rw [mergeEntries, none]
    cases get? lower name <;> rfl
  | cons entry rest ih =>
    obtain ⟨key, value⟩ := entry
    obtain ⟨notInRest, distinctRest⟩ := List.nodup_cons.mp distinct
    rw [mergeEntries, ih distinctRest, get?_put, get?_cons]
    by_cases isName : key = .text name
    · have absent : get? rest name = none := get?_eq_none_iff.mpr (isName ▸ notInRest)
      rw [if_pos isName, if_pos isName, absent, isName, find?_text]
      cases get? lower name with
      | none => rfl
      | some old => rfl
    · rw [if_neg isName, if_neg isName]

theorem mergedValue?_none (value : Option Value) : mergedValue? none value = value := by
  cases value <;> rfl

theorem mergedValue?_of_none (value : Option Value) : mergedValue? value none = value := by
  cases value <;> rfl

/-- The configuration of a project over the one of a user. -/
theorem get?_merged {user project : List (Scalar × Value)} (distinctUser : DistinctKeys user)
    (distinctProject : DistinctKeys project) (name : Text) :
    get? (mergeEntries (mergeEntries [] user) project) name =
      mergedValue? (get? user name) (get? project name) := by
  have empty : get? [] name = none := rfl
  rw [get?_mergeEntries distinctProject, get?_mergeEntries distinctUser, empty, mergedValue?_none]

end Value

end UrlScan
