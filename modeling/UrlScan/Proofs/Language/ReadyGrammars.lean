import Mathlib.Data.List.Nodup
import UrlScan.Language.Registry

/-!
# Grammars that a registry remembers

A grammar that a registry has given out is remembered with the registration of its language
(`Registry.Ready`), and asking again, by whatever name, gives the same grammar. Only adding a
language can change that: the registration of its name is replaced, and what was remembered with it
is forgotten. An extension may in this way also come to mean another language, which a name
cannot.

All of this needs that no two registrations are of the same name without regard to case
(`Registry.Distinct`), which every operation keeps.

Results:
1. `distinct_add`, `distinct_grammar`: names stay different.
2. `grammar_ready`: a grammar that is given out is remembered.
3. `Ready.after_grammar`: asking for a grammar makes the registry forget none.
4. `Ready.after_add`: adding a language makes it forget that of its own name only.
-/

namespace UrlScan.Registry

/-- No two registrations are of the same name. -/
def Distinct (r : Registry) : Prop :=
  (r.entries.map (·.language.key)).Nodup

/-- The registration whose grammar is meant by an extension, which begins with a dot, or by a
name. -/
def entryOf? (r : Registry) (extensionOrName : Text) : Option Registration :=
  if Text.startsWith extensionOrName ['.'] then r.findExtension? extensionOrName
  else r.find? extensionOrName

/-- The registry remembers a grammar for an extension or a name. -/
def Ready (r : Registry) (extensionOrName : Text) (grammar : Grammar) : Prop :=
  ∃ entry, r.entryOf? extensionOrName = some entry ∧ entry.status = .ready grammar

/-! ## Registrations by name -/

section
variable {entries : List Registration} {entry : Registration}

theorem keys_upsert (entry : Registration) (entries : List Registration) :
    (upsert entry entries).map (·.language.key) = entries.map (·.language.key) ∨
    entry.language.key ∉ entries.map (·.language.key) ∧
      (upsert entry entries).map (·.language.key) =
        entries.map (·.language.key) ++ [entry.language.key] := by
  induction entries with
  | nil => exact Or.inr ⟨List.not_mem_nil, rfl⟩
  | cons other rest ih =>
    rw [upsert]
    split
    next same => exact Or.inl (by rw [List.map_cons, List.map_cons, same])
    next differs =>
      simp only [List.map_cons, List.mem_cons, List.cons.injEq, List.cons_append, true_and, not_or]
      rcases ih with same | ⟨absent, more⟩
      · exact Or.inl same
      · exact Or.inr ⟨⟨Ne.symm differs, absent⟩, more⟩

theorem nodup_upsert (distinct : (entries.map (·.language.key)).Nodup) (entry : Registration) :
    ((upsert entry entries).map (·.language.key)).Nodup := by
  rcases keys_upsert entry entries with same | ⟨absent, more⟩
  · rw [same]
    exact distinct
  · rw [more]
    exact (List.perm_append_singleton _ _).nodup_iff.mpr (List.nodup_cons.mpr ⟨absent, distinct⟩)

/-- A registration leaves those of other names where they are. -/
theorem find?_upsert {name : Text} (other : entry.language.key ≠ name) :
    (upsert entry entries).find? (·.language.key == name) =
      entries.find? (·.language.key == name) := by
  induction entries with
  | nil => rw [upsert, List.find?_cons_of_neg (by simpa using other)]
  | cons first rest ih =>
    rw [upsert]
    split
    next same =>
      have notFirst : first.language.key ≠ name := same ▸ other
      rw [List.find?_cons_of_neg (by simpa using other),
        List.find?_cons_of_neg (by simpa using notFirst)]
    next => rw [List.find?_cons, List.find?_cons, ih]

/-- Registrations of the same name are the same one. -/
theorem eq_of_key (distinct : (entries.map (·.language.key)).Nodup) {other : Registration}
    (member : entry ∈ entries) (otherMember : other ∈ entries)
    (same : other.language.key = entry.language.key) : other = entry :=
  List.inj_on_of_nodup_map distinct otherMember member same

/-- The registration of a language with another status. -/
def withStatus (entry : Registration) (status : GrammarStatus) (other : Registration) :
    Registration :=
  if other.language = entry.language then { entry with status } else other

theorem language_withStatus (entry other : Registration) (status : GrammarStatus) :
    (withStatus entry status other).language = other.language := by
  unfold withStatus
  split
  next same => exact same.symm
  next => rfl

/-- Giving a registration another status changes this registration only, in its place. -/
theorem upsert_status (distinct : (entries.map (·.language.key)).Nodup) (member : entry ∈ entries)
    (status : GrammarStatus) :
    upsert { entry with status } entries = entries.map (withStatus entry status) := by
  induction entries with
  | nil => cases member
  | cons first rest ih =>
    have isOnly := eq_of_key distinct member List.mem_cons_self
    rw [List.map_cons, List.nodup_cons] at distinct
    rw [upsert, List.map_cons]
    split
    next same =>
      obtain rfl := isOnly same
      have others : rest.map (withStatus first status) = rest.map id := by
        refine List.map_congr_left fun other later => ?_
        refine if_neg fun sameLanguage => distinct.1 ?_
        rw [← sameLanguage]
        exact List.mem_map_of_mem later
      rw [others, List.map_id, withStatus, if_pos rfl]
    next differs =>
      have notFirst : first.language ≠ entry.language := fun same => differs (by rw [same])
      have later : entry ∈ rest :=
        (List.mem_cons.mp member).resolve_left fun same => differs (by rw [same])
      rw [ih distinct.2 later, withStatus, if_neg notFirst]

end

section
variable {r : Registry} {name : Text} {entry : Registration} {grammar : Grammar}

theorem entryOf?_mem (found : r.entryOf? name = some entry) : entry ∈ r.entries := by
  unfold entryOf? at found
  split at found
  next => exact List.mem_of_find?_eq_some found
  next =>
    unfold find? at found
    split at found
    next => cases found
    next => exact List.mem_of_find?_eq_some found

theorem grammar_eq (r : Registry) (name : Text) :
    r.grammar name =
      match r.entryOf? name with
      | some entry => r.resolve entry
      | none => ⟨none, r, []⟩ :=
  rfl

/-! ## Names stay different -/

theorem distinct_empty (package : Option GrammarPackage) : (empty package).Distinct :=
  List.nodup_nil

theorem distinct_add (distinct : r.Distinct) (language : Language) (engine : Option Engine) :
    (r.add language engine).Distinct :=
  nodup_upsert distinct _

theorem distinct_builtIn (package : Option GrammarPackage) : (builtIn package).Distinct := by
  unfold builtIn
  exact List.foldlRecOn Language.builtIns _ (distinct_empty package)
    fun r distinct language _ => distinct_add distinct language none

theorem distinct_resolve (distinct : r.Distinct) (entry : Registration) :
    (r.resolve entry).registry.Distinct := by
  unfold resolve
  split
  next => exact distinct
  next => exact distinct
  next =>
    split
    next => exact nodup_upsert distinct _
    next =>
      dsimp only
      split
      next => exact nodup_upsert distinct _
      next => exact nodup_upsert distinct _

theorem distinct_grammar (distinct : r.Distinct) (name : Text) :
    (r.grammar name).registry.Distinct := by
  rw [grammar_eq]
  split
  next => exact distinct_resolve distinct _
  next => exact distinct

/-! ## Remembered grammars -/

/-- A remembered grammar is given out, and nothing changes by that. -/
theorem Ready.grammar_eq (ready : r.Ready name grammar) :
    r.grammar name = ⟨some grammar, r, []⟩ := by
  obtain ⟨entry, found, status⟩ := ready
  rw [Registry.grammar_eq, found]
  dsimp only
  rw [resolve, status]

/-- Another status of a registration changes this registration only. -/
theorem entryOf?_setStatus (distinct : r.Distinct) (member : entry ∈ r.entries)
    (status : GrammarStatus) (name : Text) :
    (r.setStatus entry status).entryOf? name = (r.entryOf? name).map (withStatus entry status) := by
  have sameLanguage (p : Language → Bool) :
      (r.entries.map (withStatus entry status)).find? (p ·.language) =
        (r.entries.find? (p ·.language)).map (withStatus entry status) := by
    rw [List.find?_map]
    simp only [Function.comp_def, language_withStatus]
  unfold entryOf? findExtension? find? setStatus
  dsimp only
  rw [upsert_status distinct member]
  split
  next => exact sameLanguage (·.hasExtension name)
  next =>
    split
    next => rfl
    next => exact sameLanguage (·.key == Text.lowercase name)

/-- The status of a registration that has none yet is no loss for a remembered grammar. -/
theorem Ready.after_setStatus (ready : r.Ready name grammar) (distinct : r.Distinct)
    (member : entry ∈ r.entries) (notAsked : entry.status = .notAsked) (status : GrammarStatus) :
    (r.setStatus entry status).Ready name grammar := by
  obtain ⟨remembered, found, isReady⟩ := ready
  refine ⟨remembered, ?_, isReady⟩
  rw [entryOf?_setStatus distinct member, found, Option.map_some, withStatus, if_neg]
  intro sameLanguage
  have same : remembered = entry :=
    eq_of_key distinct member (entryOf?_mem found) (by rw [sameLanguage])
  rw [same, notAsked] at isReady
  cases isReady

theorem Ready.after_resolve (ready : r.Ready name grammar) (distinct : r.Distinct)
    (member : entry ∈ r.entries) : (r.resolve entry).registry.Ready name grammar := by
  unfold resolve
  split
  next => exact ready
  next => exact ready
  next notAsked =>
    split
    next => exact ready.after_setStatus distinct member notAsked _
    next =>
      dsimp only
      -- The library and the serial number of the next grammar have no part in what is remembered.
      split
      next => exact Ready.after_setStatus ready distinct member notAsked _
      next => exact Ready.after_setStatus ready distinct member notAsked _

/-- Asking for a grammar makes the registry forget none. -/
theorem Ready.after_grammar (ready : r.Ready name grammar) (distinct : r.Distinct) (other : Text) :
    (r.grammar other).registry.Ready name grammar := by
  rw [Registry.grammar_eq]
  split
  next found => exact ready.after_resolve distinct (entryOf?_mem found)
  next => exact ready

/-- A registration that gets a grammar is found with it. -/
theorem ready_setStatus (distinct : r.Distinct) (found : r.entryOf? name = some entry)
    (grammar : Grammar) : (r.setStatus entry (.ready grammar)).Ready name grammar := by
  refine ⟨{ entry with status := .ready grammar }, ?_, rfl⟩
  rw [entryOf?_setStatus distinct (entryOf?_mem found), found, Option.map_some, withStatus,
    if_pos rfl]

theorem resolve_ready (distinct : r.Distinct) (found : r.entryOf? name = some entry)
    (given : (r.resolve entry).grammar = some grammar) :
    (r.resolve entry).registry.Ready name grammar := by
  unfold resolve at given ⊢
  split at given
  next isReady =>
    cases given
    exact ⟨entry, found, isReady⟩
  next => cases given
  next =>
    split at given
    next =>
      cases given
      exact ready_setStatus distinct found grammar
    next =>
      dsimp only at given ⊢
      split at given
      next =>
        cases given
        exact ready_setStatus (r := { r with library := _, nextSerial := _ }) distinct found _
      next => cases given

/-- A grammar that is given out is remembered. -/
theorem grammar_ready (distinct : r.Distinct) (given : (r.grammar name).grammar = some grammar) :
    (r.grammar name).registry.Ready name grammar := by
  rw [grammar_eq] at given ⊢
  split at given
  next found => exact resolve_ready distinct found given
  next => cases given

/-- Adding a language makes the registry forget the grammar of this name, and of no other one. -/
theorem Ready.after_add (ready : r.Ready name grammar)
    (isName : Text.startsWith name ['.'] = false) {language : Language}
    (otherName : language.key ≠ Text.lowercase name) (engine : Option Engine) :
    (r.add language engine).Ready name grammar := by
  obtain ⟨entry, found, isReady⟩ := ready
  refine ⟨entry, ?_, isReady⟩
  have noExtension : ¬Text.startsWith name ['.'] = true := Bool.eq_false_iff.mp isName
  rw [← found]
  unfold entryOf? find? add
  rw [if_neg noExtension, if_neg noExtension]
  dsimp only
  rw [find?_upsert otherName]

end

end UrlScan.Registry
