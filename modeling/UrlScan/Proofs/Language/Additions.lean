import Mathlib.Data.Finset.Card
import UrlScan.Proofs.Language.Replay

/-!
# Which languages a registry has

A registry is a list that is updated in place. What is in it after any sequence of requests can be
told from the languages that were added, in the order of the additions: there is one language for
each key, namely the one that was added last, and it stands where its key was added first. The
order of the first additions decides between extensions of the same length, so a language that is
replaced keeps its rank while all its data change.

Results:
1. `Lists.add`: what one addition does to the keys and to the languages.
2. `Lists.serveAll`: after any requests, the keys and the languages of a registry are those of the
   additions.
3. `leavesOthers_add`: an addition leaves the other languages alone.
4. `languages_of_additions`: all of this for every sequence of requests.
-/

namespace UrlScan.Registry

/-- A registry with some languages from the start. -/
def ofLanguages (package : Option GrammarPackage) (languages : List Language) : Registry :=
  languages.foldl (fun r language => r.add language none) (empty package)

/-- The language that a request adds. -/
def Request.added? : Request → Option Language
  | add language _ => some language
  | ask _ => none

/-- The keys of some languages, in the order in which they occur first. -/
def firstKeys (added : List Language) : List Text :=
  (added.map Language.key).eraseDups

/-- The last one of some languages that has a key. -/
def latest? (added : List Language) (key : Text) : Option Language :=
  added.reverse.find? (·.key == key)

/-- The registry has the languages that were added: for each key the last one, at the place of the
first one. -/
structure Lists (r : Registry) (added : List Language) : Prop where
  keys : r.languages.map Language.key = firstKeys added
  found : ∀ key, r.languages.find? (·.key == key) = latest? added key

/-- After an addition under a key, the registrations of other keys are the same ones at the same
places, they are found by the same names, and asking for their grammars has the same answers and
warnings. A grammar that is remembered for a name stays the same one. -/
structure LeavesOthers (r after : Registry) (key : Text) : Prop where
  place : ∀ (i : Nat) (entry : Registration), r.entries[i]? = some entry →
    entry.language.key ≠ key → after.entries[i]? = some entry
  named : ∀ name, Text.lowercase name ≠ key → after.find? name = r.find? name
  resolved : ∀ entry ∈ r.entries, entry.language.key ≠ key →
    (after.resolve entry).grammar.map Grammar.content =
        (r.resolve entry).grammar.map Grammar.content ∧
      (after.resolve entry).failures = (r.resolve entry).failures
  given : ∀ name, Text.startsWith name ['.'] = false → Text.lowercase name ≠ key →
    (after.grammar name).grammar.map Grammar.content =
        (r.grammar name).grammar.map Grammar.content ∧
      (after.grammar name).failures = (r.grammar name).failures ∧
      ∀ grammar, r.Ready name grammar → (after.grammar name).grammar = some grammar

/-! ## One addition -/

section
variable {r : Registry} {added : List Language} {entries : List Registration}
  {entry : Registration}

theorem mem_firstKeys {key : Text} : key ∈ firstKeys added ↔ key ∈ added.map Language.key := by
  rw [firstKeys, List.mem_eraseDups]

theorem firstKeys_append (added : List Language) (language : Language) :
    firstKeys (added ++ [language]) =
      if language.key ∈ firstKeys added then firstKeys added
      else firstKeys added ++ [language.key] := by
  rw [firstKeys, List.map_append, List.map_singleton, List.eraseDups_append, ← firstKeys]
  by_cases present : language.key ∈ firstKeys added
  · have again := mem_firstKeys.mp present
    rw [if_pos present, List.removeAll, List.filter_cons_of_neg (by simpa using again)]
    exact List.append_nil _
  · have isNew : language.key ∉ added.map Language.key := fun again =>
      present (mem_firstKeys.mpr again)
    rw [if_neg present, List.removeAll, List.filter_cons_of_pos (by simpa using isNew)]
    rfl

theorem latest?_append (added : List Language) (language : Language) (key : Text) :
    latest? (added ++ [language]) key =
      if language.key = key then some language else latest? added key := by
  rw [latest?, List.reverse_append, List.reverse_singleton, List.singleton_append, List.find?_cons]
  by_cases same : language.key = key
  · rw [if_pos same, beq_iff_eq.mpr same]
  · rw [if_neg same, beq_false_of_ne same, latest?]

theorem map_key_languages (r : Registry) :
    r.languages.map Language.key = r.entries.map (·.language.key) := by
  rw [languages, List.map_map]
  rfl

theorem find?_languages (r : Registry) (key : Text) :
    r.languages.find? (·.key == key) =
      (r.entries.find? (·.language.key == key)).map (·.language) := by
  rw [languages, List.find?_map]
  rfl

/-- The keys of a list of registrations grow by the new key, if it is not among them. -/
theorem keys_upsert_eq (entry : Registration) (entries : List Registration) :
    (upsert entry entries).map (·.language.key) =
      if entry.language.key ∈ entries.map (·.language.key) then entries.map (·.language.key)
      else entries.map (·.language.key) ++ [entry.language.key] := by
  rcases keys_upsert entry entries with same | ⟨absent, more⟩
  · have present : entry.language.key ∈ entries.map (·.language.key) := by
      rw [← same]
      exact List.mem_map_of_mem (self_mem_upsert entry entries)
    rw [if_pos present, same]
  · rw [if_neg absent, more]

/-- The registrations of other keys stay where they are. -/
theorem getElem?_upsert {other : Registration} (differs : other.language.key ≠ entry.language.key)
    {i : Nat} (found : entries[i]? = some other) : (upsert entry entries)[i]? = some other := by
  induction entries generalizing i with
  | nil => cases found
  | cons first rest ih =>
    rw [upsert]
    cases i with
    | zero =>
      obtain rfl : first = other := Option.some.inj found
      rw [if_neg differs]
      rfl
    | succ i =>
      split
      next => exact found
      next => exact ih found

theorem Lists.add (lists : r.Lists added) (language : Language) (engine : Option Engine) :
    (r.add language engine).Lists (added ++ [language]) := by
  have keys := lists.keys
  rw [map_key_languages] at keys
  let entry : Registration :=
    ⟨language, engine.map fun e => ⟨r.nextSerial, language, .registered, e⟩, .notAsked⟩
  refine ⟨?_, fun key => ?_⟩
  · rw [map_key_languages, firstKeys_append, ← keys]
    exact keys_upsert_eq entry r.entries
  · rw [latest?_append, ← lists.found key, find?_languages, find?_languages]
    split
    next same =>
      subst same
      exact congrArg (Option.map (·.language)) (find?_upsert_self entry r.entries)
    next differs =>
      have others : (upsert entry r.entries).find? (·.language.key == key) =
          r.entries.find? (·.language.key == key) := find?_upsert differs
      exact congrArg (Option.map (·.language)) others

/-! ## Any requests -/

theorem lists_empty (package : Option GrammarPackage) : (empty package).Lists [] :=
  ⟨rfl, fun _ => rfl⟩

theorem languages_eq_offers (r : Registry) : r.languages = r.offers.map Prod.fst := by
  rw [languages, offers, List.map_map]
  rfl

theorem Lists.serve {package : Option GrammarPackage} (lists : r.Lists added)
    (sound : r.Sound package) (request : Request) :
    (r.serve request).Lists (added ++ request.added?.toList) := by
  cases request with
  | add language engine => exact lists.add language engine
  | ask name =>
    have same : (r.grammar name).registry.languages = r.languages := by
      rw [languages_eq_offers, languages_eq_offers, sound.offers_grammar]
    rw [Request.added?, Option.toList_none, List.append_nil]
    exact ⟨same ▸ lists.keys, same ▸ lists.found⟩

theorem Lists.serveAll {package : Option GrammarPackage} (lists : r.Lists added)
    (sound : r.Sound package) (requests : List Request) :
    (r.serveAll requests).Lists (added ++ requests.filterMap Request.added?) := by
  induction requests generalizing r added with
  | nil =>
    rw [List.filterMap_nil, List.append_nil]
    exact lists
  | cons request rest ih =>
    have later := ih (lists.serve sound request) (sound.serve request)
    rw [List.append_assoc] at later
    cases request <;> exact later

/-- A registry with some languages from the start is one to which they were added. -/
theorem ofLanguages_eq_serveAll (package : Option GrammarPackage) (languages : List Language) :
    ofLanguages package languages =
      (empty package).serveAll (languages.map fun language => .add language none) := by
  rw [ofLanguages, serveAll, List.foldl_map]
  rfl

theorem sound_empty (package : Option GrammarPackage) : (empty package).Sound package :=
  Unused.sound ⟨rfl, rfl, GrammarLibrary.faithful_ofPackage package⟩

theorem sound_ofLanguages (package : Option GrammarPackage) (languages : List Language) :
    (ofLanguages package languages).Sound package := by
  rw [ofLanguages_eq_serveAll]
  exact (sound_empty package).serveAll _

theorem lists_ofLanguages (package : Option GrammarPackage) (languages : List Language) :
    (ofLanguages package languages).Lists languages := by
  have lists := (lists_empty package).serveAll (sound_empty package)
    (languages.map fun language => .add language none)
  rw [← ofLanguages_eq_serveAll, List.nil_append, List.filterMap_map] at lists
  have all : languages.filterMap (Request.added? ∘ fun language => .add language none) =
      languages := List.filterMap_some
  rwa [all] at lists

/-! ## What is found -/

/-- A registration is found under its key. -/
theorem find?_of_mem (distinct : r.Distinct) (member : entry ∈ r.entries) :
    r.entries.find? (·.language.key == entry.language.key) = some entry := by
  cases found : r.entries.find? (·.language.key == entry.language.key) with
  | none =>
    exact absurd (beq_self_eq_true entry.language.key) (List.find?_eq_none.mp found entry member)
  | some other =>
    have sameKey := List.find?_some found
    rw [eq_of_key distinct member (List.mem_of_find?_eq_some found) (by simpa using sameKey)]

/-- The languages are told by their keys and by what is found under each key. -/
theorem Lists.languages_eq (lists : r.Lists added) (distinct : r.Distinct) :
    r.languages = (firstKeys added).filterMap (latest? added) := by
  have self : ∀ language ∈ r.languages, latest? added language.key = some language := by
    intro language member
    obtain ⟨entry, inEntries, rfl⟩ := List.mem_map.mp member
    rw [← lists.found, find?_languages, find?_of_mem distinct inEntries, Option.map_some]
  calc r.languages
    _ = r.languages.filterMap some := List.filterMap_some.symm
    _ = r.languages.filterMap (latest? added ∘ Language.key) :=
      List.filterMap_congr fun language member => (self language member).symm
    _ = (firstKeys added).filterMap (latest? added) := by rw [← List.filterMap_map, lists.keys]

/-- There are as many languages as different keys. -/
theorem Lists.length_languages (lists : r.Lists added) (distinct : r.Distinct) :
    r.languages.length = (added.map Language.key).toFinset.card := by
  have nodup : (r.languages.map Language.key).Nodup := by
    rw [map_key_languages]
    exact distinct
  have sameKeys : (r.languages.map Language.key).toFinset = (added.map Language.key).toFinset := by
    ext key
    rw [List.mem_toFinset, List.mem_toFinset, lists.keys, mem_firstKeys]
  rw [← sameKeys, List.toFinset_card_of_nodup nodup, List.length_map]

/-! ## The other languages -/

/-- The answer about a registration does not depend on the other ones. -/
theorem resolve_add (r : Registry) (language : Language) (engine : Option Engine)
    (entry : Registration) :
    ((r.add language engine).resolve entry).grammar.map Grammar.content =
        (r.resolve entry).grammar.map Grammar.content ∧
      ((r.add language engine).resolve entry).failures = (r.resolve entry).failures := by
  unfold resolve
  cases entry.status with
  | ready => exact ⟨rfl, rfl⟩
  | unavailable => exact ⟨rfl, rfl⟩
  | notAsked =>
    cases entry.adapter with
    | some => exact ⟨rfl, rfl⟩
    | none =>
      have sameLibrary : (r.add language engine).library = r.library := rfl
      dsimp only
      rw [sameLibrary]
      cases (r.library.load entry.language.grammarSource).1 <;> exact ⟨rfl, rfl⟩

theorem find?_add {language : Language} {name : Text} (other : Text.lowercase name ≠ language.key)
    (engine : Option Engine) : (r.add language engine).find? name = r.find? name := by
  unfold find? add
  split
  next => rfl
  next => exact find?_upsert (Ne.symm other)

theorem leavesOthers_add (r : Registry) (language : Language) (engine : Option Engine) :
    r.LeavesOthers (r.add language engine) language.key where
  place _ _ found differs := getElem?_upsert differs found
  named _ other := find?_add other engine
  resolved entry _ _ := resolve_add r language engine entry
  given name isName other := by
    have noExtension : ¬Text.startsWith name ['.'] = true := Bool.eq_false_iff.mp isName
    have sameEntry : (r.add language engine).entryOf? name = r.entryOf? name := by
      rw [entryOf?, entryOf?, if_neg noExtension, if_neg noExtension, find?_add other]
    have answers : ((r.add language engine).grammar name).grammar.map Grammar.content =
          (r.grammar name).grammar.map Grammar.content ∧
        ((r.add language engine).grammar name).failures = (r.grammar name).failures := by
      rw [grammar_eq, grammar_eq, sameEntry]
      cases r.entryOf? name with
      | none => exact ⟨rfl, rfl⟩
      | some entry => exact resolve_add r language engine entry
    refine ⟨answers.1, answers.2, fun grammar ready => ?_⟩
    rw [(ready.after_add isName (Ne.symm other) engine).grammar_eq]

/-- After any requests a registry has no two languages of one key. Its languages are, for each key
in the order of the first additions, the one that was added last, so there are as many as different
keys. One more addition leaves the languages of all other keys alone. -/
theorem languages_of_additions (package : Option GrammarPackage) (initial : List Language)
    (requests : List Request) :
    let r := (ofLanguages package initial).serveAll requests
    let added := initial ++ requests.filterMap Request.added?
    (r.languages.map Language.key).Nodup ∧
      r.languages = (firstKeys added).filterMap (latest? added) ∧
      r.languages.length = (added.map Language.key).toFinset.card ∧
      ∀ language engine, r.LeavesOthers (r.add language engine) language.key := by
  intro r added
  have sound := (sound_ofLanguages package initial).serveAll requests
  have lists := (lists_ofLanguages package initial).serveAll (sound_ofLanguages package initial)
    requests
  refine ⟨?_, lists.languages_eq sound.distinct, lists.length_languages sound.distinct,
    leavesOthers_add r⟩
  rw [map_key_languages]
  exact sound.distinct

end

end UrlScan.Registry
