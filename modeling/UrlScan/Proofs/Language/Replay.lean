import UrlScan.Proofs.Language.ReadyGrammars

/-!
# What a registry remembers does not show

A registry remembers the grammars that it was asked for and the failures to load one, and the
grammar library remembers the engines that it loaded. None of this can be seen in the answers of the
registry. After any requests it answers like a fresh registry to which the same languages were added
and that was never asked for a grammar (`answers_replayed`). What is remembered of failures shows in
the warnings only: there is one for a language until the language is added again.

Grammars are compared but for their serial numbers (`Grammar.content`), which count how many
grammars were made.

Results:
1. `load_eq`: a library that is faithful to its package loads what the package has.
2. `resolve_status`: what resolving a registration does.
3. `Sound.answer`: the answer of a registry, in terms of what was registered.
4. `warnings_le_one`: the warnings between two registrations of a language.
5. `answers_replayed`: all of this for every sequence of requests.
-/

namespace UrlScan

/-! ## The library -/

namespace GrammarLibrary

/-- What is loaded is what the package has. -/
def Faithful (library : GrammarLibrary) : Prop :=
  ∀ source engine, library.loaded.lookup source = some engine →
    ∃ package, library.package = some package ∧ package source = .ok engine

theorem faithful_ofPackage (package : Option GrammarPackage) : (ofPackage package).Faithful :=
  fun _ _ found => by cases found

/-- The engine for a grammar identifier in a package, if it is installed. -/
def fromPackage (package : Option GrammarPackage) (source : Text) : Except Text Engine :=
  match package with
  | none => .error notInstalled
  | some load => load source

section
variable {library : GrammarLibrary}

theorem load_eq (faithful : library.Faithful) (source : Text) :
    (library.load source).1 = fromPackage library.package source := by
  unfold load
  split
  next engine found =>
    obtain ⟨package, isPackage, has⟩ := faithful source engine found
    rw [isPackage, fromPackage, has]
  next =>
    split
    next none => rw [none, fromPackage]
    next package isPackage =>
      dsimp only
      rw [isPackage, fromPackage]
      split
      next found => exact found.symm
      next found => exact found.symm

theorem load_package (library : GrammarLibrary) (source : Text) :
    (library.load source).2.package = library.package := by
  unfold load
  split
  next => rfl
  next =>
    split
    next => rfl
    next =>
      dsimp only
      split <;> rfl

theorem load_faithful (faithful : library.Faithful) (source : Text) :
    (library.load source).2.Faithful := by
  unfold load
  split
  next => exact faithful
  next =>
    split
    next => exact faithful
    next package isPackage =>
      dsimp only
      split
      next engine has =>
        intro other found isFound
        dsimp only at isFound
        rw [List.lookup_cons] at isFound
        split at isFound
        next same =>
          cases isFound
          rw [beq_iff_eq.mp same]
          exact ⟨package, isPackage, has⟩
        next => exact faithful other found isFound
      next => exact faithful

end

end GrammarLibrary

/-! ## What is registered -/

/-- A grammar but for its serial number. -/
def Grammar.content (g : Grammar) : Language × GrammarSource × Engine :=
  (g.language, g.source, g.engine)

/-- A language and the grammar that is registered together with it, if there is one. -/
abbrev Offer := Language × Option (Language × GrammarSource × Engine)

namespace Offer

/-- What is offered when a language is added, with an engine or without. -/
def ofLanguage (language : Language) (engine : Option Engine) : Offer :=
  (language, engine.map (language, .registered, ·))

/-- The grammar that there is for an offer: the one that was registered, or else one for the
language with an engine of the package. -/
def served (package : Option GrammarPackage) :
    Offer → Option (Language × GrammarSource × Engine)
  | (_, some content) => some content
  | (language, none) =>
    (GrammarLibrary.fromPackage package language.grammarSource).toOption.map (language, .package, ·)

end Offer

def GrammarStatus.grammar? : GrammarStatus → Option Grammar
  | ready grammar => some grammar
  | notAsked | unavailable => none

namespace Registration

def offer (entry : Registration) : Offer :=
  (entry.language, entry.adapter.map Grammar.content)

/-- What is remembered with a registration is what there is for its offer, and the grammar itself if
one was registered. -/
structure Sound (package : Option GrammarPackage) (entry : Registration) : Prop where
  served : entry.status ≠ .notAsked →
    entry.status.grammar?.map Grammar.content = entry.offer.served package
  registered : entry.status ≠ .notAsked → ∀ grammar, entry.adapter = some grammar →
    entry.status.grammar? = some grammar

end Registration

namespace Registry

/-- What a registry and its library remember is true of the package. -/
structure Sound (package : Option GrammarPackage) (r : Registry) : Prop where
  distinct : r.Distinct
  installed : r.library.package = package
  faithful : r.library.Faithful
  entries : ∀ entry ∈ r.entries, entry.Sound package

def offers (r : Registry) : List Offer :=
  r.entries.map Registration.offer

section
variable {package : Option GrammarPackage} {r other : Registry} {entry : Registration}
  {status : GrammarStatus} {name : Text}

/-! ## Resolving a registration -/

theorem map_withStatus (distinct : r.Distinct) (member : entry ∈ r.entries)
    {β : Type} {f : Registration → β} (same : f { entry with status } = f entry) :
    (r.entries.map (withStatus entry status)).map f = r.entries.map f := by
  rw [List.map_map]
  refine List.map_congr_left fun other otherMember => ?_
  rw [Function.comp_apply, withStatus]
  split
  next sameLanguage =>
    rw [same, eq_of_key distinct member otherMember (by rw [sameLanguage])]
  next => rfl

/-- A registration that is resolved has a status from then on, and is the only one that changes. The
status gives the answer. There is a warning at most when the status is found out. -/
theorem resolve_status (sound : r.Sound package) (member : entry ∈ r.entries) :
    ∃ status, status ≠ .notAsked ∧ Registration.Sound package { entry with status } ∧
      (r.resolve entry).grammar = status.grammar? ∧
      (r.resolve entry).registry.entries = r.entries.map (withStatus entry status) ∧
      ((r.resolve entry).failures = [] ∨
        ∃ reason, entry.status = .notAsked ∧
          (r.resolve entry).failures = [⟨entry.language.name, reason⟩]) := by
  have unchanged : r.entries.map (withStatus entry entry.status) = r.entries := by
    have same : (r.entries.map (withStatus entry entry.status)).map id = r.entries.map id :=
      map_withStatus sound.distinct member rfl
    rwa [List.map_id, List.map_id] at same
  have isSound := sound.entries entry member
  have ready (grammar : Grammar) : GrammarStatus.ready grammar ≠ .notAsked := fun same => by
    cases same
  have unavailable : GrammarStatus.unavailable ≠ .notAsked := fun same => by cases same
  unfold resolve
  split
  next grammar isReady =>
    exact ⟨entry.status, isReady ▸ ready grammar, isSound, by rw [isReady]; rfl, unchanged.symm,
      .inl rfl⟩
  next isUnavailable =>
    exact ⟨entry.status, isUnavailable ▸ unavailable, isSound, by rw [isUnavailable]; rfl,
      unchanged.symm, .inl rfl⟩
  next notAsked =>
    split
    next grammar isAdapter =>
      refine ⟨.ready grammar, ready grammar, ⟨fun _ => ?_, fun _ other isOther => ?_⟩, rfl,
        upsert_status sound.distinct member _, .inl rfl⟩
      · rw [Registration.offer, isAdapter]
        rfl
      · exact isAdapter.symm.trans isOther
    next noAdapter =>
      have none (grammar : Grammar) : entry.adapter ≠ some grammar := fun isAdapter => by
        cases noAdapter.symm.trans isAdapter
      have loads := GrammarLibrary.load_eq sound.faithful entry.language.grammarSource
      rw [sound.installed] at loads
      dsimp only
      split
      next engine loaded =>
        refine ⟨.ready _, ready _,
          ⟨fun _ => ?_, fun _ other isOther => absurd isOther (none _)⟩, rfl,
          upsert_status sound.distinct member _, .inl rfl⟩
        rw [Registration.offer, noAdapter, Option.map_none, Offer.served, ← loads, loaded]
        rfl
      next reason failed =>
        refine ⟨.unavailable, unavailable,
          ⟨fun _ => ?_, fun _ other isOther => absurd isOther (none _)⟩, rfl,
          upsert_status sound.distinct member _, .inr ⟨reason, notAsked, rfl⟩⟩
        rw [Registration.offer, noAdapter, Option.map_none, Offer.served, ← loads, failed]
        rfl

theorem library_resolve (r : Registry) (entry : Registration) :
    (r.resolve entry).registry.library = r.library ∨
      (r.resolve entry).registry.library =
        (r.library.load entry.language.grammarSource).2 := by
  unfold resolve
  split
  next => exact .inl rfl
  next => exact .inl rfl
  next =>
    split
    next => exact .inl rfl
    next =>
      dsimp only
      split
      next => exact .inr rfl
      next => exact .inr rfl

/-! ## One request -/

theorem Sound.grammar (sound : r.Sound package) (name : Text) :
    (r.grammar name).registry.Sound package := by
  have distinct := distinct_grammar sound.distinct name
  rw [grammar_eq] at distinct ⊢
  split
  next entry found =>
    rw [found] at distinct
    obtain ⟨status, -, isSound, -, entries, -⟩ := resolve_status sound (entryOf?_mem found)
    refine ⟨distinct, ?_, ?_, fun other member => ?_⟩
    · rcases library_resolve r entry with same | loaded
      · exact (congrArg GrammarLibrary.package same).trans sound.installed
      · rw [loaded, GrammarLibrary.load_package]
        exact sound.installed
    · rcases library_resolve r entry with same | loaded
      · exact same ▸ sound.faithful
      · exact loaded ▸ GrammarLibrary.load_faithful sound.faithful _
    · rw [entries] at member
      obtain ⟨old, oldMember, rfl⟩ := List.mem_map.mp member
      unfold withStatus
      split
      next => exact isSound
      next => exact sound.entries old oldMember
  next => exact sound

theorem mem_upsert {entries : List Registration} {other : Registration}
    (member : other ∈ upsert entry entries) : other = entry ∨ other ∈ entries := by
  induction entries with
  | nil => exact .inl (List.mem_singleton.mp member)
  | cons first rest ih =>
    rw [upsert] at member
    split at member
    next => exact (List.mem_cons.mp member).imp_right (List.mem_cons_of_mem _)
    next =>
      rcases List.mem_cons.mp member with rfl | later
      · exact .inr List.mem_cons_self
      · exact (ih later).imp_right (List.mem_cons_of_mem _)

theorem self_mem_upsert (entry : Registration) (entries : List Registration) :
    entry ∈ upsert entry entries := by
  induction entries with
  | nil => exact List.mem_singleton_self entry
  | cons first rest ih =>
    rw [upsert]
    split
    next => exact List.mem_cons_self
    next => exact List.mem_cons_of_mem _ ih

theorem Sound.add (sound : r.Sound package) (language : Language) (engine : Option Engine) :
    (r.add language engine).Sound package := by
  refine ⟨distinct_add sound.distinct language engine, sound.installed, sound.faithful,
    fun entry member => ?_⟩
  rcases mem_upsert member with rfl | old
  · exact ⟨fun asked => absurd rfl asked, fun asked => absurd rfl asked⟩
  · exact sound.entries entry old

/-- The answer of a registry is what there is for the offer that is meant. -/
theorem Sound.answer (sound : r.Sound package) (name : Text) :
    (r.grammar name).grammar.map Grammar.content =
      ((r.entryOf? name).map Registration.offer).bind (Offer.served package) := by
  rw [grammar_eq]
  split
  next entry found =>
    obtain ⟨status, asked, isSound, answer, -, -⟩ := resolve_status sound (entryOf?_mem found)
    rw [found, answer]
    exact isSound.served asked
  next none =>
    rw [none]
    rfl

/-- A grammar that was registered is given itself. -/
theorem Sound.answer_registered (sound : r.Sound package) (found : r.entryOf? name = some entry)
    {adapter : Grammar} (isAdapter : entry.adapter = some adapter) :
    (r.grammar name).grammar = some adapter := by
  obtain ⟨status, asked, isSound, answer, -, -⟩ := resolve_status sound (entryOf?_mem found)
  rw [grammar_eq, found]
  exact answer.trans (isSound.registered asked adapter isAdapter)

/-! ## Offers -/

theorem entryOf?_offer (same : r.offers = other.offers) (name : Text) :
    (r.entryOf? name).map Registration.offer = (other.entryOf? name).map Registration.offer := by
  have found (p : Language → Bool) (s : Registry) :
      (s.entries.find? (p ·.language)).map Registration.offer = s.offers.find? (p ·.1) := by
    rw [offers, List.find?_map]
    rfl
  unfold entryOf? findExtension? find?
  split
  next => rw [found (·.hasExtension name), found (·.hasExtension name), same]
  next =>
    split
    next => rfl
    next =>
      rw [found (·.key == Text.lowercase name), found (·.key == Text.lowercase name), same]

/-- Asking for a grammar changes no offer. -/
theorem Sound.offers_grammar (sound : r.Sound package) (name : Text) :
    (r.grammar name).registry.offers = r.offers := by
  rw [grammar_eq]
  split
  next entry found =>
    have member := entryOf?_mem found
    obtain ⟨status, -, -, -, entries, -⟩ := resolve_status sound member
    rw [offers, entries]
    exact map_withStatus sound.distinct member rfl
  next => rfl

theorem map_offer_upsert {entry added : Registration} {entries others : List Registration}
    (same : entries.map Registration.offer = others.map Registration.offer)
    (sameEntry : entry.offer = added.offer) :
    (upsert entry entries).map Registration.offer =
      (upsert added others).map Registration.offer := by
  induction entries generalizing others with
  | nil =>
    rw [List.map_nil, eq_comm, List.map_eq_nil_iff] at same
    rw [same, upsert, upsert, List.map_singleton, List.map_singleton, sameEntry]
  | cons first rest ih =>
    obtain ⟨second, more, rfl, sameFirst, sameRest⟩ := List.map_eq_cons_iff.mp same.symm
    have firstKey : second.language.key = first.language.key :=
      congrArg (·.1.key) sameFirst
    have entryKey : entry.language.key = added.language.key := congrArg (·.1.key) sameEntry
    rw [upsert, upsert, firstKey, ← entryKey]
    split
    next => rw [List.map_cons, List.map_cons, sameEntry, sameRest]
    next => rw [List.map_cons, List.map_cons, sameFirst, ih sameRest.symm]

theorem offer_added (language : Language) (engine : Option Engine) (serial : Nat) :
    Registration.offer ⟨language, engine.map fun e => ⟨serial, language, .registered, e⟩, .notAsked⟩
      = .ofLanguage language engine := by
  cases engine <;> rfl

/-- What is offered after a language is added does not depend on what is remembered. -/
theorem offers_add (same : r.offers = other.offers) (language : Language)
    (engine : Option Engine) :
    (r.add language engine).offers = (other.add language engine).offers :=
  map_offer_upsert same ((offer_added language engine _).trans (offer_added language engine _).symm)

/-- A language that is added again is given as it is added. -/
theorem Sound.answer_add (sound : r.Sound package) (language : Language) (engine : Option Engine)
    (means : ((r.add language engine).entryOf? name).map (·.language) = some language) :
    ((r.add language engine).grammar name).grammar.map Grammar.content =
      (Offer.ofLanguage language engine).served package := by
  have soundAfter := sound.add language engine
  obtain ⟨entry, found, isLanguage⟩ := Option.map_eq_some_iff.mp means
  have isAdded : entry =
      ⟨language, engine.map fun e => ⟨r.nextSerial, language, .registered, e⟩, .notAsked⟩ :=
    eq_of_key soundAfter.distinct (self_mem_upsert _ _) (entryOf?_mem found)
      (by rw [isLanguage])
  rw [soundAfter.answer, found, isAdded, Option.map_some, offer_added]
  rfl

theorem find?_upsert_self (entry : Registration) (entries : List Registration) :
    (upsert entry entries).find? (·.language.key == entry.language.key) = some entry := by
  induction entries with
  | nil => exact List.find?_cons_of_pos (beq_self_eq_true entry.language.key)
  | cons first rest ih =>
    rw [upsert]
    split
    next => exact List.find?_cons_of_pos (beq_self_eq_true entry.language.key)
    next differs =>
      refine (List.find?_cons_of_neg ?_).trans ih
      exact fun same => differs (beq_iff_eq.mp same)

/-- The name of a language that is added means this language. -/
theorem entryOf?_add (r : Registry) {language : Language} (engine : Option Engine)
    (notEmpty : name ≠ []) (isName : Text.startsWith name ['.'] = false)
    (ofLanguage : Text.lowercase name = language.key) :
    ((r.add language engine).entryOf? name).map (·.language) = some language := by
  unfold entryOf? find? add
  rw [if_neg (Bool.eq_false_iff.mp isName), if_neg (by rwa [List.isEmpty_iff]), ofLanguage]
  exact congrArg (Option.map (·.language)) (find?_upsert_self ⟨language, _, .notAsked⟩ r.entries)

/-! ## Warnings -/

/-- A registry was asked for the grammar of a language since it was added, or does not have it. -/
def Asked (r : Registry) (key : Text) : Prop :=
  ∀ entry ∈ r.entries, entry.language.key = key → entry.status ≠ .notAsked

/-- The warnings for a language. -/
def countFor (key : Text) (warnings : List GrammarError) : Nat :=
  warnings.countP fun warning => Text.lowercase warning.language == key

theorem Asked.grammar {key : Text} (asked : r.Asked key) (sound : r.Sound package) (name : Text) :
    (r.grammar name).registry.Asked key ∧ countFor key (r.grammar name).failures = 0 := by
  rw [grammar_eq]
  split
  next entry found =>
    have member := entryOf?_mem found
    obtain ⟨status, isAsked, -, -, entries, warned⟩ := resolve_status sound member
    refine ⟨fun other otherMember isKey => ?_, ?_⟩
    · rw [entries] at otherMember
      obtain ⟨old, oldMember, rfl⟩ := List.mem_map.mp otherMember
      rw [language_withStatus] at isKey
      unfold withStatus
      split
      next => exact isAsked
      next => exact asked old oldMember isKey
    · rcases warned with none | ⟨reason, notAsked, one⟩
      · rw [none]
        rfl
      · rw [one]
        have otherKey : ¬(Text.lowercase entry.language.name == key) = true := fun same =>
          asked entry member (beq_iff_eq.mp same) notAsked
        exact List.countP_cons_of_neg otherKey
  next => exact ⟨asked, rfl⟩

/-- A warning for a language is the last one until the language is added again. -/
theorem Sound.warned (sound : r.Sound package) (key name : Text) :
    countFor key (r.grammar name).failures = 0 ∨
      countFor key (r.grammar name).failures = 1 ∧ (r.grammar name).registry.Asked key := by
  rw [grammar_eq]
  split
  next entry found =>
    have member := entryOf?_mem found
    obtain ⟨status, isAsked, -, -, entries, none | ⟨reason, -, one⟩⟩ := resolve_status sound member
    · rw [none]
      exact .inl rfl
    · by_cases isKey : Text.lowercase entry.language.name = key
      · refine .inr ⟨?_, fun other otherMember sameKey => ?_⟩
        · rw [one]
          exact List.countP_cons_of_pos (beq_iff_eq.mpr isKey)
        · rw [entries] at otherMember
          obtain ⟨old, oldMember, rfl⟩ := List.mem_map.mp otherMember
          rw [language_withStatus] at sameKey
          have same := eq_of_key sound.distinct member oldMember (sameKey.trans isKey.symm)
          rw [withStatus, if_pos (congrArg Registration.language same)]
          exact isAsked
      · rw [one]
        exact .inl (List.countP_cons_of_neg fun same => isKey (beq_iff_eq.mp same))
  next => exact .inl rfl

theorem Asked.add {key : Text} (asked : r.Asked key) {language : Language}
    (otherLanguage : language.key ≠ key) (engine : Option Engine) :
    (r.add language engine).Asked key := by
  intro entry member isKey
  rcases mem_upsert member with rfl | old
  · exact absurd isKey otherLanguage
  · exact asked entry old isKey

end

/-! ## Sequences of requests -/

/-- What a registry is asked to do. -/
inductive Request
  | add (language : Language) (engine : Option Engine)
  /-- To give the grammar for an extension or a name. -/
  | ask (extensionOrName : Text)

def Request.isAddition : Request → Bool
  | add _ _ => true
  | ask _ => false

def serve (r : Registry) : Request → Registry
  | .add language engine => r.add language engine
  | .ask name => (r.grammar name).registry

def serveAll (r : Registry) (requests : List Request) : Registry :=
  requests.foldl serve r

/-- The warnings that are given while some requests are served. -/
def warnings (r : Registry) : List Request → List GrammarError
  | [] => []
  | .add language engine :: rest => (r.add language engine).warnings rest
  | .ask name :: rest => (r.grammar name).failures ++ (r.grammar name).registry.warnings rest

/-- A registry to which no language was added yet. Its library may have loaded engines already. -/
structure Unused (package : Option GrammarPackage) (r : Registry) : Prop where
  entries : r.entries = []
  installed : r.library.package = package
  faithful : r.library.Faithful

section
variable {package : Option GrammarPackage} {r fresh : Registry}

theorem Unused.sound (unused : r.Unused package) : r.Sound package := by
  refine ⟨?_, unused.installed, unused.faithful, fun entry member => ?_⟩
  · rw [Distinct, unused.entries]
    exact List.nodup_nil
  · rw [unused.entries] at member
    exact absurd member List.not_mem_nil

theorem Sound.serve (sound : r.Sound package) (request : Request) :
    (r.serve request).Sound package := by
  cases request with
  | add language engine => exact sound.add language engine
  | ask name => exact sound.grammar name

theorem Sound.serveAll (sound : r.Sound package) (requests : List Request) :
    (r.serveAll requests).Sound package :=
  List.foldlRecOn requests _ sound fun _ sound request _ => sound.serve request

/-- The languages that are added make the offers, and nothing else does. -/
theorem offers_serveAll (sound : r.Sound package) (freshSound : fresh.Sound package)
    (same : r.offers = fresh.offers) (requests : List Request) :
    (r.serveAll requests).offers =
      (fresh.serveAll (requests.filter Request.isAddition)).offers := by
  induction requests generalizing r fresh with
  | nil => exact same
  | cons request rest ih =>
    cases request with
    | add language engine =>
      exact ih (sound.add language engine) (freshSound.add language engine)
        (offers_add same language engine)
    | ask name =>
      exact ih (sound.grammar name) freshSound ((sound.offers_grammar name).trans same)

theorem warnings_of_asked {key : Text} (asked : r.Asked key) (sound : r.Sound package)
    {requests : List Request}
    (notAdded : ∀ language engine, .add language engine ∈ requests → language.key ≠ key) :
    countFor key (r.warnings requests) = 0 := by
  induction requests generalizing r with
  | nil => rfl
  | cons request rest ih =>
    have notAddedLater : ∀ language engine, .add language engine ∈ rest → language.key ≠ key :=
      fun language engine member => notAdded language engine (List.mem_cons_of_mem _ member)
    cases request with
    | add language engine =>
      have other := notAdded language engine List.mem_cons_self
      exact ih (asked.add other engine) (sound.add language engine) notAddedLater
    | ask name =>
      obtain ⟨askedAfter, none⟩ := asked.grammar sound name
      have noneLater := ih askedAfter (sound.grammar name) notAddedLater
      rw [warnings, countFor, List.countP_append]
      exact Nat.add_eq_zero_iff.mpr ⟨none, noneLater⟩

/-- There is at most one warning for a language until it is added again. -/
theorem warnings_le_one (sound : r.Sound package) {key : Text} {requests : List Request}
    (notAdded : ∀ language engine, .add language engine ∈ requests → language.key ≠ key) :
    countFor key (r.warnings requests) ≤ 1 := by
  induction requests generalizing r with
  | nil => exact Nat.zero_le 1
  | cons request rest ih =>
    have notAddedLater : ∀ language engine, .add language engine ∈ rest → language.key ≠ key :=
      fun language engine member => notAdded language engine (List.mem_cons_of_mem _ member)
    cases request with
    | add language engine => exact ih (sound.add language engine) notAddedLater
    | ask name =>
      rw [warnings, countFor, List.countP_append]
      rcases sound.warned key name with none | ⟨one, asked⟩
      · have later := ih (sound.grammar name) notAddedLater
        exact Nat.add_le_add (Nat.le_of_eq none) later
      · have later := warnings_of_asked asked (sound.grammar name) notAddedLater
        exact Nat.le_of_eq (congrArg₂ (· + ·) one later)

/-- After any requests a registry gives, for every extension and name, what a fresh registry gives
to which the same languages were added in the same order; a grammar that was registered is given
itself. While no language of some name is added, there is at most one warning for this name. A
language that is added, for the first time or again, is given as it is added wherever it is meant,
and its name means it: with the engine that was registered, or with the one of the package, if there
is one. -/
theorem answers_replayed (unused : r.Unused package) (freshUnused : fresh.Unused package)
    (requests : List Request) :
    (∀ name, ((r.serveAll requests).grammar name).grammar.map Grammar.content =
      ((fresh.serveAll (requests.filter Request.isAddition)).grammar name).grammar.map
        Grammar.content) ∧
    (∀ name entry adapter, (r.serveAll requests).entryOf? name = some entry →
      entry.adapter = some adapter →
      ((r.serveAll requests).grammar name).grammar = some adapter) ∧
    (∀ key later, (∀ language engine, .add language engine ∈ later → language.key ≠ key) →
      ((r.serveAll requests).warnings later).countP
        (fun warning => Text.lowercase warning.language == key) ≤ 1) ∧
    (∀ language engine name,
      (((r.serveAll requests).add language engine).entryOf? name).map (·.language) =
        some language →
      (((r.serveAll requests).add language engine).grammar name).grammar.map Grammar.content =
        match engine with
        | some engine => some (language, .registered, engine)
        | none =>
          match package with
          | none => none
          | some load => (load language.grammarSource).toOption.map (language, .package, ·)) ∧
    (∀ language engine name, name ≠ [] → Text.startsWith name ['.'] = false →
      Text.lowercase name = language.key →
      (((r.serveAll requests).add language engine).entryOf? name).map (·.language) =
        some language) := by
  have sound := unused.sound.serveAll requests
  have freshSound := freshUnused.sound.serveAll (requests.filter Request.isAddition)
  have noOffers : r.offers = fresh.offers := by
    rw [offers, offers, unused.entries, freshUnused.entries]
  refine ⟨fun name => ?_, fun name entry adapter found => sound.answer_registered found,
    fun key later notAdded => warnings_le_one sound notAdded,
    fun language engine name means => ?_,
    fun language engine name => entryOf?_add _ engine⟩
  · rw [sound.answer, freshSound.answer,
      entryOf?_offer (offers_serveAll unused.sound freshUnused.sound noOffers requests)]
  · rw [sound.answer_add language engine means]
    cases engine with
    | some engine => rfl
    | none => cases package <;> rfl

end

/-- The package has no grammar for Lua. It is asked for by the name and by the extension before it
is added again, and there is one warning; afterwards the engine is given that was added with it. -/
theorem answers_replayed_lua :
    let package : Option GrammarPackage := some fun source =>
      if source = "go".toList then .ok .sketch else .error "missing".toList
    let lua := Language.builtIn "lua" "Lua" [".lua"] [] ["string"] ["comment"]
    let go := Language.builtIn "go" "Go" [".go"] [] ["string"] ["comment"]
    let requests : List Request := [.add lua none, .ask "LUA".toList, .add go none]
    let later : List Request := [.ask ".Lua".toList, .ask "lua".toList, .add go none]
    (empty package).Unused package ∧
    (((empty package).serveAll requests).grammar ".lua".toList).grammar.map Grammar.content =
      (((empty package).serveAll (requests.filter Request.isAddition)).grammar
        ".lua".toList).grammar.map Grammar.content ∧
    ((empty package).warnings (requests ++ later)).length = 1 ∧
    (((empty package).serveAll [.add lua none]).warnings (requests.drop 1 ++ later)).countP
      (fun warning => Text.lowercase warning.language == lua.key) ≤ 1 ∧
    ((((empty package).serveAll requests).add lua (some .sketch)).grammar
      "Lua".toList).grammar.map Grammar.content = some (lua, .registered, .sketch) := by
  intro package lua go requests later
  have unused : (empty package).Unused package :=
    ⟨rfl, rfl, GrammarLibrary.faithful_ofPackage package⟩
  have luaKey : Text.lowercase "Lua".toList = lua.key := by decide +kernel
  have goKey : go.key ≠ lua.key := by decide +kernel
  have notAdded : ∀ language engine, .add language engine ∈ requests.drop 1 ++ later →
      language.key ≠ lua.key := by
    intro language engine member
    have isGo : language = go := by
      rcases member with _ | ⟨_, _ | ⟨_, _ | ⟨_, _ | ⟨_, _ | ⟨_, last⟩⟩⟩⟩⟩
      · rfl
      · rfl
      · cases last
    exact isGo ▸ goKey
  obtain ⟨answers, -, -, added, named⟩ := answers_replayed unused unused requests
  obtain ⟨-, -, warned, -⟩ := answers_replayed unused unused [.add lua none]
  exact ⟨unused, answers _, by decide +kernel, warned lua.key _ notAdded,
    added lua (some .sketch) _ (named lua _ _ (by decide) (by decide) luaKey)⟩

end Registry

end UrlScan
