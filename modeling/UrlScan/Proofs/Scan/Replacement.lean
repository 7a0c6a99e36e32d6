import Mathlib.Data.List.Induction
import UrlScan.Proofs.Language.ReadyGrammars
import UrlScan.Proofs.Pool.Buckets
import UrlScan.Proofs.Scan.ScannedFile

/-!
# Languages that are replaced between scans

Two things are remembered of a language: the registry remembers its grammar, and the pool keeps the
parsers that the grammar made. Adding the language again makes the registry forget the grammar, but
the pool knows a parser by the name of its language only. So a free parser of the old grammar serves
the files that are scanned with the new one (`replaced_parser_serves`).

This file shows that there is no other way for a parser to serve a grammar that did not make it.
Every parser of the pool was made in the scan of a file of its language, by the grammar that the
registry gave for it then; and the registry still gives this grammar unless the language was added
in the meantime.

Results:
1. `Uses.scanFile_eq`: what a scan makes of the parser and the grammar that it uses.
2. `search_registry`, `search_parsers`: what a search changes in the registry and in the pool.
3. `traced_performAll`: where the parsers of the pool come from.
4. `parser_current_or_replaced`: the parser that is used for a file, after any actions.
-/

namespace UrlScan

/-- What is done with a scanner: a language is added to its registry, or a file is scanned. -/
inductive Action
  | add (language : Language) (engine : Option Engine)
  | scan (fs : FileSystem) (file : Text)

namespace Action

/-- One of the actions replaces what a name means. When the name is an extension, which begins with
a dot, any language may come to be meant by it. -/
def Replaces (actions : List Action) (name : Text) : Prop :=
  ∃ language engine, add language engine ∈ actions ∧
    (language.key = Text.lowercase name ∨ Text.startsWith name ['.'] = true)

theorem Replaces.append {actions : List Action} {name : Text} (replaces : Replaces actions name)
    (later : List Action) : Replaces (actions ++ later) name := by
  obtain ⟨language, engine, member, concerns⟩ := replaces
  exact ⟨language, engine, List.mem_append_left later member, concerns⟩

end Action

namespace Scanner

def perform (s : Scanner) (state : ScanState) : Action → ScanState
  | .add language engine => { state with registry := state.registry.add language engine }
  | .scan fs file => (s.scanFile fs state file).2

def performAll (s : Scanner) (start : ScanState) (actions : List Action) : ScanState :=
  actions.foldl s.perform start

/-- The scan of a file in some state uses a grammar and a parser: the file can be read, its language
is detected, the registry has the grammar for it, and the pool has the parser. -/
structure Uses (s : Scanner) (state : ScanState) (fs : FileSystem) (file language : Text)
    (grammar : Grammar) (parser : PooledParser) : Prop where
  read : ∃ d, s.read fs file = .ok (.ok (.document d))
  detected : state.registry.detect file = language
  planned : (s.plan file language (state.emit (.scanning file language))).1 = .inTree grammar
  taken : (state.pool.acquire language grammar).parser = .ok parser

/-! ## One scan -/

section
variable (s : Scanner) {state : ScanState} {fs : FileSystem} {file language : Text} {d : Document}
  {grammar : Grammar} {parser : PooledParser}

/-- A plan leaves the pool as it is. The registry may have been asked for the grammar of the
language, and was asked if there is one. -/
theorem plan_state (file language : Text) (state : ScanState) :
    (s.plan file language state).2.pool = state.pool ∧
    ((s.plan file language state).2.registry = state.registry ∨
      (s.plan file language state).2.registry = (state.registry.grammar language).registry) ∧
    ∀ grammar, (s.plan file language state).1 = .inTree grammar →
      (state.registry.grammar language).grammar = some grammar ∧
      (s.plan file language state).2.registry = (state.registry.grammar language).registry := by
  unfold plan
  dsimp only
  by_cases plain : language = Registry.unknown ∨
      s.plainLanguages.contains (Text.lowercase language) = true
  · rw [if_pos plain]
    dsimp only
    split
    next => exact ⟨rfl, Or.inl rfl, fun _ impossible => by cases impossible⟩
    next => exact ⟨rfl, Or.inl rfl, fun _ impossible => by cases impossible⟩
  · rw [if_neg plain]
    split
    next grammar found =>
      refine ⟨rfl, Or.inr rfl, fun other same => ?_⟩
      cases same
      exact ⟨found, rfl⟩
    next =>
      split
      next => exact ⟨rfl, Or.inr rfl, fun _ impossible => by cases impossible⟩
      next => exact ⟨rfl, Or.inr rfl, fun _ impossible => by cases impossible⟩

/-- A language that is known and not always searched as plain text is searched with its grammar. -/
theorem plan_inTree (known : language ≠ Registry.unknown)
    (notPlain : s.plainLanguages.contains (Text.lowercase language) = false)
    (given : (state.registry.grammar language).grammar = some grammar) :
    (s.plan file language state).1 = .inTree grammar := by
  unfold plan
  dsimp only
  rw [notPlain, if_neg (by simpa using known), given]

/-- A search with a pooled parser leaves the registry as it is. The pool has the parsers that it has
after one is taken. -/
theorem searchPooled_state (language : Text) (d : Document) (grammar : Grammar)
    (state : ScanState) :
    (s.searchPooled language d grammar state).2.registry = state.registry ∧
    ∀ other, (s.searchPooled language d grammar state).2.pool.parsers other =
      (state.pool.acquire language grammar).pool.parsers other := by
  unfold searchPooled
  dsimp only
  split
  next => split <;> exact ⟨rfl, fun other => rfl⟩
  next parser _ =>
    have released (other : Text) :=
      (state.pool.acquire language grammar).pool.parsers_release language other parser.serial
    split <;> exact ⟨rfl, released⟩

theorem search_registry (file language : Text) (d : Document) (state : ScanState) :
    (s.search file language d state).2.registry = state.registry ∨
      (s.search file language d state).2.registry = (state.registry.grammar language).registry := by
  obtain ⟨-, sameOrAsked, -⟩ := s.plan_state file language state
  unfold search
  split
  next planned =>
    rw [planned] at sameOrAsked
    exact sameOrAsked
  next planned =>
    rw [planned] at sameOrAsked
    exact sameOrAsked
  next planned =>
    rw [planned] at sameOrAsked
    rw [(s.searchPooled_state language d _ _).1]
    exact sameOrAsked

/-- The parsers after a search: those of the pool before it, and the one that was used if the
grammar of the language made it. -/
theorem search_parsers {other : Text}
    (member : parser ∈ (s.search file language d state).2.pool.parsers other) :
    parser ∈ state.pool.parsers other ∨
      other = language ∧ (s.plan file language state).1 = .inTree parser.grammar ∧
      (state.pool.acquire language parser.grammar).parser = .ok parser ∧
      (s.search file language d state).2.registry = (state.registry.grammar language).registry := by
  obtain ⟨samePool, -, asked⟩ := s.plan_state file language state
  unfold search at member ⊢
  split at member
  next planned =>
    rw [planned] at samePool
    exact Or.inl (samePool ▸ member)
  next planned =>
    rw [planned] at samePool
    exact Or.inl (samePool ▸ member)
  next grammar after planned =>
    rw [planned] at samePool asked
    obtain ⟨sameRegistry, sameParsers⟩ := s.searchPooled_state language d grammar after
    have samePool : after.pool = state.pool := samePool
    rw [sameParsers, samePool] at member
    rcases ParserPool.mem_parsers_acquire member with before | ⟨same, taken, rfl⟩
    · exact Or.inl before
    · exact Or.inr ⟨same, congrArg Prod.fst planned, taken, sameRegistry.trans (asked _ rfl).2⟩

/-- The scan of a file changes nothing but by its search. -/
theorem scanFile_state (fs : FileSystem) (state : ScanState) (file : Text) :
    ((s.scanFile fs state file).2.registry = state.registry ∧
      (s.scanFile fs state file).2.pool = state.pool) ∨
    ∃ d, s.read fs file = .ok (.ok (.document d)) ∧
      (s.scanFile fs state file).2 = (s.search file (state.registry.detect file) d
        (state.emit (.scanning file (state.registry.detect file)))).2 := by
  unfold scanFile
  split
  next => exact Or.inl ⟨rfl, rfl⟩
  next => exact Or.inl ⟨rfl, rfl⟩
  next => exact Or.inl ⟨rfl, rfl⟩
  next d read =>
    refine Or.inr ⟨d, read, ?_⟩
    dsimp only
    split
    next searched => rw [searched]
    next searched =>
      rw [searched]
      split <;> rfl

end

/-! ## A file that is scanned with a grammar -/

namespace Uses

variable {s : Scanner} {state : ScanState} {fs : FileSystem} {file language : Text}
  {grammar : Grammar} {parser : PooledParser}

/-- The registry gives the grammar for the language of the file. -/
theorem given (uses : s.Uses state fs file language grammar parser) :
    (state.registry.grammar language).grammar = some grammar :=
  ((s.plan_state file language _).2.2 grammar uses.planned).1

theorem search_eq (uses : s.Uses state fs file language grammar parser) (d : Document) :
    ∃ after, s.search file language d (state.emit (.scanning file language)) =
        (s.searchTree d grammar parser, after) ∧
      after.registry = (state.registry.grammar language).registry ∧
      after.pool = (state.pool.acquire language grammar).pool.release language parser.serial := by
  obtain ⟨samePool, -, asked⟩ := s.plan_state file language (state.emit (.scanning file language))
  have planned := uses.planned
  unfold search
  split
  next isPlan =>
    rw [isPlan] at planned
    cases planned
  next isPlan =>
    rw [isPlan] at planned
    cases planned
  next after isPlan =>
    rw [isPlan] at planned samePool asked
    cases planned
    have samePool : after.pool = state.pool := samePool
    have sameRegistry := (asked grammar rfl).2
    unfold searchPooled
    dsimp only
    rw [samePool, uses.taken]
    dsimp only
    refine ⟨_, rfl, ?_, ?_⟩
    · split
      next => exact sameRegistry
      next => exact sameRegistry
    · split
      next => rfl
      next => rfl

/-- The scan searches the tree that the parser makes, by the rules of the language of the grammar.
It gives the parser back, and the registry remembers the grammar. -/
theorem scanFile_eq (uses : s.Uses state fs file language grammar parser) :
    (∃ d, s.read fs file = .ok (.ok (.document d)) ∧
      (s.scanFile fs state file).1 =
        match s.searchTree d grammar parser, s.filter with
        | .error fault, _ => .ok (.error ⟨file, fault⟩)
        | .ok occurrences, some filter => .ok (.ok (filter.applyTo ⟨file, occurrences⟩))
        | .ok _, none => .error (.wrongKind .domainNotText)) ∧
    (s.scanFile fs state file).2.registry = (state.registry.grammar language).registry ∧
    (s.scanFile fs state file).2.pool =
      (state.pool.acquire language grammar).pool.release language parser.serial := by
  obtain ⟨d, read⟩ := uses.read
  obtain ⟨after, searched, sameRegistry, samePool⟩ := uses.search_eq d
  have scanned : s.scanFile fs state file =
      (match s.searchTree d grammar parser, s.filter with
        | .error fault, _ => .ok (.error ⟨file, fault⟩)
        | .ok occurrences, some filter => .ok (.ok (filter.applyTo ⟨file, occurrences⟩))
        | .ok _, none => .error (.wrongKind .domainNotText), after) := by
    unfold scanFile
    rw [read]
    dsimp only
    rw [uses.detected, searched]
    cases s.searchTree d grammar parser with
    | error fault => rfl
    | ok occurrences =>
      cases s.filter with
      | none => rfl
      | some filter => rfl
  rw [scanned]
  exact ⟨⟨d, read, rfl⟩, sameRegistry, samePool⟩

end Uses

/-! ## All scans -/

/-- Where a parser that is kept for a language comes from: its grammar made it in the scan of a file
of the language, and the registry still gives this grammar, or the language was added again. -/
def Traced (s : Scanner) (start : ScanState) (actions : List Action) (language : Text)
    (parser : PooledParser) : Prop :=
  ∃ earlier fs file later, actions = earlier ++ .scan fs file :: later ∧
    s.Uses (s.performAll start earlier) fs file language parser.grammar parser ∧
    ((s.performAll start actions).registry.Ready language parser.grammar ∨
      Action.Replaces later language)

section
variable {s : Scanner} {start : ScanState} {actions : List Action} {language : Text}
  {parser : PooledParser}

theorem performAll_append (s : Scanner) (start : ScanState) (actions : List Action)
    (action : Action) :
    s.performAll start (actions ++ [action]) = s.perform (s.performAll start actions) action := by
  unfold performAll
  rw [List.foldl_append]
  rfl

/-- One more action leaves a parser traced if the registry remembers its grammar, or if the action
replaces the language. -/
theorem Traced.append (traced : s.Traced start actions language parser) {action : Action}
    (kept : (s.performAll start actions).registry.Ready language parser.grammar →
      (s.perform (s.performAll start actions) action).registry.Ready language parser.grammar ∨
        Action.Replaces [action] language) :
    s.Traced start (actions ++ [action]) language parser := by
  obtain ⟨earlier, fs, file, later, whole, uses, current⟩ := traced
  refine ⟨earlier, fs, file, later ++ [action], ?_, uses, ?_⟩
  · rw [whole, List.append_assoc, List.cons_append]
  · rw [performAll_append]
    rcases current with ready | replaced
    · refine (kept ready).imp_right fun ⟨other, engine, member, concerns⟩ => ?_
      exact ⟨other, engine, List.mem_append_right later member, concerns⟩
    · exact Or.inr (replaced.append [action])

/-- The parsers after the scan of a file are those before it, and the one that was used if it was
made by the grammar that the registry gives from then on. -/
theorem scanFile_parsers {state : ScanState} {fs : FileSystem} {file : Text}
    (distinct : state.registry.Distinct)
    (member : parser ∈ (s.scanFile fs state file).2.pool.parsers language) :
    parser ∈ state.pool.parsers language ∨
      s.Uses state fs file language parser.grammar parser ∧
      (s.scanFile fs state file).2.registry.Ready language parser.grammar := by
  rcases s.scanFile_state fs state file with ⟨-, samePool⟩ | ⟨d, read, after⟩
  · exact Or.inl (samePool ▸ member)
  · rw [after] at member ⊢
    rcases s.search_parsers member with before | ⟨rfl, planned, taken, asked⟩
    · exact Or.inl before
    · have uses : s.Uses state fs file _ parser.grammar parser := ⟨⟨d, read⟩, rfl, planned, taken⟩
      rw [asked]
      exact Or.inr ⟨uses, Registry.grammar_ready distinct uses.given⟩

theorem scanFile_registry (s : Scanner) (state : ScanState) (fs : FileSystem) (file : Text) :
    (s.scanFile fs state file).2.registry = state.registry ∨
      ∃ name, (s.scanFile fs state file).2.registry = (state.registry.grammar name).registry := by
  rcases s.scanFile_state fs state file with ⟨same, -⟩ | ⟨d, -, after⟩
  · exact Or.inl same
  · rw [after]
    exact (s.search_registry file _ d _).imp_right fun asked => ⟨_, asked⟩

theorem distinct_perform {state : ScanState} (distinct : state.registry.Distinct)
    (action : Action) : (s.perform state action).registry.Distinct := by
  cases action with
  | add language engine => exact Registry.distinct_add distinct language engine
  | scan fs file =>
    rcases scanFile_registry s state fs file with same | ⟨name, asked⟩
    · exact same ▸ distinct
    · exact asked ▸ Registry.distinct_grammar distinct name

/-- A scan makes the registry forget no grammar, and adding a language none but that of a name that
it replaces. -/
theorem ready_perform {state : ScanState} (distinct : state.registry.Distinct) {action : Action}
    {grammar : Grammar} (ready : state.registry.Ready language grammar) :
    (s.perform state action).registry.Ready language grammar ∨
      Action.Replaces [action] language := by
  cases action with
  | add added engine =>
    by_cases concerns : added.key = Text.lowercase language ∨
        Text.startsWith language ['.'] = true
    · exact Or.inr ⟨added, engine, List.mem_singleton_self _, concerns⟩
    · rw [not_or, Bool.not_eq_true] at concerns
      exact Or.inl (ready.after_add concerns.2 concerns.1 engine)
  | scan fs file =>
    left
    rcases scanFile_registry s state fs file with same | ⟨name, asked⟩
    · exact same ▸ ready
    · exact asked ▸ ready.after_grammar distinct name

/-- Where the parsers come from that are kept after any actions. -/
theorem traced_performAll (distinct : start.registry.Distinct)
    (noParser : ∀ language, start.pool.parsers language = []) (actions : List Action) :
    (s.performAll start actions).registry.Distinct ∧
      ∀ language, ∀ parser ∈ (s.performAll start actions).pool.parsers language,
        s.Traced start actions language parser := by
  induction actions using List.reverseRecOn with
  | nil =>
    refine ⟨distinct, fun language parser member => ?_⟩
    have member : parser ∈ start.pool.parsers language := member
    rw [noParser] at member
    cases member
  | append_singleton actions action ih =>
    obtain ⟨distinctBefore, traced⟩ := ih
    rw [performAll_append]
    refine ⟨distinct_perform distinctBefore action, fun language parser member => ?_⟩
    have kept (before : parser ∈ (s.performAll start actions).pool.parsers language) :
        s.Traced start (actions ++ [action]) language parser :=
      (traced language parser before).append (ready_perform distinctBefore)
    cases action with
    | add added engine => exact kept member
    | scan fs file =>
      rcases scanFile_parsers distinctBefore member with before | ⟨uses, ready⟩
      · exact kept before
      · refine ⟨actions, fs, file, [], rfl, uses, Or.inl ?_⟩
        rw [performAll_append]
        exact ready

/-- The registry gives the grammar that is used for a file. The parser was made by this grammar, or
it was made in the scan of an earlier file of the language by the grammar that the registry gave
then, and the language was added again since. -/
theorem parser_current_or_replaced {registry : Registry} (distinct : registry.Distinct)
    {fs : FileSystem} {file : Text} {grammar : Grammar}
    (uses : s.Uses (s.performAll (s.newState registry) actions) fs file language grammar parser) :
    ((s.performAll (s.newState registry) actions).registry.grammar language).grammar =
      some grammar ∧
    (parser.grammar = grammar ∨
      ∃ earlier fs' file' later, actions = earlier ++ .scan fs' file' :: later ∧
        s.Uses (s.performAll (s.newState registry) earlier) fs' file' language parser.grammar
          parser ∧
        Action.Replaces later language) := by
  refine ⟨uses.given, ?_⟩
  have distinctStart : (s.newState registry).registry.Distinct := by
    unfold newState
    dsimp only
    split
    next => exact Registry.distinct_builtIn _
    next => exact distinct
  have noParser : ∀ language, (s.newState registry).pool.parsers language = [] := fun _ => rfl
  obtain ⟨-, traced⟩ := traced_performAll distinctStart noParser actions
  rcases ParserPool.parser_acquired uses.taken with same | kept
  · exact Or.inl same
  · obtain ⟨earlier, fs', file', later, whole, made, ready | replaced⟩ := traced _ _ kept
    · left
      have given := uses.given
      rw [ready.grammar_eq] at given
      exact Option.some.inj given
    · exact Or.inr ⟨earlier, fs', file', later, whole, made, replaced⟩

end

/-- A language that is replaced after a file of it was scanned: the next file is scanned with the
parser of the old grammar, though the registry gives the new one. -/
theorem exists_stale_use :
    ∃ (options : ScanOptions) (s : Scanner) (registry : Registry) (actions : List Action)
      (fs : FileSystem) (file language : Text) (grammar : Grammar) (parser : PooledParser),
      ScanOptions.ofArguments [] = .ok options ∧ ofOptions options = .ok s ∧ registry.Distinct ∧
      s.Uses (s.performAll (s.newState registry) actions) fs file language grammar parser ∧
      parser.grammar ≠ grammar := by
  let lua := Language.builtIn "lua" "Lua" [".lua"] [] ["string"] ["comment"]
  let fs : FileSystem := ⟨.directory [("a.lua".toList, .file [])], []⟩
  let registry := (Registry.empty none).add lua (some .sketch)
  let old : Grammar := ⟨0, lua, .registered, .sketch⟩
  let new : Grammar := ⟨1, lua, .registered, .sketch⟩
  let parser : PooledParser := ⟨0, old⟩
  obtain ⟨options, checked⟩ : ∃ options, ScanOptions.ofArguments [] = .ok options := ⟨_, rfl⟩
  obtain ⟨s, made⟩ : ∃ s, ofOptions options = .ok s := by
    cases checked
    exact ⟨_, rfl⟩
  obtain ⟨noLimit, noPlain, sameStart⟩ : s.options.maxFileSize.toInt = 0 ∧
      s.plainLanguages = [] ∧
      s.newState registry = ⟨registry, .ofCapacity 10 (by decide), []⟩ := by
    cases checked
    cases made
    exact ⟨rfl, rfl, rfl⟩
  have known : "lua".toList ≠ Registry.unknown := by decide
  have notPlain : s.plainLanguages.contains (Text.lowercase "lua".toList) = false := by
    rw [noPlain]
    rfl
  have content : fs.read (.parse "a.lua".toList) = .ok [] := rfl
  obtain ⟨d, read, -⟩ := s.read_document content (Utf8.decode_encode []) noLimit
  have first : s.Uses (s.newState registry) fs "a.lua".toList "lua".toList old parser := by
    rw [sameStart]
    exact ⟨⟨d, read⟩, rfl, s.plan_inTree known notPlain rfl, rfl⟩
  -- The first scan leaves the parser in the pool, and the language is added again.
  let after := s.performAll (s.newState registry)
    [.scan fs "a.lua".toList, .add lua (some .sketch)]
  obtain ⟨-, registryAfter, poolAfter⟩ := first.scanFile_eq
  have sameRegistry : after.registry =
      ((s.newState registry).registry.grammar "lua".toList).registry.add lua (some .sketch) :=
    congrArg (·.add lua (some .sketch)) registryAfter
  have samePool : after.pool =
      ((s.newState registry).pool.acquire "lua".toList old).pool.release "lua".toList 0 :=
    poolAfter
  rw [sameStart] at sameRegistry samePool
  have second : s.Uses after fs "a.lua".toList "lua".toList new parser := by
    refine ⟨⟨d, read⟩, ?_, s.plan_inTree known notPlain ?_, ?_⟩
    · rw [sameRegistry]
      rfl
    · show (after.registry.grammar "lua".toList).grammar = some new
      rw [sameRegistry]
      rfl
    · rw [samePool]
      rfl
  have differ : parser.grammar ≠ new := fun same =>
    Nat.zero_ne_one (congrArg Grammar.serial same)
  exact ⟨options, s, registry, _, fs, _, _, new, parser, checked, made,
    Registry.distinct_add (Registry.distinct_empty none) lua _, second, differ⟩

/-- A scan does not always use a parser of the grammar that the registry gives. -/
theorem replaced_parser_serves :
    ¬∀ (s : Scanner) (registry : Registry), registry.Distinct →
      ∀ actions fs file language grammar parser,
        s.Uses (s.performAll (s.newState registry) actions) fs file language grammar parser →
        parser.grammar = grammar := by
  intro always
  obtain ⟨-, s, registry, actions, fs, file, language, grammar, parser, -, -, distinct, uses,
    differ⟩ := exists_stale_use
  exact differ (always s registry distinct actions fs file language grammar parser uses)

/-- The parser of a replaced grammar was made in the scan of an earlier file, before the language
was added again. -/
theorem parser_current_or_replaced_stale :
    ∃ (s : Scanner) (registry : Registry) (actions : List Action) (fs : FileSystem)
      (file language : Text) (grammar : Grammar) (parser : PooledParser),
      registry.Distinct ∧
      s.Uses (s.performAll (s.newState registry) actions) fs file language grammar parser ∧
      ∃ earlier fs' file' later, actions = earlier ++ .scan fs' file' :: later ∧
        s.Uses (s.performAll (s.newState registry) earlier) fs' file' language parser.grammar
          parser ∧
        Action.Replaces later language := by
  obtain ⟨-, s, registry, actions, fs, file, language, grammar, parser, -, -, distinct, uses,
    differ⟩ := exists_stale_use
  have replaced := (parser_current_or_replaced distinct uses).2.resolve_left differ
  exact ⟨s, registry, actions, fs, file, language, grammar, parser, distinct, uses, replaced⟩

end Scanner

end UrlScan
