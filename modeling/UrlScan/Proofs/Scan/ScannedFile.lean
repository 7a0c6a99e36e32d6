import UrlScan.Proofs.Extraction.Placement
import UrlScan.Proofs.Language.ReadyGrammars
import UrlScan.Proofs.Pool.Buckets
import UrlScan.Scan.Scanner

/-!
# What the scan of a file reports

The tree of a file comes from an engine that the scanner has at hand: one that made a parser of the
pool, or one that the registry or the grammar package offers (`ScanState.Offers`). As long as these
engines deliver trees that lie in the file, the occurrences that a scan reports stand in the text of
the file one behind the other, and no file fails for the reason that a node lies outside of it.

Results:
1. `plan_offers` and `acquire_offers`: the parser that is used comes from an engine at hand.
2. `search_placedInTurn`: what the search of a document yields.
3. `scanFile_placedInTurn`: what the scan of a file yields.
-/

namespace UrlScan

/-! ## The engines at hand -/

/-- An engine that a registry may take a grammar from. -/
inductive Registry.Offers (r : Registry) : Engine → Prop
  | adapter {entry : Registration} {grammar : Grammar} :
      entry ∈ r.entries → entry.adapter = some grammar → Offers r grammar.engine
  | ready {entry : Registration} {grammar : Grammar} :
      entry ∈ r.entries → entry.status = .ready grammar → Offers r grammar.engine
  | loaded {source : Text} {engine : Engine} :
      (source, engine) ∈ r.library.loaded → Offers r engine
  | package {package : GrammarPackage} {source : Text} {engine : Engine} :
      r.library.package = some package → package source = .ok engine → Offers r engine

/-- An engine that made a parser of the pool. -/
def ParserPool.Holds (pool : ParserPool) (engine : Engine) : Prop :=
  ∃ bucket ∈ pool.buckets, ∃ entry ∈ bucket.2, entry.parser.grammar.engine = engine

/-- An engine that a scanner has at hand. -/
def ScanState.Offers (s : ScanState) (engine : Engine) : Prop :=
  s.registry.Offers engine ∨ s.pool.Holds engine

/-- The trees of an engine lie in the file, whenever it delivers one. -/
def Engine.Fits (engine : Engine) (bytes : Bytes) : Prop :=
  ∀ tree, engine.parse bytes = .ok tree → tree.Within 0 bytes.length

/-- The faults of a file that its engine is to blame for: it makes no parser, or it does not parse
the file. -/
inductive EngineFault (offered : Engine → Prop) (bytes : Bytes) : ScanFault → Prop
  | noParser {engine : Engine} {language reason : Text} :
      offered engine → engine.creationFault = some reason →
      EngineFault offered bytes (.noParser language reason)
  | unparsable {engine : Engine} {reason : Text} :
      offered engine → engine.parse bytes = .error reason →
      EngineFault offered bytes (.unparsable reason)

namespace Registry

theorem load_offers {r : Registry} {source : Text} {engine : Engine}
    (loaded : (r.library.load source).1 = .ok engine) : r.Offers engine := by
  unfold GrammarLibrary.load at loaded
  split at loaded
  next known =>
    cases loaded
    obtain ⟨before, behind, whole, -⟩ := List.lookup_eq_some_iff.mp known
    have member : (source, engine) ∈ r.library.loaded := by
      rw [whole]
      simp
    exact .loaded member
  next =>
    split at loaded
    next => cases loaded
    next package installed =>
      dsimp only at loaded
      split at loaded
      next found =>
        cases loaded
        exact .package installed found
      next => cases loaded

/-- The grammar of a registered language comes from an engine that the registry offers. -/
theorem resolve_offers {r : Registry} {entry : Registration} {grammar : Grammar}
    (member : entry ∈ r.entries) (found : (r.resolve entry).grammar = some grammar) :
    r.Offers grammar.engine := by
  unfold resolve at found
  split at found
  next ready =>
    cases found
    exact .ready member ready
  next => cases found
  next =>
    split at found
    next adapter =>
      cases found
      exact .adapter member adapter
    next =>
      dsimp only at found
      split at found
      next engine loaded =>
        cases found
        exact load_offers loaded
      next => cases found

theorem grammar_offers {r : Registry} {name : Text} {grammar : Grammar}
    (found : (r.grammar name).grammar = some grammar) : r.Offers grammar.engine := by
  rw [grammar_eq] at found
  split at found
  next present => exact resolve_offers (entryOf?_mem present) found
  next => cases found

end Registry

namespace ParserPool

theorem holds_of_mem_bucket {pool : ParserPool} {language : Text} {entry : PoolEntry}
    (member : entry ∈ pool.bucket language) : pool.Holds entry.parser.grammar.engine := by
  unfold bucket at member
  cases found : pool.buckets.lookup language with
  | none =>
    rw [found] at member
    cases member
  | some entries =>
    rw [found] at member
    obtain ⟨before, behind, whole, -⟩ := List.lookup_eq_some_iff.mp found
    exact ⟨(language, entries), by rw [whole]; simp, entry, member, rfl⟩

/-- A parser that is taken was made by the given grammar or is one of the pool. -/
theorem acquire_offers {pool : ParserPool} {language : Text} {grammar : Grammar}
    {parser : PooledParser} (taken : (pool.acquire language grammar).parser = .ok parser) :
    parser.grammar = grammar ∨ pool.Holds parser.grammar.engine := by
  refine (parser_acquired taken).imp_right fun kept => ?_
  obtain ⟨entry, member, rfl⟩ := List.mem_map.mp kept
  exact holds_of_mem_bucket member

/-- No parser is taken only when the engine of the given grammar makes none. -/
theorem acquire_fault {pool : ParserPool} {language reason : Text} {grammar : Grammar}
    (refused : (pool.acquire language grammar).parser = .error reason) :
    grammar.engine.creationFault = some reason := by
  have takes := acquire_takes pool language grammar
  generalize pool.acquire language grammar = acquisition at takes refused
  cases takes with
  | refuse _ _ fault =>
    cases refused
    exact fault
  | reuse => cases refused
  | create => cases refused
  | share => cases refused

end ParserPool

/-! ## The scan of a file -/

namespace Scanner

section
variable (s : Scanner) {d : Document} {state : ScanState}

/-- The plan for a document: a tree is searched with a grammar that the registry offers, and the
pool stays as it is. -/
theorem plan_offers (file language : Text) (state : ScanState) :
    (s.plan file language state).2.pool = state.pool ∧
      ∀ grammar, (s.plan file language state).1 = .inTree grammar →
        state.registry.Offers grammar.engine := by
  unfold plan
  dsimp only
  split
  -- A grammar is planned with only when the registry was asked for one.
  next grammar found =>
    refine ⟨rfl, fun other same => ?_⟩
    cases same
    split at found
    next => cases found
    next => exact Registry.grammar_offers found
  next =>
    split
    next => exact ⟨rfl, fun other same => nomatch same⟩
    next => exact ⟨rfl, fun other same => nomatch same⟩

/-- What the search of a document may yield: occurrences that stand in its text in turn, or a fault
of the engine. -/
def Yields (offered : Engine → Prop) (d : Document) : Except ScanFault (List Occurrence) → Prop
  | .ok occurrences => Occurrence.PlacedInTurn d.text occurrences
  | .error fault => EngineFault offered d.bytes fault

theorem searchTree_yields (agrees : d.Agrees) (grammar : Grammar) {parser : PooledParser}
    {offered : Engine → Prop} (isOffered : offered parser.grammar.engine)
    (fits : ∀ engine, offered engine → engine.Fits d.bytes) :
    Yields offered d (s.searchTree d grammar parser) := by
  unfold searchTree
  split
  next reason failed => exact .unparsable isOffered failed
  next tree parsed =>
    have within := fits _ isOffered tree parsed
    obtain ⟨occurrences, found, placed⟩ := s.extractor.inTree?_placedInTurn agrees
      grammar.language.kinds s.options.includeComments.isSet within
    rw [found]
    exact placed

theorem searchPooled_yields (agrees : d.Agrees) (language : Text) {grammar : Grammar}
    {offered : Engine → Prop} (isOffered : offered grammar.engine)
    (holds : ∀ engine, state.pool.Holds engine → offered engine)
    (fits : ∀ engine, offered engine → engine.Fits d.bytes) :
    Yields offered d (s.searchPooled language d grammar state).1 := by
  unfold searchPooled
  dsimp only
  split
  next reason refused => exact .noParser isOffered (ParserPool.acquire_fault refused)
  next parser taken =>
    refine s.searchTree_yields agrees grammar ?_ fits
    rcases ParserPool.acquire_offers taken with same | held
    · rw [same]
      exact isOffered
    · exact holds _ held

/-- The search of a document, whichever plan is made for it. -/
theorem search_placedInTurn (agrees : d.Agrees) (file language : Text)
    (fits : ∀ engine, state.Offers engine → engine.Fits d.bytes) :
    Yields state.Offers d (s.search file language d state).1 := by
  obtain ⟨samePool, offers⟩ := s.plan_offers file language state
  unfold search
  split
  next planned => exact s.extractor.inText_placedInTurn agrees
  next planned => exact Occurrence.PlacedInTurn.nil _
  next grammar planned found =>
    rw [found] at samePool offers
    refine s.searchPooled_yields agrees language (Or.inl (offers grammar rfl)) ?_ fits
    intro engine held
    rw [samePool] at held
    exact Or.inr held

/-- A file that is UTF-8 is read as a document of its text or skipped for its size. -/
theorem read_utf8 {fs : FileSystem} {file : Text} {bytes : Bytes} {t : Text}
    (content : fs.read (.parse file) = .ok bytes) (decoded : Utf8.decode bytes = .ok t) :
    s.read fs file = .ok (.ok (.tooLarge bytes.length)) ∨
      ∃ d : Document, s.read fs file = .ok (.ok (.document d)) ∧ d.Agrees ∧ d.bytes = bytes ∧
        d.text = t := by
  unfold read
  rw [content]
  dsimp only
  split
  next => exact Or.inl rfl
  next =>
    right
    split
    next d made =>
      obtain ⟨agrees, sameBytes, sameText⟩ := Document.ofBytes_agrees made
      cases decoded.symm.trans sameText
      exact ⟨d, rfl, agrees, sameBytes, rfl⟩
    next error failed =>
      rw [Document.ofBytes, Encoding.decode, decoded] at failed
      cases failed

/-- Without a limit for the size of files, a file that is UTF-8 is read. -/
theorem read_document {fs : FileSystem} {file : Text} {bytes : Bytes} {t : Text}
    (content : fs.read (.parse file) = .ok bytes) (decoded : Utf8.decode bytes = .ok t)
    (noLimit : s.options.maxFileSize.toInt = 0) :
    ∃ d : Document, s.read fs file = .ok (.ok (.document d)) ∧ d.text = t := by
  rcases s.read_utf8 content decoded with skipped | ⟨d, read, -, -, sameText⟩
  · unfold read at skipped
    rw [content] at skipped
    dsimp only at skipped
    rw [if_neg fun limited => limited.1 noLimit] at skipped
    split at skipped
    next => cases skipped
    next => cases skipped
  · exact ⟨d, read, sameText⟩

/-- The scan of a file that is UTF-8, by a scanner whose engines deliver trees that lie in the file.
It yields occurrences that stand in the text of the file in turn. The only faults are those of an
engine that makes no parser or does not parse the file, and the scan breaks off only for want of a
filter, when an ignored domain is no text. -/
theorem scanFile_placedInTurn {fs : FileSystem} {file : Text} {bytes : Bytes} {t : Text}
    (content : fs.read (.parse file) = .ok bytes) (decoded : Utf8.decode bytes = .ok t)
    (fits : ∀ engine, state.Offers engine → engine.Fits bytes) :
    (∃ result, (s.scanFile fs state file).1 = .ok (.ok result) ∧ result.file = file ∧
      Occurrence.PlacedInTurn t result.urls) ∨
    (∃ fault, (s.scanFile fs state file).1 = .ok (.error ⟨file, fault⟩) ∧
      EngineFault state.Offers bytes fault) ∨
    ((s.scanFile fs state file).1 = .error (.wrongKind .domainNotText) ∧ s.filter = none) := by
  unfold scanFile
  rcases s.read_utf8 content decoded with skipped | ⟨d, read, agrees, rfl, rfl⟩
  · rw [skipped]
    exact Or.inl ⟨_, rfl, rfl, Occurrence.PlacedInTurn.nil t⟩
  · rw [read]
    dsimp only
    generalize state.registry.detect file = language
    have yields := s.search_placedInTurn agrees file language
      (show ∀ engine, (state.emit (.scanning file language)).Offers engine → _ from fits)
    split
    next fault after found =>
      rw [found] at yields
      exact Or.inr (Or.inl ⟨fault, rfl, yields⟩)
    next occurrences after found =>
      rw [found] at yields
      split
      next filter present =>
        exact Or.inl ⟨_, rfl, rfl, yields.sublist List.filter_sublist⟩
      next absent => exact Or.inr (Or.inr ⟨rfl, absent⟩)

end

/-- The theorem for a scanner with default options, whose only language is parsed by the sketch
parser, and a file whose characters are not all of one byte. -/
theorem scanFile_placedInTurn_sketch :
    ∃ (s : Scanner) (fs : FileSystem) (state : ScanState) (bytes : Bytes) (t : Text),
      (ScanOptions.ofArguments []).bind (fun options => (ofOptions options).mapError .wrongKind)
        = .ok s ∧
      fs.read (.parse "a.c".toList) = .ok bytes ∧ Utf8.decode bytes = .ok t ∧
      state.registry.detect "a.c".toList = "c".toList ∧
      (∀ engine, state.Offers engine → engine.Fits bytes) ∧
      ((∃ result, (s.scanFile fs state "a.c".toList).1 = .ok (.ok result) ∧
        result.file = "a.c".toList ∧ Occurrence.PlacedInTurn t result.urls) ∨
      (∃ fault, (s.scanFile fs state "a.c".toList).1 = .ok (.error ⟨"a.c".toList, fault⟩) ∧
        EngineFault state.Offers bytes fault) ∨
      ((s.scanFile fs state "a.c".toList).1 = .error (.wrongKind .domainNotText) ∧
        s.filter = none)) := by
  let t := "ü = \"http://a.b/\"; // http://c.d".toList
  let c := Language.builtIn "c" "C" [".c"] [] ["string"] ["comment"]
  let fs : FileSystem := ⟨.directory [("a.c".toList, .file (Utf8.encode t))], []⟩
  obtain ⟨options, made⟩ : ∃ options, ScanOptions.ofArguments [] = .ok options := ⟨_, rfl⟩
  obtain ⟨s, made'⟩ : ∃ s, ofOptions options = .ok s := by
    cases made
    exact ⟨_, rfl⟩
  let state := s.newState ((Registry.empty none).add c (some .sketch))
  have content : fs.read (.parse "a.c".toList) = .ok (Utf8.encode t) := rfl
  have decoded : Utf8.decode (Utf8.encode t) = .ok t := Utf8.decode_encode t
  have registered : state.registry.entries =
    [⟨c, some ⟨0, c, .registered, .sketch⟩, .notAsked⟩] := rfl
  have fits : ∀ engine, state.Offers engine → engine.Fits (Utf8.encode t) := by
    rintro engine (offered | ⟨bucket, member, -⟩) tree parsed
    · cases offered with
      | adapter member adapter =>
        rw [registered] at member
        cases List.mem_singleton.mp member
        cases adapter
        cases parsed
        exact SyntaxTree.sketch_within _
      | ready member ready =>
        rw [registered] at member
        cases List.mem_singleton.mp member
        cases ready
      | loaded member => exact nomatch member
      | package installed => exact nomatch installed
    · exact nomatch member
  refine ⟨s, fs, state, _, t, ?_, content, decoded, rfl, fits,
    s.scanFile_placedInTurn content decoded fits⟩
  rw [made]
  exact congrArg (Except.mapError _) made'

end Scanner

end UrlScan
