import UrlScan.Proofs.Scan.ScannedFile
import UrlScan.Proofs.Url.HostAgreement

/-!
# What filtering removes when no domain is ignored

A scanner gives its matcher and its filter the same schemes and the same wish about hosts of one
label, so one could expect the filter to keep all that the matcher finds. It does, but for the
scheme. A valid scheme may begin with a digit or have letters and digits of any script, and the
matcher finds every spelling that is the same without regard to case, for example with the long s
U+017F in place of an s. For the filter only what satisfies `IsAsciiScheme` is a scheme; it finds no
host behind any other one and drops the URL.

So exactly the URLs are removed whose scheme, as it is spelled in the file, is no ASCII scheme
(`scanFile_reports`). This is nothing for a file in ASCII and options with ASCII schemes, but it is
every URL of a scheme such as `1a` (`digit_scheme_dropped`).

Results:
1. `Filter.keeps_iff_isAsciiScheme`: what a filter that ignores no domain keeps of what is found.
2. `search_found`: all that a search reports was found by the matcher in a part of the document.
3. `scanFile_reports`: what the scan of a file reports.
-/

namespace UrlScan

/-- The scheme of an occurrence, as it is spelled in the document. -/
def Occurrence.scheme (o : Occurrence) : Text :=
  (Text.cutFirst ':' o.url).1

/-! ## The filter and the matcher -/

section
variable {schemes : List Text} {singleLabel : Bool} {t : Text} {found : Found}

/-- The scheme of a URL is what stands before its first colon. -/
theorem Found.cutFirst_url (valid : ∀ scheme ∈ schemes, isScheme scheme = true)
    (member : found ∈ (Matcher.ofSchemes schemes singleLabel).findAll t) :
    (Text.cutFirst ':' found.url).1 = found.raw.scheme := by
  obtain ⟨following, -, parts⟩ := Url.findAll_hasParts member
  obtain ⟨kept, -, isTrimmed⟩ := parts.trimmed_eq
  have whole : found.url =
      found.raw.scheme ++ ':' :: '/' :: '/' :: (found.raw.host ++ found.raw.port ++ kept) :=
    isTrimmed
  rw [whole, HostLemmas.cutFirst_scheme parts valid]

/-- A filter that ignores no domain keeps what is found with an ASCII scheme, and nothing else. -/
theorem Filter.keeps_iff_isAsciiScheme (valid : ∀ scheme ∈ schemes, isScheme scheme = true)
    (member : found ∈ (Matcher.ofSchemes schemes singleLabel).findAll t) :
    (Filter.ofDomains [] singleLabel).keeps found.url = true ↔
      IsAsciiScheme found.raw.scheme := by
  obtain ⟨following, -, parts⟩ := Url.findAll_hasParts member
  constructor
  · intro kept
    by_contra otherScheme
    have noHost : Host.hostOf found.url = none :=
      HostLemmas.hostOf_eq_none parts valid otherScheme
    rw [keeps, noHost] at kept
    cases kept
  · intro asciiScheme
    have host : Host.hostOf found.url = some (Text.lowercase found.raw.host) :=
      HostLemmas.hostOf_eq_some parts valid asciiScheme
    have noneIgnored : (Filter.ofDomains [] singleLabel).ignored = [] := rfl
    rw [keeps, host, noneIgnored]
    -- The matcher finds hosts of one label only when they are wanted.
    show (!false && (singleLabel || Domain.isQualified (Text.lowercase found.raw.host))) = true
    have enough := parts.enough
    unfold Url.minLabels at enough
    cases singleLabel with
    | true => rfl
    | false => exact (HostLemmas.isQualified_lowercase parts.labels_ne_nil parts.isLabel).mpr enough

/-- The spelling of a scheme in an ASCII text is ASCII. -/
theorem Found.scheme_ascii (ascii : ∀ c ∈ t, c.toNat < 128)
    (member : found ∈ (Matcher.ofSchemes schemes singleLabel).findAll t) :
    ∀ c ∈ found.raw.scheme, c.toNat < 128 := by
  obtain ⟨following, whole, -⟩ := Url.findAll_hasParts member
  intro c spelled
  refine ascii c (List.drop_subset found.start t ?_)
  rw [whole, Url.text]
  simp only [List.append_assoc]
  exact List.mem_append_left _ spelled

end

/-! ## The scan of a file -/

theorem slice_subset {α : Type} (xs : List α) (start stop : Int) : slice xs start stop ⊆ xs := by
  unfold slice
  exact fun x member => List.drop_subset _ _ (List.take_subset _ _ member)

/-- Every occurrence in the candidates of a document was found in one of them. -/
theorem Extractor.inSpans_found {e : Extractor} {d : Document} {spans : List Candidate}
    {o : Occurrence} (member : o ∈ e.inSpans d spans) :
    ∃ span ∈ spans, ∃ found ∈ e.matcher.findAll (slice d.text span.start span.stop),
      o.url = found.url := by
  obtain ⟨span, memberSpan, member⟩ := List.mem_flatMap.mp member
  obtain ⟨found, isFound, rfl⟩ := List.mem_map.mp member
  exact ⟨span, memberSpan, found, isFound, rfl⟩

/-- What is found in the whole text of a document. -/
theorem Extractor.urls_inText (e : Extractor) (d : Document) :
    (e.inText d).map (·.url) = (e.matcher.findAll d.text).map Found.url := by
  rw [inText_eq, List.map_map]
  rfl

namespace Scanner

section
variable {s : Scanner} {d : Document} {state : ScanState} {file language : Text}
  {occurrences : List Occurrence}

theorem searchTree_inSpans {grammar : Grammar} {parser : PooledParser}
    (searched : s.searchTree d grammar parser = .ok occurrences) :
    ∃ spans, occurrences = s.extractor.inSpans d spans := by
  unfold searchTree at searched
  split at searched
  next => cases searched
  next tree _ =>
    split at searched
    next found =>
      cases searched
      obtain ⟨spans, -, rfl⟩ := Option.map_eq_some_iff.mp found
      exact ⟨spans, rfl⟩
    next => cases searched

/-- Whichever plan is made for a document, its occurrences are those in some of its parts. -/
theorem search_inSpans (searched : (s.search file language d state).1 = .ok occurrences) :
    ∃ spans, occurrences = s.extractor.inSpans d spans := by
  unfold search at searched
  split at searched
  next =>
    cases searched
    exact ⟨d.textCandidates, rfl⟩
  next =>
    cases searched
    exact ⟨[], rfl⟩
  next grammar planned _ =>
    unfold searchPooled at searched
    dsimp only at searched
    split at searched
    next => cases searched
    next => exact searchTree_inSpans searched

/-- All that a search reports was found by the matcher in a part of the document. -/
theorem search_found (searched : (s.search file language d state).1 = .ok occurrences)
    {o : Occurrence} (member : o ∈ occurrences) :
    ∃ t ⊆ d.text, ∃ found ∈ s.extractor.matcher.findAll t, o.url = found.url := by
  obtain ⟨spans, rfl⟩ := search_inSpans searched
  obtain ⟨span, -, found, isFound, same⟩ := Extractor.inSpans_found member
  exact ⟨_, slice_subset d.text span.start span.stop, found, isFound, same⟩

end

/-- The matcher and the filter of a scanner that ignores no domain. -/
theorem ofOptions_parts {options : ScanOptions} {s : Scanner} (made : ofOptions options = .ok s)
    (noneIgnored : options.ignoreDomains = []) :
    s.extractor.matcher = .ofSchemes options.schemes options.includeSingleLabel.isSet ∧
      s.filter = some (.ofDomains [] options.includeSingleLabel.isSet) := by
  unfold ofOptions at made
  split at made
  next => cases made
  next =>
    cases made
    refine ⟨rfl, ?_⟩
    rw [noneIgnored]
    rfl

/-- A scanner that ignores no domain. Its filter keeps a URL that its matcher finds if and only if
the scheme is spelled as an ASCII scheme. So the scan of a file reports what the search of the file
yields but for the occurrences with another scheme, and all of it if the schemes of the scanner are
ASCII schemes and the file is in ASCII. -/
theorem scanFile_reports {options : ScanOptions} {s : Scanner} (made : ofOptions options = .ok s)
    (noneIgnored : options.ignoreDomains = []) :
    (∀ t, ∀ found ∈ (Matcher.ofSchemes options.schemes options.includeSingleLabel.isSet).findAll t,
      (Filter.ofDomains [] options.includeSingleLabel.isSet).keeps found.url = true ↔
        IsAsciiScheme found.raw.scheme) ∧
    ∀ fs state file d occurrences after,
      s.read fs file = .ok (.ok (.document d)) →
      s.search file (state.registry.detect file) d
        (state.emit (.scanning file (state.registry.detect file))) = (.ok occurrences, after) →
      (s.scanFile fs state file).1 =
        .ok (.ok ⟨file, occurrences.filter fun o => IsAsciiScheme o.scheme⟩) ∧
      ((∀ scheme ∈ options.schemes, IsAsciiScheme scheme) → (∀ c ∈ d.text, c.toNat < 128) →
        occurrences.filter (fun o => IsAsciiScheme o.scheme) = occurrences) := by
  obtain ⟨sameMatcher, sameFilter⟩ := ofOptions_parts made noneIgnored
  refine ⟨fun t found member => Filter.keeps_iff_isAsciiScheme options.schemes_valid member, ?_⟩
  intro fs state file d occurrences after read searched
  have origin : ∀ o ∈ occurrences, ∃ t ⊆ d.text, ∃ found ∈ (Matcher.ofSchemes options.schemes
      options.includeSingleLabel.isSet).findAll t, o.url = found.url := by
    intro o member
    rw [← sameMatcher]
    exact search_found (congrArg Prod.fst searched) member
  constructor
  · have sameKept : ∀ o ∈ occurrences,
        (Filter.ofDomains [] options.includeSingleLabel.isSet).keeps o.url =
          decide (IsAsciiScheme o.scheme) := by
      intro o member
      obtain ⟨t, -, found, isFound, same⟩ := origin o member
      rw [Occurrence.scheme, same, Found.cutFirst_url options.schemes_valid isFound,
        Bool.eq_iff_iff, decide_eq_true_iff]
      exact Filter.keeps_iff_isAsciiScheme options.schemes_valid isFound
    unfold scanFile
    rw [read]
    dsimp only
    rw [searched, sameFilter]
    dsimp only
    rw [Filter.applyTo, List.filter_congr sameKept]
  · intro asciiSchemes ascii
    refine List.filter_eq_self.mpr fun o member => decide_eq_true ?_
    obtain ⟨t, part, found, isFound, same⟩ := origin o member
    rw [Occurrence.scheme, same, Found.cutFirst_url options.schemes_valid isFound]
    have spelledInAscii := Found.scheme_ascii (fun c inPart => ascii c (part inPart)) isFound
    obtain ⟨following, -, parts⟩ := Url.findAll_hasParts isFound
    obtain ⟨scheme, memberScheme, spells⟩ := parts.spells
    exact HostLemmas.isAsciiScheme_spelled (asciiSchemes scheme memberScheme) spells spelledInAscii

/-- A scheme that begins with a digit is valid and is found, and the filter drops its URLs. -/
theorem digit_scheme_dropped :
    ∃ options, ScanOptions.ofArguments [("schemes".toList, .texts ["1a".toList])] = .ok options ∧
      options.ignoreDomains = [] ∧
      ∃ found ∈ (Matcher.ofSchemes options.schemes options.includeSingleLabel.isSet).findAll
          "1a://example.com/x".toList,
        (Filter.ofDomains [] options.includeSingleLabel.isSet).keeps found.url = false := by
  let found : Found := ⟨0, ⟨"1a".toList, ["example".toList, "com".toList], [], "/x".toList⟩⟩
  have isFound : found ∈ (Matcher.ofSchemes ["1a".toList] false).findAll
      "1a://example.com/x".toList := by decide +kernel
  have dropped : (Filter.ofDomains [] false).keeps found.url = false := by decide +kernel
  exact ⟨_, rfl, rfl, found, isFound, dropped⟩

/-- The scan of a text file that spells a scheme in two ways, one of them with the long s. -/
theorem scanFile_reports_long_s :
    ∃ options s, ScanOptions.ofArguments
        [("schemes".toList, .texts ["s".toList])] = .ok options ∧
      ofOptions options = .ok s ∧ options.ignoreDomains = [] ∧
      ∃ fs state d occurrences after, s.read fs "a".toList = .ok (.ok (.document d)) ∧
        s.search "a".toList (state.registry.detect "a".toList) d
          (state.emit (.scanning "a".toList (state.registry.detect "a".toList))) =
            (.ok occurrences, after) ∧
        occurrences.map (·.url) = ["s://a.b".toList, "\u017F://c.d".toList] ∧
        (s.scanFile fs state "a".toList).1 =
          .ok (.ok ⟨"a".toList, occurrences.filter fun o => IsAsciiScheme o.scheme⟩) := by
  obtain ⟨options, checked⟩ : ∃ options, ScanOptions.ofArguments
      [("schemes".toList, .texts ["s".toList])] = .ok options := ⟨_, rfl⟩
  have noneIgnored : options.ignoreDomains = [] := by
    cases checked
    rfl
  obtain ⟨s, made⟩ : ∃ s, ofOptions options = .ok s := by
    cases checked
    exact ⟨_, rfl⟩
  let t := "s://a.b \u017F://c.d".toList
  let fs : FileSystem := ⟨.directory [("a".toList, .file (Utf8.encode t))], []⟩
  let state := s.newState (.empty none)
  have content : fs.read (.parse "a".toList) = .ok (Utf8.encode t) := rfl
  have noLimit : s.options.maxFileSize.toInt = 0 := by
    cases checked
    cases made
    rfl
  have planned : (s.plan "a".toList (state.registry.detect "a".toList)
      (state.emit (.scanning "a".toList (state.registry.detect "a".toList)))).1 = .asText := by
    cases checked
    cases made
    rfl
  have extractor : s.extractor = ⟨.ofSchemes ["s".toList] false, 0⟩ := by
    cases checked
    cases made
    rfl
  have urls : (s.extractor.matcher.findAll t).map Found.url =
      ["s://a.b".toList, "\u017F://c.d".toList] := by
    rw [extractor]
    decide +kernel
  obtain ⟨d, read, sameText⟩ := s.read_document content (Utf8.decode_encode t) noLimit
  obtain ⟨after, searched⟩ : ∃ after, s.search "a".toList (state.registry.detect "a".toList)
      d (state.emit (.scanning "a".toList (state.registry.detect "a".toList))) =
        (.ok (s.extractor.inText d), after) := by
    unfold search
    split
    next => exact ⟨_, rfl⟩
    next other =>
      rw [other] at planned
      cases planned
    next other =>
      rw [other] at planned
      cases planned
  rw [← sameText, ← Extractor.urls_inText] at urls
  exact ⟨options, s, checked, made, noneIgnored, fs, state, d, _, after, read, searched, urls,
    ((scanFile_reports made noneIgnored).2 fs state "a".toList _ _ after read searched).1⟩

end Scanner

end UrlScan
