import UrlScan.Proofs.Text.Trimmed
import UrlScan.Proofs.Url.IgnoredDomains

/-!
# Hosts with the root dot

The host of a URL may end with the dot of the root domain: `example.com.` is the absolute spelling
of `example.com`. The filter does not take the dot off. It counts labels without the empty one behind
the dot, so it asks the same of both spellings there. But an entry of the list of ignored domains is
compared without the dots at its ends, and no such domain covers a host that ends with a dot. So the
list does not reach a host with the root dot (`keeps_rooted`).

1. `lowercase_append_dot`, `lowerHost_append_dot`: the dot does not change the case of what is before
   it, not even of a sigma.
2. `GivenUrl.hostOf_text`, `GivenUrl.hostOf_rooted`: the host of a URL that is given to a filter.
3. `covers_append_dot`, `isQualified_append_dot`: what the filter asks of the host.
4. `keeps_rooted`: the two spellings.
-/

namespace UrlScan

/-! ## Lower case -/

namespace Text

namespace LowerCaseLemmas

theorem meetsCased_append_dot (t : Text) : meetsCased (t ++ ['.']) = meetsCased t := by
  have ignorable : ['.'].dropWhile (fun c => inRanges caseIgnorableRanges c.toNat) = [] := by
    decide +kernel
  rw [meetsCased, meetsCased, List.dropWhile_append]
  cases t.dropWhile fun c => inRanges caseIgnorableRanges c.toNat with
  | nil =>
    rw [List.isEmpty_nil, if_pos rfl, ignorable]
  | cons c rest => rfl

theorem lowercaseAfter_append_dot (previous t : Text) :
    lowercaseAfter previous (t ++ ['.']) = lowercaseAfter previous t ++ ['.'] := by
  induction t generalizing previous with
  | nil =>
    have same : lowerChar '.' = '.' := by decide
    exact congrArg (fun c => [c]) same
  | cons c rest ih =>
    rw [List.cons_append, lowercaseAfter_cons, lowercaseAfter_cons, meetsCased_append_dot,
      ih (c :: previous), List.append_assoc]

end LowerCaseLemmas

/-- A sigma before the dot is at the end of a word as it is at the end of the text. -/
theorem lowercase_append_dot (t : Text) : lowercase (t ++ ['.']) = lowercase t ++ ['.'] :=
  LowerCaseLemmas.lowercaseAfter_append_dot [] t

end Text

namespace Host

theorem lowerHost_append_dot (host : Text) : lowerHost (host ++ ['.']) = lowerHost host ++ ['.'] := by
  rw [lowerHost, lowerHost]
  by_cases zoned : '%' ∈ host
  · obtain ⟨name, zone, rfl, free⟩ := List.eq_append_cons_of_mem zoned
    rw [List.append_assoc, List.cons_append, Text.cutFirst_append free, Text.cutFirst_append free]
    simp
  · have absent : '%' ∉ host ++ ['.'] := by simpa using zoned
    rw [Text.cutFirst_of_absent absent, Text.cutFirst_of_absent zoned]
    exact Text.lowercase_append_dot host

/-! ## The authority -/

/-- A text without the characters that are taken out of every URL. -/
def withoutBreaks (t : Text) : Text :=
  t.filter fun c => !"\t\r\n".toList.contains c

theorem clean_append_colon (scheme rest : Text) :
    clean (scheme ++ ':' :: rest) = clean scheme ++ ':' :: withoutBreaks rest := by
  rw [clean, clean, Text.trimStart, Text.trimStart, List.dropWhile_append]
  cases scheme.dropWhile fun c => c.toNat ≤ 0x20 with
  | nil => rfl
  | cons c kept =>
    rw [List.isEmpty_cons, if_neg Bool.false_ne_true, List.filter_append]
    rfl

theorem mem_of_mem_clean {t : Text} {c : Char} (member : c ∈ clean t) : c ∈ t :=
  (List.dropWhile_sublist _).subset (List.mem_of_mem_filter member)

theorem head?_append_colon {s rest : Text} (noSlash : '/' ∉ s) :
    (s ++ ':' :: rest).head? ≠ some '/' := by
  cases s with
  | nil => simp
  | cons c s =>
    rw [List.mem_cons, not_or] at noSlash
    simpa using Ne.symm noSlash.1

theorem afterScheme_ascii {s : Text} (ascii : IsAsciiScheme s) (rest : Text) :
    afterScheme (s ++ ':' :: rest) = rest := by
  have noColon : ':' ∉ s := fun member => absurd (ascii.isSchemeChar member) (by decide)
  rw [afterScheme, Text.cutFirst_append noColon]
  exact if_pos (IsAsciiScheme.iff_isSchemeChar.mpr ascii)

/-- Behind anything else than a scheme there are no slashes at once. -/
theorem head?_afterScheme {s : Text} (noSlash : '/' ∉ s) (other : ¬IsAsciiScheme s) (rest : Text) :
    (afterScheme (s ++ ':' :: rest)).head? ≠ some '/' := by
  by_cases colon : ':' ∈ s
  · obtain ⟨before, behind, rfl, free⟩ := List.eq_append_cons_of_mem colon
    rw [List.mem_append, List.mem_cons, not_or, not_or] at noSlash
    rw [afterScheme, List.append_assoc, List.cons_append, Text.cutFirst_append free]
    dsimp only
    split
    · exact head?_append_colon noSlash.2.2
    · exact head?_append_colon noSlash.1
  · rw [afterScheme, Text.cutFirst_append colon]
    dsimp only
    rw [if_neg (mt IsAsciiScheme.iff_isSchemeChar.mp other)]
    exact head?_append_colon noSlash

end Host

/-! ## Given URLs -/

/-- A URL as it may be given to a filter: any scheme without a slash, a host without the characters
that end a host or are taken out of it, any port without those that end an authority, and any path,
query and fragment. -/
structure GivenUrl where
  scheme : Text
  host : Text
  port : Text
  path : Text
  scheme_noSlash : '/' ∉ scheme
  host_ne_nil : host ≠ []
  host_chars : ∀ c ∈ host, c ∉ ['/', '?', '#', '@', '[', ']', ':', '\t', '\r', '\n']
  port_cases : port = [] ∨
    ∃ number, port = ':' :: number ∧ ∀ c ∈ number, c ∉ ['/', '?', '#', '@', '[', ']']
  path_head : ∀ c, path.head? = some c → c ∈ ['/', '?', '#']

namespace GivenUrl

def text (u : GivenUrl) : Text :=
  u.scheme ++ ("://".toList ++ (u.host ++ (u.port ++ u.path)))

/-- The URL with the root dot behind its host. -/
def rooted (u : GivenUrl) : GivenUrl :=
  { u with
    host := u.host ++ ['.']
    host_ne_nil := by simp
    host_chars := by
      intro c member
      rcases List.mem_append.mp member with inHost | dot
      · exact u.host_chars c inHost
      · cases List.mem_singleton.mp dot
        decide }

/-- Host and port, as the filter sees them. -/
def authority (u : GivenUrl) : Text :=
  u.host ++ Host.withoutBreaks u.port

variable (u : GivenUrl)

theorem not_mem_host {c : Char}
    (special : c ∈ ['/', '?', '#', '@', '[', ']', ':', '\t', '\r', '\n']) : c ∉ u.host :=
  fun member => u.host_chars c member special

theorem not_mem_authority {c : Char} (special : c ∈ ['/', '?', '#', '@', '[', ']']) :
    c ∉ u.authority := by
  intro member
  rcases List.mem_append.mp member with inHost | inPort
  · exact u.not_mem_host (List.mem_append_left [':', '\t', '\r', '\n'] special) inHost
  · have inPort : c ∈ u.port := List.mem_of_mem_filter inPort
    rcases u.port_cases with none | ⟨number, isPort, chars⟩
    · rw [none] at inPort
      cases inPort
    · rw [isPort] at inPort
      rcases List.mem_cons.mp inPort with rfl | inNumber
      · exact absurd special (by decide)
      · exact chars c inNumber special

theorem withoutBreaks_host : Host.withoutBreaks u.host = u.host := by
  have breaks : "\t\r\n".toList = ['\t', '\r', '\n'] := rfl
  rw [Host.withoutBreaks, breaks, List.filter_eq_self]
  intro c member
  rw [Bool.not_eq_true', ← Bool.not_eq_true, List.contains_iff_mem]
  intro isBreak
  refine u.not_mem_host ?_ member
  exact List.mem_append_right ['/', '?', '#', '@', '[', ']', ':'] isBreak

/-- The path begins where the authority ends. -/
theorem takeWhile_authority :
    (u.authority ++ Host.withoutBreaks u.path).takeWhile (fun c => !"/?#".toList.contains c) =
      u.authority := by
  refine HostLemmas.takeWhile_of_absent (fun c mark => u.not_mem_authority ?_) fun c first => ?_
  · exact List.mem_append_left ['@', '[', ']'] mark
  · cases begins : u.path with
    | nil =>
      rw [begins] at first
      cases first
    | cons d rest =>
      -- The first character of the path is no tab and no line end, so it stays the first.
      have opens := u.path_head d (by rw [begins]; rfl)
      have stays : (!"\t\r\n".toList.contains d) = true := by
        simp only [List.mem_cons, List.not_mem_nil, or_false] at opens
        rcases opens with rfl | rfl | rfl
        all_goals rfl
      rw [begins, Host.withoutBreaks, List.filter_cons, if_pos stays, List.head?_cons] at first
      cases first
      exact opens

theorem clean_text : Host.clean u.text =
    Host.clean u.scheme ++ ':' :: '/' :: '/' :: (u.authority ++ Host.withoutBreaks u.path) := by
  have behind : Host.withoutBreaks ('/' :: '/' :: (u.host ++ (u.port ++ u.path))) =
      '/' :: '/' :: (u.authority ++ Host.withoutBreaks u.path) := by
    rw [authority, List.append_assoc]
    nth_rewrite 2 [← u.withoutBreaks_host]
    simp [Host.withoutBreaks]
  rw [← behind, ← Host.clean_append_colon]
  rfl

theorem authority_text : Host.authority u.text =
    if IsAsciiScheme (Host.clean u.scheme) then u.authority else [] := by
  rw [Host.authority, u.clean_text]
  by_cases isScheme : IsAsciiScheme (Host.clean u.scheme)
  · rw [if_pos isScheme, Host.afterScheme_ascii isScheme]
    exact u.takeWhile_authority
  · rw [if_neg isScheme]
    have noSlash : '/' ∉ Host.clean u.scheme := fun member =>
      u.scheme_noSlash (Host.mem_of_mem_clean member)
    have first := Host.head?_afterScheme noSlash isScheme
      ('/' :: '/' :: (u.authority ++ Host.withoutBreaks u.path))
    split
    next slashes => exact absurd (congrArg List.head? slashes) first
    next => rfl

theorem bracketsFit_authority : Host.bracketsFit u.authority = true :=
  HostLemmas.bracketsFit_of_absent (u.not_mem_authority (by decide)) (u.not_mem_authority (by decide))

theorem hostIn_authority : Host.hostIn u.authority = u.host := by
  refine HostLemmas.hostIn_of_absent (u.not_mem_authority (by decide))
    (u.not_mem_authority (by decide)) (u.not_mem_host (by decide)) ?_
  rcases u.port_cases with none | ⟨number, isPort, -⟩
  · rw [none]
    exact Or.inl rfl
  · rw [isPort]
    exact Or.inr ⟨Host.withoutBreaks number, rfl⟩

/-- The host of a given URL, if its scheme is one for the filter and no character of its authority
is turned into a delimiter. -/
theorem hostOf_text : Host.hostOf u.text =
    if IsAsciiScheme (Host.clean u.scheme) ∧
        u.authority.any Host.delimiterLookalikes.contains = false then
      some (Host.lowerHost u.host)
    else none := by
  unfold Host.hostOf
  dsimp only
  rw [u.authority_text]
  by_cases isScheme : IsAsciiScheme (Host.clean u.scheme)
  · rw [if_pos isScheme, u.bracketsFit_authority, u.hostIn_authority, Bool.true_and]
    cases lookalike : u.authority.any Host.delimiterLookalikes.contains with
    | true => simp
    | false =>
      have both : IsAsciiScheme (Host.clean u.scheme) ∧ false = false := ⟨isScheme, rfl⟩
      rw [if_pos both, Bool.not_false, if_pos rfl]
      split
      next none => exact absurd none u.host_ne_nil
      next => rfl
  · have neither : ¬(IsAsciiScheme (Host.clean u.scheme) ∧
        u.authority.any Host.delimiterLookalikes.contains = false) := fun both => isScheme both.1
    rw [if_neg isScheme, if_neg neither]
    rfl

/-- The root dot stays with the host. -/
theorem hostOf_rooted : Host.hostOf u.rooted.text = (Host.hostOf u.text).map (· ++ ['.']) := by
  have sameLookalikes : u.rooted.authority.any Host.delimiterLookalikes.contains =
      u.authority.any Host.delimiterLookalikes.contains := by
    have dot : '.' ∉ Host.delimiterLookalikes := by decide
    simp [authority, rooted, dot]
  rw [hostOf_text, hostOf_text, sameLookalikes]
  have sameScheme : u.rooted.scheme = u.scheme := rfl
  rw [sameScheme]
  split
  · exact congrArg some (Host.lowerHost_append_dot u.host)
  · rfl

end GivenUrl

/-! ## The filter -/

namespace Domain

theorem isQualified_append_dot (host : Text) : isQualified (host ++ ['.']) = isQualified host := by
  have labels : (host ++ ['.']).splitOn '.' = host.splitOn '.' ++ [[]] :=
    List.splitOn_append_cons_self ..
  rw [isQualified, isQualified, labels]
  simp

/-- There is no dot at the end of a normalized domain. -/
theorem getLast?_normalize (entry : Text) : (normalize entry).getLast? ≠ some '.' := by
  intro last
  have notDot : isDot '.' = false := Text.getLast?_trimEnd last
  cases notDot

/-- A normalized domain covers no host with the root dot. -/
theorem covers_append_dot {entry host : Text} (notEmpty : normalize entry ≠ []) :
    covers (normalize entry) (host ++ ['.']) = false := by
  rw [← Bool.not_eq_true, covers, Text.endsWith, Bool.or_eq_true, beq_iff_eq,
    List.isSuffixOf_iff_suffix]
  rintro (same | ⟨before, whole⟩)
  · refine getLast?_normalize entry ?_
    rw [← same, List.getLast?_concat]
  · refine getLast?_normalize entry ?_
    have last := congrArg List.getLast? whole
    rwa [List.getLast?_concat, List.getLast?_append_of_ne_nil _ (List.cons_ne_nil _ _),
      List.getLast?_cons_of_ne_nil notEmpty] at last

end Domain

namespace Filter

/-- The two spellings of a host in a filter. The URL with the root dot is kept as if the list of
ignored domains were empty. So the two spellings are treated alike, unless the URL without the dot
would be kept but for an entry of the list that its host lies under. -/
theorem keeps_rooted (u : GivenUrl) (domains : List Text) (singleLabel : Bool) :
    (ofDomains domains singleLabel).keeps u.rooted.text = (ofDomains [] singleLabel).keeps u.text ∧
    ((ofDomains domains singleLabel).keeps u.rooted.text =
        (ofDomains domains singleLabel).keeps u.text ↔
      ¬((ofDomains [] singleLabel).keeps u.text = true ∧
        ∃ host, Host.hostOf u.text = some host ∧ ∃ entry ∈ domains, Domain.normalize entry ≠ [] ∧
          (Domain.normalize entry).splitOn '.' <:+ host.splitOn '.')) := by
  have unreached : (ofDomains domains singleLabel).keeps u.rooted.text =
      (ofDomains [] singleLabel).keeps u.text := by
    rw [keeps, keeps, u.hostOf_rooted]
    cases Host.hostOf u.text with
    | none => rfl
    | some host =>
      have notIgnored : (ofDomains domains singleLabel).ignored.any
          (Domain.covers · (host ++ ['.'])) = false := by
        rw [List.any_eq_false]
        intro domain member
        obtain ⟨normalized, notEmpty⟩ := List.mem_filter.mp member
        obtain ⟨entry, -, rfl⟩ := List.mem_map.mp normalized
        rw [Domain.covers_append_dot (by simpa using notEmpty)]
        exact Bool.false_ne_true
      rw [Option.map_some]
      dsimp only
      rw [notIgnored, Domain.isQualified_append_dot]
      rfl
  refine ⟨unreached, ?_⟩
  rw [unreached]
  constructor
  · rintro same ⟨kept, host, found, entry, member, notEmpty, under⟩
    rw [same] at kept
    obtain ⟨host', found', keepsHost⟩ := keeps_iff.mp kept
    cases found.symm.trans found'
    exact keepsHost.not_ignored entry member notEmpty under
  · intro free
    rw [Bool.eq_iff_iff]
    refine ⟨fun kept => keeps_iff.mpr ?_, fun kept => keeps_iff.mpr ?_⟩
    · obtain ⟨host, found, keepsHost⟩ := keeps_iff.mp kept
      refine ⟨host, found, keepsHost.not_empty, fun entry member notEmpty under => ?_,
        keepsHost.qualified⟩
      exact free ⟨kept, host, found, entry, member, notEmpty, under⟩
    · exact (keeps_iff.mp kept).mono (List.nil_subset _) id

/-- The URL `http://example.com/x`. -/
def exampleUrl : GivenUrl where
  scheme := "http".toList
  host := "example.com".toList
  port := []
  path := "/x".toList
  scheme_noSlash := by decide
  host_ne_nil := by decide
  host_chars := by simp
  port_cases := Or.inl rfl
  path_head := by simp

/-- The two spellings are not treated alike: the list does not reach `http://example.com./x`. -/
theorem rootDot_kept :
    ¬∀ (u : GivenUrl) (domains : List Text) (singleLabel : Bool),
      (∀ label ∈ u.host.splitOn '.', label ≠ []) →
      (ofDomains domains singleLabel).keeps u.rooted.text =
        (ofDomains domains singleLabel).keeps u.text := by
  intro alike
  have same := alike exampleUrl ["example.com".toList] false (by decide +kernel)
  revert same
  decide +kernel

end Filter

end UrlScan
