import UrlScan.Filter
import UrlScan.Proofs.Url.HostAgreement

/-!
# Filtering by whole labels

The filter compares a host with an ignored domain as texts: the two are equal, or the host ends with
a dot and the domain. This is the same as comparing labels, the parts between the dots: the labels of
the domain are the last labels of the host (`covers_iff`). So `notexample.com` is not under
`example.com`, although it ends with it, and this holds with empty labels and for domains that are
longer than the host.

What a filter keeps can thus be said label by label (`Filter.Kept`). One filter after another keeps
what a single one keeps that ignores the domains of both and wants hosts of one label only if both
do. Only which entries are in the list of a filter matters, not their order or number.

1. `covers_iff`: the comparison of a host with a domain.
2. `keeps_iff`, `kept_append_iff`: what a filter keeps, and two filters in turn.
3. `applyToAll_kept`: the filtered files.
-/

namespace UrlScan

/-! ## Labels -/

namespace Domain

/-- A text is determined by its labels. -/
theorem eq_of_splitOn_eq {s t : Text} (same : s.splitOn '.' = t.splitOn '.') : s = t :=
  calc
    s = ['.'].intercalate (s.splitOn '.') := (List.intercalate_splitOn '.').symm
    _ = ['.'].intercalate (t.splitOn '.') := by rw [same]
    _ = t := List.intercalate_splitOn '.'

/-- A domain covers a host if and only if its labels are the last labels of the host. -/
theorem covers_iff {domain host : Text} :
    covers domain host = true ↔ domain.splitOn '.' <:+ host.splitOn '.' := by
  rw [covers, Text.endsWith, Bool.or_eq_true, beq_iff_eq, List.isSuffixOf_iff_suffix]
  constructor
  · rintro (rfl | ⟨before, rfl⟩)
    · exact List.suffix_rfl
    · rw [List.splitOn_append_cons_self]
      exact List.suffix_append _ _
  · rintro ⟨labels, whole⟩
    by_cases none : labels = []
    · subst none
      exact .inl (eq_of_splitOn_eq whole.symm)
    -- The labels in front of those of the domain stand before a dot.
    · refine .inr ⟨['.'].intercalate labels, eq_of_splitOn_eq ?_⟩
      have free : ∀ label ∈ labels, '.' ∉ label := fun label member =>
        Text.notMem_of_mem_splitOn (t := host) (whole ▸ List.mem_append_left _ member)
      rw [List.splitOn_append_cons_self, List.splitOn_intercalate '.' free none, whole]

end Domain

/-! ## Hosts -/

namespace Host

theorem lowerHost_ne_nil {host : Text} (notEmpty : host ≠ []) : lowerHost host ≠ [] := by
  rw [lowerHost]
  by_cases zoned : '%' ∈ host
  · obtain ⟨name, zone, rfl, free⟩ := List.eq_append_cons_of_mem zoned
    rw [Text.cutFirst_append free]
    exact List.append_ne_nil_of_right_ne_nil _ (List.cons_ne_nil _ _)
  · rw [Text.cutFirst_of_absent zoned]
    exact Text.lowercase_ne_nil notEmpty

/-- A URL with an empty host has none. -/
theorem ne_nil_of_hostOf {url host : Text} (found : hostOf url = some host) : host ≠ [] := by
  unfold hostOf at found
  dsimp only at found
  split at found
  · split at found
    next => cases found
    next notEmpty =>
      cases found
      exact lowerHost_ne_nil fun empty => notEmpty empty
  · cases found

end Host

/-! ## One filter -/

namespace Filter

/-- What is asked of a host: it lies under no domain of the list, and it has two labels that are not
empty, unless hosts of one label are wanted. An entry of which nothing is left when it is normalized
says nothing. -/
structure KeepsHost (domains : List Text) (singleLabel : Bool) (host : Text) : Prop where
  not_empty : host ≠ []
  not_ignored : ∀ entry ∈ domains, Domain.normalize entry ≠ [] →
    ¬(Domain.normalize entry).splitOn '.' <:+ host.splitOn '.'
  qualified : singleLabel = true ∨ 2 ≤ (host.splitOn '.').countP fun label => label ≠ []

/-- What a filter with the given list of domains keeps. -/
def Kept (domains : List Text) (singleLabel : Bool) (url : Text) : Prop :=
  ∃ host, Host.hostOf url = some host ∧ KeepsHost domains singleLabel host

section
variable {domains : List Text} {singleLabel : Bool} {url : Text}

theorem isQualified_iff {host : Text} : Domain.isQualified host = true ↔
    2 ≤ (host.splitOn '.').countP fun label => label ≠ [] := by
  rw [Domain.isQualified, decide_eq_true_iff, List.countP_eq_length_filter]
  have sameTest : (fun label : Text => !label.isEmpty) = fun label => decide (label ≠ []) := by
    funext label
    cases label <;> rfl
  rw [sameTest]

/-- No ignored domain covers a host that lies under none of them label by label. -/
theorem any_covers_eq_false_iff {host : Text} :
    (ofDomains domains singleLabel).ignored.any (Domain.covers · host) = false ↔
      ∀ entry ∈ domains, Domain.normalize entry ≠ [] →
        ¬(Domain.normalize entry).splitOn '.' <:+ host.splitOn '.' := by
  rw [List.any_eq_false]
  constructor
  · intro covered entry member notEmpty under
    refine covered _ (List.mem_filter.mpr ⟨List.mem_map_of_mem member, ?_⟩)
      (Domain.covers_iff.mpr under)
    simpa using notEmpty
  · intro free domain member covered
    obtain ⟨normalized, notEmpty⟩ := List.mem_filter.mp member
    obtain ⟨entry, isEntry, rfl⟩ := List.mem_map.mp normalized
    exact free entry isEntry (by simpa using notEmpty) (Domain.covers_iff.mp covered)

/-- A filter keeps exactly the URLs whose host qualifies label by label. -/
theorem keeps_iff : (ofDomains domains singleLabel).keeps url = true ↔
    Kept domains singleLabel url := by
  rw [keeps, Kept]
  cases found : Host.hostOf url with
  | none => simp
  | some host =>
    dsimp only
    rw [Bool.and_eq_true, Bool.not_eq_true', any_covers_eq_false_iff, Bool.or_eq_true,
      isQualified_iff]
    constructor
    · rintro ⟨notIgnored, qualified⟩
      exact ⟨host, rfl, Host.ne_nil_of_hostOf found, notIgnored, qualified⟩
    · rintro ⟨_, same, keepsHost⟩
      cases same
      exact ⟨keepsHost.not_ignored, keepsHost.qualified⟩

instance : Decidable (Kept domains singleLabel url) :=
  decidable_of_iff _ keeps_iff

section
variable {domains' : List Text} {singleLabel' : Bool}

/-- With fewer domains in the list, and if hosts of one label are wanted at least as before, no
fewer URLs are kept. -/
theorem Kept.mono (fewer : domains' ⊆ domains)
    (wanted : singleLabel = true → singleLabel' = true) (kept : Kept domains singleLabel url) :
    Kept domains' singleLabel' url := by
  obtain ⟨host, found, notEmpty, notIgnored, qualified⟩ := kept
  exact ⟨host, found, notEmpty, fun entry member => notIgnored entry (fewer member),
    qualified.imp_left wanted⟩

/-- A URL is kept under two lists of domains at once if it is kept under each of them. -/
theorem kept_append_iff :
    Kept (domains ++ domains') (singleLabel && singleLabel') url ↔
      Kept domains singleLabel url ∧ Kept domains' singleLabel' url := by
  constructor
  · intro kept
    exact ⟨kept.mono (List.subset_append_left _ _) fun both => (Bool.and_eq_true_iff.mp both).1,
      kept.mono (List.subset_append_right _ _) fun both => (Bool.and_eq_true_iff.mp both).2⟩
  · rintro ⟨⟨host, found, notEmpty, notIgnored, qualified⟩, _, found', -, notIgnored', qualified'⟩
    cases found.symm.trans found'
    refine ⟨host, found, notEmpty, fun entry member => ?_, ?_⟩
    · rcases List.mem_append.mp member with first | second
      · exact notIgnored entry first
      · exact notIgnored' entry second
    · rw [Bool.and_eq_true]
      exact and_or_right.mpr ⟨qualified, qualified'⟩

/-- Only which entries are in the list matters. -/
theorem kept_congr (same : ∀ entry, entry ∈ domains ↔ entry ∈ domains') :
    Kept domains singleLabel url ↔ Kept domains' singleLabel url :=
  ⟨Kept.mono (fun entry => (same entry).mpr) id, Kept.mono (fun entry => (same entry).mp) id⟩

end

end

/-! ## All files -/

/-- The same files in the same order, each with its occurrences that are kept. -/
theorem applyToAll_eq (domains : List Text) (singleLabel : Bool) (results : List FileResult) :
    (ofDomains domains singleLabel).applyToAll results = results.map fun result =>
      ⟨result.file, result.urls.filter fun o => Kept domains singleLabel o.url⟩ := by
  refine List.map_congr_left fun result _ => ?_
  rw [applyTo, List.filter_congr fun o _ => ?_]
  rw [Bool.eq_iff_iff, keeps_iff, decide_eq_true_iff]

theorem applyToAll_congr {domains domains' : List Text} {singleLabel singleLabel' : Bool}
    (same : ∀ url, Kept domains singleLabel url ↔ Kept domains' singleLabel' url)
    (results : List FileResult) :
    (ofDomains domains singleLabel).applyToAll results =
      (ofDomains domains' singleLabel').applyToAll results := by
  rw [applyToAll_eq, applyToAll_eq]
  refine List.map_congr_left fun result _ => ?_
  rw [List.filter_congr fun o _ => decide_eq_decide.mpr (same o.url)]

theorem applyToAll_applyToAll (domains domains' : List Text) (singleLabel singleLabel' : Bool)
    (results : List FileResult) :
    (ofDomains domains' singleLabel').applyToAll
        ((ofDomains domains singleLabel).applyToAll results) =
      (ofDomains (domains ++ domains') (singleLabel && singleLabel')).applyToAll results := by
  rw [applyToAll_eq, applyToAll_eq, applyToAll_eq, List.map_map]
  refine List.map_congr_left fun result _ => ?_
  dsimp only [Function.comp]
  rw [List.filter_filter, List.filter_congr fun o _ => ?_]
  rw [Bool.eq_iff_iff, Bool.and_eq_true, decide_eq_true_iff, decide_eq_true_iff,
    decide_eq_true_iff, kept_append_iff, and_comm]

/-- What a filter makes of files. In each of them, in their order, the occurrences are left whose
host qualifies label by label. Two filters in turn are one filter for both lists of domains, which
keeps hosts of one label if both keep them; so filtering again changes nothing, and the order and
the number of the entries of a list do not matter. -/
theorem applyToAll_kept (domains domains' : List Text) (singleLabel singleLabel' : Bool)
    (results : List FileResult) :
    let f := ofDomains domains singleLabel
    (f.applyToAll results = results.map fun result =>
      ⟨result.file, result.urls.filter fun o => Kept domains singleLabel o.url⟩) ∧
    (ofDomains domains' singleLabel').applyToAll (f.applyToAll results) =
      (ofDomains (domains ++ domains') (singleLabel && singleLabel')).applyToAll results ∧
    f.applyToAll (f.applyToAll results) = f.applyToAll results ∧
    ((∀ entry, entry ∈ domains ↔ entry ∈ domains') →
      (ofDomains domains' singleLabel).applyToAll results = f.applyToAll results) := by
  intro f
  refine ⟨applyToAll_eq domains singleLabel results,
    applyToAll_applyToAll domains domains' singleLabel singleLabel' results, ?_, ?_⟩
  · have twice : ∀ entry, entry ∈ domains ++ domains ↔ entry ∈ domains := fun entry => by
      rw [List.mem_append, or_self]
    rw [applyToAll_applyToAll, Bool.and_self]
    exact applyToAll_congr (fun url => kept_congr twice) results
  · intro same
    exact applyToAll_congr (fun url => (kept_congr same).symm) results

/-- Two lists with the same entries, in another order and with one of them twice. -/
theorem applyToAll_kept_reordered :
    let domains := ["a.com".toList, "*.B.com".toList]
    let domains' := ["*.B.com".toList, "a.com".toList, "*.B.com".toList]
    let found (url : Text) : Occurrence := ⟨url, 1, 1, 0, 1, [], .text, by decide⟩
    let results : List FileResult := [⟨"f".toList, [found "http://x.a.com".toList,
      found "http://xa.com".toList, found "http://b.com".toList]⟩]
    (∀ entry, entry ∈ domains ↔ entry ∈ domains') ∧
    (ofDomains domains false).applyToAll results =
      [⟨"f".toList, [found "http://xa.com".toList]⟩] ∧
    (ofDomains domains' false).applyToAll results =
      (ofDomains domains false).applyToAll results := by
  intro domains domains' found results
  have same : ∀ entry, entry ∈ domains ↔ entry ∈ domains' := by
    intro entry
    simp [domains, domains']
    tauto
  exact ⟨same, by decide +kernel, (applyToAll_kept domains domains' false false results).2.2.2 same⟩

/-- A host that only ends with the name of a domain is not under it. -/
example :
    let domains := [" *.Example.com. ".toList, "..".toList]
    Kept domains false "http://notexample.com/".toList ∧
      ¬Kept domains false "http://a.EXAMPLE.com:80/".toList ∧
      ¬Kept domains false "http://localhost/".toList ∧
      Kept domains true "http://localhost/".toList := by
  decide +kernel

end Filter

end UrlScan
