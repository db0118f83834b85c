import FlowDiscovery.ResolverWorker

/-!
# Patterns of SaaS entries

Both services match a host name by the end of its text. Below a pattern with a
leading dot that is a match of whole labels, but the domain itself is left out. A
pattern without the dot matches its domain and everything that ends with it, at a
label boundary or not.
-/
namespace FlowDiscovery.SuffixPatterns
open PyText

/-- The pattern without its leading dot. -/
def domainOf (pattern : Text) : Text :=
  if pattern.head? = some '.' then pattern.tail else pattern

/-- The host is a subdomain: the domain stands behind a dot. -/
def Below (host domain : Text) : Prop := ∃ labels, host = labels ++ '.' :: domain

/-- What a match of whole labels asks for: the domain itself or a subdomain. -/
def AtOrBelow (host domain : Text) : Prop := host = domain ∨ Below host domain

/-- A lookup that matches whole labels and misses no entry. -/
structure MatchesLabels (lower : String → String) (entries : List SaasEntry) (host : String)
    (result : Option SaasEntry) : Prop where
  sound : ∀ s, result = some s →
    s ∈ entries ∧ AtOrBelow (lower host).toList (domainOf (lower s.pattern).toList)
  complete : (∃ s ∈ entries, AtOrBelow (lower host).toList (domainOf (lower s.pattern).toList)) →
    result.isSome = true

/-- What an entry asks of a host name: below the domain where the pattern has a leading
dot, else ending with the domain in whatever way. -/
def EndsWith (host pattern : Text) : Prop :=
  if pattern.head? = some '.' then Below host (domainOf pattern) else domainOf pattern <:+ host

/-- A lookup by the end of the text that misses no entry. -/
structure MatchesSuffix (lower : String → String) (entries : List SaasEntry) (host : String)
    (result : Option SaasEntry) : Prop where
  sound : ∀ s, result = some s →
    s ∈ entries ∧ EndsWith (lower host).toList (lower s.pattern).toList
  complete : (∃ s ∈ entries, EndsWith (lower host).toList (lower s.pattern).toList) →
    result.isSome = true

theorem below_iff_suffix (host domain : Text) : Below host domain ↔ '.' :: domain <:+ host := by
  constructor
  · rintro ⟨labels, rfl⟩
    exact List.suffix_append labels _
  · rintro ⟨labels, rfl⟩
    exact ⟨labels, rfl⟩

instance (host domain : Text) : Decidable (AtOrBelow host domain) :=
  decidable_of_iff (host = domain ∨ '.' :: domain <:+ host)
    (or_congr Iff.rfl (below_iff_suffix host domain).symm)

theorem endsWith_iff_suffix (host pattern : Text) : EndsWith host pattern ↔ pattern <:+ host := by
  unfold EndsWith domainOf
  split_ifs with hdot
  · obtain ⟨rest, rfl⟩ := List.head?_eq_some_iff.mp hdot
    exact below_iff_suffix host rest
  · rfl

/-- A subdomain is found whatever the pattern, the domain itself by a pattern without
the dot. -/
theorem endsWith_of_atOrBelow {host pattern : Text} (h : AtOrBelow host (domainOf pattern))
    (hapex : host = domainOf pattern → pattern.head? ≠ some '.') : EndsWith host pattern := by
  unfold EndsWith
  split_ifs with hdot
  · rcases h with heq | hbelow
    · exact absurd hdot (hapex heq)
    · exact hbelow
  · rcases h with heq | ⟨labels, hlabels⟩
    · rw [heq]
    · rw [hlabels]
      exact ⟨labels ++ ['.'], by simp⟩

/-- The first entry of a list whose pattern ends the name. -/
theorem find?_matchesSuffix (lower : String → String) {entries sorted : List SaasEntry}
    (hmem : ∀ s, s ∈ sorted ↔ s ∈ entries) (host : String) :
    MatchesSuffix lower entries host (sorted.find? fun s =>
      (lower s.pattern).toList.isSuffixOf (lower host).toList) where
  sound s hs := by
    have hsuffix := List.find?_some hs
    rw [List.isSuffixOf_iff_suffix] at hsuffix
    exact ⟨(hmem s).mp (List.mem_of_find?_eq_some hs), (endsWith_iff_suffix _ _).mpr hsuffix⟩
  complete := by
    rintro ⟨s, hs, hends⟩
    rw [List.find?_isSome]
    refine ⟨s, (hmem s).mpr hs, ?_⟩
    rw [List.isSuffixOf_iff_suffix]
    exact (endsWith_iff_suffix _ _).mp hends

/-- Both lookups match by the end of the text, so they find an entry for every
subdomain of an entry's domain and for every domain of a pattern without the dot. -/
theorem saasLookups_match_suffix (lower : String → String) (host : String) :
    (∀ w : ResolverWorker.Worker, MatchesSuffix lower w.saas host (w.matchName lower host)) ∧
    (∀ r : AppResolver, MatchesSuffix lower r.saasSorted host (r.saasHit lower host)) ∧
    ∀ s : SaasEntry, AtOrBelow (lower host).toList (domainOf (lower s.pattern).toList) →
      ((lower host).toList = domainOf (lower s.pattern).toList →
        (lower s.pattern).toList.head? ≠ some '.') →
      (∀ w : ResolverWorker.Worker, s ∈ w.saas → (w.matchName lower host).isSome = true) ∧
      ∀ r : AppResolver, s ∈ r.saasSorted → (r.saasHit lower host).isSome = true := by
  have hworker : ∀ w : ResolverWorker.Worker,
      MatchesSuffix lower w.saas host (w.matchName lower host) :=
    fun w => find?_matchesSuffix lower (mem_sortedBy _ w.saas) host
  have hresolver : ∀ r : AppResolver,
      MatchesSuffix lower r.saasSorted host (r.saasHit lower host) :=
    fun r => find?_matchesSuffix lower (fun _ => Iff.rfl) host
  refine ⟨hworker, hresolver, fun s hat hapex => ?_⟩
  have hends := endsWith_of_atOrBelow hat hapex
  exact ⟨fun w hs => (hworker w).complete ⟨s, hs, hends⟩,
    fun r hs => (hresolver r).complete ⟨s, hs, hends⟩⟩

/-- Entries for one domain, without and with the dot. -/
def bareEntry : SaasEntry := ⟨1, "Example", "example.com", 100⟩

def dottedEntry : SaasEntry := ⟨2, "Example", ".example.com", 100⟩

theorem saasLookups_match_suffix_subdomain :
    (ResolverWorker.Worker.matchName id ⟨[dottedEntry], 60, 60⟩ "www.example.com").isSome = true ∧
      (AppResolver.saasHit id ⟨[], [dottedEntry], .empty⟩ "www.example.com").isSome = true := by
  have hfound := (saasLookups_match_suffix id "www.example.com").2.2 dottedEntry
    (by decide) (by decide)
  exact ⟨hfound.1 ⟨[dottedEntry], 60, 60⟩ List.mem_cons_self,
    hfound.2 ⟨[], [dottedEntry], .empty⟩ List.mem_cons_self⟩

/-- The pattern without the dot matches the name of somebody else's domain, the one with
the dot does not match its own domain. -/
theorem labels_not_respected :
    (¬ MatchesLabels id [bareEntry] "badexample.com"
        (ResolverWorker.Worker.matchName id ⟨[bareEntry], 60, 60⟩ "badexample.com") ∧
      ¬ MatchesLabels id [bareEntry] "badexample.com"
        (AppResolver.saasHit id ⟨[], [bareEntry], .empty⟩ "badexample.com")) ∧
    ¬ MatchesLabels id [dottedEntry] "example.com"
        (ResolverWorker.Worker.matchName id ⟨[dottedEntry], 60, 60⟩ "example.com") ∧
      ¬ MatchesLabels id [dottedEntry] "example.com"
        (AppResolver.saasHit id ⟨[], [dottedEntry], .empty⟩ "example.com") := by
  have hoff : ¬ AtOrBelow "badexample.com".toList (domainOf bareEntry.pattern.toList) := by decide
  have hat : AtOrBelow "example.com".toList (domainOf dottedEntry.pattern.toList) := by decide
  refine ⟨⟨fun h => hoff (h.sound bareEntry ?_).2, fun h => hoff (h.sound bareEntry ?_).2⟩,
    fun h => ?_, fun h => ?_⟩
  · decide
  · decide
  · exact absurd (h.complete ⟨dottedEntry, List.mem_cons_self, hat⟩) (by decide)
  · exact absurd (h.complete ⟨dottedEntry, List.mem_cons_self, hat⟩) (by decide)

end FlowDiscovery.SuffixPatterns
