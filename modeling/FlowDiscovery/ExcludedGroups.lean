import FlowDiscovery.Correlator
import FlowDiscovery.GroupDecisions
import FlowDiscovery.PyText

/-!
# Excluded groups

Directory syncs store a group under its distinguished name or object identifier
and keep its display name beside it. The settings exclude groups by display
name, but `lcd` removes the excluded texts from sets of identifiers. A group with
an excluded name is therefore still chosen whenever it is the smallest group of
its own members. The largest set of users it can be chosen for is its full
membership, and that set decides.
-/
namespace FlowDiscovery.ExcludedGroups
open PyText PyTime SankeyPublisher Correlator GroupIndex

/-! ## Rows written by the directory syncs -/

/-- `_cn`: the value of the first component of a distinguished name. -/
def cn (dn : Text) : Text :=
  let first := dn.takeWhile (· ≠ ',')
  match splitOnce ['='] first with
  | some parts => parts.2
  | none => first

/-- Rows of `AdGroupSync.sync_user` for the values of `memberOf`. -/
def adRows (user : String) (memberOf : List String) : List GroupRow :=
  memberOf.map fun dn => ⟨user, dn, String.ofList (cn dn.toList)⟩

/-- The fields of a directory object that the Entra sync reads. -/
structure DirectoryObject where
  odataType : Option String
  id : String
  displayName : Option String

/-- Rows of `EntraGroupSync.sync_user` for the pages of `transitiveMemberOf`. -/
def entraRows (user : String) (objects : List DirectoryObject) : List GroupRow :=
  (objects.filter fun g => g.odataType = some "#microsoft.graph.group").map fun g =>
    ⟨user, g.id, (orElse g.displayName (some g.id)).getD g.id⟩

/-! ## Windows -/

/-- A flow labelled with what the index says about its user. -/
def EnrichedFrom (gi : GroupIndex) (f : LabelledFlow) : Prop :=
  ∃ hit, (f.userUpn, f.groups) = enrich gi hit

abbrev Window := Instant × List LabelledFlow

/-- The aggregator after a sequence of windows in group mode. -/
def aggregatorAfter (gi : GroupIndex) (agg : GroupAggregator) (windows : List Window) :
    GroupAggregator :=
  windows.foldl (fun agg w => (buildGroupDelta agg (some gi) .group w.1 w.2).2) agg

/-- The link carries traffic that was rolled up under the group. -/
def RolledUp (gi : GroupIndex) (agg : GroupAggregator) (flows : List LabelledFlow) (link : Link)
    (g : String) : Prop :=
  link.src = g ∧ ∃ dec ∈ (agg.aggregateRows (flows.map toRow) gi.groupSize .group).decisions,
    dec.dst = link.dst ∧ dec.chosen = some g

/-- After any windows enriched from the loaded table, no link of the next window
carries a group whose identifier or name is excluded. -/
def ExclusionHolds (table : List GroupRow) (excluded : Finset String) (floor : ℤ) : Prop :=
  let gi := GroupIndex.load table
  ∀ (earlier : List Window) (bucket : Instant) (flows : List LabelledFlow),
    (∀ w ∈ earlier, ∀ f ∈ w.2, EnrichedFrom gi f) → (∀ f ∈ flows, EnrichedFrom gi f) →
    let agg := aggregatorAfter gi ⟨excluded, floor, .empty⟩ earlier
    ∀ link ∈ (buildGroupDelta agg (some gi) .group bucket flows).1.links, ∀ g,
      RolledUp gi agg flows link g → g ∉ excluded ∧ gi.nameOf g ∉ excluded

/-- Members of a group that can be known users of a window. -/
def knownMembers (table : List GroupRow) (g : String) : Finset String :=
  (members table g).erase unknownUser

/-- Every group with an excluded name is excluded by its identifier as well, has
no known member, is beaten by a group with at least the same known members, or
is too large for its only known member. -/
def NamesCovered (table : List GroupRow) (excluded : Finset String) (floor : ℤ) : Prop :=
  ∀ g, (GroupIndex.load table).nameOf g ∈ excluded →
    g ∈ excluded ∨ knownMembers table g = ∅ ∨
    (∃ h, h ∉ excluded ∧ knownMembers table g ⊆ members table h ∧
      toLex ((members table h).card, h) < toLex ((members table g).card, g)) ∨
    ((knownMembers table g).card = 1 ∧ floor < (members table g).card)

/-! ## Windows of one loaded table -/

theorem rowsFrom_of_enriched {gi : GroupIndex} {flows : List LabelledFlow}
    (h : ∀ f ∈ flows, EnrichedFrom gi f) : RowsFrom gi.groupsOf (flows.map toRow) := by
  intro r hr hne
  obtain ⟨f, hf, rfl⟩ := List.mem_map.mp hr
  obtain ⟨hit, hhit⟩ := h f hf
  cases hit with
  | none => exact absurd (Prod.mk.inj hhit).1 hne
  | some upn =>
    obtain ⟨hupn, hgroups⟩ := Prod.mk.inj hhit
    simp only [toRow, hupn, hgroups]

/-- Windows of enriched flows keep the settings and the currency of the cache. -/
theorem aggregatorAfter_current {gi : GroupIndex} {windows : List Window} {agg : GroupAggregator}
    (hcache : agg.CacheCurrent gi.groupsOf gi.groupSize)
    (h : ∀ w ∈ windows, ∀ f ∈ w.2, EnrichedFrom gi f) :
    (aggregatorAfter gi agg windows).CacheCurrent gi.groupsOf gi.groupSize ∧
      (aggregatorAfter gi agg windows).excluded = agg.excluded ∧
      (aggregatorAfter gi agg windows).floor = agg.floor := by
  induction windows generalizing agg with
  | nil => exact ⟨hcache, rfl, rfl⟩
  | cons w rest ih =>
    have hrows := rowsFrom_of_enriched (h w List.mem_cons_self)
    have hd := agg.aggregateRows_decided (w.2.map toRow) gi.groupSize
    obtain ⟨hcurrent, hexcluded, hfloor⟩ := ih
      (GroupAggregator.aggregateRows_current hcache hrows).1
      fun w' hw' => h w' (List.mem_cons_of_mem _ hw')
    exact ⟨hcurrent, hexcluded.trans hd.excluded_eq, hfloor.trans hd.floor_eq⟩

/-- Which group the loaded table gives a set of users. -/
theorem lcd_load_eq_some_iff (table : List GroupRow) (users excluded : Finset String) (floor : ℤ)
    (g : String) :
    lcd users (fun u => some ((load table).groupsOf u)) (load table).groupSize excluded floor =
        some g ↔
      users ≠ ∅ ∧ users ⊆ members table g ∧ g ∉ excluded ∧
      (∀ h, users ⊆ members table h → h ∉ excluded →
        toLex ((members table g).card, g) ≤ toLex ((members table h).card, h)) ∧
      ¬ (users.card = 1 ∧ floor < (members table g).card) := by
  have hshared : ∀ x, SharedBy users (fun u => some ((load table).groupsOf u)) x ↔
      users ⊆ members table x := by
    intro x
    refine forall₂_congr fun u _ => ?_
    simp [mem_groupsOf_load]
  simp only [lcd_eq_some_iff, LeastShared, hshared, groupKey, groupSize_load, and_assoc]

/-! ## Covered names are enough -/

/-- A chosen group has its users among its known members, so none of the ways in
which a name can be covered applies to it. -/
theorem not_covered_of_chosen {table : List GroupRow} {excluded : Finset String} {floor : ℤ}
    {users : Finset String} {g : String} (hknown : unknownUser ∉ users)
    (hlcd : lcd users (fun u => some ((load table).groupsOf u)) (load table).groupSize excluded
      floor = some g) (hcovered : NamesCovered table excluded floor) :
    g ∉ excluded ∧ (load table).nameOf g ∉ excluded := by
  obtain ⟨hne, hsub, hex, hleast, hfloor⟩ := (lcd_load_eq_some_iff ..).mp hlcd
  have hsub' : users ⊆ knownMembers table g := fun u hu =>
    Finset.mem_erase.mpr ⟨fun he => hknown (he ▸ hu), hsub hu⟩
  refine ⟨hex, fun hname => ?_⟩
  rcases hcovered g hname with hid | hempty | ⟨h, hh, hall, hlt⟩ | ⟨hone, hlarge⟩
  · exact hex hid
  · exact hne (Finset.subset_empty.mp (hempty ▸ hsub'))
  · exact absurd (hleast h (hsub'.trans hall) hh) (not_le_of_gt hlt)
  · have hcard : users.card = 1 := le_antisymm (hone ▸ Finset.card_le_card hsub')
      (Finset.card_pos.mpr (Finset.nonempty_iff_ne_empty.mpr hne))
    exact hfloor ⟨hcard, hlarge⟩

/-! ## Covered names are needed -/

/-- One flow of a user to an application, enriched from the index. -/
def flowOf (gi : GroupIndex) (label : String) (upn : String) : LabelledFlow :=
  labelFlow ⟨0, 5, "10.0.0.5", "198.51.100.7", 443, 6, 10, 1, 1, none, none, none, false, 0⟩
    ⟨.port, label, none⟩ (enrich gi (some upn))

theorem flowsOf_enriched (gi : GroupIndex) (label : String) (users : Finset String) :
    ∀ f ∈ users.toList.map (flowOf gi label), EnrichedFrom gi f := by
  intro f hf
  obtain ⟨u, _, rfl⟩ := List.mem_map.mp hf
  exact ⟨some u, rfl⟩

theorem knownUsers_flowsOf (gi : GroupIndex) (label : String) {users : Finset String}
    (hknown : unknownUser ∉ users) :
    knownUsers ((users.toList.map (flowOf gi label)).map toRow) ("app:" ++ label) = users := by
  ext u
  rw [mem_knownUsers]
  constructor
  · rintro ⟨_, r, hr, _, rfl⟩
    obtain ⟨f, hf, rfl⟩ := List.mem_map.mp hr
    obtain ⟨u, hu, rfl⟩ := List.mem_map.mp hf
    exact Finset.mem_toList.mp hu
  · intro hu
    refine ⟨fun he => hknown (he ▸ hu), toRow (flowOf gi label u), ?_, rfl, rfl⟩
    exact List.mem_map_of_mem (List.mem_map_of_mem (Finset.mem_toList.mpr hu))

/-- In the first window in which exactly the given known users send traffic to
one application, the group that `lcd` gives them labels a link. -/
theorem exists_rolledUp (gi : GroupIndex) (excluded : Finset String) (floor : ℤ)
    {users : Finset String} (hne : users ≠ ∅) (hknown : unknownUser ∉ users) {g : String}
    (hlcd : lcd users (fun u => some (gi.groupsOf u)) gi.groupSize excluded floor = some g)
    (bucket : Instant) (label : String) :
    let agg : GroupAggregator := ⟨excluded, floor, .empty⟩
    let flows := users.toList.map (flowOf gi label)
    ∃ link ∈ (buildGroupDelta agg (some gi) .group bucket flows).1.links,
      RolledUp gi agg flows link g := by
  intro agg flows
  have hcache : agg.CacheCurrent gi.groupsOf gi.groupSize := by
    simp [agg, GroupAggregator.CacheCurrent]
  obtain ⟨dec, hdec, hdst, husers⟩ := (agg.aggregateRows_decisions (flows.map toRow) gi.groupSize
    ("app:" ++ label) users).mpr ⟨(knownUsers_flowsOf gi label hknown).symm, hne⟩
  have hchosen : dec.chosen = some g := by
    rw [(GroupAggregator.aggregateRows_current hcache (rowsFrom_of_enriched
      (flowsOf_enriched gi label users))).2 dec hdec, husers]
    exact hlcd
  obtain ⟨link, hlink, hsrc, hlinkDst⟩ := agg.exists_link_of_decision _ _ hdec hchosen
  exact ⟨link, hlink, hsrc, dec, hdec, hlinkDst.symm, hchosen⟩

/-- Excluded names label no traffic exactly if all of them are covered. -/
theorem exclusionHolds_iff (table : List GroupRow) (excluded : Finset String) (floor : ℤ) :
    ExclusionHolds table excluded floor ↔ NamesCovered table excluded floor := by
  constructor
  · intro hholds g hname
    by_contra huncovered
    push Not at huncovered
    obtain ⟨hex, hnonempty, hbeaten, hfloor⟩ := huncovered
    have hne := hnonempty.ne_empty
    have hknown : unknownUser ∉ knownMembers table g := Finset.notMem_erase _ _
    -- the largest set of users the group can be chosen for
    have hlcd : lcd (knownMembers table g) (fun u => some ((load table).groupsOf u))
        (load table).groupSize excluded floor = some g := by
      refine (lcd_load_eq_some_iff ..).mpr ⟨hne, Finset.erase_subset _ _, hex, ?_, ?_⟩
      · exact fun h hall hh => hbeaten h hh hall
      · exact fun hone => absurd hone.2 (not_lt_of_ge (hfloor hone.1))
    obtain ⟨link, hlink, hrolled⟩ := exists_rolledUp (load table) excluded floor hne hknown hlcd
      0 "tcp/443"
    have henriched := flowsOf_enriched (load table) "tcp/443" (knownMembers table g)
    exact (hholds [] 0 _ (by simp) henriched link hlink g hrolled).2 hname
  · intro hcovered earlier bucket flows hearlier hflows agg link _ g hrolled
    obtain ⟨_, dec, hdec, _, hchosen⟩ := hrolled
    have hstart : GroupAggregator.CacheCurrent (load table).groupsOf (load table).groupSize
        ⟨excluded, floor, .empty⟩ := by simp [GroupAggregator.CacheCurrent]
    obtain ⟨hcache, hexcluded, hfloor⟩ := aggregatorAfter_current hstart hearlier
    obtain ⟨husers, _⟩ := (agg.aggregateRows_decisions (flows.map toRow) (load table).groupSize
      dec.dst dec.users).mp ⟨dec, hdec, rfl, rfl⟩
    have hknown : unknownUser ∉ dec.users := husers ▸ Finset.notMem_erase _ _
    refine not_covered_of_chosen hknown ?_ hcovered
    rw [← hchosen, (GroupAggregator.aggregateRows_current hcache
      (rowsFrom_of_enriched hflows)).2 dec hdec, hexcluded, hfloor]

/-- The list of the operators' guide. -/
def guideExclusions : Finset String :=
  {"Domain Users", "Authenticated Users", "Everyone", "All Employees"}

/-- Two users of the directory and one of the cloud tenant, all of whom are in the
company-wide group only. -/
def companyTable : List GroupRow :=
  adRows "alice@corp.example" ["CN=All Employees,OU=Groups,DC=corp"] ++
    adRows "bob@corp.example" ["CN=All Employees,OU=Groups,DC=corp"] ++
    entraRows "carol@corp.example"
      [⟨some "#microsoft.graph.group", "7c1f0e52", some "All Employees"⟩]

def companyWindow : List LabelledFlow :=
  let gi := load companyTable
  [flowOf gi "wiki" "alice@corp.example", flowOf gi "wiki" "bob@corp.example",
    flowOf gi "mail" "carol@corp.example"]

/-- Both links of the window carry a group named `All Employees`. -/
theorem companyWindow_links_excluded :
    (buildGroupDelta ⟨guideExclusions, 500, .empty⟩ (some (load companyTable)) .group 0
        companyWindow).1.links =
      [⟨"CN=All Employees,OU=Groups,DC=corp", "app:wiki", 20, 2, 2⟩,
        ⟨"7c1f0e52", "app:mail", 10, 1, 1⟩] ∧
      (load companyTable).nameOf "CN=All Employees,OU=Groups,DC=corp" = "All Employees" ∧
      (load companyTable).nameOf "7c1f0e52" = "All Employees" ∧
      ¬ ExclusionHolds companyTable guideExclusions 500 := by
  have hlinks : (buildGroupDelta ⟨guideExclusions, 500, .empty⟩ (some (load companyTable)) .group 0
      companyWindow).1.links = [⟨"CN=All Employees,OU=Groups,DC=corp", "app:wiki", 20, 2, 2⟩,
        ⟨"7c1f0e52", "app:mail", 10, 1, 1⟩] := by decide +kernel
  refine ⟨hlinks, by decide +kernel, by decide +kernel, fun h => ?_⟩
  have hdecision : ∃ dec ∈ (GroupAggregator.aggregateRows ⟨guideExclusions, 500, .empty⟩
      (companyWindow.map toRow) (load companyTable).groupSize .group).decisions,
      dec.dst = "app:wiki" ∧ dec.chosen = some "CN=All Employees,OU=Groups,DC=corp" := by
    decide +kernel
  have henriched : ∀ f ∈ companyWindow, EnrichedFrom (load companyTable) f := by
    simp only [companyWindow, List.forall_mem_cons, List.not_mem_nil, false_implies, implies_true,
      and_true]
    exact ⟨⟨some _, rfl⟩, ⟨some _, rfl⟩, ⟨some _, rfl⟩⟩
  have hlink := hlinks ▸ List.mem_cons_self (a := (⟨"CN=All Employees,OU=Groups,DC=corp",
    "app:wiki", 20, 2, 2⟩ : Link))
  refine (h [] 0 companyWindow (by simp) henriched _ hlink _ ⟨rfl, hdecision⟩).2 ?_
  decide +kernel

end FlowDiscovery.ExcludedGroups
