import FlowDiscovery.StrandSums

/-!
# Group mode against its specification

Per destination, group mode is meant to give one strand of the unknown user and
either one link of the group chosen for the known users or one link per known
user. With users that carry the same groups in all their rows the links are these
and no others, so neither the order of the rows nor earlier calls matter.
-/
namespace FlowDiscovery

/-- A link with the sums over the rows and a stated number of users. -/
def sumLink (src dst : String) (rows : List Row) (users : ℕ) : Link :=
  ⟨src, dst, rowTotal .bytes rows, rowTotal .flows rows, users⟩

/-- The links that group mode is for, destination by destination. -/
inductive GroupLink (groupsOf : String → Finset String) (sizes : String → ℕ)
    (excluded : Finset String) (floor : ℤ) (rows : List Row) : Link → Prop
  | unknown (dst : String) (hrow : ∃ r ∈ rows, r.dst = dst ∧ r.userUpn = unknownUser) :
    GroupLink groupsOf sizes excluded floor rows (sumLink unknownUser dst
      (rows.filter fun r => r.dst = dst ∧ r.userUpn = unknownUser) 1)
  | group (dst g : String)
    (hg : lcd (knownUsers rows dst) (fun u => some (groupsOf u)) sizes excluded floor = some g) :
    GroupLink groupsOf sizes excluded floor rows (sumLink g dst
      (rows.filter fun r => r.dst = dst ∧ r.userUpn ≠ unknownUser) (knownUsers rows dst).card)
  | user (dst u : String)
    (hnone : lcd (knownUsers rows dst) (fun u => some (groupsOf u)) sizes excluded floor = none)
    (hu : u ∈ knownUsers rows dst) :
    GroupLink groupsOf sizes excluded floor rows (sumLink u dst
      (rows.filter fun r => r.dst = dst ∧ r.userUpn = u) 1)

theorem knownUsers_perm {rows rows' : List Row} (h : rows.Perm rows') (dst : String) :
    knownUsers rows dst = knownUsers rows' dst := by
  ext u
  simp only [mem_knownUsers, h.mem_iff]

theorem sumLink_perm (src dst : String) {rows rows' : List Row} (h : rows.Perm rows')
    (users : ℕ) : sumLink src dst rows users = sumLink src dst rows' users := by
  simp only [sumLink, rowTotal_perm _ h]

/-- The specification reads the rows as a multiset. -/
theorem GroupLink.perm {groupsOf : String → Finset String} {sizes : String → ℕ}
    {excluded : Finset String} {floor : ℤ} {rows rows' : List Row} (h : rows.Perm rows')
    {link : Link} (hlink : GroupLink groupsOf sizes excluded floor rows link) :
    GroupLink groupsOf sizes excluded floor rows' link := by
  cases hlink with
  | unknown dst hrow =>
    rw [sumLink_perm _ _ (h.filter _)]
    obtain ⟨r, hr, hkey⟩ := hrow
    exact .unknown dst ⟨r, h.mem_iff.mp hr, hkey⟩
  | group dst g hg =>
    rw [sumLink_perm _ _ (h.filter _), knownUsers_perm h]
    rw [knownUsers_perm h] at hg
    exact .group dst g hg
  | user dst u hnone hu =>
    rw [sumLink_perm _ _ (h.filter _)]
    rw [knownUsers_perm h] at hnone hu
    exact .user dst u hnone hu

/-! ## The strands under the chosen labels -/

theorem usersOf_eq_singleton {rows : List Row} (hne : rows ≠ []) {u : String}
    (h : ∀ r ∈ rows, r.userUpn = u) : usersOf rows = {u} := by
  ext v
  rw [mem_usersOf, Finset.mem_singleton]
  constructor
  · rintro ⟨r, hr, rfl⟩
    exact h r hr
  · rintro rfl
    obtain ⟨r, hr⟩ := List.exists_mem_of_ne_nil rows hne
    exact ⟨r, hr, h r hr⟩

/-- The rows of one user, of which there is one. -/
theorem linkOf_oneUser (src : String) {rows : List Row} {dst u : String}
    (h : ∃ r ∈ rows, r.dst = dst ∧ r.userUpn = u) :
    linkOf src dst (rows.filter fun r => r.dst = dst ∧ r.userUpn = u) =
      sumLink src dst (rows.filter fun r => r.dst = dst ∧ r.userUpn = u) 1 := by
  obtain ⟨r, hr, hkey⟩ := h
  have hne : (rows.filter fun r => r.dst = dst ∧ r.userUpn = u) ≠ [] :=
    List.ne_nil_of_mem (List.mem_filter.mpr ⟨hr, decide_eq_true hkey⟩)
  have husers : ∀ r' ∈ rows.filter fun r => r.dst = dst ∧ r.userUpn = u, r'.userUpn = u := by
    intro r' hr'
    have hkey' := (List.mem_filter.mp hr').2
    simp only [decide_eq_true_eq] at hkey'
    exact hkey'.2
  rw [linkOf, usersOf_eq_singleton hne husers, Finset.card_singleton, sumLink]

/-- The users of the known rows of a destination are its known users. -/
theorem usersOf_known (rows : List Row) (dst : String) :
    usersOf (rows.filter fun r => r.dst = dst ∧ r.userUpn ≠ unknownUser) = knownUsers rows dst := by
  ext u
  simp only [mem_usersOf, mem_knownUsers, List.mem_filter, decide_eq_true_eq]
  constructor
  · rintro ⟨r, ⟨hr, hdst, hne⟩, rfl⟩
    exact ⟨hne, r, hr, hdst, rfl⟩
  · rintro ⟨hne, r, hr, hdst, rfl⟩
    exact ⟨r, ⟨hr, hdst, hne⟩, rfl⟩

/-- A chosen group is in the rows of every known user, so it is no reserved word. -/
theorem chosen_ne_unknown {groupsOf : String → Finset String} {rows : List Row}
    (hrows : RowsFrom groupsOf rows)
    (hword : ∀ r ∈ rows, r.userUpn ≠ unknownUser → unknownUser ∉ r.groups) {dst g : String}
    {sizes : String → ℕ} {excluded : Finset String} {floor : ℤ}
    (hg : lcd (knownUsers rows dst) (fun u => some (groupsOf u)) sizes excluded floor = some g) :
    g ≠ unknownUser := by
  obtain ⟨hne, ⟨hshared, _⟩, _⟩ := (lcd_eq_some_iff ..).mp hg
  obtain ⟨u, hu⟩ := Finset.nonempty_iff_ne_empty.mpr hne
  obtain ⟨gs, hgs, hmem⟩ := hshared u hu
  obtain ⟨hknown, r, hr, _, rfl⟩ := (mem_knownUsers rows dst u).mp hu
  rintro rfl
  have hgroups : r.groups = gs := (hrows r hr hknown).trans (Option.some.inj hgs)
  exact hword r hr hknown (hgroups ▸ hmem)

/-- The label that group mode is meant to give a known user. -/
def groupLabel (groupsOf : String → Finset String) (sizes : String → ℕ)
    (excluded : Finset String) (floor : ℤ) (rows : List Row) (dst u : String) : String :=
  (lcd (knownUsers rows dst) (fun u => some (groupsOf u)) sizes excluded floor).getD u

section GroupLabel

variable {groupsOf : String → Finset String} {sizes : String → ℕ} {excluded : Finset String}
  {floor : ℤ} {rows : List Row}

theorem groupLabel_ne_unknown (hrows : RowsFrom groupsOf rows)
    (hword : ∀ r ∈ rows, r.userUpn ≠ unknownUser → unknownUser ∉ r.groups) (dst : String)
    {u : String} (hu : u ≠ unknownUser) :
    groupLabel groupsOf sizes excluded floor rows dst u ≠ unknownUser := by
  unfold groupLabel
  cases hlcd : lcd (knownUsers rows dst) (fun u => some (groupsOf u)) sizes excluded floor with
  | none => exact hu
  | some g => exact chosen_ne_unknown hrows hword hlcd

theorem strand_unknown (hrows : RowsFrom groupsOf rows)
    (hword : ∀ r ∈ rows, r.userUpn ≠ unknownUser → unknownUser ∉ r.groups) (dst : String) :
    strand (sourceOf (groupLabel groupsOf sizes excluded floor rows)) rows unknownUser dst =
      rows.filter fun r => r.dst = dst ∧ r.userUpn = unknownUser := by
  refine List.filter_congr fun r _ => ?_
  by_cases hu : r.userUpn = unknownUser
  · simp [sourceOf, hu]
  · simp [sourceOf, hu, groupLabel_ne_unknown hrows hword r.dst hu]

theorem strand_group (hrows : RowsFrom groupsOf rows)
    (hword : ∀ r ∈ rows, r.userUpn ≠ unknownUser → unknownUser ∉ r.groups) {dst g : String}
    (hg : lcd (knownUsers rows dst) (fun u => some (groupsOf u)) sizes excluded floor = some g) :
    strand (sourceOf (groupLabel groupsOf sizes excluded floor rows)) rows g dst =
      rows.filter fun r => r.dst = dst ∧ r.userUpn ≠ unknownUser := by
  have hne := chosen_ne_unknown hrows hword hg
  refine List.filter_congr fun r _ => decide_eq_decide.mpr ?_
  by_cases hu : r.userUpn = unknownUser
  · simp [sourceOf, hu, hne.symm]
  · rw [sourceOf, if_neg hu, and_comm]
    refine and_congr_right fun hdst => ?_
    simp [groupLabel, hdst, hg, hu]

theorem strand_user {dst u : String} (hu : u ≠ unknownUser)
    (hnone : lcd (knownUsers rows dst) (fun u => some (groupsOf u)) sizes excluded floor = none) :
    strand (sourceOf (groupLabel groupsOf sizes excluded floor rows)) rows u dst =
      rows.filter fun r => r.dst = dst ∧ r.userUpn = u := by
  refine List.filter_congr fun r _ => decide_eq_decide.mpr ?_
  by_cases hr : r.userUpn = unknownUser
  · simp [sourceOf, hr, hu.symm]
  · rw [sourceOf, if_neg hr, and_comm]
    refine and_congr_right fun hdst => ?_
    simp [groupLabel, hdst, hnone]

/-- Nonempty strands and specified links are the same. -/
theorem strand_iff_groupLink (hrows : RowsFrom groupsOf rows)
    (hword : ∀ r ∈ rows, r.userUpn ≠ unknownUser → unknownUser ∉ r.groups) (link : Link) :
    (∃ src dst, strand (sourceOf (groupLabel groupsOf sizes excluded floor rows)) rows src dst ≠ [] ∧
      link = linkOf src dst
        (strand (sourceOf (groupLabel groupsOf sizes excluded floor rows)) rows src dst)) ↔
      GroupLink groupsOf sizes excluded floor rows link := by
  constructor
  · rintro ⟨src, dst, hne, rfl⟩
    obtain ⟨r, hr⟩ := List.exists_mem_of_ne_nil _ hne
    obtain ⟨hrow, rfl, rfl⟩ := mem_strand.mp hr
    by_cases hu : r.userUpn = unknownUser
    · have hex : ∃ r' ∈ rows, r'.dst = r.dst ∧ r'.userUpn = unknownUser := ⟨r, hrow, rfl, hu⟩
      rw [sourceOf, if_pos hu, strand_unknown hrows hword, linkOf_oneUser _ hex]
      exact .unknown r.dst hex
    · have hex : ∃ r' ∈ rows, r'.dst = r.dst ∧ r'.userUpn = r.userUpn := ⟨r, hrow, rfl, rfl⟩
      have hknown : r.userUpn ∈ knownUsers rows r.dst :=
        (mem_knownUsers rows r.dst _).mpr ⟨hu, hex⟩
      rw [sourceOf, if_neg hu, groupLabel]
      cases hlcd : lcd (knownUsers rows r.dst) (fun u => some (groupsOf u)) sizes excluded floor with
      | none =>
        rw [Option.getD_none, strand_user hu hlcd, linkOf_oneUser _ hex]
        exact .user r.dst r.userUpn hlcd hknown
      | some g =>
        rw [Option.getD_some, strand_group hrows hword hlcd, linkOf, usersOf_known]
        exact .group r.dst g hlcd
  · rintro (⟨dst, hrow⟩ | ⟨dst, g, hg⟩ | ⟨dst, u, hnone, hu⟩)
    · refine ⟨unknownUser, dst, ?_, ?_⟩
      · obtain ⟨r, hr, hdst, hu⟩ := hrow
        exact List.ne_nil_of_mem (mem_strand.mpr ⟨hr, by rw [sourceOf, if_pos hu], hdst⟩)
      · rw [strand_unknown hrows hword, linkOf_oneUser _ hrow]
    · refine ⟨g, dst, ?_, ?_⟩
      · obtain ⟨u, hu⟩ := Finset.nonempty_iff_ne_empty.mpr ((lcd_eq_some_iff ..).mp hg).1
        obtain ⟨hne, r, hr, hdst, rfl⟩ := (mem_knownUsers rows dst u).mp hu
        rw [strand_group hrows hword hg]
        exact List.ne_nil_of_mem (List.mem_filter.mpr ⟨hr, decide_eq_true ⟨hdst, hne⟩⟩)
      · rw [strand_group hrows hword hg, linkOf, usersOf_known]
        rfl
    · obtain ⟨hne, hex⟩ := (mem_knownUsers rows dst u).mp hu
      refine ⟨u, dst, ?_, ?_⟩
      · obtain ⟨r, hr, hkey⟩ := hex
        rw [strand_user hne hnone]
        exact List.ne_nil_of_mem (List.mem_filter.mpr ⟨hr, decide_eq_true hkey⟩)
      · rw [strand_user hne hnone, linkOf_oneUser _ hex]

end GroupLabel

/-! ## The aggregator -/

namespace GroupAggregator

variable {groupsOf : String → Finset String} {sizes : String → ℕ}

/-- With a current cache the labels are the intended ones. -/
theorem labelOf_group {agg : GroupAggregator} (hcache : CacheCurrent groupsOf sizes agg)
    {rows : List Row} (hrows : RowsFrom groupsOf rows) :
    agg.labelOf rows sizes .group =
      groupLabel groupsOf sizes agg.excluded agg.floor rows := by
  funext dst u
  unfold labelOf groupLabel chooseGroup
  dsimp only
  cases hget : agg.cache.get? (knownUsers rows dst) with
  | some chosen => rw [← hcache _ _ hget]
  | none => rw [← lcd_rowsFrom hrows]

theorem aggregate_eq_of_labelOf {agg agg' : GroupAggregator} {rows : List Row}
    {groupBy : GroupBy}
    (h : agg.labelOf rows sizes groupBy = agg'.labelOf rows sizes groupBy) :
    (agg.aggregate rows sizes groupBy).1 = (agg'.aggregate rows sizes groupBy).1 := by
  simp only [aggregate, aggregateRows_links, h]

theorem cacheCurrent_empty (groupsOf : String → Finset String) (sizes : String → ℕ)
    {agg : GroupAggregator} (h : agg.cache = .empty) : CacheCurrent groupsOf sizes agg := by
  intro k d hk
  simp [h] at hk

theorem mem_aggregate_group_iff {agg : GroupAggregator}
    (hcache : CacheCurrent groupsOf sizes agg) {rows : List Row} (hrows : RowsFrom groupsOf rows)
    (hword : ∀ r ∈ rows, r.userUpn ≠ unknownUser → unknownUser ∉ r.groups) (link : Link) :
    link ∈ (agg.aggregate rows sizes .group).1 ↔
      GroupLink groupsOf sizes agg.excluded agg.floor rows link := by
  rw [mem_aggregate_iff, labelOf_group hcache hrows]
  exact strand_iff_groupLink hrows hword link

/-- A first call does not change what a second one returns. -/
theorem aggregate_after {agg : GroupAggregator} (hcache : CacheCurrent groupsOf sizes agg)
    {rows : List Row} (hrows : RowsFrom groupsOf rows) {rows' : List Row}
    (hrows' : RowsFrom groupsOf rows') :
    ((agg.aggregate rows sizes .group).2.aggregate rows' sizes .group).1 =
      (agg.aggregate rows' sizes .group).1 := by
  have hcurrent := (aggregateRows_current hcache hrows).1
  have hd := aggregateRows_decided agg rows sizes
  apply aggregate_eq_of_labelOf
  rw [aggregate, labelOf_group hcurrent hrows', labelOf_group hcache hrows', hd.excluded_eq,
    hd.floor_eq]

/-- Group mode from an empty cache: the specified links, once each, for any order of
the rows, and without an effect on later calls. -/
theorem aggregate_group_links (groupsOf : String → Finset String) (sizes : String → ℕ)
    (agg : GroupAggregator) (hempty : agg.cache = .empty) (rows : List Row)
    (hrows : RowsFrom groupsOf rows)
    (hword : ∀ r ∈ rows, r.userUpn ≠ unknownUser → unknownUser ∉ r.groups) :
    (∀ link, link ∈ (agg.aggregate rows sizes .group).1 ↔
      GroupLink groupsOf sizes agg.excluded agg.floor rows link) ∧
    ((agg.aggregate rows sizes .group).1.map fun l => (l.src, l.dst)).Nodup ∧
    (∀ rows', rows.Perm rows' → ∀ link,
      link ∈ (agg.aggregate rows' sizes .group).1 ↔ link ∈ (agg.aggregate rows sizes .group).1) ∧
    ∀ rows', RowsFrom groupsOf rows' →
      ((agg.aggregate rows sizes .group).2.aggregate rows' sizes .group).1 =
        (agg.aggregate rows' sizes .group).1 := by
  have hcache := cacheCurrent_empty groupsOf sizes hempty
  have hspec := mem_aggregate_group_iff hcache hrows hword
  refine ⟨hspec, aggregate_ends_nodup agg rows sizes .group, fun rows' hperm link => ?_,
    fun rows' hrows' => aggregate_after hcache hrows hrows'⟩
  have hrows' : RowsFrom groupsOf rows' := fun r hr => hrows r (hperm.mem_iff.mpr hr)
  have hword' : ∀ r ∈ rows', r.userUpn ≠ unknownUser → unknownUser ∉ r.groups :=
    fun r hr => hword r (hperm.mem_iff.mpr hr)
  rw [hspec, mem_aggregate_group_iff hcache hrows' hword']
  exact ⟨GroupLink.perm hperm.symm, GroupLink.perm hperm⟩

/-- Two colleagues and a stranger on one destination. -/
def mixedRows : List Row :=
  [⟨"alice@corp", {"staff"}, "app:mail", "10.0.0.1", 10, 1⟩,
    ⟨"unknown", ∅, "app:mail", "10.0.0.9", 5, 1⟩,
    ⟨"bob@corp", {"staff"}, "app:mail", "10.0.0.2", 20, 2⟩]

lemma rowsFrom_mixedRows : RowsFrom (fun _ => {"staff"}) mixedRows := by
  intro r hr hne
  simp only [mixedRows, List.mem_cons, List.not_mem_nil, or_false] at hr
  rcases hr with rfl | rfl | rfl
  · rfl
  · exact absurd rfl hne
  · rfl

theorem aggregate_group_links_mixed : RowsFrom (fun _ => {"staff"}) mixedRows ∧ ∀ link,
    link ∈ ((⟨∅, 500, .empty⟩ : GroupAggregator).aggregate mixedRows (fun _ => 2) .group).1 ↔
      GroupLink (fun _ => {"staff"}) (fun _ => 2) ∅ 500 mixedRows link := by
  refine ⟨rowsFrom_mixedRows, ?_⟩
  refine (aggregate_group_links _ _ _ rfl _ rowsFrom_mixedRows fun r hr hne => ?_).1
  rw [rowsFrom_mixedRows r hr hne]
  simp [unknownUser]

end GroupAggregator
end FlowDiscovery
