import FlowDiscovery.StrandSums

/-!
# Source-address mode

Labels are kept per user and applied to all rows of that user at a destination,
the last address seen wins. Traffic is attributed to the address that sent it
exactly when no known user reaches one destination from two addresses.
-/
namespace FlowDiscovery

/-- Address of the last row of a user at a destination. -/
def lastAddress (rows : List Row) (dst u : String) : String :=
  (((rows.filter fun r => r.dst = dst).filter fun r => r.userUpn = u).getLast?.map
    Row.srcIp).getD u

theorem srcIpLabels_getD (rows : List Row) {u : String} (hu : u ≠ unknownUser) :
    (GroupAggregator.srcIpLabels rows).getD u u =
      ((rows.filter fun r => r.userUpn = u).getLast?.map Row.srcIp).getD u := by
  induction rows using List.reverseRecOn with
  | nil => rfl
  | append_singleton rows r ih =>
    rw [GroupAggregator.srcIpLabels, List.foldl_append, List.foldl_cons, List.foldl_nil,
      List.filter_append]
    by_cases hr : r.userUpn = u
    · rw [if_neg (hr ▸ hu), Dict.getD_set, if_pos hr]
      simp [hr]
    · have hnil : ([r].filter fun r => r.userUpn = u) = [] := by simp [hr]
      rw [hnil, List.append_nil, ← ih]
      split_ifs
      · rfl
      · rw [Dict.getD_set, if_neg hr]
        rfl

namespace GroupAggregator

theorem labelOf_srcIp (agg : GroupAggregator) (rows : List Row) (sizes : String → ℕ)
    (dst : String) {u : String} (hu : u ≠ unknownUser) :
    agg.labelOf rows sizes .srcIp dst u = lastAddress rows dst u :=
  srcIpLabels_getD _ hu

end GroupAggregator

/-- The row label of this mode. -/
def addressSource (rows : List Row) (r : Row) : String :=
  if r.userUpn = unknownUser then unknownUser else lastAddress rows r.dst r.userUpn

theorem sourceOf_srcIp (agg : GroupAggregator) (rows : List Row) (sizes : String → ℕ) :
    sourceOf (agg.labelOf rows sizes .srcIp) = addressSource rows := by
  funext r
  unfold sourceOf addressSource
  split_ifs with hu
  · rfl
  · exact agg.labelOf_srcIp rows sizes r.dst hu

theorem lastAddress_append (rows : List Row) (r : Row) :
    lastAddress (rows ++ [r]) r.dst r.userUpn = r.srcIp := by
  simp [lastAddress]

/-- Moving a row of one user leaves the addresses of the others. -/
theorem lastAddress_moved (before after : List Row) (r : Row) (dst : String) {u : String}
    (hu : u ≠ r.userUpn) :
    lastAddress (before ++ after ++ [r]) dst u = lastAddress (before ++ r :: after) dst u := by
  have hr : ¬ r.userUpn = u := fun he => hu he.symm
  have hmoved : ((before ++ after ++ [r]).filter fun r => r.dst = dst).filter
      (fun r => r.userUpn = u) =
      ((before ++ r :: after).filter fun r => r.dst = dst).filter fun r => r.userUpn = u := by
    simp [hr]
  rw [lastAddress, hmoved, lastAddress]

/-! ## The law and its condition -/

/-- Rows that known users sent from an address to a destination. -/
def sentFrom (rows : List Row) (src dst : String) : List Row :=
  rows.filter fun r => r.userUpn ≠ unknownUser ∧ r.srcIp = src ∧ r.dst = dst

/-- Links stand for the traffic of their address, and reordered rows give the same
links. `unknown` is the label of the other strand and no address. -/
structure AttributesToSender (agg : GroupAggregator) (sizes : String → ℕ) (rows : List Row) :
    Prop where
  exists_iff : ∀ src dst, src ≠ unknownUser →
    ((∃ link ∈ (agg.aggregate rows sizes .srcIp).1, link.src = src ∧ link.dst = dst) ↔
      ∃ r ∈ rows, r.userUpn ≠ unknownUser ∧ r.srcIp = src ∧ r.dst = dst)
  sums : ∀ link ∈ (agg.aggregate rows sizes .srcIp).1, link.src ≠ unknownUser →
    link.bytes = rowTotal .bytes (sentFrom rows link.src link.dst) ∧
      link.flows = rowTotal .flows (sentFrom rows link.src link.dst)
  reordered : ∀ rows', rows.Perm rows' → ∀ link,
    link ∈ (agg.aggregate rows' sizes .srcIp).1 ↔ link ∈ (agg.aggregate rows sizes .srcIp).1

/-- No known user reaches one destination from two addresses. -/
def OneAddress (rows : List Row) : Prop :=
  ∀ r ∈ rows, ∀ r' ∈ rows, r.userUpn ≠ unknownUser → r'.userUpn = r.userUpn →
    r'.dst = r.dst → r'.srcIp = r.srcIp

/-! ## One address is enough -/

/-- The row label when every row may be labelled on its own. -/
def ownSource (r : Row) : String := if r.userUpn = unknownUser then unknownUser else r.srcIp

theorem OneAddress.lastAddress {rows : List Row} (h : OneAddress rows) {r : Row} (hr : r ∈ rows)
    (hu : r.userUpn ≠ unknownUser) : lastAddress rows r.dst r.userUpn = r.srcIp := by
  have hmem : r ∈ (rows.filter fun x => x.dst = r.dst).filter fun x => x.userUpn = r.userUpn := by
    simp [hr]
  obtain ⟨r', hr'⟩ := Option.isSome_iff_exists.mp
    (List.getLast?_isSome.mpr (List.ne_nil_of_mem hmem))
  have hlast := List.mem_of_getLast? hr'
  simp only [List.mem_filter, decide_eq_true_eq] at hlast
  rw [FlowDiscovery.lastAddress, hr']
  exact h r hr r' hlast.1.1 hu hlast.2 hlast.1.2

theorem OneAddress.strand_eq {rows : List Row} (h : OneAddress rows) (src dst : String) :
    strand (addressSource rows) rows src dst = strand ownSource rows src dst := by
  refine strand_congr (fun r hr => ?_) src dst
  unfold addressSource ownSource
  split_ifs with hu
  · rfl
  · exact h.lastAddress hr hu

theorem strand_ownSource (rows : List Row) {src : String} (hsrc : src ≠ unknownUser)
    (dst : String) : strand ownSource rows src dst = sentFrom rows src dst := by
  refine List.filter_congr fun r _ => ?_
  by_cases hu : r.userUpn = unknownUser
  · simp [ownSource, hu, hsrc.symm]
  · simp [ownSource, hu]

theorem OneAddress.perm {rows rows' : List Row} (hperm : rows.Perm rows') (h : OneAddress rows) :
    OneAddress rows' :=
  fun r hr r' hr' => h r (hperm.mem_iff.mpr hr) r' (hperm.mem_iff.mpr hr')

theorem OneAddress.mem_aggregate_iff {rows : List Row} (h : OneAddress rows)
    (agg : GroupAggregator) (sizes : String → ℕ) (link : Link) :
    link ∈ (agg.aggregate rows sizes .srcIp).1 ↔
      ∃ src dst, strand ownSource rows src dst ≠ [] ∧
        link = linkOf src dst (strand ownSource rows src dst) := by
  simp only [GroupAggregator.mem_aggregate_iff, sourceOf_srcIp, h.strand_eq]

theorem OneAddress.attributes {rows : List Row} (h : OneAddress rows) (agg : GroupAggregator)
    (sizes : String → ℕ) : AttributesToSender agg sizes rows := by
  refine ⟨fun src dst hsrc => ?_, fun link hlink hsrc => ?_, fun rows' hperm link => ?_⟩
  · constructor
    · rintro ⟨link, hlink, rfl, rfl⟩
      obtain ⟨src', dst', hne, rfl⟩ := (h.mem_aggregate_iff agg sizes link).mp hlink
      obtain ⟨r, hr⟩ := List.exists_mem_of_ne_nil _ hne
      have hsrc' : src' ≠ unknownUser := hsrc
      rw [strand_ownSource rows hsrc', sentFrom, List.mem_filter, decide_eq_true_eq] at hr
      exact ⟨r, hr⟩
    · rintro ⟨r, hr, hkey⟩
      refine ⟨_, (h.mem_aggregate_iff agg sizes _).mpr ⟨src, dst, ?_, rfl⟩, rfl, rfl⟩
      rw [strand_ownSource rows hsrc]
      exact List.ne_nil_of_mem (List.mem_filter.mpr ⟨hr, decide_eq_true hkey⟩)
  · obtain ⟨src', dst', _, rfl⟩ := (h.mem_aggregate_iff agg sizes link).mp hlink
    have hsrc' : src' ≠ unknownUser := hsrc
    rw [strand_ownSource rows hsrc']
    exact ⟨rfl, rfl⟩
  · rw [h.mem_aggregate_iff, (h.perm hperm).mem_aggregate_iff]
    exact (exists_strand_perm ownSource hperm link).symm

/-! ## One address is needed -/

/-- Every row can be the last one, without an effect on the other users' addresses. -/
theorem exists_moved {rows : List Row} {r : Row} (hr : r ∈ rows) :
    ∃ rows', rows.Perm rows' ∧ lastAddress rows' r.dst r.userUpn = r.srcIp ∧
      ∀ dst u, u ≠ r.userUpn → lastAddress rows' dst u = lastAddress rows dst u := by
  obtain ⟨before, after, rfl⟩ := List.append_of_mem hr
  refine ⟨before ++ after ++ [r], ?_, lastAddress_append _ r,
    fun dst u hu => lastAddress_moved before after r dst hu⟩
  rw [List.append_assoc]
  exact (List.perm_append_singleton r after).symm.append_left before

/-- Of two orders in which a user ends on different addresses, one counts the user on
the link of the first address and the other does not. -/
theorem usersOf_strand_moved {rows rows₁ rows₂ : List Row} {r : Row} (hr : r ∈ rows)
    (hu : r.userUpn ≠ unknownUser) (hperm₁ : rows.Perm rows₁) (hperm₂ : rows.Perm rows₂)
    (hlast₁ : lastAddress rows₁ r.dst r.userUpn = r.srcIp)
    (hlast₂ : lastAddress rows₂ r.dst r.userUpn ≠ r.srcIp)
    (hothers : ∀ dst u, u ≠ r.userUpn → lastAddress rows₁ dst u = lastAddress rows₂ dst u) :
    usersOf (strand (addressSource rows₁) rows₁ r.srcIp r.dst) =
        insert r.userUpn (usersOf (strand (addressSource rows₂) rows₂ r.srcIp r.dst)) ∧
      r.userUpn ∉ usersOf (strand (addressSource rows₂) rows₂ r.srcIp r.dst) := by
  have hsource : ∀ x : Row, x.userUpn ≠ r.userUpn →
      addressSource rows₁ x = addressSource rows₂ x := by
    intro x hx
    unfold addressSource
    split_ifs
    · rfl
    · exact hothers x.dst x.userUpn hx
  have hmem : ∀ x, x ∈ rows₁ ↔ x ∈ rows₂ := fun x => by rw [← hperm₁.mem_iff, hperm₂.mem_iff]
  constructor
  · ext u
    simp only [mem_usersOf, mem_strand, Finset.mem_insert]
    by_cases hur : u = r.userUpn
    · subst hur
      refine iff_of_true ⟨r, ⟨hperm₁.mem_iff.mp hr, ?_, rfl⟩, rfl⟩ (.inl rfl)
      rw [addressSource, if_neg hu, hlast₁]
    · simp only [hur, false_or]
      refine exists_congr fun x => and_congr_left fun hxu => ?_
      rw [hmem, hsource x (hxu ▸ hur)]
  · rw [mem_usersOf]
    rintro ⟨x, hx, hxu⟩
    obtain ⟨_, hsrc, hdst⟩ := mem_strand.mp hx
    rw [addressSource, if_neg (hxu ▸ hu), hxu, hdst] at hsrc
    exact hlast₂ hsrc

theorem oneAddress_of_attributes {agg : GroupAggregator} {sizes : String → ℕ} {rows : List Row}
    (h : AttributesToSender agg sizes rows) : OneAddress rows := by
  intro r hr r' hr' hu huser hdst
  by_contra hne
  obtain ⟨rows₁, hperm₁, hlast₁, hothers₁⟩ := exists_moved hr
  obtain ⟨rows₂, hperm₂, hlast₂, hothers₂⟩ := exists_moved hr'
  rw [hdst, huser] at hlast₂
  obtain ⟨hinsert, hnotmem⟩ := usersOf_strand_moved hr hu hperm₁ hperm₂ hlast₁
    (by rw [hlast₂]; exact hne) fun dst u hne' => by
      rw [hothers₁ dst u hne', hothers₂ dst u (huser ▸ hne')]
  have hstrand : strand (addressSource rows₁) rows₁ r.srcIp r.dst ≠ [] := by
    refine List.ne_nil_of_mem (mem_strand.mpr ⟨hperm₁.mem_iff.mp hr, ?_, rfl⟩)
    rw [addressSource, if_neg hu, hlast₁]
  have hlink : linkOf r.srcIp r.dst (strand (addressSource rows₁) rows₁ r.srcIp r.dst) ∈
      (agg.aggregate rows₂ sizes .srcIp).1 := by
    rw [h.reordered rows₂ hperm₂, ← h.reordered rows₁ hperm₁, GroupAggregator.mem_aggregate_iff,
      sourceOf_srcIp]
    exact ⟨r.srcIp, r.dst, hstrand, rfl⟩
  rw [GroupAggregator.mem_aggregate_iff, sourceOf_srcIp] at hlink
  obtain ⟨src, dst, _, hlink⟩ := hlink
  simp only [linkOf, Link.mk.injEq] at hlink
  obtain ⟨rfl, rfl, _, _, hcard⟩ := hlink
  rw [hinsert, Finset.card_insert_of_notMem hnotmem] at hcard
  omega

/-- Links attribute traffic to its sender, in any order of the rows, iff no known user
has two addresses at one destination. -/
theorem aggregate_srcIp_attributes_iff (agg : GroupAggregator) (sizes : String → ℕ)
    (rows : List Row) : AttributesToSender agg sizes rows ↔ OneAddress rows :=
  ⟨oneAddress_of_attributes, fun h => h.attributes agg sizes⟩

/-- One user, from a desk and from the VPN. -/
def roamingRows : List Row :=
  [⟨"alice@corp", ∅, "app:mail", "10.0.0.1", 10, 1⟩,
    ⟨"alice@corp", ∅, "app:mail", "10.8.0.1", 20, 1⟩]

/-- All traffic is put on the second address. -/
theorem roamingRows_misattributed :
    ¬ AttributesToSender ⟨∅, 500, .empty⟩ (fun _ => 0) roamingRows := by
  intro h
  have hlinks : ((⟨∅, 500, .empty⟩ : GroupAggregator).aggregate roamingRows (fun _ => 0) .srcIp).1 =
      [⟨"10.8.0.1", "app:mail", 30, 2, 1⟩] := by decide +kernel
  obtain ⟨link, hlink, hsrc, _⟩ := (h.exists_iff "10.0.0.1" "app:mail" (by decide)).mpr
    ⟨_, List.mem_cons_self, by decide, rfl, rfl⟩
  rw [hlinks, List.mem_singleton] at hlink
  rw [hlink] at hsrc
  exact absurd hsrc (by decide)

end FlowDiscovery
