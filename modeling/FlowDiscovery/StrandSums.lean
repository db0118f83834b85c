import FlowDiscovery.GroupDecisions
import Mathlib.Data.Multiset.Bind

/-!
# Strands of the aggregation

Whatever the mode and the cache, `aggregate` groups the rows by a source label
and a destination: a row of the unknown user is labelled `unknown`, any other row
with a label that is fixed for its user and destination. Every nonempty group of
rows is one link, with the sums over exactly its rows.
-/
namespace FlowDiscovery

/-! ## Rows folded into links -/

def usersOf (rows : List Row) : Finset String := (rows.map Row.userUpn).toFinset

/-- The rows of one source label and destination. -/
def strand (source : Row → String) (rows : List Row) (src dst : String) : List Row :=
  rows.filter fun r => source r = src ∧ r.dst = dst

/-- The link that stands for a list of rows. -/
def linkOf (src dst : String) (rows : List Row) : Link :=
  ⟨src, dst, rowTotal .bytes rows, rowTotal .flows rows, (usersOf rows).card⟩

/-- The same link while it is accumulated. -/
def gather (src dst : String) (rows : List Row) : LinkAcc :=
  ⟨src, dst, rowTotal .bytes rows, rowTotal .flows rows, usersOf rows⟩

/-- One `_accum` per row, under the label of the row. -/
def accumRows (source : Row → String) (rows : List Row)
    (links : Dict (String × String) LinkAcc) : Dict (String × String) LinkAcc :=
  rows.foldl (fun links r => accum links (source r) r.dst r) links

theorem mem_strand {source : Row → String} {rows : List Row} {src dst : String} {r : Row} :
    r ∈ strand source rows src dst ↔ r ∈ rows ∧ source r = src ∧ r.dst = dst := by
  simp [strand]

theorem mem_usersOf {rows : List Row} {u : String} :
    u ∈ usersOf rows ↔ ∃ r ∈ rows, r.userUpn = u := by
  simp [usersOf]

theorem rowTotal_perm (q : Quantity) {rows rows' : List Row} (h : rows.Perm rows') :
    rowTotal q rows = rowTotal q rows' := (h.map _).sum_eq

theorem usersOf_perm {rows rows' : List Row} (h : rows.Perm rows') :
    usersOf rows = usersOf rows' := List.toFinset_eq_of_perm _ _ (h.map _)

theorem linkOf_perm (src dst : String) {rows rows' : List Row} (h : rows.Perm rows') :
    linkOf src dst rows = linkOf src dst rows' := by
  simp only [linkOf, rowTotal_perm _ h, usersOf_perm h]

theorem strand_perm (source : Row → String) {rows rows' : List Row} (h : rows.Perm rows')
    (src dst : String) : (strand source rows src dst).Perm (strand source rows' src dst) :=
  h.filter _

theorem strand_congr {source source' : Row → String} {rows : List Row}
    (h : ∀ r ∈ rows, source r = source' r) (src dst : String) :
    strand source rows src dst = strand source' rows src dst :=
  List.filter_congr fun r hr => by rw [h r hr]

/-- A further row of the strand. -/
theorem gather_append (src dst : String) (rows : List Row) (r : Row) :
    gather src dst (rows ++ [r]) =
      ⟨src, dst, (gather src dst rows).bytes + r.bytes, (gather src dst rows).flows + r.flows,
        insert r.userUpn (gather src dst rows).users⟩ := by
  have husers : usersOf (rows ++ [r]) = insert r.userUpn (usersOf rows) := by
    ext u
    simp [usersOf, eq_comm (a := u)]
  simp [gather, rowTotal, husers, Row.amount]

theorem get?_accumRows (source : Row → String) (rows : List Row) (src dst : String) :
    (accumRows source rows .empty).get? (src, dst) =
      if strand source rows src dst = [] then none
      else some (gather src dst (strand source rows src dst)) := by
  induction rows using List.reverseRecOn with
  | nil => rfl
  | append_singleton rows r ih =>
    have hstep : accumRows source (rows ++ [r]) .empty =
        accum (accumRows source rows .empty) (source r) r.dst r := by
      simp [accumRows]
    rw [hstep, accum, Dict.get?_update]
    by_cases hkey : (source r, r.dst) = (src, dst)
    · obtain ⟨rfl, rfl⟩ := Prod.mk.inj hkey
      have hstrand : strand source (rows ++ [r]) (source r) r.dst =
          strand source rows (source r) r.dst ++ [r] := by simp [strand]
      have hvalue : (accumRows source rows .empty).getD (source r, r.dst)
          ⟨source r, r.dst, 0, 0, ∅⟩ =
          gather (source r) r.dst (strand source rows (source r) r.dst) := by
        rw [Dict.getD, ih]
        split_ifs with hnil
        · rw [hnil]
          rfl
        · rfl
      rw [if_pos rfl, hvalue, hstrand, gather_append, if_neg (List.append_ne_nil_of_right_ne_nil _
        (List.cons_ne_nil r []))]
      rfl
    · have hstrand : strand source (rows ++ [r]) src dst = strand source rows src dst := by
        rw [Prod.mk.injEq] at hkey
        simp [strand, hkey]
      rw [if_neg hkey, ih, hstrand]

/-- One link for every nonempty strand and no other. -/
theorem mem_finalized_accumRows (source : Row → String) (rows : List Row) (link : Link) :
    link ∈ ((accumRows source rows .empty).entries.map fun e => finalize e.2) ↔
      ∃ src dst, strand source rows src dst ≠ [] ∧
        link = linkOf src dst (strand source rows src dst) := by
  rw [List.mem_map]
  constructor
  · rintro ⟨⟨⟨src, dst⟩, acc⟩, he, rfl⟩
    have hget := ((accumRows source rows .empty).get?_eq_some_iff _ _).mpr he
    rw [get?_accumRows] at hget
    split_ifs at hget with hnil
    obtain rfl := Option.some.inj hget
    exact ⟨src, dst, hnil, rfl⟩
  · rintro ⟨src, dst, hne, rfl⟩
    have hget := get?_accumRows source rows src dst
    rw [if_neg hne] at hget
    exact ⟨_, ((accumRows source rows .empty).get?_eq_some_iff _ _).mp hget, rfl⟩

/-- The strands of reordered rows stand for the same links. -/
theorem exists_strand_perm (source : Row → String) {rows rows' : List Row}
    (h : rows.Perm rows') (link : Link) :
    (∃ src dst, strand source rows src dst ≠ [] ∧
      link = linkOf src dst (strand source rows src dst)) ↔
    ∃ src dst, strand source rows' src dst ≠ [] ∧
      link = linkOf src dst (strand source rows' src dst) := by
  refine exists₂_congr fun src dst => ?_
  have hstrand := strand_perm source h src dst
  rw [linkOf_perm src dst hstrand, ne_eq, ne_eq, ← List.length_eq_zero_iff,
    ← List.length_eq_zero_iff, hstrand.length_eq]

/-! ## The label of a row -/

/-- The order in which a destination accumulates its rows. -/
def DstSlot.arranged (slot : DstSlot) : List Row :=
  (slot.rows.filter fun r => r.userUpn = unknownUser) ++
    slot.rows.filter fun r => r.userUpn ≠ unknownUser

/-- The order in which a window accumulates its rows. -/
def arranged (rows : List Row) : List Row :=
  (collectSlots rows).entries.flatMap fun e => e.2.arranged

theorem DstSlot.arranged_perm (slot : DstSlot) : slot.arranged.Perm slot.rows := by
  have h := List.filter_append_perm (fun r : Row => decide (r.userUpn = unknownUser)) slot.rows
  simpa [DstSlot.arranged] using h

theorem arranged_perm (rows : List Row) : (arranged rows).Perm rows := by
  have hslots := GroupAggregator.slots_sum (fun r => ({r} : Multiset Row)) rows .empty
  have hsingle : ∀ l : List Row, (l.map fun r => ({r} : Multiset Row)).sum = (l : Multiset Row) :=
    fun l => by simpa using Multiset.sum_map_singleton (l : Multiset Row)
  simp only [hsingle, Dict.sumBy_empty, zero_add] at hslots
  apply Multiset.coe_eq_coe.mp
  calc ((arranged rows : List Row) : Multiset Row)
      = ((collectSlots rows).entries.map fun e => (e.2.arranged : Multiset Row)).sum := by
        rw [arranged, ← Multiset.coe_bind, Multiset.bind, Multiset.join, Multiset.map_coe,
          Multiset.sum_coe]
    _ = ((collectSlots rows).entries.map fun e => (e.2.rows : Multiset Row)).sum := by
        simp only [Multiset.coe_eq_coe.mpr (DstSlot.arranged_perm _)]
    _ = (rows : Multiset Row) := hslots

theorem mem_collectSlots {rows : List Row} {dst : String} {slot : DstSlot}
    (h : (dst, slot) ∈ (collectSlots rows).entries) :
    slot.rows = rows.filter fun r => r.dst = dst := by
  have hrows := collectSlots_rows rows dst
  rwa [Dict.getD, ((collectSlots rows).get?_eq_some_iff dst slot).mpr h, Option.getD_some] at hrows

/-- The unknown user keeps its own strand. -/
def sourceOf (label : String → String → String) (r : Row) : String :=
  if r.userUpn = unknownUser then unknownUser else label r.dst r.userUpn

namespace GroupAggregator

/-- The label of a known user at a destination, read off the rows and the cache
at the start of the call. -/
def labelOf (agg : GroupAggregator) (rows : List Row) (sizes : String → ℕ) (groupBy : GroupBy)
    (dst u : String) : String :=
  match groupBy with
  | .user => u
  | .srcIp => (srcIpLabels (rows.filter fun r => r.dst = dst)).getD u u
  | .group | .app =>
    ((agg.chooseGroup (collectUserGroups rows) sizes (knownUsers rows dst)).1).getD u

/-- Whatever one aggregator chooses the other would choose. -/
def SameChoices (ug : Dict String (Finset String)) (sizes : String → ℕ)
    (agg agg' : GroupAggregator) : Prop :=
  ∀ known, (agg'.chooseGroup ug sizes known).1 = (agg.chooseGroup ug sizes known).1

/-- Storing a decision changes no later one. -/
theorem chooseGroup_sameChoices (agg : GroupAggregator) (ug : Dict String (Finset String))
    (sizes : String → ℕ) (known : Finset String) :
    SameChoices ug sizes agg (agg.chooseGroup ug sizes known).2 := by
  intro known'
  cases hget : agg.cache.get? known with
  | some chosen => simp [chooseGroup, hget]
  | none =>
    by_cases hk : known = known'
    · subst hk
      simp [chooseGroup, hget]
    · cases hget' : agg.cache.get? known' <;> simp [chooseGroup, hget, hget', hk]

theorem aggregateDst_sameChoices (groupBy : GroupBy) (ug : Dict String (Finset String))
    (sizes : String → ℕ) (acc : Aggregation) (dst : String) (slot : DstSlot) :
    SameChoices ug sizes acc.aggregator
      (aggregateDst groupBy ug sizes acc dst slot).aggregator := by
  unfold aggregateDst
  dsimp only
  split_ifs with hknown
  · exact fun _ => rfl
  · cases groupBy with
    | user => exact fun _ => rfl
    | srcIp => exact fun _ => rfl
    | group => exact chooseGroup_sameChoices acc.aggregator ug sizes slot.known
    | app => exact chooseGroup_sameChoices acc.aggregator ug sizes slot.known

/-- Both strands of a destination as one fold over its rows. -/
theorem accumStrands_eq (links : Dict (String × String) LinkAcc) {dst : String} {slot : DstSlot}
    (hdst : ∀ r ∈ slot.rows, r.dst = dst) {labelHere : String → String}
    {label : String → String → String} (hlabel : ∀ u, labelHere u = label dst u) :
    accumKnown (accumUnknown links dst slot) dst slot labelHere =
      accumRows (sourceOf label) slot.arranged links := by
  have hunknown : accumUnknown links dst slot =
      accumRows (sourceOf label) (slot.rows.filter fun r => r.userUpn = unknownUser) links := by
    have hfold : (slot.rows.filter fun r => r.userUpn = unknownUser).foldl
        (fun links r => accum links unknownUser dst r) links =
        accumRows (sourceOf label) (slot.rows.filter fun r => r.userUpn = unknownUser) links := by
      refine List.foldl_ext _ _ _ fun links r hr => ?_
      obtain ⟨hr, hu⟩ := List.mem_filter.mp hr
      rw [sourceOf, if_pos (by simpa using hu), hdst r hr]
    rw [accumUnknown]
    split_ifs with hmem
    · exact hfold
    · have hnone : (slot.rows.filter fun r => r.userUpn = unknownUser) = [] := by
        apply List.filter_eq_nil_iff.mpr
        intro r hr hu
        rw [slot.users_eq, List.mem_toFinset] at hmem
        exact hmem (List.mem_map.mpr ⟨r, hr, by simpa using hu⟩)
      simp [hnone, accumRows]
  rw [hunknown, accumKnown, DstSlot.arranged, accumRows, accumRows, List.foldl_append]
  refine List.foldl_ext _ _ _ fun links r hr => ?_
  obtain ⟨hr, hu⟩ := List.mem_filter.mp hr
  rw [sourceOf, if_neg (by simpa using hu), hdst r hr, hlabel]

/-- One destination, with the choices of the aggregator at the start of the call. -/
theorem aggregateDst_links {agg : GroupAggregator} {rows : List Row} {sizes : String → ℕ}
    {groupBy : GroupBy} {acc : Aggregation} {dst : String} {slot : DstSlot}
    (hacc : SameChoices (collectUserGroups rows) sizes agg acc.aggregator)
    (hslot : (dst, slot) ∈ (collectSlots rows).entries) :
    (aggregateDst groupBy (collectUserGroups rows) sizes acc dst slot).links =
      accumRows (sourceOf (agg.labelOf rows sizes groupBy)) slot.arranged acc.links := by
  have hrows := mem_collectSlots hslot
  have hdst : ∀ r ∈ slot.rows, r.dst = dst := by
    intro r hr
    rw [hrows] at hr
    simpa using (List.mem_filter.mp hr).2
  unfold aggregateDst
  dsimp only
  split_ifs with hknown
  · -- no row of the destination is labelled, so any label serves
    have hstrands := accumStrands_eq acc.links hdst
      fun u => (rfl : agg.labelOf rows sizes groupBy dst u = _)
    rwa [accumKnown, slot.filter_known_eq_nil hknown, List.foldl_nil] at hstrands
  · cases groupBy with
    | user => exact accumStrands_eq acc.links hdst fun _ => rfl
    | srcIp =>
      dsimp only
      refine accumStrands_eq acc.links hdst fun u => ?_
      rw [hrows]
      rfl
    | group =>
      dsimp only
      refine accumStrands_eq acc.links hdst fun u => ?_
      rw [hacc, slot_known hslot]
      rfl
    | app =>
      dsimp only
      refine accumStrands_eq acc.links hdst fun u => ?_
      rw [hacc, slot_known hslot]
      rfl

/-- The whole call is one fold over the rows, each under its label. -/
theorem aggregateRows_links (agg : GroupAggregator) (rows : List Row) (sizes : String → ℕ)
    (groupBy : GroupBy) :
    (agg.aggregateRows rows sizes groupBy).links =
      accumRows (sourceOf (agg.labelOf rows sizes groupBy)) (arranged rows) .empty := by
  have hfold : ∀ (entries : List (String × DstSlot)) (acc : Aggregation),
      (∀ e ∈ entries, e ∈ (collectSlots rows).entries) →
      SameChoices (collectUserGroups rows) sizes agg acc.aggregator →
      (entries.foldl (fun acc e => aggregateDst groupBy (collectUserGroups rows) sizes acc e.1 e.2)
        acc).links = accumRows (sourceOf (agg.labelOf rows sizes groupBy))
          (entries.flatMap fun e => e.2.arranged) acc.links := by
    intro entries
    induction entries with
    | nil => exact fun _ _ _ => rfl
    | cons e rest ih =>
      intro acc hmem hacc
      have hnext := aggregateDst_sameChoices groupBy (collectUserGroups rows) sizes acc e.1 e.2
      rw [List.foldl_cons, ih _ (fun e' he' => hmem e' (List.mem_cons_of_mem e he'))
        (fun known => (hnext known).trans (hacc known)),
        aggregateDst_links hacc (hmem e List.mem_cons_self), List.flatMap_cons]
      simp only [accumRows, List.foldl_append]
  exact hfold _ ⟨.empty, agg, []⟩ (fun _ he => he) fun _ => rfl

/-- The links of a call: one for every nonempty strand, with the sums over it. -/
theorem mem_aggregate_iff (agg : GroupAggregator) (rows : List Row) (sizes : String → ℕ)
    (groupBy : GroupBy) (link : Link) :
    link ∈ (agg.aggregate rows sizes groupBy).1 ↔
      ∃ src dst, strand (sourceOf (agg.labelOf rows sizes groupBy)) rows src dst ≠ [] ∧
        link = linkOf src dst
          (strand (sourceOf (agg.labelOf rows sizes groupBy)) rows src dst) := by
  rw [aggregate, aggregateRows_links, mem_finalized_accumRows]
  exact exists_strand_perm _ (arranged_perm rows) link

/-- No two links have the same ends. -/
theorem aggregate_ends_nodup (agg : GroupAggregator) (rows : List Row) (sizes : String → ℕ)
    (groupBy : GroupBy) :
    ((agg.aggregate rows sizes groupBy).1.map fun l => (l.src, l.dst)).Nodup := by
  have hkeys : ((agg.aggregate rows sizes groupBy).1.map fun l => (l.src, l.dst)) =
      (agg.aggregateRows rows sizes groupBy).links.keys := by
    rw [aggregate, List.map_map, Dict.keys]
    refine List.map_congr_left fun e he => ?_
    obtain ⟨⟨src, dst⟩, acc⟩ := e
    have hget := ((agg.aggregateRows rows sizes groupBy).links.get?_eq_some_iff _ _).mpr he
    rw [aggregateRows_links, get?_accumRows] at hget
    split_ifs at hget with hnil
    obtain rfl := Option.some.inj hget
    rfl
  rw [hkeys]
  exact (agg.aggregateRows rows sizes groupBy).links.nodup

end GroupAggregator
end FlowDiscovery
