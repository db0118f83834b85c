import FlowDiscovery.Dict
import Mathlib.Algebra.BigOperators.Group.Finset.Basic
import Mathlib.Data.Finset.Max
import Mathlib.Data.Prod.Lex
import Mathlib.Data.String.Basic

/-!
# Largest-common-denominator aggregation

Rows of one window are bucketed per destination. Rows of the user `unknown` keep
their own strand; the others are labelled per user, per source address or, in
group mode, with the group chosen by `lcd` for the set of known users of the
destination. The decision is cached by that set of users alone.
-/
namespace FlowDiscovery

/-- Groups shared by all users and not excluded. -/
def commonGroups (users : Finset String) (groups : String → Finset String)
    (excluded : Finset String) : Finset String :=
  ((users.biUnion groups).filter fun g => ∀ u ∈ users, g ∈ groups u) \ excluded

/-- `min(candidates, key=lambda g: (group_size.get(g, 0), g))`. -/
def smallestGroup (candidates : Finset String) (groupSize : String → ℕ) : Option String :=
  match (candidates.image fun g => toLex (groupSize g, g)).min with
  | ⊤ => none
  | (p : ℕ ×ₗ String) => some (ofLex p).2

/-- `lcd`: the smallest non-excluded group containing all the users. A user
without an entry raises `KeyError`, which the function turns into `None`. -/
def lcd (users : Finset String) (userGroups : String → Option (Finset String))
    (groupSize : String → ℕ) (excluded : Finset String) (floor : ℤ) : Option String :=
  if users = ∅ then none
  else if ∃ u ∈ users, userGroups u = none then none
  else
    let candidates := commonGroups users (fun u => (userGroups u).getD ∅) excluded
    match smallestGroup candidates groupSize with
    | none => none
    | some chosen => if users.card = 1 ∧ floor < groupSize chosen then none else some chosen

/-- How the rows of a window are rolled up on the left-hand side. -/
inductive GroupBy where
  | group
  | user
  | srcIp
  | app
  deriving DecidableEq, Repr

/-- One enriched flow as the aggregator sees it. -/
structure Row where
  userUpn : String
  groups : Finset String
  dst : String
  srcIp : String
  bytes : ℤ
  flows : ℤ
  deriving DecidableEq

/-- A link during accumulation, with the live set of users. -/
structure LinkAcc where
  src : String
  dst : String
  bytes : ℤ
  flows : ℤ
  users : Finset String
  deriving DecidableEq

structure Link where
  src : String
  dst : String
  bytes : ℤ
  flows : ℤ
  users : ℕ
  deriving DecidableEq, Repr

def unknownUser : String := "unknown"

/-- `_accum`. -/
def accum (links : Dict (String × String) LinkAcc) (src dst : String) (row : Row) :
    Dict (String × String) LinkAcc :=
  links.update (src, dst) ⟨src, dst, 0, 0, ∅⟩ fun link =>
    { link with
      bytes := link.bytes + row.bytes
      flows := link.flows + row.flows
      users := insert row.userUpn link.users }

/-- `_finalize`. -/
def finalize (link : LinkAcc) : Link :=
  ⟨link.src, link.dst, link.bytes, link.flows, link.users.card⟩

/-- Users and rows of one destination, filled in step. -/
structure DstSlot where
  users : Finset String
  rows : List Row
  users_eq : users = (rows.map Row.userUpn).toFinset

namespace DstSlot

def empty : DstSlot := ⟨∅, [], rfl⟩

def add (slot : DstSlot) (r : Row) : DstSlot :=
  ⟨insert r.userUpn slot.users, slot.rows ++ [r], by
    rw [slot.users_eq]
    ext u
    simp⟩

/-- The users of the destination other than the unknown one. -/
def known (slot : DstSlot) : Finset String := slot.users.erase unknownUser

theorem mem_known (slot : DstSlot) (u : String) :
    u ∈ slot.known ↔ u ≠ unknownUser ∧ ∃ r ∈ slot.rows, r.userUpn = u := by
  rw [known, Finset.mem_erase, slot.users_eq, List.mem_toFinset, List.mem_map]

/-- Without known users a destination has rows of the unknown user only. -/
theorem filter_known_eq_nil (slot : DstSlot) (h : slot.known = ∅) :
    (slot.rows.filter fun r => r.userUpn ≠ unknownUser) = [] := by
  apply List.filter_eq_nil_iff.mpr
  intro r hr hne
  have hmem : r.userUpn ∈ slot.known :=
    (slot.mem_known r.userUpn).mpr ⟨by simpa using hne, r, hr, rfl⟩
  simp [h] at hmem

end DstSlot

def collectSlots (rows : List Row) : Dict String DstSlot :=
  rows.foldl (fun slots r => slots.update r.dst .empty fun slot => slot.add r) .empty

/-- Groups per user over the whole window; the last row of a user wins. -/
def collectUserGroups (rows : List Row) : Dict String (Finset String) :=
  rows.foldl (fun ug r => ug.set r.userUpn r.groups) .empty

/-- The roll-up chosen for the known users of one destination. -/
structure Decision where
  dst : String
  users : Finset String
  chosen : Option String
  deriving DecidableEq

structure GroupAggregator where
  excluded : Finset String
  floor : ℤ
  cache : Dict (Finset String) (Option String)
  deriving DecidableEq

namespace GroupAggregator

def clearCache (agg : GroupAggregator) : GroupAggregator := { agg with cache := .empty }

/-- Running result of `aggregate`: the links so far, the aggregator with its
cache, and the group decisions taken so far in group mode. -/
structure Aggregation where
  links : Dict (String × String) LinkAcc
  aggregator : GroupAggregator
  decisions : List Decision

/-- Cached decision for a set of users, computed and stored on a miss. -/
def chooseGroup (agg : GroupAggregator) (ug : Dict String (Finset String)) (groupSizes : String → ℕ)
    (known : Finset String) : Option String × GroupAggregator :=
  match agg.cache.get? known with
  | some chosen => (chosen, agg)
  | none =>
    let chosen := lcd known ug.get? groupSizes agg.excluded agg.floor
    (chosen, { agg with cache := agg.cache.set known chosen })

/-- Source address per known user in `src_ip` mode; the last row of a user wins. -/
def srcIpLabels (rows : List Row) : Dict String String :=
  rows.foldl (fun labels r =>
    if r.userUpn = unknownUser then labels else labels.set r.userUpn r.srcIp) .empty

/-- Rows of the unknown user go to the strand `unknown`. -/
def accumUnknown (links : Dict (String × String) LinkAcc) (dst : String) (slot : DstSlot) :
    Dict (String × String) LinkAcc :=
  if unknownUser ∈ slot.users then
    (slot.rows.filter fun r => r.userUpn = unknownUser).foldl
      (fun links r => accum links unknownUser dst r) links
  else links

/-- Rows of known users go to the strand of their label. -/
def accumKnown (links : Dict (String × String) LinkAcc) (dst : String) (slot : DstSlot)
    (label : String → String) : Dict (String × String) LinkAcc :=
  (slot.rows.filter fun r => r.userUpn ≠ unknownUser).foldl
    (fun links r => accum links (label r.userUpn) dst r) links

/-- Body of the loop over destinations. Every mode other than `user` and
`src_ip` takes the group branch. -/
def aggregateDst (groupBy : GroupBy) (ug : Dict String (Finset String)) (groupSizes : String → ℕ)
    (acc : Aggregation) (dst : String) (slot : DstSlot) : Aggregation :=
  let links := accumUnknown acc.links dst slot
  let known := slot.known
  if known = ∅ then { acc with links }
  else
    match groupBy with
    | .user => { acc with links := accumKnown links dst slot id }
    | .srcIp =>
      let labels := srcIpLabels slot.rows
      { acc with links := accumKnown links dst slot fun u => labels.getD u u }
    | .group | .app =>
      let (chosen, aggregator) := acc.aggregator.chooseGroup ug groupSizes known
      { links := accumKnown links dst slot fun u => chosen.getD u
        aggregator
        decisions := acc.decisions ++ [⟨dst, known, chosen⟩] }

/-- The aggregation before the conversion of links. -/
def aggregateRows (agg : GroupAggregator) (rows : List Row) (groupSizes : String → ℕ)
    (groupBy : GroupBy) : Aggregation :=
  let ug := collectUserGroups rows
  (collectSlots rows).entries.foldl
    (fun acc e => aggregateDst groupBy ug groupSizes acc e.1 e.2) ⟨.empty, agg, []⟩

/-- `aggregate`: the finished links and the aggregator with its updated cache. -/
def aggregate (agg : GroupAggregator) (rows : List Row) (groupSizes : String → ℕ)
    (groupBy : GroupBy) : List Link × GroupAggregator :=
  let result := agg.aggregateRows rows groupSizes groupBy
  (result.links.entries.map fun e => finalize e.2, result.aggregator)

end GroupAggregator

/-! ## Nothing is lost or counted twice -/

/-- The two additive quantities of a link. -/
inductive Quantity where
  | bytes
  | flows
  deriving DecidableEq, Repr

def Row.amount (q : Quantity) (r : Row) : ℤ :=
  match q with
  | .bytes => r.bytes
  | .flows => r.flows

def LinkAcc.amount (q : Quantity) (l : LinkAcc) : ℤ :=
  match q with
  | .bytes => l.bytes
  | .flows => l.flows

def Link.amount (q : Quantity) (l : Link) : ℤ :=
  match q with
  | .bytes => l.bytes
  | .flows => l.flows

@[simp] theorem finalize_amount (q : Quantity) (l : LinkAcc) :
    (finalize l).amount q = l.amount q := by cases q <;> rfl

/-- Total of a quantity over the links accumulated so far. -/
def linkTotal (q : Quantity) (links : Dict (String × String) LinkAcc) : ℤ :=
  links.sumBy fun _ l => l.amount q

def rowTotal (q : Quantity) (rows : List Row) : ℤ := (rows.map (Row.amount q)).sum

theorem linkTotal_accum (q : Quantity) (links : Dict (String × String) LinkAcc)
    (src dst : String) (r : Row) :
    linkTotal q (accum links src dst r) = linkTotal q links + r.amount q :=
  Dict.sumBy_update _ links _ _ _ _ (by cases q <;> rfl) fun l => by cases q <;> rfl

theorem linkTotal_foldl_accum (q : Quantity) (label : Row → String) (dst : String)
    (rows : List Row) (links : Dict (String × String) LinkAcc) :
    linkTotal q (rows.foldl (fun links r => accum links (label r) dst r) links) =
      linkTotal q links + rowTotal q rows := by
  induction rows generalizing links with
  | nil => simp [rowTotal]
  | cons r rest ih =>
    rw [List.foldl_cons, ih, linkTotal_accum]
    simp only [rowTotal, List.map_cons, List.sum_cons]
    omega

theorem rowTotal_filter (q : Quantity) (p : Row → Prop) [DecidablePred p] (rows : List Row) :
    rowTotal q (rows.filter fun r => p r) + rowTotal q (rows.filter fun r => ¬ p r) =
      rowTotal q rows := by
  induction rows with
  | nil => rfl
  | cons r rest ih =>
    by_cases h : p r <;> simp [h, rowTotal] at ih ⊢ <;> omega

namespace GroupAggregator

/-- The rows of a destination are split over the unknown strand and the labels
of the known users, whatever the labels are. -/
theorem linkTotal_strands (q : Quantity) (links : Dict (String × String) LinkAcc)
    (dst : String) (slot : DstSlot) (label : String → String) :
    linkTotal q (accumKnown (accumUnknown links dst slot) dst slot label) =
      linkTotal q links + rowTotal q slot.rows := by
  have hsplit := rowTotal_filter q (fun r => r.userUpn = unknownUser) slot.rows
  have hknown := linkTotal_foldl_accum q (fun r => label r.userUpn) dst
    (slot.rows.filter fun r => r.userUpn ≠ unknownUser) (accumUnknown links dst slot)
  have hunknown : linkTotal q (accumUnknown links dst slot) = linkTotal q links +
      rowTotal q (slot.rows.filter fun r => r.userUpn = unknownUser) := by
    unfold accumUnknown
    split_ifs with h
    · exact linkTotal_foldl_accum q (fun _ => unknownUser) dst _ links
    · have hnone : (slot.rows.filter fun r => r.userUpn = unknownUser) = [] := by
        apply List.filter_eq_nil_iff.mpr
        intro r hr he
        rw [slot.users_eq, List.mem_toFinset] at h
        exact h (List.mem_map.mpr ⟨r, hr, by simpa using he⟩)
      simp [hnone, rowTotal]
  rw [accumKnown, hknown, hunknown, ← hsplit]
  exact add_assoc _ _ _

theorem linkTotal_unknown_only (q : Quantity) (links : Dict (String × String) LinkAcc)
    (dst : String) (slot : DstSlot) (h : slot.known = ∅) :
    linkTotal q (accumUnknown links dst slot) = linkTotal q links + rowTotal q slot.rows := by
  have hstrands := linkTotal_strands q links dst slot id
  rwa [accumKnown, slot.filter_known_eq_nil h, List.foldl_nil] at hstrands

theorem linkTotal_aggregateDst (q : Quantity) (groupBy : GroupBy)
    (ug : Dict String (Finset String)) (groupSizes : String → ℕ) (acc : Aggregation)
    (dst : String) (slot : DstSlot) :
    linkTotal q (aggregateDst groupBy ug groupSizes acc dst slot).links =
      linkTotal q acc.links + rowTotal q slot.rows := by
  unfold aggregateDst
  dsimp only
  split_ifs with h
  · exact linkTotal_unknown_only q acc.links dst slot h
  · cases groupBy <;> exact linkTotal_strands q acc.links dst slot _

theorem linkTotal_foldl_aggregateDst (q : Quantity) (groupBy : GroupBy)
    (ug : Dict String (Finset String)) (groupSizes : String → ℕ)
    (entries : List (String × DstSlot)) (acc : Aggregation) :
    linkTotal q (entries.foldl
      (fun acc e => aggregateDst groupBy ug groupSizes acc e.1 e.2) acc).links =
      linkTotal q acc.links + (entries.map fun e => rowTotal q e.2.rows).sum := by
  induction entries generalizing acc with
  | nil => simp
  | cons e rest ih =>
    rw [List.foldl_cons, ih, linkTotal_aggregateDst, List.map_cons, List.sum_cons]
    omega

/-- The slots hold every row once: a sum over the rows is a sum over the slots. -/
theorem slots_sum {M : Type*} [AddCommMonoid M] (w : Row → M) (rows : List Row)
    (slots : Dict String DstSlot) :
    (rows.foldl (fun slots r => slots.update r.dst .empty fun slot => slot.add r) slots).sumBy
      (fun _ slot => (slot.rows.map w).sum) =
      slots.sumBy (fun _ slot => (slot.rows.map w).sum) + (rows.map w).sum := by
  induction rows generalizing slots with
  | nil => simp
  | cons r rest ih =>
    have hadd := Dict.sumBy_update (fun _ (slot : DstSlot) => (slot.rows.map w).sum) slots r.dst
      .empty (fun slot => slot.add r) (w r) rfl (fun slot => by simp [DstSlot.add])
    rw [List.foldl_cons, ih, hadd, List.map_cons, List.sum_cons, add_assoc]

theorem slots_total (q : Quantity) (rows : List Row) (slots : Dict String DstSlot) :
    (rows.foldl (fun slots r => slots.update r.dst .empty fun slot => slot.add r) slots).sumBy
      (fun _ slot => rowTotal q slot.rows) =
      slots.sumBy (fun _ slot => rowTotal q slot.rows) + rowTotal q rows :=
  slots_sum (Row.amount q) rows slots

/-- In every mode and with any cache the links carry exactly the rows' totals. -/
theorem aggregate_total (q : Quantity) (agg : GroupAggregator) (rows : List Row)
    (groupSizes : String → ℕ) (groupBy : GroupBy) :
    ((agg.aggregate rows groupSizes groupBy).1.map (Link.amount q)).sum = rowTotal q rows := by
  have hlinks := linkTotal_foldl_aggregateDst q groupBy (collectUserGroups rows) groupSizes
    (collectSlots rows).entries ⟨.empty, agg, []⟩
  have hslots := slots_total q rows .empty
  simp only [Dict.sumBy_empty, zero_add] at hslots
  have hstart : linkTotal q (.empty : Dict (String × String) LinkAcc) = 0 := rfl
  calc ((agg.aggregate rows groupSizes groupBy).1.map (Link.amount q)).sum
      = linkTotal q (agg.aggregateRows rows groupSizes groupBy).links := by
        simp [aggregate, linkTotal, Dict.sumBy, Function.comp_def]
    _ = ((collectSlots rows).entries.map fun e => rowTotal q e.2.rows).sum := by
        rw [aggregateRows, hlinks, hstart, zero_add]
    _ = rowTotal q rows := hslots

end GroupAggregator
end FlowDiscovery
