import FlowDiscovery.RawFlows
import FlowDiscovery.SankeyFanout

/-!
# The Sankey endpoint

`GET /api/flows/sankey` filters the links of a delta, keeps the largest ones and
prunes the nodes to those that the remaining links name. In live mode the delta is
the last published one, whose nodes name the ends of all its links. The historical
mode makes links out of aggregated rows but no nodes, so its answer is a graph
exactly when it is empty.

The parameters `category`, `proto`, `deny_only` and `group_by` are accepted and not
read.
-/
namespace FlowDiscovery.SankeyApi
open PyText PyTime PyIpaddress IdentityService RawFlows SankeyPublisher

/-! ## Filters -/

/-- The parameters that select links. -/
structure LinkFilter where
  srcCidr : Option String
  dstApp : Option String
  group : List String
  user : Option String
  excludeGroups : Option String

/-- A text parameter that is there and not empty. -/
def given (s : Option String) : Option String := orElse s none

/-- `{g for g in group if g}`. -/
def LinkFilter.groupSet (f : LinkFilter) : Finset String :=
  (f.group.filter fun g => g ≠ "").toFinset

/-- `{g.strip() for g in exclude_groups.split(",") if g.strip()}`. -/
def LinkFilter.excludeSet (f : LinkFilter) : Finset String :=
  match given f.excludeGroups with
  | none => ∅
  | some csv =>
    (((csv.toList.splitOn ',').map strip).filter fun g => g ≠ []).toFinset.image String.ofList

/-- The rejected requests: a CIDR that does not parse, a range without an end. -/
inductive HttpError where
  | invalidCidr
  | rangeRequired
  deriving DecidableEq, Repr

/-- `_in_net` on a link. -/
def inNet (net : Network) (link : Link) : Bool :=
  (ipAddress (SankeyFanout.sourceText link)).any fun ip => net.contains ip

/-- The first stage of `_filter_links`. -/
def filterSource (srcCidr : Option String) (links : List Link) : Except HttpError (List Link) :=
  match given srcCidr with
  | none => .ok links
  | some cidr =>
    match ipNetwork false cidr.toList with
    | none => .error .invalidCidr
    | some net => .ok (links.filter (inNet net))

def filterApp (dstApp : Option String) (links : List Link) : List Link :=
  match given dstApp with
  | none => links
  | some app => links.filter fun lk => lk.dst = "app:" ++ app

/-- An empty set is no filter. -/
def filterGroup (groups : Finset String) (links : List Link) : List Link :=
  if groups = ∅ then links
  else links.filter fun lk => lk.src ∈ groups ∨ lk.src = unknownUser

def filterUser (user : Option String) (links : List Link) : List Link :=
  match given user with
  | none => links
  | some upn => links.filter fun lk => lk.src = upn ∨ lk.src = unknownUser

def filterExcluded (groups : Finset String) (links : List Link) : List Link :=
  if groups = ∅ then links else links.filter fun lk => lk.src ∉ groups

/-- `_filter_links` on the links of a delta. -/
def filterLinks (f : LinkFilter) (links : List Link) : Except HttpError (List Link) :=
  (filterSource f.srcCidr links).map fun links =>
    filterExcluded f.excludeSet (filterUser f.user (filterGroup f.groupSet
      (filterApp f.dstApp links)))

/-! ## The endpoint -/

inductive Mode where
  | live
  | historical
  deriving DecidableEq, Repr

/-- The parameters of the request. `from` and `to` are taken with an offset, as instants:
a range with one of each kind raises when its length is computed. -/
structure SankeyQuery where
  mode : Mode
  limit : ℕ
  filter : LinkFilter
  fromTs : Option Instant
  toTs : Option Instant
  one_le_limit : 1 ≤ limit
  limit_le : limit ≤ 1000

/-- A row of the continuous aggregate `flows_1m`. -/
structure FlowMinute (Inet : Type) where
  bucket : Instant
  srcIp : Inet
  dstIp : Inet
  dstPort : ℤ
  proto : ℤ
  bytes : ℤ
  packets : ℤ
  flowCount : ℤ

/-- A row of the query over `flows_1m`. -/
structure FlowGroup (Inet : Type) where
  srcIp : Inet
  dstIp : Inet
  dstPort : ℤ
  proto : ℤ
  bytes : ℤ
  packets : ℤ
  flowCount : ℤ

/-- What the answer is made of before the filters. -/
structure SankeyBase where
  ts : Instant
  windowS : ℤ
  nodesLeft : List LeftNode
  nodesRight : List RightNode
  links : List Link
  lossy : Bool
  droppedCount : ℕ

structure SankeyResponse extends SankeyBase where
  truncated : Bool
  totalLinks : ℕ

section

variable {Inet : Type} [DecidableEq Inet]

def FlowMinute.key (r : FlowMinute Inet) : Inet × Inet × ℤ × ℤ :=
  (r.srcIp, r.dstIp, r.dstPort, r.proto)

/-- The sums per `(src_ip, dst_ip, dst_port, proto)` over the range. -/
def groupMinutes (table : List (FlowMinute Inet)) (fromTs toTs : Instant) :
    List (FlowGroup Inet) :=
  let rows := table.filter fun r => fromTs ≤ r.bucket ∧ r.bucket < toTs
  let sums : Dict (Inet × Inet × ℤ × ℤ) (ℤ × ℤ × ℤ) := rows.foldl (fun sums r =>
    sums.update r.key (0, 0, 0) fun (bytes, packets, flowCount) =>
      (bytes + r.bytes, packets + r.packets, flowCount + r.flowCount)) .empty
  sums.entries.map fun (key, sum) =>
    ⟨key.1, key.2.1, key.2.2.1, key.2.2.2, sum.1, sum.2.1, sum.2.2⟩

/-- The link of a row, labelled by the addresses themselves. -/
def FlowGroup.link (inet : InetType Inet) (r : FlowGroup Inet) : Link where
  src := "ip:" ++ String.ofList (inet.text r.srcIp)
  dst := "app:" ++ String.ofList (inet.text r.dstIp) ++ ":" ++ toString r.dstPort
  bytes := r.bytes
  flows := r.flowCount
  users := 0

/-- What the endpoint reads: the delta that the publisher put under `sankey.last`,
the clock, the aggregated rows and the order in which the database returns their
groups, and `int(td.total_seconds())` of a difference of instants. -/
structure Sources (Inet : Type) where
  stored : Option SankeyDelta
  published : ∀ d ∈ stored, ∃ aggregator groupIndex groupBy bucket flows,
    (publish aggregator groupIndex groupBy bucket flows).1 = some d
  now : Instant
  minutes : List (FlowMinute Inet)
  scan : ScanOrder (FlowGroup Inet)
  inet : InetType Inet
  totalSeconds : ℤ → ℤ

/-- The stored delta, or an empty one. -/
def liveBase (src : Sources Inet) : SankeyBase :=
  match src.stored with
  | some d => ⟨d.ts, d.windowS, d.nodesLeft, d.nodesRight, d.links, d.lossy, d.droppedCount⟩
  | none => ⟨src.now, 5, [], [], [], false, 0⟩

def historicalLinks (src : Sources Inet) (fromTs toTs : Instant) : List Link :=
  (src.scan.rows (groupMinutes src.minutes fromTs toTs)).map fun r => r.link src.inet

/-- Links of the range without nodes. -/
def historicalBase (src : Sources Inet) (fromTs toTs : Instant) : SankeyBase where
  ts := fromTs
  windowS := src.totalSeconds (toTs - fromTs)
  nodesLeft := []
  nodesRight := []
  links := historicalLinks src fromTs toTs
  lossy := false
  droppedCount := 0

def baseOf (src : Sources Inet) (q : SankeyQuery) : Except HttpError SankeyBase :=
  match q.mode with
  | .live => .ok (liveBase src)
  | .historical =>
    match q.fromTs, q.toTs with
    | some fromTs, some toTs => .ok (historicalBase src fromTs toTs)
    | _, _ => .error .rangeRequired

/-- `_truncate` on the links: the largest ones first, ties in the given order. -/
def topLinks (limit : ℕ) (links : List Link) : List Link :=
  (sortedBy (fun lk => OrderDual.toDual lk.bytes) links).take limit

/-- The filtered links cut to the limit, and the nodes they name. -/
def respond (limit : ℕ) (base : SankeyBase) (links : List Link) : SankeyResponse :=
  let ranked := topLinks limit links
  { base with
    nodesLeft := base.nodesLeft.filter fun n => n.id ∈ ranked.map Link.src
    nodesRight := base.nodesRight.filter fun n => n.id ∈ ranked.map Link.dst
    links := ranked
    truncated := limit < links.length
    totalLinks := links.length }

/-- `GET /api/flows/sankey`. -/
def sankey (src : Sources Inet) (q : SankeyQuery) : Except HttpError SankeyResponse := do
  let base ← baseOf src q
  let links ← filterLinks q.filter base.links
  return respond q.limit base links

end

/-! ## What a filter keeps -/

namespace LinkFilter

/-- The filter can be evaluated. -/
def Valid (f : LinkFilter) : Prop :=
  ∀ cidr ∈ given f.srcCidr, (ipNetwork false cidr.toList).isSome

instance (f : LinkFilter) : Decidable f.Valid :=
  inferInstanceAs (Decidable (∀ cidr ∈ given f.srcCidr, _))

/-- The part of the filter on addresses and applications. -/
def selects (f : LinkFilter) (link : Link) : Bool :=
  (given f.srcCidr).all (fun cidr =>
      (ipNetwork false cidr.toList).any fun net => inNet net link) &&
    (given f.dstApp).all (fun app => link.dst = "app:" ++ app)

/-- The part of the filter on the labels of the left column. -/
def allows (f : LinkFilter) (label : String) : Bool :=
  (f.groupSet = ∅ ∨ label ∈ f.groupSet ∨ label = unknownUser) &&
    (given f.user).all (fun upn => label = upn ∨ label = unknownUser) &&
    (f.excludeSet = ∅ ∨ label ∉ f.excludeSet)

end LinkFilter

lemma filterSource_of_valid {srcCidr : Option String} (links : List Link)
    (h : ∀ cidr ∈ given srcCidr, (ipNetwork false cidr.toList).isSome) :
    filterSource srcCidr links = .ok (links.filter fun link =>
      (given srcCidr).all fun cidr =>
        (ipNetwork false cidr.toList).any fun net => inNet net link) := by
  unfold filterSource
  cases hgiven : given srcCidr with
  | none => simp
  | some cidr =>
    obtain ⟨net, hnet⟩ := Option.isSome_iff_exists.mp (h cidr hgiven)
    simp [hnet]

lemma filterSource_of_invalid {srcCidr : Option String} (links : List Link)
    (h : ¬ ∀ cidr ∈ given srcCidr, (ipNetwork false cidr.toList).isSome) :
    filterSource srcCidr links = .error .invalidCidr := by
  unfold filterSource
  simp only [Option.mem_def, not_forall] at h
  obtain ⟨cidr, hgiven, hnone⟩ := h
  rw [Bool.not_eq_true, Option.isSome_eq_false_iff, Option.isNone_iff_eq_none] at hnone
  simp [hgiven, hnone]

lemma filterApp_eq (dstApp : Option String) (links : List Link) :
    filterApp dstApp links =
      links.filter fun lk => (given dstApp).all fun app => lk.dst = "app:" ++ app := by
  unfold filterApp
  cases given dstApp <;> simp

lemma filterGroup_eq (groups : Finset String) (links : List Link) :
    filterGroup groups links =
      links.filter fun lk => groups = ∅ ∨ lk.src ∈ groups ∨ lk.src = unknownUser := by
  unfold filterGroup
  by_cases h : groups = ∅ <;> simp [h]

lemma filterUser_eq (user : Option String) (links : List Link) :
    filterUser user links =
      links.filter fun lk => (given user).all fun upn => lk.src = upn ∨ lk.src = unknownUser := by
  unfold filterUser
  cases given user <;> simp

lemma filterExcluded_eq (groups : Finset String) (links : List Link) :
    filterExcluded groups links = links.filter fun lk => groups = ∅ ∨ lk.src ∉ groups := by
  unfold filterExcluded
  by_cases h : groups = ∅ <;> simp [h]

/-- The stages together keep the links that both parts of the filter select. -/
theorem filterLinks_of_valid {f : LinkFilter} (h : f.Valid) (links : List Link) :
    filterLinks f links = .ok (links.filter fun lk => f.selects lk && f.allows lk.src) := by
  rw [filterLinks, filterSource_of_valid links h, Except.map, filterApp_eq, filterGroup_eq,
    filterUser_eq, filterExcluded_eq]
  simp only [List.filter_filter]
  congr 1
  refine List.filter_congr fun lk _ => ?_
  simp only [LinkFilter.selects, LinkFilter.allows]
  ac_rfl

theorem filterLinks_of_not_valid {f : LinkFilter} (h : ¬ f.Valid) (links : List Link) :
    filterLinks f links = .error .invalidCidr := by
  rw [filterLinks, filterSource_of_invalid links h, Except.map]

/-! ## Closed graphs -/

/-- Both ends of every link are nodes. -/
structure Linked (left : List LeftNode) (right : List RightNode) (links : List Link) : Prop where
  src : ∀ lk ∈ links, ∃ n ∈ left, n.id = lk.src
  dst : ∀ lk ∈ links, ∃ n ∈ right, n.id = lk.dst

/-- Both ends of every link are nodes, and every node is an end of a link. -/
structure Closed (r : SankeyResponse) : Prop where
  linked : Linked r.nodesLeft r.nodesRight r.links
  left : ∀ n ∈ r.nodesLeft, ∃ lk ∈ r.links, lk.src = n.id
  right : ∀ n ∈ r.nodesRight, ∃ lk ∈ r.links, lk.dst = n.id

lemma mem_of_mem_topLinks {limit : ℕ} {links : List Link} {lk : Link}
    (h : lk ∈ topLinks limit links) : lk ∈ links :=
  (mem_sortedBy _ _ _).mp (List.mem_of_mem_take h)

lemma topLinks_eq_nil_iff {limit : ℕ} (hlimit : 1 ≤ limit) (links : List Link) :
    topLinks limit links = [] ↔ links = [] := by
  rw [topLinks, List.take_eq_nil_iff, ← List.head?_eq_none_iff, head?_sortedBy_eq_none_iff]
  constructor
  · rintro (h | h)
    · omega
    · exact h
  · exact Or.inr

/-- The pruned answer is closed where the nodes cover the links it was made from. -/
lemma closed_respond {base : SankeyBase} (limit : ℕ) {links : List Link}
    (h : Linked base.nodesLeft base.nodesRight links) : Closed (respond limit base links) where
  linked :=
    { src := fun lk hlk => by
        obtain ⟨n, hn, hid⟩ := h.src lk (mem_of_mem_topLinks hlk)
        refine ⟨n, List.mem_filter.mpr ⟨hn, ?_⟩, hid⟩
        exact decide_eq_true (List.mem_map.mpr ⟨lk, hlk, hid.symm⟩)
      dst := fun lk hlk => by
        obtain ⟨n, hn, hid⟩ := h.dst lk (mem_of_mem_topLinks hlk)
        refine ⟨n, List.mem_filter.mpr ⟨hn, ?_⟩, hid⟩
        exact decide_eq_true (List.mem_map.mpr ⟨lk, hlk, hid.symm⟩) }
  left n hn := List.mem_map.mp (of_decide_eq_true (List.mem_filter.mp hn).2)
  right n hn := List.mem_map.mp (of_decide_eq_true (List.mem_filter.mp hn).2)

lemma Linked.filter {left : List LeftNode} {right : List RightNode} {links : List Link}
    (h : Linked left right links) (p : Link → Bool) : Linked left right (links.filter p) where
  src lk hlk := h.src lk (List.mem_filter.mp hlk).1
  dst lk hlk := h.dst lk (List.mem_filter.mp hlk).1

/-! ### Published deltas -/

lemma exists_legacyLeftNode {flows : List LabelledFlow} {f : LabelledFlow} (hf : f ∈ flows) :
    ∃ n ∈ (legacyLeftNodes flows).entries.map Prod.snd, n.id = leftId f := by
  unfold legacyLeftNodes
  apply Dict.exists_value_foldl_update (P := fun k (n : LeftNode) => n.id = k) leftId
  · exact fun f => rfl
  · exact fun f n h => h
  · exact hf

lemma exists_legacyRightNode {flows : List LabelledFlow} {f : LabelledFlow} (hf : f ∈ flows) :
    ∃ n ∈ (legacyRightNodes flows).entries.map Prod.snd, n.id = rightId f := by
  unfold legacyRightNodes
  apply Dict.exists_value_foldl_update (P := fun k (n : RightNode) => n.id = k) rightId
  · exact fun f => rfl
  · exact fun f n h => h
  · exact hf

/-- Every link goes from the source to the application of some flow. -/
lemma exists_flow_of_legacyLink {flows : List LabelledFlow} {lk : Link}
    (h : lk ∈ (legacyLinks flows).entries.map Prod.snd) :
    ∃ f ∈ flows, leftId f = lk.src ∧ rightId f = lk.dst := by
  have hends : ∀ e ∈ (legacyLinks flows).entries, e.2.src = e.1.1 ∧ e.2.dst = e.1.2 := by
    unfold legacyLinks
    apply Dict.forall_entries_foldl_update
      (P := fun (k : String × String) (l : Link) => l.src = k.1 ∧ l.dst = k.2)
    · exact fun f => ⟨rfl, rfl⟩
    · exact fun f l h => h
    · simp
  obtain ⟨e, he, rfl⟩ := List.mem_map.mp h
  have hkey : e.1 ∈ (legacyLinks flows).keys := List.mem_map.mpr ⟨e, he, rfl⟩
  rw [legacyLinks, Dict.mem_keys_foldl_update] at hkey
  obtain ⟨f, hf, heq⟩ := hkey.resolve_left (by simp [Dict.keys])
  obtain ⟨hsrc, hdst⟩ := hends e he
  rw [← heq] at hsrc hdst
  exact ⟨f, hf, hsrc.symm, hdst.symm⟩

lemma linked_legacy (bucket : Instant) (flows : List LabelledFlow) :
    Linked (buildLegacyDelta bucket flows).nodesLeft (buildLegacyDelta bucket flows).nodesRight
      (buildLegacyDelta bucket flows).links where
  src lk hlk := by
    obtain ⟨f, hf, hsrc, _⟩ := exists_flow_of_legacyLink hlk
    exact hsrc ▸ exists_legacyLeftNode hf
  dst lk hlk := by
    obtain ⟨f, hf, _, hdst⟩ := exists_flow_of_legacyLink hlk
    exact hdst ▸ exists_legacyRightNode hf

/-- Every strand ends in one of the destinations. -/
def EndsIn (dsts : List String) (links : Dict (String × String) LinkAcc) : Prop :=
  ∀ e ∈ links.entries, e.2.dst ∈ dsts

lemma EndsIn.foldl_accum {dsts : List String} {dst : String} (hdst : dst ∈ dsts)
    (label : Row → String) (rows : List Row) {links : Dict (String × String) LinkAcc}
    (h : EndsIn dsts links) :
    EndsIn dsts (rows.foldl (fun links r => accum links (label r) dst r) links) := by
  induction rows generalizing links with
  | nil => exact h
  | cons r rest ih =>
    apply ih
    exact Dict.forall_entries_update (P := fun _ (l : LinkAcc) => l.dst ∈ dsts) h hdst
      fun _ hl => hl

lemma EndsIn.aggregateDst {dsts : List String} {dst : String} (hdst : dst ∈ dsts)
    (groupBy : GroupBy) (ug : Dict String (Finset String)) (groupSizes : String → ℕ)
    {acc : GroupAggregator.Aggregation} (h : EndsIn dsts acc.links) (slot : DstSlot) :
    EndsIn dsts (GroupAggregator.aggregateDst groupBy ug groupSizes acc dst slot).links := by
  have hunknown : EndsIn dsts (GroupAggregator.accumUnknown acc.links dst slot) := by
    unfold GroupAggregator.accumUnknown
    split_ifs
    · exact h.foldl_accum hdst (fun _ => unknownUser) _
    · exact h
  have hknown : ∀ label : String → String, EndsIn dsts (GroupAggregator.accumKnown
      (GroupAggregator.accumUnknown acc.links dst slot) dst slot label) := fun label =>
    hunknown.foldl_accum hdst (fun r => label r.userUpn) _
  unfold GroupAggregator.aggregateDst
  dsimp only
  split_ifs
  · exact hunknown
  · cases groupBy with
    | user => exact hknown _
    | srcIp => exact hknown _
    | group => exact hknown _
    | app => exact hknown _

/-- Every link of an aggregation ends in a destination of its rows. -/
lemma aggregate_dst (agg : GroupAggregator) (rows : List Row) (groupSizes : String → ℕ)
    (groupBy : GroupBy) :
    ∀ lk ∈ (agg.aggregate rows groupSizes groupBy).1, lk.dst ∈ rows.map Row.dst := by
  have hslots : ∀ e ∈ (collectSlots rows).entries, e.1 ∈ rows.map Row.dst := by
    intro e he
    have hkey : e.1 ∈ (collectSlots rows).keys := List.mem_map.mpr ⟨e, he, rfl⟩
    rw [collectSlots, Dict.mem_keys_foldl_update] at hkey
    obtain ⟨r, hr, hdst⟩ := hkey.resolve_left (by simp [Dict.keys])
    exact List.mem_map.mpr ⟨r, hr, hdst⟩
  have hfold : ∀ (slots : List (String × DstSlot)) (acc : GroupAggregator.Aggregation),
      (∀ e ∈ slots, e.1 ∈ rows.map Row.dst) → EndsIn (rows.map Row.dst) acc.links →
      EndsIn (rows.map Row.dst) (slots.foldl (fun acc e => GroupAggregator.aggregateDst groupBy
        (collectUserGroups rows) groupSizes acc e.1 e.2) acc).links := by
    intro slots
    induction slots with
    | nil => exact fun _ _ h => h
    | cons e rest ih =>
      intro acc hdsts h
      refine ih _ (fun e' he' => hdsts e' (List.mem_cons_of_mem e he')) ?_
      exact h.aggregateDst (hdsts e List.mem_cons_self) groupBy _ groupSizes e.2
  have hlinks := hfold (collectSlots rows).entries ⟨.empty, agg, []⟩ hslots (by simp [EndsIn])
  intro lk hlk
  obtain ⟨e, he, rfl⟩ := List.mem_map.mp hlk
  exact hlinks e he

lemma exists_rightNode {flows : List LabelledFlow} {links : List Link} {lk : Link}
    (hlk : lk ∈ links) (hdst : lk.dst ∈ flows.map rightId) :
    ∃ n ∈ buildRightNodes flows links, n.id = lk.dst := by
  obtain ⟨f, hf, hid⟩ := List.mem_map.mp hdst
  have hkey : lk.dst ∈ (rightLabels flows).keys := by
    refine (Dict.mem_keys_foldl_update rightId _ _ flows .empty _).mpr ?_
    exact .inr ⟨f, hf, hid⟩
  obtain ⟨label, hlabel⟩ := Option.isSome_iff_exists.mp (((rightLabels flows).get?_isSome_iff _).mpr hkey)
  refine ⟨⟨lk.dst, label.1, label.2⟩, List.mem_filterMap.mpr ⟨lk.dst, ?_, ?_⟩, rfl⟩
  · rw [List.mem_insertionSort, List.mem_dedup]
    exact List.mem_map.mpr ⟨lk, hlk, rfl⟩
  · rw [hlabel, Option.map_some]

lemma exists_leftNode (groupIndex : Option GroupIndex) (groupBy : GroupBy) {links : List Link}
    {lk : Link} (hlk : lk ∈ links) :
    ∃ n ∈ buildLeftNodes groupIndex groupBy links, n.id = lk.src := by
  have hseen (size : String → ℕ) :
      ∃ n ∈ ((links.foldl (fun (seen : Dict String LeftNode) link =>
        seen.setdefault link.src ⟨link.src, link.src, size link.src⟩) .empty).entries.map Prod.snd),
        n.id = lk.src := by
    apply Dict.exists_value_foldl_update (P := fun k (n : LeftNode) => n.id = k) Link.src
    · exact fun link => rfl
    · exact fun link n h => h
    · exact hlk
  cases groupIndex with
  | none => exact hseen fun _ => 0
  | some gi => exact hseen fun src => if groupBy = .group ∧ src ≠ unknownUser then gi.sizeOf src else 0

lemma linked_group (agg : GroupAggregator) (groupIndex : Option GroupIndex) (groupBy : GroupBy)
    (bucket : Instant) (flows : List LabelledFlow) :
    let d := (buildGroupDelta agg groupIndex groupBy bucket flows).1
    Linked d.nodesLeft d.nodesRight d.links where
  src lk hlk := exists_leftNode groupIndex groupBy hlk
  dst lk hlk := by
    have hdst := aggregate_dst agg (flows.map toRow) (currentSizes groupIndex) groupBy lk hlk
    rw [List.map_map] at hdst
    exact exists_rightNode hlk hdst

/-- The nodes of every published delta cover its links. -/
theorem linked_of_publish {aggregator : Option GroupAggregator} {groupIndex : Option GroupIndex}
    {groupBy : GroupBy} {bucket : Instant} {flows : List LabelledFlow} {d : SankeyDelta}
    (h : (publish aggregator groupIndex groupBy bucket flows).1 = some d) :
    Linked d.nodesLeft d.nodesRight d.links := by
  unfold publish at h
  by_cases hempty : flows = []
  · rw [if_pos hempty] at h
    cases h
  · rw [if_neg hempty] at h
    cases aggregator with
    | none =>
      obtain rfl := Option.some.inj h
      exact linked_legacy bucket flows
    | some agg =>
      by_cases happ : groupBy = .app
      · simp only [if_pos happ] at h
        obtain rfl := Option.some.inj h
        exact linked_legacy bucket flows
      · simp only [if_neg happ] at h
        obtain rfl := Option.some.inj h
        exact linked_group agg groupIndex groupBy bucket flows

/-! ### Answers -/

section

variable {Inet : Type} [DecidableEq Inet]

omit [DecidableEq Inet] in
lemma linked_liveBase (src : Sources Inet) :
    Linked (liveBase src).nodesLeft (liveBase src).nodesRight (liveBase src).links := by
  unfold liveBase
  cases hstored : src.stored with
  | none => exact ⟨by simp, by simp⟩
  | some d =>
    obtain ⟨aggregator, groupIndex, groupBy, bucket, flows, hd⟩ := src.published d hstored
    exact linked_of_publish hd

/-- The request selects nothing in the historical mode. -/
def SelectsNothing (src : Sources Inet) (q : SankeyQuery) : Prop :=
  q.filter.Valid → ∀ fromTs ∈ q.fromTs, ∀ toTs ∈ q.toTs, ∀ lk ∈ historicalLinks src fromTs toTs,
    ¬ (q.filter.selects lk ∧ q.filter.allows lk.src)

lemma closed_historical_iff (src : Sources Inet) (q : SankeyQuery) (fromTs toTs : Instant)
    (links : List Link) :
    Closed (respond q.limit (historicalBase src fromTs toTs) links) ↔ links = [] := by
  constructor
  · intro h
    rw [← topLinks_eq_nil_iff q.one_le_limit, List.eq_nil_iff_forall_not_mem]
    intro lk hlk
    obtain ⟨n, hn, _⟩ := h.linked.src lk hlk
    cases hn
  · rintro rfl
    exact closed_respond q.limit ⟨by simp, by simp⟩

/-- What the endpoint answers in the historical mode. -/
lemma sankey_historical {src : Sources Inet} {q : SankeyQuery} (hvalid : q.filter.Valid)
    (hmode : q.mode = .historical) {fromTs toTs : Instant} (hfrom : fromTs ∈ q.fromTs)
    (hto : toTs ∈ q.toTs) :
    sankey src q = .ok (respond q.limit (historicalBase src fromTs toTs)
      ((historicalLinks src fromTs toTs).filter fun lk =>
        q.filter.selects lk && q.filter.allows lk.src)) := by
  simp only [sankey, baseOf, hmode, Option.mem_def.mp hfrom, Option.mem_def.mp hto]
  show (filterLinks q.filter (historicalLinks src fromTs toTs) >>= _) = _
  rw [filterLinks_of_valid hvalid]
  rfl

/-- Without one of the two times the historical mode has no answer. -/
lemma exists_times_of_ok {src : Sources Inet} {q : SankeyQuery} (hmode : q.mode = .historical)
    {r : SankeyResponse} (h : sankey src q = .ok r) :
    ∃ fromTs ∈ q.fromTs, ∃ toTs, toTs ∈ q.toTs := by
  cases hfrom : q.fromTs with
  | none =>
    simp [sankey, baseOf, hmode, hfrom] at h
    cases h
  | some fromTs =>
    cases hto : q.toTs with
    | none =>
      simp [sankey, baseOf, hmode, hfrom, hto] at h
      cases h
    | some toTs => exact ⟨fromTs, rfl, toTs, rfl⟩

/-- For every stored delta, content of the aggregate, mode, limit and filters:
whatever the endpoint returns is a closed graph if and only if the mode is live or
the historical mode selects nothing. -/
theorem sankey_closed_iff (src : Sources Inet) (q : SankeyQuery) :
    (∀ r, sankey src q = .ok r → Closed r) ↔ q.mode = .live ∨ SelectsNothing src q := by
  by_cases hvalid : q.filter.Valid
  swap
  · -- a CIDR that does not parse is rejected in both modes
    refine iff_of_true (fun r hr => ?_) (.inr fun h => absurd h hvalid)
    simp only [sankey, filterLinks_of_not_valid hvalid] at hr
    cases hbase : baseOf src q <;> rw [hbase] at hr <;> cases hr
  cases hmode : q.mode with
  | live =>
    refine iff_of_true (fun r hr => ?_) (.inl rfl)
    simp only [sankey, baseOf, hmode, filterLinks_of_valid hvalid] at hr
    obtain rfl := Except.ok.inj hr
    exact closed_respond q.limit ((linked_liveBase src).filter _)
  | historical =>
    constructor
    · intro h
      refine .inr fun _ fromTs hfrom toTs hto lk hlk hselected => ?_
      have hnil := (closed_historical_iff src q fromTs toTs _).mp
        (h _ (sankey_historical hvalid hmode hfrom hto))
      rw [List.filter_eq_nil_iff] at hnil
      exact hnil lk hlk (by simpa using hselected)
    · rintro (hlive | hnothing) r hr
      · cases hlive
      · obtain ⟨fromTs, hfrom, toTs, hto⟩ := exists_times_of_ok hmode hr
        rw [sankey_historical hvalid hmode hfrom hto] at hr
        obtain rfl := Except.ok.inj hr
        rw [closed_historical_iff, List.filter_eq_nil_iff]
        intro lk hlk
        simpa using hnothing hvalid fromTs hfrom toTs hto lk hlk

end

def noFilter : LinkFilter := ⟨none, none, [], none, none⟩

/-- One minute with one flow, and nothing published. -/
def oneMinute : Sources (Fin 2) where
  stored := none
  published := nofun
  now := 0
  minutes := [⟨seconds 60, ⟨0, Nat.zero_lt_two⟩, ⟨1, Nat.one_lt_two⟩, 443, 6, 100, 2, 1⟩]
  scan := ⟨id, fun _ => .refl _⟩
  inet := twoHosts
  totalSeconds := fun micros => micros.tdiv microsPerSecond

/-- The two minutes from the epoch on, as the request asks for them. -/
def historicalQuery : SankeyQuery :=
  ⟨.historical, 200, noFilter, some 0, some (seconds 120), by decide, by decide⟩

/-- The one link of the answer has neither of its nodes. -/
theorem historicalQuery_dangling :
    ∃ r, sankey oneMinute historicalQuery = .ok r ∧ r.nodesLeft = [] ∧ r.nodesRight = [] ∧
      r.links = [⟨"ip:10.0.0.1/32", "app:10.0.0.2/32:443", 100, 1, 0⟩] ∧ ¬ Closed r := by
  refine ⟨_, rfl, rfl, rfl, by decide +kernel, fun h => ?_⟩
  obtain ⟨n, hn, _⟩ := h.linked.src ⟨"ip:10.0.0.1/32", "app:10.0.0.2/32:443", 100, 1, 0⟩
    (by decide +kernel)
  cases hn

end FlowDiscovery.SankeyApi
