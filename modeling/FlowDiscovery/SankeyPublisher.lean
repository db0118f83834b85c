import FlowDiscovery.GroupAggregator
import FlowDiscovery.GroupIndex
import FlowDiscovery.PyTime

/-!
# Sankey deltas

The publisher collects labelled flows of one bucket and turns them into a delta
when a flow of a later bucket arrives. There are two builders: the legacy one
keyed by source address and the one that goes through the group aggregator. The
statements of a builder's loop write to independent variables, so the loop is
written as one pass per variable. That a delta may have no text, and ends the
publisher then, is the subject of `RaisingTasks`.
-/
namespace FlowDiscovery
open PyTime

inductive LabelKind where
  | manual
  | saas
  | ptr
  | port
  | raw
  deriving DecidableEq, Repr

structure AppCandidate where
  labelKind : LabelKind
  label : String
  appId : Option ℤ
  deriving DecidableEq, Repr

structure LabelledFlow where
  bucketStart : Instant
  windowS : ℕ
  srcIp : String
  dstIp : String
  dstPort : ℤ
  proto : ℤ
  bytes : ℤ
  packets : ℤ
  flowCount : ℤ
  candidate : AppCandidate
  lossy : Bool
  droppedCount : ℕ
  userUpn : String
  groups : Finset String
  deriving DecidableEq

structure LeftNode where
  id : String
  label : String
  size : ℕ
  deriving DecidableEq, Repr

structure RightNode where
  id : String
  label : String
  kind : LabelKind
  deriving DecidableEq, Repr

structure SankeyDelta where
  ts : Instant
  windowS : ℕ
  nodesLeft : List LeftNode
  nodesRight : List RightNode
  links : List Link
  lossy : Bool
  droppedCount : ℕ
  deriving DecidableEq, Repr

namespace SankeyPublisher

def leftId (f : LabelledFlow) : String := "ip:" ++ f.srcIp

def rightId (f : LabelledFlow) : String := "app:" ++ f.candidate.label

/-! ## The legacy builder -/

def legacyLinks (flows : List LabelledFlow) : Dict (String × String) Link :=
  flows.foldl (fun links f =>
    links.update (leftId f, rightId f) ⟨leftId f, rightId f, 0, 0, 0⟩ fun link =>
      { link with bytes := link.bytes + f.bytes, flows := link.flows + f.flowCount }) .empty

def legacyLeftNodes (flows : List LabelledFlow) : Dict String LeftNode :=
  flows.foldl (fun nodes f =>
    nodes.update (leftId f) ⟨leftId f, f.srcIp, 0⟩ fun node =>
      { node with size := node.size + 1 }) .empty

def legacyRightNodes (flows : List LabelledFlow) : Dict String RightNode :=
  flows.foldl (fun nodes f =>
    nodes.setdefault (rightId f) ⟨rightId f, f.candidate.label, f.candidate.labelKind⟩) .empty

/-- `window_s` of the first flow; the builders are only called with one. -/
def firstWindow (flows : List LabelledFlow) : ℕ := (flows.head?.map LabelledFlow.windowS).getD 0

def buildLegacyDelta (bucket : Instant) (flows : List LabelledFlow) : SankeyDelta where
  ts := bucket
  windowS := firstWindow flows
  nodesLeft := (legacyLeftNodes flows).entries.map Prod.snd
  nodesRight := (legacyRightNodes flows).entries.map Prod.snd
  links := (legacyLinks flows).entries.map Prod.snd
  lossy := flows.any LabelledFlow.lossy
  droppedCount := (flows.map LabelledFlow.droppedCount).sum

/-! ## The group builder -/

def toRow (f : LabelledFlow) : Row :=
  ⟨f.userUpn, f.groups, rightId f, f.srcIp, f.bytes, f.flowCount⟩

/-- Label and kind per destination; the last flow of a destination wins. -/
def rightLabels (flows : List LabelledFlow) : Dict String (String × LabelKind) :=
  flows.foldl (fun labels f =>
    labels.set (rightId f) (f.candidate.label, f.candidate.labelKind)) .empty

/-- `_build_left_nodes`: one node per distinct source, in order of appearance. -/
def buildLeftNodes (groupIndex : Option GroupIndex) (groupBy : GroupBy) (links : List Link) :
    List LeftNode :=
  let size := fun src => match groupIndex with
    | some gi => if groupBy = .group ∧ src ≠ unknownUser then gi.sizeOf src else 0
    | none => 0
  let seen : Dict String LeftNode := links.foldl (fun seen link =>
    seen.setdefault link.src ⟨link.src, link.src, size link.src⟩) .empty
  seen.entries.map Prod.snd

def buildRightNodes (flows : List LabelledFlow) (links : List Link) : List RightNode :=
  let labels := rightLabels flows
  ((links.map Link.dst).dedup.insertionSort (· ≤ ·)).filterMap fun dst =>
    (labels.get? dst).map fun (label, kind) => ⟨dst, label, kind⟩

/-- Group sizes read from the index at the time of the call. -/
def currentSizes (groupIndex : Option GroupIndex) : String → ℕ :=
  match groupIndex with
  | some gi => gi.groupSize
  | none => fun _ => 0

def buildGroupDelta (agg : GroupAggregator) (groupIndex : Option GroupIndex) (groupBy : GroupBy)
    (bucket : Instant) (flows : List LabelledFlow) : SankeyDelta × GroupAggregator :=
  let (links, agg') := agg.aggregate (flows.map toRow) (currentSizes groupIndex) groupBy
  ({ ts := bucket
     windowS := firstWindow flows
     nodesLeft := buildLeftNodes groupIndex groupBy links
     nodesRight := buildRightNodes flows links
     links
     lossy := flows.any LabelledFlow.lossy
     droppedCount := (flows.map LabelledFlow.droppedCount).sum }, agg')

/-! ## Publishing -/

/-- `_publish` up to the Redis calls, which keep nothing and whose failure is
only logged. Nothing is built for an empty list of flows. -/
def publish (aggregator : Option GroupAggregator) (groupIndex : Option GroupIndex)
    (groupBy : GroupBy) (bucket : Instant) (flows : List LabelledFlow) :
    Option SankeyDelta × Option GroupAggregator :=
  if flows = [] then (none, aggregator)
  else
    match aggregator with
    | none => (some (buildLegacyDelta bucket flows), none)
    | some agg =>
      if groupBy = .app then (some (buildLegacyDelta bucket flows), some agg)
      else
        let (delta, agg') := buildGroupDelta agg groupIndex groupBy bucket flows
        (some delta, some agg')

/-! ## Totals -/

def amount (q : Quantity) (f : LabelledFlow) : ℤ :=
  match q with
  | .bytes => f.bytes
  | .flows => f.flowCount

def flowTotal (q : Quantity) (flows : List LabelledFlow) : ℤ := (flows.map (amount q)).sum

def deltaTotal (q : Quantity) (d : SankeyDelta) : ℤ := (d.links.map (Link.amount q)).sum

theorem legacyLinks_total (q : Quantity) (flows : List LabelledFlow)
    (links : Dict (String × String) Link) :
    (flows.foldl (fun links f =>
      links.update (leftId f, rightId f) ⟨leftId f, rightId f, 0, 0, 0⟩ fun link =>
        { link with bytes := link.bytes + f.bytes, flows := link.flows + f.flowCount })
      links).sumBy (fun _ l => l.amount q) =
      links.sumBy (fun _ l => l.amount q) + flowTotal q flows := by
  induction flows generalizing links with
  | nil => simp [flowTotal]
  | cons f rest ih =>
    have hadd := Dict.sumBy_update (fun _ (l : Link) => l.amount q) links (leftId f, rightId f)
      ⟨leftId f, rightId f, 0, 0, 0⟩
      (fun l => { l with bytes := l.bytes + f.bytes, flows := l.flows + f.flowCount })
      (amount q f) (by cases q <;> rfl) (fun l => by cases q <;> rfl)
    rw [List.foldl_cons, ih, hadd]
    simp only [flowTotal, List.map_cons, List.sum_cons]
    omega

theorem buildLegacyDelta_total (q : Quantity) (bucket : Instant) (flows : List LabelledFlow) :
    deltaTotal q (buildLegacyDelta bucket flows) = flowTotal q flows := by
  have h := legacyLinks_total q flows .empty
  rw [Dict.sumBy_empty, zero_add] at h
  rw [← h]
  simp [deltaTotal, buildLegacyDelta, legacyLinks, Dict.sumBy, Function.comp_def]

theorem rowTotal_toRow (q : Quantity) (flows : List LabelledFlow) :
    rowTotal q (flows.map toRow) = flowTotal q flows := by
  have h : (Row.amount q ∘ toRow) = amount q := by
    funext f
    cases q <;> rfl
  simp [rowTotal, flowTotal, h]

theorem buildGroupDelta_total (q : Quantity) (agg : GroupAggregator)
    (groupIndex : Option GroupIndex) (groupBy : GroupBy) (bucket : Instant)
    (flows : List LabelledFlow) :
    deltaTotal q (buildGroupDelta agg groupIndex groupBy bucket flows).1 = flowTotal q flows := by
  rw [← rowTotal_toRow]
  exact GroupAggregator.aggregate_total q agg (flows.map toRow) (currentSizes groupIndex) groupBy

/-- What `_publish` can build: nothing for no flows, else a delta for the bucket
with the flows' totals, loss flag and drop count. -/
theorem publish_spec (aggregator : Option GroupAggregator) (groupIndex : Option GroupIndex)
    (groupBy : GroupBy) (bucket : Instant) (flows : List LabelledFlow) (hne : flows ≠ []) :
    ∃ d, (publish aggregator groupIndex groupBy bucket flows).1 = some d ∧ d.ts = bucket ∧
      (∀ q, deltaTotal q d = flowTotal q flows) ∧
      d.lossy = flows.any LabelledFlow.lossy ∧
      d.droppedCount = (flows.map LabelledFlow.droppedCount).sum := by
  unfold publish
  rw [if_neg hne]
  cases aggregator with
  | none => exact ⟨_, rfl, rfl, fun q => buildLegacyDelta_total q bucket flows, rfl, rfl⟩
  | some agg =>
    by_cases hg : groupBy = .app
    · simp only [hg, if_true]
      exact ⟨_, rfl, rfl, fun q => buildLegacyDelta_total q bucket flows, rfl, rfl⟩
    · simp only [hg, if_false]
      exact ⟨_, rfl, rfl, fun q => buildGroupDelta_total q agg groupIndex groupBy bucket flows,
        rfl, rfl⟩

theorem publish_nil (aggregator : Option GroupAggregator) (groupIndex : Option GroupIndex)
    (groupBy : GroupBy) (bucket : Instant) :
    publish aggregator groupIndex groupBy bucket [] = (none, aggregator) := rfl

end SankeyPublisher
end FlowDiscovery
