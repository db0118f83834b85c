import FlowDiscovery.FlowWindower
import FlowDiscovery.Machine
import FlowDiscovery.SankeyPublisher

/-!
# The correlator pipeline

Windower, labeller, demultiplexer and Sankey publisher as one transition system.
Tasks of the event loop only interleave where they suspend, so one action is the
stretch of one task between two suspension points:

* the windower handles an event or an idle tick without suspending;
* the labeller takes a flow, suspends while the resolver answers, labels and
  enriches it, and puts it, waiting while the intermediate queue is full;
* the demultiplexer moves one flow to both destinations;
* the publisher takes a flow and, when the bucket advances, builds its delta.

What the application resolver and the identity index answered is part of the
labelling action, so the results hold for every content of the two. Every task goes
on here; the exceptions that end one are added in `RaisingTasks`.
-/
namespace FlowDiscovery.Correlator
open PyTime FlowWindower SankeyPublisher Machine

structure Config where
  windowS : ℕ
  window_pos : 0 < windowS
  groupBy : GroupBy

/-- A delta together with the flows it was built from. -/
structure Publication where
  bucket : Instant
  flows : List LabelledFlow
  delta : SankeyDelta

/-- What the labelling task holds between its two queues. -/
inductive Labeller where
  | idle
  | resolving (wf : WindowedFlow)
  | putting (lf : LabelledFlow)

/-- The last three fields are histories; the source keeps none of them. -/
structure State (queueMax : ℕ) where
  buckets : Buckets
  outlet : Outlet queueMax
  labeller : Labeller
  intermediate : BoundedQueue LabelledFlow queueMax
  writerQueue : BoundedQueue LabelledFlow queueMax
  sankeyQueue : BoundedQueue LabelledFlow queueMax
  groups : GroupIndex
  aggregator : Option GroupAggregator
  currentBucket : Option Instant
  pending : List LabelledFlow
  consumed : List FlowEvent
  evictedSankey : List LabelledFlow
  published : List Publication

inductive Action where
  | event (ev : FlowEvent)
  | tick (now : Instant)
  | labelTake
  | labelResolved (candidate : AppCandidate) (hit : Option String)
  | labelPut
  | demux
  | publisherGet
  | writerGet
  | reloadGroups (rows : List GroupRow)
  | clearCache

variable {queueMax : ℕ}

def initial (aggregator : Option GroupAggregator) : State queueMax where
  buckets := .empty
  outlet := ⟨.empty, 0, [], []⟩
  labeller := .idle
  intermediate := .empty
  writerQueue := .empty
  sankeyQueue := .empty
  groups := .fresh
  aggregator := aggregator
  currentBucket := none
  pending := []
  consumed := []
  evictedSankey := []
  published := []

/-! ## The tasks -/

def windowerTick (cfg : Config) (s : State queueMax) (now : Instant) : State queueMax :=
  let st := emitReady cfg.windowS now (s.buckets, s.outlet)
  { s with buckets := st.1, outlet := st.2 }

def windowerEvent (cfg : Config) (s : State queueMax) (ev : FlowEvent) : State queueMax :=
  windowerTick cfg
    { s with buckets := accumulate cfg.windowS s.buckets ev, consumed := s.consumed ++ [ev] } ev.ts

def labelTake (s : State queueMax) : State queueMax :=
  match s.labeller, s.outlet.out.getNowait with
  | .idle, some (wf, q) =>
    { s with outlet := { s.outlet with out := q }, labeller := .resolving wf }
  | _, _ => s

/-- `Enricher.enrich` on the user the identity index answered with. -/
def enrich (groups : GroupIndex) : Option String → String × Finset String
  | none => (unknownUser, ∅)
  | some upn => (upn, groups.groupsOf upn)

def labelFlow (wf : WindowedFlow) (candidate : AppCandidate) (user : String × Finset String) :
    LabelledFlow where
  bucketStart := wf.bucketStart
  windowS := wf.windowS
  srcIp := wf.srcIp
  dstIp := wf.dstIp
  dstPort := wf.dstPort
  proto := wf.proto
  bytes := wf.bytes
  packets := wf.packets
  flowCount := wf.flowCount
  candidate := candidate
  lossy := wf.lossy
  droppedCount := wf.droppedCount
  userUpn := user.1
  groups := user.2

def labelResolved (s : State queueMax) (candidate : AppCandidate) (hit : Option String) :
    State queueMax :=
  match s.labeller with
  | .resolving wf => { s with labeller := .putting (labelFlow wf candidate (enrich s.groups hit)) }
  | _ => s

def labelPut (s : State queueMax) : State queueMax :=
  match s.labeller with
  | .putting lf =>
    match s.intermediate.putNowait lf with
    | none => s
    | some q => { s with intermediate := q, labeller := .idle }
  | _ => s

def demux (s : State queueMax) : State queueMax :=
  match s.intermediate.getNowait with
  | none => s
  | some (lf, q) =>
    let w := s.writerQueue.putDropOldest lf
    let p := s.sankeyQueue.putDropOldest lf
    { s with
      intermediate := q
      writerQueue := w.queue
      sankeyQueue := p.queue
      evictedSankey := s.evictedSankey ++ p.evicted.toList }

/-- Body of the publisher's loop for one flow. The delta is built before the
first suspension, and the pending list starts over with the new flow. -/
def publisherTake (cfg : Config) (s : State queueMax) (lf : LabelledFlow) : State queueMax :=
  let current := s.currentBucket.getD lf.bucketStart
  if current < lf.bucketStart then
    let r := publish s.aggregator (some s.groups) cfg.groupBy current s.pending
    { s with
      aggregator := r.2
      published := s.published ++ (r.1.map fun delta => ⟨current, s.pending, delta⟩).toList
      currentBucket := some lf.bucketStart
      pending := [lf] }
  else
    { s with currentBucket := some current, pending := s.pending ++ [lf] }

def publisherGet (cfg : Config) (s : State queueMax) : State queueMax :=
  match s.sankeyQueue.getNowait with
  | none => s
  | some (lf, q) => publisherTake cfg { s with sankeyQueue := q } lf

def writerGet (s : State queueMax) : State queueMax :=
  match s.writerQueue.getNowait with
  | none => s
  | some (_, q) => { s with writerQueue := q }

def step (cfg : Config) (s : State queueMax) : Action → State queueMax
  | .event ev => windowerEvent cfg s ev
  | .tick now => windowerTick cfg s now
  | .labelTake => labelTake s
  | .labelResolved candidate hit => labelResolved s candidate hit
  | .labelPut => labelPut s
  | .demux => demux s
  | .publisherGet => publisherGet cfg s
  | .writerGet => writerGet s
  | .reloadGroups rows => { s with groups := GroupIndex.load rows }
  | .clearCache => { s with aggregator := s.aggregator.map GroupAggregator.clearCache }

/-! ## What one action can do -/

theorem labelTake_cases (s : State queueMax) :
    labelTake s = s ∨ ∃ wf q, s.labeller = .idle ∧ s.outlet.out.items = wf :: q.items ∧
      labelTake s = { s with
        outlet := { s.outlet with out := q }, labeller := .resolving wf } := by
  unfold labelTake
  cases hl : s.labeller with
  | resolving wf => exact .inl rfl
  | putting lf => exact .inl rfl
  | idle =>
    cases hg : s.outlet.out.getNowait with
    | none => exact .inl rfl
    | some p =>
      obtain ⟨wf, q⟩ := p
      exact .inr ⟨wf, q, rfl, (s.outlet.out.getNowait_eq_some_iff q wf).mp hg, rfl⟩

theorem labelResolved_cases (s : State queueMax) (candidate : AppCandidate) (hit : Option String) :
    labelResolved s candidate hit = s ∨ ∃ wf, s.labeller = .resolving wf ∧
      labelResolved s candidate hit = { s with
        labeller := .putting (labelFlow wf candidate (enrich s.groups hit)) } := by
  unfold labelResolved
  cases hl : s.labeller with
  | idle => exact .inl rfl
  | resolving wf => exact .inr ⟨wf, rfl, rfl⟩
  | putting lf => exact .inl rfl

theorem labelPut_cases (s : State queueMax) :
    labelPut s = s ∨ ∃ lf q, s.labeller = .putting lf ∧
      q.items = s.intermediate.items ++ [lf] ∧
      labelPut s = { s with intermediate := q, labeller := .idle } := by
  unfold labelPut
  cases hl : s.labeller with
  | idle => exact .inl rfl
  | resolving wf => exact .inl rfl
  | putting lf =>
    cases hp : s.intermediate.putNowait lf with
    | none => exact .inl (by simp only [hp])
    | some q => exact .inr ⟨lf, q, rfl, BoundedQueue.putNowait_items hp, by simp only [hp]⟩

theorem demux_cases (s : State queueMax) :
    (s.intermediate.items = [] ∧ demux s = s) ∨ ∃ lf q, s.intermediate.items = lf :: q.items ∧
      demux s = { s with
        intermediate := q
        writerQueue := (s.writerQueue.putDropOldest lf).queue
        sankeyQueue := (s.sankeyQueue.putDropOldest lf).queue
        evictedSankey := s.evictedSankey ++ (s.sankeyQueue.putDropOldest lf).evicted.toList } := by
  unfold demux
  cases hg : s.intermediate.getNowait with
  | none => exact .inl ⟨s.intermediate.getNowait_eq_none_iff.mp hg, rfl⟩
  | some p =>
    obtain ⟨lf, q⟩ := p
    exact .inr ⟨lf, q, (s.intermediate.getNowait_eq_some_iff q lf).mp hg, rfl⟩

theorem publisherGet_cases (cfg : Config) (s : State queueMax) :
    (s.sankeyQueue.items = [] ∧ publisherGet cfg s = s) ∨
      ∃ lf q, s.sankeyQueue.items = lf :: q.items ∧
        publisherGet cfg s = publisherTake cfg { s with sankeyQueue := q } lf := by
  unfold publisherGet
  cases hg : s.sankeyQueue.getNowait with
  | none => exact .inl ⟨s.sankeyQueue.getNowait_eq_none_iff.mp hg, rfl⟩
  | some p =>
    obtain ⟨lf, q⟩ := p
    exact .inr ⟨lf, q, (s.sankeyQueue.getNowait_eq_some_iff q lf).mp hg, rfl⟩

theorem writerGet_cases (s : State queueMax) :
    ∃ q, writerGet s = { s with writerQueue := q } := by
  unfold writerGet
  cases s.writerQueue.getNowait with
  | none => exact ⟨s.writerQueue, rfl⟩
  | some p => exact ⟨p.2, rfl⟩

/-- The publisher either closes its bucket, with one delta for the pending flows
if there are any, or keeps collecting. -/
theorem publisherTake_cases (cfg : Config) (s : State queueMax) (lf : LabelledFlow) :
    (∃ current, s.currentBucket = some current ∧ current < lf.bucketStart ∧ s.pending = [] ∧
      publisherTake cfg s lf =
        { s with currentBucket := some lf.bucketStart, pending := [lf] }) ∨
    (∃ current delta agg, s.currentBucket = some current ∧ current < lf.bucketStart ∧
      s.pending ≠ [] ∧ delta.ts = current ∧
      (∀ q, deltaTotal q delta = flowTotal q s.pending) ∧
      delta.lossy = s.pending.any LabelledFlow.lossy ∧
      delta.droppedCount = (s.pending.map LabelledFlow.droppedCount).sum ∧
      publisherTake cfg s lf =
        { s with
          aggregator := agg
          published := s.published ++ [⟨current, s.pending, delta⟩]
          currentBucket := some lf.bucketStart
          pending := [lf] }) ∨
    (¬ (s.currentBucket.getD lf.bucketStart < lf.bucketStart) ∧
      publisherTake cfg s lf =
        { s with
          currentBucket := some (s.currentBucket.getD lf.bucketStart)
          pending := s.pending ++ [lf] }) := by
  unfold publisherTake
  by_cases hlt : s.currentBucket.getD lf.bucketStart < lf.bucketStart
  · obtain ⟨current, hc⟩ : ∃ current, s.currentBucket = some current := by
      cases hc : s.currentBucket with
      | none => simp [hc] at hlt
      | some current => exact ⟨current, rfl⟩
    simp only [hc, Option.getD_some] at hlt ⊢
    rw [if_pos hlt]
    by_cases hp : s.pending = []
    · exact .inl ⟨current, rfl, hlt, hp, by simp [hp, publish_nil]⟩
    · obtain ⟨d, hd, hts, htot, hlossy, hdrop⟩ :=
        publish_spec s.aggregator (some s.groups) cfg.groupBy current s.pending hp
      exact .inr (.inl ⟨current, d, _, rfl, hlt, hp, hts, htot, hlossy, hdrop, by simp [hd]; rfl⟩)
  · exact .inr (.inr ⟨hlt, by rw [if_neg hlt]⟩)

/-- Only the publisher's own action touches its bucket, its pending list and the
deltas built so far. -/
theorem step_publisher_frame (cfg : Config) (s : State queueMax) (action : Action)
    (h : action ≠ .publisherGet) :
    (step cfg s action).currentBucket = s.currentBucket ∧
      (step cfg s action).pending = s.pending ∧ (step cfg s action).published = s.published := by
  cases action with
  | event ev => exact ⟨rfl, rfl, rfl⟩
  | tick now => exact ⟨rfl, rfl, rfl⟩
  | labelTake =>
    obtain he | ⟨_, _, _, _, he⟩ := labelTake_cases s <;> simp only [step, he] <;> simp
  | labelResolved candidate hit =>
    obtain he | ⟨_, _, he⟩ := labelResolved_cases s candidate hit <;> simp only [step, he] <;> simp
  | labelPut =>
    obtain he | ⟨_, _, _, _, he⟩ := labelPut_cases s <;> simp only [step, he] <;> simp
  | demux => obtain ⟨_, he⟩ | ⟨_, _, _, he⟩ := demux_cases s <;> simp only [step, he] <;> simp
  | publisherGet => exact absurd rfl h
  | writerGet =>
    obtain ⟨_, he⟩ := writerGet_cases s
    simp only [step, he]
    simp
  | reloadGroups rows => exact ⟨rfl, rfl, rfl⟩
  | clearCache => exact ⟨rfl, rfl, rfl⟩

/-- Only the windower's own actions touch its buckets, what it has emitted and what it
has consumed. -/
theorem step_windower_frame (cfg : Config) (s : State queueMax) (action : Action)
    (hevent : ∀ ev, action ≠ .event ev) (htick : ∀ now, action ≠ .tick now) :
    (step cfg s action).buckets = s.buckets ∧
      (step cfg s action).outlet.pushed = s.outlet.pushed ∧
      (step cfg s action).consumed = s.consumed := by
  cases action with
  | event ev => exact absurd rfl (hevent ev)
  | tick now => exact absurd rfl (htick now)
  | labelTake =>
    obtain he | ⟨_, _, _, _, he⟩ := labelTake_cases s <;> simp only [step, he] <;> simp
  | labelResolved candidate hit =>
    obtain he | ⟨_, _, he⟩ := labelResolved_cases s candidate hit <;> simp only [step, he] <;> simp
  | labelPut =>
    obtain he | ⟨_, _, _, _, he⟩ := labelPut_cases s <;> simp only [step, he] <;> simp
  | demux => obtain ⟨_, he⟩ | ⟨_, _, _, he⟩ := demux_cases s <;> simp only [step, he] <;> simp
  | publisherGet =>
    obtain ⟨_, he⟩ | ⟨lf, queue, _, he⟩ := publisherGet_cases cfg s
    · simp only [step, he]
      simp
    · obtain ⟨_, _, _, _, hp⟩ | ⟨_, _, _, _, _, _, _, _, _, _, hp⟩ | ⟨_, hp⟩ :=
        publisherTake_cases cfg { s with sankeyQueue := queue } lf <;>
      · simp only [step, he, hp]
        simp
  | writerGet =>
    obtain ⟨_, he⟩ := writerGet_cases s
    simp only [step, he]
    simp
  | reloadGroups rows => exact ⟨rfl, rfl, rfl⟩
  | clearCache => exact ⟨rfl, rfl, rfl⟩

/-! ## Actions of concrete runs -/

/-- Group mode with the default window. -/
def fiveSecondGroups : Config := ⟨5, by decide, .group⟩

/-- The aggregator with the default exclusions and floor. -/
def defaultAggregator : GroupAggregator :=
  ⟨{"Domain Users", "Authenticated Users", "Everyone"}, 500, .empty⟩

/-- A session of ten bytes between two fixed hosts, `ts` seconds after the epoch. -/
def sessionAt (ts : ℤ) (dstPort : ℤ) : FlowEvent where
  ts := seconds ts
  srcIp := "10.0.0.5"
  srcPort := 51000
  dstIp := "1.1.1.1"
  dstPort := dstPort
  proto := 6
  bytes := 10
  packets := 1
  action := "allow"
  fqdn := none
  appId := none
  source := "palo_alto"
  rawId := none

/-- One flow of an unknown user goes from the windower's queue to the publisher. -/
def deliver : List Action :=
  [.labelTake, .labelResolved ⟨.raw, "1.1.1.1", none⟩ none, .labelPut, .demux, .publisherGet]

end FlowDiscovery.Correlator
