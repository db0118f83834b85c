import FlowDiscovery.Conservation
import FlowDiscovery.DeltaNumbers

/-!
# Tasks that end

No task of the correlator is restarted, and an exception that leaves one ends it while the
others go on. The windower raises on an instant whose bucket, or whose threshold one window
earlier, lies outside the years of `datetime`. The publisher raises when its delta has a
number that `str` refuses, since it serialises before its `try`. The labeller raises when a
call of the resolver does. What such a task holds is lost.

The pipeline is the one whose tasks all go on, with two differences: instants are taken
through `timestamp`, and an action of a task that has ended does nothing.
-/
namespace FlowDiscovery.RaisingTasks
open PyTime Machine EventJson SankeyPublisher DeltaNumbers
open FlowWindower hiding bucketStart
open Correlator hiding State Action step initial windowerTick windowerEvent publisherGet

/-! ## The windower's instants -/

/-- `_bucket_start`; `none` is its `ValueError`. -/
def bucketStart? (windowS : ℕ) (ts : Instant) : Option Instant :=
  let epoch := wholeSeconds ts
  fromtimestamp? (epoch - epoch % windowS)

/-- The threshold of `_emit_ready`. -/
def threshold? (windowS : ℕ) (now : Instant) : Option Instant :=
  (bucketStart? windowS now).bind fun b => addSeconds? b (-windowS)

/-- The whole second that stands for an instant in the windower. -/
def clock (ts : Instant) : Instant := seconds (wholeSeconds ts)

def clocked (ev : FlowEvent) : FlowEvent := { ev with ts := clock ev.ts }

lemma bucketStart_clock {windowS : ℕ} {ts b : Instant} (h : bucketStart? windowS ts = some b) :
    FlowWindower.bucketStart windowS (clock ts) = b := by
  have hsecond : (clock ts).tdiv microsPerSecond = wholeSeconds ts :=
    Int.mul_tdiv_cancel _ (by decide)
  simp only [bucketStart?, fromtimestamp?] at h
  split_ifs at h
  simp only [FlowWindower.bucketStart, hsecond]
  exact Option.some.inj h

/-- Where the threshold exists, it is the one of the windower that never raises. -/
lemma threshold_clock {windowS : ℕ} {now t : Instant} (h : threshold? windowS now = some t) :
    t = FlowWindower.bucketStart windowS (clock now) - seconds windowS := by
  obtain ⟨b, hb, ht⟩ := Option.bind_eq_some_iff.mp h
  simp only [addSeconds?] at ht
  split_ifs at ht
  rw [bucketStart_clock hb, ← Option.some.inj ht]
  simp only [seconds]
  ring

/-! ## The tasks -/

/-- `consumed` has the events that the windower has taken, with their own instants. -/
structure State (queueMax : ℕ) where
  pipeline : Correlator.State queueMax
  windowerEnded : Bool
  labellerEnded : Bool
  publisherEnded : Bool
  consumed : List FlowEvent

/-- A stage acts, or the resolver raises on the flow that the labeller holds. -/
inductive Action where
  | stage (action : Correlator.Action)
  | labelFailed

variable {queueMax : ℕ}

def initial (aggregator : Option GroupAggregator) : State queueMax :=
  ⟨Correlator.initial aggregator, false, false, false, []⟩

/-- `_emit_ready`. It raises before it emits anything. -/
def windowerTick (cfg : Config) (s : State queueMax) (now : Instant) : State queueMax :=
  match threshold? cfg.windowS now with
  | none => { s with windowerEnded := true }
  | some _ => { s with pipeline := Correlator.windowerTick cfg s.pipeline (clock now) }

/-- The loop with an event, which is taken from the queue in any case. -/
def windowerEvent (cfg : Config) (s : State queueMax) (ev : FlowEvent) : State queueMax :=
  let s := { s with consumed := s.consumed ++ [ev] }
  match bucketStart? cfg.windowS ev.ts with
  | none => { s with windowerEnded := true }
  | some _ =>
    windowerTick cfg
      { s with pipeline :=
        { s.pipeline with
          buckets := accumulate cfg.windowS s.pipeline.buckets (clocked ev)
          consumed := s.pipeline.consumed ++ [clocked ev] } } ev.ts

/-- The flow ahead in the publisher's queue is of a later bucket than the current one. -/
def closes (s : Correlator.State queueMax) : Bool :=
  match s.sankeyQueue.items with
  | [] => false
  | lf :: _ => s.currentBucket.getD lf.bucketStart < lf.bucketStart

/-- The delta that `_publish` builds of the pending flows. -/
def pendingDelta (cfg : Config) (s : Correlator.State queueMax) : Option SankeyDelta :=
  s.currentBucket.bind fun current =>
    (publish s.aggregator (some s.groups) cfg.groupBy current s.pending).1

/-- The loop with a flow. When the delta has no text, the task ends with the flow in hand,
and the list of pending flows goes with it. -/
def publisherGet (iso : IsoText) (cfg : Config) (s : State queueMax) : State queueMax :=
  let next := Correlator.publisherGet cfg s.pipeline
  if closes s.pipeline ∧
      (pendingDelta cfg s.pipeline).any fun d => (DeltaWire.serialize iso d).isNone
  then { s with pipeline := { next with pending := [] }, publisherEnded := true }
  else { s with pipeline := next }

/-- The labeller waits for the resolver with a flow in hand. -/
def resolving : Labeller → Bool
  | .resolving _ => true
  | .idle | .putting _ => false

def labelFailed (s : State queueMax) : State queueMax :=
  if resolving s.pipeline.labeller then
    { s with pipeline := { s.pipeline with labeller := .idle }, labellerEnded := true }
  else s

def step (iso : IsoText) (cfg : Config) (s : State queueMax) : Action → State queueMax
  | .stage (.event ev) => if s.windowerEnded then s else windowerEvent cfg s ev
  | .stage (.tick now) => if s.windowerEnded then s else windowerTick cfg s now
  | .stage .labelTake =>
    if s.labellerEnded then s else { s with pipeline := Correlator.labelTake s.pipeline }
  | .stage .publisherGet => if s.publisherEnded then s else publisherGet iso cfg s
  | .stage action => { s with pipeline := Correlator.step cfg s.pipeline action }
  | .labelFailed => labelFailed s

/-- Only the windower's own actions end it or touch its buckets. -/
theorem step_windower_frame (iso : IsoText) (cfg : Config) (s : State queueMax) (a : Action)
    (hevent : ∀ ev, a ≠ .stage (.event ev)) (htick : ∀ now, a ≠ .stage (.tick now)) :
    (step iso cfg s a).windowerEnded = s.windowerEnded ∧
      (step iso cfg s a).pipeline.buckets = s.pipeline.buckets := by
  have hframe : ∀ action : Correlator.Action, a = .stage action →
      (Correlator.step cfg s.pipeline action).buckets = s.pipeline.buckets := by
    rintro action rfl
    exact (Correlator.step_windower_frame cfg s.pipeline action (fun ev he => hevent ev (he ▸ rfl))
      fun now he => htick now (he ▸ rfl)).1
  cases a with
  | labelFailed =>
    simp only [step, labelFailed]
    split_ifs <;> exact ⟨rfl, rfl⟩
  | stage action =>
    have hbuckets := hframe action rfl
    cases action with
    | event ev => exact absurd rfl (hevent ev)
    | tick now => exact absurd rfl (htick now)
    | labelTake =>
      simp only [step]
      split_ifs
      · exact ⟨rfl, rfl⟩
      · exact ⟨rfl, hbuckets⟩
    | publisherGet =>
      simp only [step, publisherGet]
      split_ifs
      · exact ⟨rfl, rfl⟩
      · exact ⟨rfl, hbuckets⟩
      · exact ⟨rfl, hbuckets⟩
    | labelResolved candidate hit => exact ⟨rfl, hbuckets⟩
    | labelPut => exact ⟨rfl, hbuckets⟩
    | demux => exact ⟨rfl, hbuckets⟩
    | writerGet => exact ⟨rfl, hbuckets⟩
    | reloadGroups rows => exact ⟨rfl, hbuckets⟩
    | clearCache => exact ⟨rfl, hbuckets⟩

/-! ## The property and its condition -/

/-- Bytes, packets or number of the events of one key whose bucket is that one. -/
def bucketTotal (windowS : ℕ) (b : Instant) (k : FlowKey) (q : Field)
    (events : List FlowEvent) : ℤ :=
  (events.map fun ev =>
    if bucketStart? windowS ev.ts = some b ∧ keyOf ev = k then eventAmount q ev else 0).sum

/-- Deltas, pending flows, flows in transit and open accumulators carry what was consumed,
and per bucket and key the emitted flows and the open accumulator carry its events. -/
structure Conserved (cfg : Config) (s : State queueMax) : Prop where
  total : ∀ q, builtTotal q s.pipeline + flowTotal q s.pipeline.pending +
    transitTotal q s.pipeline + openAmount q s.pipeline =
      (s.consumed.map (eventAmount (fieldOf q))).sum
  perKey : ∀ b k q, pushedTotal (only b k) q s.pipeline.outlet.pushed +
    FlowAcc.amount q (openAt s.pipeline b k) = bucketTotal cfg.windowS b k q s.consumed

/-- The event has a bucket, the numbers of the delta to be built can be written, and the
resolver does not raise on a flow. -/
def Safe (cfg : Config) (s : State queueMax) : Action → Prop
  | .stage (.event ev) => s.windowerEnded ∨ (bucketStart? cfg.windowS ev.ts).isSome
  | .stage .publisherGet => s.publisherEnded ∨ (closes s.pipeline →
      Writable (sourceLabel s.pipeline.aggregator (some s.pipeline.groups) cfg.groupBy
        s.pipeline.pending) (some s.pipeline.groups) s.pipeline.pending)
  | .labelFailed => ¬ resolving s.pipeline.labeller
  | _ => True

/-! ## Invariant -/

/-- The pipeline is balanced, and has accumulated every event by its own bucket. -/
structure Sound (cfg : Config) (s : State queueMax) : Prop where
  balanced : ∀ q, Balanced q s.pipeline
  keyBalanced : KeyBalanced cfg s.pipeline
  accumulated : s.pipeline.consumed = s.consumed.map clocked
  bucketed : ∀ ev ∈ s.consumed, (bucketStart? cfg.windowS ev.ts).isSome

lemma initial_sound (cfg : Config) (aggregator : Option GroupAggregator) :
    Sound cfg (initial aggregator : State queueMax) where
  balanced q := by cases q <;> rfl
  keyBalanced _ _ := rfl
  accumulated := rfl
  bucketed := by simp [initial]

lemma eventTotal_clocked {windowS : ℕ} {events : List FlowEvent}
    (h : ∀ ev ∈ events, (bucketStart? windowS ev.ts).isSome) (b : Instant) (k : FlowKey)
    (q : Field) :
    eventTotal windowS (only b k) q (events.map clocked) = bucketTotal windowS b k q events := by
  rw [eventTotal, bucketTotal, List.map_map]
  refine congrArg List.sum (List.map_congr_left fun ev hev => ?_)
  obtain ⟨c, hc⟩ := Option.isSome_iff_exists.mp (h ev hev)
  have hbucket : FlowWindower.bucketStart windowS (clocked ev).ts = c := bucketStart_clock hc
  have hkey : keyOf (clocked ev) = keyOf ev := rfl
  simp only [Function.comp_apply, hbucket, hkey, hc, only, decide_eq_true_eq, Option.some.injEq]
  rfl

theorem Sound.conserved {cfg : Config} {s : State queueMax} (h : Sound cfg s)
    (hno : NoOverflow s.pipeline) : Conserved cfg s where
  total q := by
    rw [(h.balanced q).conserved hno, consumedTotal, h.accumulated, List.map_map]
    rfl
  perKey b k q := by
    rw [h.keyBalanced.conserved, h.accumulated, eventTotal_clocked h.bucketed]

/-- An action that only moves the pipeline, and not its windower. -/
lemma Sound.stage {cfg : Config} {s : State queueMax} (h : Sound cfg s) (action : Correlator.Action)
    (hevent : ∀ ev, action ≠ .event ev) (htick : ∀ now, action ≠ .tick now) :
    Sound cfg { s with pipeline := Correlator.step cfg s.pipeline action } where
  balanced q := step_balanced cfg q s.pipeline action (h.balanced q)
  keyBalanced := step_keyBalanced cfg s.pipeline action h.keyBalanced
  accumulated := by
    rw [(Correlator.step_windower_frame cfg s.pipeline action hevent htick).2.2, h.accumulated]
  bucketed := h.bucketed

lemma Sound.windowerTick {cfg : Config} {s : State queueMax} (h : Sound cfg s) (now : Instant) :
    Sound cfg (windowerTick cfg s now) := by
  unfold RaisingTasks.windowerTick
  split
  · exact ⟨h.balanced, h.keyBalanced, h.accumulated, h.bucketed⟩
  · exact ⟨fun q => windowerTick_balanced cfg q _ _ (h.balanced q),
      windowerTick_keyBalanced cfg _ _ h.keyBalanced, h.accumulated, h.bucketed⟩

lemma Sound.windowerEvent {cfg : Config} {s : State queueMax} (h : Sound cfg s) {ev : FlowEvent}
    (hbucket : (bucketStart? cfg.windowS ev.ts).isSome) : Sound cfg (windowerEvent cfg s ev) := by
  obtain ⟨b, hb⟩ := Option.isSome_iff_exists.mp hbucket
  simp only [RaisingTasks.windowerEvent, hb]
  refine Sound.windowerTick ⟨fun q => accumulate_balanced cfg q _ _ (h.balanced q),
    accumulate_keyBalanced cfg _ _ h.keyBalanced, ?_, fun e he => ?_⟩ ev.ts
  · simp [h.accumulated]
  · rcases List.mem_append.mp he with he | he
    · exact h.bucketed e he
    · obtain rfl := List.mem_singleton.mp he
      exact hbucket

/-- A publisher that closes its bucket with flows that can be written does not raise. -/
lemma publisherGet_of_writable (iso : IsoText) {cfg : Config} {s : State queueMax}
    (h : closes s.pipeline → Writable (sourceLabel s.pipeline.aggregator (some s.pipeline.groups)
      cfg.groupBy s.pipeline.pending) (some s.pipeline.groups) s.pipeline.pending) :
    publisherGet iso cfg s = { s with pipeline := Correlator.publisherGet cfg s.pipeline } := by
  unfold publisherGet
  rw [if_neg]
  rintro ⟨hcloses, hnone⟩
  obtain ⟨delta, hdelta, hnone⟩ := (Option.any_eq_true _ _).mp hnone
  obtain ⟨current, _, hdelta⟩ := Option.bind_eq_some_iff.mp hdelta
  have hsome := serialize_publish iso _ _ current (h hcloses) delta hdelta
  simp [Option.isNone_iff_eq_none.mp hnone] at hsome

theorem Sound.step (iso : IsoText) {cfg : Config} {s : State queueMax} (h : Sound cfg s) (a : Action)
    (hsafe : Safe cfg s a) : Sound cfg (step iso cfg s a) := by
  cases a with
  | labelFailed =>
    simp only [RaisingTasks.step, labelFailed, if_neg hsafe]
    exact h
  | stage action =>
    cases action with
    | event ev =>
      simp only [RaisingTasks.step]
      split_ifs with hended
      · exact h
      · exact h.windowerEvent (hsafe.resolve_left hended)
    | tick now =>
      simp only [RaisingTasks.step]
      split_ifs
      · exact h
      · exact h.windowerTick now
    | labelTake =>
      simp only [RaisingTasks.step]
      split_ifs
      · exact h
      · exact h.stage .labelTake (fun _ => nofun) (fun _ => nofun)
    | publisherGet =>
      simp only [RaisingTasks.step]
      split_ifs with hended
      · exact h
      · rw [publisherGet_of_writable iso (hsafe.resolve_left hended)]
        exact h.stage .publisherGet (fun _ => nofun) (fun _ => nofun)
    | labelResolved candidate hit =>
      exact h.stage (.labelResolved candidate hit) (fun _ => nofun) (fun _ => nofun)
    | labelPut => exact h.stage .labelPut (fun _ => nofun) (fun _ => nofun)
    | demux => exact h.stage .demux (fun _ => nofun) (fun _ => nofun)
    | writerGet => exact h.stage .writerGet (fun _ => nofun) (fun _ => nofun)
    | reloadGroups rows => exact h.stage (.reloadGroups rows) (fun _ => nofun) (fun _ => nofun)
    | clearCache => exact h.stage .clearCache (fun _ => nofun) (fun _ => nofun)

/-- End-to-end conservation, for either builder and every mode: in a run in which every
event has a bucket, every delta can be written and the resolver does not raise, nothing is
lost at any point before a queue overflows. -/
theorem trafficConserved_of_safe (iso : IsoText) (cfg : Config)
    (aggregator : Option GroupAggregator) (actions : List Action)
    (h : Along (step iso cfg) (Safe cfg) (initial aggregator : State queueMax) actions) :
    Throughout (step iso cfg) (fun s => NoOverflow s.pipeline → Conserved cfg s)
      (initial aggregator : State queueMax) actions :=
  (throughout_of_along (I := Sound cfg) (fun _ a hs hsafe => hs.step iso a hsafe)
    (initial_sound cfg aggregator) h).mono fun _ hs => hs.conserved

instance (cfg : Config) (s : State queueMax) : ∀ a, Decidable (Safe cfg s a)
  | .stage (.event _) => inferInstanceAs (Decidable (_ ∨ _))
  | .stage .publisherGet => inferInstanceAs (Decidable (_ ∨ (_ → Writable _ _ _)))
  | .labelFailed => inferInstanceAs (Decidable (¬ _))
  | .stage (.tick _) | .stage .labelTake | .stage (.labelResolved _ _) | .stage .labelPut
  | .stage .demux | .stage .writerGet | .stage (.reloadGroups _) | .stage .clearCache =>
    isTrue trivial

/-- The second event for bucket 100 arrives after that bucket was emitted. -/
def lateEventRun : List Action :=
  List.map Action.stage <| [.event (sessionAt 100 443), .event (sessionAt 110 443),
    .event (sessionAt 101 443), .event (sessionAt 120 443)] ++ deliver ++ deliver ++ deliver

/-- On the run with a late event both halves of bucket 100 end up in one delta. -/
theorem trafficConserved_of_safe_lateEvent :
    let start : State 10000 := initial (some defaultAggregator)
    let s := run (step epochIso fiveSecondGroups) start lateEventRun
    NoOverflow s.pipeline ∧ builtTotal .bytes s.pipeline = 20 ∧
      (s.consumed.map FlowEvent.bytes).sum = 40 ∧
      Throughout (step epochIso fiveSecondGroups)
        (fun s => NoOverflow s.pipeline → Conserved fiveSecondGroups s) start lateEventRun :=
  ⟨by decide +kernel, by decide +kernel, by decide +kernel,
    trafficConserved_of_safe epochIso fiveSecondGroups _ lateEventRun (by decide +kernel)⟩

/-! ## A sum of two long numbers -/

/-- A session with the largest number of bytes that a log line can state. -/
def hugeSession (ts : ℤ) : FlowEvent := { sessionAt ts 443 with bytes := 10 ^ 4300 - 1 }

/-- The first window holds two such sessions, one session of a third window stays open,
and the flow of the second one waits for the publisher. -/
def hugePrefix : List Action :=
  List.map Action.stage <| [.event (hugeSession 100), .event (hugeSession 101),
    .event (sessionAt 110 443), .event (sessionAt 120 443)] ++ deliver ++ deliver.dropLast

def hugeRun : List Action := hugePrefix ++ [.stage .publisherGet]

/-- A publisher whose delta has too long a number ends. -/
lemma step_publisherGet_of_not_short (iso : IsoText) {cfg : Config} {s : State queueMax}
    (hrunning : s.publisherEnded = false) (hcloses : closes s.pipeline)
    (hlong : (pendingDelta cfg s.pipeline).any fun d => ¬ ∀ n ∈ numbers d, Short n) :
    step iso cfg s (.stage .publisherGet) =
      { s with
        pipeline := { Correlator.publisherGet cfg s.pipeline with pending := [] }
        publisherEnded := true } := by
  have hnone : (pendingDelta cfg s.pipeline).any fun d => (DeltaWire.serialize iso d).isNone := by
    obtain ⟨delta, hdelta, hnot⟩ := (Option.any_eq_true _ _).mp hlong
    refine (Option.any_eq_true _ _).mpr ⟨delta, hdelta, ?_⟩
    rw [Option.isNone_iff_eq_none, ← Option.not_isSome_iff_eq_none, serialize_isSome_iff]
    exact of_decide_eq_true hnot
  simp only [step, hrunning, Bool.false_eq_true, if_false, publisherGet, hcloses, hnone, and_self,
    if_true]

/-- The publisher ends with the flow of the second window in hand: of four events, two are
in a delta and one is in an open accumulator. -/
theorem hugeRun_loses_flow :
    ¬ Throughout (step epochIso fiveSecondGroups)
      (fun s => NoOverflow s.pipeline → Conserved fiveSecondGroups s)
      (initial (some defaultAggregator) : State 10000) hugeRun := by
  intro h
  have hlast := h.last
  rw [hugeRun, run_append, run_cons, run_nil, step_publisherGet_of_not_short epochIso
    (by decide +kernel) (by decide +kernel) (by decide +kernel)] at hlast
  exact absurd ((hlast (by decide +kernel)).total .flows) (by decide +kernel)

end FlowDiscovery.RaisingTasks
