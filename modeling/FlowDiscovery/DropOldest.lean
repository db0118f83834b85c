import FlowDiscovery.Correlator
import FlowDiscovery.FlowIngest
import FlowDiscovery.QueueHistory

/-!
# The drop-oldest queues of the program

The syslog receiver, the windower and the demultiplexer each write out the same
retry: put, on a full queue take the oldest item out, put again. Each of them is
followed here together with its consumers, which get at any time, and what
happens to its queue is an action on the history of a queue.
-/
namespace FlowDiscovery.DropOldest
open Machine FlowIngest FlowWindower PyTime

/-- A producer and what the consumers of its queue got so far. -/
structure Tapped (σ α : Type*) where
  producer : σ
  got : List α

variable {maxsize : ℕ}

/-! ## The syslog receiver -/

abbrev ReceiverState (maxsize : ℕ) := Tapped (Ingest maxsize) Message

def receiverStart : ReceiverState maxsize := ⟨FlowIngest.initial, []⟩

def receiverHistory (s : ReceiverState maxsize) : QueueHistory Message maxsize where
  queue := s.producer.queue
  pushed := s.producer.enqueued
  got := s.got
  evicted := s.producer.evicted

/-- A message arrives, or some task completes its `queue.get`. -/
def receiverStep (s : ReceiverState maxsize) : QueueHistory.Action Message → ReceiverState maxsize
  | .push m => { s with producer := enqueue s.producer m }
  | .get =>
    match s.producer.queue.getNowait with
    | none => s
    | some (m, q) => ⟨{ s.producer with queue := q }, s.got ++ [m]⟩

theorem receiverHistory_step (s : ReceiverState maxsize) (a : QueueHistory.Action Message) :
    receiverHistory (receiverStep s a) = (receiverHistory s).step a := by
  cases a with
  | push m => rfl
  | get =>
    simp only [receiverStep, QueueHistory.step, QueueHistory.get, receiverHistory]
    cases s.producer.queue.getNowait with
    | none => rfl
    | some p => rfl

/-- The drop counter of the receiver counts its evictions. -/
def DropsCounted (s : ReceiverState maxsize) : Prop :=
  s.producer.backpressureDrops = s.producer.evicted.length

theorem receiverStep_dropsCounted {s : ReceiverState maxsize} (h : DropsCounted s)
    (a : QueueHistory.Action Message) : DropsCounted (receiverStep s a) := by
  rw [DropsCounted] at h ⊢
  cases a with
  | push m =>
    by_cases hfull : s.producer.queue.Full
    · obtain ⟨_, _, _, _, he, hw⟩ := s.producer.queue.putDropOldest_of_full m hfull
      simp [receiverStep, enqueue, he, hw, h]
    · obtain ⟨_, he, hw⟩ := s.producer.queue.putDropOldest_of_not_full m hfull
      simp [receiverStep, enqueue, he, hw, h]
  | get =>
    unfold receiverStep
    cases s.producer.queue.getNowait with
    | none => exact h
    | some p => exact h

theorem receiver_dropsCounted (accesses : List (QueueHistory.Action Message)) :
    DropsCounted (run receiverStep (receiverStart : ReceiverState maxsize) accesses) := by
  apply run_invariant (I := DropsCounted)
  · exact fun s a h => receiverStep_dropsCounted h a
  · rfl

/-- The adapters of the ingest service are consumers of this kind. -/
theorem adapterGet_history (a : FlowAdapter) (now : Instant) (s : ReceiverState maxsize) :
    ∃ got, receiverHistory ⟨adapterGet a now s.producer, got⟩ = (receiverHistory s).get := by
  unfold adapterGet QueueHistory.get
  simp only [receiverHistory]
  cases s.producer.queue.getNowait with
  | none => exact ⟨s.got, rfl⟩
  | some p =>
    refine ⟨s.got ++ [p.1], ?_⟩
    dsimp only
    cases a.handle now p.1 with
    | none => rfl
    | some ev => rfl

/-! ## The windower -/

abbrev OutletState (maxsize : ℕ) := Tapped (Outlet maxsize) WindowedFlow

def outletStart : OutletState maxsize := ⟨⟨.empty, 0, [], []⟩, []⟩

def outletHistory (s : OutletState maxsize) : QueueHistory WindowedFlow maxsize where
  queue := s.producer.out
  pushed := s.producer.pushed
  got := s.got
  evicted := s.producer.evicted

/-- One accumulator is pushed, a flush that pushed something ends, or the consumer
completes its `get`. -/
inductive OutletAction where
  | push (bucket : Instant) (entry : FlowKey × FlowAcc)
  | flushed
  | get

def outletStep (windowS : ℕ) (s : OutletState maxsize) : OutletAction → OutletState maxsize
  | .push bucket entry => { s with producer := push windowS bucket s.producer entry }
  | .flushed => { s with producer := { s.producer with dropped := 0 } }
  | .get =>
    match s.producer.out.getNowait with
    | none => s
    | some (wf, q) => ⟨{ s.producer with out := q }, s.got ++ [wf]⟩

/-- The history pushes the flow that carries the drop counter of the moment. -/
theorem outletHistory_step (windowS : ℕ) (s : OutletState maxsize) (a : OutletAction) :
    (outletHistory s).Advances (outletHistory (outletStep windowS s a)) := by
  cases a with
  | push bucket entry =>
    exact .inr ⟨.push (flowOf windowS s.producer.dropped bucket entry.1 entry.2), rfl⟩
  | flushed => exact .inl rfl
  | get =>
    refine .inr ⟨.get, ?_⟩
    simp only [outletStep, QueueHistory.step, QueueHistory.get, outletHistory]
    cases s.producer.out.getNowait with
    | none => rfl
    | some p => rfl

/-- The accumulators that `_emit_ready` pushes, and the reset that ends the flush. -/
def OutletAction.OfFlush : OutletAction → Prop
  | .get => False
  | _ => True

lemma emitBucket_run (windowS : ℕ) (st : Buckets × Outlet maxsize) (bucket : Instant)
    (got : List WindowedFlow) :
    ∃ actions : List OutletAction, (∀ a ∈ actions, a.OfFlush) ∧
      run (outletStep windowS) ⟨st.2, got⟩ actions = ⟨(emitBucket windowS st bucket).2, got⟩ := by
  unfold emitBucket
  cases st.1.get? bucket with
  | none => exact ⟨[], by simp, rfl⟩
  | some slot =>
    refine ⟨slot.entries.map fun e => .push bucket e, ?_, ?_⟩
    · intro a ha
      obtain ⟨e, _, rfl⟩ := List.mem_map.mp ha
      trivial
    dsimp only
    generalize st.2 = o
    induction slot.entries generalizing o with
    | nil => rfl
    | cons e rest ih => exact ih (push windowS bucket o e)

/-- A flush of the windower is a stretch of such actions without a get. -/
theorem emitReady_run (windowS : ℕ) (now : Instant) (st : Buckets × Outlet maxsize)
    (got : List WindowedFlow) :
    ∃ actions : List OutletAction, (∀ a ∈ actions, a.OfFlush) ∧
      run (outletStep windowS) ⟨st.2, got⟩ actions = ⟨(emitReady windowS now st).2, got⟩ := by
  have hbuckets : ∀ (ready : List Instant) (st : Buckets × Outlet maxsize),
      ∃ actions : List OutletAction, (∀ a ∈ actions, a.OfFlush) ∧
        run (outletStep windowS) ⟨st.2, got⟩ actions =
          ⟨(ready.foldl (emitBucket windowS) st).2, got⟩ := by
    intro ready
    induction ready with
    | nil => exact fun st => ⟨[], by simp, rfl⟩
    | cons b rest ih =>
      intro st
      obtain ⟨first, hfirst, hrun⟩ := emitBucket_run windowS st b got
      obtain ⟨others, hothers, hrest⟩ := ih (emitBucket windowS st b)
      refine ⟨first ++ others, ?_, ?_⟩
      · intro a ha
        exact (List.mem_append.mp ha).elim (hfirst a) (hothers a)
      · rw [run_append, hrun, hrest, List.foldl_cons]
  obtain ⟨actions, hall, hrun⟩ := hbuckets (readyBuckets windowS st.1 now) st
  unfold emitReady
  dsimp only
  split_ifs with hready
  · exact ⟨actions, hall, hrun⟩
  · refine ⟨actions ++ [.flushed], ?_, ?_⟩
    · intro a ha
      rcases List.mem_append.mp ha with ha | ha
      · exact hall a ha
      · rw [List.mem_singleton.mp ha]
        trivial
    · rw [run_append, hrun]
      rfl

/-! ## The demultiplexer -/

/-- One of the queues given to `_demux`, of its own capacity. -/
structure Destination where
  maxsize : ℕ
  pos : 1 ≤ maxsize
  history : QueueHistory LabelledFlow maxsize

namespace Destination

def put (d : Destination) (item : LabelledFlow) : Destination :=
  { d with history := d.history.push item }

def get (d : Destination) : Destination := { d with history := d.history.get }

/-- The destination after its own pushes and gets. -/
def after (d : Destination) (actions : List (QueueHistory.Action LabelledFlow)) : Destination :=
  { d with history := run QueueHistory.step d.history actions }

end Destination

/-- An item is taken from the source queue, or a consumer of one destination
completes its `get`. -/
inductive DemuxAction where
  | item (item : LabelledFlow)
  | get (dst : ℕ)

/-- The body of `_demux` for one item goes through all destinations without
suspending. -/
def demuxStep (dsts : List Destination) : DemuxAction → List Destination
  | .item item => dsts.map fun d => d.put item
  | .get dst => dsts.modify dst Destination.get

/-- What concerns one destination. -/
def seenBy (dst : ℕ) (actions : List DemuxAction) : List (QueueHistory.Action LabelledFlow) :=
  actions.filterMap fun
    | .item item => some (.push item)
    | .get i => if i = dst then some .get else none

/-- Each destination goes its own way. -/
theorem getElem?_run_demux (dsts : List Destination) (actions : List DemuxAction) (dst : ℕ) :
    (run demuxStep dsts actions)[dst]? = dsts[dst]?.map fun d => d.after (seenBy dst actions) := by
  induction actions generalizing dsts with
  | nil =>
    have hid : (fun d : Destination => d.after (seenBy dst [])) = id := rfl
    rw [hid, Option.map_id]
    rfl
  | cons a rest ih =>
    rw [run_cons, ih]
    cases a with
    | item item =>
      simp only [demuxStep, List.getElem?_map, Option.map_map]
      rfl
    | get i =>
      rw [demuxStep, List.getElem?_modify]
      by_cases hi : i = dst
      · have hseen : seenBy dst (.get i :: rest) = .get :: seenBy dst rest := by simp [seenBy, hi]
        rw [hseen]
        cases dsts[dst]? with
        | none => rfl
        | some d => simp only [hi, if_true]; rfl
      · have hseen : seenBy dst (.get i :: rest) = seenBy dst rest := by simp [seenBy, hi]
        rw [hseen]
        cases dsts[dst]? with
        | none => rfl
        | some d => simp only [hi, if_false]; rfl

/-- Empty queues of the given capacities. -/
def demuxStart (sizes : List {n : ℕ // 1 ≤ n}) : List Destination :=
  sizes.map fun n => ⟨n.1, n.2, .fresh⟩

lemma demux_balanced (sizes : List {n : ℕ // 1 ≤ n}) (actions : List DemuxAction) :
    ∀ d ∈ run demuxStep (demuxStart sizes) actions, d.history.Balanced := by
  intro d hd
  obtain ⟨dst, hdst⟩ := List.mem_iff_getElem?.mp hd
  rw [getElem?_run_demux, demuxStart, List.getElem?_map, Option.map_map] at hdst
  obtain ⟨n, _, rfl⟩ := Option.map_eq_some_iff.mp hdst
  exact run_invariant (I := QueueHistory.Balanced)
    (fun _ a h => QueueHistory.step_balanced n.2 h a) QueueHistory.fresh_balanced _

lemma demuxStep_evictsOldest {dsts : List Destination} (a : DemuxAction) {dst : ℕ}
    {d d' : Destination} (hd : dsts[dst]? = some d) (hd' : (demuxStep dsts a)[dst]? = some d') :
    d.history.EvictsOldest d'.history := by
  have hone := getElem?_run_demux dsts [a] dst
  rw [run_cons, run_nil, hd', hd, Option.map_some, Option.some.injEq] at hone
  rw [hone]
  cases a with
  | item item => exact QueueHistory.push_evictsOldest d.pos d.history item
  | get i =>
    by_cases hi : i = dst
    · have hseen : seenBy dst [.get i] = [.get] := by simp [seenBy, hi]
      rw [hseen]
      exact d.history.get_evictsOldest
    · have hseen : seenBy dst [.get i] = [] := by simp [seenBy, hi]
      rw [hseen]
      exact .inl rfl

/-- The two queues of the running program are two destinations. -/
theorem demux_history (s : Correlator.State maxsize) (item : LabelledFlow)
    (rest : BoundedQueue LabelledFlow maxsize) (h : s.intermediate.getNowait = some (item, rest))
    (writer sankey : QueueHistory LabelledFlow maxsize) (hw : writer.queue = s.writerQueue)
    (hs : sankey.queue = s.sankeyQueue) :
    (Correlator.demux s).writerQueue = (writer.push item).queue ∧
      (Correlator.demux s).sankeyQueue = (sankey.push item).queue := by
  unfold Correlator.demux
  rw [h]
  simp only [QueueHistory.push, hw, hs, and_self]

/-! ## All three -/

/-- In every interleaving of pushes and gets, the queue of the receiver, the one of the
windower and every destination of the demultiplexer stay within their capacity, keep
what was got and what is queued in the order of the pushes, evict only the oldest item
of a full queue and account for every item; the receiver's counter is the number of its
evictions, and what happens to one destination is decided by the items and its own
consumer. -/
theorem dropOldest_keeps_newest (maxsize : ℕ) (hpos : 1 ≤ maxsize) :
    (∀ accesses : List (QueueHistory.Action Message),
      let s := run receiverStep (receiverStart : ReceiverState maxsize) accesses
      (receiverHistory s).Balanced ∧
        (∀ a, (receiverHistory s).EvictsOldest (receiverHistory (receiverStep s a))) ∧
        s.producer.backpressureDrops = (receiverHistory s).evicted.length) ∧
    (∀ (windowS : ℕ) (actions : List OutletAction),
      let s := run (outletStep windowS) (outletStart : OutletState maxsize) actions
      (outletHistory s).Balanced ∧
        ∀ a, (outletHistory s).EvictsOldest (outletHistory (outletStep windowS s a))) ∧
    (∀ (sizes : List {n : ℕ // 1 ≤ n}) (actions : List DemuxAction),
      let dsts := run demuxStep (demuxStart sizes) actions
      (∀ d ∈ dsts, d.history.Balanced) ∧
        ∀ (a : DemuxAction) (dst : ℕ) (d d' : Destination), dsts[dst]? = some d →
          (demuxStep dsts a)[dst]? = some d' → d.history.EvictsOldest d'.history) ∧
    (∀ (dsts dsts' : List Destination) (actions actions' : List DemuxAction) (dst : ℕ),
      dsts[dst]? = dsts'[dst]? → seenBy dst actions = seenBy dst actions' →
        (run demuxStep dsts actions)[dst]? = (run demuxStep dsts' actions')[dst]?) := by
  refine ⟨?_, ?_, ?_, ?_⟩
  · intro accesses
    obtain ⟨hbalanced, hevicts⟩ := QueueHistory.run_balanced (s := receiverStart) hpos
      (fun s a => .inr ⟨a, receiverHistory_step s a⟩) QueueHistory.fresh_balanced accesses
    exact ⟨hbalanced, hevicts, receiver_dropsCounted accesses⟩
  · intro windowS actions
    exact QueueHistory.run_balanced (s := outletStart) hpos (outletHistory_step windowS)
      QueueHistory.fresh_balanced actions
  · intro sizes actions
    exact ⟨demux_balanced sizes actions, fun a dst d d' hd hd' => demuxStep_evictsOldest a hd hd'⟩
  · intro dsts dsts' actions actions' dst hstart hseen
    rw [getElem?_run_demux, getElem?_run_demux, hstart, hseen]

def peerMessage (line : String) : Message := ("10.10.0.11", line)

/-- An application flow of nobody in particular. -/
def portFlow (bucketStart : Instant) : LabelledFlow :=
  Correlator.labelFlow
    ⟨bucketStart, 5, "10.0.0.5", "198.51.100.7", 443, 6, 10, 1, 1, none, none, none, false, 0⟩
    ⟨.port, "tcp/443", none⟩ (unknownUser, ∅)

/-- Five lines into a queue of two with one get in between, and two destinations of
which only the first has a consumer. -/
theorem dropOldest_keeps_newest_two :
    let accesses := [.push (peerMessage "m0"), .push (peerMessage "m1"), .push (peerMessage "m2"),
      .get, .push (peerMessage "m3"), .push (peerMessage "m4")]
    let s := run receiverStep (receiverStart : ReceiverState 2) accesses
    let shared := [DemuxAction.item (portFlow 0), .get 0, .item (portFlow 5), .get 0]
    let alone := [DemuxAction.item (portFlow 0), .item (portFlow 5)]
    (s.got = [peerMessage "m1"] ∧
      s.producer.queue.items = [peerMessage "m3", peerMessage "m4"] ∧
      s.producer.backpressureDrops = 2) ∧
    (receiverHistory s).Balanced ∧
    (run demuxStep (demuxStart [⟨1, le_rfl⟩, ⟨1, le_rfl⟩]) shared)[1]? =
      (run demuxStep (demuxStart [⟨7, by omega⟩, ⟨1, le_rfl⟩]) alone)[1]? := by
  obtain ⟨hreceiver, _, _, hdemux⟩ := dropOldest_keeps_newest 2 (by omega)
  refine ⟨by decide, (hreceiver _).1, ?_⟩
  exact hdemux _ _ _ _ 1 rfl rfl

end FlowDiscovery.DropOldest
