import FlowDiscovery.Correlator

/-!
# What the loss counters account for

The windower stamps each flow with the number of evictions so far in the same
flush and starts over at the next one; the demultiplexer evicts without
counting. The deltas account for every eviction exactly as long as the
demultiplexer never finds the publisher's queue full and the stamps that survive
a flush grow by the number of flows it evicts. A flush that fits meets this; one
that overflows by a single flow never does.
-/
namespace FlowDiscovery.FlowWindower
open PyTime

variable {queueMax : ℕ}

/-! ## A flush as a list of pushes -/

/-- One accumulator of a bucket that a flush emits. -/
abbrev ReadyFlow := Instant × FlowKey × FlowAcc

/-- The accumulators a flush emits, in the order of their pushes. -/
def readyFlows (windowS : ℕ) (buckets : Buckets) (now : Instant) : List ReadyFlow :=
  (readyBuckets windowS buckets now).flatMap fun b =>
    (buckets.getD b .empty).entries.map fun e => (b, e)

def pushReady (windowS : ℕ) (o : Outlet queueMax) (e : ReadyFlow) : Outlet queueMax :=
  push windowS e.1 o e.2

theorem foldl_emitBucket_outlet (windowS : ℕ) (ready : List Instant) (hnodup : ready.Nodup)
    (st : Buckets × Outlet queueMax) :
    (ready.foldl (emitBucket windowS) st).2 =
      (ready.flatMap fun b => (st.1.getD b .empty).entries.map fun e => (b, e)).foldl
        (pushReady windowS) st.2 := by
  induction ready generalizing st with
  | nil => rfl
  | cons b rest ih =>
    obtain ⟨hb, hrest⟩ := List.nodup_cons.mp hnodup
    have hstep : (emitBucket windowS st b).2 =
        ((st.1.getD b .empty).entries.map fun e => (b, e)).foldl (pushReady windowS) st.2 := by
      unfold emitBucket
      cases hg : st.1.get? b with
      | none => simp [Dict.getD, hg, Dict.empty]
      | some slot => simp [Dict.getD, hg, List.foldl_map, pushReady]
    have hslots : ∀ b' ∈ rest, (emitBucket windowS st b).1.getD b' .empty =
        st.1.getD b' .empty := by
      intro b' hb'
      have hne : b ≠ b' := fun h => hb (h ▸ hb')
      unfold emitBucket
      cases hg : st.1.get? b with
      | none => rfl
      | some slot => simp [Dict.getD, Dict.get?_erase, hne]
    rw [List.foldl_cons, ih hrest, hstep, List.flatMap_cons, List.foldl_append]
    congr 1
    exact List.flatMap_congr fun b' hb' => by rw [hslots b' hb']

theorem readyBuckets_nodup (windowS : ℕ) (buckets : Buckets) (now : Instant) :
    (readyBuckets windowS buckets now).Nodup := by
  have hperm := List.perm_insertionSort (· ≤ ·)
    (buckets.keys.filter fun b => b ≤ bucketStart windowS now - seconds windowS)
  exact hperm.nodup_iff.mpr (buckets.nodup.filter _)

/-- A flush pushes the ready flows one after the other and clears the counter. -/
theorem emitReady_outlet (windowS : ℕ) (now : Instant) (st : Buckets × Outlet queueMax)
    (hdropped : st.2.dropped = 0) :
    (emitReady windowS now st).2 =
      { (readyFlows windowS st.1 now).foldl (pushReady windowS) st.2 with dropped := 0 } := by
  have h := foldl_emitBucket_outlet windowS _ (readyBuckets_nodup windowS st.1 now) st
  unfold emitReady
  dsimp only
  split_ifs with hr
  · simp only [readyFlows, hr, List.foldl_nil, List.flatMap_nil, ← hdropped]
  · rw [h]
    rfl

/-! ## Stamps of a flush -/

/-- Free slots of the queue; an unbounded one has room for all `n` pushes. -/
def freeSlots (out : BoundedQueue WindowedFlow queueMax) (n : ℕ) : ℕ :=
  if queueMax = 0 then n else queueMax - out.items.length

/-- Number of flows by which `n` pushes exceed the capacity. -/
def overflow (out : BoundedQueue WindowedFlow queueMax) (n : ℕ) : ℕ := n - freeSlots out n

/-- Stamps of `n` flows pushed by a flush that starts with `free` free slots:
the first pushes fit, then each further one sees one more eviction. -/
def flushStamps (free n : ℕ) : List ℕ := (List.range n).map fun i => i - free

theorem flushStamps_succ (free n : ℕ) :
    flushStamps free (n + 1) = 0 :: (List.range n).map fun i => i + 1 - free := by
  simp [flushStamps, List.range_succ_eq_map, Function.comp_def]

/-- What pushing `n` flows does to an outlet: the flows join the queue with the
counter plus the flush stamps, and the overflow leaves at the front. -/
structure Pushes (o : Outlet queueMax) (n : ℕ) (o' : Outlet queueMax) (new : List WindowedFlow) :
    Prop where
  queue_eq : o'.evicted ++ o'.out.items = o.evicted ++ o.out.items ++ new
  evicted_length : o'.evicted.length = o.evicted.length + overflow o.out n
  dropped_eq : o'.dropped = o.dropped + overflow o.out n
  stamps_eq : new.map WindowedFlow.droppedCount =
    (flushStamps (freeSlots o.out n) n).map (o.dropped + ·)
  lossy_iff : ∀ wf ∈ new, wf.lossy = decide (0 < wf.droppedCount)

theorem Pushes.single (windowS : ℕ) (o : Outlet queueMax) (e : ReadyFlow) :
    Pushes o 1 (pushReady windowS o e) [flowOf windowS o.dropped e.1 e.2.1 e.2.2] := by
  have hq := push_queue windowS e.1 o e.2
  have hstamp : [flowOf windowS o.dropped e.1 e.2.1 e.2.2].map WindowedFlow.droppedCount =
      (flushStamps (freeSlots o.out 1) 1).map (o.dropped + ·) := by
    simp [flushStamps, flowOf]
  have hover : ((o.out.putDropOldest
      (flowOf windowS o.dropped e.1 e.2.1 e.2.2)).evicted.toList.length = overflow o.out 1) ∧
      ((if (o.out.putDropOldest (flowOf windowS o.dropped e.1 e.2.1 e.2.2)).wasFull then 1 else 0) =
        overflow o.out 1) := by
    by_cases hf : o.out.Full
    · obtain ⟨old, rest, hi, _, he, hw⟩ := o.out.putDropOldest_of_full
        (flowOf windowS o.dropped e.1 e.2.1 e.2.2) hf
      have hone : overflow o.out 1 = 1 := by
        have hb := o.out.bounded.resolve_left hf.1
        have hl := hf.2
        rw [overflow, freeSlots, if_neg hf.1]
        omega
      simp [he, hw, hone]
    · obtain ⟨_, he, hw⟩ := o.out.putDropOldest_of_not_full
        (flowOf windowS o.dropped e.1 e.2.1 e.2.2) hf
      have hzero : overflow o.out 1 = 0 := by
        unfold overflow freeSlots
        split_ifs with h0
        · rfl
        · have hl : ¬ queueMax ≤ o.out.items.length := fun hl => hf ⟨h0, hl⟩
          omega
      simp [he, hw, hzero]
  refine ⟨hq, ?_, ?_, hstamp, ?_⟩
  · simp only [pushReady, push, List.length_append]
    rw [hover.1]
  · simp only [pushReady, push]
    rw [hover.2]
  · intro wf hwf
    obtain rfl := List.mem_singleton.mp hwf
    rfl

theorem Pushes.length_eq {o o' : Outlet queueMax} {n : ℕ} {new : List WindowedFlow}
    (h : Pushes o n o' new) (hn : new.length = n) :
    o'.out.items.length + overflow o.out n = o.out.items.length + n := by
  have hl := congrArg List.length h.queue_eq
  simp only [List.length_append, h.evicted_length, hn] at hl
  omega

/-- Pushes compose: once the queue is full, the second batch is stamped from the
advanced counter. -/
theorem Pushes.trans {o₁ o₂ o₃ : Outlet queueMax} {n : ℕ} {new₁ new₂ : List WindowedFlow}
    (h₁ : Pushes o₁ 1 o₂ new₁) (hn₁ : new₁.length = 1) (h₂ : Pushes o₂ n o₃ new₂)
    (hn₂ : new₂.length = n) : Pushes o₁ (n + 1) o₃ (new₁ ++ new₂) := by
  have hlen := h₁.length_eq hn₁
  have hb := o₁.out.bounded
  have hfree : ∀ i, i - freeSlots o₂.out n + overflow o₁.out 1 =
      i + 1 - freeSlots o₁.out (n + 1) ∨ n ≤ i := by
    intro i
    unfold overflow freeSlots at hlen ⊢
    split_ifs at hlen ⊢ with h0
    · omega
    · have hb' := hb.resolve_left h0
      omega
  have hover : overflow o₁.out (n + 1) = overflow o₁.out 1 + overflow o₂.out n := by
    unfold overflow freeSlots at hlen ⊢
    split_ifs at hlen ⊢ with h0
    · omega
    · have hb' := hb.resolve_left h0
      omega
  constructor
  case queue_eq => rw [h₂.queue_eq, h₁.queue_eq, List.append_assoc]
  case evicted_length => rw [h₂.evicted_length, h₁.evicted_length, hover, Nat.add_assoc]
  case dropped_eq => rw [h₂.dropped_eq, h₁.dropped_eq, hover, Nat.add_assoc]
  case stamps_eq =>
    have hone : flushStamps (freeSlots o₁.out 1) 1 = [0] := by simp [flushStamps]
    rw [List.map_append, h₁.stamps_eq, h₂.stamps_eq, hone, flushStamps_succ _ n, h₁.dropped_eq]
    simp only [flushStamps, List.map_cons, List.map_nil, List.map_map, List.singleton_append]
    refine congrArg₂ List.cons rfl (List.map_congr_left fun i hi => ?_)
    have hi' := List.mem_range.mp hi
    have hfi := hfree i
    simp only [Function.comp_apply]
    omega
  case lossy_iff =>
    intro wf hwf
    exact (List.mem_append.mp hwf).elim (h₁.lossy_iff wf) (h₂.lossy_iff wf)

theorem foldl_pushReady (windowS : ℕ) (flows : List ReadyFlow) (o : Outlet queueMax) :
    ∃ new, new.length = flows.length ∧
      Pushes o flows.length (flows.foldl (pushReady windowS) o) new := by
  induction flows generalizing o with
  | nil =>
    exact ⟨[], rfl, by simp, by simp [overflow], by simp [overflow], rfl, by simp⟩
  | cons e rest ih =>
    obtain ⟨new, hn, h⟩ := ih (pushReady windowS o e)
    exact ⟨_, by simp [hn], (Pushes.single windowS o e).trans rfl h hn⟩

end FlowDiscovery.FlowWindower

namespace FlowDiscovery.Correlator
open PyTime FlowWindower SankeyPublisher Machine

variable {queueMax : ℕ}

/-! ## Flows on the way to the publisher -/

/-- Loss flag and stamp that a flow carries through the stages. -/
structure Mark where
  lossy : Bool
  dropped : ℕ

def markWindowed (wf : WindowedFlow) : Mark := ⟨wf.lossy, wf.droppedCount⟩

def markLabelled (lf : LabelledFlow) : Mark := ⟨lf.lossy, lf.droppedCount⟩

def labellerMarks : Labeller → List Mark
  | .idle => []
  | .resolving wf => [markWindowed wf]
  | .putting lf => [markLabelled lf]

/-- Marks of the flows that have left the windower's queue, oldest first. -/
def beyondWindower (s : State queueMax) : List Mark :=
  s.pending.map markLabelled ++ (s.sankeyQueue.items.map markLabelled ++
    (s.intermediate.items.map markLabelled ++ labellerMarks s.labeller))

/-- Marks of all flows between the windower and the next delta, oldest first. -/
def inFlight (s : State queueMax) : List Mark :=
  beyondWindower s ++ s.outlet.out.items.map markWindowed

def stampTotal (marks : List Mark) : ℕ := (marks.map Mark.dropped).sum

@[simp] theorem stampTotal_append (l₁ l₂ : List Mark) :
    stampTotal (l₁ ++ l₂) = stampTotal l₁ + stampTotal l₂ := by simp [stampTotal]

theorem stampTotal_windowed (flows : List WindowedFlow) :
    stampTotal (flows.map markWindowed) = (flows.map WindowedFlow.droppedCount).sum := by
  simp [stampTotal, markWindowed, Function.comp_def]

theorem stampTotal_labelled (flows : List LabelledFlow) :
    stampTotal (flows.map markLabelled) = (flows.map LabelledFlow.droppedCount).sum := by
  simp [stampTotal, markLabelled, Function.comp_def]

/-- Sum of `dropped_count` over all deltas. -/
def publishedStamps (s : State queueMax) : ℕ :=
  (s.published.map fun p => p.delta.droppedCount).sum

/-- Flows evicted by the drop-oldest pushes on the way to the publisher. -/
def evictedCount (s : State queueMax) : ℕ := s.outlet.evicted.length + s.evictedSankey.length

/-- The deltas together with the stamps still on the way add up to the evictions;
once no stamp is on the way, the deltas alone do. -/
def Accounted (s : State queueMax) : Prop :=
  publishedStamps s + stampTotal (inFlight s) = evictedCount s

/-- The stamps that survive `n` pushes exceed the stamps queued before by exactly
the number of flows pushed out. -/
def FlushExact (out : BoundedQueue WindowedFlow queueMax) (n : ℕ) : Prop :=
  ((out.items.map WindowedFlow.droppedCount ++
    flushStamps (freeSlots out n) n).drop (overflow out n)).sum =
    (out.items.map WindowedFlow.droppedCount).sum + overflow out n

instance (out : BoundedQueue WindowedFlow queueMax) (n : ℕ) : Decidable (FlushExact out n) :=
  inferInstanceAs (Decidable (_ = _))

/-- The stamps of a flush go on from the first eviction: zero, one, two and so on. -/
theorem flushStamps_sum (free n : ℕ) : (flushStamps free n).sum = (n - free).choose 2 := by
  induction n with
  | zero => simp [flushStamps]
  | succ n ih =>
    have hlast : (flushStamps free (n + 1)).sum = (flushStamps free n).sum + (n - free) := by
      simp [flushStamps, List.range_succ]
    rw [hlast, ih]
    by_cases hfree : free ≤ n
    · rw [Nat.succ_sub hfree, Nat.choose_succ_succ', Nat.choose_one_right, Nat.add_comm]
    · have hnone : n - free = 0 := by omega
      have hstill : n + 1 - free = 0 := by omega
      rw [hnone, hstill, Nat.add_zero]

theorem flushStamps_take (free n m : ℕ) :
    (flushStamps free n).take m = flushStamps free (min m n) := by
  rw [flushStamps, flushStamps, ← List.map_take, List.take_range]

/-- With `k` flows pushed out, the flows of the flush are stamped with `0` to `k - 1`
after the zeros. What they add must make up for the `k` flows, for the stamps of the
oldest flows in the queue, and for the stamps of those flows of the flush that are pushed
out in the same flush. -/
theorem flushExact_iff_choose (out : BoundedQueue WindowedFlow queueMax) (n : ℕ) :
    FlushExact out n ↔
      (overflow out n).choose 2 = overflow out n +
        ((out.items.map WindowedFlow.droppedCount).take (overflow out n)).sum +
        (overflow out n - queueMax).choose 2 := by
  have hall := List.sum_take_add_sum_drop
    (out.items.map WindowedFlow.droppedCount ++ flushStamps (freeSlots out n) n) (overflow out n)
  have hgone : min (overflow out n - out.items.length) n - freeSlots out n =
      overflow out n - queueMax := by
    have hb := out.bounded
    unfold overflow freeSlots
    split_ifs with h0
    · omega
    · have hb' := hb.resolve_left h0
      omega
  rw [List.take_append, List.sum_append, List.sum_append, List.length_map, flushStamps_take,
    flushStamps_sum, flushStamps_sum, hgone] at hall
  have hover : n - freeSlots out n = overflow out n := rfl
  rw [hover] at hall
  unfold FlushExact
  omega

/-- A flush that fits is exact. -/
theorem flushExact_of_fits (out : BoundedQueue WindowedFlow queueMax) (n : ℕ)
    (h : overflow out n = 0) : FlushExact out n := by
  simp [flushExact_iff_choose, h]

/-- A flush that evicts a single flow is never exact: no flow is left to carry
the count. -/
theorem not_flushExact_of_overflow_one (out : BoundedQueue WindowedFlow queueMax) (n : ℕ)
    (h : overflow out n = 1) : ¬ FlushExact out n := by
  rw [flushExact_iff_choose, h]
  have hnone : Nat.choose 1 2 = 0 := rfl
  omega

/-- The condition on the state before an action: flushes are exact, and the
demultiplexer finds room in the publisher's queue. -/
def CountsEvictions (cfg : Config) (s : State queueMax) : Action → Prop
  | .event ev =>
    FlushExact s.outlet.out
      (readyFlows cfg.windowS (accumulate cfg.windowS s.buckets ev) ev.ts).length
  | .tick now => FlushExact s.outlet.out (readyFlows cfg.windowS s.buckets now).length
  | .demux => s.intermediate.items ≠ [] → ¬ s.sankeyQueue.Full
  | _ => True

/-! ## One action -/

/-- An action that moves flows on without building or evicting anything. -/
def MovesOn (s t : State queueMax) : Prop :=
  inFlight t = inFlight s ∧ t.published = s.published ∧ evictedCount t = evictedCount s

theorem MovesOn.accounted_iff {s t : State queueMax} (h : MovesOn s t) :
    Accounted t ↔ Accounted s := by
  obtain ⟨hf, hp, he⟩ := h
  simp only [Accounted, publishedStamps, hf, hp, he]

theorem labelTake_movesOn (s : State queueMax) : MovesOn s (labelTake s) := by
  obtain he | ⟨wf, q, hl, hi, he⟩ := labelTake_cases s
  · rw [he]
    exact ⟨rfl, rfl, rfl⟩
  · rw [he]
    exact ⟨by simp [inFlight, beyondWindower, hl, hi, labellerMarks], rfl, rfl⟩

theorem labelResolved_movesOn (s : State queueMax) (candidate : AppCandidate)
    (hit : Option String) : MovesOn s (labelResolved s candidate hit) := by
  obtain he | ⟨wf, hl, he⟩ := labelResolved_cases s candidate hit
  · rw [he]
    exact ⟨rfl, rfl, rfl⟩
  · rw [he]
    refine ⟨?_, rfl, rfl⟩
    simp [inFlight, beyondWindower, hl, labellerMarks, markLabelled, labelFlow, markWindowed]

theorem labelPut_movesOn (s : State queueMax) : MovesOn s (labelPut s) := by
  obtain he | ⟨lf, q, hl, hi, he⟩ := labelPut_cases s
  · rw [he]
    exact ⟨rfl, rfl, rfl⟩
  · rw [he]
    exact ⟨by simp [inFlight, beyondWindower, hl, hi, labellerMarks], rfl, rfl⟩

theorem writerGet_movesOn (s : State queueMax) : MovesOn s (writerGet s) := by
  obtain ⟨q, he⟩ := writerGet_cases s
  rw [he]
  exact ⟨rfl, rfl, rfl⟩

/-- The demultiplexer either moves a flow on or pushes one out uncounted. -/
theorem demux_effect (s : State queueMax) :
    ((s.intermediate.items ≠ [] → ¬ s.sankeyQueue.Full) ∧ MovesOn s (demux s)) ∨
    ((s.intermediate.items ≠ [] ∧ s.sankeyQueue.Full) ∧ ∃ m ∈ inFlight s,
      stampTotal (inFlight s) = m.dropped + stampTotal (inFlight (demux s)) ∧
      (∀ m' ∈ inFlight (demux s), m' ∈ inFlight s) ∧
      (demux s).published = s.published ∧ evictedCount (demux s) = evictedCount s + 1) := by
  obtain ⟨hi, he⟩ | ⟨lf, q, hi, he⟩ := demux_cases s
  · rw [he]
    exact .inl ⟨fun h => absurd hi h, rfl, rfl, rfl⟩
  · rw [he]
    by_cases hf : s.sankeyQueue.Full
    · obtain ⟨old, rest, hs, hq, hev, _⟩ := s.sankeyQueue.putDropOldest_of_full lf hf
      refine .inr ⟨⟨by simp [hi], hf⟩, markLabelled old, ?_, ?_, ?_, rfl, ?_⟩
      · simp [inFlight, beyondWindower, hs]
      · simp [inFlight, beyondWindower, hs, hq, hi, stampTotal]
        omega
      · intro m' hm'
        simp only [inFlight, beyondWindower, hs, hq, hi, List.mem_append, List.map_append,
          List.map_cons, List.map_nil, List.mem_cons] at hm' ⊢
        tauto
      · simp [evictedCount, hev]
        omega
    · obtain ⟨hq, hev, _⟩ := s.sankeyQueue.putDropOldest_of_not_full lf hf
      refine .inl ⟨fun _ => hf, ?_, rfl, ?_⟩
      · simp [inFlight, beyondWindower, hq, hi]
      · simp [evictedCount, hev]

/-- The publisher either keeps collecting or moves the pending stamps and flags
into one delta. -/
theorem publisherGet_effect (cfg : Config) (s : State queueMax) :
    MovesOn s (publisherGet cfg s) ∨ ∃ p marks,
      inFlight s = marks ++ inFlight (publisherGet cfg s) ∧
      (publisherGet cfg s).published = s.published ++ [p] ∧
      p.delta.droppedCount = stampTotal marks ∧ p.delta.lossy = marks.any Mark.lossy ∧
      evictedCount (publisherGet cfg s) = evictedCount s := by
  obtain ⟨_, he⟩ | ⟨lf, q, hi, he⟩ := publisherGet_cases cfg s
  · rw [he]
    exact .inl ⟨rfl, rfl, rfl⟩
  · obtain ⟨b, _, _, hp, ht⟩ | ⟨b, delta, agg, _, _, _, _, _, hlossy, hdrop, ht⟩ | ⟨_, ht⟩ :=
      publisherTake_cases cfg { s with sankeyQueue := q } lf
    · rw [he, ht]
      exact .inl ⟨by simp only [inFlight, beyondWindower, hi]; simp_all, rfl, rfl⟩
    · rw [he, ht]
      refine .inr ⟨⟨b, s.pending, delta⟩, s.pending.map markLabelled, ?_, rfl, ?_, ?_, rfl⟩
      · simp [inFlight, beyondWindower, hi]
      · rw [stampTotal_labelled]
        exact hdrop
      · rw [List.any_map]
        exact hlossy
    · rw [he, ht]
      exact .inl ⟨by simp [inFlight, beyondWindower, hi], rfl, rfl⟩

/-- A flush appends stamped flows behind everything on the way and pushes the
overflow out of the windower's queue. -/
theorem windowerTick_effect (cfg : Config) (s : State queueMax) (now : Instant) (n : ℕ)
    (hn : (readyFlows cfg.windowS s.buckets now).length = n) (hdropped : s.outlet.dropped = 0) :
    ∃ new, inFlight (windowerTick cfg s now) = beyondWindower s ++
        ((s.outlet.out.items ++ new).drop (overflow s.outlet.out n)).map markWindowed ∧
      new.map WindowedFlow.droppedCount = flushStamps (freeSlots s.outlet.out n) n ∧
      (∀ wf ∈ new, wf.lossy = decide (0 < wf.droppedCount)) ∧
      evictedCount (windowerTick cfg s now) = evictedCount s + overflow s.outlet.out n := by
  obtain ⟨new, _, h⟩ := foldl_pushReady cfg.windowS (readyFlows cfg.windowS s.buckets now) s.outlet
  rw [hn] at h
  have hout := emitReady_outlet cfg.windowS now (s.buckets, s.outlet) hdropped
  have hitems : (windowerTick cfg s now).outlet.out.items =
      (s.outlet.out.items ++ new).drop (overflow s.outlet.out n) := by
    have hcut := congrArg (List.drop (s.outlet.evicted.length + overflow s.outlet.out n))
      h.queue_eq
    rw [← h.evicted_length, List.drop_left, h.evicted_length, List.append_assoc,
      List.drop_append, List.drop_eq_nil_of_le (by omega), Nat.add_sub_cancel_left,
      List.nil_append] at hcut
    simp only [windowerTick, hout]
    exact hcut
  refine ⟨new, ?_, ?_, h.lossy_iff, ?_⟩
  · rw [inFlight, hitems]
    rfl
  · have hstamps := h.stamps_eq
    rw [hdropped] at hstamps
    simpa using hstamps
  · simp only [evictedCount, windowerTick, hout, h.evicted_length]
    omega

theorem windowerTick_accounted_iff (cfg : Config) (s : State queueMax) (now : Instant)
    (hdropped : s.outlet.dropped = 0) (h : Accounted s) :
    Accounted (windowerTick cfg s now) ↔
      FlushExact s.outlet.out (readyFlows cfg.windowS s.buckets now).length := by
  obtain ⟨new, hflight, hstamps, _, hev⟩ := windowerTick_effect cfg s now _ rfl hdropped
  have hpub : publishedStamps (windowerTick cfg s now) = publishedStamps s := rfl
  simp only [Accounted, inFlight, stampTotal_append, stampTotal_windowed] at h
  rw [Accounted, hflight, stampTotal_append, stampTotal_windowed, hpub, hev, List.map_drop,
    List.map_append, hstamps, FlushExact]
  omega

/-- Before an action on whose flush the counter is clear, the accounting stays
exact if and only if the action meets the condition. -/
theorem step_accounted_iff (cfg : Config) (s : State queueMax) (action : Action)
    (hdropped : s.outlet.dropped = 0) (h : Accounted s) :
    Accounted (step cfg s action) ↔ CountsEvictions cfg s action := by
  cases action with
  | event ev => exact windowerTick_accounted_iff cfg _ ev.ts hdropped h
  | tick now => exact windowerTick_accounted_iff cfg s now hdropped h
  | labelTake => exact iff_of_true ((labelTake_movesOn s).accounted_iff.mpr h) trivial
  | labelResolved candidate hit =>
    exact iff_of_true ((labelResolved_movesOn s candidate hit).accounted_iff.mpr h) trivial
  | labelPut => exact iff_of_true ((labelPut_movesOn s).accounted_iff.mpr h) trivial
  | writerGet => exact iff_of_true ((writerGet_movesOn s).accounted_iff.mpr h) trivial
  | reloadGroups rows => exact iff_of_true h trivial
  | clearCache => exact iff_of_true h trivial
  | demux =>
    obtain ⟨hc, hm⟩ | ⟨hc, m, _, hstamps, _, hpub, hev⟩ := demux_effect s
    · exact iff_of_true (hm.accounted_iff.mpr h) hc
    · refine iff_of_false ?_ fun hcount => hcount hc.1 hc.2
      simp only [Accounted, publishedStamps, step, hpub, hev] at h ⊢
      omega
  | publisherGet =>
    refine iff_of_true ?_ trivial
    obtain hm | ⟨p, marks, hflight, hpub, hdrop, _, hev⟩ := publisherGet_effect cfg s
    · exact hm.accounted_iff.mpr h
    · simp only [Accounted, publishedStamps, hflight, stampTotal_append] at h
      simp only [Accounted, publishedStamps, step, hpub, hev, List.map_append, List.sum_append,
        List.map_cons, List.map_nil, List.sum_cons, List.sum_nil, hdrop]
      omega

/-- Between two actions the windower's counter is clear. -/
theorem step_dropped (cfg : Config) (s : State queueMax) (action : Action)
    (h : s.outlet.dropped = 0) : (step cfg s action).outlet.dropped = 0 := by
  cases action with
  | event ev => simp [step, windowerEvent, windowerTick, emitReady_outlet, h]
  | tick now => simp [step, windowerTick, emitReady_outlet, h]
  | labelTake => obtain he | ⟨_, _, _, _, he⟩ := labelTake_cases s <;> simpa [step, he] using h
  | labelResolved candidate hit =>
    obtain he | ⟨_, _, he⟩ := labelResolved_cases s candidate hit <;> simpa [step, he] using h
  | labelPut => obtain he | ⟨_, _, _, _, he⟩ := labelPut_cases s <;> simpa [step, he] using h
  | demux => obtain ⟨_, he⟩ | ⟨_, _, _, he⟩ := demux_cases s <;> simpa [step, he] using h
  | publisherGet =>
    obtain ⟨_, he⟩ | ⟨lf, q, _, he⟩ := publisherGet_cases cfg s
    · simpa [step, he] using h
    · obtain ⟨_, _, _, _, hp⟩ | ⟨_, _, _, _, _, _, _, _, _, _, hp⟩ | ⟨_, hp⟩ :=
        publisherTake_cases cfg { s with sankeyQueue := q } lf <;> simpa [step, he, hp] using h
  | writerGet =>
    obtain ⟨_, he⟩ := writerGet_cases s
    simpa [step, he] using h
  | reloadGroups rows => exact h
  | clearCache => exact h

theorem initial_accounted (aggregator : Option GroupAggregator) :
    Accounted (initial aggregator : State queueMax) := by
  simp [Accounted, initial, publishedStamps, evictedCount, inFlight, beyondWindower, labellerMarks,
    stampTotal]

/-- On every run, the deltas and the stamps on the way account for the evictions
in every state if and only if every action meets the condition. -/
theorem accounted_iff_countsEvictions (cfg : Config) (aggregator : Option GroupAggregator)
    (actions : List Action) :
    Throughout (step cfg) Accounted (initial aggregator : State queueMax) actions ↔
      Along (step cfg) (CountsEvictions cfg) (initial aggregator : State queueMax) actions :=
  throughout_iff_along (I := fun s => s.outlet.dropped = 0) (step_dropped cfg)
    (step_accounted_iff cfg) rfl (initial_accounted aggregator) actions

/-! ## The loss flag -/

/-- Every flow on the way and every delta is flagged exactly when it carries a
positive count. -/
structure FlagsMatch (s : State queueMax) : Prop where
  inFlight : ∀ m ∈ inFlight s, m.lossy = decide (0 < m.dropped)
  published : ∀ p ∈ s.published, p.delta.lossy = decide (0 < p.delta.droppedCount)

theorem any_lossy_eq {marks : List Mark} (h : ∀ m ∈ marks, m.lossy = decide (0 < m.dropped)) :
    marks.any Mark.lossy = decide (0 < stampTotal marks) := by
  induction marks with
  | nil => rfl
  | cons m rest ih =>
    have hsum : stampTotal (m :: rest) = m.dropped + stampTotal rest := by simp [stampTotal]
    rw [List.any_cons, h m (by simp), ih fun m' hm' => h m' (by simp [hm']), hsum]
    rw [Bool.eq_iff_iff]
    simp only [Bool.or_eq_true, decide_eq_true_eq]
    omega

theorem MovesOn.flagsMatch {s t : State queueMax} (hm : MovesOn s t) (h : FlagsMatch s) :
    FlagsMatch t := ⟨by rw [hm.1]; exact h.inFlight, by rw [hm.2.1]; exact h.published⟩

theorem windowerTick_flagsMatch (cfg : Config) (s : State queueMax) (now : Instant)
    (hdropped : s.outlet.dropped = 0) (h : FlagsMatch s) :
    FlagsMatch (windowerTick cfg s now) := by
  obtain ⟨new, hflight, _, hlossy, _⟩ := windowerTick_effect cfg s now _ rfl hdropped
  refine ⟨?_, h.published⟩
  rw [hflight]
  intro m hm
  rcases List.mem_append.mp hm with hm | hm
  · exact h.inFlight m (List.mem_append_left _ hm)
  · obtain ⟨wf, hwf, rfl⟩ := List.mem_map.mp hm
    rcases List.mem_append.mp (List.mem_of_mem_drop hwf) with hwf | hwf
    · exact h.inFlight _ (List.mem_append_right _ (List.mem_map_of_mem hwf))
    · exact hlossy wf hwf

theorem step_flagsMatch (cfg : Config) (s : State queueMax) (action : Action)
    (hdropped : s.outlet.dropped = 0) (h : FlagsMatch s) : FlagsMatch (step cfg s action) := by
  cases action with
  | event ev => exact windowerTick_flagsMatch cfg _ ev.ts hdropped ⟨h.inFlight, h.published⟩
  | tick now => exact windowerTick_flagsMatch cfg s now hdropped h
  | labelTake => exact (labelTake_movesOn s).flagsMatch h
  | labelResolved candidate hit => exact (labelResolved_movesOn s candidate hit).flagsMatch h
  | labelPut => exact (labelPut_movesOn s).flagsMatch h
  | writerGet => exact (writerGet_movesOn s).flagsMatch h
  | reloadGroups rows => exact ⟨h.inFlight, h.published⟩
  | clearCache => exact ⟨h.inFlight, h.published⟩
  | demux =>
    obtain ⟨_, hm⟩ | ⟨_, m, _, _, hsub, hpub, _⟩ := demux_effect s
    · exact hm.flagsMatch h
    · refine ⟨fun m' hm' => h.inFlight m' (hsub m' hm'), ?_⟩
      simp only [step, hpub]
      exact h.published
  | publisherGet =>
    obtain hm | ⟨p, marks, hflight, hpub, hdrop, hlossy, _⟩ := publisherGet_effect cfg s
    · exact hm.flagsMatch h
    · have hmem : ∀ m ∈ marks ++ Correlator.inFlight (publisherGet cfg s),
          m.lossy = decide (0 < m.dropped) := hflight ▸ h.inFlight
      refine ⟨fun m hm => hmem m (List.mem_append_right _ hm), ?_⟩
      simp only [step, hpub]
      intro p' hp'
      rcases List.mem_append.mp hp' with hp' | hp'
      · exact h.published p' hp'
      · obtain rfl := List.mem_singleton.mp hp'
        rw [hlossy, hdrop]
        exact any_lossy_eq fun m hm => hmem m (List.mem_append_left _ hm)

/-- Deltas are only appended, and evictions only added. -/
structure Extends (s t : State queueMax) : Prop where
  dropped : t.outlet.dropped = 0
  published : ∃ later, t.published = s.published ++ later
  evicted : evictedCount s ≤ evictedCount t

theorem MovesOn.extends {s t : State queueMax} (h : MovesOn s t) (hd : t.outlet.dropped = 0) :
    Extends s t := ⟨hd, ⟨[], by rw [h.2.1, List.append_nil]⟩, h.2.2.ge⟩

theorem step_extends (cfg : Config) (s : State queueMax) (action : Action)
    (hdropped : s.outlet.dropped = 0) : Extends s (step cfg s action) := by
  have hd := step_dropped cfg s action hdropped
  cases action with
  | event ev =>
    obtain ⟨_, _, _, _, hev⟩ := windowerTick_effect cfg
      { s with buckets := accumulate cfg.windowS s.buckets ev, consumed := s.consumed ++ [ev] }
      ev.ts _ rfl hdropped
    exact ⟨hd, ⟨[], (List.append_nil _).symm⟩, le_of_le_of_eq (Nat.le_add_right _ _) hev.symm⟩
  | tick now =>
    obtain ⟨_, _, _, _, hev⟩ := windowerTick_effect cfg s now _ rfl hdropped
    exact ⟨hd, ⟨[], (List.append_nil _).symm⟩, le_of_le_of_eq (Nat.le_add_right _ _) hev.symm⟩
  | labelTake => exact (labelTake_movesOn s).extends hd
  | labelResolved candidate hit => exact (labelResolved_movesOn s candidate hit).extends hd
  | labelPut => exact (labelPut_movesOn s).extends hd
  | writerGet => exact (writerGet_movesOn s).extends hd
  | reloadGroups rows => exact ⟨hd, ⟨[], (List.append_nil _).symm⟩, le_rfl⟩
  | clearCache => exact ⟨hd, ⟨[], (List.append_nil _).symm⟩, le_rfl⟩
  | demux =>
    obtain ⟨_, hm⟩ | ⟨_, _, _, _, _, hpub, hev⟩ := demux_effect s
    · exact hm.extends hd
    · exact ⟨hd, ⟨[], by rw [List.append_nil]; exact hpub⟩, by simp only [step, hev]; omega⟩
  | publisherGet =>
    obtain hm | ⟨p, _, _, hpub, _, _, hev⟩ := publisherGet_effect cfg s
    · exact hm.extends hd
    · exact ⟨hd, ⟨[p], hpub⟩, hev.ge⟩

theorem run_extends (cfg : Config) (s : State queueMax) (actions : List Action)
    (hdropped : s.outlet.dropped = 0) : Extends s (run (step cfg) s actions) := by
  refine run_relation (R := fun s t : State queueMax => s.outlet.dropped = 0 → Extends s t)
    ?_ ?_ (fun s a => step_extends cfg s a) s actions hdropped
  · exact fun s hd => ⟨hd, ⟨[], (List.append_nil _).symm⟩, le_rfl⟩
  · intro s t u hst htu hd
    obtain ⟨hdt, ⟨later₁, h₁⟩, he₁⟩ := hst hd
    obtain ⟨hdu, ⟨later₂, h₂⟩, he₂⟩ := htu hdt
    exact ⟨hdu, ⟨later₁ ++ later₂, by rw [h₂, h₁, List.append_assoc]⟩, he₁.trans he₂⟩

/-! ## Whole runs -/

/-- Exact accounting of a run: in every state the deltas and the stamps on the
way add up to the evictions, and once no stamp is on the way any more, every
evicting action has been followed by a delta with the loss flag. -/
structure LossExact (cfg : Config) (aggregator : Option GroupAggregator) (queueMax : ℕ)
    (actions : List Action) : Prop where
  accounted : Throughout (step cfg) Accounted (initial aggregator : State queueMax) actions
  flagged : ∀ before action after, actions = before ++ action :: after →
    let s := run (step cfg) (initial aggregator : State queueMax) before
    let t := run (step cfg) (initial aggregator : State queueMax) actions
    evictedCount s < evictedCount (step cfg s action) → stampTotal (inFlight t) = 0 →
    ∃ p ∈ t.published.drop (step cfg s action).published.length, p.delta.lossy = true

variable (queueMax) in
theorem run_flagsMatch (cfg : Config) (aggregator : Option GroupAggregator)
    (actions : List Action) :
    let s := run (step cfg) (initial aggregator : State queueMax) actions
    s.outlet.dropped = 0 ∧ FlagsMatch s :=
  run_invariant (I := fun s : State queueMax => s.outlet.dropped = 0 ∧ FlagsMatch s)
    (fun s a h => ⟨step_dropped cfg s a h.1, step_flagsMatch cfg s a h.1 h.2⟩)
    ⟨rfl, by simp [initial, inFlight, beyondWindower, labellerMarks], by simp [initial]⟩ actions

/-- The counts of the later deltas make up for the eviction, so one of them is
positive and its delta is flagged. -/
theorem flagged_of_accounted (cfg : Config) (aggregator : Option GroupAggregator)
    (actions : List Action)
    (h : Throughout (step cfg) Accounted (initial aggregator : State queueMax) actions)
    (before : List Action) (action : Action) (after : List Action)
    (hsplit : actions = before ++ action :: after) :
    let s := run (step cfg) (initial aggregator : State queueMax) before
    let t := run (step cfg) (initial aggregator : State queueMax) actions
    evictedCount s < evictedCount (step cfg s action) → stampTotal (inFlight t) = 0 →
    ∃ p ∈ t.published.drop (step cfg s action).published.length, p.delta.lossy = true := by
  intro s t hev hdrained
  obtain ⟨hd, _⟩ := run_flagsMatch queueMax cfg aggregator before
  have hs : Accounted s := (hsplit ▸ h).at_split
  have ht : Accounted t := h.last
  have hne : action ≠ .publisherGet := by
    rintro rfl
    obtain hm | ⟨_, _, _, _, _, _, he⟩ := publisherGet_effect cfg s
    · exact absurd hm.2.2.symm hev.ne
    · exact absurd he.symm hev.ne
  have hpub : (step cfg s action).published = s.published :=
    (step_publisher_frame cfg s action hne).2.2
  have hrun : t = run (step cfg) (step cfg s action) after := by
    simp only [t, hsplit, run_append, run_cons, s]
  obtain ⟨_, ⟨later, hlater⟩, hmore⟩ :=
    run_extends cfg (step cfg s action) after (step_dropped cfg s action hd)
  rw [← hrun] at hlater hmore
  have hsum : 0 < (later.map fun p => p.delta.droppedCount).sum := by
    simp only [Accounted, publishedStamps] at hs ht
    rw [hlater, hpub, List.map_append, List.sum_append] at ht
    omega
  obtain ⟨count, hcount, hne'⟩ := List.exists_mem_ne_zero_of_sum_ne_zero hsum.ne'
  obtain ⟨p, hp, rfl⟩ := List.mem_map.mp hcount
  have hpos : 0 < p.delta.droppedCount := Nat.pos_of_ne_zero hne'
  refine ⟨p, by rw [hlater, List.drop_left]; exact hp, ?_⟩
  have hflag := (run_flagsMatch queueMax cfg aggregator actions).2.published p
    (by
      change p ∈ t.published
      rw [hlater]
      exact List.mem_append_right _ hp)
  rw [hflag, decide_eq_true hpos]

/-- Loss accounting of a run is exact if and only if every flush is exact and the
demultiplexer never finds the publisher's queue full. -/
theorem lossExact_iff (cfg : Config) (aggregator : Option GroupAggregator)
    (actions : List Action) :
    LossExact cfg aggregator queueMax actions ↔
      Along (step cfg) (CountsEvictions cfg) (initial aggregator : State queueMax) actions := by
  constructor
  · intro h
    exact (accounted_iff_countsEvictions cfg aggregator actions).mp h.accounted
  · intro h
    have hacc := (accounted_iff_countsEvictions cfg aggregator actions).mpr h
    exact ⟨hacc, flagged_of_accounted cfg aggregator actions hacc⟩

/-- Two flows of one bucket meet a queue with a single slot; the run then goes on
for two more buckets, delivering every flow. -/
def overflowByOneRun : List Action :=
  [.event (sessionAt 100 443), .event (sessionAt 100 80), .event (sessionAt 110 443)] ++ deliver ++
    [.event (sessionAt 120 443)] ++ deliver ++ [.event (sessionAt 130 443)] ++ deliver

/-- The second push of the flush evicts the first flow and the counter is cleared
at once: both later deltas report no loss, and no stamp is on the way. -/
theorem overflowByOneRun_reports_no_loss :
    let s := run (step fiveSecondGroups) (initial (some defaultAggregator) : State 1)
      overflowByOneRun
    evictedCount s = 1 ∧ stampTotal (inFlight s) = 0 ∧
      s.published.map (fun p => (p.delta.droppedCount, p.delta.lossy)) = [(0, false), (0, false)] ∧
      ¬ LossExact fiveSecondGroups (some defaultAggregator) 1 overflowByOneRun := by
  refine ⟨by decide, by decide, by decide +kernel, fun h => ?_⟩
  exact absurd h.accounted.last (by unfold Accounted; decide +kernel)

/-- Overflowing a flush by exactly three flows is accounted for: the stamps of
the last three pushes are zero, one and two. -/
example : FlushExact (.empty : BoundedQueue WindowedFlow 3) 6 := by decide

end FlowDiscovery.Correlator
