import FlowDiscovery.BoundedQueue
import FlowDiscovery.Dict
import FlowDiscovery.EventTypes
import Mathlib.Data.List.Sort

/-!
# Tumbling windows

Events are summed per bucket and flow key. A bucket is emitted once the clock
given to `_emit_ready` has passed its window, one flow per key, through a
drop-oldest push to the bounded output queue. Instants are exact and unbounded here;
the year limits of `datetime`, which end the windower, and the rounding of `timestamp`
are added in `RaisingTasks`.

`pushed` and `evicted` are histories; the source keeps neither.
-/
namespace FlowDiscovery
open PyTime PyText

/-- `_Key`. -/
structure FlowKey where
  srcIp : String
  dstIp : String
  dstPort : ℤ
  proto : ℤ
  deriving DecidableEq, Repr

/-- `_Acc`. -/
structure FlowAcc where
  bytes : ℤ
  packets : ℤ
  flowCount : ℤ
  appIdSeen : Option String
  fqdnSeen : Option String
  actionSeen : Option String
  deriving DecidableEq, Repr

structure WindowedFlow where
  bucketStart : Instant
  windowS : ℕ
  srcIp : String
  dstIp : String
  dstPort : ℤ
  proto : ℤ
  bytes : ℤ
  packets : ℤ
  flowCount : ℤ
  appId : Option String
  fqdn : Option String
  action : Option String
  lossy : Bool
  droppedCount : ℕ
  deriving DecidableEq, Repr

namespace FlowWindower

/-- `_bucket_start`: whole seconds towards zero, aligned down to the window. -/
def bucketStart (windowS : ℕ) (ts : Instant) : Instant :=
  let epoch := ts.tdiv microsPerSecond
  seconds (epoch - epoch % windowS)

def keyOf (ev : FlowEvent) : FlowKey := ⟨ev.srcIp, ev.dstIp, ev.dstPort, ev.proto⟩

def zeroAcc : FlowAcc := ⟨0, 0, 0, none, none, none⟩

/-- Sums grow, the first non-empty text of each kind is kept. -/
def addEvent (ev : FlowEvent) (acc : FlowAcc) : FlowAcc where
  bytes := acc.bytes + ev.bytes
  packets := acc.packets + ev.packets
  flowCount := acc.flowCount + 1
  appIdSeen := orElse acc.appIdSeen ev.appId
  fqdnSeen := orElse acc.fqdnSeen ev.fqdn
  actionSeen := orElse acc.actionSeen (some ev.action)

/-- The output queue with the drop counter and the two histories. -/
structure Outlet (queueMax : ℕ) where
  out : BoundedQueue WindowedFlow queueMax
  dropped : ℕ
  pushed : List WindowedFlow
  evicted : List WindowedFlow

abbrev Buckets := Dict Instant (Dict FlowKey FlowAcc)

variable {queueMax : ℕ}

/-- The flow emitted for one accumulator, stamped with the current counter. -/
def flowOf (windowS dropped : ℕ) (bucket : Instant) (key : FlowKey) (acc : FlowAcc) :
    WindowedFlow where
  bucketStart := bucket
  windowS := windowS
  srcIp := key.srcIp
  dstIp := key.dstIp
  dstPort := key.dstPort
  proto := key.proto
  bytes := acc.bytes
  packets := acc.packets
  flowCount := acc.flowCount
  appId := acc.appIdSeen
  fqdn := acc.fqdnSeen
  action := acc.actionSeen
  lossy := 0 < dropped
  droppedCount := dropped

def push (windowS : ℕ) (bucket : Instant) (o : Outlet queueMax) (e : FlowKey × FlowAcc) :
    Outlet queueMax :=
  let wf := flowOf windowS o.dropped bucket e.1 e.2
  let p := o.out.putDropOldest wf
  { out := p.queue
    dropped := o.dropped + if p.wasFull then 1 else 0
    pushed := o.pushed ++ [wf]
    evicted := o.evicted ++ p.evicted.toList }

/-- Pop one bucket and push its flows in the order of their keys' arrival. -/
def emitBucket (windowS : ℕ) (st : Buckets × Outlet queueMax) (bucket : Instant) :
    Buckets × Outlet queueMax :=
  match st.1.get? bucket with
  | none => st
  | some slot => (st.1.erase bucket, slot.entries.foldl (push windowS bucket) st.2)

/-- Open buckets at or below the threshold, oldest first. -/
def readyBuckets (windowS : ℕ) (buckets : Buckets) (now : Instant) : List Instant :=
  let threshold := bucketStart windowS now - seconds windowS
  (buckets.keys.filter fun b => b ≤ threshold).insertionSort (· ≤ ·)

/-- `_emit_ready`. It never suspends, so no consumer runs between two pushes. -/
def emitReady (windowS : ℕ) (now : Instant) (st : Buckets × Outlet queueMax) :
    Buckets × Outlet queueMax :=
  let ready := readyBuckets windowS st.1 now
  let (buckets, o) := ready.foldl (emitBucket windowS) st
  (buckets, if ready = [] then o else { o with dropped := 0 })

/-- The accumulation part of `run` for one event. -/
def accumulate (windowS : ℕ) (buckets : Buckets) (ev : FlowEvent) : Buckets :=
  buckets.update (bucketStart windowS ev.ts) .empty fun slot =>
    slot.update (keyOf ev) zeroAcc (addEvent ev)

/-! ## Totals per selection of buckets and keys -/

/-- The additive fields of an accumulator. -/
inductive Field where
  | bytes
  | packets
  | flowCount
  deriving DecidableEq, Repr

def FlowAcc.amount (q : Field) (acc : FlowAcc) : ℤ :=
  match q with
  | .bytes => acc.bytes
  | .packets => acc.packets
  | .flowCount => acc.flowCount

def flowAmount (q : Field) (wf : WindowedFlow) : ℤ :=
  match q with
  | .bytes => wf.bytes
  | .packets => wf.packets
  | .flowCount => wf.flowCount

/-- Contribution of one event: every event counts as one flow. -/
def eventAmount (q : Field) (ev : FlowEvent) : ℤ :=
  match q with
  | .bytes => ev.bytes
  | .packets => ev.packets
  | .flowCount => 1

def flowKey (wf : WindowedFlow) : FlowKey := ⟨wf.srcIp, wf.dstIp, wf.dstPort, wf.proto⟩

/-- Selection of the flows a total ranges over. -/
abbrev Selection := Instant → FlowKey → Bool

def openTotal (sel : Selection) (q : Field) (buckets : Buckets) : ℤ :=
  buckets.sumBy fun b slot => slot.sumBy fun k acc => if sel b k then FlowAcc.amount q acc else 0

def pushedTotal (sel : Selection) (q : Field) (flows : List WindowedFlow) : ℤ :=
  (flows.map fun wf => if sel wf.bucketStart (flowKey wf) then flowAmount q wf else 0).sum

def eventTotal (windowS : ℕ) (sel : Selection) (q : Field) (events : List FlowEvent) : ℤ :=
  (events.map fun ev =>
    if sel (bucketStart windowS ev.ts) (keyOf ev) then eventAmount q ev else 0).sum

theorem openTotal_accumulate (windowS : ℕ) (sel : Selection) (q : Field) (buckets : Buckets)
    (ev : FlowEvent) :
    openTotal sel q (accumulate windowS buckets ev) =
      openTotal sel q buckets + eventTotal windowS sel q [ev] := by
  unfold openTotal accumulate
  refine Dict.sumBy_update _ buckets _ _ _ _ (Dict.sumBy_empty _) fun slot => ?_
  refine Dict.sumBy_update _ slot _ _ _ _ ?_ fun acc => ?_
  · cases q <;> simp [FlowAcc.amount, zeroAcc]
  · cases hs : sel (bucketStart windowS ev.ts) (keyOf ev) <;> cases q <;>
      simp [eventTotal, hs, FlowAcc.amount, addEvent, eventAmount]

theorem push_pushed (windowS : ℕ) (bucket : Instant) (o : Outlet queueMax)
    (e : FlowKey × FlowAcc) :
    (push windowS bucket o e).pushed = o.pushed ++ [flowOf windowS o.dropped bucket e.1 e.2] := rfl

/-- Whatever a push does to the queue, nothing leaves it unrecorded. -/
theorem push_queue (windowS : ℕ) (bucket : Instant) (o : Outlet queueMax)
    (e : FlowKey × FlowAcc) :
    (push windowS bucket o e).evicted ++ (push windowS bucket o e).out.items =
      o.evicted ++ o.out.items ++ [flowOf windowS o.dropped bucket e.1 e.2] := by
  have h := o.out.putDropOldest_conserves (flowOf windowS o.dropped bucket e.1 e.2)
  simp only [push, List.append_assoc, h]

/-- A flush appends the same flows to the history and to what is queued or
evicted, and for every selection they carry what left the accumulators. -/
structure Flushed (bucketsBefore : Buckets) (before : Outlet queueMax) (bucketsAfter : Buckets)
    (after : Outlet queueMax) (new : List WindowedFlow) : Prop where
  pushed_eq : after.pushed = before.pushed ++ new
  queue_eq : after.evicted ++ after.out.items = before.evicted ++ before.out.items ++ new
  total_eq : ∀ sel q, openTotal sel q bucketsAfter + pushedTotal sel q new =
    openTotal sel q bucketsBefore

theorem Flushed.refl (buckets : Buckets) (o : Outlet queueMax) :
    Flushed buckets o buckets o [] := ⟨by simp, by simp, fun sel q => by simp [pushedTotal]⟩

theorem Flushed.trans {b₁ b₂ b₃ : Buckets} {o₁ o₂ o₃ : Outlet queueMax}
    {n₁ n₂ : List WindowedFlow} (h₁ : Flushed b₁ o₁ b₂ o₂ n₁) (h₂ : Flushed b₂ o₂ b₃ o₃ n₂) :
    Flushed b₁ o₁ b₃ o₃ (n₁ ++ n₂) where
  pushed_eq := by rw [h₂.pushed_eq, h₁.pushed_eq, List.append_assoc]
  queue_eq := by rw [h₂.queue_eq, h₁.queue_eq, List.append_assoc]
  total_eq sel q := by
    have e₁ := h₁.total_eq sel q
    have e₂ := h₂.total_eq sel q
    simp only [pushedTotal, List.map_append, List.sum_append] at *
    omega

theorem foldl_push (windowS : ℕ) (bucket : Instant) (entries : List (FlowKey × FlowAcc))
    (o : Outlet queueMax) :
    ∃ new, (entries.foldl (push windowS bucket) o).pushed = o.pushed ++ new ∧
      (entries.foldl (push windowS bucket) o).evicted ++
        (entries.foldl (push windowS bucket) o).out.items = o.evicted ++ o.out.items ++ new ∧
      ∀ sel q, pushedTotal sel q new =
        (entries.map fun e => if sel bucket e.1 then FlowAcc.amount q e.2 else 0).sum := by
  induction entries generalizing o with
  | nil => exact ⟨[], by simp, by simp, fun sel q => rfl⟩
  | cons e rest ih =>
    obtain ⟨new, hp, hq, ht⟩ := ih (push windowS bucket o e)
    refine ⟨flowOf windowS o.dropped bucket e.1 e.2 :: new, ?_, ?_, ?_⟩
    · rw [List.foldl_cons, hp, push_pushed, List.append_assoc, List.singleton_append]
    · rw [List.foldl_cons, hq, push_queue, List.append_assoc, List.singleton_append]
    · intro sel q
      have hrest := ht sel q
      simp only [pushedTotal] at hrest ⊢
      rw [List.map_cons, List.sum_cons, List.map_cons, List.sum_cons, hrest]
      cases q <;> rfl

theorem emitBucket_flushed (windowS : ℕ) (st : Buckets × Outlet queueMax) (bucket : Instant) :
    ∃ new, Flushed st.1 st.2 (emitBucket windowS st bucket).1 (emitBucket windowS st bucket).2
      new := by
  unfold emitBucket
  cases hg : st.1.get? bucket with
  | none => exact ⟨[], .refl st.1 st.2⟩
  | some slot =>
    obtain ⟨new, hp, hq, ht⟩ := foldl_push windowS bucket slot.entries st.2
    refine ⟨new, hp, hq, fun sel q => ?_⟩
    have he := Dict.sumBy_erase
      (fun b (slot : Dict FlowKey FlowAcc) =>
        slot.sumBy fun k acc => if sel b k then FlowAcc.amount q acc else 0) st.1 bucket slot hg
    rw [ht sel q]
    exact he

theorem foldl_emitBucket_flushed (windowS : ℕ) (ready : List Instant)
    (st : Buckets × Outlet queueMax) :
    ∃ new, Flushed st.1 st.2 (ready.foldl (emitBucket windowS) st).1
      (ready.foldl (emitBucket windowS) st).2 new := by
  induction ready generalizing st with
  | nil => exact ⟨[], .refl st.1 st.2⟩
  | cons b rest ih =>
    obtain ⟨n₁, h₁⟩ := emitBucket_flushed windowS st b
    obtain ⟨n₂, h₂⟩ := ih (emitBucket windowS st b)
    exact ⟨n₁ ++ n₂, h₁.trans h₂⟩

/-- `_emit_ready` moves whole accumulators to the output and loses none. -/
theorem emitReady_flushed (windowS : ℕ) (now : Instant) (st : Buckets × Outlet queueMax) :
    ∃ new, Flushed st.1 st.2 (emitReady windowS now st).1 (emitReady windowS now st).2 new := by
  obtain ⟨new, h⟩ := foldl_emitBucket_flushed windowS (readyBuckets windowS st.1 now) st
  refine ⟨new, ?_⟩
  unfold emitReady
  dsimp only
  split_ifs
  · exact h
  · exact ⟨h.pushed_eq, h.queue_eq, h.total_eq⟩

end FlowWindower
end FlowDiscovery
