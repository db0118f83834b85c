import FlowDiscovery.EmissionOrder

/-!
# Windows that close once

The windower alone, with an unbounded output queue and a consumer. As long as the
readings given to `_emit_ready` do not go back, the threshold of the last flush
separates the emitted buckets from the open and from all future ones. So buckets
close once, in order and with the totals of all their events.
-/
namespace FlowDiscovery.TumblingWindows
open PyTime FlowWindower Machine

/-! ## The windower and its consumer -/

/-- Open buckets, output, and three histories: the events consumed, the last reading
given to `_emit_ready` and the flows the consumer has taken. -/
structure State where
  buckets : Buckets
  outlet : Outlet 0
  consumed : List FlowEvent
  clock : Option Instant
  taken : List WindowedFlow

inductive Action where
  | event (ev : FlowEvent)
  | tick (now : Instant)
  | get

/-- The reading that an action gives to `_emit_ready`. -/
def Action.reading? : Action → Option Instant
  | .event ev => some ev.ts
  | .tick now => some now
  | .get => none

/-- The output queue may hold flows already. -/
def initial (queue : BoundedQueue WindowedFlow 0) : State :=
  ⟨.empty, ⟨queue, 0, [], []⟩, [], none, []⟩

/-- A call of `_emit_ready`. -/
def emit (windowS : ℕ) (s : State) (now : Instant) : State :=
  let (buckets, outlet) := emitReady windowS now (s.buckets, s.outlet)
  { s with buckets, outlet, clock := some now }

def event (windowS : ℕ) (s : State) (ev : FlowEvent) : State :=
  emit windowS { s with
    buckets := accumulate windowS s.buckets ev
    consumed := s.consumed ++ [ev] } ev.ts

def get (s : State) : State :=
  match s.outlet.out.getNowait with
  | none => s
  | some (wf, out) => { s with outlet := { s.outlet with out }, taken := s.taken ++ [wf] }

def step (windowS : ℕ) (s : State) : Action → State
  | .event ev => event windowS s ev
  | .tick now => emit windowS s now
  | .get => get s

/-! ## Buckets -/

/-- The instant is a whole number of windows after the epoch. -/
def OnGrid (windowS : ℕ) (b : Instant) : Prop := ∃ k : ℤ, b = seconds (windowS * k)

theorem bucketStart_eq (windowS : ℕ) (t : Instant) :
    bucketStart windowS t = seconds (windowS * (t.tdiv microsPerSecond / windowS)) := by
  have hsplit := Int.emod_add_mul_ediv (t.tdiv microsPerSecond) windowS
  rw [bucketStart]
  congr 1
  linarith

theorem bucketStart_onGrid (windowS : ℕ) (t : Instant) : OnGrid windowS (bucketStart windowS t) :=
  ⟨_, bucketStart_eq windowS t⟩

theorem bucketStart_mono {windowS : ℕ} (hw : 1 ≤ windowS) {t t' : Instant} (h : t ≤ t') :
    bucketStart windowS t ≤ bucketStart windowS t' := by
  have hpos : (0 : ℤ) < windowS := Int.natCast_pos.mpr hw
  have hsec : t.tdiv microsPerSecond ≤ t'.tdiv microsPerSecond :=
    Int.tdiv_le_tdiv (by decide) h
  rw [bucketStart_eq, bucketStart_eq]
  refine mul_le_mul_of_nonneg_right ?_ (by decide)
  exact mul_le_mul_of_nonneg_left (Int.ediv_le_ediv hpos hsec) hpos.le

theorem seconds_pos {windowS : ℕ} (hw : 1 ≤ windowS) : 0 < seconds windowS :=
  mul_pos (Int.natCast_pos.mpr hw) (by decide)

/-- From the epoch on, the bucket of an instant is the aligned window around it. -/
theorem bucketStart_window {windowS : ℕ} (hw : 1 ≤ windowS) {t : Instant} (ht : 0 ≤ t) :
    bucketStart windowS t ≤ t ∧ t < bucketStart windowS t + seconds windowS := by
  have hpos : (0 : ℤ) < windowS := Int.natCast_pos.mpr hw
  have hlow := Int.emod_nonneg (t / 1000000) hpos.ne'
  have hhigh := Int.emod_lt_of_pos (t / 1000000) hpos
  have hsec : ∀ n : ℤ, n / 1000000 * 1000000 ≤ n ∧ n < n / 1000000 * 1000000 + 1000000 := by
    intro n
    omega
  obtain ⟨hfloor, hceil⟩ := hsec t
  simp only [bucketStart, Int.tdiv_eq_ediv_of_nonneg ht, seconds, microsPerSecond]
  constructor
  · linarith
  · linarith

/-- Windows on the grid overlap only when they are the same. -/
theorem bucketStart_eq_iff {windowS : ℕ} (hw : 1 ≤ windowS) {t : Instant} (ht : 0 ≤ t)
    {b : Instant} (hb : OnGrid windowS b) :
    bucketStart windowS t = b ↔ b ≤ t ∧ t < b + seconds windowS := by
  have hwindow := bucketStart_window hw ht
  constructor
  · rintro rfl
    exact hwindow
  · rintro ⟨hle, hlt⟩
    obtain ⟨k, rfl⟩ := hb
    obtain ⟨k', hk'⟩ := bucketStart_onGrid windowS t
    rw [hk'] at hwindow ⊢
    have hstep : ∀ i : ℤ, seconds (windowS * i) + seconds windowS = seconds (windowS * (i + 1)) := by
      intro i
      simp only [seconds]
      ring
    have hcancel : ∀ i j : ℤ, seconds (windowS * i) < seconds (windowS * j) → i < j := by
      intro i j hij
      have hmul := lt_of_mul_lt_mul_right hij (by decide)
      exact lt_of_mul_lt_mul_left hmul (Int.natCast_nonneg windowS)
    rw [hstep] at hlt hwindow
    have hbelow := hcancel _ _ (hwindow.1.trans_lt hlt)
    have habove := hcancel _ _ (hle.trans_lt hwindow.2)
    rw [show k' = k by omega]

/-! ## What a flush emits -/

/-- Bucket and key of an emitted flow. -/
def slotOf (wf : WindowedFlow) : Instant × FlowKey := (wf.bucketStart, flowKey wf)

section Flush

variable {queueMax : ℕ}

theorem foldl_push_slots (windowS : ℕ) (bucket : Instant) (entries : List (FlowKey × FlowAcc))
    (o : Outlet queueMax) :
    ∃ new, (entries.foldl (push windowS bucket) o).pushed = o.pushed ++ new ∧
      new.map slotOf = entries.map fun e => (bucket, e.1) := by
  induction entries generalizing o with
  | nil => exact ⟨[], by simp, rfl⟩
  | cons e rest ih =>
    obtain ⟨new, hpushed, hslots⟩ := ih (push windowS bucket o e)
    refine ⟨flowOf windowS o.dropped bucket e.1 e.2 :: new, ?_, ?_⟩
    · rw [List.foldl_cons, hpushed, push_pushed, List.append_assoc, List.singleton_append]
    · rw [List.map_cons, hslots, List.map_cons]
      rfl

/-- One bucket has each of its keys once. -/
theorem emitBucket_slots (windowS : ℕ) (st : Buckets × Outlet queueMax) (bucket : Instant) :
    ∃ new, (emitBucket windowS st bucket).2.pushed = st.2.pushed ++ new ∧
      (new.map slotOf).Nodup ∧ ∀ slot ∈ new.map slotOf, slot.1 = bucket := by
  unfold emitBucket
  cases st.1.get? bucket with
  | none => exact ⟨[], by simp, by simp, by simp⟩
  | some keys =>
    obtain ⟨new, hpushed, hslots⟩ := foldl_push_slots windowS bucket keys.entries st.2
    refine ⟨new, hpushed, ?_, ?_⟩
    · have hmap : new.map slotOf = (keys.entries.map Prod.fst).map fun k => (bucket, k) := by
        rw [hslots, List.map_map]
        rfl
      rw [hmap]
      exact keys.nodup.map (Prod.mk_right_injective bucket)
    · intro slot hslot
      rw [hslots] at hslot
      obtain ⟨e, _, rfl⟩ := List.mem_map.mp hslot
      rfl

theorem foldl_emitBucket_slots (windowS : ℕ) {ready : List Instant} (hready : ready.Nodup)
    (st : Buckets × Outlet queueMax) :
    ∃ new, (ready.foldl (emitBucket windowS) st).2.pushed = st.2.pushed ++ new ∧
      (new.map slotOf).Nodup ∧ ∀ slot ∈ new.map slotOf, slot.1 ∈ ready := by
  induction ready generalizing st with
  | nil => exact ⟨[], by simp, by simp, by simp⟩
  | cons b rest ih =>
    obtain ⟨hb, hrest⟩ := List.nodup_cons.mp hready
    obtain ⟨new₁, hpushed₁, hnodup₁, hbucket₁⟩ := emitBucket_slots windowS st b
    obtain ⟨new₂, hpushed₂, hnodup₂, hbucket₂⟩ := ih hrest (emitBucket windowS st b)
    refine ⟨new₁ ++ new₂, ?_, ?_, ?_⟩
    · rw [List.foldl_cons, hpushed₂, hpushed₁, List.append_assoc]
    · rw [List.map_append, List.nodup_append]
      refine ⟨hnodup₁, hnodup₂, fun slot hslot slot' hslot' heq => hb ?_⟩
      rw [← hbucket₁ slot hslot, heq]
      exact hbucket₂ slot' hslot'
    · intro slot hslot
      rw [List.map_append, List.mem_append] at hslot
      rcases hslot with hslot | hslot
      · rw [hbucket₁ slot hslot]
        exact List.mem_cons_self
      · exact List.mem_cons_of_mem b (hbucket₂ slot hslot)

/-- A flush emits every bucket and key at most once. -/
theorem emitReady_slots (windowS : ℕ) (now : Instant) (st : Buckets × Outlet queueMax) :
    ∃ new, (emitReady windowS now st).2.pushed = st.2.pushed ++ new ∧
      (new.map slotOf).Nodup := by
  have hready : (readyBuckets windowS st.1 now).Nodup := by
    have hsorted := List.perm_insertionSort (· ≤ ·)
      (st.1.keys.filter fun b => b ≤ bucketStart windowS now - seconds windowS)
    exact hsorted.nodup_iff.mpr (st.1.nodup.filter _)
  obtain ⟨new, hpushed, hnodup, _⟩ := foldl_emitBucket_slots windowS hready st
  refine ⟨new, ?_, hnodup⟩
  unfold emitReady
  dsimp only
  split_ifs
  · exact hpushed
  · exact hpushed

/-- All that is known of the flows that a flush emits. -/
theorem emitReady_new (windowS : ℕ) (now : Instant) (st : Buckets × Outlet queueMax) :
    ∃ new, Emits (readyBuckets windowS st.1 now) st (emitReady windowS now st) new ∧
      Flushed st.1 st.2 (emitReady windowS now st).1 (emitReady windowS now st).2 new ∧
      (new.map slotOf).Nodup := by
  obtain ⟨new, hemits⟩ := emitReady_emits windowS now st
  obtain ⟨flushed, hflushed⟩ := emitReady_flushed windowS now st
  obtain ⟨slots, hslots, hnodup⟩ := emitReady_slots windowS now st
  obtain rfl : flushed = new :=
    List.append_cancel_left (hflushed.pushed_eq.symm.trans hemits.pushed_eq)
  obtain rfl : slots = flushed := List.append_cancel_left (hslots.symm.trans hemits.pushed_eq)
  exact ⟨slots, hemits, hflushed, hnodup⟩

/-- What every push keeps, a flush keeps. -/
theorem emitReady_outlet {P : Outlet queueMax → Prop} {windowS : ℕ}
    (hpush : ∀ bucket o e, P o → P (push windowS bucket o e))
    (hreset : ∀ o, P o → P { o with dropped := 0 }) (now : Instant)
    {st : Buckets × Outlet queueMax} (h : P st.2) : P (emitReady windowS now st).2 := by
  have hbucket : ∀ st : Buckets × Outlet queueMax, ∀ b, P st.2 → P (emitBucket windowS st b).2 := by
    intro st b hst
    unfold emitBucket
    cases st.1.get? b with
    | none => exact hst
    | some keys => exact List.foldlRecOn keys.entries _ hst fun o ho e _ => hpush b o e ho
  have hfold : P ((readyBuckets windowS st.1 now).foldl (emitBucket windowS) st).2 :=
    List.foldlRecOn (motive := fun st => P st.2) _ _ h fun st hst b _ => hbucket st b hst
  unfold emitReady
  dsimp only
  split_ifs
  · exact hfold
  · exact hreset _ hfold

end Flush

/-! ## The invariant -/

/-- What holds while the readings do not go back. The threshold of the last flush lies
between the emitted and the open buckets. -/
structure Tumbled (windowS : ℕ) (queue : BoundedQueue WindowedFlow 0) (s : State) : Prop where
  open_above : ∀ now ∈ s.clock, ∀ b ∈ s.buckets.keys, bucketStart windowS now - seconds windowS < b
  emitted_below : ∀ wf ∈ s.outlet.pushed, ∃ now ∈ s.clock,
    wf.bucketStart ≤ bucketStart windowS now - seconds windowS
  open_onGrid : ∀ b ∈ s.buckets.keys, OnGrid windowS b
  emitted_onGrid : ∀ wf ∈ s.outlet.pushed, OnGrid windowS wf.bucketStart
  sorted : (s.outlet.pushed.map WindowedFlow.bucketStart).Pairwise (· ≤ ·)
  once : (s.outlet.pushed.map slotOf).Nodup
  total : ∀ sel q, openTotal sel q s.buckets + pushedTotal sel q s.outlet.pushed =
    eventTotal windowS sel q s.consumed
  evicted : s.outlet.evicted = []
  delivered : s.taken ++ s.outlet.out.items = queue.items ++ s.outlet.pushed

/-- The reading of an action is not before the last one. -/
def Forward (s : State) (action : Action) : Prop :=
  ∀ last ∈ s.clock, ∀ now ∈ action.reading?, last ≤ now

theorem initial_tumbled (windowS : ℕ) (queue : BoundedQueue WindowedFlow 0) :
    Tumbled windowS queue (initial queue) where
  open_above := by simp [initial]
  emitted_below := by simp [initial]
  open_onGrid := by simp [initial, Dict.keys]
  emitted_onGrid := by simp [initial]
  sorted := by simp [initial]
  once := by simp [initial]
  total sel q := by simp [initial, openTotal, pushedTotal, eventTotal]
  evicted := rfl
  delivered := by simp [initial]

theorem not_full (q : BoundedQueue WindowedFlow 0) : ¬ q.Full := fun h => h.1 rfl

/-- An unbounded queue takes every flow and gives none up. -/
theorem emitReady_evicted (windowS : ℕ) (now : Instant) {st : Buckets × Outlet 0}
    (h : st.2.evicted = []) : (emitReady windowS now st).2.evicted = [] := by
  refine emitReady_outlet (P := fun o => o.evicted = []) (fun bucket o e ho => ?_) (fun o ho => ho)
    now h
  have hnone := (o.out.putDropOldest_of_not_full
    (flowOf windowS o.dropped bucket e.1 e.2) (not_full o.out)).2.1
  simp [push, ho, hnone]

/-- A flush at a reading that is not before the last one, on buckets of which the open
ones are all above the last threshold. -/
theorem Tumbled.emit {windowS : ℕ} (hw : 1 ≤ windowS) {queue : BoundedQueue WindowedFlow 0}
    {s : State} (h : Tumbled windowS queue s) {now : Instant}
    (hforward : ∀ last ∈ s.clock, last ≤ now) : Tumbled windowS queue (emit windowS s now) := by
  obtain ⟨new, hemits, hflushed, hnodup⟩ := emitReady_new windowS now (s.buckets, s.outlet)
  have hready : ∀ wf ∈ new, wf.bucketStart ∈ s.buckets.keys ∧
      wf.bucketStart ≤ bucketStart windowS now - seconds windowS :=
    fun wf hwf => mem_readyBuckets.mp (hemits.mem_ready wf hwf)
  have hseparated : ∀ wf ∈ s.outlet.pushed, ∀ wf' ∈ new, wf.bucketStart < wf'.bucketStart := by
    intro wf hwf wf' hwf'
    obtain ⟨last, hlast, hle⟩ := h.emitted_below wf hwf
    exact lt_of_le_of_lt hle (h.open_above last hlast _ (hready wf' hwf').1)
  have hpushed : (TumblingWindows.emit windowS s now).outlet.pushed = s.outlet.pushed ++ new :=
    hemits.pushed_eq
  constructor
  case open_above =>
    intro last hlast b hb
    obtain rfl := Option.some.inj hlast
    obtain ⟨hopen, hleft⟩ := hemits.keys_subset b hb
    exact not_le.mp fun hle => hleft (mem_readyBuckets.mpr ⟨hopen, hle⟩)
  case emitted_below =>
    intro wf hwf
    refine ⟨now, rfl, ?_⟩
    rw [hpushed] at hwf
    rcases List.mem_append.mp hwf with hwf | hwf
    · obtain ⟨last, hlast, hle⟩ := h.emitted_below wf hwf
      exact hle.trans (sub_le_sub_right (bucketStart_mono hw (hforward last hlast)) _)
    · exact (hready wf hwf).2
  case open_onGrid =>
    intro b hb
    exact h.open_onGrid b (hemits.keys_subset b hb).1
  case emitted_onGrid =>
    intro wf hwf
    rw [hpushed] at hwf
    rcases List.mem_append.mp hwf with hwf | hwf
    · exact h.emitted_onGrid wf hwf
    · exact h.open_onGrid _ (hready wf hwf).1
  case sorted =>
    rw [hpushed, List.map_append, List.pairwise_append]
    refine ⟨h.sorted, hemits.sorted (readyBuckets_sorted _ _ _), fun b hb b' hb' => ?_⟩
    obtain ⟨wf, hwf, rfl⟩ := List.mem_map.mp hb
    obtain ⟨wf', hwf', rfl⟩ := List.mem_map.mp hb'
    exact (hseparated wf hwf wf' hwf').le
  case once =>
    rw [hpushed, List.map_append, List.nodup_append]
    refine ⟨h.once, hnodup, fun slot hslot slot' hslot' heq => ?_⟩
    obtain ⟨wf, hwf, rfl⟩ := List.mem_map.mp hslot
    obtain ⟨wf', hwf', rfl⟩ := List.mem_map.mp hslot'
    exact (hseparated wf hwf wf' hwf').ne (congrArg Prod.fst heq)
  case total =>
    intro sel q
    have hmoved := hflushed.total_eq sel q
    have hbefore := h.total sel q
    rw [hpushed]
    simp only [pushedTotal, List.map_append, List.sum_append] at hmoved hbefore ⊢
    change openTotal sel q (emitReady windowS now (s.buckets, s.outlet)).1 + _ =
      eventTotal windowS sel q s.consumed
    omega
  case evicted => exact emitReady_evicted windowS now h.evicted
  case delivered =>
    have hqueue := hflushed.queue_eq
    rw [emitReady_evicted windowS now h.evicted, h.evicted, List.nil_append, List.nil_append]
      at hqueue
    have hbefore := h.delivered
    rw [hpushed]
    change s.taken ++ (emitReady windowS now (s.buckets, s.outlet)).2.out.items = _
    rw [hqueue, ← List.append_assoc, hbefore, List.append_assoc]

/-- An event opens no bucket at or below the last threshold. -/
theorem Tumbled.accumulate {windowS : ℕ} (hw : 1 ≤ windowS)
    {queue : BoundedQueue WindowedFlow 0} {s : State} (h : Tumbled windowS queue s)
    {ev : FlowEvent} (hforward : ∀ last ∈ s.clock, last ≤ ev.ts) :
    Tumbled windowS queue { s with
      buckets := accumulate windowS s.buckets ev
      consumed := s.consumed ++ [ev] } where
  open_above := by
    intro last hlast b hb
    rcases (Dict.mem_keys_update _ _ _ _ _).mp hb with rfl | hb
    · have hmono := bucketStart_mono hw (hforward last hlast)
      exact (sub_lt_self _ (seconds_pos hw)).trans_le hmono
    · exact h.open_above last hlast b hb
  emitted_below := h.emitted_below
  open_onGrid := by
    intro b hb
    rcases (Dict.mem_keys_update _ _ _ _ _).mp hb with rfl | hb
    · exact bucketStart_onGrid windowS ev.ts
    · exact h.open_onGrid b hb
  emitted_onGrid := h.emitted_onGrid
  sorted := h.sorted
  once := h.once
  total sel q := by
    have hbefore := h.total sel q
    have hadded := openTotal_accumulate windowS sel q s.buckets ev
    simp only [eventTotal, List.map_append, List.sum_append] at hbefore hadded ⊢
    omega
  evicted := h.evicted
  delivered := h.delivered

theorem Tumbled.get {windowS : ℕ} {queue : BoundedQueue WindowedFlow 0} {s : State}
    (h : Tumbled windowS queue s) : Tumbled windowS queue (get s) := by
  unfold TumblingWindows.get
  cases hget : s.outlet.out.getNowait with
  | none => exact h
  | some p =>
    obtain ⟨wf, out⟩ := p
    have hitems := (BoundedQueue.getNowait_eq_some_iff _ _ _).mp hget
    refine ⟨h.open_above, h.emitted_below, h.open_onGrid, h.emitted_onGrid, h.sorted, h.once,
      h.total, h.evicted, ?_⟩
    have hbefore := h.delivered
    rw [hitems] at hbefore
    simpa using hbefore

theorem Tumbled.step {windowS : ℕ} (hw : 1 ≤ windowS) {queue : BoundedQueue WindowedFlow 0}
    (s : State) (action : Action) (h : Tumbled windowS queue s) (hforward : Forward s action) :
    Tumbled windowS queue (step windowS s action) := by
  cases action with
  | event ev =>
    have hts : ∀ last ∈ s.clock, last ≤ ev.ts := fun last hlast => hforward last hlast ev.ts rfl
    exact (h.accumulate hw hts).emit hw hts
  | tick now => exact h.emit hw fun last hlast => hforward last hlast now rfl
  | get => exact h.get

/-! ## Runs -/

/-- One bucket and key. -/
def onlySlot (slot : Instant × FlowKey) : Selection := fun b k => decide ((b, k) = slot)

lemma openTotal_onlySlot {slot : Instant × FlowKey} {buckets : Buckets}
    (h : slot.1 ∉ buckets.keys) (q : Field) : openTotal (onlySlot slot) q buckets = 0 := by
  refine Dict.sum_eq_zero_of_absent (fun b (keys : Dict FlowKey FlowAcc) =>
    keys.sumBy fun k acc => if onlySlot slot b k then FlowAcc.amount q acc else 0)
    slot.1 buckets.entries h fun b keys hb => ?_
  have hne : ∀ k, (b, k) ≠ slot := fun k heq => hb (congrArg Prod.fst heq)
  simp [onlySlot, hne, Dict.sumBy]

lemma pushedTotal_onlySlot {flows : List WindowedFlow} (honce : (flows.map slotOf).Nodup)
    {wf : WindowedFlow} (hwf : wf ∈ flows) (q : Field) :
    pushedTotal (onlySlot (slotOf wf)) q flows = flowAmount q wf := by
  have hsel : ∀ wf', onlySlot (slotOf wf) wf'.bucketStart (flowKey wf') =
      decide (slotOf wf' = slotOf wf) := fun wf' => rfl
  simp only [pushedTotal, hsel, decide_eq_true_eq]
  induction flows with
  | nil => cases hwf
  | cons head rest ih =>
    rw [List.map_cons, List.nodup_cons] at honce
    rw [List.map_cons, List.sum_cons]
    rcases List.mem_cons.mp hwf with rfl | hrest
    · have hzero : (rest.map fun wf' => if slotOf wf' = slotOf wf then flowAmount q wf' else 0).sum =
          0 := by
        apply List.sum_eq_zero
        intro x hx
        obtain ⟨wf', hwf', rfl⟩ := List.mem_map.mp hx
        have hne : slotOf wf' ≠ slotOf wf := fun heq =>
          honce.1 (heq ▸ List.mem_map_of_mem hwf')
        exact if_neg hne
      rw [if_pos rfl, hzero, add_zero]
    · have hne : slotOf head ≠ slotOf wf := fun heq =>
        honce.1 (heq ▸ List.mem_map_of_mem hrest)
      rw [if_neg hne, zero_add, ih honce.2 hrest]

lemma eventTotal_onlySlot (windowS : ℕ) (slot : Instant × FlowKey) (q : Field)
    (events : List FlowEvent) : eventTotal windowS (onlySlot slot) q events =
      ((events.filter fun ev => bucketStart windowS ev.ts = slot.1 ∧ keyOf ev = slot.2).map
        (eventAmount q)).sum := by
  rw [eventTotal]
  induction events with
  | nil => rfl
  | cons ev rest ih =>
    rw [List.map_cons, List.sum_cons, ih]
    by_cases hev : bucketStart windowS ev.ts = slot.1 ∧ keyOf ev = slot.2
    · simp [onlySlot, hev]
    · simp [onlySlot, Prod.ext_iff, hev]

/-- Each emitted flow has the totals of all events of its key in its bucket. -/
theorem Tumbled.flowAmount_eq {windowS : ℕ} {queue : BoundedQueue WindowedFlow 0} {s : State}
    (h : Tumbled windowS queue s) {wf : WindowedFlow} (hwf : wf ∈ s.outlet.pushed) (q : Field) :
    flowAmount q wf = ((s.consumed.filter fun ev =>
      bucketStart windowS ev.ts = wf.bucketStart ∧ keyOf ev = flowKey wf).map
        (eventAmount q)).sum := by
  have hclosed : wf.bucketStart ∉ s.buckets.keys := by
    intro hopen
    obtain ⟨now, hnow, hle⟩ := h.emitted_below wf hwf
    exact absurd hle (not_le.mpr (h.open_above now hnow _ hopen))
  have htotal := h.total (onlySlot (slotOf wf)) q
  rw [openTotal_onlySlot hclosed, pushedTotal_onlySlot h.once hwf, zero_add,
    eventTotal_onlySlot] at htotal
  exact htotal

/-- Emitted flows come in order of their buckets, once per bucket and key, with the
totals of all the events in the bucket, as the queue hands them out; and no bucket at
or below the last threshold is open. From the epoch on, being in a bucket is lying in
its window. -/
structure ClosesOnceInOrder (windowS : ℕ) (queue : BoundedQueue WindowedFlow 0) (s : State) :
    Prop where
  sorted : (s.outlet.pushed.map WindowedFlow.bucketStart).Pairwise (· ≤ ·)
  once : (s.outlet.pushed.map fun wf => (wf.bucketStart, flowKey wf)).Nodup
  totals : ∀ wf ∈ s.outlet.pushed, ∀ q, flowAmount q wf = ((s.consumed.filter fun ev =>
    bucketStart windowS ev.ts = wf.bucketStart ∧ keyOf ev = flowKey wf).map (eventAmount q)).sum
  windows : ∀ wf ∈ s.outlet.pushed, ∀ t, 0 ≤ t → (bucketStart windowS t = wf.bucketStart ↔
    wf.bucketStart ≤ t ∧ t < wf.bucketStart + seconds windowS)
  closed : ∀ now ∈ s.clock, ∀ b ∈ s.buckets.keys,
    ¬ b ≤ bucketStart windowS now - seconds windowS
  delivered : s.taken ++ s.outlet.out.items = queue.items ++ s.outlet.pushed

theorem Tumbled.closesOnce {windowS : ℕ} (hw : 1 ≤ windowS)
    {queue : BoundedQueue WindowedFlow 0} {s : State} (h : Tumbled windowS queue s) : ClosesOnceInOrder windowS queue s where
  sorted := h.sorted
  once := h.once
  totals _ hwf q := h.flowAmount_eq hwf q
  windows wf hwf _ ht := bucketStart_eq_iff hw ht (h.emitted_onGrid wf hwf)
  closed now hnow b hb := not_le.mpr (h.open_above now hnow b hb)
  delivered := h.delivered

/-- Readings in order are readings that never go back. -/
theorem along_forward (windowS : ℕ) {actions : List Action} {s : State}
    (hclock : ∀ last ∈ s.clock, ∀ now ∈ actions.filterMap Action.reading?, last ≤ now)
    (h : (actions.filterMap Action.reading?).Pairwise (· ≤ ·)) :
    Along (step windowS) Forward s actions := by
  induction actions generalizing s with
  | nil => trivial
  | cons action rest ih =>
    refine ⟨fun last hlast now hnow => hclock last hlast now ?_, ?_⟩
    · exact List.mem_filterMap.mpr ⟨action, List.mem_cons_self, hnow⟩
    · cases hreading : action.reading? with
      | none =>
        rw [List.filterMap_cons_none hreading] at hclock h
        refine ih (fun last hlast => hclock last ?_) h
        cases action with
        | event ev => cases hreading
        | tick now => cases hreading
        | get =>
          have hkept : (TumblingWindows.get s).clock = s.clock := by
            unfold TumblingWindows.get
            split <;> rfl
          rwa [TumblingWindows.step, hkept] at hlast
      | some reading =>
        rw [List.filterMap_cons_some hreading, List.pairwise_cons] at h
        refine ih (fun last hlast now hnow => ?_) h.2
        have hlatest : (TumblingWindows.step windowS s action).clock = some reading := by
          cases action with
          | event ev => exact hreading
          | tick now => exact hreading
          | get => cases hreading
        rw [hlatest] at hlast
        obtain rfl := Option.some.inj hlast
        exact h.1 now hnow

/-- Windows close once and in order in every run in which the readings given to
`_emit_ready` are non-decreasing. -/
theorem closesOnceInOrder_of_readings (windowS : ℕ) (hw : 1 ≤ windowS)
    (queue : BoundedQueue WindowedFlow 0) (actions : List Action)
    (h : (actions.filterMap Action.reading?).Pairwise (· ≤ ·)) :
    Throughout (step windowS) (ClosesOnceInOrder windowS queue) (initial queue) actions := by
  have hstart : ∀ last ∈ (initial queue).clock,
      ∀ now ∈ actions.filterMap Action.reading?, last ≤ now := by simp [initial]
  have halong := along_forward windowS hstart h
  have htumbled := throughout_of_along (Tumbled.step hw) (initial_tumbled windowS queue) halong
  exact htumbled.mono fun s hs => hs.closesOnce hw

/-- Events in three windows, one of them on a boundary, an idle tick and a consumer. -/
def threeWindows : List Action :=
  [.event (Correlator.sessionAt 3 443), .event (Correlator.sessionAt 5 443), .get,
    .event (Correlator.sessionAt 12 443), .tick (seconds 17), .get]

theorem closesOnceInOrder_threeWindows :
    Throughout (step 5) (ClosesOnceInOrder 5 .empty) (initial .empty) threeWindows ∧
      (run (step 5) (initial .empty) threeWindows).outlet.pushed.map WindowedFlow.bucketStart =
        [seconds 0, seconds 5, seconds 10] := by
  refine ⟨closesOnceInOrder_of_readings 5 (by decide) .empty threeWindows ?_, ?_⟩
  · have hreadings : threeWindows.filterMap Action.reading? =
        [seconds 3, seconds 5, seconds 12, seconds 17] := rfl
    rw [hreadings]
    decide
  · decide +kernel

end FlowDiscovery.TumblingWindows
