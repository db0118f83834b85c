import FlowDiscovery.Correlator

/-!
# Conservation of traffic through the pipeline

At every point of a run the bytes and the number of the consumed events are
found again in the deltas built so far, the publisher's pending list, the flows
in transit, the open accumulators and the flows evicted by a full queue. Per
bucket and flow key the emitted flows and the open accumulator add up to the
events of that key, whatever the order of timestamps. Here no task ends; what a
task loses that does is the subject of `RaisingTasks`.
-/
namespace FlowDiscovery.Correlator
open PyTime FlowWindower SankeyPublisher Machine

variable {queueMax : ℕ}

/-- The accumulator field behind a quantity of a link. -/
def fieldOf : Quantity → Field
  | .bytes => .bytes
  | .flows => .flowCount

def windowedTotal (q : Quantity) (flows : List WindowedFlow) : ℤ :=
  (flows.map (flowAmount (fieldOf q))).sum

/-- Bytes, or number, of the events consumed so far. -/
def consumedTotal (q : Quantity) (s : State queueMax) : ℤ :=
  (s.consumed.map (eventAmount (fieldOf q))).sum

/-- Sum over the windower's still-open accumulators. -/
def openAmount (q : Quantity) (s : State queueMax) : ℤ :=
  s.buckets.sumBy fun _ slot => slot.sumBy fun _ acc => FlowAcc.amount (fieldOf q) acc

/-- The flow the labelling task holds. -/
def labellerTotal (q : Quantity) : Labeller → ℤ
  | .idle => 0
  | .resolving wf => flowAmount (fieldOf q) wf
  | .putting lf => amount q lf

/-- Flows between the windower and the publisher. -/
def transitTotal (q : Quantity) (s : State queueMax) : ℤ :=
  windowedTotal q s.outlet.out.items + labellerTotal q s.labeller +
    flowTotal q s.intermediate.items + flowTotal q s.sankeyQueue.items

def evictedTotal (q : Quantity) (s : State queueMax) : ℤ :=
  windowedTotal q s.outlet.evicted + flowTotal q s.evictedSankey

/-- Sum of a link quantity over all deltas built so far. -/
def builtTotal (q : Quantity) (s : State queueMax) : ℤ :=
  (s.published.map fun p => deltaTotal q p.delta).sum

/-- No drop-oldest push on the way to the publisher has evicted a flow. -/
def NoOverflow (s : State queueMax) : Prop := s.outlet.evicted = [] ∧ s.evictedSankey = []

instance (s : State queueMax) : Decidable (NoOverflow s) := inferInstanceAs (Decidable (_ ∧ _))

/-- Everything consumed is somewhere, evictions included. -/
def Balanced (q : Quantity) (s : State queueMax) : Prop :=
  builtTotal q s + flowTotal q s.pending + transitTotal q s + openAmount q s + evictedTotal q s =
    consumedTotal q s

lemma openAmount_eq (q : Quantity) (s : State queueMax) :
    openAmount q s = openTotal (fun _ _ => true) (fieldOf q) s.buckets := by
  simp [openAmount, openTotal]

lemma windowedTotal_eq (q : Quantity) (flows : List WindowedFlow) :
    windowedTotal q flows = pushedTotal (fun _ _ => true) (fieldOf q) flows := by
  simp [windowedTotal, pushedTotal]

@[simp] theorem windowedTotal_nil (q : Quantity) : windowedTotal q [] = 0 := rfl

@[simp] theorem windowedTotal_cons (q : Quantity) (wf : WindowedFlow) (l : List WindowedFlow) :
    windowedTotal q (wf :: l) = flowAmount (fieldOf q) wf + windowedTotal q l := by
  simp [windowedTotal]

@[simp] theorem windowedTotal_append (q : Quantity) (l₁ l₂ : List WindowedFlow) :
    windowedTotal q (l₁ ++ l₂) = windowedTotal q l₁ + windowedTotal q l₂ := by
  simp [windowedTotal]

@[simp] theorem flowTotal_nil (q : Quantity) : flowTotal q [] = 0 := rfl

@[simp] theorem flowTotal_cons (q : Quantity) (lf : LabelledFlow) (l : List LabelledFlow) :
    flowTotal q (lf :: l) = amount q lf + flowTotal q l := by simp [flowTotal]

@[simp] theorem flowTotal_append (q : Quantity) (l₁ l₂ : List LabelledFlow) :
    flowTotal q (l₁ ++ l₂) = flowTotal q l₁ + flowTotal q l₂ := by simp [flowTotal]

@[simp] theorem amount_labelFlow (q : Quantity) (wf : WindowedFlow) (candidate : AppCandidate)
    (user : String × Finset String) :
    amount q (labelFlow wf candidate user) = flowAmount (fieldOf q) wf := by cases q <;> rfl

/-! ## One action -/

theorem windowerTick_balanced (cfg : Config) (q : Quantity) (s : State queueMax) (now : Instant)
    (h : Balanced q s) : Balanced q (windowerTick cfg s now) := by
  obtain ⟨new, hf⟩ := emitReady_flushed cfg.windowS now (s.buckets, s.outlet)
  have hopen := hf.total_eq (fun _ _ => true) (fieldOf q)
  have hqueue := congrArg (windowedTotal q) hf.queue_eq
  simp only [windowedTotal_append] at hqueue
  rw [← windowedTotal_eq] at hopen
  simp only [Balanced, openAmount_eq] at h ⊢
  simp only [builtTotal, transitTotal, evictedTotal, consumedTotal, windowerTick]
    at h hopen hqueue ⊢
  omega

theorem accumulate_balanced (cfg : Config) (q : Quantity) (s : State queueMax) (ev : FlowEvent)
    (h : Balanced q s) : Balanced q { s with
      buckets := accumulate cfg.windowS s.buckets ev, consumed := s.consumed ++ [ev] } := by
  have hopen := openTotal_accumulate cfg.windowS (fun _ _ => true) (fieldOf q) s.buckets ev
  simp only [eventTotal, if_true, List.map_cons, List.map_nil, List.sum_cons, List.sum_nil,
    add_zero] at hopen
  simp only [Balanced, openAmount_eq] at h ⊢
  simp only [builtTotal, transitTotal, evictedTotal, consumedTotal, List.map_append, List.map_cons,
    List.map_nil, List.sum_append, List.sum_cons, List.sum_nil, add_zero] at h ⊢
  omega

theorem windowerEvent_balanced (cfg : Config) (q : Quantity) (s : State queueMax)
    (ev : FlowEvent) (h : Balanced q s) : Balanced q (windowerEvent cfg s ev) :=
  windowerTick_balanced cfg q _ ev.ts (accumulate_balanced cfg q s ev h)

theorem labelTake_balanced (q : Quantity) (s : State queueMax) (h : Balanced q s) :
    Balanced q (labelTake s) := by
  obtain he | ⟨wf, queue, hl, hi, he⟩ := labelTake_cases s
  · exact he.symm ▸ h
  · rw [he]
    simp only [Balanced, transitTotal, hl, hi, labellerTotal, windowedTotal_cons] at h ⊢
    simp only [builtTotal, openAmount, evictedTotal, consumedTotal] at h ⊢
    omega

theorem labelResolved_balanced (q : Quantity) (s : State queueMax) (candidate : AppCandidate)
    (hit : Option String) (h : Balanced q s) : Balanced q (labelResolved s candidate hit) := by
  obtain he | ⟨wf, hl, he⟩ := labelResolved_cases s candidate hit
  · exact he.symm ▸ h
  · rw [he]
    simp only [Balanced, transitTotal, hl, labellerTotal, amount_labelFlow] at h ⊢
    exact h

theorem labelPut_balanced (q : Quantity) (s : State queueMax) (h : Balanced q s) :
    Balanced q (labelPut s) := by
  obtain he | ⟨lf, queue, hl, hi, he⟩ := labelPut_cases s
  · exact he.symm ▸ h
  · rw [he]
    simp only [Balanced, transitTotal, hl, hi, labellerTotal, flowTotal_append, flowTotal_cons,
      flowTotal_nil] at h ⊢
    simp only [builtTotal, openAmount, evictedTotal, consumedTotal] at h ⊢
    omega

theorem demux_balanced (q : Quantity) (s : State queueMax) (h : Balanced q s) :
    Balanced q (demux s) := by
  obtain ⟨_, he⟩ | ⟨lf, queue, hi, he⟩ := demux_cases s
  · exact he.symm ▸ h
  · have hpush := congrArg (flowTotal q) (s.sankeyQueue.putDropOldest_conserves lf)
    rw [he]
    simp only [flowTotal_append, flowTotal_cons, flowTotal_nil] at hpush
    simp only [Balanced, transitTotal, evictedTotal, hi, flowTotal_cons, flowTotal_append] at h ⊢
    simp only [builtTotal, openAmount, consumedTotal] at h ⊢
    omega

theorem publisherTake_balanced (cfg : Config) (q : Quantity) (s : State queueMax)
    (lf : LabelledFlow)
    (h : builtTotal q s + flowTotal q s.pending + transitTotal q s + openAmount q s +
      evictedTotal q s + amount q lf = consumedTotal q s) :
    Balanced q (publisherTake cfg s lf) := by
  obtain ⟨current, _, _, hp, he⟩ | ⟨current, delta, agg, _, _, _, _, htot, _, _, he⟩ | ⟨_, he⟩ :=
    publisherTake_cases cfg s lf
  · rw [he]
    simp only [Balanced, hp, flowTotal_cons, flowTotal_nil] at h ⊢
    simp only [builtTotal, transitTotal, openAmount, evictedTotal, consumedTotal] at h ⊢
    omega
  · have hd := htot q
    rw [he]
    simp only [Balanced, builtTotal, List.map_append, List.map_cons, List.map_nil,
      List.sum_append, List.sum_cons, List.sum_nil, flowTotal_cons, flowTotal_nil, hd] at h ⊢
    simp only [transitTotal, openAmount, evictedTotal, consumedTotal] at h ⊢
    omega
  · rw [he]
    simp only [Balanced, flowTotal_append, flowTotal_cons, flowTotal_nil] at h ⊢
    simp only [builtTotal, transitTotal, openAmount, evictedTotal, consumedTotal] at h ⊢
    omega

theorem publisherGet_balanced (cfg : Config) (q : Quantity) (s : State queueMax)
    (h : Balanced q s) : Balanced q (publisherGet cfg s) := by
  obtain ⟨_, he⟩ | ⟨lf, queue, hi, he⟩ := publisherGet_cases cfg s
  · exact he.symm ▸ h
  · rw [he]
    apply publisherTake_balanced
    simp only [Balanced, transitTotal, hi, flowTotal_cons] at h ⊢
    simp only [builtTotal, openAmount, evictedTotal, consumedTotal] at h ⊢
    omega

theorem step_balanced (cfg : Config) (q : Quantity) (s : State queueMax) (action : Action)
    (h : Balanced q s) : Balanced q (step cfg s action) := by
  cases action with
  | event ev => exact windowerEvent_balanced cfg q s ev h
  | tick now => exact windowerTick_balanced cfg q s now h
  | labelTake => exact labelTake_balanced q s h
  | labelResolved candidate hit => exact labelResolved_balanced q s candidate hit h
  | labelPut => exact labelPut_balanced q s h
  | demux => exact demux_balanced q s h
  | publisherGet => exact publisherGet_balanced cfg q s h
  | writerGet =>
    obtain ⟨queue, he⟩ := writerGet_cases s
    simp only [step, he]
    exact h
  | reloadGroups rows => exact h
  | clearCache => exact h

/-! ## Per bucket and key -/

/-- For every selection of buckets and keys, the flows pushed so far and the open
accumulators add up to the events consumed. -/
def KeyBalanced (cfg : Config) (s : State queueMax) : Prop :=
  ∀ sel q, pushedTotal sel q s.outlet.pushed + openTotal sel q s.buckets =
    eventTotal cfg.windowS sel q s.consumed

theorem windowerTick_keyBalanced (cfg : Config) (s : State queueMax) (now : Instant)
    (h : KeyBalanced cfg s) : KeyBalanced cfg (windowerTick cfg s now) := by
  intro sel q
  obtain ⟨new, hf⟩ := emitReady_flushed cfg.windowS now (s.buckets, s.outlet)
  have hopen := hf.total_eq sel q
  have hs := h sel q
  have hpushed : pushedTotal sel q (windowerTick cfg s now).outlet.pushed =
      pushedTotal sel q s.outlet.pushed + pushedTotal sel q new := by
    simp only [windowerTick, hf.pushed_eq, pushedTotal, List.map_append, List.sum_append]
  rw [hpushed]
  simp only [windowerTick] at hopen ⊢
  omega

theorem accumulate_keyBalanced (cfg : Config) (s : State queueMax) (ev : FlowEvent)
    (h : KeyBalanced cfg s) : KeyBalanced cfg { s with
      buckets := accumulate cfg.windowS s.buckets ev, consumed := s.consumed ++ [ev] } := by
  intro sel q
  have hs := h sel q
  have hopen := openTotal_accumulate cfg.windowS sel q s.buckets ev
  simp only [eventTotal, List.map_append, List.sum_append] at hs hopen ⊢
  omega

theorem windowerEvent_keyBalanced (cfg : Config) (s : State queueMax) (ev : FlowEvent)
    (h : KeyBalanced cfg s) : KeyBalanced cfg (windowerEvent cfg s ev) :=
  windowerTick_keyBalanced cfg _ ev.ts (accumulate_keyBalanced cfg s ev h)

lemma keyBalanced_of_eq (cfg : Config) {s t : State queueMax} (h : KeyBalanced cfg s)
    (hp : t.outlet.pushed = s.outlet.pushed) (hb : t.buckets = s.buckets)
    (hc : t.consumed = s.consumed) : KeyBalanced cfg t := by
  intro sel q
  rw [hp, hb, hc]
  exact h sel q

theorem step_keyBalanced (cfg : Config) (s : State queueMax) (action : Action)
    (h : KeyBalanced cfg s) : KeyBalanced cfg (step cfg s action) := by
  by_cases hevent : ∃ ev, action = .event ev
  · obtain ⟨ev, rfl⟩ := hevent
    exact windowerEvent_keyBalanced cfg s ev h
  by_cases htick : ∃ now, action = .tick now
  · obtain ⟨now, rfl⟩ := htick
    exact windowerTick_keyBalanced cfg s now h
  obtain ⟨hb, hp, hc⟩ := step_windower_frame cfg s action (not_exists.mp hevent)
    (not_exists.mp htick)
  exact keyBalanced_of_eq cfg h hp hb hc

/-! ## Read off a balanced state -/

/-- Open accumulator of one bucket and key, zero when there is none. -/
def openAt (s : State queueMax) (b : Instant) (k : FlowKey) : FlowAcc :=
  (s.buckets.getD b .empty).getD k zeroAcc

/-- Selection of one bucket and one key. -/
def only (b : Instant) (k : FlowKey) : Selection := fun b' k' => decide (b' = b ∧ k' = k)

theorem openTotal_only (s : State queueMax) (b : Instant) (k : FlowKey) (q : Field) :
    openTotal (only b k) q s.buckets = FlowAcc.amount q (openAt s b k) := by
  have hslot : ∀ slot : Dict FlowKey FlowAcc,
      (slot.sumBy fun k' acc => if only b k b k' then FlowAcc.amount q acc else 0) =
        FlowAcc.amount q (slot.getD k zeroAcc) := by
    intro slot
    rw [Dict.sumBy_single _ slot k zeroAcc]
    · simp [only]
    · cases q <;> simp [FlowAcc.amount, zeroAcc]
    · intro k' acc hk
      simp [only, hk]
  rw [openTotal, Dict.sumBy_single _ s.buckets b .empty, hslot]
  · rfl
  · rw [hslot]
    cases q <;> rfl
  · intro b' slot hb
    simp [only, hb, Dict.sumBy]

/-- Without evictions everything consumed is in a delta, in the pending list, in transit
or in an open accumulator. -/
theorem Balanced.conserved {q : Quantity} {s : State queueMax} (h : Balanced q s)
    (hno : NoOverflow s) :
    builtTotal q s + flowTotal q s.pending + transitTotal q s + openAmount q s =
      consumedTotal q s := by
  have hev : evictedTotal q s = 0 := by
    simp only [evictedTotal, hno.1, hno.2, windowedTotal_nil, flowTotal_nil, add_zero]
  simp only [Balanced] at h
  omega

theorem KeyBalanced.conserved {cfg : Config} {s : State queueMax} (h : KeyBalanced cfg s)
    (b : Instant) (k : FlowKey) (q : Field) :
    pushedTotal (only b k) q s.outlet.pushed + FlowAcc.amount q (openAt s b k) =
      eventTotal cfg.windowS (only b k) q s.consumed := by
  rw [← openTotal_only]
  exact h (only b k) q

end FlowDiscovery.Correlator
