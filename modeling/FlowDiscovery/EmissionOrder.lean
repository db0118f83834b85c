import FlowDiscovery.DeltaWindows

/-!
# Runs without late events

A flush emits its buckets oldest first, and every stage between the windower and
the publisher keeps the order of its flows. If no event falls into a bucket at or
below one that was emitted before, the publisher sees the buckets in order, also
when queues overflow, and every delta describes its own window.
-/
namespace FlowDiscovery.FlowWindower
open PyTime

variable {queueMax : ℕ}

/-! ## The order of a flush -/

/-- What emitting some buckets does: the new flows are of these buckets, which are
then closed, and they join the history and the queue in this order. -/
structure Emits (ready : List Instant) (st st' : Buckets × Outlet queueMax)
    (new : List WindowedFlow) : Prop where
  pushed_eq : st'.2.pushed = st.2.pushed ++ new
  queue_sublist : st'.2.out.items.Sublist (st.2.out.items ++ new)
  keys_subset : ∀ b ∈ st'.1.keys, b ∈ st.1.keys ∧ b ∉ ready
  sorted : ready.Pairwise (· ≤ ·) → (new.map WindowedFlow.bucketStart).Pairwise (· ≤ ·)
  mem_ready : ∀ wf ∈ new, wf.bucketStart ∈ ready

theorem foldl_push_order (windowS : ℕ) (bucket : Instant) (entries : List (FlowKey × FlowAcc))
    (o : Outlet queueMax) :
    ∃ new, (entries.foldl (push windowS bucket) o).pushed = o.pushed ++ new ∧
      (entries.foldl (push windowS bucket) o).out.items.Sublist (o.out.items ++ new) ∧
      ∀ wf ∈ new, wf.bucketStart = bucket := by
  induction entries generalizing o with
  | nil => exact ⟨[], by simp, by simp, by simp⟩
  | cons e rest ih =>
    obtain ⟨new, hpushed, hqueue, hbucket⟩ := ih (push windowS bucket o e)
    refine ⟨flowOf windowS o.dropped bucket e.1 e.2 :: new, ?_, ?_, ?_⟩
    · rw [List.foldl_cons, hpushed, push_pushed, List.append_assoc, List.singleton_append]
    · have hone := o.out.putDropOldest_sublist (flowOf windowS o.dropped bucket e.1 e.2)
      have htwo := hqueue.trans (hone.append_right new)
      rwa [List.append_assoc, List.singleton_append] at htwo
    · intro wf hwf
      rcases List.mem_cons.mp hwf with rfl | hwf
      · rfl
      · exact hbucket wf hwf

theorem emitBucket_emits (windowS : ℕ) (st : Buckets × Outlet queueMax) (bucket : Instant) :
    ∃ new, Emits [bucket] st (emitBucket windowS st bucket) new := by
  unfold emitBucket
  cases hg : st.1.get? bucket with
  | none =>
    have habsent := (Dict.get?_eq_none_iff st.1 bucket).mp hg
    refine ⟨[], by simp, by simp, fun b hb => ⟨hb, ?_⟩, by simp, by simp⟩
    rw [List.mem_singleton]
    rintro rfl
    exact habsent hb
  | some slot =>
    obtain ⟨new, hpushed, hqueue, hbucket⟩ := foldl_push_order windowS bucket slot.entries st.2
    refine ⟨new, hpushed, hqueue, ?_, fun _ => ?_, ?_⟩
    · intro b hb
      obtain ⟨e, he, rfl⟩ := List.mem_map.mp hb
      obtain ⟨hmem, hne⟩ := (Dict.mem_entries_erase st.1 bucket e).mp he
      exact ⟨List.mem_map_of_mem hmem, by simpa using hne⟩
    · rw [List.pairwise_map]
      refine List.pairwise_of_forall_mem_list fun wf hwf wf' hwf' => ?_
      rw [hbucket wf hwf, hbucket wf' hwf']
    · intro wf hwf
      simp [hbucket wf hwf]

theorem foldl_emitBucket_emits (windowS : ℕ) (ready : List Instant)
    (st : Buckets × Outlet queueMax) :
    ∃ new, Emits ready st (ready.foldl (emitBucket windowS) st) new := by
  induction ready generalizing st with
  | nil => exact ⟨[], by simp, by simp, by simp, by simp, by simp⟩
  | cons b rest ih =>
    obtain ⟨new₁, h₁⟩ := emitBucket_emits windowS st b
    obtain ⟨new₂, h₂⟩ := ih (emitBucket windowS st b)
    refine ⟨new₁ ++ new₂, ?_, ?_, ?_, ?_, ?_⟩
    · rw [List.foldl_cons, h₂.pushed_eq, h₁.pushed_eq, List.append_assoc]
    · have hqueue := h₂.queue_sublist.trans (h₁.queue_sublist.append_right new₂)
      rwa [List.append_assoc] at hqueue
    · intro b' hb'
      obtain ⟨hmem, hrest⟩ := h₂.keys_subset b' hb'
      obtain ⟨hopen, hne⟩ := h₁.keys_subset b' hmem
      exact ⟨hopen, fun h => (List.mem_cons.mp h).elim (fun he => hne (by simp [he])) hrest⟩
    · intro hsorted
      obtain ⟨hfirst, hrest⟩ := List.pairwise_cons.mp hsorted
      rw [List.map_append, List.pairwise_append]
      refine ⟨h₁.sorted (List.pairwise_singleton _ _), h₂.sorted hrest, ?_⟩
      intro x hx y hy
      obtain ⟨wf, hwf, rfl⟩ := List.mem_map.mp hx
      obtain ⟨wf', hwf', rfl⟩ := List.mem_map.mp hy
      rw [List.mem_singleton.mp (h₁.mem_ready wf hwf)]
      exact hfirst _ (h₂.mem_ready wf' hwf')
    · intro wf hwf
      rcases List.mem_append.mp hwf with hwf | hwf
      · rw [List.mem_singleton.mp (h₁.mem_ready wf hwf)]
        exact List.mem_cons_self
      · exact List.mem_cons_of_mem _ (h₂.mem_ready wf hwf)

theorem emitReady_emits (windowS : ℕ) (now : Instant) (st : Buckets × Outlet queueMax) :
    ∃ new, Emits (readyBuckets windowS st.1 now) st (emitReady windowS now st) new := by
  obtain ⟨new, h⟩ := foldl_emitBucket_emits windowS (readyBuckets windowS st.1 now) st
  refine ⟨new, ?_⟩
  unfold emitReady
  dsimp only
  split_ifs
  · exact h
  · exact ⟨h.pushed_eq, h.queue_sublist, h.keys_subset, h.sorted, h.mem_ready⟩

theorem mem_readyBuckets {windowS : ℕ} {buckets : Buckets} {now b : Instant} :
    b ∈ readyBuckets windowS buckets now ↔
      b ∈ buckets.keys ∧ b ≤ bucketStart windowS now - seconds windowS := by
  simp [readyBuckets]

theorem readyBuckets_sorted (windowS : ℕ) (buckets : Buckets) (now : Instant) :
    (readyBuckets windowS buckets now).Pairwise (· ≤ ·) := List.pairwise_insertionSort _ _

/-- A bucket that a flush leaves open is newer than all buckets it emits. -/
theorem lt_of_mem_ready (windowS : ℕ) {buckets : Buckets} {now b b' : Instant}
    (hopen : b ∈ buckets.keys) (hleft : b ∉ readyBuckets windowS buckets now)
    (hready : b' ∈ readyBuckets windowS buckets now) : b' < b := by
  rw [mem_readyBuckets] at hleft hready
  exact lt_of_le_of_lt hready.2 (not_le.mp fun hle => hleft ⟨hopen, hle⟩)

end FlowDiscovery.FlowWindower

namespace FlowDiscovery.Correlator
open PyTime FlowWindower SankeyPublisher Machine

variable {queueMax : ℕ}

/-! ## The line of buckets -/

def labellerBuckets : Labeller → List Instant
  | .idle => []
  | .resolving wf => [wf.bucketStart]
  | .putting lf => [lf.bucketStart]

/-- Buckets between the windower and the publisher, the current one first. -/
def line (s : State queueMax) : List Instant :=
  s.currentBucket.toList ++ s.sankeyQueue.items.map LabelledFlow.bucketStart ++
    s.intermediate.items.map LabelledFlow.bucketStart ++ labellerBuckets s.labeller ++
    s.outlet.out.items.map WindowedFlow.bucketStart

/-- Buckets of all flows emitted so far. -/
def emitted (s : State queueMax) : List Instant := s.outlet.pushed.map WindowedFlow.bucketStart

/-- An event is of a newer bucket than everything emitted before it. -/
def Punctual (cfg : Config) (s : State queueMax) : Action → Prop
  | .event ev => ∀ b ∈ emitted s, b < bucketStart cfg.windowS ev.ts
  | _ => True

/-- The line is sorted and emitted, and all open buckets are newer. -/
structure Aligned (s : State queueMax) : Prop where
  sorted : (line s).Pairwise (· ≤ ·)
  line_emitted : ∀ b ∈ line s, b ∈ emitted s
  open_newer : ∀ b ∈ s.buckets.keys, ∀ b' ∈ emitted s, b' < b

theorem initial_aligned (aggregator : Option GroupAggregator) :
    Aligned (initial aggregator : State queueMax) where
  sorted := by simp [initial, line, labellerBuckets]
  line_emitted := by simp [initial, line, labellerBuckets]
  open_newer := by simp [initial, emitted]

/-- A stage that only shortens the line keeps it aligned. -/
theorem Aligned.of_sublist {s t : State queueMax} (h : Aligned s)
    (hline : (line t).Sublist (line s)) (hpushed : t.outlet.pushed = s.outlet.pushed)
    (hbuckets : t.buckets = s.buckets) : Aligned t where
  sorted := h.sorted.sublist hline
  line_emitted := by
    intro b hb
    rw [emitted, hpushed]
    exact h.line_emitted b (hline.subset hb)
  open_newer := by
    rw [emitted, hpushed, hbuckets]
    exact h.open_newer

theorem Aligned.windowerTick (cfg : Config) {s : State queueMax} (h : Aligned s) (now : Instant) :
    Aligned (windowerTick cfg s now) := by
  obtain ⟨new, hnew⟩ := emitReady_emits cfg.windowS now (s.buckets, s.outlet)
  have hemitted : emitted (Correlator.windowerTick cfg s now) =
      emitted s ++ new.map WindowedFlow.bucketStart := by
    simp only [emitted, ← List.map_append, ← hnew.pushed_eq]
    rfl
  have hline : (line (Correlator.windowerTick cfg s now)).Sublist
      (line s ++ new.map WindowedFlow.bucketStart) := by
    have hqueue := hnew.queue_sublist.map WindowedFlow.bucketStart
    rw [List.map_append] at hqueue
    simp only [line, List.append_assoc]
    exact ((((hqueue.append_left _).append_left _).append_left _).append_left _)
  have hready : ∀ b ∈ new.map WindowedFlow.bucketStart,
      b ∈ readyBuckets cfg.windowS s.buckets now := by
    intro b hb
    obtain ⟨wf, hwf, rfl⟩ := List.mem_map.mp hb
    exact hnew.mem_ready wf hwf
  have hsorted : (line s ++ new.map WindowedFlow.bucketStart).Pairwise (· ≤ ·) := by
    rw [List.pairwise_append]
    refine ⟨h.sorted, hnew.sorted (readyBuckets_sorted _ _ _), fun b hb b' hb' => ?_⟩
    have hopen : b' ∈ s.buckets.keys := (mem_readyBuckets.mp (hready b' hb')).1
    exact (h.open_newer b' hopen b (h.line_emitted b hb)).le
  refine ⟨hsorted.sublist hline, ?_, ?_⟩
  · intro b hb
    rw [hemitted]
    rcases List.mem_append.mp (hline.subset hb) with hb | hb
    · exact List.mem_append_left _ (h.line_emitted b hb)
    · exact List.mem_append_right _ hb
  · intro b hb b' hb'
    obtain ⟨hopen, hleft⟩ := hnew.keys_subset b hb
    rw [hemitted] at hb'
    rcases List.mem_append.mp hb' with hb' | hb'
    · exact h.open_newer b hopen b' hb'
    · exact lt_of_mem_ready cfg.windowS hopen hleft (hready b' hb')

theorem Aligned.windowerEvent (cfg : Config) {s : State queueMax} (h : Aligned s) (ev : FlowEvent)
    (hpunctual : Punctual cfg s (.event ev)) : Aligned (windowerEvent cfg s ev) := by
  have haccumulated : Aligned { s with
      buckets := accumulate cfg.windowS s.buckets ev, consumed := s.consumed ++ [ev] } := by
    refine ⟨h.sorted, h.line_emitted, fun b hb b' hb' => ?_⟩
    rcases (Dict.mem_keys_update _ _ _ _ _).mp hb with rfl | hb
    · exact hpunctual b' hb'
    · exact h.open_newer b hb b' hb'
  exact haccumulated.windowerTick cfg ev.ts

/-- A flow that is not older than the current bucket becomes the current one. -/
theorem publisherTake_line (cfg : Config) (s : State queueMax) (lf : LabelledFlow)
    (hle : ∀ b ∈ s.currentBucket, b ≤ lf.bucketStart) :
    line (publisherTake cfg s lf) = line { s with currentBucket := some lf.bucketStart } ∧
      (publisherTake cfg s lf).outlet = s.outlet ∧
      (publisherTake cfg s lf).buckets = s.buckets := by
  obtain ⟨_, _, _, _, he⟩ | ⟨_, _, _, _, _, _, _, _, _, _, he⟩ | ⟨hnot, he⟩ :=
    publisherTake_cases cfg s lf
  · rw [he]
    exact ⟨rfl, rfl, rfl⟩
  · rw [he]
    exact ⟨rfl, rfl, rfl⟩
  · have hcurrent : s.currentBucket.getD lf.bucketStart = lf.bucketStart := by
      cases hc : s.currentBucket with
      | none => rfl
      | some b =>
        rw [hc, Option.getD_some] at hnot
        exact le_antisymm (hle b hc) (not_lt.mp hnot)
    rw [he, hcurrent]
    exact ⟨rfl, rfl, rfl⟩

/-- The next flow of the publisher is not older than its current bucket. -/
theorem Aligned.inOrder {s : State queueMax} (h : Aligned s) (action : Action) :
    InOrder s action := by
  intro _ lf hlf b hb
  obtain ⟨rest, hrest⟩ := List.head?_eq_some_iff.mp hlf
  have hsorted := h.sorted
  rw [line, Option.mem_def.mp hb, hrest] at hsorted
  simp only [Option.toList_some, List.map_cons, List.cons_append, List.nil_append,
    List.pairwise_cons] at hsorted
  exact hsorted.1 lf.bucketStart List.mem_cons_self

theorem Aligned.publisherGet (cfg : Config) {s : State queueMax} (h : Aligned s) :
    Aligned (publisherGet cfg s) := by
  obtain ⟨_, he⟩ | ⟨lf, q, hi, he⟩ := publisherGet_cases cfg s
  · rw [he]
    exact h
  · rw [he]
    have hle : ∀ b ∈ s.currentBucket, b ≤ lf.bucketStart :=
      h.inOrder .publisherGet rfl lf (by simp [hi])
    obtain ⟨hline, hout, hbuckets⟩ := publisherTake_line cfg { s with sankeyQueue := q } lf hle
    refine h.of_sublist ?_ (by rw [hout]) hbuckets
    rw [hline]
    simp only [line, hi, List.map_cons, Option.toList_some, List.append_assoc]
    exact List.sublist_append_right _ _

theorem Aligned.demux {s : State queueMax} (h : Aligned s) : Aligned (demux s) := by
  obtain ⟨_, he⟩ | ⟨lf, q, hi, he⟩ := demux_cases s
  · rw [he]
    exact h
  · rw [he]
    refine h.of_sublist ?_ rfl rfl
    have hqueue := (s.sankeyQueue.putDropOldest_sublist lf).map LabelledFlow.bucketStart
    simp only [line, hi, List.map_cons, List.append_assoc]
    rw [List.map_append, List.map_singleton] at hqueue
    have hmoved := (hqueue.append_right (q.items.map LabelledFlow.bucketStart ++
      (labellerBuckets s.labeller ++ s.outlet.out.items.map WindowedFlow.bucketStart)))
    rw [List.append_assoc, List.singleton_append] at hmoved
    exact hmoved.append_left _

theorem Aligned.step (cfg : Config) {s : State queueMax} (h : Aligned s) (action : Action)
    (hpunctual : Punctual cfg s action) : Aligned (step cfg s action) := by
  cases action with
  | event ev => exact h.windowerEvent cfg ev hpunctual
  | tick now => exact h.windowerTick cfg now
  | labelTake =>
    obtain he | ⟨wf, q, hidle, hi, he⟩ := labelTake_cases s
    · rw [Correlator.step, he]
      exact h
    · rw [Correlator.step, he]
      refine h.of_sublist ?_ rfl rfl
      simp [line, hidle, hi, labellerBuckets]
  | labelResolved candidate hit =>
    obtain he | ⟨wf, hresolving, he⟩ := labelResolved_cases s candidate hit
    · rw [Correlator.step, he]
      exact h
    · rw [Correlator.step, he]
      refine h.of_sublist ?_ rfl rfl
      simp [line, hresolving, labellerBuckets, labelFlow]
  | labelPut =>
    obtain he | ⟨lf, q, hputting, hi, he⟩ := labelPut_cases s
    · rw [Correlator.step, he]
      exact h
    · rw [Correlator.step, he]
      refine h.of_sublist ?_ rfl rfl
      simp [line, hputting, hi, labellerBuckets]
  | demux => exact h.demux
  | publisherGet => exact h.publisherGet cfg
  | writerGet =>
    obtain ⟨q, he⟩ := writerGet_cases s
    rw [Correlator.step, he]
    exact h.of_sublist (List.Sublist.refl _) rfl rfl
  | reloadGroups rows => exact h.of_sublist (List.Sublist.refl _) rfl rfl
  | clearCache => exact h.of_sublist (List.Sublist.refl _) rfl rfl

/-- If no event is of a bucket at or below one emitted before, the publisher takes
the flows in order and every delta describes its own window. -/
theorem windowPure_of_punctual (cfg : Config) (aggregator : Option GroupAggregator)
    (actions : List Action)
    (h : Along (step cfg) (Punctual cfg) (initial aggregator : State queueMax) actions) :
    Throughout (step cfg) WindowPure (initial aggregator : State queueMax) actions := by
  have hordered : Along (step cfg) InOrder (initial aggregator : State queueMax) actions :=
    along_of_invariant (fun s a hs ha => Aligned.step cfg hs a ha)
      (fun s a hs _ => Aligned.inOrder hs a) (initial_aligned aggregator) h
  exact windowPure_of_inOrder cfg aggregator actions hordered

end FlowDiscovery.Correlator
