import FlowDiscovery.Correlator

/-!
# Which window a delta describes

The publisher closes its bucket when a later flow arrives and appends every
other flow to the pending list. A flow of an older bucket, which the windower
emits after a late event, is therefore counted into the bucket that happens to
be open. The deltas describe their own window exactly as long as no flow that
the publisher takes is older than its current bucket.
-/
namespace FlowDiscovery.Correlator
open PyTime FlowWindower SankeyPublisher Machine

variable {queueMax : ℕ}

/-- Every delta is built from flows of its own bucket only, and the pending
flows share one bucket. -/
structure WindowPure (s : State queueMax) : Prop where
  delta_pure : ∀ p ∈ s.published, ∀ f ∈ p.flows, f.bucketStart = p.delta.ts
  pending_pure : ∀ f ∈ s.pending, ∀ g ∈ s.pending, f.bucketStart = g.bucketStart

/-- If the action lets the publisher take a flow, that flow is not older than
the publisher's current bucket. -/
def InOrder (s : State queueMax) (action : Action) : Prop :=
  action = .publisherGet → ∀ lf ∈ s.sankeyQueue.items.head?, ∀ b ∈ s.currentBucket,
    b ≤ lf.bucketStart

/-- The pending list is exactly of the current bucket, and empty only at first. -/
structure PendingOfBucket (s : State queueMax) : Prop where
  start : s.currentBucket = none → s.pending = []
  nonempty : s.currentBucket ≠ none → s.pending ≠ []
  pending_eq : ∀ b ∈ s.currentBucket, ∀ f ∈ s.pending, f.bucketStart = b
  delta_pure : ∀ p ∈ s.published, ∀ f ∈ p.flows, f.bucketStart = p.delta.ts

theorem PendingOfBucket.windowPure {s : State queueMax} (h : PendingOfBucket s) :
    WindowPure s where
  delta_pure := h.delta_pure
  pending_pure := by
    intro f hf g hg
    cases hc : s.currentBucket with
    | none =>
      rw [h.start hc] at hf
      exact absurd hf List.not_mem_nil
    | some b => rw [h.pending_eq b hc f hf, h.pending_eq b hc g hg]

theorem initial_pendingOfBucket (aggregator : Option GroupAggregator) :
    PendingOfBucket (initial aggregator : State queueMax) where
  start _ := rfl
  nonempty h := absurd rfl h
  pending_eq := by simp [initial]
  delta_pure := by simp [initial]

/-- Taking a flow that is not older than the current bucket keeps the pending
list of one bucket, whether or not the bucket closes. -/
theorem PendingOfBucket.publisherTake (cfg : Config) {s : State queueMax} (h : PendingOfBucket s)
    (lf : LabelledFlow) (hle : ∀ b ∈ s.currentBucket, b ≤ lf.bucketStart) :
    PendingOfBucket (publisherTake cfg s lf) := by
  obtain ⟨b, hb, _, _, he⟩ | ⟨b, delta, agg, hb, _, _, hts, _, _, _, he⟩ | ⟨hnot, he⟩ :=
    publisherTake_cases cfg s lf
  · rw [he]
    exact ⟨by simp, by simp, by simp, h.delta_pure⟩
  · rw [he]
    refine ⟨by simp, by simp, by simp, ?_⟩
    intro p hp f hf
    rcases List.mem_append.mp hp with hp | hp
    · exact h.delta_pure p hp f hf
    · obtain rfl := List.mem_singleton.mp hp
      rw [h.pending_eq b hb f hf, hts]
  · rw [he]
    have hcur : s.currentBucket.getD lf.bucketStart = lf.bucketStart := by
      cases hc : s.currentBucket with
      | none => rfl
      | some b =>
        rw [hc, Option.getD_some] at hnot
        exact le_antisymm (hle b hc) (not_lt.mp hnot)
    refine ⟨by simp, by simp, ?_, h.delta_pure⟩
    intro b hb f hf
    rw [hcur, Option.mem_some_iff] at hb
    rcases List.mem_append.mp hf with hf | hf
    · cases hc : s.currentBucket with
      | none => simp [h.start hc] at hf
      | some b' =>
        rw [hc, Option.getD_some] at hcur
        rw [h.pending_eq b' hc f hf, hcur, hb]
    · rw [List.mem_singleton.mp hf, hb]

theorem PendingOfBucket.step (cfg : Config) {s : State queueMax} (h : PendingOfBucket s)
    (action : Action) (hin : InOrder s action) : PendingOfBucket (step cfg s action) := by
  by_cases ha : action = .publisherGet
  · subst ha
    obtain ⟨_, he⟩ | ⟨lf, q, hi, he⟩ := publisherGet_cases cfg s
    · simp only [Correlator.step, he]
      exact h
    · simp only [Correlator.step, he]
      have h' : PendingOfBucket { s with sankeyQueue := q } :=
        ⟨h.start, h.nonempty, h.pending_eq, h.delta_pure⟩
      exact h'.publisherTake cfg lf (hin rfl lf (by simp [hi]))
  · obtain ⟨hc, hp, hd⟩ := step_publisher_frame cfg s action ha
    exact ⟨by rw [hc, hp]; exact h.start, by rw [hc, hp]; exact h.nonempty,
      by rw [hc, hp]; exact h.pending_eq, by rw [hd]; exact h.delta_pure⟩

/-- An older flow joins the pending flows of the newer bucket at once. -/
theorem not_windowPure_of_older (cfg : Config) {s : State queueMax} (h : PendingOfBucket s)
    (action : Action) (hold : ¬ InOrder s action) : ¬ WindowPure (step cfg s action) := by
  simp only [InOrder, not_forall, not_le] at hold
  obtain ⟨rfl, lf, hlf, b, hb, hlt⟩ := hold
  intro hpure
  have hcur : s.currentBucket = some b := hb
  obtain ⟨f, hf⟩ := List.exists_mem_of_ne_nil _ (h.nonempty (by simp [hcur]))
  obtain ⟨hi, _⟩ | ⟨lf', q, hi, he⟩ := publisherGet_cases cfg s
  · simp [hi] at hlf
  · obtain rfl : lf' = lf := by simpa [hi] using hlf
    have hnot : ¬ b < lf'.bucketStart := not_lt.mpr hlt.le
    have hpend : (Correlator.step cfg s .publisherGet).pending = s.pending ++ [lf'] := by
      simp [Correlator.step, he, Correlator.publisherTake, hcur, hnot]
    have heq := hpure.pending_pure f (by simp [hpend, hf]) lf' (by simp [hpend])
    rw [h.pending_eq b hb f hf] at heq
    exact absurd heq hlt.ne'

theorem windowPure_of_inOrder (cfg : Config) (aggregator : Option GroupAggregator)
    (actions : List Action)
    (h : Along (step cfg) InOrder (initial aggregator : State queueMax) actions) :
    Throughout (step cfg) WindowPure (initial aggregator : State queueMax) actions := by
  have hI := throughout_of_along (I := PendingOfBucket) (fun s a hI hc => hI.step cfg a hc)
    (initial_pendingOfBucket aggregator) h
  exact hI.mono fun s hs => hs.windowPure

/-- On every run, deltas describe their own window throughout if and only if
the publisher never takes a flow older than its current bucket. -/
theorem windowPure_iff_inOrder (cfg : Config) (aggregator : Option GroupAggregator)
    (actions : List Action) :
    Throughout (step cfg) WindowPure (initial aggregator : State queueMax) actions ↔
      Along (step cfg) InOrder (initial aggregator : State queueMax) actions := by
  constructor
  · intro h
    exact along_of_throughout (fun s a hI _ hc => hI.step cfg a hc)
      (fun s a hI _ hc => not_windowPure_of_older cfg hI a hc)
      (initial_pendingOfBucket aggregator) h
  · exact windowPure_of_inOrder cfg aggregator actions

/-- Buckets 100 and 110 are emitted, then a late event reopens bucket 90. -/
def skewedClockRun : List Action :=
  [.event (sessionAt 100 443), .event (sessionAt 110 443), .event (sessionAt 90 443),
    .event (sessionAt 120 443)] ++ deliver ++ deliver ++ deliver

/-- Nothing overflows, and yet the delta published for bucket 100 was built from
a flow of bucket 90 as well. -/
theorem skewedClockRun_mixes_windows :
    let s := run (step fiveSecondGroups) (initial (some defaultAggregator) : State 10000)
      skewedClockRun
    s.outlet.evicted = [] ∧ s.evictedSankey = [] ∧
      s.published.map (fun p => (p.delta.ts, p.flows.map LabelledFlow.bucketStart)) =
        [(seconds 100, [seconds 100, seconds 90])] ∧
      ¬ WindowPure s := by
  have hflows : (run (step fiveSecondGroups) (initial (some defaultAggregator) : State 10000)
      skewedClockRun).published.map
        (fun p => (p.delta.ts, p.flows.map LabelledFlow.bucketStart)) =
      [(seconds 100, [seconds 100, seconds 90])] := by decide +kernel
  refine ⟨by decide, by decide, hflows, fun h => ?_⟩
  obtain ⟨p, hp, hpe⟩ := List.exists_of_mem_map (hflows ▸ List.mem_singleton_self _)
  simp only [Prod.mk.injEq] at hpe
  obtain ⟨f, hf, hfb⟩ : ∃ f ∈ p.flows, f.bucketStart = seconds 90 :=
    List.mem_map.mp (by simp [hpe.2])
  have hpure := h.delta_pure p hp f hf
  rw [hfb, hpe.1] at hpure
  exact absurd hpure (by decide)

end FlowDiscovery.Correlator
