import FlowDiscovery.Conservation
import FlowDiscovery.TumblingWindows

/-!
# A delta for every window

From events to deltas through all queues. If no event is of a window that was emitted
before and no queue overflows, the deltas are those of a plain report: for each window with
events, once and in order, one flow per key with the sums of all events of the window.
The order of the flows, the names and the actions in them are those of the events too.
-/
namespace FlowDiscovery.FlowWindower
open PyTime TumblingWindows

/-- The accumulators of a window over all events at once. -/
def windowSlot (windowS : ℕ) (b : Instant) (events : List FlowEvent) : Dict FlowKey FlowAcc :=
  (events.filter fun ev => bucketStart windowS ev.ts = b).foldl
    (fun slot ev => slot.update (keyOf ev) zeroAcc (addEvent ev)) .empty

/-- Key and accumulator of an emitted flow. -/
def entryOf (wf : WindowedFlow) : FlowKey × FlowAcc :=
  (flowKey wf, ⟨wf.bytes, wf.packets, wf.flowCount, wf.appId, wf.fqdn, wf.action⟩)

/-- The flows of one bucket. -/
def ofBucket (b : Instant) (flows : List WindowedFlow) : List WindowedFlow :=
  flows.filter fun wf => wf.bucketStart = b

variable {queueMax : ℕ}

/-! ## The content of a flush -/

lemma windowSlot_append (windowS : ℕ) (b : Instant) (events : List FlowEvent) (ev : FlowEvent) :
    windowSlot windowS b (events ++ [ev]) =
      if bucketStart windowS ev.ts = b then
        (windowSlot windowS b events).update (keyOf ev) zeroAcc (addEvent ev)
      else windowSlot windowS b events := by
  by_cases hb : bucketStart windowS ev.ts = b <;>
    simp [windowSlot, List.filter_append, List.foldl_append, hb]

lemma windowSlot_eq_empty {windowS : ℕ} {b : Instant} {events : List FlowEvent}
    (h : ∀ ev ∈ events, bucketStart windowS ev.ts ≠ b) : windowSlot windowS b events = .empty := by
  have hnone : (events.filter fun ev => bucketStart windowS ev.ts = b) = [] := by
    simpa [List.filter_eq_nil_iff] using h
  simp only [windowSlot, hnone, List.foldl_nil]

/-- An event leaves a trace in its window. -/
lemma windowSlot_ne_nil {windowS : ℕ} {events : List FlowEvent} {ev : FlowEvent}
    (h : ev ∈ events) : (windowSlot windowS (bucketStart windowS ev.ts) events).entries ≠ [] := by
  have hkey : keyOf ev ∈ (windowSlot windowS (bucketStart windowS ev.ts) events).keys := by
    rw [windowSlot, Dict.mem_keys_foldl_update]
    exact .inr ⟨ev, by simpa using h, rfl⟩
  intro hnil
  simp [Dict.keys, hnil] at hkey

/-- The accumulators of a window add up to its events. -/
lemma windowSlot_total (windowS : ℕ) (b : Instant) (q : Field) (events : List FlowEvent) :
    (windowSlot windowS b events).sumBy (fun _ acc => FlowAcc.amount q acc) =
      ((events.filter fun ev => bucketStart windowS ev.ts = b).map (eventAmount q)).sum := by
  induction events using List.reverseRecOn with
  | nil => rfl
  | append_singleton events ev ih =>
    rw [windowSlot_append, List.filter_append]
    by_cases hb : bucketStart windowS ev.ts = b
    · rw [if_pos hb, Dict.sumBy_update _ _ _ _ _ (eventAmount q ev) (by cases q <;> rfl)
        (fun acc => by cases q <;> rfl), ih]
      simp [hb]
    · simp [hb, ih]

@[simp] lemma ofBucket_append (b : Instant) (first second : List WindowedFlow) :
    ofBucket b (first ++ second) = ofBucket b first ++ ofBucket b second := List.filter_append ..

lemma ofBucket_eq_self {b : Instant} {flows : List WindowedFlow}
    (h : ∀ wf ∈ flows, wf.bucketStart = b) : ofBucket b flows = flows := by
  simpa [ofBucket, List.filter_eq_self] using h

lemma ofBucket_eq_nil {b : Instant} {flows : List WindowedFlow}
    (h : ∀ wf ∈ flows, wf.bucketStart ≠ b) : ofBucket b flows = [] := by
  simpa [ofBucket, List.filter_eq_nil_iff] using h

lemma foldl_push_entries (windowS : ℕ) (bucket : Instant) (entries : List (FlowKey × FlowAcc))
    (o : Outlet queueMax) :
    ∃ new, (entries.foldl (push windowS bucket) o).pushed = o.pushed ++ new ∧
      new.map entryOf = entries ∧ ∀ wf ∈ new, wf.bucketStart = bucket := by
  induction entries generalizing o with
  | nil => exact ⟨[], by simp, rfl, by simp⟩
  | cons e rest ih =>
    obtain ⟨new, hpushed, hentries, hbucket⟩ := ih (push windowS bucket o e)
    refine ⟨flowOf windowS o.dropped bucket e.1 e.2 :: new, ?_, ?_, ?_⟩
    · rw [List.foldl_cons, hpushed, push_pushed, List.append_assoc, List.singleton_append]
    · rw [List.map_cons, hentries]
      rfl
    · rintro wf (_ | ⟨_, hwf⟩)
      · rfl
      · exact hbucket wf hwf

/-- The flows that leave for each window, and what stays open. -/
structure Drains (ready : List Instant) (st st' : Buckets × Outlet queueMax)
    (new : List WindowedFlow) : Prop where
  pushed_eq : st'.2.pushed = st.2.pushed ++ new
  content : ∀ b, (ofBucket b new).map entryOf =
    if b ∈ ready then ((st.1.get? b).map Dict.entries).getD [] else []
  stays : ∀ b, st'.1.get? b = if b ∈ ready then none else st.1.get? b

lemma emitBucket_drains (windowS : ℕ) (st : Buckets × Outlet queueMax) (bucket : Instant) :
    ∃ new, Drains [bucket] st (emitBucket windowS st bucket) new := by
  unfold emitBucket
  cases hget : st.1.get? bucket with
  | none =>
    refine ⟨[], by simp, fun b => ?_, fun b => ?_⟩
    · by_cases hb : b = bucket <;> simp [ofBucket, hb, hget]
    · by_cases hb : b = bucket <;> simp [hb, hget]
  | some slot =>
    obtain ⟨new, hpushed, hentries, hbucket⟩ := foldl_push_entries windowS bucket slot.entries st.2
    refine ⟨new, hpushed, fun b => ?_, fun b => ?_⟩
    · by_cases hb : b = bucket
      · subst hb
        simp [ofBucket_eq_self hbucket, hentries, hget]
      · have hnone : ofBucket b new = [] :=
          ofBucket_eq_nil fun wf hwf heq => hb (heq.symm.trans (hbucket wf hwf))
        simp [hnone, hb]
    · rw [Dict.get?_erase]
      by_cases hb : b = bucket
      · simp [hb]
      · simp [hb, Ne.symm hb]

lemma foldl_emitBucket_drains (windowS : ℕ) {ready : List Instant} (hready : ready.Nodup)
    (st : Buckets × Outlet queueMax) :
    ∃ new, Drains ready st (ready.foldl (emitBucket windowS) st) new := by
  induction ready generalizing st with
  | nil => exact ⟨[], by simp, fun b => by simp [ofBucket], fun b => by simp⟩
  | cons bucket rest ih =>
    obtain ⟨hfirst, hrest⟩ := List.nodup_cons.mp hready
    obtain ⟨new₁, h₁⟩ := emitBucket_drains windowS st bucket
    obtain ⟨new₂, h₂⟩ := ih hrest (emitBucket windowS st bucket)
    refine ⟨new₁ ++ new₂, ?_, fun b => ?_, fun b => ?_⟩
    · rw [List.foldl_cons, h₂.pushed_eq, h₁.pushed_eq, List.append_assoc]
    · rw [ofBucket_append, List.map_append, h₁.content, h₂.content, h₁.stays]
      by_cases hb : b = bucket
      · subst hb
        simp [hfirst]
      · simp [hb]
    · rw [List.foldl_cons, h₂.stays, h₁.stays]
      by_cases hb : b = bucket <;> simp [hb]

theorem emitReady_drains (windowS : ℕ) (now : Instant) (st : Buckets × Outlet queueMax) :
    ∃ new, Drains (readyBuckets windowS st.1 now) st (emitReady windowS now st) new := by
  have hready : (readyBuckets windowS st.1 now).Nodup := by
    have hsorted := List.perm_insertionSort (· ≤ ·)
      (st.1.keys.filter fun b => b ≤ bucketStart windowS now - seconds windowS)
    exact hsorted.nodup_iff.mpr (st.1.nodup.filter _)
  obtain ⟨new, h⟩ := foldl_emitBucket_drains windowS hready st
  refine ⟨new, ?_⟩
  unfold emitReady
  dsimp only
  split_ifs
  · exact h
  · exact ⟨h.pushed_eq, h.content, h.stays⟩

end FlowDiscovery.FlowWindower

namespace FlowDiscovery.Correlator
open PyTime FlowWindower TumblingWindows SankeyPublisher Machine

variable {queueMax : ℕ}

/-! ## What the windower has emitted -/

/-- Open buckets hold the accumulators of all events so far, emitted ones have left with
them, and every event is in one or the other. -/
structure Faithful (cfg : Config) (s : State queueMax) : Prop where
  open_eq : ∀ b slot, s.buckets.get? b = some slot → slot = windowSlot cfg.windowS b s.consumed
  emitted_eq : ∀ b ∈ emitted s, (ofBucket b s.outlet.pushed).map entryOf =
    (windowSlot cfg.windowS b s.consumed).entries
  covered : ∀ ev ∈ s.consumed,
    bucketStart cfg.windowS ev.ts ∈ s.buckets.keys ∨ bucketStart cfg.windowS ev.ts ∈ emitted s

lemma not_mem_emitted_of_open {s : State queueMax} (h : Aligned s) {b : Instant}
    (hb : b ∈ s.buckets.keys) : b ∉ emitted s := fun hmem => lt_irrefl b (h.open_newer b hb b hmem)

lemma ofBucket_pushed {s : State queueMax} {b : Instant} (hb : b ∉ emitted s) :
    ofBucket b s.outlet.pushed = [] :=
  ofBucket_eq_nil fun _ hwf heq => hb (heq ▸ List.mem_map_of_mem hwf)

/-- An event of a window that is not emitted extends its accumulators. -/
lemma Faithful.accumulate {cfg : Config} {s : State queueMax} (h : Faithful cfg s) {ev : FlowEvent}
    (hnew : bucketStart cfg.windowS ev.ts ∉ emitted s) :
    Faithful cfg { s with
      buckets := accumulate cfg.windowS s.buckets ev, consumed := s.consumed ++ [ev] } where
  open_eq := by
    intro b slot hslot
    rw [windowSlot_append]
    simp only [FlowWindower.accumulate, Dict.get?_update] at hslot
    by_cases hb : bucketStart cfg.windowS ev.ts = b
    · subst hb
      rw [if_pos rfl, Option.some.injEq] at hslot
      rw [if_pos rfl, ← hslot]
      cases hget : s.buckets.get? (bucketStart cfg.windowS ev.ts) with
      | some old =>
        rw [← h.open_eq _ old hget]
        simp [Dict.getD, hget]
      | none =>
        -- the first event of its window
        have hfirst : ∀ ev' ∈ s.consumed,
            bucketStart cfg.windowS ev'.ts ≠ bucketStart cfg.windowS ev.ts := by
          intro ev' hev' heq
          rcases h.covered ev' hev' with hopen | hemitted
          · exact (Dict.get?_eq_none_iff _ _).mp hget (heq ▸ hopen)
          · exact hnew (heq ▸ hemitted)
        rw [windowSlot_eq_empty hfirst]
        simp [Dict.getD, hget]
    · rw [if_neg hb] at hslot ⊢
      exact h.open_eq b slot hslot
  emitted_eq := by
    intro b hb
    have hne : bucketStart cfg.windowS ev.ts ≠ b := fun heq => hnew (heq ▸ hb)
    rw [windowSlot_append, if_neg hne]
    exact h.emitted_eq b hb
  covered := by
    intro ev' hev'
    rw [FlowWindower.accumulate, Dict.mem_keys_update]
    rcases List.mem_append.mp hev' with hev' | hev'
    · exact (h.covered ev' hev').imp_left .inr
    · obtain rfl := List.mem_singleton.mp hev'
      exact .inl (.inl rfl)

lemma Faithful.tick {cfg : Config} {s : State queueMax} (h : Faithful cfg s) (haligned : Aligned s)
    (now : Instant) : Faithful cfg (windowerTick cfg s now) := by
  obtain ⟨new, hnew⟩ := emitReady_drains cfg.windowS now (s.buckets, s.outlet)
  have hemitted : emitted (windowerTick cfg s now) =
      emitted s ++ new.map WindowedFlow.bucketStart := by
    simp only [emitted, ← List.map_append, ← hnew.pushed_eq]
    rfl
  have hpushed : (windowerTick cfg s now).outlet.pushed = s.outlet.pushed ++ new := hnew.pushed_eq
  constructor
  case open_eq =>
    intro b slot hslot
    have hstays : (windowerTick cfg s now).buckets.get? b = _ := hnew.stays b
    rw [hslot] at hstays
    split_ifs at hstays
    exact h.open_eq b slot hstays.symm
  case emitted_eq =>
    intro b hb
    rw [hpushed, ofBucket_append, List.map_append, hnew.content]
    by_cases hready : b ∈ readyBuckets cfg.windowS s.buckets now
    · have hopen : b ∈ s.buckets.keys := (mem_readyBuckets.mp hready).1
      obtain ⟨slot, hslot⟩ := Option.isSome_iff_exists.mp ((Dict.get?_isSome_iff _ _).mpr hopen)
      rw [ofBucket_pushed (not_mem_emitted_of_open haligned hopen), if_pos hready, hslot]
      simp [h.open_eq b slot hslot]
      rfl
    · have hold : b ∈ emitted s := by
        rw [hemitted] at hb
        refine (List.mem_append.mp hb).resolve_right fun hmem => ?_
        obtain ⟨wf, hwf, rfl⟩ := List.mem_map.mp hmem
        have hcontent := hnew.content wf.bucketStart
        rw [if_neg hready, List.map_eq_nil_iff] at hcontent
        have hmem : wf ∈ ofBucket wf.bucketStart new := List.mem_filter.mpr ⟨hwf, by simp⟩
        rw [hcontent] at hmem
        exact List.not_mem_nil hmem
      rw [if_neg hready, List.append_nil]
      exact h.emitted_eq b hold
  case covered =>
    intro ev hev
    rcases h.covered ev hev with hopen | hold
    · by_cases hready : bucketStart cfg.windowS ev.ts ∈ readyBuckets cfg.windowS s.buckets now
      · right
        obtain ⟨slot, hslot⟩ := Option.isSome_iff_exists.mp ((Dict.get?_isSome_iff _ _).mpr hopen)
        have hcontent := hnew.content (bucketStart cfg.windowS ev.ts)
        rw [if_pos hready, hslot, Option.map_some, Option.getD_some, h.open_eq _ slot hslot]
          at hcontent
        have hne : ofBucket (bucketStart cfg.windowS ev.ts) new ≠ [] := by
          intro hnil
          rw [hnil] at hcontent
          exact windowSlot_ne_nil hev hcontent.symm
        obtain ⟨wf, hwf⟩ := List.exists_mem_of_ne_nil _ hne
        obtain ⟨hmem, hb⟩ := List.mem_filter.mp hwf
        rw [hemitted]
        exact List.mem_append_right _ (List.mem_map.mpr ⟨wf, hmem, by simpa using hb⟩)
      · left
        rw [← Dict.get?_isSome_iff] at hopen ⊢
        have hstays : (windowerTick cfg s now).buckets.get? _ = _ :=
          hnew.stays (bucketStart cfg.windowS ev.ts)
        rwa [hstays, if_neg hready]
    · exact .inr (hemitted ▸ List.mem_append_left _ hold)

theorem Faithful.step (cfg : Config) {s : State queueMax} (h : Faithful cfg s)
    (haligned : Aligned s) (action : Action) (hpunctual : Punctual cfg s action) :
    Faithful cfg (step cfg s action) := by
  have hother {t : State queueMax} (hbuckets : t.buckets = s.buckets)
      (hpushed : t.outlet.pushed = s.outlet.pushed) (hconsumed : t.consumed = s.consumed) :
      Faithful cfg t := by
    refine ⟨?_, ?_, ?_⟩ <;> simp only [emitted, hbuckets, hpushed, hconsumed]
    exacts [h.open_eq, h.emitted_eq, h.covered]
  cases action with
  | event ev =>
    have hnew : bucketStart cfg.windowS ev.ts ∉ emitted s :=
      fun hmem => lt_irrefl _ (hpunctual _ hmem)
    refine (h.accumulate hnew).tick ⟨haligned.sorted, haligned.line_emitted, ?_⟩ ev.ts
    intro b hb b' hb'
    rcases (Dict.mem_keys_update _ _ _ _ _).mp hb with rfl | hb
    · exact hpunctual b' hb'
    · exact haligned.open_newer b hb b' hb'
  | tick now => exact h.tick haligned now
  | labelTake =>
    obtain he | ⟨_, _, _, _, he⟩ := labelTake_cases s <;> rw [Correlator.step, he]
    · exact h
    · exact hother rfl rfl rfl
  | labelResolved candidate hit =>
    obtain he | ⟨_, _, he⟩ := labelResolved_cases s candidate hit <;> rw [Correlator.step, he]
    · exact h
    · exact hother rfl rfl rfl
  | labelPut =>
    obtain he | ⟨_, _, _, _, he⟩ := labelPut_cases s <;> rw [Correlator.step, he]
    · exact h
    · exact hother rfl rfl rfl
  | demux =>
    obtain ⟨_, he⟩ | ⟨_, _, _, he⟩ := demux_cases s <;> rw [Correlator.step, he]
    · exact h
    · exact hother rfl rfl rfl
  | publisherGet =>
    obtain ⟨_, he⟩ | ⟨lf, q, _, he⟩ := publisherGet_cases cfg s
    · rw [Correlator.step, he]
      exact h
    · obtain ⟨_, _, _, _, hp⟩ | ⟨_, _, _, _, _, _, _, _, _, _, hp⟩ | ⟨_, hp⟩ :=
        publisherTake_cases cfg { s with sankeyQueue := q } lf <;>
      · rw [Correlator.step, he, hp]
        exact hother rfl rfl rfl
  | writerGet =>
    obtain ⟨_, he⟩ := writerGet_cases s
    rw [Correlator.step, he]
    exact hother rfl rfl rfl
  | reloadGroups rows => exact hother rfl rfl rfl
  | clearCache => exact hother rfl rfl rfl

/-! ## The way to the publisher -/

/-- What a label leaves alone. -/
structure Traffic where
  bucket : Instant
  key : FlowKey
  bytes : ℤ
  packets : ℤ
  flowCount : ℤ
  deriving DecidableEq, Repr

def trafficOf (wf : WindowedFlow) : Traffic :=
  ⟨wf.bucketStart, flowKey wf, wf.bytes, wf.packets, wf.flowCount⟩

def labelledTraffic (lf : LabelledFlow) : Traffic :=
  ⟨lf.bucketStart, ⟨lf.srcIp, lf.dstIp, lf.dstPort, lf.proto⟩, lf.bytes, lf.packets, lf.flowCount⟩

def labellerTraffic : Labeller → List Traffic
  | .idle => []
  | .resolving wf => [trafficOf wf]
  | .putting lf => [labelledTraffic lf]

def reported (s : State queueMax) : List Traffic :=
  (s.published.flatMap Publication.flows).map labelledTraffic

/-- Behind the publisher's bucket: pending, or still on its way. -/
def awaiting (s : State queueMax) : List Traffic :=
  s.pending.map labelledTraffic ++ s.sankeyQueue.items.map labelledTraffic ++
    s.intermediate.items.map labelledTraffic ++ labellerTraffic s.labeller ++
    s.outlet.out.items.map trafficOf

/-- Without evictions, what was emitted is reported or awaited, in order. -/
def Lossless (s : State queueMax) : Prop :=
  NoOverflow s → reported s ++ awaiting s = s.outlet.pushed.map trafficOf

lemma Lossless.tick {cfg : Config} {s : State queueMax} (h : Lossless s) (now : Instant) :
    Lossless (windowerTick cfg s now) := by
  intro hno
  obtain ⟨new, hnew⟩ := emitReady_flushed cfg.windowS now (s.buckets, s.outlet)
  have hgrows : s.outlet.evicted <+: (windowerTick cfg s now).outlet.evicted := by
    refine emitReady_outlet (P := fun o => s.outlet.evicted <+: o.evicted)
      (fun bucket o e ho => ho.trans (List.prefix_append _ _)) (fun o ho => ho) now ?_
    exact List.prefix_refl _
  have hbefore : s.outlet.evicted = [] := List.prefix_nil.mp (hno.1 ▸ hgrows)
  have hqueue := hnew.queue_eq
  have hafter : (emitReady cfg.windowS now (s.buckets, s.outlet)).2.evicted = [] := hno.1
  rw [hafter, hbefore, List.nil_append, List.nil_append] at hqueue
  have hline := h ⟨hbefore, hno.2⟩
  have hpushed : (windowerTick cfg s now).outlet.pushed = s.outlet.pushed ++ new := hnew.pushed_eq
  have hitems : (windowerTick cfg s now).outlet.out.items = s.outlet.out.items ++ new := hqueue
  rw [hpushed, List.map_append, ← hline]
  simp only [reported, awaiting, hitems, List.map_append, List.append_assoc]
  rfl

lemma Lossless.demux {s : State queueMax} (h : Lossless s) : Lossless (demux s) := by
  obtain ⟨_, he⟩ | ⟨lf, q, hi, he⟩ := demux_cases s
  · rwa [he]
  · intro hno
    rw [he] at hno ⊢
    obtain ⟨hevicted, hnone⟩ := List.append_eq_nil_iff.mp hno.2
    have hqueue := s.sankeyQueue.putDropOldest_conserves lf
    rw [hnone, List.nil_append] at hqueue
    rw [← h ⟨hno.1, hevicted⟩]
    simp [reported, awaiting, hi, hqueue]

lemma Lossless.publisherGet {cfg : Config} {s : State queueMax} (h : Lossless s) :
    Lossless (publisherGet cfg s) := by
  obtain ⟨_, he⟩ | ⟨lf, q, hi, he⟩ := publisherGet_cases cfg s
  · rwa [he]
  · rw [he]
    obtain ⟨_, _, _, hp, he'⟩ | ⟨_, _, _, _, _, _, _, _, _, _, he'⟩ | ⟨_, he'⟩ :=
      publisherTake_cases cfg { s with sankeyQueue := q } lf
    · rw [he']
      intro hno
      have hline := h hno
      simp only [awaiting, hi] at hline
      rw [← hline]
      simp [reported, awaiting, show s.pending = [] from hp]
    · rw [he']
      intro hno
      have hline := h hno
      simp only [awaiting, hi] at hline
      rw [← hline]
      simp [reported, awaiting]
    · rw [he']
      intro hno
      have hline := h hno
      simp only [awaiting, hi] at hline
      rw [← hline]
      simp [reported, awaiting]

theorem Lossless.step (cfg : Config) {s : State queueMax} (h : Lossless s) (action : Action) :
    Lossless (step cfg s action) := by
  cases action with
  | event ev =>
    have hs : Lossless { s with
        buckets := accumulate cfg.windowS s.buckets ev, consumed := s.consumed ++ [ev] } := h
    exact hs.tick ev.ts
  | tick now => exact h.tick now
  | labelTake =>
    obtain he | ⟨wf, q, hidle, hi, he⟩ := labelTake_cases s <;> rw [Correlator.step, he]
    · exact h
    · intro hno
      rw [← h hno]
      simp [reported, awaiting, hidle, hi, labellerTraffic]
  | labelResolved candidate hit =>
    obtain he | ⟨wf, hresolving, he⟩ := labelResolved_cases s candidate hit <;>
      rw [Correlator.step, he]
    · exact h
    · intro hno
      rw [← h hno]
      simp only [reported, awaiting, hresolving, labellerTraffic]
      rfl
  | labelPut =>
    obtain he | ⟨lf, q, hputting, hi, he⟩ := labelPut_cases s <;> rw [Correlator.step, he]
    · exact h
    · intro hno
      rw [← h hno]
      simp [reported, awaiting, hputting, hi, labellerTraffic]
  | demux => exact h.demux
  | publisherGet => exact h.publisherGet
  | writerGet =>
    obtain ⟨_, he⟩ := writerGet_cases s
    rw [Correlator.step, he]
    exact h
  | reloadGroups rows => exact h
  | clearCache => exact h

/-! ## The deltas -/

/-- Deltas are built from what was pending, one for each bucket that closed. -/
structure Sequenced (cfg : Config) (s : State queueMax) : Prop where
  start : s.currentBucket = none → s.published = []
  below : ∀ p ∈ s.published, ∀ b ∈ s.currentBucket, p.delta.ts < b
  increasing : (s.published.map fun p => p.delta.ts).Pairwise (· < ·)
  totals : ∀ p ∈ s.published, ∀ q, deltaTotal q p.delta = flowTotal q p.flows
  built : ∀ p ∈ s.published, ∃ agg groups,
    (publish agg (some groups) cfg.groupBy p.delta.ts p.flows).1 = some p.delta

lemma publish_ts {agg : Option GroupAggregator} {groups : Option GroupIndex} {groupBy : GroupBy}
    {b : Instant} {flows : List LabelledFlow} {delta : SankeyDelta}
    (h : (publish agg groups groupBy b flows).1 = some delta) : delta.ts = b := by
  have hne : flows ≠ [] := by
    rintro rfl
    rw [publish_nil] at h
    cases h
  obtain ⟨d, hd, hts, _⟩ := publish_spec agg groups groupBy b flows hne
  rw [h] at hd
  rw [Option.some.inj hd, hts]

lemma mem_publisherTake {cfg : Config} {s : State queueMax} {lf : LabelledFlow} {p : Publication}
    (hp : p ∈ (publisherTake cfg s lf).published) : p ∈ s.published ∨ ∃ agg groups,
      (publish agg (some groups) cfg.groupBy p.delta.ts p.flows).1 = some p.delta := by
  unfold publisherTake at hp
  dsimp only at hp
  split_ifs at hp with hlt
  · refine (List.mem_append.mp hp).imp_right fun hnew => ?_
    obtain ⟨delta, hdelta, rfl⟩ := by simpa using hnew
    refine ⟨s.aggregator, s.groups, ?_⟩
    rw [publish_ts hdelta]
    exact hdelta
  · exact .inl hp

lemma Sequenced.publisherTake {cfg : Config} {s : State queueMax} (h : Sequenced cfg s)
    (lf : LabelledFlow) : Sequenced cfg (publisherTake cfg s lf) := by
  have hbuilt : ∀ p ∈ (Correlator.publisherTake cfg s lf).published, ∃ agg groups,
      (publish agg (some groups) cfg.groupBy p.delta.ts p.flows).1 = some p.delta :=
    fun p hp => (mem_publisherTake hp).elim (h.built p) id
  obtain ⟨current, hc, hlt, _, he⟩ | ⟨current, delta, agg, hc, hlt, _, hts, htotals, _, _, he⟩ |
    ⟨hnot, he⟩ := publisherTake_cases cfg s lf
  · rw [he] at hbuilt ⊢
    refine ⟨by simp, fun p hp b hb => ?_, h.increasing, h.totals, hbuilt⟩
    rw [← Option.some.inj hb]
    exact (h.below p hp current hc).trans hlt
  · rw [he] at hbuilt ⊢
    refine ⟨by simp, fun p hp b hb => ?_, ?_, fun p hp q => ?_, hbuilt⟩
    · rw [← Option.some.inj hb]
      rcases List.mem_append.mp hp with hp | hp
      · exact (h.below p hp current hc).trans hlt
      · rw [List.mem_singleton.mp hp, hts]
        exact hlt
    · rw [List.map_append, List.pairwise_append]
      refine ⟨h.increasing, List.pairwise_singleton _ _, fun ts hold ts' hnew => ?_⟩
      obtain ⟨p, hp, rfl⟩ := List.mem_map.mp hold
      obtain rfl : ts' = delta.ts := by simpa using hnew
      rw [hts]
      exact h.below p hp current hc
    · rcases List.mem_append.mp hp with hp | hp
      · exact h.totals p hp q
      · rw [List.mem_singleton.mp hp]
        exact htotals q
  · rw [he] at hbuilt ⊢
    refine ⟨by simp, fun p hp b hb => ?_, h.increasing, h.totals, hbuilt⟩
    rw [← Option.some.inj hb]
    cases hc : s.currentBucket with
    | none =>
      rw [h.start hc] at hp
      exact absurd hp List.not_mem_nil
    | some current => exact h.below p hp current hc

theorem Sequenced.step (cfg : Config) {s : State queueMax} (h : Sequenced cfg s) (action : Action) :
    Sequenced cfg (step cfg s action) := by
  by_cases ha : action = .publisherGet
  · subst ha
    obtain ⟨_, he⟩ | ⟨lf, q, _, he⟩ := publisherGet_cases cfg s
    · rw [Correlator.step, he]
      exact h
    · rw [Correlator.step, he]
      have hs : Sequenced cfg { s with sankeyQueue := q } :=
        ⟨h.start, h.below, h.increasing, h.totals, h.built⟩
      exact hs.publisherTake lf
  · obtain ⟨hc, _, hd⟩ := step_publisher_frame cfg s action ha
    refine ⟨?_, ?_, ?_, ?_, ?_⟩ <;> simp only [hc, hd]
    exacts [h.start, h.below, h.increasing, h.totals, h.built]

/-! ## Deltas and windows -/

/-- The flows of a window as a plain report over its events gives them. -/
def windowTraffic (windowS : ℕ) (b : Instant) (events : List FlowEvent) : List Traffic :=
  (windowSlot windowS b events).entries.map fun e =>
    ⟨b, e.1, e.2.bytes, e.2.packets, e.2.flowCount⟩

/-- Deltas come in the order of their windows. Every window with an event that is older
than the publisher's bucket has one. Each is built from the flows of its window's events
and carries their totals. -/
structure Reports (cfg : Config) (s : State queueMax) : Prop where
  inOrder : (s.published.map fun p => p.delta.ts).Pairwise (· < ·)
  complete : ∀ ev ∈ s.consumed, ∀ b ∈ s.currentBucket, bucketStart cfg.windowS ev.ts < b →
    ∃ p ∈ s.published, p.delta.ts = bucketStart cfg.windowS ev.ts
  built : ∀ p ∈ s.published, ∃ agg groups,
    (publish agg (some groups) cfg.groupBy p.delta.ts p.flows).1 = some p.delta
  exact : ∀ p ∈ s.published,
    p.flows.map labelledTraffic = windowTraffic cfg.windowS p.delta.ts s.consumed
  totals : ∀ p ∈ s.published, ∀ q, deltaTotal q p.delta =
    ((s.consumed.filter fun ev => bucketStart cfg.windowS ev.ts = p.delta.ts).map
      (eventAmount (fieldOf q))).sum

lemma awaiting_newer {s : State queueMax} (haligned : Aligned s) (hpending : PendingOfBucket s)
    {b : Instant} (hb : s.currentBucket = some b) : ∀ t ∈ awaiting s, b ≤ t.bucket := by
  have hsorted := haligned.sorted
  rw [line, hb] at hsorted
  simp only [Option.toList_some, List.cons_append, List.nil_append, List.pairwise_cons] at hsorted
  have hbehind : ∀ t ∈ s.sankeyQueue.items.map labelledTraffic ++
      s.intermediate.items.map labelledTraffic ++ labellerTraffic s.labeller ++
      s.outlet.out.items.map trafficOf, b ≤ t.bucket := by
    intro t ht
    refine hsorted.1 t.bucket ?_
    have hbucket : labellerBuckets s.labeller = (labellerTraffic s.labeller).map Traffic.bucket := by
      cases s.labeller <;> rfl
    rw [hbucket]
    have hmem := List.mem_map_of_mem (f := Traffic.bucket) ht
    simpa [Function.comp_def, trafficOf, labelledTraffic] using hmem
  intro t ht
  simp only [awaiting, List.append_assoc] at ht hbehind
  rcases List.mem_append.mp ht with ht | ht
  · obtain ⟨lf, hlf, rfl⟩ := List.mem_map.mp ht
    exact (hpending.pending_eq b hb lf hlf).ge
  · exact hbehind t ht

/-- Among all flows reported, those of one delta are the ones of its window. -/
lemma filter_reported {published : List Publication}
    (hpure : ∀ p ∈ published, ∀ f ∈ p.flows, f.bucketStart = p.delta.ts)
    (hincreasing : (published.map fun p => p.delta.ts).Pairwise (· < ·)) {p : Publication}
    (hp : p ∈ published) :
    (published.flatMap Publication.flows).filter (fun f => f.bucketStart = p.delta.ts) = p.flows := by
  induction published with
  | nil => cases hp
  | cons first rest ih =>
    rw [List.map_cons, List.pairwise_cons] at hincreasing
    have hrest : ∀ p' ∈ rest, first.delta.ts < p'.delta.ts :=
      fun p' hp' => hincreasing.1 _ (List.mem_map_of_mem hp')
    rw [List.flatMap_cons, List.filter_append]
    rcases List.mem_cons.mp hp with rfl | hp
    · have hself : p.flows.filter (fun f => f.bucketStart = p.delta.ts) = p.flows := by
        simpa [List.filter_eq_self] using hpure p List.mem_cons_self
      have hnone : (rest.flatMap Publication.flows).filter
          (fun f => f.bucketStart = p.delta.ts) = [] := by
        rw [List.filter_eq_nil_iff]
        intro f hf
        obtain ⟨p', hp', hf⟩ := List.mem_flatMap.mp hf
        have hts := hpure p' (List.mem_cons_of_mem _ hp') f hf
        simpa [hts] using (hrest p' hp').ne'
      rw [hself, hnone, List.append_nil]
    · have hnone : first.flows.filter (fun f => f.bucketStart = p.delta.ts) = [] := by
        rw [List.filter_eq_nil_iff]
        intro f hf
        simpa [hpure first List.mem_cons_self f hf] using (hrest p hp).ne
      rw [hnone, List.nil_append]
      exact ih (fun p' hp' => hpure p' (List.mem_cons_of_mem _ hp')) hincreasing.2 hp

lemma filter_traffic (b : Instant) (flows : List WindowedFlow) :
    (flows.map trafficOf).filter (fun t => t.bucket = b) = (ofBucket b flows).map trafficOf := by
  rw [List.filter_map]
  rfl

lemma filter_labelledTraffic (b : Instant) (flows : List LabelledFlow) :
    (flows.map labelledTraffic).filter (fun t => t.bucket = b) =
      (flows.filter fun f => f.bucketStart = b).map labelledTraffic := by
  rw [List.filter_map]
  rfl

/-- The flows of a delta are those that were emitted for its window. -/
lemma flows_eq_emitted {cfg : Config} {s : State queueMax} (haligned : Aligned s)
    (hpending : PendingOfBucket s) (hsequenced : Sequenced cfg s)
    (hline : reported s ++ awaiting s = s.outlet.pushed.map trafficOf) {p : Publication}
    (hp : p ∈ s.published) :
    p.flows.map labelledTraffic = (ofBucket p.delta.ts s.outlet.pushed).map trafficOf := by
  obtain ⟨b, hb⟩ : ∃ b, s.currentBucket = some b := by
    rw [← Option.ne_none_iff_exists']
    intro hnone
    rw [hsequenced.start hnone] at hp
    exact List.not_mem_nil hp
  have hnewer : (awaiting s).filter (fun t => t.bucket = p.delta.ts) = [] := by
    rw [List.filter_eq_nil_iff]
    intro t ht
    have hlt := (hsequenced.below p hp b hb).trans_le (awaiting_newer haligned hpending hb t ht)
    simpa using hlt.ne'
  rw [← filter_traffic, ← hline, List.filter_append, hnewer, List.append_nil, reported,
    filter_labelledTraffic, filter_reported hpending.delta_pure hsequenced.increasing hp]

lemma traffic_ofBucket {cfg : Config} {s : State queueMax} (hfaithful : Faithful cfg s)
    {b : Instant} (hb : b ∈ emitted s) :
    (ofBucket b s.outlet.pushed).map trafficOf = windowTraffic cfg.windowS b s.consumed := by
  rw [windowTraffic, ← hfaithful.emitted_eq b hb, List.map_map]
  refine List.map_congr_left fun wf hwf => ?_
  have hbucket : wf.bucketStart = b := by simpa using (List.mem_filter.mp hwf).2
  simp [trafficOf, entryOf, hbucket]

lemma flowTotal_eq_traffic (q : Quantity) (flows : List LabelledFlow) :
    flowTotal q flows = ((flows.map labelledTraffic).map fun t =>
      match q with
      | .bytes => t.bytes
      | .flows => t.flowCount).sum := by
  rw [flowTotal, List.map_map]
  cases q <;> rfl

lemma flowTotal_window {flows : List LabelledFlow} {windowS : ℕ} {b : Instant}
    {events : List FlowEvent} (h : flows.map labelledTraffic = windowTraffic windowS b events)
    (q : Quantity) : flowTotal q flows =
      ((events.filter fun ev => bucketStart windowS ev.ts = b).map (eventAmount (fieldOf q))).sum := by
  rw [flowTotal_eq_traffic, h, windowTraffic, List.map_map, ← windowSlot_total, Dict.sumBy]
  cases q <;> rfl

/-- All that is needed of a state. -/
structure Reporting (cfg : Config) (s : State queueMax) : Prop where
  aligned : Aligned s
  pending : PendingOfBucket s
  faithful : Faithful cfg s
  lossless : Lossless s
  sequenced : Sequenced cfg s

theorem Reporting.step (cfg : Config) {s : State queueMax} (h : Reporting cfg s) (action : Action)
    (hpunctual : Punctual cfg s action) : Reporting cfg (step cfg s action) where
  aligned := h.aligned.step cfg action hpunctual
  pending := h.pending.step cfg action (h.aligned.inOrder action)
  faithful := h.faithful.step cfg h.aligned action hpunctual
  lossless := h.lossless.step cfg action
  sequenced := h.sequenced.step cfg action

lemma initial_reporting (cfg : Config) (aggregator : Option GroupAggregator) :
    Reporting cfg (initial aggregator : State queueMax) where
  aligned := initial_aligned aggregator
  pending := initial_pendingOfBucket aggregator
  faithful := ⟨by simp [initial], by simp [initial, emitted], by simp [initial]⟩
  lossless _ := rfl
  sequenced := ⟨fun _ => rfl, by simp [initial], by simp [initial], by simp [initial],
    by simp [initial]⟩

lemma Reporting.reports {cfg : Config} {s : State queueMax} (h : Reporting cfg s)
    (hno : NoOverflow s) : Reports cfg s := by
  have hline := h.lossless hno
  have hflows : ∀ p ∈ s.published, p.flows.map labelledTraffic =
      (ofBucket p.delta.ts s.outlet.pushed).map trafficOf :=
    fun p hp => flows_eq_emitted h.aligned h.pending h.sequenced hline hp
  have hexact : ∀ p ∈ s.published,
      p.flows.map labelledTraffic = windowTraffic cfg.windowS p.delta.ts s.consumed := by
    intro p hp
    obtain ⟨agg, groups, hbuilt⟩ := h.sequenced.built p hp
    have hne : p.flows ≠ [] := by
      intro hnil
      rw [hnil, publish_nil] at hbuilt
      cases hbuilt
    have hsome : ofBucket p.delta.ts s.outlet.pushed ≠ [] := by
      intro hnil
      have hempty := hflows p hp
      rw [hnil, List.map_nil, List.map_eq_nil_iff] at hempty
      exact hne hempty
    obtain ⟨wf, hwf⟩ := List.exists_mem_of_ne_nil _ hsome
    obtain ⟨hmem, hb⟩ := List.mem_filter.mp hwf
    rw [hflows p hp, traffic_ofBucket h.faithful]
    exact List.mem_map.mpr ⟨wf, hmem, by simpa using hb⟩
  refine ⟨h.sequenced.increasing, fun ev hev b hb hlt => ?_, h.sequenced.built, hexact,
    fun p hp q => ?_⟩
  · have hemitted : bucketStart cfg.windowS ev.ts ∈ emitted s := by
      refine (h.faithful.covered ev hev).resolve_left fun hopen => ?_
      -- open windows are newer than the publisher's bucket, which was emitted
      have hcurrent : b ∈ line s := by simp [line, Option.mem_def.mp hb]
      have hnewer := h.aligned.open_newer _ hopen b (h.aligned.line_emitted b hcurrent)
      exact lt_asymm hlt hnewer
    obtain ⟨wf, hwf, hbucket⟩ := List.mem_map.mp hemitted
    have hmem : trafficOf wf ∈ reported s ++ awaiting s := hline ▸ List.mem_map_of_mem hwf
    have hreported : trafficOf wf ∈ reported s := by
      refine (List.mem_append.mp hmem).resolve_right fun hawait => ?_
      have hge := awaiting_newer h.aligned h.pending hb _ hawait
      exact absurd (hge.trans_eq hbucket) hlt.not_ge
    obtain ⟨f, hf, htraffic⟩ := List.mem_map.mp hreported
    obtain ⟨p, hp, hfp⟩ := List.mem_flatMap.mp hf
    refine ⟨p, hp, ?_⟩
    have hpure := h.pending.delta_pure p hp f hfp
    have hfst : f.bucketStart = wf.bucketStart := congrArg Traffic.bucket htraffic
    rw [← hpure, hfst, hbucket]
  · rw [h.sequenced.totals p hp q, flowTotal_window (hexact p hp)]

/-- For every run without late events and without evictions, whatever the catalog, the
identities and the groups answer and however the tasks interleave. -/
theorem deltas_report_windows (cfg : Config) (aggregator : Option GroupAggregator)
    (actions : List Action)
    (hpunctual : Along (step cfg) (Punctual cfg) (initial aggregator : State queueMax) actions)
    (hno : NoOverflow (run (step cfg) (initial aggregator : State queueMax) actions)) :
    Reports cfg (run (step cfg) (initial aggregator : State queueMax) actions) := by
  have hreporting := throughout_of_along (I := Reporting cfg)
    (fun _ a hs ha => hs.step cfg a ha) (initial_reporting cfg aggregator) hpunctual
  exact hreporting.last.reports hno

instance (cfg : Config) (s : State queueMax) : ∀ a, Decidable (Punctual cfg s a)
  | .event ev => inferInstanceAs (Decidable (∀ b ∈ emitted s, b < bucketStart cfg.windowS ev.ts))
  | .tick _ | .labelTake | .labelResolved _ _ | .labelPut | .demux | .publisherGet | .writerGet
  | .reloadGroups _ | .clearCache => isTrue trivial

/-- Two events of one key and one of another in the first window, then later ones. -/
def twoKeyRun : List Action :=
  [.event (sessionAt 100 443), .event (sessionAt 101 80), .event (sessionAt 102 443),
    .event (sessionAt 110 443), .event (sessionAt 120 443)] ++ deliver ++ deliver ++ deliver

theorem deltas_report_windows_twoKeyRun :
    let s := run (step fiveSecondGroups) (initial (some defaultAggregator) : State 10000) twoKeyRun
    s.published.map (fun p => (p.delta.ts, p.flows.map labelledTraffic)) =
      [(seconds 100, [⟨seconds 100, ⟨"10.0.0.5", "1.1.1.1", 443, 6⟩, 20, 2, 2⟩,
        ⟨seconds 100, ⟨"10.0.0.5", "1.1.1.1", 80, 6⟩, 10, 1, 1⟩])] ∧
      Reports fiveSecondGroups s :=
  ⟨by decide +kernel, deltas_report_windows fiveSecondGroups _ twoKeyRun (by decide +kernel)
    (by decide +kernel)⟩

end FlowDiscovery.Correlator
