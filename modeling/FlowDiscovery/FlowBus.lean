import FlowDiscovery.EventJson
import FlowDiscovery.FlowPublisher
import FlowDiscovery.StreamHistory

/-!
# The stream of flow events from adapter to correlator

The publisher of flow ingest, the stream and the reader of the correlator as one
system. A pipeline is not a transaction: the server stores its entries one by one, may
refuse some of them, and the reader may come in between. When a pipeline raises, the
commands that were not carried out are gone. Whatever fails, the correlator's queue
gets the events of each adapter in the order in which the adapter accepted them, each at
most once and with every member as it was. When nothing fails, it gets all of them but
those still on the way.

One process of flow ingest is modelled, up to its shutdown, which flushes the buffer once
more; the correlator may be restarted any number of times. The trimming of the stream is
left out, and so is whatever else could write to it.
-/
namespace FlowDiscovery.FlowBus
open PyText PyTime PyJson Machine EventJson
open FlowPublisher (Tagged TaskState)
open FlowIngest (FlowAdapter Message)
open StreamConsumer (FlowDict Loop Read readXstreamInto handledEvents hand)

/-- `answered` counts the commands of the pipeline under way that the server has come to,
`refused` says that one of them failed. `stored` is a history. -/
structure State where
  publisher : FlowPublisher.State
  stream : StreamConsumer.State FlowDict (List FlowDict)
  answered : ℕ
  refused : Bool
  stored : List Tagged

/-- The three points of an adapter's task, the server's answer to one command, and a
step of the reader. -/
inductive Action where
  | consume (task : ℕ) (now : Instant) (m : Message)
  | acquire (task : ℕ)
  | command (stored : Bool)
  | executed (task : ℕ) (sent : Bool)
  | read (r : Read)

section

variable (iso : IsoText) (float : Text → Text)

/-- `_read_xstream_into`. -/
abbrev reader : Loop FlowDict (List FlowDict) := readXstreamInto float iso.fromisoformat

def initial (adapters : List FlowAdapter) : State where
  publisher := FlowPublisher.initial adapters
  stream := StreamConsumer.initial (reader iso float)
  answered := 0
  refused := false
  stored := []

/-- The commands of the pipeline under way. Who holds the lock while suspended is
sending the buffer. -/
def pipeline (p : FlowPublisher.State) : List Tagged := if p.lock.isSome then p.buf else []

/-- The server carries out the next `XADD` of the pipeline or refuses it. -/
def command (s : State) (stored : Bool) : State :=
  match (pipeline s.publisher)[s.answered]? with
  | none => s
  | some e =>
    if stored then
      { s with
        answered := s.answered + 1
        stored := s.stored ++ [e]
        stream := StreamConsumer.step (reader iso float) s.stream (.xadd (jsonifyFlow iso e.2)) }
    else { s with answered := s.answered + 1, refused := true }

/-- `execute` returns only after an answer to every command, and raises the error of a
refused one. It can raise at any time. -/
def executed (s : State) (task : ℕ) (sent : Bool) : State :=
  match s.publisher.tasks[task]? with
  | some (.executing batch) =>
    if sent = true ∧ (s.answered < batch.length ∨ s.refused = true) then s
    else
      { s with
        publisher := FlowPublisher.executed s.publisher task sent
        answered := 0
        refused := false }
  | _ => s

def step (adapters : List FlowAdapter) (maxBatch : ℕ) (s : State) : Action → State
  | .consume task now m => { s with publisher := FlowPublisher.consume adapters s.publisher task now m }
  | .acquire task =>
    { s with publisher := FlowPublisher.acquire iso maxBatch s.publisher task }
  | .command stored => command iso float s stored
  | .executed task sent => executed s task sent
  | .read r => { s with stream := StreamConsumer.step (reader iso float) s.stream r.action }

/-! ## What a step does -/

theorem command_cases (s : State) (stored : Bool) :
    (command iso float s stored = s ∧ (pipeline s.publisher)[s.answered]? = none) ∨
    ∃ e, (pipeline s.publisher)[s.answered]? = some e ∧
      (stored = true ∧ command iso float s stored =
        { s with
          answered := s.answered + 1
          stored := s.stored ++ [e]
          stream := StreamConsumer.step (reader iso float) s.stream (.xadd (jsonifyFlow iso e.2)) } ∨
      stored = false ∧ command iso float s stored =
        { s with answered := s.answered + 1, refused := true }) := by
  unfold command
  split
  · next hnone => exact .inl ⟨rfl, hnone⟩
  · next e he =>
    refine .inr ⟨e, he, ?_⟩
    cases stored with
    | true => exact .inl ⟨rfl, rfl⟩
    | false => exact .inr ⟨rfl, rfl⟩

theorem executed_cases (s : State) (task : ℕ) (sent : Bool) :
    executed s task sent = s ∨
    ∃ batch, s.publisher.tasks[task]? = some (.executing batch) ∧
      (sent = true → batch.length ≤ s.answered ∧ s.refused = false) ∧
      executed s task sent =
        { s with
          publisher := FlowPublisher.executed s.publisher task sent
          answered := 0
          refused := false } := by
  unfold executed
  split
  · next batch htask =>
    by_cases hwait : sent = true ∧ (s.answered < batch.length ∨ s.refused = true)
    · exact .inl (by rw [if_pos hwait])
    · refine .inr ⟨batch, htask, fun hsent => ?_, by rw [if_neg hwait]⟩
      simp only [hsent, true_and, not_or, not_lt, Bool.not_eq_true] at hwait
      exact hwait
  · exact .inl rfl

end

/-! ## Order under failures -/

variable {iso : IsoText} {float : Text → Text} {s : State}

/-- What holds of every reachable state. -/
structure Sound (iso : IsoText) (float : Text → Text) (s : State) : Prop where
  publisher : FlowPublisher.Sound s.publisher
  stored : s.stored.Sublist
    (FlowPublisher.flushed s.publisher ++ (pipeline s.publisher).take s.answered)
  serialised : ∀ e ∈ s.stored ++ s.publisher.buf, (jsonifyFlow iso e.2).isSome
  entries : s.stream.entries = s.stored.map fun e => jsonifyFlow iso e.2
  read : StreamConsumer.Ordered (reader iso float) s.stream
  own : StreamConsumer.KeepsOwn (reader iso float) s.stream

lemma sound_initial (adapters : List FlowAdapter) :
    Sound iso float (initial iso float adapters) where
  publisher := FlowPublisher.initial_sound adapters
  stored := by simp [initial]
  serialised := by simp [initial, FlowPublisher.initial]
  entries := rfl
  read := StreamConsumer.ordered_initial
  own := StreamConsumer.keepsOwn_initial _

lemma pipeline_sublist (p : FlowPublisher.State) (n : ℕ) : ((pipeline p).take n).Sublist p.buf := by
  unfold pipeline
  split_ifs
  · exact List.take_sublist n p.buf
  · simp

/-- An event that has a text can be appended. -/
lemma serialised_append {stored buf : List Tagged} {e : Tagged}
    (h : ∀ x ∈ stored ++ buf, (jsonifyFlow iso x.2).isSome) (he : (jsonifyFlow iso e.2).isSome) :
    ∀ x ∈ stored ++ (buf ++ [e]), (jsonifyFlow iso x.2).isSome := by
  intro x hx
  rw [← List.append_assoc, List.mem_append, List.mem_singleton] at hx
  rcases hx with hx | rfl
  · exact h x hx
  · exact he

lemma Sound.acquire (h : Sound iso float s) (maxBatch task : ℕ) :
    Sound iso float
      { s with publisher := FlowPublisher.acquire iso maxBatch s.publisher task } := by
  have hsound := h.publisher.acquire iso maxBatch task
  obtain ⟨heq, _⟩ | ⟨ev, htask, hlock, hcase⟩ :=
    FlowPublisher.acquire_cases iso maxBatch s.publisher task
  · rw [heq]
    exact h
  · have hidle : pipeline s.publisher = [] := by simp [pipeline, hlock]
    have hstored := h.stored
    rw [hidle, List.take_nil, List.append_nil] at hstored
    obtain ⟨_, heq⟩ | ⟨hok, _, heq⟩ | ⟨hok, _, heq⟩ := hcase
    · rw [heq] at hsound ⊢
      exact ⟨hsound, h.stored, h.serialised, h.entries, h.read, h.own⟩
    all_goals
      have hbuf := serialised_append (e := (task, ev)) h.serialised
        ((jsonifyFlow_isSome_iff iso ev).mpr hok)
      rw [heq] at hsound ⊢
      exact ⟨hsound, hstored.trans (List.sublist_append_left _ _), hbuf, h.entries, h.read, h.own⟩

/-- The next command is for an event of the buffer. -/
lemma pipeline_next {e : Tagged} (he : (pipeline s.publisher)[s.answered]? = some e) :
    (pipeline s.publisher).take (s.answered + 1) = (pipeline s.publisher).take s.answered ++ [e] ∧
      e ∈ s.publisher.buf := by
  have hnext : (pipeline s.publisher).take (s.answered + 1) =
      (pipeline s.publisher).take s.answered ++ [e] := by
    rw [List.take_add_one, he]
    rfl
  exact ⟨hnext, (pipeline_sublist s.publisher (s.answered + 1)).subset (by rw [hnext]; simp)⟩

lemma serialised_store {stored buf : List Tagged} {e : Tagged}
    (h : ∀ x ∈ stored ++ buf, (jsonifyFlow iso x.2).isSome) (he : e ∈ buf) :
    ∀ x ∈ stored ++ [e] ++ buf, (jsonifyFlow iso x.2).isSome := by
  intro x hx
  refine h x ?_
  simp only [List.mem_append, List.mem_singleton] at hx ⊢
  rcases hx with (hx | rfl) | hx
  · exact .inl hx
  · exact .inr he
  · exact .inr hx

lemma Sound.command (h : Sound iso float s) (stored : Bool) :
    Sound iso float (command iso float s stored) := by
  obtain ⟨heq, _⟩ | ⟨e, he, ⟨_, heq⟩ | ⟨_, heq⟩⟩ := command_cases iso float s stored
  · rw [heq]
    exact h
  · obtain ⟨hnext, hmem⟩ := pipeline_next he
    rw [heq]
    refine ⟨h.publisher, ?_, serialised_store h.serialised hmem, ?_,
      StreamConsumer.step_ordered _ _ (.xadd (jsonifyFlow iso e.2)) h.read,
      StreamConsumer.step_keepsOwn h.read h.own (.xadd (jsonifyFlow iso e.2))⟩
    · rw [hnext, ← List.append_assoc]
      exact h.stored.append (List.Sublist.refl [e])
    · show s.stream.entries ++ [_] = _
      rw [h.entries, List.map_append]
      rfl
  · rw [heq]
    refine ⟨h.publisher, h.stored.trans (List.Sublist.append_left ?_ _), h.serialised, h.entries,
      h.read, h.own⟩
    exact List.take_sublist_take_left (Nat.le_succ _)

lemma Sound.executed (h : Sound iso float s) (task : ℕ) (sent : Bool) :
    Sound iso float (executed s task sent) := by
  obtain heq | ⟨batch, htask, _, heq⟩ := executed_cases s task sent
  · rw [heq]
    exact h
  · have hsound := h.publisher.executed task sent
    obtain ⟨_, hnot⟩ | ⟨batch', htask', hexec⟩ := FlowPublisher.executed_cases s.publisher task sent
    · exact absurd htask (hnot batch)
    · obtain ⟨_, rfl⟩ := h.publisher.locked task batch' htask'
      rw [heq]
      rw [hexec] at hsound ⊢
      refine ⟨hsound, ?_, fun e he => ?_, h.entries, h.read, h.own⟩
      · rw [List.take_zero, List.append_nil]
        have hflushed := h.stored.trans (List.Sublist.append_left (pipeline_sublist _ _) _)
        simpa [FlowPublisher.flushed] using hflushed
      · exact h.serialised e (List.mem_append_left _ (by simpa using he))

theorem Sound.step (h : Sound iso float s) (adapters : List FlowAdapter) (maxBatch : ℕ)
    (a : Action) : Sound iso float (step iso float adapters maxBatch s a) := by
  cases a with
  | consume task now m =>
    have hsound := h.publisher.consume adapters task now m
    obtain heq | ⟨ev, _, heq⟩ := FlowPublisher.consume_cases adapters s.publisher task now m
    all_goals
      rw [heq] at hsound
      simp only [FlowBus.step, heq]
      exact ⟨hsound, h.stored, h.serialised, h.entries, h.read, h.own⟩
  | acquire task => exact h.acquire maxBatch task
  | command stored => exact h.command stored
  | executed task sent => exact h.executed task sent
  | read r =>
    exact ⟨h.publisher, h.stored, h.serialised, (StreamConsumer.entries_read _ s.stream r).trans h.entries,
      StreamConsumer.step_ordered _ _ _ h.read, StreamConsumer.step_keepsOwn h.read h.own _⟩

/-- The reader gets back an entry of the stream as it was published. -/
lemma filterMap_entries (h : ∀ e ∈ s.stored, (jsonifyFlow iso e.2).isSome) :
    (s.stored.map fun e => jsonifyFlow iso e.2).filterMap (reader iso float).parse =
      s.stored.map fun e => flowDict iso e.2 := by
  rw [List.filterMap_map, ← List.filterMap_eq_map]
  refine List.filterMap_congr fun e he => ?_
  obtain ⟨payload, hpayload⟩ := Option.isSome_iff_exists.mp (h e he)
  simp only [Function.comp_apply, hpayload]
  exact parse_jsonifyFlow iso float hpayload

/-- `got` is what the correlator has been given, `own` what its present process has. -/
structure Delivers (iso : IsoText) (float : Text → Text) (s : State) (got own : List Tagged) :
    Prop where
  handled : (handledEvents (reader iso float) s.stream).map flowEvent = got.map fun e => some e.2
  memory : s.stream.memory.map flowEvent = own.map fun e => some e.2
  suffix : own <:+ got
  ordered : ∀ task, (entriesOf task got).Sublist (entriesOf task s.publisher.accepted)

lemma map_flowEvent (events : List Tagged) :
    (events.map fun e => flowDict iso e.2).map flowEvent = events.map fun e => some e.2 := by
  rw [List.map_map]
  exact List.map_congr_left fun e _ => flowEvent_flowDict iso e.2

lemma foldl_deliver (events out : List FlowDict) :
    events.foldl (reader iso float).deliver out = out ++ events := by
  induction events generalizing out with
  | nil => rw [List.foldl_nil, List.append_nil]
  | cons ev rest ih =>
    rw [List.foldl_cons, ih]
    show (out ++ [ev]) ++ rest = out ++ ev :: rest
    rw [List.append_assoc, List.singleton_append]

lemma Sound.delivers (h : Sound iso float s) : ∃ got own, Delivers iso float s got own := by
  have hentries := @filterMap_entries iso float s
    fun e he => h.serialised e (List.mem_append_left _ he)
  have hsub := h.read.handledEvents_sublist
  rw [h.entries, hentries, List.sublist_map_iff] at hsub
  obtain ⟨got, hgot, hhandled⟩ := hsub
  obtain ⟨earlier, kept, hsplit, hmemory⟩ := h.own
  rw [hhandled, List.map_eq_append_iff] at hsplit
  obtain ⟨before, own, rfl, _, hown⟩ := hsplit
  refine ⟨before ++ own, own, ?_, ?_, List.suffix_append _ _, fun task => ?_⟩
  · rw [hhandled, map_flowEvent]
  · rw [hmemory, foldl_deliver, ← hown]
    exact map_flowEvent own
  · -- handled, then stored, then sent, then accepted
    have hflushed : (before ++ own).Sublist
        (FlowPublisher.flushed s.publisher ++ s.publisher.buf) :=
      hgot.trans (h.stored.trans (List.Sublist.append_left (pipeline_sublist _ _) _))
    rw [h.publisher.accounted task]
    exact (hflushed.filterMap _).trans (List.sublist_append_left _ _)

/-- Whatever fails, the correlator gets the events of each adapter in order, each at
most once and as they were. -/
theorem delivered_in_order (iso : IsoText) (float : Text → Text) (adapters : List FlowAdapter)
    (maxBatch : ℕ) (schedule : List Action) :
    ∃ got own, Delivers iso float
      (run (step iso float adapters maxBatch) (initial iso float adapters) schedule) got own :=
  (run_invariant (I := Sound iso float) (fun _ a h => h.step adapters maxBatch a)
    (sound_initial adapters) schedule).delivers

/-! ## Runs in which nothing fails -/

/-- The event that waits for the lock has a text. -/
def serialises (iso : IsoText) (s : State) (task : ℕ) : Bool :=
  match s.publisher.tasks[task]? with
  | some (.locking ev) => (jsonifyFlow iso ev).isSome
  | _ => true

/-- No event fails to serialise, the server stores what it is sent, no pipeline raises
and the reader does not crash. -/
def Reliable (iso : IsoText) (s : State) : Action → Prop
  | .consume _ _ _ => True
  | .acquire task => serialises iso s task = true
  | .command stored => stored = true
  | .executed _ sent => sent = true
  | .read r => r ≠ .crash

instance (iso : IsoText) (s : State) : ∀ a, Decidable (Reliable iso s a)
  | .consume _ _ _ => isTrue trivial
  | .acquire task => inferInstanceAs (Decidable (serialises iso s task = true))
  | .command stored => inferInstanceAs (Decidable (stored = true))
  | .executed _ sent => inferInstanceAs (Decidable (sent = true))
  | .read r => inferInstanceAs (Decidable (r ≠ .crash))

/-- Appended and not stored yet: the rest of the pipeline under way, or else the
buffer. -/
def unsent (s : State) : List Tagged :=
  if s.publisher.lock.isSome then s.publisher.buf.drop s.answered else s.publisher.buf

/-- Each accepted event is in the stream, unsent in a buffer of at most one batch (of less
than one when nobody holds the lock), or waits for the lock; and the reader has handled
all entries before some point, has a batch from there on in hand, and has not read what
comes behind it. -/
structure NothingLost (maxBatch : ℕ) (s : State) : Prop where
  partitioned : ∀ task, entriesOf task s.publisher.accepted =
    entriesOf task (s.stored ++ unsent s) ++ FlowPublisher.waiting s.publisher task
  few : (unsent s).length ≤ max maxBatch 1
  room : s.publisher.lock = none → (unsent s).length < max maxBatch 1
  handled : ∃ n, n + (hand s.stream).length = s.stream.lastDelivered ∧
    s.stream.lastDelivered ≤ s.stored.length ∧
    s.stream.memory.map flowEvent = (s.stored.take n).map fun e => some e.2

/-- The publisher has what it needs for `Partitioned`, and a pipeline is sent when the
buffer holds one full batch. -/
structure Full (maxBatch : ℕ) (p : FlowPublisher.State) : Prop where
  sound : FlowPublisher.Sound p
  running : FlowPublisher.Running p
  free : p.lock = none → p.buf.length < max maxBatch 1
  le : p.buf.length ≤ max maxBatch 1

lemma Full.step {maxBatch : ℕ} {p : FlowPublisher.State} (h : Full maxBatch p) (iso : IsoText)
    (adapters : List FlowAdapter) {a : FlowPublisher.Action} (hret : FlowPublisher.Returns p a) :
    Full maxBatch (FlowPublisher.step iso adapters maxBatch p a) := by
  have hsound := h.sound.step iso adapters maxBatch a
  have hrunning := FlowPublisher.running_step h.running iso adapters maxBatch a hret
  cases a with
  | consume task now m =>
    obtain heq | ⟨ev, _, heq⟩ := FlowPublisher.consume_cases adapters p task now m
    all_goals
      simp only [FlowPublisher.step, heq] at hsound hrunning ⊢
      exact ⟨hsound, hrunning, h.free, h.le⟩
  | acquire task =>
    obtain ⟨heq, _⟩ | ⟨ev, htask, hlock, ⟨hlong, _⟩ | ⟨_, _, heq⟩ | ⟨_, hroom, heq⟩⟩ :=
      FlowPublisher.acquire_cases iso maxBatch p task
    · simp only [FlowPublisher.step, heq]
      exact h
    · exact absurd (hret ev htask hlock) hlong
    · have hlt := h.free hlock
      simp only [FlowPublisher.step, heq] at hsound hrunning ⊢
      exact ⟨hsound, hrunning, fun hfree => absurd hfree (by simp), by simpa using hlt⟩
    · simp only [FlowPublisher.step, heq] at hsound hrunning ⊢
      refine ⟨hsound, hrunning, fun _ => ?_, ?_⟩
      all_goals
        simp only [List.length_append, List.length_singleton]
        omega
  | executed task sent =>
    obtain ⟨heq, _⟩ | ⟨batch, _, heq⟩ := FlowPublisher.executed_cases p task sent
    · simp only [FlowPublisher.step, heq]
      exact h
    · simp only [FlowPublisher.step, heq] at hsound hrunning ⊢
      exact ⟨hsound, hrunning, fun _ => by simp, by simp⟩

/-- What holds of the states of a run in which nothing fails. -/
structure Exact (iso : IsoText) (float : Text → Text) (maxBatch : ℕ) (s : State) : Prop where
  publisher : Full maxBatch s.publisher
  idle : s.publisher.lock = none → s.answered = 0
  stored : s.stored = FlowPublisher.flushed s.publisher ++ (pipeline s.publisher).take s.answered
  serialised : ∀ e ∈ s.stored ++ s.publisher.buf, (jsonifyFlow iso e.2).isSome
  entries : s.stream.entries = s.stored.map fun e => jsonifyFlow iso e.2
  read : StreamConsumer.Gapless (reader iso float) s.stream
  memory : s.stream.memory = handledEvents (reader iso float) s.stream

variable {maxBatch : ℕ}

lemma exact_initial (adapters : List FlowAdapter) :
    Exact iso float maxBatch (initial iso float adapters) where
  publisher := ⟨FlowPublisher.initial_sound adapters, FlowPublisher.initial_running adapters,
    by simp [initial, FlowPublisher.initial], by simp [initial, FlowPublisher.initial]⟩
  idle _ := rfl
  stored := by simp [initial, FlowPublisher.initial, FlowPublisher.flushed, pipeline]
  serialised := by simp [initial, FlowPublisher.initial]
  entries := rfl
  read := StreamConsumer.gapless_initial _
  memory := rfl

lemma keepsAll {t : StreamConsumer.State FlowDict (List FlowDict)}
    (h : StreamConsumer.Gapless (reader iso float) t)
    (hall : t.memory = handledEvents (reader iso float) t) {a : StreamConsumer.Action}
    (hcrash : a ≠ .crash) :
    (StreamConsumer.step (reader iso float) t a).memory =
      handledEvents (reader iso float) (StreamConsumer.step (reader iso float) t a) := by
  rw [StreamConsumer.step_keepsAll h (by rw [foldl_deliver, hall]; rfl) hcrash, foldl_deliver]
  rfl

/-- What `Reliable` says of the publisher. -/
lemma returns_acquire {task : ℕ} (hok : serialises iso s task = true) :
    FlowPublisher.Returns s.publisher (.acquire task) := by
  intro ev htask _
  simp only [serialises, htask] at hok
  exact (jsonifyFlow_isSome_iff iso ev).mp hok

lemma Exact.acquire (h : Exact iso float maxBatch s) (adapters : List FlowAdapter) {task : ℕ}
    (hok : serialises iso s task = true) :
    Exact iso float maxBatch
      { s with publisher := FlowPublisher.acquire iso maxBatch s.publisher task } := by
  have hret := returns_acquire hok
  have hfull := h.publisher.step iso adapters hret
  simp only [FlowPublisher.step] at hfull
  obtain ⟨heq, _⟩ | ⟨ev, htask, hlock, ⟨hlong, _⟩ | ⟨hwrite, _, heq⟩ | ⟨hwrite, _, heq⟩⟩ :=
    FlowPublisher.acquire_cases iso maxBatch s.publisher task
  · rw [heq]
    exact h
  · exact absurd (hret ev htask hlock) hlong
  all_goals
    have hidle : pipeline s.publisher = [] := by simp [pipeline, hlock]
    have hzero := h.idle hlock
    have hstored := h.stored
    rw [hidle, List.take_nil, List.append_nil] at hstored
    have hbuf := serialised_append (e := (task, ev)) h.serialised
      ((jsonifyFlow_isSome_iff iso ev).mpr hwrite)
    rw [heq] at hfull ⊢
    refine ⟨hfull, fun _ => hzero, ?_, hbuf, h.entries, h.read, h.memory⟩
    simp only [hzero, List.take_zero, List.append_nil]
    exact hstored

lemma Exact.command (h : Exact iso float maxBatch s) :
    Exact iso float maxBatch (command iso float s true) := by
  obtain ⟨heq, _⟩ | ⟨e, he, ⟨_, heq⟩ | ⟨hfalse, _⟩⟩ := command_cases iso float s true
  · rw [heq]
    exact h
  · obtain ⟨hnext, hmem⟩ := pipeline_next he
    rw [heq]
    refine ⟨h.publisher, fun hlock => ?_, ?_, serialised_store h.serialised hmem, ?_,
      StreamConsumer.step_gapless h.read (a := .xadd (jsonifyFlow iso e.2)) (by simp),
      keepsAll h.read h.memory (a := .xadd (jsonifyFlow iso e.2)) (by simp)⟩
    · have hidle : pipeline s.publisher = [] := by simp [pipeline, show s.publisher.lock = none from hlock]
      rw [hidle] at he
      cases he
    · show s.stored ++ [e] = _ ++ (pipeline s.publisher).take (s.answered + 1)
      rw [hnext, ← List.append_assoc, ← h.stored]
    · show s.stream.entries ++ [_] = _
      rw [h.entries, List.map_append]
      rfl
  · cases hfalse

lemma Exact.executed (h : Exact iso float maxBatch s) (adapters : List FlowAdapter) (task : ℕ) :
    Exact iso float maxBatch (executed s task true) := by
  have hfull := h.publisher.step iso adapters (a := .executed task true) fun _ _ => rfl
  obtain heq | ⟨batch, htask, hall, heq⟩ := executed_cases s task true
  · rw [heq]
    exact h
  · obtain ⟨hlock, rfl⟩ := h.publisher.sound.locked task batch htask
    have hanswered := (hall rfl).1
    have hpipeline : pipeline s.publisher = s.publisher.buf := by simp [pipeline, hlock]
    have hstored := h.stored
    rw [hpipeline, List.take_of_length_le hanswered] at hstored
    simp only [FlowPublisher.step] at hfull
    obtain ⟨_, hnot⟩ | ⟨batch', htask', hexec⟩ := FlowPublisher.executed_cases s.publisher task true
    · exact absurd htask (hnot _)
    · obtain ⟨_, rfl⟩ := h.publisher.sound.locked task batch' htask'
      rw [heq]
      rw [hexec] at hfull ⊢
      refine ⟨hfull, fun _ => rfl, ?_, fun e he => ?_, h.entries, h.read, h.memory⟩
      · rw [List.take_zero, List.append_nil]
        simpa [FlowPublisher.flushed] using hstored
      · exact h.serialised e (List.mem_append_left _ (by simpa using he))

theorem Exact.step (h : Exact iso float maxBatch s) (adapters : List FlowAdapter) {a : Action}
    (hok : Reliable iso s a) : Exact iso float maxBatch (step iso float adapters maxBatch s a) := by
  cases a with
  | consume task now m =>
    have hfull := h.publisher.step iso adapters (a := .consume task now m) trivial
    obtain heq | ⟨ev, _, heq⟩ := FlowPublisher.consume_cases adapters s.publisher task now m
    all_goals
      simp only [FlowPublisher.step, heq] at hfull
      simp only [FlowBus.step, heq]
      exact ⟨hfull, h.idle, h.stored, h.serialised, h.entries, h.read, h.memory⟩
  | acquire task => exact h.acquire adapters hok
  | command stored =>
    obtain rfl : stored = true := hok
    exact h.command
  | executed task sent =>
    obtain rfl : sent = true := hok
    exact h.executed adapters task
  | read r =>
    have hcrash : r.action ≠ .crash := Read.action_ne_crash hok
    exact ⟨h.publisher, h.idle, h.stored, h.serialised,
      (StreamConsumer.entries_read _ s.stream r).trans h.entries,
      StreamConsumer.step_gapless h.read hcrash, keepsAll h.read h.memory hcrash⟩

lemma Exact.nothingLost (h : Exact iso float maxBatch s) : NothingLost maxBatch s where
  partitioned task := by
    rw [h.publisher.sound.partitioned h.publisher.running task]
    have hsplit : s.stored ++ unsent s = FlowPublisher.flushed s.publisher ++ s.publisher.buf := by
      rw [h.stored, unsent, pipeline]
      split_ifs
      · rw [List.append_assoc, List.take_append_drop]
      · rw [List.take_nil, List.append_nil]
    rw [hsplit]
  few := by
    unfold unsent
    split_ifs
    · rw [List.length_drop]
      exact (Nat.sub_le _ _).trans h.publisher.le
    · exact h.publisher.le
  room hlock := by
    rw [unsent, if_neg (by simp [hlock])]
    exact h.publisher.free hlock
  handled := by
    obtain ⟨n, hupTo⟩ := h.read.upTo
    have hle := h.read.ordered.ordered.le
    have hlength := congrArg List.length hupTo.hand_eq
    have hn := hupTo.le
    rw [h.entries, List.length_map] at hle
    rw [h.entries, List.length_map, List.length_drop, List.length_take, List.length_map] at hlength
    have hkeep : ∀ e ∈ s.stored.take n, (jsonifyFlow iso e.2).isSome := fun e he =>
      h.serialised e (List.mem_append_left _ (List.mem_of_mem_take he))
    refine ⟨n, by omega, hle, ?_⟩
    rw [h.memory, hupTo.events, h.entries, ← List.map_take]
    have hread := @filterMap_entries iso float { s with stored := s.stored.take n } hkeep
    rw [hread]
    exact map_flowEvent _

/-- As long as nothing fails, every event is on its way or has arrived, in order; what is
not on the stream is less than a batch, or the batch being sent, or waits for the lock. -/
theorem nothingLost_of_reliable (iso : IsoText) (float : Text → Text) (adapters : List FlowAdapter)
    (maxBatch : ℕ) (schedule : List Action)
    (h : Along (step iso float adapters maxBatch) (Reliable iso) (initial iso float adapters) schedule) :
    Throughout (step iso float adapters maxBatch) (NothingLost maxBatch) (initial iso float adapters)
      schedule :=
  (throughout_of_along (I := Exact iso float maxBatch) (fun _ _ hs hok => hs.step adapters hok)
    (exact_initial adapters) h).mono fun _ hs => hs.nothingLost

/-- One event on its way through. -/
def oneEvent : List Action :=
  [.consume 0 0 FlowPublisher.fgtMessage, .acquire 0, .command true, .executed 0 true, .read .start,
    .read .xreadgroup, .read .put, .read .xack]

theorem nothingLost_oneEvent :
    Along (step epochIso id [FlowPublisher.soleAdapter] 1) (Reliable epochIso)
      (initial epochIso id [FlowPublisher.soleAdapter]) oneEvent ∧
    Throughout (step epochIso id [FlowPublisher.soleAdapter] 1) (NothingLost 1)
      (initial epochIso id [FlowPublisher.soleAdapter]) oneEvent ∧
    (run (step epochIso id [FlowPublisher.soleAdapter] 1)
      (initial epochIso id [FlowPublisher.soleAdapter]) oneEvent).stream.memory.length = 1 := by
  have hok : Along (step epochIso id [FlowPublisher.soleAdapter] 1) (Reliable epochIso)
      (initial epochIso id [FlowPublisher.soleAdapter]) oneEvent := by decide +kernel
  exact ⟨hok, nothingLost_of_reliable _ _ _ _ _ hok, by decide +kernel⟩

end FlowDiscovery.FlowBus
