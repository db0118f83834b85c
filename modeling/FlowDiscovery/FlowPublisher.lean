import FlowDiscovery.EventJson
import FlowDiscovery.FlowIngest

/-!
# Batches of flow events and failures of the stream

All adapters share one publisher. `publish` appends to the buffer under a lock
and, when the buffer has reached `max_batch`, sends it as one pipeline while it
still holds the lock. The buffer is cleared whether or not the pipeline raised,
and the error goes on through `publish` and `run` into the task of the adapter,
which ends. Nothing but the batch is lost, but that adapter consumes no more.
An event with a number too long for `str` raises before it is appended, and ends
the task as well.
-/
namespace FlowDiscovery.FlowPublisher
open PyTime FlowIngest Machine EventJson

/-- An event with the position of the adapter that accepted it. -/
abbrev Tagged := ℕ × FlowEvent

/-- Where an adapter's task is suspended, or that it has ended with the error of a
pipeline or of an event that has no text. -/
inductive TaskState where
  | consuming
  | locking (ev : FlowEvent)
  | executing (batch : List Tagged)
  | stopped
  | refused (ev : FlowEvent)
  deriving DecidableEq

def TaskState.ended : TaskState → Bool
  | .stopped | .refused _ => true
  | _ => false

/-- A pipeline that was sent, and whether its `execute` returned. -/
structure Batch where
  sent : Bool
  events : List Tagged
  deriving DecidableEq

/-- `accepted` and `batches` are histories. -/
structure State where
  tasks : List TaskState
  buf : List Tagged
  lock : Option ℕ
  batches : List Batch
  accepted : List Tagged
  deriving DecidableEq

/-- A task gets a message, a task gets the lock, a pipeline returns or raises. -/
inductive Action where
  | consume (task : ℕ) (now : Instant) (m : Message)
  | acquire (task : ℕ)
  | executed (task : ℕ) (sent : Bool)

def initial (adapters : List FlowAdapter) : State where
  tasks := List.replicate adapters.length .consuming
  buf := []
  lock := none
  batches := []
  accepted := []

/-- `run` up to the call of `publish`. -/
def consume (adapters : List FlowAdapter) (s : State) (task : ℕ) (now : Instant) (m : Message) :
    State :=
  match s.tasks[task]?, adapters[task]? with
  | some .consuming, some a =>
    match a.handle now m with
    | some ev =>
      { s with
        tasks := s.tasks.set task (.locking ev)
        accepted := s.accepted ++ [(task, ev)] }
    | none => s
  | _, _ => s

/-- `publish` inside the lock, up to the pipeline if the batch is full. The event is
serialised before it is appended. -/
def acquire (iso : IsoText) (maxBatch : ℕ) (s : State) (task : ℕ) : State :=
  match s.tasks[task]?, s.lock with
  | some (.locking ev), none =>
    match jsonifyFlow iso ev with
    | none => { s with tasks := s.tasks.set task (.refused ev) }
    | some _ =>
      let buf := s.buf ++ [(task, ev)]
      if maxBatch ≤ buf.length then
        { s with buf, lock := some task, tasks := s.tasks.set task (.executing buf) }
      else { s with buf, tasks := s.tasks.set task .consuming }
  | _, _ => s

/-- The end of `_flush_locked`: the buffer is cleared in any case, and an error
leaves `publish`, `run` and the draining task. -/
def executed (s : State) (task : ℕ) (sent : Bool) : State :=
  match s.tasks[task]? with
  | some (.executing batch) =>
    { s with
      tasks := s.tasks.set task (if sent then .consuming else .stopped)
      buf := []
      lock := none
      batches := s.batches ++ [⟨sent, batch⟩] }
  | _ => s

def step (iso : IsoText) (adapters : List FlowAdapter) (maxBatch : ℕ) (s : State) : Action → State
  | .consume task now m => consume adapters s task now m
  | .acquire task => acquire iso maxBatch s task
  | .executed task sent => executed s task sent

/-! ## The property and its condition -/

/-- The event an adapter is about to publish. -/
def waiting (s : State) (task : ℕ) : List FlowEvent :=
  match s.tasks[task]? with
  | some (.locking ev) => [ev]
  | _ => []

/-- The event that ended the task. -/
def unwritten (s : State) (task : ℕ) : List FlowEvent :=
  match s.tasks[task]? with
  | some (.refused ev) => [ev]
  | _ => []

/-- Events of all pipelines so far, in the order in which they were sent. -/
def flushed (s : State) : List Tagged := s.batches.flatMap Batch.events

/-- For each adapter, what it accepted is in order what went into pipelines (those
that returned and those that raised), then what is in the buffer, then the event
it waits to append. -/
def Partitioned (s : State) : Prop :=
  ∀ task, entriesOf task s.accepted =
    entriesOf task (flushed s ++ s.buf) ++ waiting s task

def Running (s : State) : Prop := ∀ t ∈ s.tasks, t.ended = false

/-- A failure costs the batch and nothing else: every adapter goes on. -/
structure FailureContained (s : State) : Prop where
  running : Running s
  partitioned : Partitioned s

/-- No pipeline raises, and `str` writes the numbers of the event that is appended. -/
def Returns (s : State) : Action → Prop
  | .consume _ _ _ => True
  | .acquire task => ∀ ev, s.tasks[task]? = some (.locking ev) → s.lock = none → Writable ev
  | .executed task sent => ∀ batch, s.tasks[task]? = some (.executing batch) → sent = true

/-! ## What a step does -/

theorem consume_cases (adapters : List FlowAdapter) (s : State) (task : ℕ) (now : Instant)
    (m : Message) :
    consume adapters s task now m = s ∨
    ∃ ev, s.tasks[task]? = some .consuming ∧
      consume adapters s task now m =
        { s with
          tasks := s.tasks.set task (.locking ev)
          accepted := s.accepted ++ [(task, ev)] } := by
  unfold consume
  split
  · next a htask _ =>
    cases a.handle now m with
    | none => exact .inl rfl
    | some ev => exact .inr ⟨ev, htask, rfl⟩
  · exact .inl rfl

theorem acquire_cases (iso : IsoText) (maxBatch : ℕ) (s : State) (task : ℕ) :
    acquire iso maxBatch s task = s ∧
      (∀ ev, s.tasks[task]? = some (.locking ev) → s.lock ≠ none) ∨
    ∃ ev, s.tasks[task]? = some (.locking ev) ∧ s.lock = none ∧
      ((¬ Writable ev ∧ acquire iso maxBatch s task =
          { s with tasks := s.tasks.set task (.refused ev) }) ∨
        (Writable ev ∧ maxBatch ≤ s.buf.length + 1 ∧ acquire iso maxBatch s task =
          { s with
            buf := s.buf ++ [(task, ev)]
            lock := some task
            tasks := s.tasks.set task (.executing (s.buf ++ [(task, ev)])) }) ∨
        (Writable ev ∧ s.buf.length + 1 < maxBatch ∧ acquire iso maxBatch s task =
          { s with
            buf := s.buf ++ [(task, ev)]
            tasks := s.tasks.set task .consuming })) := by
  unfold acquire
  split
  · next ev htask hlock =>
    refine .inr ⟨ev, htask, hlock, ?_⟩
    rw [← jsonifyFlow_isSome_iff iso]
    cases jsonifyFlow iso ev with
    | none => exact .inl ⟨by simp, rfl⟩
    | some text =>
      by_cases hfull : maxBatch ≤ s.buf.length + 1
      · exact .inr (.inl ⟨rfl, hfull, by simp [hfull]⟩)
      · exact .inr (.inr ⟨rfl, by omega, by simp [hfull]⟩)
  · next hnot => exact .inl ⟨rfl, fun ev htask hlock => hnot ev htask hlock⟩

theorem executed_cases (s : State) (task : ℕ) (sent : Bool) :
    executed s task sent = s ∧ (∀ batch, s.tasks[task]? ≠ some (.executing batch)) ∨
    ∃ batch, s.tasks[task]? = some (.executing batch) ∧
      executed s task sent =
        { s with
          tasks := s.tasks.set task (if sent then .consuming else .stopped)
          buf := []
          lock := none
          batches := s.batches ++ [⟨sent, batch⟩] } := by
  unfold executed
  split
  · next batch htask => exact .inr ⟨batch, htask, rfl⟩
  · next hnot => exact .inl ⟨rfl, fun batch htask => hnot batch htask⟩

/-! ## Invariant -/

/-- Every accepted event is accounted for, and the task whose pipeline is under way holds
the lock, so nothing was appended behind its batch. -/
structure Sound (s : State) : Prop where
  accounted : ∀ task, entriesOf task s.accepted =
    entriesOf task (flushed s ++ s.buf) ++ (waiting s task ++ unwritten s task)
  locked : ∀ task batch, s.tasks[task]? = some (.executing batch) →
    s.lock = some task ∧ batch = s.buf

lemma Sound.partitioned {s : State} (h : Sound s) (hrun : Running s) : Partitioned s := by
  intro task
  have hnone : unwritten s task = [] := by
    unfold unwritten
    split
    · next ev htask => exact absurd (hrun _ (List.mem_of_getElem? htask)) (by simp [TaskState.ended])
    · rfl
  rw [h.accounted task, hnone, List.append_nil]

theorem Sound.consume {s : State} (h : Sound s) (adapters : List FlowAdapter) (task : ℕ)
    (now : Instant) (m : Message) : Sound (consume adapters s task now m) := by
  obtain heq | ⟨ev, htask, heq⟩ := consume_cases adapters s task now m
  · rw [heq]
    exact h
  · rw [heq]
    refine ⟨fun j => ?_, fun j batch hj => ?_⟩
    · have hold := h.accounted j
      simp only [waiting, unwritten] at hold ⊢
      rw [getElem?_set_of_some htask, entriesOf_append, entriesOf_singleton, hold]
      by_cases hj : task = j
      · subst hj
        simp [htask, flushed]
      · simp [hj, flushed]
    · rw [getElem?_set_of_some htask] at hj
      split_ifs at hj
      · cases hj
      · exact h.locked j batch hj

/-- A task that takes the lock moves its event to the buffer. -/
lemma Sound.append {s : State} (h : Sound s) {task : ℕ} {ev : FlowEvent}
    (htask : s.tasks[task]? = some (.locking ev)) {t' : TaskState}
    (ht' : t' = .consuming ∨ ∃ batch, t' = .executing batch) (lock : Option ℕ) (j : ℕ) :
    let after : State :=
      { s with
        buf := s.buf ++ [(task, ev)]
        lock := lock
        tasks := s.tasks.set task t' }
    entriesOf j after.accepted =
      entriesOf j (flushed after ++ after.buf) ++ (waiting after j ++ unwritten after j) := by
  have hold := h.accounted j
  simp only [waiting, unwritten, flushed] at hold ⊢
  rw [getElem?_set_of_some htask, ← List.append_assoc (List.flatMap _ _), entriesOf_append,
    entriesOf_singleton, hold]
  by_cases hj : task = j
  · subst hj
    obtain rfl | ⟨batch, rfl⟩ := ht' <;> simp [htask]
  · simp [hj]

theorem Sound.acquire {s : State} (h : Sound s) (iso : IsoText) (maxBatch task : ℕ) :
    Sound (acquire iso maxBatch s task) := by
  obtain ⟨heq, _⟩ | ⟨ev, htask, hlock, hcase⟩ := acquire_cases iso maxBatch s task
  · rw [heq]
    exact h
  · -- the lock was free, so no pipeline was under way
    have hnone : ∀ (j : ℕ) (batch : List Tagged), s.tasks[j]? ≠ some (.executing batch) := by
      intro j batch hj
      have hheld := (h.locked j batch hj).1
      rw [hlock] at hheld
      cases hheld
    obtain ⟨_, heq⟩ | ⟨_, _, heq⟩ | ⟨_, _, heq⟩ := hcase
    · rw [heq]
      refine ⟨fun j => ?_, fun j batch hj => ?_⟩
      · have hold := h.accounted j
        simp only [waiting, unwritten, flushed] at hold ⊢
        rw [getElem?_set_of_some htask, hold]
        by_cases hj : task = j
        · subst hj
          simp [htask]
        · simp [hj]
      · rw [getElem?_set_of_some htask] at hj
        split_ifs at hj
        · cases hj
        · exact absurd hj (hnone j batch)
    · rw [heq]
      refine ⟨h.append htask (.inr ⟨_, rfl⟩) _, fun j batch hj => ?_⟩
      rw [getElem?_set_of_some htask] at hj
      split_ifs at hj with hij
      · cases hj
        exact ⟨by rw [hij], rfl⟩
      · exact absurd hj (hnone j batch)
    · rw [heq]
      refine ⟨h.append htask (.inl rfl) _, fun j batch hj => ?_⟩
      rw [getElem?_set_of_some htask] at hj
      split_ifs at hj
      · cases hj
      · exact absurd hj (hnone j batch)

theorem Sound.executed {s : State} (h : Sound s) (task : ℕ) (sent : Bool) :
    Sound (executed s task sent) := by
  obtain ⟨heq, _⟩ | ⟨batch, htask, heq⟩ := executed_cases s task sent
  · rw [heq]
    exact h
  · obtain ⟨hlock, rfl⟩ := h.locked task batch htask
    rw [heq]
    refine ⟨fun j => ?_, fun j batch' hj => ?_⟩
    · have hold := h.accounted j
      simp only [waiting, unwritten, flushed] at hold ⊢
      rw [getElem?_set_of_some htask, hold]
      by_cases hj : task = j
      · subst hj
        cases sent <;> simp [htask]
      · simp [hj]
    · -- only the holder of the lock can have a pipeline under way
      rw [getElem?_set_of_some htask] at hj
      split_ifs at hj with hij hsent
      · cases hj
      · cases hj
      · have hheld := (h.locked j batch' hj).1
        rw [hlock] at hheld
        exact absurd (Option.some.inj hheld) hij

theorem Sound.step {s : State} (h : Sound s) (iso : IsoText) (adapters : List FlowAdapter)
    (maxBatch : ℕ) (action : Action) : Sound (step iso adapters maxBatch s action) := by
  cases action with
  | consume task now m => exact h.consume adapters task now m
  | acquire task => exact h.acquire iso maxBatch task
  | executed task sent => exact h.executed task sent

lemma initial_sound (adapters : List FlowAdapter) : Sound (initial adapters) where
  accounted task := by
    by_cases h : task < adapters.length <;>
      simp [initial, waiting, unwritten, entriesOf, flushed, h]
  locked task batch h := by
    simp [initial, List.getElem?_replicate] at h

lemma initial_running (adapters : List FlowAdapter) : Running (initial adapters) := by
  simp [Running, initial, TaskState.ended]

/-- Without a raised error no task ends. -/
lemma running_step {s : State} (hrun : Running s) (iso : IsoText) (adapters : List FlowAdapter)
    (maxBatch : ℕ) (action : Action) (hret : Returns s action) :
    Running (step iso adapters maxBatch s action) := by
  cases action with
  | consume task now m =>
    obtain heq | ⟨ev, _, heq⟩ := consume_cases adapters s task now m
    · simpa only [step, heq] using hrun
    · simpa only [step, heq, Running] using forall_mem_set hrun rfl task
  | acquire task =>
    obtain ⟨heq, _⟩ | ⟨ev, htask, hlock, ⟨hlong, _⟩ | ⟨_, _, heq⟩ | ⟨_, _, heq⟩⟩ :=
      acquire_cases iso maxBatch s task
    · simpa only [step, heq] using hrun
    · exact absurd (hret ev htask hlock) hlong
    · simpa only [step, heq, Running] using forall_mem_set hrun rfl task
    · simpa only [step, heq, Running] using forall_mem_set hrun rfl task
  | executed task sent =>
    obtain ⟨heq, _⟩ | ⟨batch, htask, heq⟩ := executed_cases s task sent
    · simpa only [step, heq] using hrun
    · obtain rfl : sent = true := hret batch htask
      simpa only [step, heq, if_true, Running] using forall_mem_set hrun rfl task

/-- A raised error ends the task in which it is raised. -/
lemma not_running_of_raise {s : State} (iso : IsoText) (adapters : List FlowAdapter) (maxBatch : ℕ)
    (action : Action) (hret : ¬ Returns s action) :
    ¬ FailureContained (step iso adapters maxBatch s action) := by
  cases action with
  | consume task now m => exact absurd trivial hret
  | acquire task =>
    simp only [Returns, not_forall] at hret
    obtain ⟨ev, htask, hlock, hlong⟩ := hret
    obtain ⟨_, hnot⟩ | ⟨ev', htask', _, hcase⟩ := acquire_cases iso maxBatch s task
    · exact absurd hlock (hnot ev htask)
    · rw [htask] at htask'
      obtain rfl := TaskState.locking.inj (Option.some.inj htask')
      obtain ⟨_, heq⟩ | ⟨hok, _⟩ | ⟨hok, _⟩ := hcase
      · intro hcontained
        have hmem : TaskState.refused ev ∈ (step iso adapters maxBatch s (.acquire task)).tasks := by
          simp only [step, heq]
          exact mem_set_of_some htask _
        exact absurd (hcontained.running _ hmem) (by simp [TaskState.ended])
      · exact absurd hok hlong
      · exact absurd hok hlong
  | executed task sent =>
    simp only [Returns, not_forall] at hret
    obtain ⟨batch, htask, hsent⟩ := hret
    obtain rfl : sent = false := eq_false_of_ne_true hsent
    obtain ⟨_, hnot⟩ | ⟨batch', _, heq⟩ := executed_cases s task false
    · exact absurd htask (hnot batch)
    · intro hcontained
      have hmem : TaskState.stopped ∈ (step iso adapters maxBatch s (.executed task false)).tasks := by
        simp only [step, heq]
        exact mem_set_of_some htask .stopped
      exact absurd (hcontained.running _ hmem) (by simp [TaskState.ended])

/-- For every set of adapters, batch size, sequence of messages and interleaving:
failures stay contained at every point of the run if and only if no pipeline raises and
no event with a number of more than 4300 digits comes to be appended. -/
theorem failureContained_iff_returns (iso : IsoText) (adapters : List FlowAdapter) (maxBatch : ℕ)
    (schedule : List Action) :
    Throughout (step iso adapters maxBatch) FailureContained (initial adapters) schedule ↔
      Along (step iso adapters maxBatch) Returns (initial adapters) schedule := by
  constructor
  · exact along_of_throughout (I := fun _ => True) (fun _ _ _ _ _ => trivial)
      (fun s action _ _ hret => not_running_of_raise iso adapters maxBatch action hret) trivial
  · intro h
    have hinv := throughout_of_along (I := fun s => Sound s ∧ Running s)
      (fun s action hs hret => ⟨hs.1.step iso adapters maxBatch action,
        running_step hs.2 iso adapters maxBatch action hret⟩)
      ⟨initial_sound adapters, initial_running adapters⟩ h
    exact hinv.mono fun s hs => ⟨hs.2, hs.1.partitioned hs.2⟩

/-- Also when errors are raised, each accepted event is in exactly one place; the event
that has no text ends its task and is the last one of its adapter. -/
theorem accounted_throughout (iso : IsoText) (adapters : List FlowAdapter) (maxBatch : ℕ)
    (schedule : List Action) (task : ℕ) :
    let s := run (step iso adapters maxBatch) (initial adapters) schedule
    entriesOf task s.accepted =
      entriesOf task (flushed s ++ s.buf) ++ (waiting s task ++ unwritten s task) :=
  (run_invariant (I := Sound) (fun _ action hs => hs.step iso adapters maxBatch action)
    (initial_sound adapters) schedule).accounted task

/-- The FortiGate adapter without an allowlist. -/
def soleAdapter : FlowAdapter := ⟨.fortigate, none⟩

def fgtMessage : Message :=
  ("10.20.0.21", "type=traffic subtype=forward status=close srcip=10.0.0.3 dstip=1.1.1.1")

/-- One raised pipeline: its batch is the one event, and the next message is not
consumed any more. -/
def raisingRun : List Action :=
  [.consume 0 0 fgtMessage, .acquire 0, .executed 0 false, .consume 0 5 fgtMessage]

theorem raisingRun_stops_adapter :
    let s := run (step epochIso [soleAdapter] 1) (initial [soleAdapter]) raisingRun
    s.tasks = [.stopped] ∧ s.accepted.length = 1 ∧ s.batches.map Batch.sent = [false] ∧
      ¬ Throughout (step epochIso [soleAdapter] 1) FailureContained (initial [soleAdapter])
        raisingRun := by
  have htasks : (run (step epochIso [soleAdapter] 1) (initial [soleAdapter]) raisingRun).tasks =
      [.stopped] := by decide +kernel
  refine ⟨htasks, by decide +kernel, by decide +kernel, fun h => ?_⟩
  have hrun := h.last.running .stopped (by rw [htasks]; exact List.mem_singleton_self _)
  exact absurd hrun (by decide)

end FlowDiscovery.FlowPublisher
