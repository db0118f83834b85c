import FlowDiscovery.BoundedQueue
import FlowDiscovery.FlowAdapters
import FlowDiscovery.Machine
import Mathlib.Data.Finset.Insert

/-!
# Flow ingest: adapters competing for one syslog queue

Every enabled adapter runs as its own task and takes messages from the one queue
of the receiver. A message is removed by whichever adapter gets it; an adapter
whose allowlist or parser rejects the message drops it. The state records, next
to the queue, what was handed to the publisher, discarded and evicted.
-/
namespace FlowDiscovery.FlowIngest
open PyText PyTime PyLexers FlowAdapters Machine

/-- A peer address and a line. -/
abbrev Message := String × String

/-- The classes of `_ADAPTER_REGISTRY`. -/
inductive AdapterClass where
  | paloAlto
  | fortigate
  deriving DecidableEq, Repr

def adapterRegistry (name : String) : Option AdapterClass :=
  if name = PaloAlto.name then some .paloAlto
  else if name = FortiGate.name then some .fortigate
  else none

/-- The two fields of an adapter's YAML file that this service reads. -/
structure AdapterConfig where
  enabled : Bool
  sourceIps : Finset String
  deriving DecidableEq

def listEnabledAdapters (configs : Dict String AdapterConfig) : List String :=
  configs.entries.filterMap fun (name, cfg) =>
    if cfg.enabled ∧ (adapterRegistry name).isSome then some name else none

structure FlowAdapter where
  cls : AdapterClass
  peerAllowlist : Option (Finset String)
  deriving DecidableEq

/-- The adapters `_run` starts a task for, in order. An empty set of source
addresses becomes the allowlist `None`. -/
def startAdapters (configs : Dict String AdapterConfig) : List FlowAdapter :=
  (listEnabledAdapters configs).filterMap fun name => do
    let cls ← adapterRegistry name
    let cfg ← configs.get? name
    return ⟨cls, if cfg.sourceIps = ∅ then none else some cfg.sourceIps⟩

namespace FlowAdapter

def parseLine (a : FlowAdapter) (now : Instant) (line : String) :
    Except CsvError (Option FlowEvent) :=
  match a.cls with
  | .paloAlto => PaloAlto.parseLine now line.toList
  | .fortigate => .ok (FortiGate.parseLine now line.toList)

/-- The peer passes when there is no allowlist or the allowlist has it. -/
def admits (a : FlowAdapter) (peer : String) : Bool :=
  match a.peerAllowlist with
  | none => true
  | some allowed => allowed = ∅ ∨ peer ∈ allowed

/-- Body of `run` between the queue and the publisher. `none` means that the
loop continues with the next message; a parser error is logged and dropped. -/
def handle (a : FlowAdapter) (now : Instant) (m : Message) : Option FlowEvent :=
  if a.admits m.1 then
    match a.parseLine now m.2 with
    | .ok ev => ev
    | .error _ => none
  else none

/-- The adapter would publish the message if it got it. -/
def Accepts (a : FlowAdapter) (m : Message) : Prop := ∃ now, (a.handle now m).isSome

lemma parseLine_isSome_eq (a : FlowAdapter) (t t' : Instant) (line : String) :
    (a.parseLine t line).map Option.isSome = (a.parseLine t' line).map Option.isSome := by
  unfold parseLine
  cases a.cls with
  | paloAlto => exact PaloAlto.parseLine_isSome_eq t t' line.toList
  | fortigate => exact congrArg Except.ok (FortiGate.parseLine_isSome_eq t t' line.toList)

theorem handle_isSome_eq (a : FlowAdapter) (t t' : Instant) (m : Message) :
    (a.handle t m).isSome = (a.handle t' m).isSome := by
  unfold handle
  split_ifs
  · have h := parseLine_isSome_eq a t t' m.2
    rcases ht : a.parseLine t m.2 with e | ev <;> rcases ht' : a.parseLine t' m.2 with e' | ev' <;>
      simp_all [Except.map]
  · rfl

theorem accepts_iff (a : FlowAdapter) (t : Instant) (m : Message) :
    a.Accepts m ↔ (a.handle t m).isSome :=
  ⟨fun ⟨t', h⟩ => (handle_isSome_eq a t t' m).trans h, fun h => ⟨t, h⟩⟩

instance (a : FlowAdapter) (m : Message) : Decidable (a.Accepts m) :=
  decidable_of_iff ((a.handle 0 m).isSome) (accepts_iff a 0 m).symm

end FlowAdapter

/-- Receiver queue and the fate of every message so far. -/
structure Ingest (queueMax : ℕ) where
  queue : BoundedQueue Message queueMax
  backpressureDrops : ℕ
  enqueued : List Message
  evicted : List Message
  handed : List (Message × FlowEvent)
  discarded : List Message

/-- One scheduling choice: the receiver enqueues a message, or the task of the
adapter at a position completes its `queue.get` and handles the message. -/
inductive Action where
  | enqueue (m : Message)
  | get (task : ℕ) (now : Instant)

variable {queueMax : ℕ}

def initial : Ingest queueMax := ⟨.empty, 0, [], [], [], []⟩

/-- `SyslogReceiver._enqueue`. -/
def enqueue (s : Ingest queueMax) (m : Message) : Ingest queueMax :=
  let p := s.queue.putDropOldest m
  { s with
    queue := p.queue
    backpressureDrops := s.backpressureDrops + if p.wasFull then 1 else 0
    enqueued := s.enqueued ++ [m]
    evicted := s.evicted ++ p.evicted.toList }

/-- One iteration of an adapter's `run`; with an empty queue the task waits. -/
def adapterGet (a : FlowAdapter) (now : Instant) (s : Ingest queueMax) : Ingest queueMax :=
  match s.queue.getNowait with
  | none => s
  | some (m, q) =>
    match a.handle now m with
    | some ev => { s with queue := q, handed := s.handed ++ [(m, ev)] }
    | none => { s with queue := q, discarded := s.discarded ++ [m] }

def step (adapters : List FlowAdapter) (s : Ingest queueMax) : Action → Ingest queueMax
  | .enqueue m => enqueue s m
  | .get task now =>
    match adapters[task]? with
    | none => s
    | some a => adapterGet a now s

/-- The messages a schedule enqueues, in order. -/
def enqueuedBy (schedule : List Action) : List Message :=
  schedule.filterMap fun
    | .enqueue m => some m
    | .get _ _ => none

/-- Some enabled adapter would publish the message. -/
def Acceptable (adapters : List FlowAdapter) (m : Message) : Prop := ∃ a ∈ adapters, a.Accepts m

/-- Every occurrence of a publishable message was handed to the publisher, still
waits in the queue or was evicted by the receiver's own back-pressure, and none
was consumed and dropped by an adapter. -/
structure Lossless (adapters : List FlowAdapter) (s : Ingest queueMax) : Prop where
  handed_or_waiting : ∀ m, Acceptable adapters m →
    s.enqueued.count m =
      (s.handed.map Prod.fst).count m + s.queue.items.count m + s.evicted.count m
  none_discarded : ∀ m ∈ s.discarded, ¬ Acceptable adapters m

/-- Each message is in exactly one place, whoever consumed it. -/
def Accounted (s : Ingest queueMax) : Prop :=
  ∀ m, s.enqueued.count m = (s.handed.map Prod.fst).count m + s.discarded.count m +
    s.queue.items.count m + s.evicted.count m

/-- All enabled adapters judge the message alike. -/
def Agreed (adapters : List FlowAdapter) (m : Message) : Prop :=
  Acceptable adapters m → ∀ a ∈ adapters, a.Accepts m

theorem enqueue_accounted (s : Ingest queueMax) (m : Message) (h : Accounted s) :
    Accounted (enqueue s m) := by
  intro x
  have hx := h x
  have hc := congrArg (List.count x) (s.queue.putDropOldest_conserves m)
  simp only [List.count_append] at hc
  simp only [enqueue, List.count_append]
  omega

/-- What one iteration of an adapter can do. -/
theorem adapterGet_cases (a : FlowAdapter) (now : Instant) (s : Ingest queueMax) :
    (s.queue.items = [] ∧ adapterGet a now s = s) ∨
    (∃ m q ev, s.queue.items = m :: q.items ∧ a.handle now m = some ev ∧
      adapterGet a now s = { s with queue := q, handed := s.handed ++ [(m, ev)] }) ∨
    (∃ m q, s.queue.items = m :: q.items ∧ a.handle now m = none ∧
      adapterGet a now s = { s with queue := q, discarded := s.discarded ++ [m] }) := by
  unfold adapterGet
  cases hg : s.queue.getNowait with
  | none => exact .inl ⟨(s.queue.getNowait_eq_none_iff).mp hg, rfl⟩
  | some p =>
    obtain ⟨m, q⟩ := p
    have hi := (s.queue.getNowait_eq_some_iff q m).mp hg
    cases hh : a.handle now m with
    | some ev => exact .inr (.inl ⟨m, q, ev, hi, hh, by simp only [hh]⟩)
    | none => exact .inr (.inr ⟨m, q, hi, hh, by simp only [hh]⟩)

theorem adapterGet_accounted (a : FlowAdapter) (now : Instant) (s : Ingest queueMax)
    (h : Accounted s) : Accounted (adapterGet a now s) := by
  intro x
  have hx := h x
  obtain ⟨_, he⟩ | ⟨m, q, ev, hi, _, he⟩ | ⟨m, q, hi, _, he⟩ := adapterGet_cases a now s
  · rw [he]
    exact hx
  · rw [hi, List.count_cons] at hx
    simp only [he, List.map_append, List.map_cons, List.map_nil, List.count_append,
      List.count_singleton]
    omega
  · rw [hi, List.count_cons] at hx
    simp only [he, List.count_append, List.count_singleton]
    omega

/-- Invariant of schedules that only enqueue messages judged alike. -/
structure Fair (adapters : List FlowAdapter) (s : Ingest queueMax) : Prop where
  accounted : Accounted s
  agreed : ∀ m ∈ s.enqueued, Agreed adapters m
  none_discarded : ∀ m ∈ s.discarded, ¬ Acceptable adapters m

theorem Fair.lossless {adapters : List FlowAdapter} {s : Ingest queueMax}
    (h : Fair adapters s) : Lossless adapters s where
  handed_or_waiting m hm := by
    have hc := h.accounted m
    have hd : s.discarded.count m = 0 :=
      List.count_eq_zero.mpr fun hmem => h.none_discarded m hmem hm
    omega
  none_discarded := h.none_discarded

theorem Fair.adapterGet {adapters : List FlowAdapter} {s : Ingest queueMax}
    (h : Fair adapters s) (a : FlowAdapter) (ha : a ∈ adapters) (now : Instant) :
    Fair adapters (adapterGet a now s) := by
  have hacc := adapterGet_accounted a now s h.accounted
  obtain ⟨_, he⟩ | ⟨m, q, ev, _, _, he⟩ | ⟨m, q, hi, hh, he⟩ := adapterGet_cases a now s
  · rw [he]
    exact h
  · rw [he] at hacc ⊢
    exact ⟨hacc, h.agreed, h.none_discarded⟩
  · rw [he] at hacc ⊢
    refine ⟨hacc, h.agreed, ?_⟩
    intro x hx
    rcases List.mem_append.mp hx with hx | hx
    · exact h.none_discarded x hx
    · -- the discarded message was enqueued, so its rejection is everyone's
      have hxm : x = m := List.mem_singleton.mp hx
      have hmem : m ∈ s.enqueued := by
        have hc := h.accounted m
        rw [hi, List.count_cons_self] at hc
        exact List.count_pos_iff.mp (by omega)
      rintro hacceptable
      have hacc := h.agreed m hmem (hxm ▸ hacceptable) a ha
      rw [a.accepts_iff now, hh] at hacc
      exact absurd hacc (by simp)

theorem Fair.step {adapters : List FlowAdapter} {s : Ingest queueMax} (h : Fair adapters s)
    (action : Action) (hag : ∀ m, action = .enqueue m → Agreed adapters m) :
    Fair adapters (step adapters s action) := by
  cases action with
  | enqueue m =>
    refine ⟨enqueue_accounted s m h.accounted, ?_, h.none_discarded⟩
    intro x hx
    rcases List.mem_append.mp hx with hx | hx
    · exact h.agreed x hx
    · exact List.mem_singleton.mp hx ▸ hag m rfl
  | get task now =>
    simp only [FlowIngest.step]
    cases ha : adapters[task]? with
    | none => exact h
    | some a => exact h.adapterGet a (List.mem_of_getElem? ha) now

theorem initial_fair (adapters : List FlowAdapter) :
    Fair adapters (initial : Ingest queueMax) where
  accounted m := by simp [initial]
  agreed := by simp [initial]
  none_discarded := by simp [initial]

lemma along_agreed (adapters : List FlowAdapter) (schedule : List Action)
    (h : ∀ m ∈ enqueuedBy schedule, Agreed adapters m) (s : Ingest queueMax) :
    Along (step adapters) (fun _ action => ∀ m, action = .enqueue m → Agreed adapters m)
      s schedule := by
  induction schedule generalizing s with
  | nil => trivial
  | cons action rest ih =>
    refine ⟨?_, ih (fun m hm => h m ?_) _⟩
    · rintro m rfl
      exact h m (by simp [enqueuedBy])
    · cases action with
      | enqueue x => exact List.mem_cons_of_mem _ hm
      | get task now => exact hm

/-- The schedule in which one task gets every message right after it arrives. -/
def serveAll (task : ℕ) (messages : List Message) : List Action :=
  messages.flatMap fun m => [.enqueue m, .get task 0]

lemma enqueuedBy_serveAll (task : ℕ) (messages : List Message) :
    enqueuedBy (serveAll task messages) = messages := by
  induction messages with
  | nil => rfl
  | cons m rest ih =>
    have hcons : enqueuedBy (serveAll task (m :: rest)) =
        m :: enqueuedBy (serveAll task rest) := rfl
    rw [hcons, ih]

/-- A message served from an empty queue is gone, and dropped if it is rejected. -/
lemma serve_one (a : FlowAdapter) (s : Ingest queueMax) (m : Message)
    (hs : s.queue.items = []) :
    (adapterGet a 0 (enqueue s m)).queue.items = [] ∧
    (adapterGet a 0 (enqueue s m)).discarded =
      s.discarded ++ if (a.handle 0 m).isNone then [m] else [] := by
  have hfull : ¬ s.queue.Full := by
    rintro ⟨h0, hl⟩
    rw [hs, List.length_nil] at hl
    omega
  have hq : (enqueue s m).queue.items = [m] := by
    simp [enqueue, (s.queue.putDropOldest_of_not_full m hfull).1, hs]
  have hd : (enqueue s m).discarded = s.discarded := rfl
  obtain ⟨he, _⟩ | ⟨x, q, ev, hi, hh, he⟩ | ⟨x, q, hi, hh, he⟩ :=
    adapterGet_cases a 0 (enqueue s m)
  · simp [hq] at he
  · rw [hq] at hi
    obtain ⟨rfl, hq'⟩ := List.cons.inj hi
    rw [he]
    exact ⟨hq'.symm, by simp [hd, hh]⟩
  · rw [hq] at hi
    obtain ⟨rfl, hq'⟩ := List.cons.inj hi
    rw [he]
    exact ⟨hq'.symm, by simp [hd, hh]⟩

lemma serveAll_discards (adapters : List FlowAdapter) (task : ℕ) (a : FlowAdapter)
    (ha : adapters[task]? = some a) (messages : List Message) (s : Ingest queueMax)
    (hs : s.queue.items = []) :
    (run (step adapters) s (serveAll task messages)).discarded =
      s.discarded ++ messages.filter fun m => (a.handle 0 m).isNone := by
  induction messages generalizing s with
  | nil => simp [serveAll]
  | cons m rest ih =>
    have hcons : run (step adapters) s (serveAll task (m :: rest)) =
        run (step adapters) (adapterGet a 0 (enqueue s m)) (serveAll task rest) := by
      simp [serveAll, step, ha]
    obtain ⟨hq, hd⟩ := serve_one a s m hs
    rw [hcons, ih _ hq, hd]
    cases hh : (a.handle 0 m).isNone <;> simp [hh]

/-- No schedule loses a publishable message if and only if every enqueued message
that some enabled adapter would publish would be published by all of them. -/
theorem lossless_iff_agreed (configs : Dict String AdapterConfig) (messages : List Message) :
    (∀ schedule : List Action, enqueuedBy schedule = messages →
      Throughout (step (startAdapters configs)) (Lossless (startAdapters configs))
        (initial : Ingest queueMax) schedule) ↔
    ∀ m ∈ messages, Acceptable (startAdapters configs) m →
      ∀ a ∈ startAdapters configs, a.Accepts m := by
  constructor
  · intro h m hm hacceptable a ha
    by_contra hrej
    obtain ⟨task, htask⟩ := List.getElem?_of_mem ha
    have hrun := (h (serveAll task messages) (enqueuedBy_serveAll task messages)).last
    apply hrun.none_discarded m ?_ hacceptable
    rw [serveAll_discards _ task a htask messages _ rfl]
    have hnone : a.handle 0 m = none := by
      rw [a.accepts_iff 0] at hrej
      simpa using hrej
    simp [hm, hnone]
  · rintro h schedule rfl
    have hfair := throughout_of_along (I := Fair (startAdapters configs))
      (fun s action hs hag => hs.step action hag)
      (initial_fair (startAdapters configs) : Fair _ (initial : Ingest queueMax))
      (along_agreed (startAdapters configs) schedule h _)
    exact hfair.mono fun s hs => hs.lossless

/-- The adapter files shipped with the repository: both firewalls enabled, each
with its own source addresses. -/
def shippedConfigs : Dict String AdapterConfig where
  entries := [("fortigate", ⟨true, {"10.20.0.21", "10.20.0.22"}⟩),
    ("palo_alto", ⟨true, {"10.10.0.11", "10.10.0.12"}⟩)]
  nodup := by decide

/-- A PAN-OS session record sent by one of the shipped PAN-OS addresses. -/
def panMessage : Message :=
  ("10.10.0.11", "LEEF:2.0|Palo Alto Networks|PAN-OS|10.2|TRAFFIC|src=10.0.0.3|dst=1.1.1.1")

/-- With the shipped configuration and the default queue, the FortiGate task can
wake for a PAN-OS record: it is consumed, dropped and never published, although
the PAN-OS adapter would have published it. -/
theorem shippedConfigs_lose_panMessage :
    let adapters := startAdapters shippedConfigs
    let s := run (step adapters) (initial : Ingest 10000) [.enqueue panMessage, .get 0 0]
    Acceptable adapters panMessage ∧ s.queue.items = [] ∧ s.evicted = [] ∧ s.handed = [] ∧
      s.discarded = [panMessage] ∧ ¬ Lossless adapters s := by
  have hacc : Acceptable (startAdapters shippedConfigs) panMessage :=
    ⟨⟨.paloAlto, some {"10.10.0.11", "10.10.0.12"}⟩, by decide, by decide⟩
  have hdis : (run (step (startAdapters shippedConfigs)) (initial : Ingest 10000)
      [.enqueue panMessage, .get 0 0]).discarded = [panMessage] := by decide
  refine ⟨hacc, by decide, by decide, by decide, hdis, ?_⟩
  intro h
  exact h.none_discarded panMessage (by rw [hdis]; exact List.mem_singleton_self _) hacc

end FlowDiscovery.FlowIngest
