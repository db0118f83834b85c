import FlowDiscovery.ResolverWorker

/-!
# The queue of unresolved addresses

The label stage of the correlator looks an address up in Redis and pushes it to
`dns:unresolved` when no name is cached. The worker takes the addresses one by one, drops
those that have a name by then and looks up the others. Both can raise or be restarted
between any two calls, a reply can be lost, and keys expire with the clock of Redis.

The worker only ever looks up what the correlator could not label, in the order of the
requests, and never an address whose last name has not expired. Without failures it
answers every request, and each row of `dns_cache` has the name last found for its
address, however the address was spelled. Step by step, what happens to the keys of one
address is a run of the model of the worker.
-/
namespace FlowDiscovery.DnsQueue
open Machine
open ResolverWorker (Worker Phase Outcome)

/-- A value with the time at which it is gone. -/
structure Key (α : Type) where
  value : α
  expires : ℤ

def Key.live {α : Type} (now : ℤ) (key : Option (Key α)) : Option α :=
  (key.filter fun k => now < k.expires).map Key.value

/-- A cached name that the worker found, a miss, after which it looks the address up, and
a name that it stored for some time. -/
inductive Event where
  | known (ip : String) (time : ℤ)
  | lookup (ip : String) (time : ℤ)
  | store (ip name : String) (time ttl : ℤ)

def Event.time : Event → ℤ
  | .known _ time | .lookup _ time | .store _ _ time _ => time

/-- Where `_label_stage` is suspended for a destination that neither a manual application
nor a name from the firewall has labelled. -/
inductive Labeller where
  | idle
  | reading (r : AppResolver) (d : Destination)
  | pushing (r : AppResolver) (d : Destination)

/-- `rows` is the column `ptr` of `dns_cache`, whose key is an address and not a text. The
last five fields are histories: the destinations without a cached name, the addresses
pushed and taken, what the worker did, and the runs that wrote a name, with their
addresses. -/
structure State (Inet : Type*) where
  now : ℤ
  ptr : String → Option (Key String)
  saas : String → Option (Key ℤ)
  queue : List String
  label : Labeller
  hand : Option (String × Phase)
  rows : Inet → Option (Option String)
  missed : List (AppResolver × Destination)
  pushed : List String
  taken : List String
  log : List Event
  finished : List (String × Outcome)

/-- A suspended call of the worker returns or raises. `fail` is also the end of the
process. -/
inductive WorkerAction where
  | get
  | lookup (name : Option String)
  | setPtr (reply : Reply)
  | upsert (reply : Reply)
  | setSaas (reply : Reply)
  | fail

/-- The catalog of the label stage, and the settings and catalog of the worker, are those
in force at the action. -/
inductive Action where
  | tick (elapsed : ℕ)
  | flow (r : AppResolver) (d : Destination)
  | read
  | push (reply : Reply)
  | failLabel
  | take (w : Worker) (received : Bool)
  | work (a : WorkerAction)

variable {Inet : Type*}

def initial (now : ℤ) : State Inet where
  now := now
  ptr _ := none
  saas _ := none
  queue := []
  label := .idle
  hand := none
  rows _ := none
  missed := []
  pushed := []
  taken := []
  log := []
  finished := []

section

/- The address that the driver makes of a text, and `str.lower`. -/
variable (inet : String → Option Inet) (lower : String → String)

/-- Neither a manual application nor the name of the firewall labels the destination. -/
def Unnamed (r : AppResolver) (d : Destination) : Prop :=
  r.manualHit d.dstIp d.dstPort d.proto = none ∧ r.fqdnHit lower d.firewallFqdn = none

instance (r : AppResolver) (d : Destination) : Decidable (Unnamed lower r d) :=
  inferInstanceAs (Decidable (_ ∧ _))

/-- `resolve` up to its first call. -/
def flow (s : State Inet) (r : AppResolver) (d : Destination) : State Inet :=
  match s.label with
  | .idle => if Unnamed lower r d then { s with label := .reading r d } else s
  | _ => s

def read (s : State Inet) : State Inet :=
  match s.label with
  | .reading r d =>
    match Key.live s.now (s.ptr d.dstIp) with
    | none => { s with label := .pushing r d, missed := s.missed ++ [(r, d)] }
    | some _ => { s with label := .idle }
  | _ => s

/-- `RPUSH` ends. -/
def push (s : State Inet) (reply : Reply) : State Inet :=
  match s.label with
  | .pushing _ d =>
    match reply with
    | .refused => { s with label := .idle }
    | .stored | .lost =>
      { s with label := .idle, queue := s.queue ++ [d.dstIp], pushed := s.pushed ++ [d.dstIp] }
  | _ => s

/-- `BLPOP` ends. An address whose reply is lost is in no one's hand. -/
def take (s : State Inet) (w : Worker) (received : Bool) : State Inet :=
  match s.hand, s.queue with
  | none, ip :: rest =>
    { s with
      queue := rest
      taken := s.taken ++ [ip]
      hand := if received then some (ip, .checking w) else none }
  | _, _ => s

/-- A run that wrote the name ends. -/
def finish (s : State Inet) (ip : String) (w : Worker) (name : String) : State Inet :=
  { s with
    hand := none
    finished := s.finished ++ [(ip, ⟨w, name, Key.live s.now (s.saas ip)⟩)] }

/-- `SET dns:ptr:ip`. It raises unless the time to live is positive. -/
def setPtr (s : State Inet) (ip : String) (w : Worker) (name : String) (reply : Reply) :
    State Inet :=
  if reply = .refused ∨ w.ptrTtlS ≤ 0 then { s with hand := none }
  else
    let stored :=
      { s with
        ptr := Function.update s.ptr ip (some ⟨name, s.now + w.ptrTtlS⟩)
        log := s.log ++ [.store ip name s.now w.ptrTtlS] }
    if reply = .stored then { stored with hand := some (ip, .upserting w name) }
    else finish stored ip w name

/-- `process_one` after `pg_upsert`. -/
def labelName (s : State Inet) (ip : String) (w : Worker) (name : String) : State Inet :=
  if name = "" then finish s ip w name
  else
    match w.matchName lower name with
    | some row => { s with hand := some (ip, .labelling w name row) }
    | none => finish s ip w name

/-- `name or None`. -/
def column (name : String) : Option String := if name = "" then none else some name

section

variable [DecidableEq Inet]

/-- `pg_upsert(ip, name or None, "ptr")` ends. It raises for a text that is no address. -/
def upsert (s : State Inet) (ip : String) (w : Worker) (name : String) (reply : Reply) :
    State Inet :=
  match inet ip, reply with
  | none, _ | some _, .refused => finish s ip w name
  | some key, .stored =>
    labelName lower { s with rows := Function.update s.rows key (some (column name)) } ip w name
  | some key, .lost =>
    finish { s with rows := Function.update s.rows key (some (column name)) } ip w name

end

/-- `SET dns:saas:ip`. -/
def setSaas (s : State Inet) (ip : String) (w : Worker) (name : String) (row : SaasEntry)
    (reply : Reply) : State Inet :=
  if reply = .refused ∨ w.saasTtlS ≤ 0 then finish s ip w name
  else
    finish { s with saas := Function.update s.saas ip (some ⟨row.id, s.now + w.saasTtlS⟩) } ip w
      name

/-- The exception leaves `process_one`. -/
def fail (s : State Inet) (ip : String) : Phase → State Inet
  | .idle | .checking _ | .looking _ | .caching _ _ => { s with hand := none }
  | .upserting w name | .labelling w name _ => finish s ip w name

section

variable [DecidableEq Inet]

/-- The worker with an address in hand. -/
def work (s : State Inet) (ip : String) (phase : Phase) (a : WorkerAction) : State Inet :=
  match phase, a with
  | .checking w, .get =>
    if (Key.live s.now (s.ptr ip)).isSome then
      { s with hand := none, log := s.log ++ [.known ip s.now] }
    else { s with hand := some (ip, .looking w), log := s.log ++ [.lookup ip s.now] }
  | .looking w, .lookup name => { s with hand := some (ip, .caching w (name.getD "")) }
  | .caching w name, .setPtr reply => setPtr s ip w name reply
  | .upserting w name, .upsert reply => upsert inet lower s ip w name reply
  | .labelling w name row, .setSaas reply => setSaas s ip w name row reply
  | phase, .fail => fail s ip phase
  | _, _ => s

def step (s : State Inet) : Action → State Inet
  | .tick elapsed => { s with now := s.now + elapsed }
  | .flow r d => flow lower s r d
  | .read => read s
  | .push reply => push s reply
  | .failLabel => { s with label := .idle }
  | .take w received => take s w received
  | .work a =>
    match s.hand with
    | some (ip, phase) => work inet lower s ip phase a
    | none => s

end

/-! ## The properties -/

/-- The addresses that were looked up. -/
def lookups (log : List Event) : List String :=
  log.filterMap fun
    | .lookup ip _ => some ip
    | .known _ _ | .store _ _ _ _ => none

/-- The addresses for which there was a name in the end. -/
def answers (log : List Event) : List String :=
  log.filterMap fun
    | .known ip _ | .store ip _ _ _ => some ip
    | .lookup _ _ => none

/-- The names that were stored, with the texts of their addresses. -/
def stored (log : List Event) : List (String × String) :=
  log.filterMap fun
    | .store ip name _ _ => some (ip, name)
    | .known _ _ | .lookup _ _ => none

/-- The names that were stored for one address, under any of its texts. -/
def names {κ : Type*} [DecidableEq κ] (address : String → Option κ) (key : κ)
    (log : List Event) : List String :=
  (stored log).filterMap fun e => if address e.1 = some key then some e.2 else none

/-- After a name is stored, its address is looked up again only when its time is over. -/
def Spaced (first second : Event) : Prop :=
  ∀ ip name time ttl later,
    first = .store ip name time ttl → second = .lookup ip later → time + ttl ≤ later

/-- Requests are first in first out. Each was made for a destination that neither the
catalog nor the firewall names and of which no name was cached, each lookup for a request
of its own. Between two lookups of an address whose name was stored after the first lies
the time that the name was stored for. -/
structure Disciplined (s : State Inet) : Prop where
  fifo : s.pushed = s.taken ++ s.queue
  requested : s.pushed.Sublist (s.missed.map fun m => m.2.dstIp)
  unnamed : ∀ m ∈ s.missed, Unnamed lower m.1 m.2
  lookups : (lookups s.log).Sublist s.taken
  inTime : s.log.Pairwise fun first second => first.time ≤ second.time
  spaced : s.log.Pairwise Spaced
  apart : ∀ ip name first time ttl second,
    [.lookup ip first, .store ip name time ttl, .lookup ip second].Sublist s.log →
      first + ttl ≤ second

/-- The address of a run that has not stored a name yet. -/
def early : Option (String × Phase) → List String
  | some (ip, .checking _) | some (ip, .looking _) | some (ip, .caching _ _) => [ip]
  | _ => []

/-- The row that a run is about to write. -/
def upserting : Option (String × Phase) → Option (String × String)
  | some (ip, .upserting _ name) => some (ip, name)
  | _ => none

def pushing : Labeller → List String
  | .pushing _ d => [d.dstIp]
  | .idle | .reading _ _ => []

/-- The run that found the last name of an address is just about to write it. -/
def Pending [DecidableEq Inet] (s : State Inet) (key : Inet) : Prop :=
  ∃ ip name, upserting s.hand = some (ip, name) ∧ inet ip = some key ∧
    (names inet key s.log).getLast? = some name

/-- In the order of the misses: answered, in hand, in the queue, about to be pushed. The
row of an address has the name last stored under any of its texts, unless the name is
just about to be written. A cached name is the last one of its text. -/
structure Answered [DecidableEq Inet] (s : State Inet) : Prop where
  inOrder : s.missed.map (fun m => m.2.dstIp) =
    answers s.log ++ early s.hand ++ s.queue ++ pushing s.label
  rows : ∀ key, s.rows key = (names inet key s.log).getLast?.map column ∨ Pending inet s key
  cached : ∀ ip k, s.ptr ip = some k → (names some ip s.log).getLast? = some k.value

/-- Every call returns, but that of a row for a text that is no address, and a name may be
stored for some time. -/
def Undisturbed : Action → Prop
  | .push reply | .work (.setPtr reply) | .work (.upsert reply) | .work (.setSaas reply) =>
    reply = .stored
  | .failLabel | .work .fail => False
  | .take w received => received = true ∧ 0 < w.ptrTtlS
  | _ => True

/-- The keys of one address and the run for it. -/
def project (s : State Inet) (ip : String) : ResolverWorker.State where
  ptr := Key.live s.now (s.ptr ip)
  saas := Key.live s.now (s.saas ip)
  phase := match s.hand with
    | some (held, phase) => if held = ip then phase else .idle
    | none => .idle
  finished := entriesOf ip s.finished

/-! ## What the worker does -/

/-- The address that a run is about to store a name for. -/
def storing : Option (String × Phase) → Option String
  | some (ip, .looking _) | some (ip, .caching _ _) => some ip
  | _ => none

/-- The address that a run has not checked yet. -/
def unchecked : Option (String × Phase) → List String
  | some (ip, .checking _) => [ip]
  | _ => []

section

variable {s : State Inet} {ip : String}

@[simp] lemma early_none : early none = [] := rfl
@[simp] lemma storing_none : storing none = none := rfl
@[simp] lemma unchecked_none : unchecked none = [] := rfl

lemma Key.live_eq_none {α : Type} {now : ℤ} {key : Option (Key α)} :
    Key.live now key = none ↔ ∀ k ∈ key, k.expires ≤ now := by
  cases key <;> simp [Key.live, Option.filter]

lemma storing_of_early {hand : Option (String × Phase)} (h : early hand = []) :
    storing hand = none := by
  unfold early at h
  unfold storing
  split at h <;> simp_all

lemma unchecked_of_early {hand : Option (String × Phase)} (h : early hand = []) :
    unchecked hand = [] := by
  unfold early at h
  unfold unchecked
  split at h <;> simp_all

/-- What a run does after it has stored its name, and where any run ends. -/
def Late (s t : State Inet) : Prop :=
  ∃ saas hand rows finished, early hand = [] ∧ upserting hand = none ∧
    t = { s with saas := saas, hand := hand, rows := rows, finished := finished }

lemma late_finish (w : Worker) (name : String) : Late s (finish s ip w name) :=
  ⟨_, none, _, _, rfl, rfl, rfl⟩

lemma late_labelName (s : State Inet) (ip : String) (w : Worker) (name : String) :
    Late s (labelName lower s ip w name) := by
  unfold labelName
  split_ifs
  · exact late_finish w name
  · split
    · next row hrow => exact ⟨_, some (ip, .labelling w name row), _, _, rfl, rfl, rfl⟩
    · exact late_finish w name

lemma labelName_rows (s : State Inet) (ip : String) (w : Worker) (name : String) :
    (labelName lower s ip w name).rows = s.rows := by
  unfold labelName
  split_ifs
  · rfl
  · split <;> rfl

/-- The row is written or not. -/
lemma late_upsert [DecidableEq Inet] (s : State Inet) (ip : String) (w : Worker) (name : String)
    (reply : Reply) : Late s (upsert inet lower s ip w name reply) := by
  unfold upsert
  split
  · exact late_finish w name
  · exact late_finish w name
  · next key _ =>
    obtain ⟨saas, hand, rows, finished, hearly, hrow, heq⟩ := late_labelName lower
      { s with rows := Function.update s.rows key (some (column name)) } ip w name
    exact ⟨saas, hand, rows, finished, hearly, hrow, heq⟩
  · exact ⟨_, none, _, _, rfl, rfl, rfl⟩

lemma late_setSaas (s : State Inet) (ip : String) (w : Worker) (name : String) (row : SaasEntry)
    (reply : Reply) : Late s (setSaas s ip w name row reply) := by
  unfold setSaas
  split_ifs
  · exact late_finish w name
  · exact ⟨_, none, _, _, rfl, rfl, rfl⟩

lemma late_fail (s : State Inet) (ip : String) (phase : Phase) : Late s (fail s ip phase) := by
  cases phase with
  | upserting w name => exact late_finish w name
  | labelling w name row => exact late_finish w name
  | _ => exact ⟨_, none, _, _, rfl, rfl, rfl⟩

/-- A name is stored for some time. -/
def Stores (s : State Inet) (ip : String) (t : State Inet) : Prop :=
  ∃ name ttl hand finished, early hand = [] ∧
    t = { s with
      ptr := Function.update s.ptr ip (some ⟨name, s.now + ttl⟩)
      log := s.log ++ [.store ip name s.now ttl]
      hand := hand
      finished := finished }

lemma setPtr_cases (s : State Inet) (ip : String) (w : Worker) (name : String) (reply : Reply) :
    Late s (setPtr s ip w name reply) ∨ Stores s ip (setPtr s ip w name reply) := by
  unfold setPtr
  split_ifs
  · exact .inl ⟨_, none, _, _, rfl, rfl, rfl⟩
  · exact .inr ⟨name, _, some (ip, .upserting w name), _, rfl, rfl⟩
  · exact .inr ⟨name, _, none, _, rfl, rfl⟩

/-- What the worker can do next. -/
theorem work_cases [DecidableEq Inet] (s : State Inet) (ip : String) (phase : Phase)
    (a : WorkerAction) :
    work inet lower s ip phase a = s ∨ Late s (work inet lower s ip phase a) ∨
    (∃ w, phase = .checking w ∧
      work inet lower s ip phase a = { s with hand := none, log := s.log ++ [.known ip s.now] }) ∨
    (∃ w, phase = .checking w ∧ Key.live s.now (s.ptr ip) = none ∧
      work inet lower s ip phase a =
        { s with hand := some (ip, .looking w), log := s.log ++ [.lookup ip s.now] }) ∨
    (∃ w name, phase = .looking w ∧
      work inet lower s ip phase a = { s with hand := some (ip, .caching w name) }) ∨
    ∃ w name, phase = .caching w name ∧ Stores s ip (work inet lower s ip phase a) := by
  fun_cases work inet lower s ip phase a with
  | case1 w hlive => exact .inr (.inr (.inl ⟨w, rfl, rfl⟩))
  | case2 w hlive =>
    exact .inr (.inr (.inr (.inl ⟨w, rfl, Option.not_isSome_iff_eq_none.mp hlive, rfl⟩)))
  | case3 w name => exact .inr (.inr (.inr (.inr (.inl ⟨w, _, rfl, rfl⟩))))
  | case4 w name reply =>
    rcases setPtr_cases s ip w name reply with hlate | hstores
    · exact .inr (.inl hlate)
    · exact .inr (.inr (.inr (.inr (.inr ⟨w, name, rfl, hstores⟩))))
  | case5 w name reply => exact .inr (.inl (late_upsert inet lower s ip w name reply))
  | case6 w name row reply => exact .inr (.inl (late_setSaas s ip w name row reply))
  | case7 phase => exact .inr (.inl (late_fail s ip phase))
  | case8 => exact .inl rfl

/-- The worker, its keys and the clock are as they were. -/
structure Untouched (s t : State Inet) : Prop where
  now : t.now = s.now
  ptr : t.ptr = s.ptr
  saas : t.saas = s.saas
  hand : t.hand = s.hand
  taken : t.taken = s.taken
  log : t.log = s.log
  finished : t.finished = s.finished

lemma Untouched.refl (s : State Inet) : Untouched s s := ⟨rfl, rfl, rfl, rfl, rfl, rfl, rfl⟩

/-- The label stage leaves the worker alone. -/
theorem step_cases [DecidableEq Inet] (s : State Inet) (a : Action) :
    (∃ elapsed, a = .tick elapsed) ∨ (∃ w received, a = .take w received) ∨
      (∃ b, a = .work b) ∨ Untouched s (step inet lower s a) := by
  cases a with
  | tick elapsed => exact .inl ⟨elapsed, rfl⟩
  | take w received => exact .inr (.inl ⟨w, received, rfl⟩)
  | work b => exact .inr (.inr (.inl ⟨b, rfl⟩))
  | flow r d =>
    refine .inr (.inr (.inr ?_))
    simp only [step, flow]
    split
    · split_ifs <;> exact ⟨rfl, rfl, rfl, rfl, rfl, rfl, rfl⟩
    · exact .refl s
  | read =>
    refine .inr (.inr (.inr ?_))
    simp only [step, read]
    split
    · split <;> exact ⟨rfl, rfl, rfl, rfl, rfl, rfl, rfl⟩
    · exact .refl s
  | push reply =>
    refine .inr (.inr (.inr ?_))
    simp only [step, push]
    split
    · cases reply <;> exact ⟨rfl, rfl, rfl, rfl, rfl, rfl, rfl⟩
    · exact .refl s
  | failLabel => exact .inr (.inr (.inr ⟨rfl, rfl, rfl, rfl, rfl, rfl, rfl⟩))

/-- An action may let time pass, and what it records happens at the time. -/
theorem step_log [DecidableEq Inet] (s : State Inet) (a : Action) :
    s.now ≤ (step inet lower s a).now ∧
      ((step inet lower s a).log = s.log ∨
        ∃ e : Event, e.time = s.now ∧ (step inet lower s a).log = s.log ++ [e]) := by
  obtain ⟨elapsed, rfl⟩ | ⟨w, received, rfl⟩ | ⟨a, rfl⟩ | hsame := step_cases inet lower s a
  · exact ⟨Int.le_add_of_nonneg_right (by simp), .inl rfl⟩
  · simp only [step, take]
    split <;> exact ⟨le_rfl, .inl rfl⟩
  · simp only [step]
    split
    · next ip phase hhand =>
      obtain heq | ⟨_, _, _, _, _, _, heq⟩ | ⟨_, _, heq⟩ | ⟨_, _, _, heq⟩ | ⟨_, _, _, heq⟩ |
        ⟨_, _, _, _, _, _, _, _, heq⟩ := work_cases inet lower s ip phase a
      · exact ⟨by rw [heq], .inl (by rw [heq])⟩
      · exact ⟨by rw [heq], .inl (by rw [heq])⟩
      · exact ⟨by rw [heq], .inr ⟨.known ip s.now, rfl, by rw [heq]⟩⟩
      · exact ⟨by rw [heq], .inr ⟨.lookup ip s.now, rfl, by rw [heq]⟩⟩
      · exact ⟨by rw [heq], .inl (by rw [heq])⟩
      · exact ⟨by rw [heq], .inr ⟨.store ip _ s.now _, rfl, by rw [heq]⟩⟩
    · exact ⟨le_rfl, .inl rfl⟩
  · exact ⟨hsame.now.ge, .inl hsame.log⟩

/-! ## Requests and keys in any run -/

/-- The destination in the hands of the label stage. -/
def inLabel : Labeller → Option (AppResolver × Destination)
  | .idle => none
  | .reading r d | .pushing r d => some (r, d)

structure Requested (s : State Inet) : Prop where
  fifo : s.pushed = s.taken ++ s.queue
  onTheWay : (s.pushed ++ pushing s.label).Sublist (s.missed.map fun m => m.2.dstIp)
  unnamed : ∀ m ∈ s.missed, Unnamed lower m.1 m.2
  labelled : ∀ m ∈ inLabel s.label, Unnamed lower m.1 m.2

/-- A stored name expires no earlier than it said, and the run that is about to store the
next one has seen that it is gone. -/
structure Spacing (s : State Inet) : Prop where
  lookups : (lookups s.log ++ unchecked s.hand).Sublist s.taken
  kept : ∀ ip name time ttl, Event.store ip name time ttl ∈ s.log →
    time + ttl ≤ s.now ∨ ∃ k ∈ s.ptr ip, time + ttl ≤ k.expires
  gone : ∀ ip ∈ storing s.hand, ∀ name time ttl, Event.store ip name time ttl ∈ s.log →
    time + ttl ≤ s.now
  spaced : s.log.Pairwise Spaced

/-- Nothing is recorded ahead of time. -/
structure Timed (s : State Inet) : Prop where
  past : ∀ e ∈ s.log, e.time ≤ s.now
  inTime : s.log.Pairwise fun first second => first.time ≤ second.time

variable {inet lower}

lemma Requested.idle (h : Requested lower s) : Requested lower { s with label := .idle } where
  fifo := h.fifo
  onTheWay := by simpa [pushing] using (List.sublist_append_left _ _).trans h.onTheWay
  unnamed := h.unnamed
  labelled := by simp [inLabel]

lemma Requested.flow (h : Requested lower s) (r : AppResolver) (d : Destination) :
    Requested lower (flow lower s r d) := by
  unfold DnsQueue.flow
  split
  · next hlabel =>
    split_ifs with hunnamed
    · refine ⟨h.fifo, ?_, h.unnamed, ?_⟩
      · simpa [pushing, hlabel] using h.onTheWay
      · simpa [inLabel] using hunnamed
    · exact h
  · exact h

lemma Requested.read (h : Requested lower s) : Requested lower (read s) := by
  unfold DnsQueue.read
  split
  · next r d hlabel =>
    have hunnamed : Unnamed lower r d := h.labelled (r, d) (by simp [inLabel, hlabel])
    split
    · refine ⟨h.fifo, ?_, ?_, ?_⟩
      · simpa [pushing, hlabel] using h.onTheWay
      · exact List.forall_mem_append.mpr ⟨h.unnamed, by simpa using hunnamed⟩
      · simpa [inLabel] using hunnamed
    · exact h.idle
  · exact h

lemma Requested.push (h : Requested lower s) (reply : Reply) : Requested lower (push s reply) := by
  unfold DnsQueue.push
  split
  · next r d hlabel =>
    have hpushed : Requested lower { s with
        label := .idle, queue := s.queue ++ [d.dstIp], pushed := s.pushed ++ [d.dstIp] } := by
      refine ⟨?_, ?_, h.unnamed, by simp [inLabel]⟩
      · simp [h.fifo]
      · simpa [pushing, hlabel] using h.onTheWay
    cases reply with
    | stored => exact hpushed
    | lost => exact hpushed
    | refused => exact h.idle
  · exact h

lemma Requested.take (h : Requested lower s) (w : Worker) (received : Bool) :
    Requested lower (take s w received) := by
  unfold DnsQueue.take
  split
  · next ip rest hhand hqueue =>
    refine ⟨?_, h.onTheWay, h.unnamed, h.labelled⟩
    simp [h.fifo, hqueue]
  · exact h

lemma Spacing.late (h : Spacing s) {t : State Inet} (hlate : Late s t) : Spacing t := by
  obtain ⟨saas, hand, rows, finished, hearly, _, rfl⟩ := hlate
  refine ⟨?_, h.kept, ?_, h.spaced⟩
  · simpa [unchecked_of_early hearly] using (List.sublist_append_left _ _).trans h.lookups
  · simp [storing_of_early hearly]

/-- A lookup starts when no stored name is left. -/
lemma Spacing.miss (h : Spacing s) {w : Worker} (hhand : s.hand = some (ip, .checking w))
    (hlive : Key.live s.now (s.ptr ip) = none) :
    Spacing { s with hand := some (ip, .looking w), log := s.log ++ [.lookup ip s.now] } := by
  have hgone : ∀ name time ttl, Event.store ip name time ttl ∈ s.log → time + ttl ≤ s.now := by
    intro name time ttl hstore
    rcases h.kept ip name time ttl hstore with hle | ⟨k, hk, hle⟩
    · exact hle
    · exact hle.trans (Key.live_eq_none.mp hlive k hk)
  refine ⟨?_, fun ip' name time ttl hstore => ?_, ?_, ?_⟩
  · simpa [DnsQueue.lookups, unchecked, hhand] using h.lookups
  · exact h.kept ip' name time ttl (by simpa using hstore)
  · intro ip' hip name time ttl hstore
    obtain rfl : ip = ip' := by simpa [storing] using hip
    exact hgone name time ttl (by simpa using hstore)
  · refine List.pairwise_append.mpr ⟨h.spaced, List.pairwise_singleton _ _, ?_⟩
    rintro a ha b hb ip' name time ttl later rfl hlookup
    obtain ⟨rfl, rfl⟩ := Event.lookup.inj ((List.mem_singleton.mp hb).symm.trans hlookup)
    exact hgone name time ttl ha

lemma Spacing.stores (h : Spacing s) {w : Worker} {name : String}
    (hhand : s.hand = some (ip, .caching w name)) {t : State Inet} (ht : Stores s ip t) :
    Spacing t := by
  obtain ⟨value, ttl, hand, finished, hearly, rfl⟩ := ht
  refine ⟨?_, fun ip' name' time ttl' hstore => ?_, by simp [storing_of_early hearly], ?_⟩
  · rw [unchecked_of_early hearly]
    simpa [DnsQueue.lookups, unchecked, hhand] using h.lookups
  · simp only [List.mem_append, List.mem_singleton, Event.store.injEq] at hstore
    by_cases hip : ip' = ip
    · subst hip
      rcases hstore with hold | ⟨_, rfl, rfl, rfl⟩
      · -- the key that is written over has expired
        exact .inl (h.gone ip' (by simp [storing, hhand]) name' time ttl' hold)
      · exact .inr ⟨⟨name', s.now + ttl'⟩, by simp, le_rfl⟩
    · simpa [hip] using h.kept ip' name' time ttl' (hstore.resolve_right fun heq => hip heq.1)
  · refine List.pairwise_append.mpr ⟨h.spaced, List.pairwise_singleton _ _, ?_⟩
    rintro a _ b hb ip' name' time ttl' later _ rfl
    cases List.mem_singleton.mp hb

lemma Spacing.work [DecidableEq Inet] (h : Spacing s) {phase : Phase}
    (hhand : s.hand = some (ip, phase)) (a : WorkerAction) :
    Spacing (work inet lower s ip phase a) := by
  obtain heq | hlate | ⟨w, rfl, heq⟩ | ⟨w, rfl, hlive, heq⟩ | ⟨w, name, rfl, heq⟩ |
    ⟨w, name, rfl, hstores⟩ := work_cases inet lower s ip phase a
  · rw [heq]
    exact h
  · exact h.late hlate
  · rw [heq]
    refine ⟨?_, fun ip' name time ttl hstore => ?_, by simp, ?_⟩
    · simpa [DnsQueue.lookups, hhand] using (List.sublist_append_left _ _).trans h.lookups
    · exact h.kept ip' name time ttl (by simpa using hstore)
    · refine List.pairwise_append.mpr ⟨h.spaced, List.pairwise_singleton _ _, ?_⟩
      rintro a _ b hb ip' name time ttl later _ rfl
      cases List.mem_singleton.mp hb
  · exact heq ▸ h.miss hhand hlive
  · rw [heq]
    refine ⟨?_, h.kept, ?_, h.spaced⟩
    · simpa [unchecked, hhand] using h.lookups
    · simpa [storing, hhand] using h.gone
  · exact h.stores hhand hstores

lemma Spacing.take (h : Spacing s) (w : Worker) (received : Bool) :
    Spacing (take s w received) := by
  unfold DnsQueue.take
  split
  · next ip rest hhand hqueue =>
    have hlookups : (DnsQueue.lookups s.log).Sublist s.taken := by
      simpa [hhand] using h.lookups
    cases received with
    | true =>
      refine ⟨hlookups.append_right _, h.kept, by simp [storing], h.spaced⟩
    | false =>
      refine ⟨?_, h.kept, by simp, h.spaced⟩
      simpa using hlookups.trans (List.sublist_append_left _ _)
  · exact h

lemma Spacing.tick (h : Spacing s) (elapsed : ℕ) : Spacing { s with now := s.now + elapsed } where
  lookups := h.lookups
  kept ip name time ttl hstore :=
    (h.kept ip name time ttl hstore).imp_left fun hle => hle.trans (by simp)
  gone ip hip name time ttl hstore := (h.gone ip hip name time ttl hstore).trans (by simp)
  spaced := h.spaced

lemma Spacing.of_untouched (h : Spacing s) {t : State Inet} (hsame : Untouched s t) :
    Spacing t := by
  obtain ⟨hnow, hptr, -, hhand, htaken, hlog, -⟩ := hsame
  refine ⟨?_, ?_, ?_, hlog ▸ h.spaced⟩
  · rw [hlog, hhand, htaken]
    exact h.lookups
  · rw [hptr, hlog, hnow]
    exact h.kept
  · rw [hhand, hlog, hnow]
    exact h.gone

theorem Spacing.step [DecidableEq Inet] (h : Spacing s) (a : Action) :
    Spacing (step inet lower s a) := by
  obtain ⟨elapsed, rfl⟩ | ⟨w, received, rfl⟩ | ⟨a, rfl⟩ | hsame := step_cases inet lower s a
  · exact h.tick elapsed
  · exact h.take w received
  · simp only [DnsQueue.step]
    split
    · next ip phase hhand => exact h.work hhand a
    · exact h
  · exact h.of_untouched hsame

/-- The worker leaves the requests alone. -/
lemma Requested.of_frame (h : Requested lower s) {t : State Inet} (hqueue : t.queue = s.queue)
    (hlabel : t.label = s.label) (hmissed : t.missed = s.missed) (hpushed : t.pushed = s.pushed)
    (htaken : t.taken = s.taken) : Requested lower t where
  fifo := by rw [hpushed, htaken, hqueue, h.fifo]
  onTheWay := by
    rw [hpushed, hlabel, hmissed]
    exact h.onTheWay
  unnamed := hmissed ▸ h.unnamed
  labelled := hlabel ▸ h.labelled

theorem Requested.step [DecidableEq Inet] (h : Requested lower s) (a : Action) :
    Requested lower (step inet lower s a) := by
  cases a with
  | tick elapsed => exact h.of_frame rfl rfl rfl rfl rfl
  | flow r d => exact h.flow r d
  | read => exact h.read
  | push reply => exact h.push reply
  | failLabel => exact h.idle
  | take w received => exact h.take w received
  | work a =>
    simp only [DnsQueue.step]
    split
    · next ip phase hhand =>
      obtain heq | ⟨_, _, _, _, _, _, heq⟩ | ⟨_, _, heq⟩ | ⟨_, _, _, heq⟩ | ⟨_, _, _, heq⟩ |
        ⟨_, _, _, _, _, _, _, _, heq⟩ := work_cases inet lower s ip phase a
      all_goals
        rw [heq]
        exact h.of_frame rfl rfl rfl rfl rfl
    · exact h

theorem Timed.step [DecidableEq Inet] (h : Timed s) (a : Action) :
    Timed (step inet lower s a) := by
  obtain ⟨hnow, hlog | ⟨e, htime, hlog⟩⟩ := step_log inet lower s a
  · refine ⟨?_, ?_⟩
    · rw [hlog]
      exact fun e he => (h.past e he).trans hnow
    · rw [hlog]
      exact h.inTime
  · refine ⟨?_, ?_⟩
    · rw [hlog]
      refine List.forall_mem_append.mpr ⟨fun e he => (h.past e he).trans hnow, ?_⟩
      simpa [htime] using hnow
    · rw [hlog]
      refine List.pairwise_append.mpr ⟨h.inTime, List.pairwise_singleton _ _, ?_⟩
      intro first hfirst second hsecond
      rw [List.mem_singleton.mp hsecond, htime]
      exact h.past first hfirst

/-- The first of two lookups is over when the name is stored. -/
lemma apart_of_spaced {log : List Event}
    (htime : log.Pairwise fun first second => first.time ≤ second.time)
    (hspaced : log.Pairwise Spaced) {ip name : String} {first time ttl second : ℤ}
    (h : [.lookup ip first, .store ip name time ttl, .lookup ip second].Sublist log) :
    first + ttl ≤ second := by
  have htimes := htime.sublist h
  have hspaces := hspaced.sublist h
  have hfirst : first ≤ time := List.rel_of_pairwise_cons htimes (.head _)
  have hsecond : time + ttl ≤ second :=
    List.rel_of_pairwise_cons hspaces.of_cons (.head _) ip name time ttl second rfl rfl
  omega

end

section

variable [DecidableEq Inet]

/-- For every order of the calls of both processes, their failures and restarts, lost
replies and expiring keys. -/
theorem lookups_disciplined (now : ℤ) (schedule : List Action) :
    Disciplined lower (run (step inet lower) (initial now) schedule) := by
  have hrequested : Requested lower (run (step inet lower) (initial now) schedule) :=
    run_invariant (I := Requested lower) (fun _ a h => h.step a)
      ⟨rfl, List.Sublist.refl _, by simp [initial], by simp [initial, inLabel]⟩ schedule
  have hspacing : Spacing (run (step inet lower) (initial now) schedule) :=
    run_invariant (fun _ a h => h.step a)
      ⟨List.Sublist.refl _, by simp [initial], by simp [initial], List.Pairwise.nil⟩ schedule
  have htimed : Timed (run (step inet lower) (initial now) schedule) :=
    run_invariant (fun _ a h => h.step a) ⟨by simp [initial], List.Pairwise.nil⟩ schedule
  exact {
    fifo := hrequested.fifo
    requested := (List.sublist_append_left _ _).trans hrequested.onTheWay
    unnamed := hrequested.unnamed
    lookups := (List.sublist_append_left _ _).trans hspacing.lookups
    inTime := htimed.inTime
    spaced := hspacing.spaced
    apart := fun _ _ _ _ _ _ h => apart_of_spaced htimed.inTime hspacing.spaced h }

end

/-! ## Runs without failures -/

/-- A run that is to store a name may do so for some time. -/
def Storable : Option (String × Phase) → Prop
  | some (_, .checking w) | some (_, .looking w) | some (_, .caching w _) => 0 < w.ptrTtlS
  | _ => True

/-- The name about to be written is the last one of its address. -/
structure Complete [DecidableEq Inet] (s : State Inet) : Prop extends Answered inet s where
  written : ∀ ip name key, upserting s.hand = some (ip, name) → inet ip = some key →
    (names inet key s.log).getLast? = some name
  storable : Storable s.hand

section

variable {κ : Type*} [DecidableEq κ] {address : String → Option κ} {key : κ} {log : List Event}

@[simp] lemma names_nil : names address key [] = [] := rfl

@[simp] lemma names_append (log log' : List Event) :
    names address key (log ++ log') = names address key log ++ names address key log' := by
  simp [names, stored]

lemma names_store (ip name : String) (time ttl : ℤ) :
    names address key [.store ip name time ttl] =
      if address ip = some key then [name] else [] := by
  by_cases h : address ip = some key <;> simp [names, stored, h]

lemma names_congr {log' : List Event} (h : stored log' = stored log) :
    names address key log' = names address key log := by
  rw [names, names, h]

/-- The name stored last is the last one of its own address. -/
lemma getLast_names_store (ip name : String) (time ttl : ℤ) :
    (names address key (log ++ [.store ip name time ttl])).getLast? =
      if address ip = some key then some name else (names address key log).getLast? := by
  by_cases h : address ip = some key <;> simp [names_store, h]

end

section

variable [DecidableEq Inet] {inet lower} {s : State Inet} {ip : String}

@[simp] lemma upserting_none : upserting none = none := rfl

lemma storable_of_early {hand : Option (String × Phase)} (h : early hand = []) : Storable hand := by
  unfold early at h
  unfold Storable
  split at h <;> simp_all

/-- The row of an address is up to date when no run is about to write one. -/
lemma Complete.row (h : Complete inet s) (hrun : upserting s.hand = none) (key : Inet) :
    s.rows key = (names inet key s.log).getLast?.map column := by
  rcases h.rows key with hrow | ⟨ip, name, hname, _⟩
  · exact hrow
  · rw [hrun] at hname
    cases hname

/-- The label stage and the clock leave the rows alone. -/
lemma Complete.of_frame (h : Complete inet s) {t : State Inet}
    (horder : t.missed.map (fun m => m.2.dstIp) =
      answers t.log ++ early t.hand ++ t.queue ++ pushing t.label)
    (hptr : t.ptr = s.ptr) (hhand : t.hand = s.hand) (hrows : t.rows = s.rows)
    (hlog : t.log = s.log) : Complete inet t where
  inOrder := horder
  rows key := by
    rw [hrows, Pending, hhand, hlog]
    exact h.rows key
  cached := by
    rw [hptr, hlog]
    exact h.cached
  written := by
    rw [hhand, hlog]
    exact h.written
  storable := hhand ▸ h.storable

lemma Complete.flow (h : Complete inet s) (r : AppResolver) (d : Destination) :
    Complete inet (flow lower s r d) := by
  unfold DnsQueue.flow
  split
  · next hlabel =>
    split_ifs
    · refine h.of_frame ?_ rfl rfl rfl rfl
      simpa [pushing, hlabel] using h.inOrder
    · exact h
  · exact h

lemma Complete.read (h : Complete inet s) : Complete inet (read s) := by
  unfold DnsQueue.read
  split
  · next r d hlabel =>
    have horder := h.inOrder
    rw [hlabel, pushing, List.append_nil] at horder
    split
    · refine h.of_frame ?_ rfl rfl rfl rfl
      simp [pushing, horder]
    · refine h.of_frame ?_ rfl rfl rfl rfl
      simp [pushing, horder]
  · exact h

lemma Complete.push (h : Complete inet s) : Complete inet (push s .stored) := by
  unfold DnsQueue.push
  split
  · next r d hlabel =>
    refine h.of_frame ?_ rfl rfl rfl rfl
    have horder := h.inOrder
    simpa [pushing, hlabel] using horder
  · exact h

lemma Complete.take (h : Complete inet s) {w : Worker} (httl : 0 < w.ptrTtlS) :
    Complete inet (take s w true) := by
  unfold DnsQueue.take
  split
  · next ip rest hhand hqueue =>
    have horder := h.inOrder
    rw [hhand] at horder
    refine ⟨⟨?_, fun key => .inl (h.row (by rw [hhand]; rfl) key), h.cached⟩, nofun, httl⟩
    simpa [early, hqueue] using horder
  · exact h

/-- A run goes on, or ends, without writing a name or a row. -/
lemma Complete.proceed (h : Complete inet s) {hand : Option (String × Phase)} {log : List Event}
    {saas : String → Option (Key ℤ)} {finished : List (String × Outcome)}
    (hanswers : answers log ++ early hand = answers s.log ++ early s.hand)
    (hstored : stored log = stored s.log) (hbefore : upserting s.hand = none)
    (hafter : upserting hand = none) (hstorable : Storable hand) :
    Complete inet { s with hand, log, saas, finished } := by
  refine ⟨⟨?_, fun key => .inl ?_, fun ip k hk => ?_⟩, by simp [hafter], hstorable⟩
  · rw [h.inOrder, hanswers]
  · rw [names_congr hstored]
    exact h.row hbefore key
  · rw [names_congr hstored]
    exact h.cached ip k hk

lemma Complete.setPtr (h : Complete inet s) {w : Worker} {name : String}
    (hhand : s.hand = some (ip, .caching w name)) :
    Complete inet (setPtr s ip w name .stored) := by
  have httl : 0 < w.ptrTtlS := by simpa [Storable, hhand] using h.storable
  have horder := h.inOrder
  have hrow := h.row (by rw [hhand]; rfl)
  rw [hhand] at horder
  rw [DnsQueue.setPtr, if_neg (by simp [httl]), if_pos rfl]
  refine ⟨⟨?_, fun key => ?_, fun ip' k hk => ?_⟩, fun ip' name' key hname hkey => ?_, trivial⟩
  · simpa [answers, early] using horder
  · by_cases hkey : inet ip = some key
    · refine .inr ⟨ip, name, rfl, hkey, ?_⟩
      rw [getLast_names_store, if_pos hkey]
    · left
      rw [getLast_names_store, if_neg hkey]
      exact hrow key
  · rw [getLast_names_store]
    by_cases hip : ip' = ip
    · subst hip
      obtain rfl : _ = k := by simpa using hk
      rw [if_pos rfl]
    · rw [if_neg fun heq => hip (Option.some.inj heq).symm]
      exact h.cached ip' k (by simpa [hip] using hk)
  · obtain ⟨rfl, rfl⟩ : ip = ip' ∧ name = name' := by simpa [upserting] using hname
    rw [getLast_names_store, if_pos hkey]

/-- The row is that of the name just stored. A text that is no address has none. -/
lemma Complete.upsert (h : Complete inet s) {w : Worker} {name : String}
    (hhand : s.hand = some (ip, .upserting w name)) :
    Complete inet (upsert inet lower s ip w name .stored) := by
  have horder := h.inOrder
  have hrows := h.rows
  have hwritten := fun key => h.written ip name key (by rw [hhand]; rfl)
  rw [hhand] at horder
  -- the rows of the other addresses are those of before
  have hold : ∀ key, inet ip ≠ some key →
      s.rows key = (names inet key s.log).getLast?.map column := by
    intro key hkey
    refine (hrows key).resolve_right ?_
    rintro ⟨ip', name', hname, hinet, _⟩
    rw [hhand] at hname
    obtain ⟨rfl, rfl⟩ : ip = ip' ∧ name = name' := by simpa [upserting] using hname
    exact hkey hinet
  cases hinet : inet ip with
  | none =>
    simp only [DnsQueue.upsert, hinet]
    refine ⟨⟨?_, fun key => .inl (hold key (by simp [hinet])), h.cached⟩, nofun, trivial⟩
    simpa [finish, early] using horder
  | some key =>
    simp only [DnsQueue.upsert, hinet]
    obtain ⟨saas, hand, rows, finished, hearly, hrow, heq⟩ := late_labelName lower
      { s with rows := Function.update s.rows key (some (column name)) } ip w name
    obtain rfl : rows = Function.update s.rows key (some (column name)) := by
      have hsame := labelName_rows lower
        { s with rows := Function.update s.rows key (some (column name)) } ip w name
      rwa [heq] at hsame
    rw [heq]
    refine ⟨⟨?_, fun key' => .inl ?_, h.cached⟩, by simp [hrow], storable_of_early hearly⟩
    · rw [hearly]
      simpa [early] using horder
    · by_cases hkey : key' = key
      · subst hkey
        simp [hwritten key' hinet]
      · have hother := hold key' fun hsome => hkey (Option.some.inj (hsome.symm.trans hinet))
        exact (Function.update_of_ne hkey _ _).trans hother

lemma Complete.work (h : Complete inet s) {phase : Phase} (hhand : s.hand = some (ip, phase))
    {a : WorkerAction} (ha : Undisturbed (.work a)) :
    Complete inet (work inet lower s ip phase a) := by
  have hstorable := h.storable
  rw [hhand] at hstorable
  fun_cases DnsQueue.work inet lower s ip phase a with
  | case1 w hlive =>
    exact h.proceed (by simp [answers, hhand, early]) (by simp [stored]) (by rw [hhand]; rfl) rfl
      trivial
  | case2 w hlive =>
    exact h.proceed (by simp [answers, hhand, early]) (by simp [stored]) (by rw [hhand]; rfl) rfl
      hstorable
  | case3 w name =>
    exact h.proceed (by simp [hhand, early]) rfl (by rw [hhand]; rfl) rfl hstorable
  | case4 w name reply =>
    obtain rfl : reply = .stored := ha
    exact h.setPtr hhand
  | case5 w name reply =>
    obtain rfl : reply = .stored := ha
    exact h.upsert hhand
  | case6 w name row reply =>
    obtain rfl : reply = .stored := ha
    have horder : answers s.log ++ early none = answers s.log ++ early s.hand := by
      simp [hhand, early]
    have hbefore : upserting s.hand = none := by
      rw [hhand]
      rfl
    by_cases httl : w.saasTtlS ≤ 0
    · rw [setSaas, if_pos (.inr httl)]
      exact h.proceed horder rfl hbefore rfl trivial
    · rw [setSaas, if_neg (by simp [httl])]
      exact h.proceed horder rfl hbefore rfl trivial
  | case7 phase => exact ha.elim
  | case8 => exact h

theorem Complete.step (h : Complete inet s) {a : Action} (ha : Undisturbed a) :
    Complete inet (step inet lower s a) := by
  cases a with
  | tick elapsed => exact h.of_frame h.inOrder rfl rfl rfl rfl
  | flow r d => exact h.flow r d
  | read => exact h.read
  | push reply =>
    obtain rfl : reply = .stored := ha
    exact h.push
  | failLabel => exact ha.elim
  | take w received =>
    obtain ⟨rfl, httl⟩ := ha
    exact h.take httl
  | work a =>
    simp only [DnsQueue.step]
    split
    · next ip phase hhand => exact h.work hhand ha
    · exact h

lemma complete_initial (now : ℤ) : Complete inet (initial now) where
  inOrder := rfl
  rows key := .inl rfl
  cached := by simp [initial]
  written := nofun
  storable := trivial

/-- While every call returns, each miss of the correlator is answered in its turn, and the
table has the names last found. -/
theorem every_miss_answered (now : ℤ) (schedule : List Action)
    (h : ∀ a ∈ schedule, Undisturbed a) :
    Answered inet (run (step inet lower) (initial now) schedule) := by
  have halong : Along (step inet lower) (fun _ a => Undisturbed a) (initial now) schedule :=
    along_of_forall_mem (fun a ha _ => h a ha) _
  have hcomplete := throughout_of_along (I := Complete inet) (fun _ _ hs ha => hs.step ha)
    (complete_initial now) halong
  exact hcomplete.last.toAnswered

end

/-- Two flows to one address, of which the first is resolved while the second waits. -/
def twoFlows : List Action :=
  let r : AppResolver := ⟨[], [], .empty⟩
  let d : Destination := ⟨"10.0.0.1", 443, 6, none⟩
  [.flow r d, .read, .push .stored, .flow r d, .read, .push .stored, .take ⟨[], 60, 60⟩ true,
    .work .get, .work (.lookup (some "host.example")), .work (.setPtr .stored),
    .work (.upsert .stored), .take ⟨[], 60, 60⟩ true, .work .get]

theorem every_miss_answered_twoFlows :
    let s := run (step some id) (initial 0) twoFlows
    s.missed.length = 2 ∧ lookups s.log = ["10.0.0.1"] ∧
      answers s.log = ["10.0.0.1", "10.0.0.1"] ∧
      s.rows "10.0.0.1" = some (some "host.example") ∧ Answered some s :=
  ⟨by decide +kernel, by decide +kernel, by decide +kernel, by decide +kernel,
    every_miss_answered 0 twoFlows (by simp [twoFlows, Undisturbed])⟩

/-- Two texts of one address have a cached name each and one row, of the later name. -/
example :
    let w : Worker := ⟨[], 60, 60⟩
    let resolve : String → List Action := fun name =>
      [.take w true, .work .get, .work (.lookup (some name)), .work (.setPtr .stored),
        .work (.upsert .stored)]
    let inet : String → Option ℕ := fun ip =>
      if ip = "fd00::a" ∨ ip = "FD00::A" then some 10 else none
    let s := run (step inet id) { initial 0 with queue := ["fd00::a", "FD00::A"] }
      (resolve "old.example" ++ resolve "new.example")
    (s.ptr "fd00::a").map Key.value = some "old.example" ∧
      (s.ptr "FD00::A").map Key.value = some "new.example" ∧
      s.rows 10 = some (some "new.example") := by
  decide +kernel

/-! ## The keys of one address -/

/-- A run for one address leaves the others alone. -/
structure Elsewhere (s : State Inet) (held : String) (t : State Inet) : Prop where
  now : t.now = s.now
  ptr : ∀ ip ≠ held, t.ptr ip = s.ptr ip
  saas : ∀ ip ≠ held, t.saas ip = s.saas ip
  hand : ∀ ip phase, t.hand = some (ip, phase) → ip = held
  finished : ∀ ip ≠ held, entriesOf ip t.finished = entriesOf ip s.finished

section

variable {inet lower} {s t u : State Inet} {ip held : String}

lemma Elsewhere.trans (hst : Elsewhere s held t) (htu : Elsewhere t held u) :
    Elsewhere s held u where
  now := htu.now.trans hst.now
  ptr ip hip := (htu.ptr ip hip).trans (hst.ptr ip hip)
  saas ip hip := (htu.saas ip hip).trans (hst.saas ip hip)
  hand := htu.hand
  finished ip hip := (htu.finished ip hip).trans (hst.finished ip hip)

/-- The run goes on or ends. -/
lemma elsewhere_hand (s : State Inet) {hand : Option (String × Phase)}
    (h : ∀ ip phase, hand = some (ip, phase) → ip = held) (rows : Inet → Option (Option String))
    (log : List Event) : Elsewhere s held { s with hand, rows, log } :=
  ⟨rfl, fun _ _ => rfl, fun _ _ => rfl, h, fun _ _ => rfl⟩

lemma elsewhere_finish (s : State Inet) (held : String) (w : Worker) (name : String) :
    Elsewhere s held (finish s held w name) where
  now := rfl
  ptr _ _ := rfl
  saas _ _ := rfl
  hand _ _ h := by cases h
  finished ip hip := by simp [finish, entriesOf_singleton, Ne.symm hip]

lemma elsewhere_setPtr (s : State Inet) (held : String) (w : Worker) (name : String)
    (reply : Reply) : Elsewhere s held (setPtr s held w name reply) := by
  unfold setPtr
  split_ifs
  · exact elsewhere_hand s (by simp) _ _
  · exact ⟨rfl, fun ip hip => by simp [hip], fun _ _ => rfl, by simp, fun _ _ => rfl⟩
  · refine ⟨rfl, fun ip hip => by simp [finish, hip], fun _ _ => rfl, by simp [finish], ?_⟩
    exact (elsewhere_finish _ held w name).finished

lemma elsewhere_labelName (s : State Inet) (held : String) (w : Worker) (name : String) :
    Elsewhere s held (labelName lower s held w name) := by
  unfold labelName
  split_ifs
  · exact elsewhere_finish s held w name
  · split
    · exact elsewhere_hand s (by simp) _ _
    · exact elsewhere_finish s held w name

lemma elsewhere_upsert [DecidableEq Inet] (s : State Inet) (held : String) (w : Worker)
    (name : String) (reply : Reply) : Elsewhere s held (upsert inet lower s held w name reply) := by
  have hrow : ∀ key, Elsewhere s held
      { s with hand := none, rows := Function.update s.rows key (some (column name)) } :=
    fun _ => elsewhere_hand s (by simp) _ _
  unfold upsert
  split
  · exact elsewhere_finish s held w name
  · exact elsewhere_finish s held w name
  · next key _ =>
    have hlabel := @elsewhere_labelName _ lower
      { s with rows := Function.update s.rows key (some (column name)) } held w name
    exact ⟨hlabel.now, hlabel.ptr, hlabel.saas, hlabel.hand, hlabel.finished⟩
  · next key _ => exact (hrow key).trans (elsewhere_finish _ held w name)

lemma elsewhere_setSaas (s : State Inet) (held : String) (w : Worker) (name : String)
    (row : SaasEntry) (reply : Reply) : Elsewhere s held (setSaas s held w name row reply) := by
  unfold setSaas
  split_ifs
  · exact elsewhere_finish s held w name
  · refine ⟨rfl, fun _ _ => rfl, fun ip hip => by simp [finish, hip], by simp [finish], ?_⟩
    exact (elsewhere_finish _ held w name).finished

lemma elsewhere_work [DecidableEq Inet] (s : State Inet) {phase : Phase}
    (hhand : s.hand = some (held, phase)) (a : WorkerAction) :
    Elsewhere s held (work inet lower s held phase a) := by
  have hsame : ∀ ip phase, s.hand = some (ip, phase) → ip = held := by
    intro ip phase h
    rw [hhand] at h
    exact (Prod.ext_iff.mp (Option.some.inj h)).1.symm
  fun_cases work inet lower s held phase a with
  | case1 w hlive => exact elsewhere_hand s (by simp) _ _
  | case2 w hlive => exact elsewhere_hand s (by simp) _ _
  | case3 w name => exact elsewhere_hand s (by simp) _ _
  | case4 w name reply => exact elsewhere_setPtr s held w name reply
  | case5 w name reply => exact elsewhere_upsert s held w name reply
  | case6 w name row reply => exact elsewhere_setSaas s held w name row reply
  | case7 phase =>
    unfold fail
    split
    · exact elsewhere_hand s (by simp) _ _
    · exact elsewhere_hand s (by simp) _ _
    · exact elsewhere_hand s (by simp) _ _
    · exact elsewhere_hand s (by simp) _ _
    · exact elsewhere_finish s held _ _
    · exact elsewhere_finish s held _ _
  | case8 => exact ⟨rfl, fun _ _ => rfl, fun _ _ => rfl, hsame, fun _ _ => rfl⟩

lemma project_elsewhere {phase : Phase} (hhand : s.hand = some (held, phase))
    (h : Elsewhere s held t) (hip : ip ≠ held) : project t ip = project s ip := by
  simp only [project, ResolverWorker.State.mk.injEq, h.now, h.ptr ip hip, h.saas ip hip,
    h.finished ip hip, true_and, and_true]
  rw [hhand]
  dsimp only
  rw [if_neg (Ne.symm hip)]
  split
  · next other phase' hother => rw [h.hand other phase' hother, if_neg (Ne.symm hip)]
  · rfl

/-- A key is still there or has expired. -/
lemma live_later {α : Type} (now : ℤ) (elapsed : ℕ) (key : Option (Key α)) :
    Key.live (now + elapsed) key = Key.live now key ∨ Key.live (now + elapsed) key = none := by
  rw [or_iff_not_imp_right]
  intro hlive
  rw [Key.live_eq_none, not_forall] at hlive
  obtain ⟨k, hk⟩ := hlive
  rw [Classical.not_imp, not_le] at hk
  obtain ⟨rfl, hlater⟩ := hk
  have hnow : now < k.expires := by omega
  simp [Key.live, Option.filter, hlater, hnow]

lemma project_tick (s : State Inet) (elapsed : ℕ) (ip : String) :
    ∃ actions, project { s with now := s.now + elapsed } ip =
      run (ResolverWorker.step lower) (project s ip) actions := by
  rcases live_later s.now elapsed (s.ptr ip) with hptr | hptr <;>
    rcases live_later s.now elapsed (s.saas ip) with hsaas | hsaas
  · exact ⟨[], by simp only [project, hptr, hsaas, run_nil]⟩
  · exact ⟨[.expireSaas],
      by simp only [project, hptr, hsaas, run_cons, run_nil, ResolverWorker.step]⟩
  · exact ⟨[.expirePtr],
      by simp only [project, hptr, hsaas, run_cons, run_nil, ResolverWorker.step]⟩
  · exact ⟨[.expirePtr, .expireSaas],
      by simp only [project, hptr, hsaas, run_cons, run_nil, ResolverWorker.step]⟩

lemma project_finish (s : State Inet) (ip : String) (w : Worker) (name : String) :
    project (finish s ip w name) ip = ResolverWorker.finish (project s ip) w name := by
  simp [project, finish, ResolverWorker.finish, entriesOf_singleton]

lemma live_set {α : Type} {now ttl : ℤ} (h : 0 < ttl) (value : α) :
    Key.live now (some ⟨value, now + ttl⟩) = some value := by
  simp [Key.live, h]

/-- The worker's own model, with the address in hand. -/
lemma project_hand {phase : Phase} (hhand : s.hand = some (ip, phase)) :
    project s ip =
      ⟨Key.live s.now (s.ptr ip), Key.live s.now (s.saas ip), phase, entriesOf ip s.finished⟩ := by
  simp [project, hhand]

lemma project_setPtr {w : Worker} {name : String} (hhand : s.hand = some (ip, .caching w name))
    (reply : Reply) : ∃ actions, project (setPtr s ip w name reply) ip =
      run (ResolverWorker.step lower) (project s ip) actions := by
  by_cases hrefused : reply = .refused ∨ w.ptrTtlS ≤ 0
  · refine ⟨[.fail], ?_⟩
    rw [setPtr, if_pos hrefused, project_hand hhand]
    rfl
  · rw [not_or, not_le] at hrefused
    rw [setPtr, if_neg (by simpa using hrefused), project_hand hhand]
    cases reply with
    | refused => exact absurd rfl hrefused.1
    | stored =>
      refine ⟨[.setPtr], ?_⟩
      simp [project, ResolverWorker.step, ResolverWorker.setPtr, live_set hrefused.2, hrefused.2]
    | lost =>
      refine ⟨[.setPtr, .fail], ?_⟩
      simp [project_finish, ResolverWorker.step, ResolverWorker.setPtr, ResolverWorker.fail,
        ResolverWorker.finish, hrefused.2]
      exact ⟨by simp [project, live_set hrefused.2], rfl, rfl, rfl⟩

lemma project_labelName (s : State Inet) (ip : String) (w : Worker) (name : String) :
    project (labelName lower s ip w name) ip =
      ResolverWorker.label lower (project s ip) w name := by
  unfold labelName ResolverWorker.label
  split_ifs
  · exact project_finish s ip w name
  · cases w.matchName lower name with
    | none => exact project_finish s ip w name
    | some row => simp [project]

lemma project_upsert [DecidableEq Inet] {w : Worker} {name : String}
    (hhand : s.hand = some (ip, .upserting w name)) (reply : Reply) :
    ∃ actions, project (upsert inet lower s ip w name reply) ip =
      run (ResolverWorker.step lower) (project s ip) actions := by
  have hphase : (project s ip).phase = .upserting w name := by rw [project_hand hhand]
  have hraised : project (finish s ip w name) ip =
      run (ResolverWorker.step lower) (project s ip) [.upsert false] := by
    rw [project_finish]
    simp [ResolverWorker.step, hphase]
  unfold upsert
  split
  · exact ⟨[.upsert false], hraised⟩
  · exact ⟨[.upsert false], hraised⟩
  · refine ⟨[.upsert true], ?_⟩
    rw [project_labelName]
    simp only [run_cons, run_nil, ResolverWorker.step, hphase, if_true]
    rfl
  · refine ⟨[.upsert false], ?_⟩
    rw [project_finish]
    simp only [run_cons, run_nil, ResolverWorker.step, hphase]
    rfl

lemma project_setSaas {w : Worker} {name : String} {row : SaasEntry}
    (hhand : s.hand = some (ip, .labelling w name row)) (reply : Reply) :
    ∃ actions, project (setSaas s ip w name row reply) ip =
      run (ResolverWorker.step lower) (project s ip) actions := by
  have hphase : (project s ip).phase = .labelling w name row := by rw [project_hand hhand]
  by_cases hrefused : reply = .refused ∨ w.saasTtlS ≤ 0
  · refine ⟨[.fail], ?_⟩
    rw [setSaas, if_pos hrefused, project_finish]
    simp [ResolverWorker.step, ResolverWorker.fail, hphase]
  · refine ⟨[.setSaas], ?_⟩
    rw [not_or, not_le] at hrefused
    rw [setSaas, if_neg (by simpa using hrefused), project_finish, project_hand hhand]
    simp [ResolverWorker.step, ResolverWorker.setSaas, ResolverWorker.finish, hrefused.2, project,
      live_set hrefused.2]

lemma project_fail {phase : Phase} (hhand : s.hand = some (ip, phase)) :
    project (fail s ip phase) ip = ResolverWorker.fail (project s ip) := by
  rw [project_hand hhand]
  cases phase with
  | upserting w name => exact (project_finish s ip w name).trans (by rw [project_hand hhand]; rfl)
  | labelling w name row =>
    exact (project_finish s ip w name).trans (by rw [project_hand hhand]; rfl)
  | _ => rfl

lemma project_work [DecidableEq Inet] {phase : Phase} (hhand : s.hand = some (ip, phase))
    (a : WorkerAction) :
    ∃ actions, project (work inet lower s ip phase a) ip =
      run (ResolverWorker.step lower) (project s ip) actions := by
  fun_cases work inet lower s ip phase a with
  | case1 w hlive =>
    refine ⟨[.get], ?_⟩
    rw [project_hand hhand]
    simp [project, ResolverWorker.step, hlive]
  | case2 w hlive =>
    refine ⟨[.get], ?_⟩
    rw [project_hand hhand]
    simp [project, ResolverWorker.step, hlive]
  | case3 w name =>
    refine ⟨[.lookup name], ?_⟩
    rw [project_hand hhand]
    simp [project, ResolverWorker.step]
  | case4 w name reply => exact project_setPtr hhand reply
  | case5 w name reply => exact project_upsert hhand reply
  | case6 w name row reply => exact project_setSaas hhand reply
  | case7 phase => exact ⟨[.fail], project_fail hhand⟩
  | case8 => exact ⟨[], rfl⟩

lemma project_take (s : State Inet) (w : Worker) (received : Bool) (ip : String) :
    ∃ actions, project (take s w received) ip =
      run (ResolverWorker.step lower) (project s ip) actions := by
  unfold take
  split
  · next head rest hhand hqueue =>
    have hidle : (project s ip).phase = .idle := by simp [project, hhand]
    by_cases htaken : received = true ∧ head = ip
    · refine ⟨[.start w], ?_⟩
      obtain ⟨rfl, rfl⟩ := htaken
      simp [project, hhand, ResolverWorker.step]
    · refine ⟨[], ?_⟩
      cases received with
      | false => simp [project, hhand]
      | true => simp_all [project]
  · exact ⟨[], rfl⟩

lemma Untouched.project_eq (h : Untouched s t) (ip : String) : project t ip = project s ip := by
  simp only [project, h.now, h.ptr, h.saas, h.hand, h.finished]

/-- One step here is some steps of the worker's own model. -/
theorem project_step [DecidableEq Inet] (s : State Inet) (a : Action) (ip : String) :
    ∃ actions, project (step inet lower s a) ip =
      run (ResolverWorker.step lower) (project s ip) actions := by
  obtain ⟨elapsed, rfl⟩ | ⟨w, received, rfl⟩ | ⟨a, rfl⟩ | hsame := step_cases inet lower s a
  · exact project_tick s elapsed ip
  · exact project_take s w received ip
  · simp only [step]
    split
    · next held phase hhand =>
      by_cases hip : held = ip
      · subst hip
        exact project_work hhand a
      · exact ⟨[], project_elsewhere hhand (elsewhere_work s hhand a) (Ne.symm hip)⟩
    · exact ⟨[], rfl⟩
  · exact ⟨[], hsame.project_eq ip⟩

end

/-- Whatever happens to other addresses, the keys of each address and the runs for it go
step by step through a run of the worker's own model. -/
theorem keys_of_address [DecidableEq Inet] (now : ℤ) (schedule : List Action) (ip : String) :
    ∃ blocks,
      Simulates (project · ip) (step inet lower) (ResolverWorker.step lower) (initial now) schedule
        blocks ∧
      project (run (step inet lower) (initial now) schedule) ip =
        run (ResolverWorker.step lower) ResolverWorker.initial blocks.flatten := by
  obtain ⟨blocks, hblocks⟩ := exists_simulates (f := fun s : State Inet => project s ip)
    (fun s a => project_step s a ip) (initial now) schedule
  exact ⟨blocks, hblocks, hblocks.run_eq⟩

/-- What a run of the worker's own model is about to write is the entry of the name, and
so for every address. -/
theorem matched_throughout [DecidableEq Inet] (now : ℤ) (schedule : List Action) (ip : String) :
    Throughout (step inet lower) (fun s => ResolverWorker.Matched lower (project s ip))
      (initial now) schedule := by
  obtain ⟨blocks, hblocks⟩ := exists_simulates (f := fun s : State Inet => project s ip)
    (fun s a => project_step s a ip) (initial now) schedule
  refine hblocks.throughout ?_
  have hinitial : ResolverWorker.Matched lower ResolverWorker.initial := nofun
  exact throughout_of_invariant (ResolverWorker.step_matched lower) hinitial blocks.flatten

end

end FlowDiscovery.DnsQueue
