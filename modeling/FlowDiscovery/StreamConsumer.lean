import FlowDiscovery.IdentityIndex
import FlowDiscovery.Machine
import FlowDiscovery.PyJson

/-!
# The correlator's readers of Redis streams

Two loops read a stream each as consumer `c1` of the group `correlator`. A read
takes up to 500 entries that the group has never delivered, and every entry is
acknowledged after it was handled. A restarted process reads on behind the last
delivered entry and never asks for the pending ones, so what a crash leaves in hand
is not read again. Nothing is lost as long as no crash meets a batch with a
well-formed entry still to be handled.

The trimming of a stream by its producers is left out.
-/
namespace FlowDiscovery.StreamConsumer
open Machine PyText PyTime PyJson

/-! ## What a loop does with an entry -/

/-- The member `event` of an entry, the only one that is read. -/
abbrev Fields := Option PyStr

/-- `parse` is the part inside the `try`, `none` an exception there. `deliver` puts
the event where the loop keeps it, which is `fresh` in a new process. Where the loop
`suspends`, it awaits between the two. -/
structure Loop (ε μ : Type) where
  parse : Fields → Option ε
  fresh : μ
  deliver : μ → ε → μ
  suspends : Bool

/-- A flow event as `json.loads` gives it, with the instant of its `ts`. -/
structure FlowDict where
  fields : List (PyStr × Json)
  ts : Instant

section

/- `repr(float(s))` and `datetime.fromisoformat`, whose `ValueError` is `none`. -/
variable (float : Text → Text) (fromisoformat : PyStr → Option Instant)

def loadsObject (fields : Fields) : Option (List (PyStr × Json)) := do
  match loads float (← fields) with
  | some (.obj members) => some members
  | _ => none

def strMember (members : List (PyStr × Json)) (key : String) : Option PyStr :=
  match Json.lookup members (ofString key) with
  | some (.str s) => some s
  | _ => none

def intMember (members : List (PyStr × Json)) (key : String) : Option ℤ :=
  match Json.lookup members (ofString key) with
  | some (.int n) => some n
  | _ => none

def tsMember (members : List (PyStr × Json)) : Option Instant :=
  (strMember members "ts").bind fromisoformat

/-- `_read_xstream_into`. The queue is read by another task. -/
def readXstreamInto : Loop FlowDict (List FlowDict) where
  parse fields := do
    let members ← loadsObject float fields
    return ⟨members, ← tsMember fromisoformat members⟩
  fresh := []
  deliver out ev := out ++ [ev]
  suspends := true

def toString (s : PyStr) : String := String.ofList (s.map Char.ofNat)

def eventTypeOf (s : String) : IdentityEventType :=
  if s = "logon" then .logon
  else if s = "nac-auth" then .nacAuth
  else if s = "nac-auth-stop" then .nacAuthStop
  else if s = "dhcp" then .dhcp
  else .other s

/-- An identity event in the types of its record. -/
def indexEvent (members : List (PyStr × Json)) : Option IndexEvent := do
  return {
    srcIp := toString (← strMember members "src_ip")
    ts := ← tsMember fromisoformat members
    eventType := eventTypeOf (toString (← strMember members "event_type"))
    ttlSeconds := ← intMember members "ttl_seconds"
    userUpn := some (toString (← strMember members "user_upn"))
    confidence := ← intMember members "confidence"
    source := toString (← strMember members "source") }

/-- `_identity_consumer`. The event is inserted inside the `try`; whether that raises
does not depend on the index. -/
def identityConsumer : Loop IndexEvent IdentityIndex where
  parse fields := do
    let ev ← indexEvent fromisoformat (← loadsObject float fields)
    if (IdentityIndex.fresh.insert ev).2.isNone then some ev else none
  fresh := .fresh
  deliver idx ev := (idx.insert ev).1
  suspends := false

end

/-! ## The group and the consumer -/

/-- An entry of a batch with its id. -/
abbrev Delivered := ℕ × Fields

/-- The process is down, or its loop is suspended in a read, in the put of the event
of an entry or in an acknowledgement, with the rest of the batch. -/
inductive Phase (ε : Type) where
  | down
  | reading
  | putting (msg : Delivered) (ev : ε) (rest : List Delivered)
  | acking (id : ℕ) (rest : List Delivered)

/-- An entry's id is its position. The group exists from the start at id 0, which is
where the first process creates it; a later `XGROUP CREATE` is refused. `handled`
records the entries that some process has put on its queue or inserted. -/
structure State (ε μ : Type) where
  entries : List Fields
  lastDelivered : ℕ
  pending : List ℕ
  phase : Phase ε
  memory : μ
  handled : List ℕ

inductive Action where
  | xadd (fields : Fields)
  | start
  | crash
  | xreadgroup
  | put
  | xack

section

variable {ε μ : Type} (loop : Loop ε μ)

def initial : State ε μ := ⟨[], 0, [], .down, loop.fresh, []⟩

def deliver (s : State ε μ) (id : ℕ) (ev : ε) : State ε μ :=
  { s with memory := loop.deliver s.memory ev, handled := s.handled ++ [id] }

/-- The loop from the next entry of the batch to its next suspension. -/
def next (s : State ε μ) : List Delivered → State ε μ
  | [] => { s with phase := .reading }
  | msg :: rest =>
    match loop.parse msg.2 with
    | none => { s with phase := .acking msg.1 rest }
    | some ev =>
      if loop.suspends then { s with phase := .putting msg ev rest }
      else { deliver loop s msg.1 ev with phase := .acking msg.1 rest }

/-- What `XREADGROUP` with `>` and `count=500` returns. -/
def batch (s : State ε μ) : List Delivered :=
  ((s.entries.zipIdx.map Prod.swap).drop s.lastDelivered).take 500

/-- The group after a read. -/
def delivered (s : State ε μ) : State ε μ :=
  { s with
    lastDelivered := s.lastDelivered + (batch s).length
    pending := s.pending ++ (batch s).map Prod.fst }

def step (s : State ε μ) : Action → State ε μ
  | .xadd fields => { s with entries := s.entries ++ [fields] }
  | .start =>
    match s.phase with
    | .down => { s with phase := .reading, memory := loop.fresh }
    | _ => s
  | .crash => { s with phase := .down }
  | .xreadgroup =>
    match s.phase with
    | .reading => next loop (delivered s) (batch s)
    | _ => s
  | .put =>
    match s.phase with
    | .putting msg ev rest => { deliver loop s msg.1 ev with phase := .acking msg.1 rest }
    | _ => s
  | .xack =>
    match s.phase with
    | .acking id rest => next loop { s with pending := s.pending.filter (· ≠ id) } rest
    | _ => s

/-- The entries of its batch that the running loop has still to handle. -/
def Phase.hand : Phase ε → List Delivered
  | .down | .reading => []
  | .putting msg _ rest => msg :: rest
  | .acking _ rest => rest

def hand (s : State ε μ) : List Delivered := s.phase.hand

/-! ## The property and its condition -/

/-- With `hand` in hand, each well-formed entry was handled, is in hand, or is still
there for a read. -/
def KeptWith (s : State ε μ) (hand : List Delivered) : Prop :=
  ∀ id fields, s.entries[id]? = some fields → (loop.parse fields).isSome →
    id ∈ s.handled ∨ id ∈ hand.map Prod.fst ∨ s.lastDelivered ≤ id

/-- No well-formed entry is lost. A loop that is about to read has nothing in hand. -/
def Kept (s : State ε μ) : Prop := KeptWith loop s (hand s)

/-- A crash finds no well-formed entry in hand. -/
def CrashIdle (s : State ε μ) (a : Action) : Prop :=
  a = .crash → ∀ msg ∈ hand s, loop.parse msg.2 = none

/-! ## Step lemmas -/

/-- The batch in hand was delivered, once, and is not handled yet. -/
structure InvWith (s : State ε μ) (hand : List Delivered) : Prop where
  entry : ∀ msg ∈ hand, s.entries[msg.1]? = some msg.2
  lt : ∀ msg ∈ hand, msg.1 < s.lastDelivered
  nodup : (hand.map Prod.fst).Nodup
  fresh : ∀ msg ∈ hand, msg.1 ∉ s.handled
  handled_lt : ∀ id ∈ s.handled, id < s.lastDelivered
  le : s.lastDelivered ≤ s.entries.length

variable {loop} {s : State ε μ} {msg : Delivered} {rest : List Delivered}

/-- The phase, the memory and the pending list are no part of it. -/
lemma InvWith.congr {t : State ε μ} {hand : List Delivered} (h : InvWith s hand)
    (hentries : t.entries = s.entries) (hlast : t.lastDelivered = s.lastDelivered)
    (hhandled : t.handled = s.handled) : InvWith t hand := by
  obtain ⟨hentry, hlt, hnodup, hfresh, hhandled_lt, hle⟩ := h
  rw [← hentries] at hentry hle
  rw [← hlast] at hlt hhandled_lt hle
  rw [← hhandled] at hfresh hhandled_lt
  exact ⟨hentry, hlt, hnodup, hfresh, hhandled_lt, hle⟩

/-- The stream holds what is in hand, so an entry in hand that does not parse is not
well formed. -/
lemma InvWith.not_isSome {hand : List Delivered} {fields : Fields} (h : InvWith s hand)
    (hmsg : msg ∈ hand) (hparse : loop.parse msg.2 = none)
    (hfields : s.entries[msg.1]? = some fields) : ¬ (loop.parse fields).isSome := by
  have hentry := h.entry msg hmsg
  rw [hfields] at hentry
  rw [Option.some.inj hentry, hparse]
  exact Bool.false_ne_true

lemma InvWith.tail (h : InvWith s (msg :: rest)) : InvWith s rest where
  entry := fun m hm => h.entry m (List.mem_cons_of_mem _ hm)
  lt := fun m hm => h.lt m (List.mem_cons_of_mem _ hm)
  nodup := (List.nodup_cons.mp h.nodup).2
  fresh := fun m hm => h.fresh m (List.mem_cons_of_mem _ hm)
  handled_lt := h.handled_lt
  le := h.le

lemma InvWith.deliver (h : InvWith s (msg :: rest)) (loop : Loop ε μ) (ev : ε) :
    InvWith (deliver loop s msg.1 ev) rest where
  entry := h.tail.entry
  lt := h.tail.lt
  nodup := h.tail.nodup
  fresh m hm := by
    have hne : m.1 ≠ msg.1 := by
      rintro heq
      exact (List.nodup_cons.mp h.nodup).1 (heq ▸ List.mem_map_of_mem hm)
    simpa [StreamConsumer.deliver, hne] using h.tail.fresh m hm
  handled_lt id hid := by
    rcases List.mem_append.mp hid with hid | hid
    · exact h.handled_lt id hid
    · rw [List.mem_singleton.mp hid]
      exact h.lt msg (by simp)
  le := h.le

lemma KeptWith.deliver (h : KeptWith loop s (msg :: rest)) (ev : ε) :
    KeptWith loop (deliver loop s msg.1 ev) rest := by
  intro id fields hid hparse
  rcases h id fields hid hparse with hdone | hhand | hnew
  · exact .inl (List.mem_append_left _ hdone)
  · rcases List.mem_cons.mp hhand with rfl | hhand
    · exact .inl (by simp [StreamConsumer.deliver])
    · exact .inr (.inl hhand)
  · exact .inr (.inr hnew)

/-- An entry whose parse raises may be passed over. -/
lemma KeptWith.skip (hinv : InvWith s (msg :: rest)) (h : KeptWith loop s (msg :: rest))
    (hparse : loop.parse msg.2 = none) : KeptWith loop s rest := by
  intro id fields hid hwf
  rcases h id fields hid hwf with hdone | hhand | hnew
  · exact .inl hdone
  · rcases List.mem_cons.mp hhand with rfl | hhand
    · exact absurd hwf (hinv.not_isSome List.mem_cons_self hparse hid)
    · exact .inr (.inl hhand)
  · exact .inr (.inr hnew)

/-- What the loop can be doing after it took up a batch. -/
lemma next_cases (loop : Loop ε μ) (s : State ε μ) (msgs : List Delivered) :
    (msgs = [] ∧ next loop s msgs = { s with phase := .reading }) ∨
    ∃ msg rest, msgs = msg :: rest ∧
      ((loop.parse msg.2 = none ∧ next loop s msgs = { s with phase := .acking msg.1 rest }) ∨
      (∃ ev, next loop s msgs = { s with phase := .putting msg ev rest }) ∨
      ∃ ev, next loop s msgs = { deliver loop s msg.1 ev with phase := .acking msg.1 rest }) := by
  cases msgs with
  | nil => exact .inl ⟨rfl, rfl⟩
  | cons msg rest =>
    refine .inr ⟨msg, rest, rfl, ?_⟩
    cases hparse : loop.parse msg.2 with
    | none => exact .inl ⟨rfl, by rw [next, hparse]⟩
    | some ev =>
      by_cases hsuspends : loop.suspends
      · exact .inr (.inl ⟨ev, by rw [next, hparse]; simp [hsuspends]⟩)
      · exact .inr (.inr ⟨ev, by rw [next, hparse]; simp [hsuspends]⟩)

lemma InvWith.next {msgs : List Delivered} (h : InvWith s msgs) :
    InvWith (next loop s msgs) (hand (next loop s msgs)) := by
  obtain ⟨rfl, heq⟩ | ⟨msg, rest, rfl, ⟨_, heq⟩ | ⟨ev, heq⟩ | ⟨ev, heq⟩⟩ := next_cases loop s msgs
  · rw [heq]
    exact h.congr rfl rfl rfl
  · rw [heq]
    exact h.tail.congr rfl rfl rfl
  · rw [heq]
    exact h.congr rfl rfl rfl
  · rw [heq]
    exact (h.deliver loop ev).congr rfl rfl rfl

lemma KeptWith.next {msgs : List Delivered} (hinv : InvWith s msgs) (h : KeptWith loop s msgs) :
    Kept loop (next loop s msgs) := by
  obtain ⟨rfl, heq⟩ | ⟨msg, rest, rfl, ⟨hparse, heq⟩ | ⟨ev, heq⟩ | ⟨ev, heq⟩⟩ :=
    next_cases loop s msgs
  · rw [heq]
    exact h
  · have hskip := KeptWith.skip hinv h hparse
    rw [heq]
    exact hskip
  · rw [heq]
    exact h
  · rw [heq]
    exact h.deliver ev

lemma getElem?_batch (s : State ε μ) (k : ℕ) :
    (batch s)[k]? = if k < 500 then
      s.entries[s.lastDelivered + k]?.map fun fields => (s.lastDelivered + k, fields) else none := by
  rw [batch, List.getElem?_take]
  split_ifs
  · rw [List.getElem?_drop, List.getElem?_map, List.getElem?_zipIdx, Option.map_map]
    simp [Function.comp_def]
  · rfl

lemma length_batch (s : State ε μ) :
    (batch s).length = min 500 (s.entries.length - s.lastDelivered) := by
  simp [batch]

/-- A read takes up the entries behind the last delivered one. -/
lemma mem_batch_iff (msg : Delivered) :
    msg ∈ batch s ↔ s.lastDelivered ≤ msg.1 ∧ msg.1 < s.lastDelivered + (batch s).length ∧
      s.entries[msg.1]? = some msg.2 := by
  constructor
  · intro h
    obtain ⟨k, hk⟩ := List.mem_iff_getElem?.mp h
    have hlt := (List.getElem?_eq_some_iff.mp hk).1
    rw [getElem?_batch] at hk
    split_ifs at hk with h500
    obtain ⟨fields, hfields, rfl⟩ := Option.map_eq_some_iff.mp hk
    exact ⟨by simp, by simpa using hlt, hfields⟩
  · rintro ⟨hle, hlt, hentry⟩
    rw [List.mem_iff_getElem?]
    refine ⟨msg.1 - s.lastDelivered, ?_⟩
    have hlength := length_batch s
    rw [getElem?_batch, if_pos (by omega), Nat.add_sub_cancel' hle, hentry]
    rfl

lemma mem_ids_batch {id : ℕ} {fields : Fields} (hnew : s.lastDelivered ≤ id)
    (hid : s.entries[id]? = some fields) :
    id ∈ (batch s).map Prod.fst ∨ (delivered s).lastDelivered ≤ id := by
  by_cases hlt : id < s.lastDelivered + (batch s).length
  · exact .inl (List.mem_map.mpr ⟨(id, fields), (mem_batch_iff _).mpr ⟨hnew, hlt, hid⟩, rfl⟩)
  · exact .inr (Nat.not_lt.mp hlt)

lemma nodup_batch (s : State ε μ) : ((batch s).map Prod.fst).Nodup := by
  have hids : (s.entries.zipIdx.map Prod.swap).map Prod.fst = List.range' 0 s.entries.length := by
    rw [List.map_map, ← List.zipIdx_map_snd 0 s.entries]
    rfl
  have hsub : (batch s).Sublist (s.entries.zipIdx.map Prod.swap) :=
    (List.take_sublist _ _).trans (List.drop_sublist _ _)
  have hnodup := hids ▸ List.nodup_range' (s := 0) (n := s.entries.length)
  exact hnodup.sublist (hsub.map Prod.fst)

lemma InvWith.delivered (h : InvWith s []) : InvWith (delivered s) (batch s) where
  entry m hm := ((mem_batch_iff m).mp hm).2.2
  lt m hm := ((mem_batch_iff m).mp hm).2.1
  nodup := nodup_batch s
  fresh m hm hdone := by
    have hle := ((mem_batch_iff m).mp hm).1
    have hlt := h.handled_lt _ hdone
    omega
  handled_lt id hid := Nat.lt_add_right _ (h.handled_lt id hid)
  le := by
    have hlength := length_batch s
    have hle := h.le
    simp only [StreamConsumer.delivered]
    omega

lemma KeptWith.delivered (h : KeptWith loop s []) : KeptWith loop (delivered s) (batch s) := by
  intro id fields hid hwf
  rcases h id fields hid hwf with hdone | hhand | hnew
  · exact .inl hdone
  · cases hhand
  · exact .inr (mem_ids_batch hnew hid)

/-- The invariant of a state. -/
def Inv (s : State ε μ) : Prop := InvWith s (hand s)

lemma inv_initial : Inv (initial loop) :=
  ⟨by simp [initial, hand, Phase.hand], by simp [initial, hand, Phase.hand], by simp [initial, hand, Phase.hand],
    by simp [initial, hand, Phase.hand], by simp [initial], by simp [initial]⟩

lemma Inv.xadd (h : Inv s) (fields : Fields) : Inv (step loop s (.xadd fields)) where
  entry m hm := by
    have hentry := h.entry m hm
    have hlt := (List.getElem?_eq_some_iff.mp hentry).1
    rw [step, List.getElem?_append_left hlt, hentry]
  lt := h.lt
  nodup := h.nodup
  fresh := h.fresh
  handled_lt := h.handled_lt
  le := by simpa [step] using Nat.le_succ_of_le h.le

/-- An entry of the stream was there before an `XADD`, or the group has not read it. -/
lemma entry_xadd (h : Inv s) {fields fields' : Fields} {id : ℕ}
    (hid : (s.entries ++ [fields])[id]? = some fields') :
    s.entries[id]? = some fields' ∨ s.lastDelivered ≤ id := by
  by_cases hlt : id < s.entries.length
  · rw [List.getElem?_append_left hlt] at hid
    exact .inl hid
  · exact .inr (h.le.trans (Nat.not_lt.mp hlt))

lemma Inv.idle (h : Inv s) : InvWith s [] :=
  ⟨by simp, by simp, by simp, by simp, h.handled_lt, h.le⟩

theorem step_inv (loop : Loop ε μ) (s : State ε μ) (a : Action) (h : Inv s) :
    Inv (step loop s a) := by
  cases a with
  | xadd fields => exact h.xadd fields
  | start =>
    rw [step]
    split
    · exact h.idle.congr rfl rfl rfl
    · exact h
  | crash => exact h.idle.congr rfl rfl rfl
  | xreadgroup =>
    rw [step]
    split
    · exact h.idle.delivered.next
    · exact h
  | put =>
    rw [step]
    split
    · rename_i msg ev rest hphase
      have hhand : InvWith s (msg :: rest) := by
        rw [Inv, hand, hphase] at h
        exact h
      exact (hhand.deliver loop ev).congr rfl rfl rfl
    · exact h
  | xack =>
    rw [step]
    split
    · rename_i id rest hphase
      have hhand : InvWith s rest := by
        rw [Inv, hand, hphase] at h
        exact h
      exact InvWith.next (hhand.congr rfl rfl rfl)
    · exact h

/-- A step that is no crash loses nothing. -/
theorem step_kept (hinv : Inv s) (h : Kept loop s) {a : Action} (hcrash : a ≠ .crash) :
    Kept loop (step loop s a) := by
  cases a with
  | xadd fields =>
    intro id fields' hid hwf
    rcases entry_xadd hinv hid with hold | hnew
    · exact h id fields' hold hwf
    · exact .inr (.inr hnew)
  | start =>
    rw [step]
    split
    · rename_i hphase
      rw [Kept, hand, hphase] at h
      exact h
    · exact h
  | crash => exact absurd rfl hcrash
  | xreadgroup =>
    rw [step]
    split
    · rename_i hphase
      rw [Kept, hand, hphase] at h
      exact KeptWith.next hinv.idle.delivered h.delivered
    · exact h
  | put =>
    rw [step]
    split
    · rename_i msg ev rest hphase
      rw [Kept, hand, hphase] at h
      exact h.deliver ev
    · exact h
  | xack =>
    rw [step]
    split
    · rename_i id rest hphase
      rw [Inv, hand, hphase] at hinv
      rw [Kept, hand, hphase] at h
      exact KeptWith.next (hinv.congr rfl rfl rfl) h
    · exact h

/-- A crash loses the well-formed entries in hand and no others. -/
theorem kept_crash_iff (hinv : Inv s) (h : Kept loop s) :
    Kept loop (step loop s .crash) ↔ ∀ msg ∈ hand s, loop.parse msg.2 = none := by
  constructor
  · intro hafter msg hmsg
    by_contra hparse
    have hwf : (loop.parse msg.2).isSome := Option.isSome_iff_ne_none.mpr hparse
    rcases hafter msg.1 msg.2 (hinv.entry msg hmsg) hwf with hdone | hhand | hnew
    · exact hinv.fresh msg hmsg hdone
    · cases hhand
    · exact absurd (hinv.lt msg hmsg) (Nat.not_lt.mpr hnew)
  · intro hidle id fields hid hwf
    rcases h id fields hid hwf with hdone | hhand | hnew
    · exact .inl hdone
    · obtain ⟨msg, hmsg, rfl⟩ := List.mem_map.mp hhand
      exact absurd hwf (hinv.not_isSome hmsg (hidle msg hmsg) hid)
    · exact .inr (.inr hnew)

lemma step_kept_iff (hinv : Inv s) (h : Kept loop s) (a : Action) :
    Kept loop (step loop s a) ↔ CrashIdle loop s a := by
  by_cases hcrash : a = .crash
  · subst hcrash
    exact (kept_crash_iff hinv h).trans ⟨fun hidle _ => hidle, fun hidle => hidle rfl⟩
  · exact iff_of_true (step_kept hinv h hcrash) (fun heq => absurd heq hcrash)

/-- Over a whole run nothing is lost iff no crash meets a well-formed entry in hand. -/
theorem kept_throughout_iff (loop : Loop ε μ) (actions : List Action) :
    Throughout (step loop) (Kept loop) (initial loop) actions ↔
      Along (step loop) (CrashIdle loop) (initial loop) actions := by
  have hkept : Kept loop (initial loop) := fun id fields hid => by simp [initial] at hid
  exact throughout_iff_along (step_inv loop) (fun _ a hinv hkept => step_kept_iff hinv hkept a)
    inv_initial hkept actions

/-! ## What is lost stays pending -/

/-- What is delivered and well formed was handled or is pending. -/
def Tracked (loop : Loop ε μ) (s : State ε μ) : Prop :=
  ∀ id fields, s.entries[id]? = some fields → (loop.parse fields).isSome →
    id ∈ s.handled ∨ id ∈ s.pending ∨ s.lastDelivered ≤ id

/-- What is being acknowledged was delivered and, if well formed, handled. -/
def AckHandled (loop : Loop ε μ) (s : State ε μ) : Prop :=
  ∀ id rest, s.phase = .acking id rest → id < s.lastDelivered ∧
    ∀ fields, s.entries[id]? = some fields → (loop.parse fields).isSome → id ∈ s.handled

lemma Tracked.next {msgs : List Delivered} (hinv : InvWith s msgs) (h : Tracked loop s) :
    Tracked loop (next loop s msgs) ∧ AckHandled loop (next loop s msgs) := by
  obtain ⟨rfl, heq⟩ | ⟨msg, rest, rfl, ⟨hparse, heq⟩ | ⟨ev, heq⟩ | ⟨ev, heq⟩⟩ :=
    next_cases loop s msgs
  · rw [heq]
    exact ⟨h, fun _ _ hphase => by cases hphase⟩
  · rw [heq]
    refine ⟨h, fun id rest' hphase => ?_⟩
    obtain ⟨rfl, rfl⟩ := Phase.acking.inj hphase
    exact ⟨hinv.lt msg (by simp), fun fields hid hwf =>
      absurd hwf (hinv.not_isSome List.mem_cons_self hparse hid)⟩
  · rw [heq]
    exact ⟨h, fun _ _ hphase => by cases hphase⟩
  · rw [heq]
    refine ⟨fun id fields hid hwf => ?_, fun id rest' hphase => ?_⟩
    · exact (h id fields hid hwf).imp_left (List.mem_append_left _)
    · obtain ⟨rfl, rfl⟩ := Phase.acking.inj hphase
      exact ⟨hinv.lt msg (by simp), fun _ _ _ => by simp [deliver]⟩

lemma Tracked.xadd (hinv : Inv s) (h : Tracked loop s) (fields : Fields) :
    Tracked loop (step loop s (.xadd fields)) := by
  intro id fields' hid hwf
  rcases entry_xadd hinv hid with hold | hnew
  · exact h id fields' hold hwf
  · exact .inr (.inr hnew)

lemma AckHandled.xadd (hinv : Inv s) (h : AckHandled loop s) (fields : Fields) :
    AckHandled loop (step loop s (.xadd fields)) := by
  intro id rest hphase
  obtain ⟨hlt, hdone⟩ := h id rest hphase
  refine ⟨hlt, fun fields' hid hwf => ?_⟩
  rcases entry_xadd hinv hid with hold | hnew
  · exact hdone fields' hold hwf
  · exact absurd hnew (Nat.not_le.mpr hlt)

/-- A read puts what it delivers on the pending list. -/
lemma Tracked.delivered (h : Tracked loop s) : Tracked loop (delivered s) := by
  intro id fields hid hwf
  rcases h id fields hid hwf with hdone | hpending | hnew
  · exact .inl hdone
  · exact .inr (.inl (List.mem_append_left _ hpending))
  · exact .inr ((mem_ids_batch hnew hid).imp_left (List.mem_append_right _))

/-- An acknowledgement removes one entry, which was handled if it is well formed. -/
lemma Tracked.ack (h : Tracked loop s) {id : ℕ}
    (hid : ∀ fields, s.entries[id]? = some fields → (loop.parse fields).isSome → id ∈ s.handled) :
    Tracked loop { s with pending := s.pending.filter (· ≠ id) } := by
  intro id' fields hfields hwf
  rcases h id' fields hfields hwf with hdone | hpending | hnew
  · exact .inl hdone
  · by_cases heq : id' = id
    · subst heq
      exact .inl (hid fields hfields hwf)
    · exact .inr (.inl (List.mem_filter.mpr ⟨hpending, by simpa using heq⟩))
  · exact .inr (.inr hnew)

theorem step_tracked (hinv : Inv s) (h : Tracked loop s) (hack : AckHandled loop s) (a : Action) :
    Tracked loop (step loop s a) ∧ AckHandled loop (step loop s a) := by
  cases a with
  | xadd fields => exact ⟨h.xadd hinv fields, hack.xadd hinv fields⟩
  | start =>
    rw [step]
    split
    · exact ⟨h, fun _ _ hphase => by cases hphase⟩
    · exact ⟨h, hack⟩
  | crash => exact ⟨h, fun _ _ hphase => by cases hphase⟩
  | xreadgroup =>
    rw [step]
    split
    · exact Tracked.next hinv.idle.delivered h.delivered
    · exact ⟨h, hack⟩
  | put =>
    rw [step]
    split
    · rename_i msg ev rest hphase
      rw [Inv, hand, hphase] at hinv
      refine ⟨fun id fields hid hwf => ?_, fun id rest' hphase' => ?_⟩
      · exact (h id fields hid hwf).imp_left (List.mem_append_left _)
      · obtain ⟨rfl, rfl⟩ := Phase.acking.inj hphase'
        exact ⟨hinv.lt msg (by simp [Phase.hand]), fun _ _ _ => by simp [deliver]⟩
    · exact ⟨h, hack⟩
  | xack =>
    rw [step]
    split
    · rename_i id rest hphase
      rw [Inv, hand, hphase] at hinv
      exact Tracked.next (hinv.congr rfl rfl rfl) (h.ack (hack id rest hphase).2)
    · exact ⟨h, hack⟩

/-- A well-formed entry that was delivered and not handled is in the pending list,
which no read asks for. -/
theorem lost_mem_pending (loop : Loop ε μ) (actions : List Action) (id : ℕ) (fields : Fields)
    (hentry : (run (step loop) (initial loop) actions).entries[id]? = some fields)
    (hwf : (loop.parse fields).isSome)
    (hdone : id ∉ (run (step loop) (initial loop) actions).handled)
    (hread : id < (run (step loop) (initial loop) actions).lastDelivered) :
    id ∈ (run (step loop) (initial loop) actions).pending := by
  have hinv := run_invariant (I := fun s => Inv s ∧ Tracked loop s ∧ AckHandled loop s)
    (fun s a h => ⟨step_inv loop s a h.1, step_tracked h.1 h.2.1 h.2.2 a⟩)
    (s := initial loop) ⟨inv_initial, fun id fields hid => by simp [initial] at hid,
      fun id rest hphase => by cases hphase⟩ actions
  rcases hinv.2.1 id fields hentry hwf with h | h | h
  · exact absurd h hdone
  · exact h
  · exact absurd hread (Nat.not_lt.mpr h)

end

/-! ## The two loops -/

/-- Neither loop loses an entry iff no crash finds a well-formed one in hand. -/
theorem entries_kept_iff (float : Text → Text) (fromisoformat : PyStr → Option Instant)
    (actions : List Action) :
    (Throughout (step (readXstreamInto float fromisoformat)) (Kept (readXstreamInto float fromisoformat))
        (initial (readXstreamInto float fromisoformat)) actions ↔
      Along (step (readXstreamInto float fromisoformat)) (CrashIdle (readXstreamInto float fromisoformat))
        (initial (readXstreamInto float fromisoformat)) actions) ∧
    (Throughout (step (identityConsumer float fromisoformat)) (Kept (identityConsumer float fromisoformat))
        (initial (identityConsumer float fromisoformat)) actions ↔
      Along (step (identityConsumer float fromisoformat)) (CrashIdle (identityConsumer float fromisoformat))
        (initial (identityConsumer float fromisoformat)) actions) :=
  ⟨kept_throughout_iff _ actions, kept_throughout_iff _ actions⟩

/-- `datetime.fromisoformat` on the one text below. -/
def fromisoformatNoon (s : PyStr) : Option Instant :=
  if s = ofString "2026-04-22T12:00:00+00:00" then some 1776859200000000 else none

def flowEntry : Fields := some (ofString ("\x7b\"ts\":\"2026-04-22T12:00:00+00:00\",\"src_ip\":\"10.0.0.1\"," ++
  "\"src_port\":50000,\"dst_ip\":\"10.0.0.2\",\"dst_port\":443,\"proto\":6,\"bytes\":100,\"packets\":1," ++
  "\"action\":\"allow\",\"fqdn\":null,\"app_id\":null,\"source\":\"palo_alto\",\"raw_id\":null\x7d"))

def identityEntry : Fields := some (ofString ("\x7b\"ts\":\"2026-04-22T12:00:00+00:00\"," ++
  "\"src_ip\":\"10.0.0.1\",\"user_upn\":\"alice@corp\",\"source\":\"ad-4624\",\"event_type\":\"logon\"," ++
  "\"confidence\":90,\"ttl_seconds\":28800,\"mac\":null,\"raw_id\":null\x7d"))

/-- A batch of two is read and the process restarts before it has come to the second. -/
lemma restart_loses_second {ε μ : Type} (loop : Loop ε μ) {fields : Fields}
    (h : (loop.parse fields).isSome) :
    ¬ Throughout (step loop) (Kept loop) (initial loop)
      [.xadd fields, .xadd fields, .start, .xreadgroup, .crash, .start] := by
  intro hall
  obtain ⟨ev, hev⟩ := Option.isSome_iff_exists.mp h
  have hlast := hall.last 1 fields
  by_cases hsuspends : loop.suspends
  · simp [step, initial, next, batch, delivered, hand, Phase.hand, hev, hsuspends] at hlast
  · simp [step, initial, next, batch, delivered, deliver, hand, Phase.hand, hev, hsuspends] at hlast

theorem restart_loses_entry :
    ¬ Throughout (step (readXstreamInto id fromisoformatNoon))
      (Kept (readXstreamInto id fromisoformatNoon)) (initial (readXstreamInto id fromisoformatNoon))
      [.xadd flowEntry, .xadd flowEntry, .start, .xreadgroup, .crash, .start] ∧
    ¬ Throughout (step (identityConsumer id fromisoformatNoon))
      (Kept (identityConsumer id fromisoformatNoon)) (initial (identityConsumer id fromisoformatNoon))
      [.xadd identityEntry, .xadd identityEntry, .start, .xreadgroup, .crash, .start] :=
  ⟨restart_loses_second _ (by decide +kernel), restart_loses_second _ (by decide +kernel)⟩

end FlowDiscovery.StreamConsumer
