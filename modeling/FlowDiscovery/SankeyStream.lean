import FlowDiscovery.SankeyFanout
import FlowDiscovery.WebFilter

/-!
# The live stream of the web client

`openSankeyStream` keeps one socket to `/ws/sankey`, opens a new one after a drop
and tells the server its filter on each. The filter can change while the socket is
connecting, open, closing or waiting for the timer of the next attempt. Whenever a
socket is open and the server has read all that was sent on it, the server filters
by the filter that the client was given last.
-/
namespace FlowDiscovery.SankeyStream
open Machine PyText PyJson SankeyFanout WebFilter

/-! ## The two parties -/

inductive ReadyState where
  | connecting
  | open
  | closing
  | closed
  deriving DecidableEq

/-- One socket and the handler that serves it. The channel is `sent`, of which the
handler has read the first `processed` texts; what a broken connection loses stays
unread. `filters` belongs to the `ClientState`, which is made after the accept. -/
structure Connection where
  readyState : ReadyState
  sent : List PyStr
  accepted : Bool
  filters : Option Json
  processed : ℕ

/-- The sockets stand newest first, so that `ws` is the head. `timers` holds the
delays of the pending `setTimeout(connect, ...)`. -/
structure State where
  closed : Bool
  currentFilter : WsFilter
  backoffMs : ℕ
  sockets : List Connection
  timers : List ℕ

/-- The user of the handle acts, the browser reports on a socket or fires a timer,
or the handler of a socket takes its next step. A handler that was refused, has
raised or has ended takes no further step. -/
inductive Action where
  | updateFilters (f : WsFilter)
  | close
  | onopen (i : ℕ)
  | onclosing (i : ℕ)
  | onclose (i : ℕ)
  | timer (i : ℕ)
  | accept (i : ℕ)
  | addClient (i : ℕ)
  | receive (i : ℕ)

def Connection.new : Connection := ⟨.connecting, [], false, none, 0⟩

/-- `send` on an open socket; on any other nothing goes out. -/
def Connection.send (c : Connection) (text : PyStr) : Connection :=
  if c.readyState = .open then { c with sent := c.sent ++ [text] } else c

/-- `close` on a socket, or the close frame of the server. -/
def Connection.close (c : Connection) : Connection :=
  match c.readyState with
  | .connecting | .open => { c with readyState := .closing }
  | .closing | .closed => c

/-- One turn of the loop in `ws_sankey`. -/
def Connection.receive (float : Text → Text) (c : Connection) : Connection :=
  match c.filters, c.sent[c.processed]? with
  | some filters, some raw =>
    { c with filters := some (filterAfter float filters raw), processed := c.processed + 1 }
  | _, _ => c

/-- `ClientState(send=_send, filters={})`. -/
def Connection.addClient (c : Connection) : Connection :=
  if c.accepted ∧ c.filters = none then { c with filters := some (.obj []) } else c

def connect (s : State) : State :=
  if s.closed then s else { s with sockets := .new :: s.sockets }

def update (s : State) (i : ℕ) (f : Connection → Connection) : State :=
  { s with sockets := s.sockets.modify i f }

/-- `ws.send`. -/
def send (s : State) (text : PyStr) : State := update s 0 fun ws => ws.send text

/-- The handshake is answered. The callback of socket `i` sends on `ws`. -/
def onopen (s : State) (i : ℕ) : State :=
  match s.sockets[i]? with
  | some c =>
    if c.readyState = .connecting ∧ c.accepted then
      let s := update s i fun c => { c with readyState := .open }
      send { s with backoffMs := 500 } (message s.currentFilter)
    else s
  | none => s

def onclose (s : State) (i : ℕ) : State :=
  match s.sockets[i]? with
  | some c =>
    if c.readyState = .closed then s
    else
      let s := update s i fun c => { c with readyState := .closed }
      { s with
        timers := s.timers ++ [s.backoffMs]
        backoffMs := min (s.backoffMs * 2) 10000 }
  | none => s

def updateFilters (s : State) (f : WsFilter) : State :=
  send { s with currentFilter := f } (message f)

def close (s : State) : State :=
  update { s with closed := true } 0 Connection.close

def step (float : Text → Text) (s : State) : Action → State
  | .updateFilters f => updateFilters s f
  | .close => close s
  | .onopen i => onopen s i
  | .onclosing i => update s i Connection.close
  | .onclose i => onclose s i
  | .timer i => if i < s.timers.length then connect { s with timers := s.timers.eraseIdx i } else s
  | .accept i => update s i fun c => { c with accepted := true }
  | .addClient i => update s i Connection.addClient
  | .receive i => update s i (Connection.receive float)

/-- `openSankeyStream` up to its return. -/
def initial : State := connect ⟨false, .empty, 500, [], []⟩

/-- The filter that an action gives to the client. -/
def Action.filter : Action → Option WsFilter
  | .updateFilters f => some f
  | _ => none

/-- The last filter passed to `updateFilters`, or `{}`. -/
def lastFilter (actions : List Action) : Json :=
  match (actions.filterMap Action.filter).getLast? with
  | some f => f.toJson
  | none => .obj []

/-! ## The server's copy of a filter -/

theorem filterAfter_message (float : Text → Text) (filters : Json) (f : WsFilter) :
    filterAfter float filters (message f) = f.toJson := by
  rw [filterAfter, loads_message]
  simp [Json.lookup]

/-- Once all is read, the handler has the filter of the last text. -/
structure Connection.Synced (c : Connection) : Prop where
  le : c.processed ≤ c.sent.length
  last : ∀ f, c.sent.getLast? = some (message f) → c.processed = c.sent.length →
    c.filters = some f.toJson

lemma Connection.synced_new : Connection.new.Synced :=
  ⟨le_rfl, fun _ h => by cases h⟩

lemma Connection.Synced.send {c : Connection} (h : c.Synced) (text : PyStr) :
    (c.send text).Synced := by
  unfold Connection.send
  split_ifs with hopen
  · have hle := h.le
    refine ⟨?_, fun f _ hdone => ?_⟩
    · simp only [List.length_append, List.length_singleton]
      omega
    · simp only [List.length_append, List.length_singleton] at hdone
      omega
  · exact h

lemma Connection.Synced.receive {c : Connection} (h : c.Synced) (float : Text → Text) :
    (c.receive float).Synced := by
  unfold Connection.receive
  split
  case h_1 filters raw hfilters hraw =>
    have hlt := (List.getElem?_eq_some_iff.mp hraw).1
    refine ⟨hlt, fun f hlast hdone => ?_⟩
    -- the text just read is the last one
    have hraw' : c.sent[c.sent.length - 1]? = some raw := by
      rw [← hraw, ← show c.processed = c.sent.length - 1 by simp at hdone; omega]
    have htext : raw = message f := by
      rw [List.getLast?_eq_getElem?, hraw'] at hlast
      exact Option.some.inj hlast
    rw [htext, filterAfter_message]
  case h_2 => exact h

/-- A change of one connection that opens nothing. -/
structure Quiet (f : Connection → Connection) : Prop where
  synced : ∀ c, c.Synced → (f c).Synced
  readyState : ∀ c, (f c).readyState = c.readyState ∨
    (c.readyState ≠ .closed ∧ (f c).readyState = .closing) ∨ (f c).readyState = .closed

lemma Quiet.closed {f : Connection → Connection} (hf : Quiet f) {c : Connection}
    (h : c.readyState = .closed) : (f c).readyState = .closed := by
  rcases hf.readyState c with hstate | hstate | hstate
  · rw [hstate, h]
  · exact absurd h hstate.1
  · exact hstate

lemma Quiet.open {f : Connection → Connection} (hf : Quiet f) {c : Connection}
    (h : (f c).readyState = .open) : c.readyState = .open := by
  rcases hf.readyState c with hstate | hstate | hstate
  · rw [← hstate, h]
  · rw [h] at hstate
    cases hstate.2
  · rw [h] at hstate
    cases hstate

lemma quiet_send (text : PyStr) : Quiet fun c => c.send text where
  synced c h := h.send text
  readyState c := by unfold Connection.send; split_ifs <;> exact .inl rfl

lemma quiet_close : Quiet Connection.close where
  synced c h := by
    unfold Connection.close
    split
    · exact ⟨h.le, h.last⟩
    · exact ⟨h.le, h.last⟩
    · exact h
    · exact h
  readyState c := by
    unfold Connection.close
    split
    case h_1 hstate => exact .inr (.inl ⟨by simp [hstate], rfl⟩)
    case h_2 hstate => exact .inr (.inl ⟨by simp [hstate], rfl⟩)
    case h_3 => exact .inl rfl
    case h_4 => exact .inl rfl

lemma quiet_onclose : Quiet fun c => { c with readyState := .closed } :=
  ⟨fun _ h => ⟨h.le, h.last⟩, fun _ => .inr (.inr rfl)⟩

lemma quiet_accept : Quiet fun c => { c with accepted := true } :=
  ⟨fun _ h => ⟨h.le, h.last⟩, fun _ => .inl rfl⟩

lemma quiet_addClient : Quiet Connection.addClient where
  synced c h := by
    unfold Connection.addClient
    split_ifs with hnew
    · refine ⟨h.le, fun f hlast hdone => ?_⟩
      have hfilters := h.last f hlast hdone
      rw [hnew.2] at hfilters
      cases hfilters
    · exact h
  readyState c := by unfold Connection.addClient; split_ifs <;> exact .inl rfl

lemma quiet_receive (float : Text → Text) : Quiet (Connection.receive float) where
  synced c h := h.receive float
  readyState c := by unfold Connection.receive; split <;> exact .inl rfl

/-! ## The invariant -/

/-- At most one socket is not closed, the newest, and only while no timer is
pending. After `close` none is open or about to be. -/
structure Core (s : State) : Prop where
  old : ∀ c ∈ s.sockets.tail, c.readyState = .closed
  single : s.timers = [] ∨ s.timers.length = 1 ∧ ∀ c ∈ s.sockets, c.readyState = .closed
  synced : ∀ c ∈ s.sockets, c.Synced
  shut : s.closed → ∀ c ∈ s.sockets, c.readyState = .closing ∨ c.readyState = .closed

/-- An open socket was told the current filter last. -/
structure Inv (s : State) : Prop extends Core s where
  told : ∀ c ∈ s.sockets, c.readyState = .open → c.sent.getLast? = some (message s.currentFilter)

lemma inv_initial : Inv initial where
  old := by simp [initial, connect]
  single := .inl rfl
  synced := by simp [initial, connect, Connection.synced_new]
  told := by simp [initial, connect, Connection.new]
  shut := by simp [initial, connect]

lemma mem_modify {f : Connection → Connection} {cs : List Connection} {i : ℕ} {c : Connection}
    (h : c ∈ cs.modify i f) : c ∈ cs ∨ ∃ c' ∈ cs, c = f c' := by
  obtain ⟨j, hj⟩ := List.mem_iff_getElem?.mp h
  rw [List.getElem?_modify] at hj
  obtain ⟨c', hc', rfl⟩ := Option.map_eq_some_iff.mp hj
  split_ifs with hij
  · exact .inr ⟨c', List.mem_of_getElem? hc', rfl⟩
  · exact .inl (List.mem_of_getElem? hc')

section

variable {s : State}

lemma Core.update (h : Core s) {f : Connection → Connection} (hf : Quiet f) (i : ℕ) :
    Core (update s i f) where
  old c hc := by
    cases i with
    | zero =>
      have htail : (s.sockets.modify 0 f).tail = s.sockets.tail := by
        cases s.sockets <;> simp
      exact h.old c (htail ▸ hc)
    | succ i =>
      have htail : (s.sockets.modify (i + 1) f).tail = s.sockets.tail.modify i f := by
        cases s.sockets <;> simp
      rcases mem_modify (htail ▸ hc) with hc | ⟨c', hc', rfl⟩
      · exact h.old c hc
      · exact hf.closed (h.old c' hc')
  single := by
    rcases h.single with hnone | ⟨hone, hclosed⟩
    · exact .inl hnone
    · refine .inr ⟨hone, fun c hc => ?_⟩
      rcases mem_modify hc with hc | ⟨c', hc', rfl⟩
      · exact hclosed c hc
      · exact hf.closed (hclosed c' hc')
  synced c hc := by
    rcases mem_modify hc with hc | ⟨c', hc', rfl⟩
    · exact h.synced c hc
    · exact hf.synced c' (h.synced c' hc')
  shut hclosed c hc := by
    rcases mem_modify hc with hc | ⟨c', hc', rfl⟩
    · exact h.shut hclosed c hc
    · rcases hf.readyState c' with hstate | hstate | hstate
      · rw [hstate]
        exact h.shut hclosed c' hc'
      · exact .inl hstate.2
      · exact .inr hstate

/-- A quiet change that sends nothing keeps the invariant. -/
lemma Inv.update (h : Inv s) {f : Connection → Connection} (hf : Quiet f)
    (hsent : ∀ c, (f c).sent = c.sent) (i : ℕ) : Inv (update s i f) where
  toCore := h.toCore.update hf i
  told c hc hopen := by
    rcases mem_modify hc with hc | ⟨c', hc', rfl⟩
    · exact h.told c hc hopen
    · rw [hsent]
      exact h.told c' hc' (hf.open hopen)

/-- What was sent before is made up for by sending the current filter. -/
lemma Core.send_current (h : Core s) : Inv (send s (message s.currentFilter)) where
  toCore := h.update (quiet_send _) 0
  told c hc hopen := by
    cases hs : s.sockets with
    | nil => simp [send, SankeyStream.update, hs] at hc
    | cons ws rest =>
      simp only [send, SankeyStream.update, hs, List.modify_zero_cons, List.mem_cons] at hc
      rcases hc with rfl | hc
      · have hws := (quiet_send _).open hopen
        simp [Connection.send, hws, send, SankeyStream.update]
      · have hclosed := h.old c (by simpa [hs] using hc)
        rw [hclosed] at hopen
        cases hopen

/-- A socket that is not closed is `ws`, and no timer is pending. -/
lemma Core.live (h : Core s) {i : ℕ} {c : Connection} (hc : s.sockets[i]? = some c)
    (hlive : c.readyState ≠ .closed) : i = 0 ∧ s.timers = [] := by
  constructor
  · cases i with
    | zero => rfl
    | succ i =>
      rw [← List.getElem?_tail] at hc
      exact absurd (h.old c (List.mem_of_getElem? hc)) hlive
  · rcases h.single with hnone | ⟨_, hclosed⟩
    · exact hnone
    · exact absurd (hclosed c (List.mem_of_getElem? hc)) hlive

lemma Inv.updateFilters (h : Inv s) (f : WsFilter) : Inv (updateFilters s f) :=
  Core.send_current ⟨h.old, h.single, h.synced, h.shut⟩

lemma Inv.close (h : Inv s) : Inv (close s) := by
  have hquiet := h.update quiet_close (fun c => by unfold Connection.close; split <;> rfl) 0
  refine ⟨⟨hquiet.old, hquiet.single, hquiet.synced, fun _ c hc => ?_⟩, hquiet.told⟩
  cases hs : s.sockets with
  | nil => simp [SankeyStream.close, SankeyStream.update, hs] at hc
  | cons ws rest =>
    simp only [SankeyStream.close, SankeyStream.update, hs, List.modify_zero_cons,
      List.mem_cons] at hc
    rcases hc with rfl | hc
    · unfold Connection.close
      split
      · exact .inl rfl
      · exact .inl rfl
      · exact .inl ‹_›
      · exact .inr ‹_›
    · exact .inr (h.old c (by simpa [hs] using hc))

lemma Inv.onopen (h : Inv s) (i : ℕ) : Inv (onopen s i) := by
  unfold SankeyStream.onopen
  split
  case h_2 => exact h
  case h_1 c hc =>
    split_ifs with hready
    · obtain ⟨rfl, htimers⟩ := h.live hc (by simp [hready.1])
      obtain ⟨rest, hs⟩ : ∃ rest, s.sockets = c :: rest := by
        cases hs : s.sockets with
        | nil => simp [hs] at hc
        | cons ws rest =>
          simp only [hs, List.getElem?_cons_zero, Option.some.injEq] at hc
          exact ⟨rest, by rw [hc]⟩
      refine Core.send_current ⟨?_, .inl htimers, ?_, fun hclosed => ?_⟩
      · simpa [SankeyStream.update, hs] using h.old
      · have hsynced := h.synced
        simp only [SankeyStream.update, hs, List.modify_zero_cons, List.forall_mem_cons] at hsynced ⊢
        exact ⟨⟨hsynced.1.le, hsynced.1.last⟩, hsynced.2⟩
      · -- `close` would have left no socket connecting
        have hshut := h.shut hclosed c (by simp [hs])
        rw [hready.1] at hshut
        simp at hshut
    · exact h

lemma Inv.onclose (h : Inv s) (i : ℕ) : Inv (onclose s i) := by
  unfold SankeyStream.onclose
  split
  case h_2 => exact h
  case h_1 c hc =>
    split_ifs with hstate
    · exact h
    · obtain ⟨rfl, htimers⟩ := h.live hc hstate
      have hquiet := h.update quiet_onclose (fun _ => rfl) 0
      refine ⟨⟨hquiet.old, .inr ⟨by simp [SankeyStream.update, htimers], ?_⟩, hquiet.synced,
        hquiet.shut⟩, hquiet.told⟩
      -- the newest socket was the only one left
      have hold := h.old
      intro c' hc'
      cases hs : s.sockets with
      | nil => simp [hs] at hc
      | cons ws rest =>
        simp only [SankeyStream.update, hs, List.modify_zero_cons, List.mem_cons] at hc'
        rcases hc' with rfl | hc'
        · rfl
        · exact hold c' (by simpa [hs] using hc')

lemma Inv.timer (h : Inv s) {i : ℕ} (hi : i < s.timers.length) :
    Inv (connect { s with timers := s.timers.eraseIdx i }) := by
  rcases h.single with hnone | ⟨hone, hclosed⟩
  · simp [hnone] at hi
  · have htimers : s.timers.eraseIdx i = [] := by
      rw [← List.length_eq_zero_iff, List.length_eraseIdx, if_pos hi]
      omega
    unfold connect
    split_ifs with hshut
    · exact ⟨⟨h.old, .inl htimers, h.synced, h.shut⟩, h.told⟩
    · refine ⟨⟨hclosed, .inl htimers, ?_, fun h' => absurd h' hshut⟩, ?_⟩
      · exact List.forall_mem_cons.mpr ⟨Connection.synced_new, h.synced⟩
      · exact List.forall_mem_cons.mpr ⟨nofun, h.told⟩

end

theorem step_inv (float : Text → Text) (s : State) (a : Action) (h : Inv s) :
    Inv (step float s a) := by
  cases a with
  | updateFilters f => exact h.updateFilters f
  | close => exact h.close
  | onopen i => exact h.onopen i
  | onclosing i =>
    exact h.update quiet_close (fun c => by unfold Connection.close; split <;> rfl) i
  | onclose i => exact h.onclose i
  | timer i =>
    rw [step]
    split_ifs with hi
    · exact h.timer hi
    · exact h
  | accept i => exact h.update quiet_accept (fun _ => rfl) i
  | addClient i =>
    exact h.update quiet_addClient (fun c => by unfold Connection.addClient; split_ifs <;> rfl) i
  | receive i =>
    exact h.update (quiet_receive float) (fun c => by unfold Connection.receive; split <;> rfl) i

/-! ## Agreement of the two parties -/

section

variable (float : Text → Text)

lemma step_currentFilter (s : State) (a : Action) :
    (step float s a).currentFilter = a.filter.getD s.currentFilter := by
  cases a with
  | onopen i =>
    simp only [step, onopen, Action.filter, Option.getD_none]
    split
    · split_ifs <;> rfl
    · rfl
  | onclose i =>
    simp only [step, onclose, Action.filter, Option.getD_none]
    split
    · split_ifs <;> rfl
    · rfl
  | timer i =>
    simp only [step, connect, Action.filter, Option.getD_none]
    split_ifs <;> rfl
  | _ => rfl

lemma run_currentFilter (s : State) (actions : List Action) :
    (run (step float) s actions).currentFilter =
      ((actions.filterMap Action.filter).getLast?).getD s.currentFilter := by
  induction actions generalizing s with
  | nil => rfl
  | cons a rest ih =>
    rw [run_cons, ih, step_currentFilter]
    cases hf : a.filter with
    | none => simp [hf]
    | some f => simp [hf, List.getLast?_cons]

lemma lastFilter_eq (actions : List Action) :
    lastFilter actions = (run (step float) initial actions).currentFilter.toJson := by
  rw [run_currentFilter, lastFilter]
  cases (actions.filterMap Action.filter).getLast? with
  | none => rfl
  | some f => rfl

/-- Closing is for good: no socket is added. -/
lemma step_closed (s : State) (a : Action) (h : s.closed) :
    (step float s a).closed ∧ (step float s a).sockets.length = s.sockets.length := by
  cases a with
  | onopen i =>
    simp only [step, onopen]
    split
    · split_ifs <;> simp [send, update, h]
    · exact ⟨h, rfl⟩
  | onclose i =>
    simp only [step, onclose]
    split
    · split_ifs <;> simp [update, h]
    · exact ⟨h, rfl⟩
  | timer i =>
    simp only [step, connect]
    split_ifs <;> simp [h]
  | _ => simp [step, updateFilters, close, send, update, h]

lemma run_closed {s : State} (h : s.closed) (actions : List Action) :
    (run (step float) s actions).closed ∧
      (run (step float) s actions).sockets.length = s.sockets.length := by
  refine run_relation (R := fun s t => s.closed → t.closed ∧ t.sockets.length = s.sockets.length)
    (fun _ h => ⟨h, rfl⟩) (fun s t u hst htu h => ?_) (step_closed float) s actions h
  obtain ⟨ht, hlen⟩ := hst h
  obtain ⟨hu, hlen'⟩ := htu ht
  exact ⟨hu, hlen'.trans hlen⟩

/-- The server filters an open connection by the last filter that the client was
given, and `close` opens none. -/
theorem open_filters_eq_last (actions : List Action) :
    (∀ c ∈ (run (step float) initial actions).sockets, c.readyState = .open →
      c.processed = c.sent.length → c.filters = some (lastFilter actions)) ∧
    ∀ before after, actions = before ++ .close :: after →
      (run (step float) initial actions).sockets.length =
        (run (step float) initial before).sockets.length ∧
      ∀ c ∈ (run (step float) initial actions).sockets, c.readyState ≠ .open := by
  have hinv := run_invariant (step_inv float) inv_initial actions
  refine ⟨fun c hc hopen hdone => ?_, fun before after hactions => ?_⟩
  · rw [lastFilter_eq float]
    exact (hinv.synced c hc).last _ (hinv.told c hc hopen) hdone
  · have hrun : run (step float) initial actions =
        run (step float) (close (run (step float) initial before)) after := by
      rw [hactions, run_append, run_cons]
      rfl
    have hlast := run_closed float (s := close (run (step float) initial before)) rfl after
    rw [← hrun] at hlast
    refine ⟨hlast.2.trans (by simp [close, update]), fun c hc hopen => ?_⟩
    have hshut := hinv.shut hlast.1 c hc
    rw [hopen] at hshut
    simp at hshut

/-- A filter set between a drop and the timer is in force on the next connection. -/
theorem open_filters_eq_last_reconnect :
    let f : WsFilter := { WsFilter.empty with denyOnly := some true, proto_lt := by simp [WsFilter.empty] }
    let actions : List Action := [.accept 0, .onopen 0, .onclose 0, .updateFilters f, .timer 0,
      .accept 0, .onopen 0, .addClient 0, .receive 0]
    (∃ c ∈ (run (step id) initial actions).sockets,
      c.readyState = .open ∧ c.processed = c.sent.length ∧ c.filters = some (lastFilter actions)) ∧
    (run (step id) initial (actions ++ [.close])).sockets.length = 2 := by
  intro f actions
  have hmem : ∀ c, (run (step id) initial actions).sockets.head? = some c →
      c ∈ (run (step id) initial actions).sockets := fun c => List.mem_of_mem_head?
  refine ⟨⟨_, hmem _ rfl, rfl, rfl, (open_filters_eq_last id actions).1 _ (hmem _ rfl) rfl rfl⟩, ?_⟩
  exact ((open_filters_eq_last id (actions ++ [.close])).2 actions [] rfl).1

end

end FlowDiscovery.SankeyStream
