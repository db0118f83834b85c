import FlowDiscovery.DeltaWire

/-!
# The live view: a key and a channel

The publisher writes each delta under the key of the live view and then to the channel.
Either call can fail, and a failure is logged and forgotten. A message reaches the
fanout or is lost; the fanout sends it to one client after the other, while clients come
and go. Whatever happens, a live read returns the last delta that was kept, and what
each client was sent are kept deltas in their order. So a read is never behind a client.

One publisher and one process of the API are modelled.
-/
namespace FlowDiscovery.LiveFeed
open PyText PyJson Machine EventJson DeltaWire
open SankeyFanout (Attempt filtered)

/-- Where `_publish` is suspended; `stopped` when a delta could not be serialised, which
ends the task. -/
inductive Writer where
  | idle
  | setting (delta : SankeyDelta) (text : PyStr)
  | publishing (delta : SankeyDelta) (text : PyStr)
  | stopped

/-- `last` is the value of the key. `built` and `kept` are histories: the deltas given to
`_publish` and those written under the key. -/
structure State where
  writer : Writer
  last : Option PyStr
  fanout : SankeyFanout.State
  built : List SankeyDelta
  kept : List SankeyDelta

/-- The fanout acts as in its own model, but receives what the publisher sends. -/
inductive Action where
  | build (delta : SankeyDelta)
  | set (reply : Reply)
  | publish (delivered : Bool)
  | connect
  | message (client : ℕ) (raw : PyStr)
  | disconnect (client : ℕ)
  | receive
  | sendDone (ok : Bool)

def initial : State := ⟨.idle, none, SankeyFanout.initial, [], []⟩

section

variable (iso : IsoText) (float : Text → Text) (str : Json → PyStr)

/-- `_publish` up to its first call. -/
def build (s : State) (delta : SankeyDelta) : State :=
  match s.writer with
  | .idle =>
    { s with
      writer :=
        match serialize iso delta with
        | some text => .setting delta text
        | none => .stopped
      built := s.built ++ [delta] }
  | _ => s

/-- `redis.set("sankey.last", …)` ends. -/
def set (s : State) (reply : Reply) : State :=
  match s.writer with
  | .setting delta text =>
    match reply with
    | .stored =>
      { s with writer := .publishing delta text, last := some text, kept := s.kept ++ [delta] }
    | .refused => { s with writer := .idle }
    | .lost => { s with writer := .idle, last := some text, kept := s.kept ++ [delta] }
  | _ => s

/-- `redis.publish` ends. Only a subscriber that listens gets the message. -/
def publish (s : State) (delivered : Bool) : State :=
  match s.writer with
  | .publishing delta _ =>
    { s with
      writer := .idle
      fanout := if delivered then SankeyFanout.step float str s.fanout (.publish delta) else s.fanout }
  | _ => s

def step (s : State) : Action → State
  | .build delta => build iso s delta
  | .set reply => set s reply
  | .publish delivered => publish float str s delivered
  | .connect => { s with fanout := SankeyFanout.step float str s.fanout .connect }
  | .message client raw => { s with fanout := SankeyFanout.step float str s.fanout (.message client raw) }
  | .disconnect client => { s with fanout := SankeyFanout.step float str s.fanout (.disconnect client) }
  | .receive => { s with fanout := SankeyFanout.step float str s.fanout .receive }
  | .sendDone ok => { s with fanout := SankeyFanout.step float str s.fanout (.sendDone ok) }

/-- A live read: the decoded value of the key. -/
def liveRead (s : State) : Option Json := s.last.bind (loads float)

/-- The deltas that were sent to one client. -/
def sentTo (s : SankeyFanout.State) (client : ℕ) : List SankeyDelta :=
  entriesOf client (s.attempts.map fun a => (a.client, a.delta))

/-- A live read decodes the last delta kept. Kept deltas were built, what the fanout was
sent was kept, and what a client was sent had been published to the fanout, all in order
and once. The text of each send is that of the filtered delta. -/
structure Consistent (s : State) : Prop where
  key : liveRead float s = s.kept.getLast?.map fun delta => .obj (deltaMembers iso delta)
  kept : s.kept.Sublist s.built
  published : s.fanout.published.Sublist s.kept
  clients : ∀ client, (sentTo s.fanout client).Sublist s.fanout.published
  texts : ∀ a ∈ s.fanout.attempts, ∃ message text, serialize iso a.delta = some message ∧
    serialize iso a.payload = some text ∧
    dispatchText float str a.filters message = some (some text)

end

/-! ## The fanout in any run -/

section

variable (str : Json → PyStr)

/-- Sends happen in the order in which they are owed, also in a run in which a filter
raises: then the rest is never sent. -/
structure InTurn (f : SankeyFanout.State) : Prop where
  received : f.published = f.dispatched.map Prod.fst ++ f.inbox
  sent : ((f.attempts.map fun a => (a.delta, a.client)) ++ SankeyFanout.pending f).Sublist
    (SankeyFanout.owed f.dispatched)
  known : ∀ client ∈ f.registered, client < f.filters.length
  single : f.registered.Nodup
  once : ∀ d ∈ f.dispatched, d.2.Nodup
  computed : ∀ a ∈ f.attempts, filtered str a.filters a.delta = some a.payload

variable {str} {f : SankeyFanout.State}

/-- Serving the clients that are still owed the delta. -/
lemma InTurn.serve {client : ℕ} {delta : SankeyDelta} {rest : List ℕ}
    (h : InTurn str { f with task := .sending client delta rest }) :
    InTurn str (SankeyFanout.serve str f delta rest) := by
  have hsent := h.sent
  simp only [SankeyFanout.pending] at hsent
  cases rest with
  | nil => exact ⟨h.received, hsent, h.known, h.single, h.once, h.computed⟩
  | cons next rest =>
    cases hpayload : filtered str (SankeyFanout.filtersOf f next) delta with
    | none =>
      -- the filter raises: this client and the rest get nothing
      simp only [SankeyFanout.serve, hpayload]
      refine ⟨h.received, ?_, h.known, h.single, h.once, h.computed⟩
      exact ((List.nil_sublist _).append_left _).trans hsent
    | some payload =>
      simp only [SankeyFanout.serve, hpayload]
      refine ⟨h.received, ?_, h.known, h.single, h.once, fun a ha => ?_⟩
      · simpa [SankeyFanout.pending] using hsent
      · rcases List.mem_append.mp ha with ha | ha
        · exact h.computed a ha
        · obtain rfl := List.mem_singleton.mp ha
          exact hpayload

lemma InTurn.removeClient (h : InTurn str f) (client : ℕ) :
    InTurn str (SankeyFanout.removeClient f client) where
  received := h.received
  sent := h.sent
  known c hc := h.known c (List.mem_of_mem_filter hc)
  single := h.single.filter _
  once := h.once
  computed := h.computed

lemma InTurn.receive (h : InTurn str f) : InTurn str (SankeyFanout.receive str f) := by
  unfold SankeyFanout.receive
  split
  · next delta inbox htask hinbox =>
    refine @InTurn.serve _ _ 0 _ _ ?_
    have hsent := h.sent
    simp only [SankeyFanout.pending, htask, List.append_nil] at hsent
    refine ⟨?_, ?_, h.known, h.single, fun d hd => ?_, h.computed⟩
    · rw [h.received, hinbox]
      simp
    · simpa [SankeyFanout.pending, SankeyFanout.owed] using hsent
    · rcases List.mem_append.mp hd with hd | hd
      · exact h.once d hd
      · obtain rfl := List.mem_singleton.mp hd
        exact h.single
  · exact h

lemma InTurn.sendDone (h : InTurn str f) (ok : Bool) :
    InTurn str (SankeyFanout.sendDone str f ok) := by
  unfold SankeyFanout.sendDone
  split
  · next client delta rest htask =>
    have hresume : { f with task := .sending client delta rest } = f := by rw [← htask]
    refine @InTurn.serve _ _ client _ _ ?_
    cases ok with
    | true => exact hresume ▸ h
    | false => exact InTurn.removeClient (hresume.symm ▸ h) client
  · exact h

theorem InTurn.step (h : InTurn str f) (float : Text → Text) (action : SankeyFanout.Action) :
    InTurn str (SankeyFanout.step float str f action) := by
  cases action with
  | connect =>
    refine ⟨h.received, h.sent, fun c hc => ?_, ?_, h.once, h.computed⟩
    · simp only [SankeyFanout.step, SankeyFanout.connect, List.mem_append, List.mem_singleton,
        List.length_append, List.length_singleton] at hc ⊢
      rcases hc with hc | rfl
      · exact Nat.lt_succ_of_lt (h.known c hc)
      · exact Nat.lt_succ_self _
    · -- a new client has a number that no other has
      refine h.single.append (List.nodup_singleton _) ?_
      intro c hc hnew
      obtain rfl := List.mem_singleton.mp hnew
      exact Nat.lt_irrefl _ (h.known _ hc)
  | message client raw =>
    refine ⟨h.received, h.sent, fun c hc => ?_, h.single, h.once, h.computed⟩
    simpa [SankeyFanout.step, SankeyFanout.receiveText] using h.known c hc
  | disconnect client =>
    simp only [SankeyFanout.step]
    split_ifs
    · exact h.removeClient client
    · exact h
  | publish delta =>
    refine ⟨?_, h.sent, h.known, h.single, h.once, h.computed⟩
    simp [SankeyFanout.step, h.received]
  | receive => exact h.receive
  | sendDone ok => exact h.sendDone ok

lemma inTurn_initial : InTurn str SankeyFanout.initial :=
  ⟨rfl, by simp [SankeyFanout.initial, SankeyFanout.pending], by simp [SankeyFanout.initial],
    List.nodup_nil, by simp [SankeyFanout.initial], by simp [SankeyFanout.initial]⟩

/-- Of one delta, a client is owed as many copies as it is listed. -/
lemma entriesOf_clients (client : ℕ) (delta : SankeyDelta) (clients : List ℕ) :
    entriesOf client (clients.map fun c => (c, delta)) =
      List.replicate (clients.count client) delta := by
  induction clients with
  | nil => rfl
  | cons c rest ih =>
    rw [List.map_cons, List.count_cons, ← List.singleton_append, entriesOf_append, ih,
      entriesOf_singleton]
    by_cases hc : c = client <;> simp [hc, List.replicate_succ]

lemma entriesOf_owed (client : ℕ) {dispatched : List (SankeyDelta × List ℕ)}
    (h : ∀ d ∈ dispatched, d.2.Nodup) :
    (entriesOf client ((SankeyFanout.owed dispatched).map Prod.swap)).Sublist
      (dispatched.map Prod.fst) := by
  induction dispatched with
  | nil => exact List.Sublist.refl _
  | cons d rest ih =>
    have hcount : d.2.count client ≤ 1 :=
      List.nodup_iff_count_le_one.mp (h d List.mem_cons_self) client
    have hd : (entriesOf client (d.2.map fun c => (c, d.1))).Sublist [d.1] := by
      rw [entriesOf_clients]
      exact (List.replicate_sublist_replicate d.1).mpr hcount
    have hrest := ih fun d' hd' => h d' (List.mem_cons_of_mem d hd')
    have happ := hd.append hrest
    rw [SankeyFanout.owed] at hrest happ ⊢
    simpa [Function.comp_def] using happ

/-- What a client is sent was published, in the same order, each delta at most once. -/
lemma InTurn.sentTo_sublist (h : InTurn str f) (client : ℕ) :
    (sentTo f client).Sublist f.published := by
  have hsent : (f.attempts.map fun a => (a.delta, a.client)).Sublist
      (SankeyFanout.owed f.dispatched) := (List.sublist_append_left _ _).trans h.sent
  have hswap := entriesOf_sublist client (hsent.map Prod.swap)
  rw [List.map_map] at hswap
  rw [h.received]
  exact (hswap.trans (entriesOf_owed client h.once)).trans (List.sublist_append_left _ _)

end

/-! ## The publisher -/

section

variable (iso : IsoText) (float : Text → Text) (str : Json → PyStr)

/-- A delta on its way: before `SET` it is the last one built, and before `PUBLISH`
also the last one kept. -/
def OnTheWay (s : State) : Prop :=
  match s.writer with
  | .idle | .stopped => s.kept.Sublist s.built ∧ s.fanout.published.Sublist s.kept
  | .setting delta text => serialize iso delta = some text ∧
      (s.kept ++ [delta]).Sublist s.built ∧ s.fanout.published.Sublist s.kept
  | .publishing delta text => serialize iso delta = some text ∧ s.kept.Sublist s.built ∧
      (s.fanout.published ++ [delta]).Sublist s.kept

structure Sound (s : State) : Prop where
  onTheWay : OnTheWay iso s
  value : s.last = s.kept.getLast?.bind (serialize iso)
  texts : ∀ delta ∈ s.kept, (serialize iso delta).isSome
  inTurn : InTurn str s.fanout

variable {iso float str} {s : State}

lemma Sound.kept_sublist (h : Sound iso str s) : s.kept.Sublist s.built := by
  have hway := h.onTheWay
  unfold OnTheWay at hway
  split at hway
  · exact hway.1
  · exact hway.1
  · exact (List.sublist_append_left _ _).trans hway.2.1
  · exact hway.2.1

lemma Sound.published_sublist (h : Sound iso str s) : s.fanout.published.Sublist s.kept := by
  have hway := h.onTheWay
  unfold OnTheWay at hway
  split at hway
  · exact hway.2
  · exact hway.2
  · exact hway.2.2
  · exact (List.sublist_append_left _ _).trans hway.2.2

lemma Sound.build (h : Sound iso str s) (delta : SankeyDelta) :
    Sound iso str (build iso s delta) := by
  unfold LiveFeed.build
  split
  · have hkept := h.kept_sublist
    refine ⟨?_, h.value, h.texts, h.inTurn⟩
    cases htext : serialize iso delta with
    | none => exact ⟨hkept.trans (List.sublist_append_left _ _), h.published_sublist⟩
    | some text => exact ⟨htext, hkept.append_right _, h.published_sublist⟩
  · exact h

/-- The key holds the new delta, whether or not the answer arrived. -/
lemma Sound.stored (h : Sound iso str s) {delta : SankeyDelta} {text : PyStr}
    (htext : serialize iso delta = some text) {writer : Writer}
    (hway : OnTheWay iso { s with writer, last := some text, kept := s.kept ++ [delta] }) :
    Sound iso str { s with writer, last := some text, kept := s.kept ++ [delta] } where
  onTheWay := hway
  value := by simp [htext]
  texts d hd := by
    rcases List.mem_append.mp hd with hd | hd
    · exact h.texts d hd
    · rw [List.mem_singleton.mp hd, htext]
      rfl
  inTurn := h.inTurn

lemma Sound.set (h : Sound iso str s) (reply : Reply) : Sound iso str (set s reply) := by
  unfold LiveFeed.set
  split
  · next delta text hwriter =>
    have hway := h.onTheWay
    rw [OnTheWay, hwriter] at hway
    obtain ⟨htext, hbuilt, hpublished⟩ := hway
    cases reply with
    | stored => exact h.stored htext ⟨htext, hbuilt, hpublished.append_right _⟩
    | refused =>
      refine ⟨?_, h.value, h.texts, h.inTurn⟩
      exact ⟨(List.sublist_append_left _ _).trans hbuilt, hpublished⟩
    | lost => exact h.stored htext ⟨hbuilt, hpublished.trans (List.sublist_append_left _ _)⟩
  · exact h

lemma Sound.publish (h : Sound iso str s) (delivered : Bool) :
    Sound iso str (publish float str s delivered) := by
  unfold LiveFeed.publish
  split
  · next delta text hwriter =>
    have hway := h.onTheWay
    rw [OnTheWay, hwriter] at hway
    cases delivered with
    | true => exact ⟨⟨hway.2.1, hway.2.2⟩, h.value, h.texts, h.inTurn.step float (.publish delta)⟩
    | false =>
      refine ⟨⟨hway.2.1, ?_⟩, h.value, h.texts, h.inTurn⟩
      exact (List.sublist_append_left _ _).trans hway.2.2
  · exact h

/-- Whatever else the fanout does, it publishes nothing itself. -/
lemma Sound.fanout (h : Sound iso str s) {action : SankeyFanout.Action}
    (hpublished : (SankeyFanout.step float str s.fanout action).published = s.fanout.published) :
    Sound iso str { s with fanout := SankeyFanout.step float str s.fanout action } := by
  refine ⟨?_, h.value, h.texts, h.inTurn.step float action⟩
  have hway := h.onTheWay
  unfold OnTheWay at hway ⊢
  simpa only [hpublished] using hway

lemma serve_published (f : SankeyFanout.State) (delta : SankeyDelta) (clients : List ℕ) :
    (SankeyFanout.serve str f delta clients).published = f.published := by
  unfold SankeyFanout.serve
  split
  · rfl
  · split <;> rfl

theorem Sound.step (h : Sound iso str s) (action : Action) :
    Sound iso str (step iso float str s action) := by
  cases action with
  | build delta => exact h.build delta
  | set reply => exact h.set reply
  | publish delivered => exact h.publish delivered
  | connect => exact h.fanout rfl
  | message client raw => exact h.fanout rfl
  | disconnect client =>
    refine h.fanout ?_
    simp only [SankeyFanout.step]
    split_ifs <;> rfl
  | receive =>
    refine h.fanout ?_
    simp only [SankeyFanout.step, SankeyFanout.receive]
    split
    · exact serve_published _ _ _
    · rfl
  | sendDone ok =>
    refine h.fanout ?_
    simp only [SankeyFanout.step, SankeyFanout.sendDone]
    split
    · rw [serve_published]
      cases ok <;> rfl
    · rfl

lemma sound_initial : Sound iso str initial :=
  ⟨⟨List.Sublist.refl _, List.Sublist.refl _⟩, rfl, by simp [initial], inTurn_initial⟩

lemma mem_sentTo {f : SankeyFanout.State} {a : Attempt} (ha : a ∈ f.attempts) :
    a.delta ∈ sentTo f a.client :=
  List.mem_filterMap.mpr ⟨(a.client, a.delta), List.mem_map_of_mem ha, if_pos rfl⟩

lemma Sound.consistent (h : Sound iso str s) : Consistent iso float str s where
  key := by
    rw [liveRead, h.value]
    cases hlast : s.kept.getLast? with
    | none => rfl
    | some delta =>
      obtain ⟨text, htext⟩ :=
        Option.isSome_iff_exists.mp (h.texts delta (List.mem_of_getLast? hlast))
      simp only [Option.bind_some, htext, Option.map_some]
      exact loads_dumps float true (plain_delta iso delta) htext
  kept := h.kept_sublist
  published := h.published_sublist
  clients client := h.inTurn.sentTo_sublist client
  texts a ha := by
    have hmem : a.delta ∈ s.kept :=
      ((h.inTurn.sentTo_sublist a.client).trans h.published_sublist).subset (mem_sentTo ha)
    have hpayload := h.inTurn.computed a ha
    have hsome := h.texts a.delta hmem
    obtain ⟨message, hmessage⟩ := Option.isSome_iff_exists.mp hsome
    obtain ⟨text, htext⟩ :=
      Option.isSome_iff_exists.mp (serialize_filtered str iso hsome hpayload)
    refine ⟨message, text, hmessage, htext, ?_⟩
    rw [dispatchText_serialize str iso float a.filters hmessage, hpayload, Option.map_some, htext]

end

/-- For every order of the publisher's calls, their failures, lost messages, clients that
come, go, set filters and fail, and filters that end the fanout. -/
theorem live_view_consistent (iso : IsoText) (float : Text → Text) (str : Json → PyStr)
    (schedule : List Action) :
    Consistent iso float str (run (step iso float str) initial schedule) := by
  have hsound : Sound iso str (run (step iso float str) initial schedule) :=
    run_invariant (I := Sound iso str) (fun _ action h => h.step action) sound_initial schedule
  exact hsound.consistent

end FlowDiscovery.LiveFeed
