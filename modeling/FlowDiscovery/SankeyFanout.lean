import FlowDiscovery.Machine
import FlowDiscovery.PyIpaddress
import FlowDiscovery.PyJson
import FlowDiscovery.SankeyPublisher

/-!
# Live deltas to the connected clients

One task receives the deltas and sends each of them to all registered clients in
turn, filtered for each. A filter is whatever JSON value the client sent last.
Only the send is guarded: a filter that is not an object raises in `matches`, and
that ends the task for every client. While each filter is an object when its turn
comes, every client gets every delta.
-/
namespace FlowDiscovery.SankeyFanout
open Machine PyText PyIpaddress PyJson

/-! ## Filters -/

/-- `link["src"].removeprefix("ip:")`. -/
def sourceText (link : Link) : Text :=
  let src := link.src.toList
  if "ip:".toList.isPrefixOf src then src.drop 3 else src

/-- A code point as a character. A surrogate becomes another character that is
neither a digit nor a separator. -/
def toText (s : PyStr) : Text := s.map Char.ofNat

/-- `ip_network(src_cidr, strict=False)` of a decoded value. The text of a float, a
list or an object is no network. -/
def networkOfJson : Json → Option Network
  | .str s => ipNetwork false (toText s)
  | .int n => ipNetworkOfInt n
  | .bool b => ipNetworkOfInt (if b then 1 else 0)
  | .null | .float _ | .arr _ | .obj _ => none

def inNetwork (cidr : Json) (link : Link) : Bool :=
  (ipAddress (sourceText link)).any fun ip =>
    (networkOfJson cidr).any fun network => network.contains ip

section

/- `str` of a decoded value that is not a string. -/
variable (str : Json → PyStr)

/-- `app:{dst_app}`. -/
def appId : Json → PyStr
  | .str s => ofString "app:" ++ s
  | value => ofString "app:" ++ str value

/-- `ClientState.matches`; `none` is the `AttributeError` of a value without
`get`. -/
def matchesLink (filters : Json) (link : Link) : Option Bool :=
  match filters with
  | .obj fields =>
    let srcCidr := (Json.lookup fields (ofString "src_cidr")).getD .null
    if srcCidr.truthy && !inNetwork srcCidr link then some false
    else
      let dstApp := (Json.lookup fields (ofString "dst_app")).getD .null
      some !(dstApp.truthy && decide (ofString link.dst ≠ appId str dstApp))
  | _ => none

/-- The links of a delta that a client gets. -/
def selectLinks (filters : Json) : List Link → Option (List Link)
  | [] => some []
  | link :: rest => do
    let keep ← matchesLink str filters link
    let kept ← selectLinks filters rest
    return if keep then link :: kept else kept

def filtered (filters : Json) (delta : SankeyDelta) : Option SankeyDelta :=
  (selectLinks str filters delta.links).map fun links => { delta with links }

end

/-! ## The task and the handlers -/

/-- A call of `send`, with the filter it was computed with. -/
structure Attempt where
  client : ℕ
  filters : Json
  delta : SankeyDelta
  payload : SankeyDelta

/-- `_run`: waiting for a message, suspended in a send of `_dispatch` with the
clients still to serve, or ended by an exception. -/
inductive Task where
  | waiting
  | sending (client : ℕ) (delta : SankeyDelta) (rest : List ℕ)
  | stopped
  deriving DecidableEq

/-- Clients are numbered as they connect. `inbox` holds the deltas published and
not yet received. The last four fields record what has happened: all deltas, those
dispatched with the clients at that moment, the calls of `send`, and the clients
that disconnected or failed. -/
structure State where
  filters : List Json
  registered : List ℕ
  inbox : List SankeyDelta
  task : Task
  published : List SankeyDelta
  dispatched : List (SankeyDelta × List ℕ)
  attempts : List Attempt
  gone : List ℕ

inductive Action where
  | connect
  | message (client : ℕ) (raw : PyStr)
  | disconnect (client : ℕ)
  | publish (delta : SankeyDelta)
  | receive
  | sendDone (ok : Bool)

def initial : State := ⟨[], [], [], .waiting, [], [], [], []⟩

def connect (s : State) : State :=
  { s with
    filters := s.filters ++ [.obj []]
    registered := s.registered ++ [s.filters.length] }

/-- `remove_client`. -/
def removeClient (s : State) (client : ℕ) : State :=
  { s with
    registered := s.registered.filter fun c => c ≠ client
    gone := s.gone ++ [client] }

/-- The filter after one text message. Anything but an object with that member
leaves it, be it through an error that is caught. -/
def filterAfter (float : Text → Text) (filters : Json) (raw : PyStr) : Json :=
  match loads float raw with
  | some (.obj fields) => (Json.lookup fields (ofString "filter")).getD filters
  | _ => filters

def receiveText (float : Text → Text) (s : State) (client : ℕ) (raw : PyStr) : State :=
  { s with filters := s.filters.modify client fun filters => filterAfter float filters raw }

def filtersOf (s : State) (client : ℕ) : Json := s.filters.getD client (.obj [])

/-- `_dispatch` from the next client on, up to its send. -/
def serve (str : Json → PyStr) (s : State) (delta : SankeyDelta) : List ℕ → State
  | [] => { s with task := .waiting }
  | client :: rest =>
    match filtered str (filtersOf s client) delta with
    | none => { s with task := .stopped }
    | some payload =>
      { s with
        task := .sending client delta rest
        attempts := s.attempts ++ [⟨client, filtersOf s client, delta, payload⟩] }

def receive (str : Json → PyStr) (s : State) : State :=
  match s.task, s.inbox with
  | .waiting, delta :: inbox =>
    serve str { s with inbox, dispatched := s.dispatched ++ [(delta, s.registered)] } delta
      s.registered
  | _, _ => s

/-- The send returns, or raises and the client is dropped. -/
def sendDone (str : Json → PyStr) (s : State) (ok : Bool) : State :=
  match s.task with
  | .sending client delta rest =>
    serve str (if ok then s else removeClient s client) delta rest
  | _ => s

def step (float : Text → Text) (str : Json → PyStr) (s : State) : Action → State
  | .connect => connect s
  | .message client raw => receiveText float s client raw
  | .disconnect client => if client < s.filters.length then removeClient s client else s
  | .publish delta =>
    { s with inbox := s.inbox ++ [delta], published := s.published ++ [delta] }
  | .receive => receive str s
  | .sendDone ok => sendDone str s ok

/-! ## The property and its condition -/

/-- A well-formed filter: each member is absent, null or a string. -/
structure Filter where
  srcCidr : Option PyStr
  dstApp : Option PyStr

def optionalString : Option Json → Option (Option PyStr)
  | none | some .null => some none
  | some (.str s) => some (some s)
  | _ => none

def Filter.ofJson : Json → Option Filter
  | .obj fields => do
    let srcCidr ← optionalString (Json.lookup fields (ofString "src_cidr"))
    let dstApp ← optionalString (Json.lookup fields (ofString "dst_app"))
    return ⟨srcCidr, dstApp⟩
  | _ => none

/-- The source is an address in the network. -/
def fromNetwork (cidr : PyStr) (link : Link) : Bool :=
  (ipAddress (sourceText link)).any fun ip =>
    (ipNetwork false (toText cidr)).any fun network => network.contains ip

/-- What a filter asks for: the source lies in the network, the destination is the
application. An empty text asks for nothing. -/
def Filter.selects (f : Filter) (link : Link) : Bool :=
  f.srcCidr.all (fun cidr => cidr = [] || fromNetwork cidr link) &&
    f.dstApp.all (fun app => app = [] || ofString link.dst = ofString "app:" ++ app)

/-- Sends of the delta in progress that are still to come. -/
def pending (s : State) : List (SankeyDelta × ℕ) :=
  match s.task with
  | .sending _ delta rest => rest.map fun client => (delta, client)
  | .waiting | .stopped => []

/-- Every delta to every client that was registered when it was received. -/
def owed (dispatched : List (SankeyDelta × List ℕ)) : List (SankeyDelta × ℕ) :=
  dispatched.flatMap fun (delta, clients) => clients.map fun client => (delta, client)

/-- The task runs; a client stays registered unless it disconnects or its own send
fails; deltas are taken in order, each is sent to each client of its moment, and
with exactly the links that client's filter selects. -/
structure FeedIntact (s : State) : Prop where
  running : s.task ≠ .stopped
  kept : ∀ client < s.filters.length, client ∉ s.gone → client ∈ s.registered
  inOrder : s.published = s.dispatched.map Prod.fst ++ s.inbox
  complete : (s.attempts.map fun a => (a.delta, a.client)) ++ pending s = owed s.dispatched
  exact : ∀ a ∈ s.attempts, ∀ f, Filter.ofJson a.filters = some f →
    a.payload = { a.delta with links := a.delta.links.filter f.selects }

/-- A filter that can be evaluated on the delta. -/
def Evaluable (filters : Json) (delta : SankeyDelta) : Prop :=
  delta.links ≠ [] → ∃ fields, filters = .obj fields

/-- The client whose turn comes with the action has an object as its filter, or the
delta has no links. -/
def ObjectInTurn (s : State) : Action → Prop
  | .receive => s.task = .waiting → ∀ delta ∈ s.inbox.head?, ∀ client ∈ s.registered.head?,
      Evaluable (filtersOf s client) delta
  | .sendDone _ => ∀ sent delta client rest, s.task = .sending sent delta (client :: rest) →
      Evaluable (filtersOf s client) delta
  | _ => True

/-! ## Evaluating a filter -/

section

variable (str : Json → PyStr)

lemma selectLinks_eq_filter {filters : Json} {keep : Link → Bool}
    (h : ∀ link, matchesLink str filters link = some (keep link)) (links : List Link) :
    selectLinks str filters links = some (links.filter keep) := by
  induction links with
  | nil => rfl
  | cons link rest ih =>
    rw [selectLinks, h link, ih]
    cases hkeep : keep link <;> simp [hkeep]

/-- Evaluation raises exactly on a value that is not an object. -/
lemma filtered_eq_none_iff (filters : Json) (delta : SankeyDelta) :
    filtered str filters delta = none ↔ ¬ Evaluable filters delta := by
  by_cases hobj : ∃ fields, filters = .obj fields
  · refine iff_of_false ?_ (not_not_intro fun _ => hobj)
    obtain ⟨fields, rfl⟩ := hobj
    have hsome : ∀ link, matchesLink str (.obj fields) link =
        some ((matchesLink str (.obj fields) link).getD false) := by
      intro link
      simp only [matchesLink]
      split <;> rfl
    rw [filtered, selectLinks_eq_filter str hsome]
    simp
  · have hraise : ∀ link, matchesLink str filters link = none := by
      intro link
      unfold matchesLink
      split
      · next fields => exact absurd ⟨fields, rfl⟩ hobj
      · rfl
    cases hlinks : delta.links with
    | nil => simp [filtered, hlinks, selectLinks, Evaluable]
    | cons link rest => simp [filtered, hlinks, selectLinks, hraise, Evaluable, hobj]

lemma optionalString_cases {value : Option Json} {s : Option PyStr}
    (h : optionalString value = some s) :
    s = none ∧ value.getD .null = .null ∨ ∃ t, s = some t ∧ value.getD .null = .str t := by
  unfold optionalString at h
  split at h
  · exact .inl ⟨(Option.some.inj h).symm, rfl⟩
  · exact .inl ⟨(Option.some.inj h).symm, rfl⟩
  · next t => exact .inr ⟨t, (Option.some.inj h).symm, rfl⟩
  · cases h

lemma source_rejected {value : Option Json} {s : Option PyStr} (h : optionalString value = some s)
    (link : Link) :
    ((value.getD .null).truthy && !inNetwork (value.getD .null) link) =
      !s.all fun cidr => cidr = [] || fromNetwork cidr link := by
  obtain ⟨rfl, hvalue⟩ | ⟨cidr, rfl, hvalue⟩ := optionalString_cases h
  · rw [hvalue]
    rfl
  · have hin : inNetwork (.str cidr) link = fromNetwork cidr link := rfl
    rw [hvalue, hin]
    by_cases hempty : cidr = [] <;> simp [Json.truthy, hempty]

lemma app_rejected {value : Option Json} {s : Option PyStr} (h : optionalString value = some s)
    (link : Link) :
    ((value.getD .null).truthy && decide (ofString link.dst ≠ appId str (value.getD .null))) =
      !s.all fun app => app = [] || ofString link.dst = ofString "app:" ++ app := by
  obtain ⟨rfl, hvalue⟩ | ⟨app, rfl, hvalue⟩ := optionalString_cases h
  · rw [hvalue]
    rfl
  · rw [hvalue]
    by_cases hempty : app = []
    · simp [Json.truthy, hempty]
    · by_cases hdst : ofString link.dst = ofString "app:" ++ app <;>
        simp [Json.truthy, appId, hempty, hdst]

/-- On a well-formed filter the code evaluates what the filter asks for. -/
lemma matchesLink_of_filter {filters : Json} {f : Filter} (hf : Filter.ofJson filters = some f)
    (link : Link) : matchesLink str filters link = some (f.selects link) := by
  cases filters with
  | obj fields =>
    simp only [Filter.ofJson, Option.bind_eq_bind, Option.bind_eq_some_iff] at hf
    obtain ⟨srcCidr, hsrc, dstApp, hdst, hfilter⟩ := hf
    obtain rfl : f = ⟨srcCidr, dstApp⟩ := (Option.some.inj hfilter).symm
    simp only [matchesLink, source_rejected hsrc, app_rejected str hdst, Filter.selects,
      Bool.not_not]
    cases srcCidr.all fun cidr => cidr = [] || fromNetwork cidr link <;> rfl
  | null => cases hf
  | bool b => cases hf
  | int n => cases hf
  | float repr => cases hf
  | str s => cases hf
  | arr items => cases hf

lemma filtered_exact {filters : Json} {f : Filter} (hf : Filter.ofJson filters = some f)
    (delta : SankeyDelta) :
    filtered str filters delta = some { delta with links := delta.links.filter f.selects } := by
  rw [filtered, selectLinks_eq_filter str (matchesLink_of_filter str hf), Option.map_some]

/-! ## One step -/

/-- The history is right once the sends to the given clients are added to it. -/
structure Ready (s : State) (delta : SankeyDelta) (clients : List ℕ) : Prop where
  kept : ∀ client < s.filters.length, client ∉ s.gone → client ∈ s.registered
  inOrder : s.published = s.dispatched.map Prod.fst ++ s.inbox
  complete : (s.attempts.map fun a => (a.delta, a.client)) ++
    (clients.map fun client => (delta, client)) = owed s.dispatched
  exact : ∀ a ∈ s.attempts, ∀ f, Filter.ofJson a.filters = some f →
    a.payload = { a.delta with links := a.delta.links.filter f.selects }

lemma Ready.serve {s : State} {delta : SankeyDelta} {clients : List ℕ} (h : Ready s delta clients)
    (hturn : ∀ client ∈ clients.head?, Evaluable (filtersOf s client) delta) :
    FeedIntact (serve str s delta clients) := by
  cases clients with
  | nil => exact ⟨by simp [SankeyFanout.serve], h.kept, h.inOrder, h.complete, h.exact⟩
  | cons client rest =>
    have heval : Evaluable (filtersOf s client) delta := hturn client rfl
    cases hpayload : filtered str (filtersOf s client) delta with
    | none => exact absurd heval ((filtered_eq_none_iff str _ _).mp hpayload)
    | some payload =>
      simp only [SankeyFanout.serve, hpayload]
      refine ⟨by simp, h.kept, h.inOrder, ?_, fun a ha f hf => ?_⟩
      · rw [← h.complete]
        simp [pending]
      · rcases List.mem_append.mp ha with ha | ha
        · exact h.exact a ha f hf
        · obtain rfl := List.mem_singleton.mp ha
          have hpay := hpayload.symm.trans (filtered_exact str hf delta)
          exact Option.some.inj hpay

lemma serve_stopped {s : State} {delta : SankeyDelta} {client : ℕ}
    (h : ¬ Evaluable (filtersOf s client) delta) (rest : List ℕ) :
    (serve str s delta (client :: rest)).task = .stopped := by
  simp only [serve, (filtered_eq_none_iff str _ _).mpr h]

lemma mem_removeClient {s : State} {client c : ℕ} (hc : c ∈ s.registered)
    (hgone : c ∉ (removeClient s client).gone) : c ∈ (removeClient s client).registered := by
  simp only [removeClient, List.mem_append, List.mem_singleton, not_or, List.mem_filter,
    decide_eq_true_eq] at hgone ⊢
  exact ⟨hc, hgone.2⟩

lemma FeedIntact.removeClient {s : State} (h : FeedIntact s) (client : ℕ) :
    FeedIntact (removeClient s client) where
  running := h.running
  kept c hc hgone := by
    refine mem_removeClient (h.kept c hc fun hmem => hgone ?_) hgone
    exact List.mem_append_left _ hmem
  inOrder := h.inOrder
  complete := h.complete
  exact := h.exact

/-- In a send, the rest of the clients are still owed the delta. -/
lemma FeedIntact.ready {s : State} (h : FeedIntact s) {client : ℕ} {delta : SankeyDelta}
    {rest : List ℕ} (htask : s.task = .sending client delta rest) : Ready s delta rest where
  kept := h.kept
  inOrder := h.inOrder
  complete := by
    have hcomplete := h.complete
    rwa [pending, htask] at hcomplete
  exact := h.exact

/-- A received delta is owed to everyone registered. -/
lemma FeedIntact.ready_receive {s : State} (h : FeedIntact s) (htask : s.task = .waiting)
    {delta : SankeyDelta} {inbox : List SankeyDelta} (hinbox : s.inbox = delta :: inbox) :
    Ready { s with inbox, dispatched := s.dispatched ++ [(delta, s.registered)] } delta
      s.registered where
  kept := h.kept
  inOrder := by
    rw [h.inOrder, hinbox]
    simp
  complete := by
    have hcomplete := h.complete
    rw [pending, htask, List.append_nil] at hcomplete
    simp [hcomplete, owed]
  exact := h.exact

variable (float : Text → Text)

theorem FeedIntact.step {s : State} (h : FeedIntact s) (action : Action)
    (hturn : ObjectInTurn s action) : FeedIntact (step float str s action) := by
  cases action with
  | connect =>
    refine ⟨h.running, fun c hc hgone => ?_, h.inOrder, h.complete, h.exact⟩
    simp only [SankeyFanout.step, SankeyFanout.connect, List.length_append, List.length_singleton,
      List.mem_append, List.mem_singleton] at hc ⊢
    by_cases hlt : c < s.filters.length
    · exact .inl (h.kept c hlt hgone)
    · exact .inr (by omega)
  | message client raw =>
    refine ⟨h.running, fun c hc hgone => ?_, h.inOrder, h.complete, h.exact⟩
    have hlength : c < s.filters.length := by
      simpa [SankeyFanout.step, receiveText] using hc
    exact h.kept c hlength hgone
  | disconnect client =>
    simp only [SankeyFanout.step]
    split_ifs
    · exact h.removeClient client
    · exact h
  | publish delta =>
    refine ⟨h.running, h.kept, ?_, h.complete, h.exact⟩
    simp [SankeyFanout.step, h.inOrder]
  | receive =>
    show FeedIntact (receive str s)
    unfold receive
    split
    · next delta inbox htask hinbox =>
      refine (h.ready_receive htask hinbox).serve str fun client hclient => ?_
      exact hturn htask delta (by rw [hinbox]; rfl) client hclient
    · exact h
  | sendDone ok =>
    show FeedIntact (sendDone str s ok)
    unfold sendDone
    split
    · next client delta rest htask =>
      have hnext : ∀ c ∈ rest.head?, Evaluable (filtersOf s c) delta := by
        intro c hc
        obtain ⟨tail, htail⟩ := List.head?_eq_some_iff.mp hc
        exact hturn client delta c tail (htail ▸ htask)
      cases ok with
      | true => exact (h.ready htask).serve str hnext
      | false => exact ((h.removeClient client).ready htask).serve str hnext
    · exact h

/-- A filter that cannot be evaluated ends the task. -/
lemma not_feedIntact_of_raise {s : State} (action : Action) (hturn : ¬ ObjectInTurn s action) :
    ¬ FeedIntact (step float str s action) := by
  intro hintact
  cases action with
  | connect => exact hturn trivial
  | message client raw => exact hturn trivial
  | disconnect client => exact hturn trivial
  | publish delta => exact hturn trivial
  | receive =>
    simp only [ObjectInTurn, not_forall] at hturn
    obtain ⟨htask, delta, hdelta, client, hclient, hraise⟩ := hturn
    obtain ⟨inbox, hinbox⟩ := List.head?_eq_some_iff.mp hdelta
    obtain ⟨rest, hrest⟩ := List.head?_eq_some_iff.mp hclient
    apply hintact.running
    simp only [SankeyFanout.step, receive, htask, hinbox, hrest]
    exact serve_stopped str (by exact hraise) rest
  | sendDone ok =>
    simp only [ObjectInTurn, not_forall] at hturn
    obtain ⟨sent, delta, client, rest, htask, hraise⟩ := hturn
    apply hintact.running
    simp only [SankeyFanout.step, sendDone, htask]
    cases ok with
    | true => exact serve_stopped str hraise rest
    | false => exact serve_stopped str (by exact hraise) rest

lemma initial_feedIntact : FeedIntact initial where
  running := by simp [initial]
  kept := by simp [initial]
  inOrder := rfl
  complete := rfl
  exact := by simp [initial]

/-- For every set of clients, messages, send failures and deltas in any
interleaving: the feed is intact at every point of the run if and only if every
client has an object as its filter whenever its turn comes with a delta that has
links. -/
theorem feedIntact_iff_objectInTurn (schedule : List Action) :
    Throughout (step float str) FeedIntact initial schedule ↔
      Along (step float str) ObjectInTurn initial schedule := by
  constructor
  · exact along_of_throughout (I := fun _ => True) (fun _ _ _ _ _ => trivial)
      (fun s action _ _ hturn => not_feedIntact_of_raise str float action hturn) trivial
  · exact throughout_of_along (fun s action hs hturn => hs.step str float action hturn)
      initial_feedIntact

end

/-- A delta with one link. -/
def oneLink : SankeyDelta where
  ts := 0
  windowS := 5
  nodesLeft := []
  nodesRight := []
  links := [⟨"ip:10.0.0.1", "app:M365", 1, 1, 0⟩]
  lossy := false
  droppedCount := 0

/-- The first of two clients sends a null filter; the next delta ends the task, and
a later one stays in the inbox. -/
def nullFilterRun : List Action :=
  [.connect, .connect, .message 0 (ofString "\x7b\"filter\": null\x7d"), .publish oneLink, .receive,
    .publish oneLink, .receive]

theorem nullFilterRun_stops_feed :
    let s := run (step id fun _ => []) initial nullFilterRun
    s.task = .stopped ∧ s.registered = [0, 1] ∧ s.attempts.length = 0 ∧ s.inbox = [oneLink] ∧
      ¬ Throughout (step id fun _ => []) FeedIntact initial nullFilterRun := by
  have htask : (run (step id fun _ => []) initial nullFilterRun).task = .stopped := by
    decide +kernel
  refine ⟨htask, by decide +kernel, by decide +kernel, by decide +kernel, fun h => ?_⟩
  exact h.last.running htask

end FlowDiscovery.SankeyFanout
