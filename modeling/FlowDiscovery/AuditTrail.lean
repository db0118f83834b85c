import FlowDiscovery.Applications
import FlowDiscovery.Machine

/-!
# The audit trail of one application

Requests to `update_app` read the row without a lock, update it, write an audit row
with what they read and what they wrote, and commit. An `UPDATE` waits while another
transaction holds the lock of the row, and then changes the row that was committed.
The lock is taken after the read, so another request can commit between the two: the
trail is a chain exactly as long as every request that commits had read the row that
is stored when it commits.

No request of an editor commits, since its record lacks the key that the `UPDATE` needs. So
the trail stays the chain that it was.
-/
namespace FlowDiscovery.AuditTrail
open Machine PyTime Applications

/-! ## Requests and their steps -/

/-- The next statement of a request, with what it has read and written. -/
inductive Phase where
  | selecting
  | updating (before : Application)
  | auditing (before after : Application)
  | committing (before after : Application) (entry : AuditEntry)
  | ended

structure Request where
  user : User
  body : ApplicationIn
  phase : Phase

/-- `stored` and `audit` are committed. The row is locked by the transaction that has
updated it. -/
structure State where
  stored : Application
  audit : List AuditEntry
  lock : Option ℕ
  requests : List Request

inductive Action where
  | request (user : User) (body : ApplicationIn)
  | select (i : ℕ)
  | update (i : ℕ) (now : Instant)
  | insert (i : ℕ)
  | commit (i : ℕ)
  | fail (i : ℕ)

def setPhase (s : State) (i : ℕ) (phase : Phase) : State :=
  { s with requests := s.requests.modify i fun r => { r with phase } }

/-- An exception ends the request, and its transaction is rolled back. -/
def rollback (s : State) (i : ℕ) : State :=
  setPhase { s with lock := if s.lock = some i then none else s.lock } i .ended

section

variable (store : AppFields → Option AppFields)

/-- The statement that a request is at, if it may run. -/
def step (s : State) : Action → State
  | .request user body => { s with requests := s.requests ++ [⟨user, body, .selecting⟩] }
  | .select i =>
    match s.requests[i]? with
    | some ⟨_, _, .selecting⟩ => setPhase s i (.updating s.stored)
    | _ => s
  | .update i now =>
    match s.requests[i]? with
    | some ⟨user, body, .updating before⟩ =>
      if s.lock = none then
        match updateRow store user body now s.stored with
        | .ok after => setPhase { s with lock := some i } i (.auditing before after)
        | .error _ => rollback s i
      else s
    | _ => s
  | .insert i =>
    match s.requests[i]? with
    | some ⟨user, _, .auditing before after⟩ =>
      match updateAudit user s.stored.id before after with
      | .ok entry => setPhase s i (.committing before after entry)
      | .error _ => rollback s i
    | _ => s
  | .commit i =>
    match s.requests[i]? with
    | some ⟨_, _, .committing _ after entry⟩ =>
      setPhase { s with stored := after, audit := s.audit ++ [entry], lock := none } i .ended
    | _ => s
  | .fail i => if i < s.requests.length then rollback s i else s

/-! ## The property and its condition -/

/-- Each update was made from what the row before it has left, and the last row has
left the stored application. -/
structure Chained (stored : Application) (audit : List AuditEntry) : Prop where
  linked : audit.IsChain fun a b => b.op = .update → b.before = a.after
  last : ∀ e ∈ audit.getLast?, e.after = some stored

/-- The history of an application before the requests. -/
structure Trail where
  stored : Application
  audit : List AuditEntry
  chained : Chained stored audit

def initial (trail : Trail) : State := ⟨trail.stored, trail.audit, none, []⟩

/-- A request that commits has read the row that is stored, or writes the first row of
the trail. -/
def CommitFresh (s : State) (a : Action) : Prop :=
  ∀ i user body before after entry, a = .commit i →
    s.requests[i]? = some ⟨user, body, .committing before after entry⟩ →
    s.audit = [] ∨ before = s.stored

/-! ## What the phases know -/

lemma bind_ok {α β : Type} {x : Except Failure α} {f : α → Except Failure β} {b : β}
    (h : x >>= f = .ok b) : ∃ a, x = .ok a ∧ f a = .ok b := by
  cases x with
  | error e => cases h
  | ok a => exact ⟨a, rfl, h⟩

/-- From its `UPDATE` on a request holds the lock, and what it wrote is the stored row
with the fields of the body. -/
def Known (s : State) (i : ℕ) : Phase → Prop
  | .selecting | .updating _ | .ended => s.lock ≠ some i
  | .auditing _ after => s.lock = some i ∧ after.id = s.stored.id
  | .committing before after entry => s.lock = some i ∧ after.id = s.stored.id ∧
    entry.op = .update ∧ entry.before = some before ∧ entry.after = some after

structure Inv (s : State) : Prop where
  known : ∀ i r, s.requests[i]? = some r → Known s i r.phase
  lock_lt : ∀ i, s.lock = some i → i < s.requests.length

variable {store}

lemma updateRow_id {user : User} {body : ApplicationIn} {now : Instant} {stored after : Application}
    (h : updateRow store user body now stored = .ok after) : after.id = stored.id := by
  unfold updateRow at h
  obtain ⟨_, _, h⟩ := bind_ok h
  obtain ⟨_, _, h⟩ := bind_ok h
  obtain ⟨_, _, h⟩ := bind_ok h
  rw [← Except.ok.inj h]

lemma application_ok {row row' : Application} (h : application row = .ok row') : row' = row := by
  unfold application at h
  split_ifs at h
  exact (Except.ok.inj h).symm

/-- The audit row says what was read and what was written. -/
lemma updateAudit_ok {user : User} {appId : ℤ} {before after : Application} {entry : AuditEntry}
    (h : updateAudit user appId before after = .ok entry) :
    entry.op = .update ∧ entry.before = some before ∧ entry.after = some after := by
  unfold updateAudit at h
  obtain ⟨_, _, h⟩ := bind_ok h
  obtain ⟨before', hbefore, h⟩ := bind_ok h
  obtain ⟨after', hafter, h⟩ := bind_ok h
  obtain ⟨_, _, h⟩ := bind_ok h
  rw [← Except.ok.inj h, application_ok hbefore, application_ok hafter]
  exact ⟨rfl, rfl, rfl⟩

variable {s : State}

/-- A request without the lock knows nothing that another one could change. -/
lemma Known.of_lock_ne {s' : State} {j : ℕ} {phase : Phase} (h : Known s j phase)
    (hlock : s.lock ≠ some j) (hlock' : s'.lock ≠ some j) : Known s' j phase := by
  cases phase with
  | selecting => exact hlock'
  | updating before => exact hlock'
  | auditing before after => exact absurd h.1 hlock
  | committing before after entry => exact absurd h.1 hlock
  | ended => exact hlock'

/-- Where a request moves on, the others have to know as much as before. -/
lemma Inv.move (h : Inv s) (s' : State) (hreq : s'.requests = s.requests) {i : ℕ} {phase : Phase}
    (hi : Known s' i phase) (hother : ∀ j p, j ≠ i → Known s j p → Known s' j p)
    (hlock : ∀ j, s'.lock = some j → j < s.requests.length) : Inv (setPhase s' i phase) where
  known j r hr := by
    have hknown : ∀ p, Known s' j p → Known (setPhase s' i phase) j p := by
      intro p hp
      cases p <;> exact hp
    simp only [setPhase, List.getElem?_modify, hreq] at hr
    obtain ⟨r', hr', rfl⟩ := Option.map_eq_some_iff.mp hr
    apply hknown
    split_ifs with hij
    · exact hij ▸ hi
    · exact hother j _ (fun heq => hij heq.symm) (h.known j r' hr')
  lock_lt j hj := by
    simp only [setPhase, List.length_modify, hreq]
    exact hlock j hj

lemma Inv.rollback (h : Inv s) (i : ℕ) : Inv (rollback s i) := by
  refine h.move { s with lock := if s.lock = some i then none else s.lock } rfl ?_ ?_ ?_
  · change (if s.lock = some i then none else s.lock) ≠ some i
    split_ifs with hlock
    · simp
    · exact hlock
  · intro j p hji hp
    by_cases hlock : s.lock = some i
    · -- the lock was not this request's
      have hne : s.lock ≠ some j := by
        rw [hlock]
        simpa using fun heq : i = j => hji heq.symm
      exact hp.of_lock_ne hne (by simp [hlock])
    · simp only [hlock, if_false]
      cases p <;> exact hp
  · intro j hj
    split_ifs at hj
    exact h.lock_lt j hj

lemma Inv.request (h : Inv s) (user : User) (body : ApplicationIn) :
    Inv (step store s (.request user body)) := by
  have hold : ∀ j p, Known s j p →
      Known { s with requests := s.requests ++ [⟨user, body, .selecting⟩] } j p := by
    intro j p hp
    cases p <;> exact hp
  refine ⟨fun j r hr => ?_, fun j hj => ?_⟩
  · apply hold
    simp only [step] at hr
    by_cases hlt : j < s.requests.length
    · rw [List.getElem?_append_left hlt] at hr
      exact h.known j r hr
    · -- the new request holds no lock
      have hphase : r.phase = .selecting := by
        rw [List.getElem?_append_right (by omega)] at hr
        rw [List.mem_singleton.mp (List.mem_of_getElem? hr)]
      rw [hphase]
      exact fun hj => hlt (h.lock_lt j hj)
  · simpa [step] using Nat.lt_succ_of_lt (h.lock_lt j hj)

theorem step_inv (a : Action) (h : Inv s) : Inv (step store s a) := by
  cases a with
  | request user body => exact h.request user body
  | select i =>
    rw [step]
    split
    case h_1 user body hr =>
      refine h.move s rfl ?_ (fun j p _ hp => ?_) h.lock_lt
      · exact h.known i _ hr
      · cases p <;> exact hp
    case h_2 => exact h
  | update i now =>
    rw [step]
    split
    case h_1 user body before hr =>
      split_ifs with hlock
      · split
        case h_1 after hafter =>
          have hlt := (List.getElem?_eq_some_iff.mp hr).1
          refine h.move { s with lock := some i } rfl ⟨rfl, updateRow_id hafter⟩ (fun j p hji hp => ?_)
            fun j hj => Option.some.inj hj ▸ hlt
          have hne : some i ≠ some j := by simpa using fun heq : i = j => hji heq.symm
          exact hp.of_lock_ne (by simp [hlock]) hne
        case h_2 => exact h.rollback i
      · exact h
    case h_2 => exact h
  | insert i =>
    rw [step]
    split
    case h_1 user body before after hr =>
      have hknown := h.known i _ hr
      split
      case h_1 entry hentry =>
        refine h.move s rfl ?_ (fun j p _ hp => ?_) h.lock_lt
        · exact ⟨hknown.1, hknown.2, updateAudit_ok hentry⟩
        · cases p <;> exact hp
      case h_2 => exact h.rollback i
    case h_2 => exact h
  | commit i =>
    rw [step]
    split
    case h_1 user body before after entry hr =>
      have hknown := h.known i _ hr
      refine h.move { s with stored := after, audit := s.audit ++ [entry], lock := none } rfl
        (by simp [Known]) (fun j p hji hp => ?_) (fun j hj => by cases hj)
      have hne : s.lock ≠ some j := by
        rw [hknown.1]
        simpa using fun heq : i = j => hji heq.symm
      exact hp.of_lock_ne hne nofun
    case h_2 => exact h
  | fail i =>
    rw [step]
    split_ifs
    · exact h.rollback i
    · exact h

/-! ## The chain -/

/-- An audit row of a commit continues the chain iff it was made from the stored row. -/
theorem chained_append_iff {stored before after : Application} {audit : List AuditEntry}
    {entry : AuditEntry} (h : Chained stored audit) (hop : entry.op = .update)
    (hbefore : entry.before = some before) (hafter : entry.after = some after) :
    Chained after (audit ++ [entry]) ↔ audit = [] ∨ before = stored := by
  constructor
  · intro hnew
    cases hlast : audit.getLast? with
    | none => exact .inl (List.getLast?_eq_none_iff.mp hlast)
    | some e =>
      have hlink := (List.isChain_append.mp hnew.linked).2.2 e (by simp [hlast]) entry (by simp) hop
      rw [hbefore, h.last e (by simp [hlast])] at hlink
      exact .inr (Option.some.inj hlink)
  · intro hok
    refine ⟨List.isChain_append.mpr ⟨h.linked, List.isChain_singleton entry, ?_⟩, by simp [hafter]⟩
    intro e he e' he' _
    obtain rfl : entry = e' := by simpa using he'
    rcases hok with hnil | rfl
    · simp [hnil] at he
    · rw [hbefore, h.last e he]

/-- Only a commit touches what is committed. -/
lemma step_frame (store : AppFields → Option AppFields) (s : State) {a : Action}
    (ha : ∀ i, a ≠ .commit i) :
    (step store s a).stored = s.stored ∧ (step store s a).audit = s.audit := by
  cases a with
  | request user body => exact ⟨rfl, rfl⟩
  | select i =>
    rw [step]
    split <;> exact ⟨rfl, rfl⟩
  | update i now =>
    rw [step]
    split
    · split_ifs
      · split <;> exact ⟨rfl, rfl⟩
      · exact ⟨rfl, rfl⟩
    · exact ⟨rfl, rfl⟩
  | insert i =>
    rw [step]
    split
    · split <;> exact ⟨rfl, rfl⟩
    · exact ⟨rfl, rfl⟩
  | commit i => exact absurd rfl (ha i)
  | fail i =>
    rw [step]
    split_ifs <;> exact ⟨rfl, rfl⟩

theorem step_chained_iff (hinv : Inv s) (h : Chained s.stored s.audit) (a : Action) :
    Chained (step store s a).stored (step store s a).audit ↔ CommitFresh s a := by
  by_cases hcommit : ∃ i, a = .commit i
  · obtain ⟨i, rfl⟩ := hcommit
    rw [step]
    split
    case h_1 user body before after entry hr =>
      obtain ⟨_, _, hop, hbefore, hafter⟩ := hinv.known i _ hr
      refine (chained_append_iff h hop hbefore hafter).trans ⟨fun hok => ?_, fun hok => ?_⟩
      · intro i' user' body' before' after' entry' hi hr'
        obtain rfl := Action.commit.inj hi
        rw [hr] at hr'
        simp only [Option.some.injEq, Request.mk.injEq, Phase.committing.injEq] at hr'
        rw [← hr'.2.2.1]
        exact hok
      · exact hok i user body before after entry rfl hr
    case h_2 hnone =>
      refine iff_of_true h ?_
      intro i' user body before after entry hi hr
      obtain rfl := Action.commit.inj hi
      exact absurd hr (hnone user body before after entry)
  · have hne : ∀ i, a ≠ .commit i := fun i hi => hcommit ⟨i, hi⟩
    obtain ⟨hstored, haudit⟩ := step_frame store s hne
    rw [hstored, haudit]
    exact iff_of_true h fun i _ _ _ _ _ hi => absurd hi (hne i)

end

lemma inv_initial (trail : Trail) : Inv (initial trail) :=
  ⟨fun i r hr => by simp [initial] at hr, fun i hi => by cases hi⟩

/-- Over any interleaving the trail is a chain in every state iff every request that
commits has read the row that is stored when it does, or writes the first row. -/
theorem chained_iff_commitFresh (store : AppFields → Option AppFields) (trail : Trail)
    (actions : List Action) :
    Throughout (step store) (fun s => Chained s.stored s.audit) (initial trail) actions ↔
      Along (step store) CommitFresh (initial trail) actions :=
  throughout_iff_along (fun _ a hinv => step_inv a hinv)
    (fun _ a hinv hchained => step_chained_iff hinv hchained a) (inv_initial trail) trail.chained
    actions

/-! ## One request alone -/

lemma getElem?_setPhase {s : State} {i : ℕ} {user : User} {body : ApplicationIn} {phase : Phase}
    (h : s.requests[i]? = some ⟨user, body, phase⟩) (phase' : Phase) :
    (setPhase s i phase').requests[i]? = some ⟨user, body, phase'⟩ := by
  simp [setPhase, h]

/-- The handler on the tables with one application. -/
lemma updateApp_single (store : AppFields → Option AppFields) (user : User) (body : ApplicationIn)
    (now : Instant) (stored : Application) (audit : List AuditEntry) :
    (updateApp store user stored.id body now ⟨[stored], audit⟩).1 =
      match updateRow store user body now stored with
      | .error _ => ⟨[stored], audit⟩
      | .ok after =>
        match updateAudit user stored.id stored after with
        | .error _ => ⟨[stored], audit⟩
        | .ok entry => ⟨[after], audit ++ [entry]⟩ := by
  have hfind : [stored].find? (fun r => r.id = stored.id) = some stored := by simp
  simp only [updateApp, updateSteps, hfind]
  cases hrow : updateRow store user body now stored with
  | error e => rfl
  | ok after =>
    have hreplace : replaceRow [stored] after = [after] := by simp [replaceRow, updateRow_id hrow]
    change (transaction ⟨[stored], audit⟩ (updateAudit user stored.id stored after >>= fun entry =>
      .ok (⟨replaceRow [stored] after, audit ++ [entry]⟩, after))).1 = _
    rw [hreplace]
    dsimp only
    cases updateAudit user stored.id stored after with
    | error e => rfl
    | ok entry => rfl

/-- The last two statements of a request. -/
lemma run_auditing (store : AppFields → Option AppFields) {s : State} {i : ℕ} {user : User}
    {body : ApplicationIn} {before after : Application}
    (hr : s.requests[i]? = some ⟨user, body, .auditing before after⟩) :
    let s' := run (step store) s [.insert i, .commit i]
    (⟨[s'.stored], s'.audit⟩ : Database) =
      match updateAudit user s.stored.id before after with
      | .error _ => ⟨[s.stored], s.audit⟩
      | .ok entry => ⟨[after], s.audit ++ [entry]⟩ := by
  have hinsert : step store s (.insert i) =
      match updateAudit user s.stored.id before after with
      | .error _ => rollback s i
      | .ok entry => setPhase s i (.committing before after entry) := by
    rw [step, hr]
    dsimp only
    cases updateAudit user s.stored.id before after <;> rfl
  simp only [run_cons, hinsert]
  cases updateAudit user s.stored.id before after with
  | error e =>
    have hended : (rollback s i).requests[i]? = some ⟨user, body, .ended⟩ :=
      getElem?_setPhase hr .ended
    have hcommit : step store (rollback s i) (.commit i) = rollback s i := by rw [step, hended]
    simp only [hcommit, run_nil]
    rfl
  | ok entry =>
    have hready := getElem?_setPhase hr (.committing before after entry)
    simp only [step, hready, run_nil]
    rfl

/-- The statements of a request that nobody interrupts do what the handler does on the
tables with this application alone. -/
theorem run_request (store : AppFields → Option AppFields) (s : State) (i : ℕ) (user : User)
    (body : ApplicationIn) (now : Instant) (hr : s.requests[i]? = some ⟨user, body, .selecting⟩)
    (hlock : s.lock = none) :
    let s' := run (step store) s [.select i, .update i now, .insert i, .commit i]
    (⟨[s'.stored], s'.audit⟩ : Database) =
      (updateApp store user s.stored.id body now ⟨[s.stored], s.audit⟩).1 := by
  have hselect : step store s (.select i) = setPhase s i (.updating s.stored) := by rw [step, hr]
  have hread := getElem?_setPhase hr (.updating s.stored)
  have hupdate : step store (setPhase s i (.updating s.stored)) (.update i now) =
      match updateRow store user body now s.stored with
      | .ok after => setPhase { setPhase s i (.updating s.stored) with lock := some i } i
          (.auditing s.stored after)
      | .error _ => rollback (setPhase s i (.updating s.stored)) i := by
    rw [step, hread]
    exact if_pos hlock
  rw [updateApp_single, run_cons, hselect, run_cons, hupdate]
  cases updateRow store user body now s.stored with
  | error e =>
    -- the request has ended, its other statements are not run
    have hended : (rollback (setPhase s i (.updating s.stored)) i).requests[i]? =
        some ⟨user, body, .ended⟩ := getElem?_setPhase hread .ended
    simp only [run_cons, run_nil, step, hended]
    rfl
  | ok after =>
    exact run_auditing store (getElem?_setPhase
      (s := { setPhase s i (.updating s.stored) with lock := some i }) hread (.auditing s.stored after))

/-! ## Requests of editors -/

/-- A request reaches the route, or a statement of one that was admitted is run. -/
inductive Event where
  | http (request : Applications.Request) (body : ApplicationIn)
  | statement (action : Action)

/-- What the event is for the requests under way. Only `require_editor` lets one in. -/
def admitted (auth : Auth) : Event → Option Action
  | .http request body =>
    match requireEditor auth request with
    | .ok user => some (.request user body)
    | .error _ => none
  | .statement (.request _ _) => none
  | .statement action => some action

def serve (auth : Auth) (store : AppFields → Option AppFields) (s : State) (e : Event) : State :=
  match admitted auth e with
  | some a => step store s a
  | none => s

/-- The request has been through its `UPDATE`. -/
def Phase.written : Phase → Bool
  | .auditing _ _ | .committing _ _ _ => true
  | .selecting | .updating _ | .ended => false

/-- Every record lacks the key, and no request has been through its `UPDATE`. -/
def Idle (s : State) : Prop :=
  ∀ r ∈ s.requests, r.user.get? "upn" = none ∧ r.phase.written = false

section

variable {store : AppFields → Option AppFields} {s : State}

lemma Idle.setPhase (h : Idle s) (s' : State) (hreq : s'.requests = s.requests) (i : ℕ)
    {phase : Phase} (hphase : phase.written = false) : Idle (setPhase s' i phase) := by
  intro r hr
  obtain ⟨j, hj⟩ := List.mem_iff_getElem?.mp hr
  simp only [AuditTrail.setPhase, List.getElem?_modify, hreq] at hj
  obtain ⟨r', hr', rfl⟩ := Option.map_eq_some_iff.mp hj
  obtain ⟨hupn, hwritten⟩ := h r' (List.mem_of_getElem? hr')
  split_ifs
  · exact ⟨hupn, hphase⟩
  · exact ⟨hupn, hwritten⟩

lemma Idle.rollback (h : Idle s) (i : ℕ) : Idle (rollback s i) :=
  h.setPhase { s with lock := if s.lock = some i then none else s.lock } rfl i rfl

/-- The `UPDATE` of a record without the key raises, so its request ends there. -/
lemma Idle.step (h : Idle s) {a : Action}
    (hrequest : ∀ user body, a = .request user body → user.get? "upn" = none) :
    Idle (step store s a) := by
  cases a with
  | request user body =>
    intro r hr
    rcases List.mem_append.mp hr with hr | hr
    · exact h r hr
    · obtain rfl := List.mem_singleton.mp hr
      exact ⟨hrequest user body rfl, rfl⟩
  | select i =>
    rw [AuditTrail.step]
    split
    · exact h.setPhase s rfl i rfl
    · exact h
  | update i now =>
    rw [AuditTrail.step]
    split
    · next user body before hr =>
      have hraises : updateRow store user body now s.stored = .error .keyError := by
        rw [updateRow, getItem_upn (h _ (List.mem_of_getElem? hr)).1]
        rfl
      simp only [hraises]
      split_ifs
      · exact h.rollback i
      · exact h
    · exact h
  | insert i =>
    rw [AuditTrail.step]
    split
    · next user body before after hr =>
      exact absurd (h _ (List.mem_of_getElem? hr)).2 (by simp [Phase.written])
    · exact h
  | commit i =>
    rw [AuditTrail.step]
    split
    · next user body before after entry hr =>
      exact absurd (h _ (List.mem_of_getElem? hr)).2 (by simp [Phase.written])
    · exact h
  | fail i =>
    rw [AuditTrail.step]
    split_ifs
    · exact h.rollback i
    · exact h

lemma Idle.commitFresh (h : Idle s) (a : Action) : CommitFresh s a := by
  intro i user body before after entry _ hr
  exact absurd (h _ (List.mem_of_getElem? hr)).2 (by simp [Phase.written])

/-- The chain, and what keeps it. -/
structure Standing (s : State) : Prop where
  inv : Inv s
  idle : Idle s
  chained : Chained s.stored s.audit

lemma Standing.serve (h : Standing s) (auth : Auth) (e : Event) : Standing (serve auth store s e) := by
  have hmove : ∀ a : Action, (∀ user body, a = .request user body → user.get? "upn" = none) →
      Standing (AuditTrail.step store s a) := fun a hrequest =>
    ⟨step_inv a h.inv, h.idle.step hrequest,
      (step_chained_iff h.inv h.chained a).mpr (h.idle.commitFresh a)⟩
  rw [AuditTrail.serve]
  split
  · next a ha =>
    refine hmove a fun user body hrequest => ?_
    subst hrequest
    cases e with
    | http request body' =>
      simp only [admitted] at ha
      split at ha
      · next user' huser =>
        obtain ⟨rfl, rfl⟩ := Action.request.inj (Option.some.inj ha)
        exact get?_upn_of_requireEditor huser
      · cases ha
    | statement action =>
      cases action <;> cases ha
  · exact h

end

/-- For every application whose trail is a chain, any number of requests, concurrent or
not, and every interleaving of their statements, the trail is a chain in every state. -/
theorem trail_chained (auth : Auth) (store : AppFields → Option AppFields) (trail : Trail)
    (events : List Event) :
    Throughout (serve auth store) (fun s => Chained s.stored s.audit) (initial trail) events :=
  (throughout_of_invariant (I := Standing) (fun _ e hs => hs.serve auth e)
    ⟨inv_initial trail, by simp [Idle, initial], trail.chained⟩ events).mono fun _ hs => hs.chained

/-! ## Records with the key -/

def editor (upn : String) : User := (Dict.empty.set "upn" (.value (.str (PyJson.ofString upn)))).set
  "roles" (.roles {"viewer", "editor"})

/-- An application as it was created. -/
def payrollTrail : Trail where
  stored := payrollRow
  audit := [⟨7, "alice@corp", .create, none, some payrollRow⟩]
  chained := ⟨List.isChain_singleton _, by simp⟩

def payrollEdit (priority : ℤ) : ApplicationIn :=
  ⟨{ payrollBody.1 with priority }, payrollBody.2⟩

/-- Both read the row before one of them has updated it. -/
def twoEditorsRun : List Action :=
  [.request (editor "alice@corp") (payrollEdit 200), .request (editor "bob@corp") (payrollEdit 300),
    .select 0, .select 1, .update 0 (seconds 10), .insert 0, .commit 0,
    .update 1 (seconds 11), .insert 1, .commit 1]

/-- With the key in the records and a statement that is carried out, two editors at once
would break the chain. -/
example : ¬ Throughout (step some) (fun s => Chained s.stored s.audit) (initial payrollTrail)
    twoEditorsRun := by
  intro h
  exact absurd h.last.linked (by decide +kernel)

end FlowDiscovery.AuditTrail
