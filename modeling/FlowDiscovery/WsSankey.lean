import FlowDiscovery.Machine
import Mathlib.Data.Finset.Insert

/-!
# One live connection per user

A handler of `/ws/sankey` enters its user into the set of active users under a
lock, accepts the socket and serves it until the client leaves; a `finally`
clause then takes the user out again. The socket is accepted after the user was
entered but before the `try` begins. An error at that one suspension point leaves
the user in the set for good.
-/
namespace FlowDiscovery.WsSankey
open Machine

/-- The fields of a session cookie that the handshake reads. -/
structure SessionData where
  userUpn : String
  roles : Finset String

/-- `_resolve_cookie_user` on the decoded cookie. `none` stands for a missing
cookie and for a `ValueError` of the codec. -/
def resolveCookieUser (session : Option SessionData) : Option String :=
  match session with
  | none => none
  | some data => if "viewer" ∉ data.roles then none else some data.userUpn

/-- Where a handler is suspended: on a close without a user, on the lock, on the
close of a second connection (with the lock held), on the accept, on the next
message, on the lock of the cleanup. -/
inductive Handler where
  | closing
  | locking (upn : String)
  | rejecting (upn : String)
  | accepting (upn : String)
  | serving (upn : String)
  | releasing (upn : String)
  | ended
  deriving DecidableEq

namespace Handler

/-- User of a handler that is still running. -/
def user : Handler → Option String
  | .locking upn | .rejecting upn | .accepting upn | .serving upn | .releasing upn => some upn
  | .closing | .ended => none

/-- User of a handler that is past the admission check. -/
def admitted : Handler → Option String
  | .accepting upn | .serving upn | .releasing upn => some upn
  | .closing | .locking _ | .rejecting _ | .ended => none

lemma user_of_admitted {h : Handler} {upn : String} (ha : h.admitted = some upn) :
    h.user = some upn := by
  cases h <;> first | exact ha | cases ha

end Handler

/-- `lock` is the handler that holds `_active_lock` across a suspension. -/
structure State where
  fanoutReady : Bool
  activeUpns : Finset String
  lock : Option ℕ
  handlers : List Handler
  deriving DecidableEq

/-- The fan-out is started, a client connects, or the suspended operation of a
handler returns (`true`) or raises or is cancelled (`false`). -/
inductive Action where
  | startup
  | connect (session : Option SessionData)
  | resume (i : ℕ) (returns : Bool)

def initial : State := ⟨false, ∅, none, []⟩

/-- `ws_sankey` up to its first suspension. -/
def connect (s : State) (session : Option SessionData) : State :=
  let handler :=
    if s.fanoutReady then
      match resolveCookieUser session with
      | none => .closing
      | some upn => .locking upn
    else .closing
  { s with handlers := s.handlers ++ [handler] }

/-- The handler with the lock: the check, and the close or the entry. -/
def checkAndAdd (s : State) (i : ℕ) (upn : String) : State :=
  if upn ∈ s.activeUpns then
    { s with lock := some i, handlers := s.handlers.set i (.rejecting upn) }
  else
    { s with
      activeUpns := insert upn s.activeUpns
      handlers := s.handlers.set i (.accepting upn) }

def resume (s : State) (i : ℕ) (returns : Bool) : State :=
  match s.handlers[i]? with
  | none | some .ended => s
  | some .closing => { s with handlers := s.handlers.set i .ended }
  | some (.locking upn) =>
    if returns then
      -- the lock is only given while it is free
      if s.lock = none then checkAndAdd s i upn else s
    else { s with handlers := s.handlers.set i .ended }
  | some (.rejecting _) => { s with lock := none, handlers := s.handlers.set i .ended }
  | some (.accepting upn) =>
    -- not inside the `try`: an error ends the handler here
    { s with handlers := s.handlers.set i (if returns then .serving upn else .ended) }
  | some (.serving upn) =>
    -- a message is handled without suspension; an error leads into the `finally`
    { s with handlers := s.handlers.set i (if returns then .serving upn else .releasing upn) }
  | some (.releasing upn) =>
    -- the lock of the cleanup is waited for without errors
    if returns ∧ s.lock = none then
      { s with
        activeUpns := s.activeUpns.erase upn
        handlers := s.handlers.set i .ended }
    else s

def step (s : State) : Action → State
  | .startup => { s with fanoutReady := true }
  | .connect session => connect s session
  | .resume i returns => resume s i returns

/-! ## The property and its condition -/

/-- User of the handler at a position if it is past the admission check. -/
def admittedAt (handlers : List Handler) (i : ℕ) : Option String :=
  handlers[i]?.bind Handler.admitted

/-- At most one handler per user is past the check, and a user is only active
while a handler of that user runs. A connection with a viewer session waits for
the lock, and it is admitted when it gets it unless another handler of the user
still runs. -/
structure CapExact (s : State) : Prop where
  sole : ∀ i j upn, admittedAt s.handlers i = some upn → admittedAt s.handlers j = some upn → i = j
  live : ∀ upn ∈ s.activeUpns, ∃ h ∈ s.handlers, h.user = some upn
  waits : ∀ session upn, resolveCookieUser session = some upn → s.fanoutReady = true →
    (step s (.connect session)).handlers = s.handlers ++ [.locking upn]
  admits : ∀ i upn, s.handlers[i]? = some (.locking upn) → s.lock = none →
    (∀ j h, s.handlers[j]? = some h → h.user = some upn → j = i) →
    (step s (.resume i true)).handlers[i]? = some (.accepting upn)

/-- No accept raises or is cancelled. -/
def Accepts (s : State) : Action → Prop
  | .resume i returns => ∀ upn, s.handlers[i]? = some (.accepting upn) → returns = true
  | _ => True

/-! ## Invariant -/

/-- The active users are those of the handlers past the check, one for each. -/
structure Exact (s : State) : Prop where
  sole : ∀ i j upn, admittedAt s.handlers i = some upn → admittedAt s.handlers j = some upn → i = j
  active_iff : ∀ upn, upn ∈ s.activeUpns ↔ ∃ i, admittedAt s.handlers i = some upn

lemma admittedAt_set {handlers : List Handler} {i : ℕ} {h : Handler} (hi : handlers[i]? = some h)
    (h' : Handler) (j : ℕ) :
    admittedAt (handlers.set i h') j = if i = j then h'.admitted else admittedAt handlers j := by
  unfold admittedAt
  rw [getElem?_set_of_some hi]
  split_ifs <;> rfl

lemma admittedAt_append (handlers : List Handler) {h : Handler} (hh : h.admitted = none) (j : ℕ) :
    admittedAt (handlers ++ [h]) j = admittedAt handlers j := by
  unfold admittedAt
  rcases lt_trichotomy j handlers.length with hlt | rfl | hgt
  · rw [List.getElem?_append_left hlt]
  · simp [hh]
  · rw [List.getElem?_eq_none (by simp; omega), List.getElem?_eq_none (by omega)]

lemma admittedAt_of_getElem? {handlers : List Handler} {i : ℕ} {h : Handler}
    (hi : handlers[i]? = some h) : admittedAt handlers i = h.admitted := by
  simp [admittedAt, hi]

/-- What a resumed handler can do. Only an admission, a failed accept and a
cleanup change which handlers are past the check. -/
theorem resume_cases (s : State) (i : ℕ) (returns : Bool) :
    resume s i returns = s ∨
    (∃ h h' lock, s.handlers[i]? = some h ∧ h'.admitted = h.admitted ∧
      resume s i returns = { s with lock, handlers := s.handlers.set i h' }) ∨
    (∃ upn, s.handlers[i]? = some (.locking upn) ∧ upn ∉ s.activeUpns ∧
      resume s i returns =
        { s with
          activeUpns := insert upn s.activeUpns
          handlers := s.handlers.set i (.accepting upn) }) ∨
    (∃ upn, s.handlers[i]? = some (.accepting upn) ∧ returns = false ∧
      resume s i returns = { s with handlers := s.handlers.set i .ended }) ∨
    (∃ upn, s.handlers[i]? = some (.releasing upn) ∧
      resume s i returns =
        { s with
          activeUpns := s.activeUpns.erase upn
          handlers := s.handlers.set i .ended }) := by
  cases hi : s.handlers[i]? with
  | none => exact .inl (by simp only [resume, hi])
  | some h =>
    cases h with
    | ended => exact .inl (by simp only [resume, hi])
    | closing =>
      exact .inr (.inl ⟨.closing, .ended, s.lock, rfl, rfl, by simp only [resume, hi]⟩)
    | locking upn =>
      by_cases hret : returns = true
      · by_cases hlock : s.lock = none
        · by_cases hactive : upn ∈ s.activeUpns
          · exact .inr (.inl ⟨.locking upn, .rejecting upn, some i, rfl, rfl, by
              simp only [resume, hi, hret, hlock, checkAndAdd, hactive, if_true]⟩)
          · exact .inr (.inr (.inl ⟨upn, rfl, hactive, by
              simp only [resume, hi, hret, hlock, checkAndAdd, hactive, if_true, if_false]⟩))
        · exact .inl (by simp only [resume, hi, hret, hlock, if_true, if_false])
      · exact .inr (.inl ⟨.locking upn, .ended, s.lock, rfl, rfl, by
          simp only [resume, hi, hret]; rfl⟩)
    | rejecting upn =>
      exact .inr (.inl ⟨.rejecting upn, .ended, none, rfl, rfl, by simp only [resume, hi]⟩)
    | accepting upn =>
      cases returns with
      | false => exact .inr (.inr (.inr (.inl ⟨upn, rfl, rfl, by simp only [resume, hi]; rfl⟩)))
      | true =>
        exact .inr (.inl ⟨.accepting upn, .serving upn, s.lock, rfl, rfl, by
          simp only [resume, hi, if_true]⟩)
    | serving upn =>
      refine .inr (.inl ⟨.serving upn, if returns then .serving upn else .releasing upn, s.lock,
        rfl, ?_, by simp only [resume, hi]⟩)
      cases returns <;> rfl
    | releasing upn =>
      by_cases hfree : returns = true ∧ s.lock = none
      · exact .inr (.inr (.inr (.inr ⟨upn, rfl, by simp only [resume, hi, if_pos hfree]⟩)))
      · exact .inl (by simp only [resume, hi, if_neg hfree])

namespace Exact

/-- The invariant only depends on who is past the check and on the set. -/
lemma of_admittedAt {s s' : State} (h : Exact s) (hactive : s'.activeUpns = s.activeUpns)
    (hat : ∀ j, admittedAt s'.handlers j = admittedAt s.handlers j) : Exact s' where
  sole i j upn hi hj := h.sole i j upn (hat i ▸ hi) (hat j ▸ hj)
  active_iff upn := by simp only [hactive, hat, h.active_iff]

lemma connect {s : State} (h : Exact s) (session : Option SessionData) :
    Exact (connect s session) := by
  refine h.of_admittedAt rfl fun j => ?_
  apply admittedAt_append
  split_ifs
  · cases resolveCookieUser session <;> rfl
  · rfl

/-- An admitted user was not in the set, so no handler of that user was past the
check. -/
lemma insert {s : State} (h : Exact s) {i : ℕ} {upn : String}
    (hi : s.handlers[i]? = some (.locking upn)) (hnew : upn ∉ s.activeUpns) :
    Exact
      { s with
        activeUpns := Insert.insert upn s.activeUpns
        handlers := s.handlers.set i (.accepting upn) } := by
  have hnone : ∀ j, admittedAt s.handlers j ≠ some upn := by
    intro j hj
    exact hnew ((h.active_iff upn).mpr ⟨j, hj⟩)
  have hown : admittedAt s.handlers i = none := admittedAt_of_getElem? hi
  refine ⟨fun j k upn' hj hk => ?_, fun upn' => ?_⟩
  · rw [admittedAt_set hi] at hj hk
    by_cases hij : i = j <;> by_cases hik : i = k
    · exact hij.symm.trans hik
    · rw [if_pos hij] at hj
      rw [if_neg hik] at hk
      cases hj
      exact absurd hk (hnone k)
    · rw [if_neg hij] at hj
      rw [if_pos hik] at hk
      cases hk
      exact absurd hj (hnone j)
    · rw [if_neg hij] at hj
      rw [if_neg hik] at hk
      exact h.sole j k upn' hj hk
  · simp only [Finset.mem_insert, h.active_iff, admittedAt_set hi]
    constructor
    · rintro (rfl | ⟨j, hj⟩)
      · exact ⟨i, by rw [if_pos rfl]; rfl⟩
      · refine ⟨j, ?_⟩
        have hij : i ≠ j := by
          rintro rfl
          rw [hown] at hj
          cases hj
        rw [if_neg hij, hj]
    · rintro ⟨j, hj⟩
      by_cases hij : i = j
      · rw [if_pos hij] at hj
        exact .inl (Option.some.inj hj).symm
      · rw [if_neg hij] at hj
        exact .inr ⟨j, hj⟩

/-- The cleanup takes out the user of the only handler past the check. -/
lemma erase {s : State} (h : Exact s) {i : ℕ} {upn : String}
    (hi : s.handlers[i]? = some (.releasing upn)) :
    Exact
      { s with
        activeUpns := s.activeUpns.erase upn
        handlers := s.handlers.set i .ended } := by
  have hown : admittedAt s.handlers i = some upn := admittedAt_of_getElem? hi
  have hset : ∀ j upn', admittedAt (s.handlers.set i .ended) j = some upn' ↔
      i ≠ j ∧ admittedAt s.handlers j = some upn' := by
    intro j upn'
    rw [admittedAt_set hi]
    by_cases hij : i = j <;> simp [hij, Handler.admitted]
  refine ⟨fun j k upn' hj hk => ?_, fun upn' => ?_⟩
  · exact h.sole j k upn' ((hset j upn').mp hj).2 ((hset k upn').mp hk).2
  · simp only [Finset.mem_erase, h.active_iff, hset]
    constructor
    · rintro ⟨hne, j, hj⟩
      refine ⟨j, ?_, hj⟩
      rintro rfl
      exact hne (Option.some.inj (hj.symm.trans hown))
    · rintro ⟨j, hij, hj⟩
      refine ⟨?_, j, hj⟩
      rintro rfl
      exact hij (h.sole i j upn' hown hj)

theorem step {s : State} (h : Exact s) (action : Action) (hacc : Accepts s action) :
    Exact (step s action) := by
  cases action with
  | startup => exact h.of_admittedAt rfl fun _ => rfl
  | connect session => exact h.connect session
  | resume i returns =>
    show Exact (resume s i returns)
    obtain heq | ⟨hd, hd', lock, hi, hsame, heq⟩ | ⟨upn, hi, hnew, heq⟩ | ⟨upn, hi, hfail, _⟩ |
      ⟨upn, hi, heq⟩ := resume_cases s i returns
    · rwa [heq]
    · rw [heq]
      refine h.of_admittedAt rfl fun j => ?_
      rw [admittedAt_set hi]
      by_cases hij : i = j
      · subst hij
        rw [if_pos rfl, hsame, admittedAt_of_getElem? hi]
      · rw [if_neg hij]
    · rw [heq]
      exact h.insert hi hnew
    · have hreturns : returns = true := hacc upn hi
      rw [hfail] at hreturns
      cases hreturns
    · rw [heq]
      exact h.erase hi

theorem capExact {s : State} (h : Exact s) : CapExact s where
  sole := h.sole
  live upn hupn := by
    obtain ⟨i, hi⟩ := (h.active_iff upn).mp hupn
    obtain ⟨hd, hget, hadm⟩ := Option.bind_eq_some_iff.mp hi
    exact ⟨hd, List.mem_of_getElem? hget, Handler.user_of_admitted hadm⟩
  waits session upn hsession hready := by
    simp [WsSankey.step, WsSankey.connect, hready, hsession]
  admits i upn hi hlock hlast := by
    -- an active user has a handler past the check, and this one is not
    have hnew : upn ∉ s.activeUpns := by
      intro hactive
      obtain ⟨j, hj⟩ := (h.active_iff upn).mp hactive
      obtain ⟨hd, hget, hadm⟩ := Option.bind_eq_some_iff.mp hj
      obtain rfl := hlast j hd hget (Handler.user_of_admitted hadm)
      rw [hi] at hget
      cases hget
      cases hadm
    simp only [WsSankey.step, resume, hi, hlock, checkAndAdd, hnew, if_true, if_false]
    rw [getElem?_set_of_some hi, if_pos rfl]

end Exact

lemma initial_exact : Exact initial where
  sole i j upn hi := by simp [initial, admittedAt] at hi
  active_iff upn := by simp [initial, admittedAt]

/-- For every interleaving of handlers of any users, with errors and cancellations
at any other suspension: as long as no accept fails, the cap is exact in every
state of the run. -/
theorem capExact_of_accepts (schedule : List Action) (h : Along step Accepts initial schedule) :
    Throughout step CapExact initial schedule :=
  (throughout_of_along (fun _ action hs hacc => hs.step action hacc) initial_exact h).mono
    fun _ hs => hs.capExact

def alice : SessionData := ⟨"alice@example.com", {"viewer"}⟩

/-- A second connection of the same user is closed, the first one leaves, and a
third one is admitted. -/
def reconnectRun : List Action :=
  [.startup, .connect (some alice), .resume 0 true, .resume 0 true, .connect (some alice),
    .resume 1 true, .resume 1 false, .resume 0 false, .resume 0 true, .connect (some alice),
    .resume 2 true]

theorem capExact_of_accepts_reconnect :
    (run step initial reconnectRun).handlers = [.ended, .ended, .accepting "alice@example.com"] ∧
      Throughout step CapExact initial reconnectRun := by
  refine ⟨by decide +kernel, capExact_of_accepts reconnectRun ?_⟩
  simp [reconnectRun, Along, Accepts, step, connect, resume, checkAndAdd, initial, resolveCookieUser,
    alice]

/-- The accept of the only connection raises: no handler is left, and the next
connection of the user is closed. -/
def failedAcceptRun : List Action :=
  [.startup, .connect (some alice), .resume 0 true, .resume 0 false, .connect (some alice),
    .resume 1 true, .resume 1 true]

theorem failedAcceptRun_locks_user_out :
    let s := run step initial failedAcceptRun
    s.handlers = [.ended, .ended] ∧ s.activeUpns = {"alice@example.com"} ∧
      (run step initial (failedAcceptRun.take 6)).handlers =
        [.ended, .rejecting "alice@example.com"] ∧
      ¬ Throughout step CapExact initial failedAcceptRun := by
  have hactive : (run step initial failedAcceptRun).activeUpns = {"alice@example.com"} := by
    decide +kernel
  have hended : (run step initial failedAcceptRun).handlers = [.ended, .ended] := by
    decide +kernel
  refine ⟨hended, hactive, by decide +kernel, fun h => ?_⟩
  obtain ⟨hd, hmem, huser⟩ := h.last.live "alice@example.com" (by rw [hactive]; simp)
  rw [hended] at hmem
  simp only [List.mem_cons, List.not_mem_nil, or_false, or_self] at hmem
  subst hmem
  cases huser

end FlowDiscovery.WsSankey
