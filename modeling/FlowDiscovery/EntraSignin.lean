import FlowDiscovery.EventTypes
import FlowDiscovery.Machine
import FlowDiscovery.PyIpaddress

/-!
# Polls of the Entra sign-in log

A poll walks the pages of the log from the stored delta link on and yields an event
for every successful sign-in. Only the last page has a delta link, so the position is
stored when all pages before it have been yielded; a poll that fails on the way starts
again from the old position. The log may grow at any time. A link is the position in
the log from which it goes on.
-/
namespace FlowDiscovery.EntraSignin
open Machine PyTime PyIpaddress

/-! ## Items -/

/-- The member `status` of an item; the code is missing or a number. -/
inductive Status where
  | missing
  | null
  | code (errorCode : Option ℤ)
  deriving DecidableEq, Repr

/-- A sign-in whose `createdDateTime` is well formed. -/
structure Item where
  status : Status
  ipAddress : Option String
  userPrincipalName : Option String
  createdDateTime : Instant
  id : Option String
  deriving DecidableEq, Repr

def confIn : ℤ := 80
def confOut : ℤ := 40
def ttlS : ℤ := 3600

/-- `_confidence`. -/
def confidence (cidrs : List Network) (ip : String) : ℤ :=
  match PyIpaddress.ipAddress ip.toList with
  | none => confOut
  | some addr => if cidrs.any fun c => c.contains addr then confIn else confOut

/-- Absent or empty. -/
def truthy (s : Option String) : Option String :=
  match s with
  | some "" => none
  | s => s

/-- What the loop does with an item. -/
inductive Verdict where
  | skip
  | raises
  | event (ev : IdentityEvent)

/-- The body of the loop over a page up to its `yield`. -/
def judge (cidrs : List Network) (item : Item) : Verdict :=
  match item.status with
  | .null => .raises
  | .missing | .code none => .skip
  | .code (some n) =>
    if n ≠ 0 then .skip
    else
      match truthy item.ipAddress, truthy item.userPrincipalName with
      | some ip, some upn => .event {
          ts := item.createdDateTime
          srcIp := ip
          userUpn := upn
          source := "entra_signin"
          eventType := .logon
          confidence := confidence cidrs ip
          ttlSeconds := ttlS
          mac := none
          rawId := item.id }
      | _, _ => .skip

/-! ## Polls -/

/-- Where the one poll at a time is suspended: on the token, on the page at a position,
or on a `yield` with the rest of a page that ends at `stop`. -/
inductive Phase where
  | idle
  | authorizing
  | getting (start : ℕ)
  | yielding (rest : List (ℕ × Item)) (stop : ℕ) (hasNext hasDelta : Bool)

/-- `yielded` records the events with the positions of their items. -/
structure State where
  log : List Item
  deltaLink : Option ℕ
  phase : Phase
  yielded : List (ℕ × IdentityEvent)

/-- `grow` is the log's, the others are the poll's. The server cuts the pages, may
leave out failed sign-ins, as the filter of the first link asks it to, and puts a link
to the next page, a delta link, both or none on a page. `fail` is a failed request, a
body that is no page, or the end of the consumer. -/
inductive Action where
  | grow (items : List Item)
  | pollOnce
  | token
  | page (size : ℕ) (filtered hasNext hasDelta : Bool)
  | resume
  | fail

def initial : State := ⟨[], none, .idle, []⟩

section

variable (cidrs : List Network)

/-- After the last item of a page. -/
def pageEnd (s : State) (stop : ℕ) (hasNext hasDelta : Bool) : State :=
  if hasNext then { s with phase := .getting stop }
  else if hasDelta then { s with phase := .idle, deltaLink := some stop }
  else { s with phase := .idle }

/-- The loop over a page from its next item on to the next suspension. -/
def scan (s : State) (stop : ℕ) (hasNext hasDelta : Bool) : List (ℕ × Item) → State
  | [] => pageEnd s stop hasNext hasDelta
  | (i, item) :: rest =>
    match judge cidrs item with
    | .skip => scan s stop hasNext hasDelta rest
    | .raises => { s with phase := .idle }
    | .event ev =>
      { s with
        phase := .yielding rest stop hasNext hasDelta
        yielded := s.yielded ++ [(i, ev)] }

/-- The items of the log from one position up to another. -/
def itemsOf (log : List Item) (start stop : ℕ) (filtered : Bool) : List (ℕ × Item) :=
  ((log.zipIdx.map Prod.swap).take stop).drop start |>.filter fun e =>
    !filtered || decide (e.2.status = .code (some 0))

def step (s : State) : Action → State
  | .grow items => { s with log := s.log ++ items }
  | .pollOnce =>
    match s.phase with
    | .idle => { s with phase := .authorizing }
    | _ => s
  | .token =>
    match s.phase with
    | .authorizing => { s with phase := .getting (s.deltaLink.getD 0) }
    | _ => s
  | .page size filtered hasNext hasDelta =>
    match s.phase with
    | .getting start =>
      let stop := min (start + size) s.log.length
      scan cidrs s stop hasNext hasDelta (itemsOf s.log start stop filtered)
    | _ => s
  | .resume =>
    match s.phase with
    | .yielding rest stop hasNext hasDelta => scan cidrs s stop hasNext hasDelta rest
    | _ => s
  | .fail => { s with phase := .idle }

/-! ## The property -/

/-- A successful sign-in with an address and a user name. -/
structure Eligible (item : Item) (ip upn : String) : Prop where
  status : item.status = .code (some 0)
  ipAddress : item.ipAddress = some ip
  userPrincipalName : item.userPrincipalName = some upn
  ip_ne : ip ≠ ""
  upn_ne : upn ≠ ""

/-- The address lies in one of the networks. -/
def InCorp (ip : String) : Prop :=
  ∃ addr, PyIpaddress.ipAddress ip.toList = some addr ∧ ∃ c ∈ cidrs, c.contains addr

lemma truthy_of_ne {s : String} (h : s ≠ "") : truthy (some s) = some s := by
  unfold truthy
  split
  · rename_i heq
    exact absurd (Option.some.inj heq) h
  · rfl

lemma confidence_iff (ip : String) :
    (confidence cidrs ip = 80 ↔ InCorp cidrs ip) ∧ (confidence cidrs ip = 40 ↔ ¬ InCorp cidrs ip) := by
  unfold confidence InCorp confIn confOut
  cases PyIpaddress.ipAddress ip.toList with
  | none => simp
  | some addr =>
    by_cases hany : ∃ c ∈ cidrs, c.contains addr
    · simp [hany]
    · simp [hany]

/-- An eligible item gives an event with its address, its user and the confidence of
the address. -/
theorem judge_eligible {item : Item} {ip upn : String} (h : Eligible item ip upn) :
    ∃ ev, judge cidrs item = .event ev ∧ ev.srcIp = ip ∧ ev.userUpn = upn ∧
      ev.ts = item.createdDateTime ∧ (ev.confidence = 80 ↔ InCorp cidrs ip) ∧
      (ev.confidence = 40 ↔ ¬ InCorp cidrs ip) := by
  have hconf := confidence_iff cidrs ip
  unfold judge
  rw [h.status, h.ipAddress, h.userPrincipalName]
  simp only [truthy_of_ne h.ip_ne, truthy_of_ne h.upn_ne]
  exact ⟨_, rfl, rfl, rfl, rfl, hconf.1, hconf.2⟩

/-- A poll may go on from the position with `rest` as the remainder of its page: every
event before the position was yielded or is still to come from `rest`. -/
structure Walked (s : State) (position : ℕ) (rest : List (ℕ × Item)) : Prop where
  ahead : s.deltaLink.getD 0 ≤ position
  within : position ≤ s.log.length
  yielded : ∀ i item ev, i < position → s.log[i]? = some item → judge cidrs item = .event ev →
    (i, ev) ∈ s.yielded ∨ (i, item) ∈ rest

/-- The stored position and the one of the poll under way are both safe. -/
structure Inv (s : State) : Prop where
  stored : Walked cidrs s (s.deltaLink.getD 0) []
  getting : ∀ start, s.phase = .getting start → Walked cidrs s start []
  yielding : ∀ rest stop n d, s.phase = .yielding rest stop n d → Walked cidrs s stop rest

/-- The stored position does not move backwards. -/
def Advances (s t : State) : Prop :=
  ∀ p, s.deltaLink = some p → ∃ q, t.deltaLink = some q ∧ p ≤ q

lemma inv_initial : Inv cidrs initial :=
  ⟨⟨le_rfl, le_rfl, fun _ _ _ hi => absurd hi (Nat.not_lt_zero _)⟩, nofun, nofun⟩

lemma Advances.refl (s : State) : Advances s s := fun p hp => ⟨p, hp, le_rfl⟩

lemma Advances.trans {s t u : State} (hst : Advances s t) (htu : Advances t u) :
    Advances s u := by
  intro p hp
  obtain ⟨q, hq, hpq⟩ := hst p hp
  obtain ⟨r, hr, hqr⟩ := htu q hq
  exact ⟨r, hr, hpq.trans hqr⟩

variable {cidrs}

lemma Walked.suspend {s : State} {position : ℕ} {rest : List (ℕ × Item)}
    (h : Walked cidrs s position rest) (phase : Phase) :
    Walked cidrs { s with phase := phase } position rest :=
  ⟨h.ahead, h.within, h.yielded⟩

lemma Walked.grow {s : State} {position : ℕ} {rest : List (ℕ × Item)}
    (h : Walked cidrs s position rest) (items : List Item) :
    Walked cidrs { s with log := s.log ++ items } position rest := by
  have hle : position ≤ (s.log ++ items).length := by
    rw [List.length_append]
    exact h.within.trans (Nat.le_add_right _ _)
  refine ⟨h.ahead, hle, fun i item ev hi hitem hev => ?_⟩
  rw [List.getElem?_append_left (hi.trans_le h.within)] at hitem
  exact h.yielded i item ev hi hitem hev

/-- With the page done, its end is as good a position as the stored one. -/
lemma Walked.store {s : State} {stop : ℕ} (h : Walked cidrs s stop []) (phase : Phase) :
    Walked cidrs { s with phase := phase, deltaLink := some stop } stop [] :=
  ⟨le_rfl, h.within, h.yielded⟩

/-- The next item is dropped from the remainder when it gives no event. -/
lemma Walked.skip {s : State} {stop i : ℕ} {item : Item} {rest : List (ℕ × Item)}
    (h : Walked cidrs s stop ((i, item) :: rest)) (hskip : judge cidrs item = .skip) :
    Walked cidrs s stop rest := by
  refine ⟨h.ahead, h.within, fun j other ev hj hother hev => ?_⟩
  rcases h.yielded j other ev hj hother hev with hmem | hmem
  · exact .inl hmem
  · rcases List.mem_cons.mp hmem with heq | hmem
    · obtain ⟨rfl, rfl⟩ := Prod.mk.inj heq
      rw [hskip] at hev
      contradiction
    · exact .inr hmem

/-- The next item is dropped from the remainder when its event is yielded. -/
lemma Walked.event {s : State} {stop i : ℕ} {item : Item} {ev : IdentityEvent}
    {rest : List (ℕ × Item)} (h : Walked cidrs s stop ((i, item) :: rest))
    (hitem : judge cidrs item = .event ev) (phase : Phase) :
    Walked cidrs { s with phase := phase, yielded := s.yielded ++ [(i, ev)] } stop rest := by
  refine ⟨h.ahead, h.within, fun j other ev' hj hother hev => ?_⟩
  rcases h.yielded j other ev' hj hother hev with hmem | hmem
  · exact .inl (List.mem_append_left _ hmem)
  · rcases List.mem_cons.mp hmem with heq | hmem
    · obtain ⟨rfl, rfl⟩ := Prod.mk.inj heq
      rw [hitem] at hev
      obtain rfl := Verdict.event.inj hev
      exact .inl (List.mem_append_right _ (List.mem_singleton_self _))
    · exact .inr hmem

/-! ## Pages -/

/-- An item with an event has the status that the filter of the first link asks for. -/
lemma status_of_event {item : Item} {ev : IdentityEvent} (h : judge cidrs item = .event ev) :
    item.status = .code (some 0) := by
  unfold judge at h
  split at h
  · contradiction
  · contradiction
  · contradiction
  · rename_i n hstatus
    split at h
    · contradiction
    · rename_i hn
      rw [hstatus, not_not.mp hn]

lemma mem_itemsOf {log : List Item} {start stop i : ℕ} {filtered : Bool} {item : Item}
    (hstart : start ≤ i) (hstop : i < stop) (hitem : log[i]? = some item)
    (hstatus : item.status = .code (some 0)) : (i, item) ∈ itemsOf log start stop filtered := by
  unfold itemsOf
  refine List.mem_filter.mpr ⟨List.mem_iff_getElem?.mpr ⟨i - start, ?_⟩, by simp [hstatus]⟩
  rw [List.getElem?_drop, Nat.add_sub_cancel' hstart, List.getElem?_take_of_lt hstop]
  simp [hitem]

/-- A page from a safe position on leaves nothing out up to its end. -/
lemma Walked.page {s : State} {start : ℕ} (h : Walked cidrs s start []) (size : ℕ)
    (filtered : Bool) :
    Walked cidrs s (min (start + size) s.log.length)
      (itemsOf s.log start (min (start + size) s.log.length) filtered) := by
  have hle : start ≤ min (start + size) s.log.length :=
    le_min (Nat.le_add_right _ _) h.within
  refine ⟨h.ahead.trans hle, min_le_right _ _, fun i item ev hi hitem hev => ?_⟩
  by_cases hstart : i < start
  · exact (h.yielded i item ev hstart hitem hev).imp_right (fun hmem => absurd hmem List.not_mem_nil)
  · exact .inr (mem_itemsOf (Nat.not_lt.mp hstart) hi hitem (status_of_event hev))

lemma inv_idle {s : State} (h : Walked cidrs s (s.deltaLink.getD 0) []) :
    Inv cidrs { s with phase := .idle } :=
  ⟨h.suspend .idle, nofun, nofun⟩

/-- After the last item the position moves to the end of the page, or not at all. -/
lemma pageEnd_spec {s : State} {stop : ℕ} (h : Walked cidrs s (s.deltaLink.getD 0) [])
    (hstop : Walked cidrs s stop []) (hasNext hasDelta : Bool) :
    Inv cidrs (pageEnd s stop hasNext hasDelta) ∧ Advances s (pageEnd s stop hasNext hasDelta) := by
  unfold pageEnd
  split
  · refine ⟨⟨h.suspend _, fun start hstart => ?_, nofun⟩, Advances.refl s⟩
    obtain rfl := Phase.getting.inj hstart
    exact hstop.suspend _
  · split
    · refine ⟨⟨hstop.store _, nofun, nofun⟩, fun p hp => ⟨stop, rfl, ?_⟩⟩
      have hahead := hstop.ahead
      rw [hp] at hahead
      exact hahead
    · exact ⟨inv_idle h, Advances.refl s⟩

/-- Induction on the remainder of the page. Only its end stores a position. -/
lemma scan_spec {s : State} {stop : ℕ} (h : Walked cidrs s (s.deltaLink.getD 0) [])
    (hasNext hasDelta : Bool) (rest : List (ℕ × Item)) (hrest : Walked cidrs s stop rest) :
    Inv cidrs (scan cidrs s stop hasNext hasDelta rest) ∧
      Advances s (scan cidrs s stop hasNext hasDelta rest) := by
  induction rest with
  | nil => exact pageEnd_spec h hrest hasNext hasDelta
  | cons entry rest ih =>
    obtain ⟨i, item⟩ := entry
    unfold scan
    split
    · rename_i hskip
      exact ih (hrest.skip hskip)
    · exact ⟨inv_idle h, Advances.refl s⟩
    · rename_i ev hev
      refine ⟨⟨?_, nofun, fun rest' stop' n d hphase => ?_⟩, Advances.refl s⟩
      · exact ⟨h.ahead, h.within, fun j other ev' hj hother hev' =>
          (h.yielded j other ev' hj hother hev').imp_left (List.mem_append_left _)⟩
      · obtain ⟨rfl, rfl, rfl, rfl⟩ := Phase.yielding.inj hphase
        exact hrest.event hev _

/-! ## Runs -/

lemma step_spec {s : State} (h : Inv cidrs s) (a : Action) :
    Inv cidrs (step cidrs s a) ∧ Advances s (step cidrs s a) := by
  have hsame : Inv cidrs s ∧ Advances s s := ⟨h, Advances.refl s⟩
  cases a with
  | grow items =>
    refine ⟨⟨h.stored.grow items, fun start hstart => ?_, fun rest stop n d hphase => ?_⟩,
      Advances.refl s⟩
    · exact (h.getting start hstart).grow items
    · exact (h.yielding rest stop n d hphase).grow items
  | pollOnce =>
    simp only [step]
    split
    · exact ⟨⟨h.stored.suspend _, nofun, nofun⟩, Advances.refl s⟩
    · exact hsame
  | token =>
    simp only [step]
    split
    · refine ⟨⟨h.stored.suspend _, fun start hstart => ?_, nofun⟩, Advances.refl s⟩
      obtain rfl := Phase.getting.inj hstart
      exact h.stored.suspend _
    · exact hsame
  | page size filtered hasNext hasDelta =>
    simp only [step]
    split
    · rename_i start hphase
      exact scan_spec h.stored hasNext hasDelta _ ((h.getting start hphase).page size filtered)
    · exact hsame
  | resume =>
    simp only [step]
    split
    · rename_i rest stop hasNext hasDelta hphase
      exact scan_spec h.stored hasNext hasDelta rest (h.yielding rest stop _ _ hphase)
    · exact hsame
  | fail => exact ⟨inv_idle h.stored, Advances.refl s⟩

lemma run_spec {s : State} (h : Inv cidrs s) (actions : List Action) :
    Inv cidrs (run (step cidrs) s actions) ∧ Advances s (run (step cidrs) s actions) := by
  refine run_invariant (I := fun t => Inv cidrs t ∧ Advances s t) (fun t a ht => ?_)
    ⟨h, Advances.refl s⟩ actions
  obtain ⟨hinv, hadv⟩ := step_spec ht.1 a
  exact ⟨hinv, ht.2.trans hadv⟩

variable (cidrs)

/-- In every run each successful sign-in with an address and a user that precedes the
stored position has been yielded, with the confidence of its address, and the stored
position never moves backwards. -/
theorem signins_yielded (actions : List Action) :
    (∀ position i item ip upn, (run (step cidrs) initial actions).deltaLink = some position →
      i < position → (run (step cidrs) initial actions).log[i]? = some item →
      Eligible item ip upn →
      ∃ ev, (i, ev) ∈ (run (step cidrs) initial actions).yielded ∧ ev.srcIp = ip ∧
        ev.userUpn = upn ∧ ev.ts = item.createdDateTime ∧
        (ev.confidence = 80 ↔ InCorp cidrs ip) ∧ (ev.confidence = 40 ↔ ¬ InCorp cidrs ip)) ∧
    ∀ before after, actions = before ++ after →
      ∀ p, (run (step cidrs) initial before).deltaLink = some p →
        ∃ q, (run (step cidrs) initial actions).deltaLink = some q ∧ p ≤ q := by
  obtain ⟨hinv, -⟩ := run_spec (inv_initial cidrs) actions
  refine ⟨fun position i item ip upn hdelta hi hitem helig => ?_, fun before after hactions => ?_⟩
  · obtain ⟨ev, hev, hfields⟩ := judge_eligible cidrs helig
    have hstored := hinv.stored
    rw [hdelta] at hstored
    rcases hstored.yielded i item ev hi hitem hev with hmem | hmem
    · exact ⟨ev, hmem, hfields⟩
    · exact absurd hmem List.not_mem_nil
  · rw [hactions, run_append]
    exact (run_spec (run_spec (inv_initial cidrs) before).1 after).2

/-! A poll that loses its second page, and the one after it. -/

def corpNet : Network := ⟨.v4, 0x0A000000, 8⟩

def signin (ip upn : String) (errorCode : ℤ) : Item :=
  ⟨.code (some errorCode), some ip, some upn, 0, none⟩

def lostPageRun : List Action :=
  [.grow [signin "10.1.2.3" "alice@corp.example" 0, signin "10.1.2.4" "svc@corp.example" 50126,
      signin "198.51.100.5" "bob@corp.example" 0],
    .pollOnce, .token, .page 2 false true false, .resume, .fail,
    .pollOnce, .token, .page 1 false true false, .resume, .page 5 false false true, .resume]

/-- The second poll starts over and stores its position only after the last page. -/
theorem signins_yielded_lostPage :
    (∃ ev, (2, ev) ∈ (run (step [corpNet]) initial lostPageRun).yielded ∧
      ev.srcIp = "198.51.100.5" ∧ ev.confidence = 40) ∧
    ∃ q, (run (step [corpNet]) initial lostPageRun).deltaLink = some q ∧ 3 ≤ q := by
  have hdelta : (run (step [corpNet]) initial lostPageRun).deltaLink = some 3 := by
    decide +kernel
  have hitem : (run (step [corpNet]) initial lostPageRun).log[2]? =
      some (signin "198.51.100.5" "bob@corp.example" 0) := by
    decide +kernel
  have hout : ¬ InCorp [corpNet] "198.51.100.5" :=
    (confidence_iff [corpNet] "198.51.100.5").2.mp (by decide +kernel)
  obtain ⟨hyielded, hadv⟩ := signins_yielded [corpNet] lostPageRun
  obtain ⟨ev, hmem, hip, -, -, -, hconf⟩ := hyielded 3 2 _ "198.51.100.5" "bob@corp.example"
    hdelta (by decide) hitem ⟨rfl, rfl, rfl, by decide, by decide⟩
  exact ⟨⟨ev, hmem, hip, hconf.mpr hout⟩, hadv lostPageRun [] (by simp) 3 hdelta⟩

end

end FlowDiscovery.EntraSignin
