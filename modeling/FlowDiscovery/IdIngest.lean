import FlowDiscovery.EventTypes
import FlowDiscovery.Machine
import Mathlib.Data.Finset.Insert

/-!
# Identity ingest and on-demand group lookups

Every adapter has a task that writes its events to the stream and then looks up
the groups of users it has not seen before, one configured sync after the other.
All tasks run under one `gather`. A sync that raises ends the task of the adapter
at that point, with the user already marked as seen, and the error of one task
makes the service shut all of them down.
-/
namespace FlowDiscovery.IdIngest
open Machine

/-- A configured sync: the users for which its `sync_user` raises. -/
structure GroupSync where
  raises : String → Bool

/-- Where an adapter's task is suspended: on the next event, on `XADD`, on the
call of a sync for a user. -/
inductive TaskState where
  | polling
  | adding (ev : IdentityEvent)
  | syncing (upn : String) (k : ℕ)
  | ended
  deriving DecidableEq

/-- `produced`, `added` and `calls` are histories, tagged with the adapter or the
user. `failed` says that a task of the `gather` has raised. -/
structure State where
  tasks : List TaskState
  seenUpns : Finset String
  failed : Bool
  produced : List (ℕ × IdentityEvent)
  added : List (ℕ × IdentityEvent)
  calls : List (String × ℕ)
  deriving DecidableEq

inductive Action where
  | produce (task : ℕ) (ev : IdentityEvent)
  | xadded (task : ℕ)
  | synced (task : ℕ)
  | shutdown

def initial (adapters : ℕ) : State where
  tasks := List.replicate adapters .polling
  seenUpns := ∅
  failed := false
  produced := []
  added := []
  calls := []

/-- The adapter yields an event. -/
def produce (s : State) (task : ℕ) (ev : IdentityEvent) : State :=
  match s.tasks[task]? with
  | some .polling =>
    { s with tasks := s.tasks.set task (.adding ev), produced := s.produced ++ [(task, ev)] }
  | _ => s

/-- `on_new_upn` up to its first suspension, from `_run_adapter` after `xadd`. -/
def onNewUpn (syncs : List GroupSync) (s : State) (task : ℕ) (upn : String) : State :=
  if upn = "" ∨ syncs = [] ∨ upn ∈ s.seenUpns then { s with tasks := s.tasks.set task .polling }
  else
    { s with
      seenUpns := insert upn s.seenUpns
      calls := s.calls ++ [(upn, 0)]
      tasks := s.tasks.set task (.syncing upn 0) }

def xadded (syncs : List GroupSync) (s : State) (task : ℕ) : State :=
  match s.tasks[task]? with
  | some (.adding ev) =>
    onNewUpn syncs { s with added := s.added ++ [(task, ev)] } task ev.userUpn
  | _ => s

/-- A call of `sync_user` ends: it raises through `on_new_upn` and `_run_adapter`,
or the loop goes on to the next sync. -/
def synced (syncs : List GroupSync) (s : State) (task : ℕ) : State :=
  match s.tasks[task]? with
  | some (.syncing upn k) =>
    if syncs[k]?.any fun sync => sync.raises upn then
      { s with tasks := s.tasks.set task .ended, failed := true }
    else if k + 1 < syncs.length then
      { s with
        calls := s.calls ++ [(upn, k + 1)]
        tasks := s.tasks.set task (.syncing upn (k + 1)) }
    else { s with tasks := s.tasks.set task .polling }
  | _ => s

/-- `gather` has raised, `_main` closes the producer and returns, and the event
loop cancels what is left. -/
def shutdown (s : State) : State :=
  if s.failed then { s with tasks := s.tasks.map fun _ => .ended } else s

def step (syncs : List GroupSync) (s : State) : Action → State
  | .produce task ev => produce s task ev
  | .xadded task => xadded syncs s task
  | .synced task => synced syncs s task
  | .shutdown => shutdown s

/-! ## The property and its condition -/

/-- The event a task in this state has not written yet. -/
def TaskState.inHand : TaskState → List IdentityEvent
  | .adding ev => [ev]
  | _ => []

def inHand (s : State) (task : ℕ) : List IdentityEvent :=
  (s.tasks[task]?.map TaskState.inHand).getD []

/-- No adapter has stopped; each has written its events in order but for the one
in hand; and for each user written so far every sync was called exactly once, in
order, unless a task is still on the way through the syncs for that user. -/
structure GoesOn (syncs : List GroupSync) (s : State) : Prop where
  running : ∀ t ∈ s.tasks, t ≠ .ended
  written : ∀ task, entriesOf task s.produced = entriesOf task s.added ++ inHand s task
  called : ∀ e ∈ s.added, e.2.userUpn ≠ "" →
    entriesOf e.2.userUpn s.calls = List.range syncs.length ∨
    ∃ (task k : ℕ), s.tasks[task]? = some (.syncing e.2.userUpn k) ∧
      entriesOf e.2.userUpn s.calls = List.range (k + 1)

/-- The call that ends does not raise. -/
def Succeeds (syncs : List GroupSync) (s : State) : Action → Prop
  | .synced task => ∀ upn k, s.tasks[task]? = some (.syncing upn k) →
    ∀ sync, syncs[k]? = some sync → sync.raises upn = false
  | _ => True

/-! ## What a step does -/

theorem produce_cases (s : State) (task : ℕ) (ev : IdentityEvent) :
    produce s task ev = s ∨
    (s.tasks[task]? = some .polling ∧ produce s task ev =
      { s with tasks := s.tasks.set task (.adding ev), produced := s.produced ++ [(task, ev)] }) := by
  unfold produce
  split
  · next htask => exact .inr ⟨htask, rfl⟩
  · exact .inl rfl

theorem xadded_cases (syncs : List GroupSync) (s : State) (task : ℕ) :
    xadded syncs s task = s ∨
    ∃ ev, s.tasks[task]? = some (.adding ev) ∧
      (((ev.userUpn = "" ∨ syncs = [] ∨ ev.userUpn ∈ s.seenUpns) ∧ xadded syncs s task =
          { s with added := s.added ++ [(task, ev)], tasks := s.tasks.set task .polling }) ∨
        (ev.userUpn ∉ s.seenUpns ∧ syncs ≠ [] ∧ xadded syncs s task =
          { s with
            added := s.added ++ [(task, ev)]
            seenUpns := insert ev.userUpn s.seenUpns
            calls := s.calls ++ [(ev.userUpn, 0)]
            tasks := s.tasks.set task (.syncing ev.userUpn 0) })) := by
  unfold xadded
  split
  · next ev htask =>
    refine .inr ⟨ev, htask, ?_⟩
    unfold onNewUpn
    split_ifs with hskip
    · exact .inl ⟨hskip, rfl⟩
    · push Not at hskip
      exact .inr ⟨hskip.2.2, hskip.2.1, rfl⟩
  · exact .inl rfl

theorem synced_cases (syncs : List GroupSync) (s : State) (task : ℕ)
    (hok : Succeeds syncs s (.synced task)) :
    synced syncs s task = s ∨
    ∃ upn k, s.tasks[task]? = some (.syncing upn k) ∧
      ((k + 1 < syncs.length ∧ synced syncs s task =
          { s with
            calls := s.calls ++ [(upn, k + 1)]
            tasks := s.tasks.set task (.syncing upn (k + 1)) }) ∨
        (syncs.length ≤ k + 1 ∧ synced syncs s task =
          { s with tasks := s.tasks.set task .polling })) := by
  unfold synced
  split
  · next upn k htask =>
    refine .inr ⟨upn, k, htask, ?_⟩
    have hno : (syncs[k]?.any fun sync => sync.raises upn) = false := by
      cases hk : syncs[k]? with
      | none => rfl
      | some sync => exact hok upn k htask sync hk
    rw [hno]
    by_cases hnext : k + 1 < syncs.length
    · exact .inl ⟨hnext, by simp [hnext]⟩
    · exact .inr ⟨by omega, by simp [hnext]⟩
  · exact .inl rfl

/-! ## Invariant -/

/-- All syncs were called for the user and no task is at it, or one task is. -/
def Settled (syncs : List GroupSync) (tasks : List TaskState) (calls : List (String × ℕ))
    (upn : String) : Prop :=
  (entriesOf upn calls = List.range syncs.length ∧
    ∀ (task k : ℕ), tasks[task]? ≠ some (.syncing upn k)) ∨
  ∃ (task k : ℕ), tasks[task]? = some (.syncing upn k) ∧
    entriesOf upn calls = List.range (k + 1) ∧
    ∀ (task' k' : ℕ), tasks[task']? = some (.syncing upn k') → task' = task

structure Tracked (syncs : List GroupSync) (s : State) : Prop where
  running : ∀ t ∈ s.tasks, t ≠ .ended
  not_failed : s.failed = false
  written : ∀ task, entriesOf task s.produced = entriesOf task s.added ++ inHand s task
  unseen : ∀ upn ∉ s.seenUpns, entriesOf upn s.calls = []
  seen : ∀ e ∈ s.added, e.2.userUpn ≠ "" → syncs ≠ [] → e.2.userUpn ∈ s.seenUpns
  settled : ∀ upn ∈ s.seenUpns, Settled syncs s.tasks s.calls upn
  busy : ∀ (task : ℕ) (upn : String) (k : ℕ), s.tasks[task]? = some (.syncing upn k) →
    upn ∈ s.seenUpns ∧ k < syncs.length

/-- A task that is at a user neither before nor after it moves does not matter
for that user. -/
lemma syncing_set_iff {tasks : List TaskState} {i : ℕ} {t t' : TaskState} {upn : String}
    (h : tasks[i]? = some t) (ht : ∀ k, t ≠ .syncing upn k) (ht' : ∀ k, t' ≠ .syncing upn k)
    (j k : ℕ) :
    (tasks.set i t')[j]? = some (.syncing upn k) ↔ tasks[j]? = some (.syncing upn k) := by
  rw [getElem?_set_of_some h]
  split_ifs with hij
  · subst hij
    rw [h]
    simp [ht k, ht' k]
  · rfl

lemma Settled.set {syncs : List GroupSync} {tasks : List TaskState} {calls calls' : List (String × ℕ)}
    {upn : String} (hs : Settled syncs tasks calls upn) {i : ℕ} {t t' : TaskState}
    (h : tasks[i]? = some t) (ht : ∀ k, t ≠ .syncing upn k) (ht' : ∀ k, t' ≠ .syncing upn k)
    (hcalls : entriesOf upn calls' = entriesOf upn calls) :
    Settled syncs (tasks.set i t') calls' upn := by
  have hiff := syncing_set_iff h ht ht'
  unfold Settled at hs ⊢
  simpa only [hcalls, ne_eq, hiff] using hs

lemma inHand_set {s : State} {i : ℕ} {t : TaskState} (h : s.tasks[i]? = some t) (t' : TaskState)
    (j : ℕ) (rest : State) (hrest : rest.tasks = s.tasks.set i t') :
    inHand rest j = if i = j then t'.inHand else inHand s j := by
  unfold inHand
  rw [hrest, getElem?_set_of_some h]
  split_ifs
  · rfl
  · rfl

/-- A task with nothing in hand before and after it moves. -/
lemma inHand_set_of_empty {s : State} {i : ℕ} {t t' : TaskState} (h : s.tasks[i]? = some t)
    (ht : t.inHand = []) (ht' : t'.inHand = []) (j : ℕ) (rest : State)
    (hrest : rest.tasks = s.tasks.set i t') : inHand rest j = inHand s j := by
  rw [inHand_set h t' j rest hrest]
  split_ifs with hij
  · subst hij
    have hmine : inHand s i = [] := by simp [inHand, h, ht]
    rw [ht', hmine]
  · rfl

/-- The only task at a user is the one that is found there. -/
lemma Settled.sole {syncs : List GroupSync} {tasks : List TaskState} {calls : List (String × ℕ)}
    {upn : String} (hs : Settled syncs tasks calls upn) {i k : ℕ}
    (h : tasks[i]? = some (.syncing upn k)) :
    entriesOf upn calls = List.range (k + 1) ∧
      ∀ (j k' : ℕ), i ≠ j → tasks[j]? ≠ some (.syncing upn k') := by
  obtain ⟨_, hnone⟩ | ⟨i', k', hi, hcalls, hsole⟩ := hs
  · exact absurd h (hnone i k)
  · obtain rfl := hsole i k h
    rw [h] at hi
    cases hi
    exact ⟨hcalls, fun j k' hj hbusy => hj (hsole j k' hbusy).symm⟩

/-- A task moves to sync `k` of a user that no other task is at. -/
lemma Settled.enter {syncs : List GroupSync} {tasks : List TaskState} {calls : List (String × ℕ)}
    {upn : String} {i k : ℕ} {t : TaskState} (h : tasks[i]? = some t)
    (hother : ∀ (j k' : ℕ), i ≠ j → tasks[j]? ≠ some (.syncing upn k'))
    (hcalls : entriesOf upn calls = List.range k) :
    Settled syncs (tasks.set i (.syncing upn k)) (calls ++ [(upn, k)]) upn := by
  refine .inr ⟨i, k, ?_, ?_, fun j k' hj => ?_⟩
  · rw [getElem?_set_of_some h, if_pos rfl]
  · rw [entriesOf_append, hcalls, entriesOf_singleton, if_pos rfl, ← List.range_succ]
  · rw [getElem?_set_of_some h] at hj
    split_ifs at hj with hij
    · exact hij.symm
    · exact absurd hj (hother j k' hij)

/-- The only task at a user leaves it after the last sync. -/
lemma Settled.leave {syncs : List GroupSync} {tasks : List TaskState} {calls : List (String × ℕ)}
    {upn : String} {i : ℕ} {t t' : TaskState} (h : tasks[i]? = some t)
    (ht' : ∀ k, t' ≠ .syncing upn k)
    (hother : ∀ (j k' : ℕ), i ≠ j → tasks[j]? ≠ some (.syncing upn k'))
    (hcalls : entriesOf upn calls = List.range syncs.length) :
    Settled syncs (tasks.set i t') calls upn := by
  refine .inl ⟨hcalls, fun j k' hj => ?_⟩
  rw [getElem?_set_of_some h] at hj
  split_ifs at hj with hij
  · exact ht' k' (Option.some.inj hj)
  · exact hother j k' hij hj

theorem Tracked.produce {syncs : List GroupSync} {s : State} (h : Tracked syncs s) (task : ℕ)
    (ev : IdentityEvent) : Tracked syncs (produce s task ev) := by
  obtain heq | ⟨htask, heq⟩ := produce_cases s task ev
  · rw [heq]
    exact h
  · rw [heq]
    refine ⟨forall_mem_set h.running (by simp) task, h.not_failed, fun j => ?_, h.unseen, h.seen,
      fun upn hupn => ?_, fun j upn k hj => ?_⟩
    · have hold := h.written j
      rw [inHand_set htask (.adding ev) j _ rfl, entriesOf_append, entriesOf_singleton, hold]
      by_cases hj : task = j
      · subst hj
        simp [inHand, htask, TaskState.inHand]
      · simp [hj]
    · exact (h.settled upn hupn).set htask (by simp) (by simp) rfl
    · rw [syncing_set_iff htask (by simp) (by simp)] at hj
      exact h.busy j upn k hj

/-- A write moves the event in hand to the written ones. -/
lemma written_set {s : State} {task : ℕ} {ev : IdentityEvent}
    (hw : ∀ j, entriesOf j s.produced = entriesOf j s.added ++ inHand s j)
    (htask : s.tasks[task]? = some (.adding ev)) {t' : TaskState} (ht' : t'.inHand = [])
    (rest : State) (htasks : rest.tasks = s.tasks.set task t')
    (hproduced : rest.produced = s.produced) (hadded : rest.added = s.added ++ [(task, ev)]) (j : ℕ) :
    entriesOf j rest.produced = entriesOf j rest.added ++ inHand rest j := by
  rw [inHand_set htask t' j rest htasks, hproduced, hadded, hw j, entriesOf_append,
    entriesOf_singleton]
  by_cases hj : task = j
  · subst hj
    have hev : inHand s task = [ev] := by simp [inHand, htask, TaskState.inHand]
    simp [hev, ht']
  · simp [hj]

theorem Tracked.xadded {syncs : List GroupSync} {s : State} (h : Tracked syncs s) (task : ℕ) :
    Tracked syncs (xadded syncs s task) := by
  obtain heq | ⟨ev, htask, ⟨hskip, heq⟩ | ⟨hnew, hsyncs, heq⟩⟩ := xadded_cases syncs s task
  · rw [heq]
    exact h
  · rw [heq]
    refine ⟨forall_mem_set h.running (by simp) task, h.not_failed,
      written_set h.written htask rfl _ rfl rfl rfl, h.unseen, fun e he hne hsyncs => ?_,
      fun upn hupn => (h.settled upn hupn).set htask (by simp) (by simp) rfl,
      fun j upn k hj => ?_⟩
    · rcases List.mem_append.mp he with he | he
      · exact h.seen e he hne hsyncs
      · obtain rfl := List.mem_singleton.mp he
        exact (hskip.resolve_left hne).resolve_left hsyncs
    · rw [syncing_set_iff htask (by simp) (by simp)] at hj
      exact h.busy j upn k hj
  · rw [heq]
    have hother : ∀ upn ∈ s.seenUpns, ev.userUpn ≠ upn := by
      rintro upn hupn rfl
      exact hnew hupn
    have hcalls : ∀ upn, ev.userUpn ≠ upn →
        entriesOf upn (s.calls ++ [(ev.userUpn, 0)]) = entriesOf upn s.calls := by
      intro upn hne
      rw [entriesOf_append, entriesOf_singleton, if_neg hne, List.append_nil]
    have hnone : ∀ (j k : ℕ), s.tasks[j]? ≠ some (.syncing ev.userUpn k) := fun j k hj =>
      hnew (h.busy j _ k hj).1
    refine ⟨forall_mem_set h.running (by simp) task, h.not_failed,
      written_set h.written htask rfl _ rfl rfl rfl, fun upn hupn => ?_,
      fun e he hne hsyncs => ?_, fun upn hupn => ?_, fun j upn k hj => ?_⟩
    · rw [Finset.mem_insert, not_or] at hupn
      exact (hcalls upn (Ne.symm hupn.1)).trans (h.unseen upn hupn.2)
    · rcases List.mem_append.mp he with he | he
      · exact Finset.mem_insert_of_mem (h.seen e he hne hsyncs)
      · obtain rfl := List.mem_singleton.mp he
        exact Finset.mem_insert_self _ _
    · rcases Finset.mem_insert.mp hupn with rfl | hupn
      · exact Settled.enter htask (fun j k _ => hnone j k) (h.unseen _ hnew)
      · have hne := hother upn hupn
        exact (h.settled upn hupn).set htask (by simp) (by simp [hne]) (hcalls upn hne)
    · rw [getElem?_set_of_some htask] at hj
      split_ifs at hj
      · cases hj
        exact ⟨Finset.mem_insert_self _ _, List.length_pos_iff.mpr hsyncs⟩
      · obtain ⟨hmem, hk⟩ := h.busy j upn k hj
        exact ⟨Finset.mem_insert_of_mem hmem, hk⟩

theorem Tracked.synced {syncs : List GroupSync} {s : State} (h : Tracked syncs s) (task : ℕ)
    (hok : Succeeds syncs s (.synced task)) : Tracked syncs (synced syncs s task) := by
  obtain heq | ⟨upn, k, htask, hcase⟩ := synced_cases syncs s task hok
  · rw [heq]
    exact h
  · obtain ⟨hseen, hk⟩ := h.busy task upn k htask
    -- the only task at this user is the one that moves
    obtain ⟨hcalls, hother⟩ := (h.settled upn hseen).sole htask
    obtain ⟨hnext, heq⟩ | ⟨hlast, heq⟩ := hcase
    · rw [heq]
      refine ⟨forall_mem_set h.running (by simp) task, h.not_failed, fun j => ?_,
        fun upn' hupn' => ?_, h.seen, fun upn' hupn' => ?_, fun j upn' k' hj => ?_⟩
      · rw [inHand_set_of_empty htask rfl rfl j _ rfl]
        exact h.written j
      · have hne : upn ≠ upn' := by
          rintro rfl
          exact hupn' hseen
        simp [entriesOf_singleton, hne, h.unseen upn' hupn']
      · by_cases hne : upn = upn'
        · subst hne
          exact Settled.enter htask hother hcalls
        · exact (h.settled upn' hupn').set htask (by simp [hne]) (by simp [hne])
            (by simp [entriesOf_singleton, hne])
      · rw [getElem?_set_of_some htask] at hj
        split_ifs at hj
        · cases hj
          exact ⟨hseen, hnext⟩
        · exact h.busy j upn' k' hj
    · have hlen : k + 1 = syncs.length := by omega
      rw [heq]
      refine ⟨forall_mem_set h.running (by simp) task, h.not_failed, fun j => ?_, h.unseen, h.seen,
        fun upn' hupn' => ?_, fun j upn' k' hj => ?_⟩
      · rw [inHand_set_of_empty htask rfl rfl j _ rfl]
        exact h.written j
      · by_cases hne : upn = upn'
        · subst hne
          rw [hlen] at hcalls
          exact Settled.leave htask (by simp) hother hcalls
        · exact (h.settled upn' hupn').set htask (by simp [hne]) (by simp) rfl
      · rw [getElem?_set_of_some htask] at hj
        split_ifs at hj
        · cases hj
        · exact h.busy j upn' k' hj

theorem Tracked.step {syncs : List GroupSync} {s : State} (h : Tracked syncs s) (action : Action)
    (hok : Succeeds syncs s action) : Tracked syncs (step syncs s action) := by
  cases action with
  | produce task ev => exact h.produce task ev
  | xadded task => exact h.xadded task
  | synced task => exact h.synced task hok
  | shutdown =>
    have hskip : shutdown s = s := by simp [shutdown, h.not_failed]
    simp only [IdIngest.step, hskip]
    exact h

lemma initial_tracked (syncs : List GroupSync) (adapters : ℕ) :
    Tracked syncs (initial adapters) where
  running := by simp [initial]
  not_failed := rfl
  written task := by
    by_cases hlt : task < adapters <;> simp [initial, inHand, TaskState.inHand, hlt]
  unseen := by simp [initial]
  seen := by simp [initial]
  settled := by simp [initial]
  busy task upn k h := by simp [initial, List.getElem?_replicate] at h

theorem Tracked.goesOn {syncs : List GroupSync} {s : State} (h : Tracked syncs s) :
    GoesOn syncs s where
  running := h.running
  written := h.written
  called e he hne := by
    by_cases hmem : e.2.userUpn ∈ s.seenUpns
    · obtain ⟨hcalls, _⟩ | ⟨task, k, hbusy, hcalls, _⟩ := h.settled _ hmem
      · exact .inl hcalls
      · exact .inr ⟨task, k, hbusy, hcalls⟩
    · -- only possible without any sync
      have hempty : syncs = [] := by
        by_contra hsyncs
        exact hmem (h.seen e he hne hsyncs)
      exact .inl (by simp [h.unseen _ hmem, hempty])

/-- A sync that raises ends the task of its adapter. -/
lemma not_goesOn_of_raise {syncs : List GroupSync} {s : State} (action : Action)
    (hok : ¬ Succeeds syncs s action) : ¬ GoesOn syncs (step syncs s action) := by
  cases action with
  | produce task ev => exact absurd trivial hok
  | xadded task => exact absurd trivial hok
  | shutdown => exact absurd trivial hok
  | synced task =>
    simp only [Succeeds, not_forall] at hok
    obtain ⟨upn, k, htask, sync, hsync, hraises⟩ := hok
    have hstep : step syncs s (.synced task) =
        { s with tasks := s.tasks.set task .ended, failed := true } := by
      simp [step, synced, htask, hsync, eq_true_of_ne_false hraises]
    intro h
    refine h.running .ended ?_ rfl
    rw [hstep]
    exact mem_set_of_some htask .ended

/-- For every number of adapters, every list of syncs with their failing users,
every sequence of events and every interleaving: ingestion goes on at every
point of the run if and only if no call of a sync in it raises. -/
theorem goesOn_iff_succeeds (syncs : List GroupSync) (adapters : ℕ) (schedule : List Action) :
    Throughout (step syncs) (GoesOn syncs) (initial adapters) schedule ↔
      Along (step syncs) (Succeeds syncs) (initial adapters) schedule := by
  constructor
  · exact along_of_throughout (I := fun _ => True) (fun _ _ _ _ _ => trivial)
      (fun _ action _ _ hok => not_goesOn_of_raise action hok) trivial
  · intro h
    have hinv := throughout_of_along (I := Tracked syncs)
      (fun _ action hs hok => hs.step action hok) (initial_tracked syncs adapters) h
    exact hinv.mono fun _ hs => hs.goesOn

/-- A logon as the domain controller adapter emits it. -/
def logon (upn : String) : IdentityEvent where
  ts := 0
  srcIp := "10.0.0.5"
  userUpn := upn
  source := "ad_4624"
  eventType := .logon
  confidence := 90
  ttlSeconds := 28800
  mac := none
  rawId := none

/-- The first sync knows everyone, the second answers 404 for a local account. -/
def companySyncs : List GroupSync := [⟨fun _ => false⟩, ⟨fun upn => upn = "svc@local"⟩]

/-- A logon of the local account at one adapter, a logon of alice at the other. -/
def unknownAccountRun : List Action :=
  [.produce 0 (logon "svc@local"), .xadded 0, .synced 0, .produce 1 (logon "alice@corp"), .synced 0,
    .shutdown, .xadded 1]

/-- Both adapters stop, the logon of alice is never written and her groups are
never looked up. -/
theorem unknownAccountRun_stops_ingestion :
    let s := run (step companySyncs) (initial 2) unknownAccountRun
    s.tasks = [.ended, .ended] ∧ s.produced.length = 2 ∧ s.added = [(0, logon "svc@local")] ∧
      entriesOf "alice@corp" s.calls = [] ∧
      ¬ Throughout (step companySyncs) (GoesOn companySyncs) (initial 2) unknownAccountRun := by
  have htasks : (run (step companySyncs) (initial 2) unknownAccountRun).tasks =
      [.ended, .ended] := by decide
  refine ⟨htasks, by decide, by decide, by decide, fun h => ?_⟩
  exact h.last.running .ended (by rw [htasks]; exact List.mem_cons_self) rfl

end FlowDiscovery.IdIngest
