import FlowDiscovery.EventJson
import FlowDiscovery.IdIngest
import FlowDiscovery.IdentityResolution
import FlowDiscovery.StreamHistory

/-!
# From an identity adapter to the answer of a lookup

The adapters of identity ingest, the stream, and the index of the correlator, which one
task fills while others probe it. A write to the stream can fail, and it can raise after
the server has carried it out; either ends the adapter. A restarted correlator begins with
an empty index and is not given the entries its predecessor has read. So a lookup
answers by the rule on the bindings that the present process has inserted, which are those
of a last part of what was handled. Without a crash they are those of everything
published up to one point. That the server trims entries off the stream before they are
read is left out. A lookup is judged when no earlier one of the same address was at a
later time, since the index drops at each lookup what has run out by then.
-/
namespace FlowDiscovery.IdentityBus
open PyText PyTime PyJson Machine EventJson
open IdIngest (GroupSync TaskState)
open IdentityIndex (Op Answers survivors probesOf)
open StreamConsumer (Loop Read identityConsumer handledEvents hand)

abbrev Tagged := ℕ × IdentityEvent

/-- `stored` is a history of the stream, `probed` one of the lookups in the present
process of the correlator. -/
structure State where
  ingest : IdIngest.State
  stream : StreamConsumer.State IndexEvent IdentityIndex
  stored : List Tagged
  probed : List (String × Instant)

inductive Action where
  | produce (task : ℕ) (ev : IdentityEvent)
  | xadded (task : ℕ) (reply : Reply)
  | synced (task : ℕ)
  | shutdown
  | read (r : Read)
  | resolve (order : SetOrder BindingInterval) (ip : String) (t : Instant)

section

variable (iso : IsoText) (float : Text → Text)

/-- `_identity_consumer`. -/
abbrev consumer : Loop IndexEvent IdentityIndex := identityConsumer float iso.fromisoformat

def initial (adapters : ℕ) : State where
  ingest := IdIngest.initial adapters
  stream := StreamConsumer.initial (consumer iso float)
  stored := []
  probed := []

/-- The task of an adapter ends with an error, which `gather` passes on. -/
def raised (s : IdIngest.State) (task : ℕ) : IdIngest.State :=
  { s with tasks := s.tasks.set task .ended, failed := true }

/-- The entry is in the stream. -/
def store (s : State) (task : ℕ) (ev : IdentityEvent) : State :=
  { s with
    stream := StreamConsumer.step (consumer iso float) s.stream (.xadd (jsonifyIdentity iso ev))
    stored := s.stored ++ [(task, ev)] }

/-- `producer.xadd(ev)` ends. An event that cannot be serialised is not sent. -/
def xadded (syncs : List GroupSync) (s : State) (task : ℕ) (reply : Reply) : State :=
  match s.ingest.tasks[task]? with
  | some (.adding ev) =>
    match jsonifyIdentity iso ev, reply with
    | some _, .stored =>
      { store iso float s task ev with ingest := IdIngest.xadded syncs s.ingest task }
    | some _, .lost => { store iso float s task ev with ingest := raised s.ingest task }
    | some _, .refused | none, _ => { s with ingest := raised s.ingest task }
  | _ => s

/-- A new process has been probed by nobody. -/
def read (s : State) (r : Read) : State :=
  { s with
    stream := StreamConsumer.step (consumer iso float) s.stream r.action
    probed :=
      match r, s.stream.phase with
      | .start, .down => []
      | _, _ => s.probed }

/-- `enricher.enrich` looks the address up, in a process that runs. -/
def resolve (s : State) (order : SetOrder BindingInterval) (ip : String) (t : Instant) : State :=
  match s.stream.phase with
  | .down => s
  | _ =>
    { s with
      stream := { s.stream with memory := (s.stream.memory.resolve order ip t).2 }
      probed := s.probed ++ [(ip, t)] }

def step (syncs : List GroupSync) (s : State) : Action → State
  | .produce task ev => { s with ingest := IdIngest.produce s.ingest task ev }
  | .xadded task reply => xadded iso float syncs s task reply
  | .synced task => { s with ingest := IdIngest.synced syncs s.ingest task }
  | .shutdown => { s with ingest := IdIngest.shutdown s.ingest }
  | .read r => read iso float s r
  | .resolve order ip t => resolve s order ip t

/-! ## What a step does -/

/-- The event in hand is dropped or stored, and then the adapter goes on or ends. -/
theorem xadded_cases (syncs : List GroupSync) (s : State) (task : ℕ) (reply : Reply) :
    xadded iso float syncs s task reply = s ∨
    ∃ ev, s.ingest.tasks[task]? = some (.adding ev) ∧
      ((xadded iso float syncs s task reply = { s with ingest := raised s.ingest task }) ∨
      (jsonifyIdentity iso ev).isSome ∧
        (xadded iso float syncs s task reply =
            { store iso float s task ev with ingest := IdIngest.xadded syncs s.ingest task } ∨
          xadded iso float syncs s task reply =
            { store iso float s task ev with ingest := raised s.ingest task })) := by
  unfold xadded
  split
  · next ev htask =>
    refine .inr ⟨ev, htask, ?_⟩
    cases jsonifyIdentity iso ev with
    | none => exact .inl rfl
    | some payload =>
      cases reply with
      | stored => exact .inr ⟨rfl, .inl rfl⟩
      | refused => exact .inl rfl
      | lost => exact .inr ⟨rfl, .inr rfl⟩
  · exact .inl rfl

end

/-! ## The adapters -/

/-- For each adapter, what is stored and then what it has in hand was produced in that
order. -/
def Orderly (stored : List Tagged) (s : IdIngest.State) : Prop :=
  ∀ task, (entriesOf task stored ++ IdIngest.inHand s task).Sublist (entriesOf task s.produced)

section

variable {stored : List Tagged} {p p' : IdIngest.State} {task : ℕ} {t t' : TaskState}

/-- A task lets go of what it had in hand. -/
lemma Orderly.drop (h : Orderly stored p) (htask : p.tasks[task]? = some t) (ht' : t'.inHand = [])
    (htasks : p'.tasks = p.tasks.set task t') (hproduced : p'.produced = p.produced) :
    Orderly stored p' := by
  intro j
  rw [IdIngest.inHand_set htask t' j p' htasks, hproduced]
  split_ifs with hj
  · rw [ht', List.append_nil]
    exact (List.sublist_append_left _ _).trans (h j)
  · exact h j

/-- What a task had in hand is stored. -/
lemma Orderly.store {ev : IdentityEvent} (h : Orderly stored p)
    (htask : p.tasks[task]? = some (.adding ev)) (ht' : t'.inHand = [])
    (htasks : p'.tasks = p.tasks.set task t') (hproduced : p'.produced = p.produced) :
    Orderly (stored ++ [(task, ev)]) p' := by
  intro j
  have hold := h j
  rw [IdIngest.inHand_set htask t' j p' htasks, hproduced, entriesOf_append, entriesOf_singleton]
  by_cases hj : task = j
  · subst hj
    have hev : IdIngest.inHand p task = [ev] := by simp [IdIngest.inHand, htask, TaskState.inHand]
    rw [hev] at hold
    simpa [ht'] using hold
  · simpa [hj] using hold

lemma Orderly.produce (h : Orderly stored p) (task : ℕ) (ev : IdentityEvent) :
    Orderly stored (IdIngest.produce p task ev) := by
  obtain heq | ⟨htask, heq⟩ := IdIngest.produce_cases p task ev
  · rw [heq]
    exact h
  · rw [heq]
    intro j
    have hold := h j
    rw [IdIngest.inHand_set htask (.adding ev) j _ rfl, entriesOf_append, entriesOf_singleton]
    by_cases hj : task = j
    · subst hj
      have hnone : IdIngest.inHand p task = [] := by simp [IdIngest.inHand, htask, TaskState.inHand]
      rw [hnone, List.append_nil] at hold
      simpa [TaskState.inHand] using hold.append (List.Sublist.refl [ev])
    · simpa [hj] using hold

lemma Orderly.synced (h : Orderly stored p) (syncs : List GroupSync) (task : ℕ) :
    Orderly stored (IdIngest.synced syncs p task) := by
  unfold IdIngest.synced
  split
  · next upn k htask =>
    split_ifs
    all_goals exact h.drop htask rfl rfl rfl
  · exact h

lemma Orderly.shutdown (h : Orderly stored p) : Orderly stored (IdIngest.shutdown p) := by
  unfold IdIngest.shutdown
  split_ifs
  · intro j
    have hnone : IdIngest.inHand { p with tasks := p.tasks.map fun _ => .ended } j = [] := by
      unfold IdIngest.inHand
      rw [List.getElem?_map]
      cases p.tasks[j]? <;> rfl
    rw [hnone, List.append_nil]
    exact (List.sublist_append_left _ _).trans (h j)
  · exact h

end

/-! ## The index -/

variable {iso : IsoText} {float : Text → Text} {s : State}

/-- The index is the result of the inserts of the present process, mixed with its
probes. What was handled earlier is not in it. -/
def Operated (iso : IsoText) (float : Text → Text) (s : State) (earlier : List IndexEvent) : Prop :=
  ∃ ops, s.stream.memory = run IdentityIndex.step .fresh ops ∧
    handledEvents (consumer iso float) s.stream = earlier ++ IdentityIndex.eventsOf ops ∧
    ∀ ip, ∀ p ∈ probesOf ip ops, (ip, p) ∈ s.probed

lemma eventsOf_insert (ops : List Op) (ev : IndexEvent) :
    IdentityIndex.eventsOf (ops ++ [.insert ev]) = IdentityIndex.eventsOf ops ++ [ev] := by
  simp [IdentityIndex.eventsOf, Op.event?]

lemma eventsOf_resolve (ops : List Op) (order : SetOrder BindingInterval) (ip : String)
    (t : Instant) :
    IdentityIndex.eventsOf (ops ++ [.resolve order ip t]) = IdentityIndex.eventsOf ops := by
  simp [IdentityIndex.eventsOf, Op.event?]

lemma Operated.resolve {earlier : List IndexEvent} (h : Operated iso float s earlier)
    (order : SetOrder BindingInterval) (ip : String) (t : Instant) :
    Operated iso float (resolve s order ip t) earlier := by
  obtain ⟨ops, hmemory, hevents, hprobes⟩ := h
  unfold IdentityBus.resolve
  split
  · exact ⟨ops, hmemory, hevents, hprobes⟩
  · refine ⟨ops ++ [.resolve order ip t], ?_, ?_, fun ip' p hp => ?_⟩
    · rw [run_append, run_cons, run_nil, ← hmemory]
      rfl
    · rw [eventsOf_resolve]
      exact hevents
    · rw [probesOf, List.filterMap_append, List.mem_append] at hp
      rcases hp with hp | hp
      · exact List.mem_append_left _ (hprobes ip' p hp)
      · by_cases hip : ip = ip'
        · simp only [List.filterMap_cons, Op.probe?, hip, if_true, List.filterMap_nil,
            List.mem_singleton] at hp
          exact List.mem_append_right _ (by rw [hip, hp]; exact List.mem_singleton_self _)
        · simp [Op.probe?, hip] at hp

/-- A step of the reader inserts at most one event; a new process starts over. -/
lemma Operated.read {earlier : List IndexEvent} (h : Operated iso float s earlier)
    (hread : StreamConsumer.Ordered (consumer iso float) s.stream) (r : Read) :
    Operated iso float (read iso float s r) earlier ∨
    s.stream.phase = .down ∧
      Operated iso float (read iso float s r) (handledEvents (consumer iso float) s.stream) := by
  obtain ⟨ops, hmemory, hevents, hprobes⟩ := h
  by_cases hstart : r = .start ∧ s.stream.phase = .down
  · obtain ⟨rfl, hdown⟩ := hstart
    refine .inr ⟨hdown, [], ?_, ?_, by simp [probesOf]⟩
    · simp only [IdentityBus.read, Read.action, StreamConsumer.step, hdown]
      rfl
    · simp only [IdentityBus.read, Read.action, StreamConsumer.step, hdown]
      exact (List.append_nil _).symm
  · have hprobed : (IdentityBus.read iso float s r).probed = s.probed := by
      simp only [IdentityBus.read]
      split
      · next hphase => exact absurd ⟨rfl, hphase⟩ hstart
      · rfl
    refine .inl ?_
    obtain ⟨hmem, hhandled⟩ | ⟨ev, hmem, hhandled⟩ | ⟨ha, _, _⟩ :=
      StreamConsumer.step_effect hread r.action
    · exact ⟨ops, hmem.trans hmemory, hhandled.trans hevents, by rw [hprobed]; exact hprobes⟩
    · refine ⟨ops ++ [.insert ev], ?_, ?_, fun ip p hp => ?_⟩
      · rw [run_append, run_cons, run_nil, ← hmemory]
        exact hmem
      · rw [eventsOf_insert, ← List.append_assoc, ← hevents]
        exact hhandled
      · rw [hprobed]
        refine hprobes ip p ?_
        simpa [probesOf, Op.probe?] using hp
    · -- the process is running already
      have hr : r = .start := by
        cases r <;> first | rfl | cases ha
      subst hr
      have hsame : StreamConsumer.step (consumer iso float) s.stream .start = s.stream := by
        rw [StreamConsumer.step]
        split
        · next hphase => exact absurd ⟨rfl, hphase⟩ hstart
        · rfl
      refine ⟨ops, ?_, ?_, by rw [hprobed]; exact hprobes⟩
      · exact (congrArg StreamConsumer.State.memory hsame).trans hmemory
      · exact (congrArg (handledEvents (consumer iso float)) hsame).trans hevents

/-- A lookup follows the rule on what the present process has inserted, if it does
not go back behind an earlier one of its address. -/
lemma Operated.answers {earlier : List IndexEvent} (h : Operated iso float s earlier) :
    ∃ own, handledEvents (consumer iso float) s.stream = earlier ++ own ∧
      ∀ order ip t, (∀ p, (ip, p) ∈ s.probed → p ≤ t) →
        Answers (survivors ip own) t (s.stream.memory.resolve order ip t).1 := by
  obtain ⟨ops, hmemory, hevents, hprobes⟩ := h
  refine ⟨IdentityIndex.eventsOf ops, hevents, fun order ip t hle => ?_⟩
  rw [hmemory]
  exact IdentityIndex.resolve_answers_survivors ops order ip t
    fun p hp => hle p (hprobes ip p hp)

/-! ## Every run -/

/-- What holds of every reachable state. -/
structure Sound (iso : IsoText) (float : Text → Text) (s : State) : Prop where
  ingest : Orderly s.stored s.ingest
  serialised : ∀ e ∈ s.stored, (jsonifyIdentity iso e.2).isSome
  entries : s.stream.entries = s.stored.map fun e => jsonifyIdentity iso e.2
  read : StreamConsumer.Ordered (consumer iso float) s.stream

lemma operated_initial (adapters : ℕ) : Operated iso float (initial iso float adapters) [] :=
  ⟨[], rfl, rfl, by simp [probesOf]⟩

lemma orderly_initial (adapters : ℕ) : Orderly [] (IdIngest.initial adapters) := by
  intro task
  have hnone : IdIngest.inHand (IdIngest.initial adapters) task = [] := by
    unfold IdIngest.inHand IdIngest.initial
    rw [List.getElem?_replicate]
    split_ifs <;> rfl
  rw [hnone]
  exact List.Sublist.refl _

lemma sound_initial (adapters : ℕ) : Sound iso float (initial iso float adapters) where
  ingest := orderly_initial adapters
  serialised := by simp [initial]
  entries := rfl
  read := StreamConsumer.ordered_initial

/-- A task of the ingest that is writing comes to its next suspension with nothing
in hand. -/
lemma xadded_set (syncs : List GroupSync) (p : IdIngest.State) {task : ℕ} {ev : IdentityEvent}
    (htask : p.tasks[task]? = some (.adding ev)) :
    ∃ t', t'.inHand = [] ∧ (IdIngest.xadded syncs p task).tasks = p.tasks.set task t' ∧
      (IdIngest.xadded syncs p task).produced = p.produced := by
  unfold IdIngest.xadded IdIngest.onNewUpn
  simp only [htask]
  split_ifs
  · exact ⟨.polling, rfl, rfl, rfl⟩
  · exact ⟨.syncing ev.userUpn 0, rfl, rfl, rfl⟩

lemma Sound.xadded (h : Sound iso float s) (syncs : List GroupSync) (task : ℕ) (reply : Reply) :
    Sound iso float (xadded iso float syncs s task reply) := by
  obtain ⟨hingest, hserialised, hentries, hread⟩ := h
  obtain heq | ⟨ev, htask, heq | ⟨hsome, heq | heq⟩⟩ := xadded_cases iso float syncs s task reply
  · rw [heq]
    exact ⟨hingest, hserialised, hentries, hread⟩
  · rw [heq]
    exact ⟨hingest.drop htask rfl rfl rfl, hserialised, hentries, hread⟩
  all_goals
    have hkept : ∀ e ∈ s.stored ++ [(task, ev)], (jsonifyIdentity iso e.2).isSome := by
      intro e he
      rcases List.mem_append.mp he with he | he
      · exact hserialised e he
      · rw [List.mem_singleton.mp he]
        exact hsome
    have hmore : s.stream.entries ++ [jsonifyIdentity iso ev] =
        (s.stored ++ [(task, ev)]).map fun e => jsonifyIdentity iso e.2 := by
      rw [hentries, List.map_append]
      rfl
    have hstep := StreamConsumer.step_ordered _ _ (.xadd (jsonifyIdentity iso ev)) hread
    rw [heq]
  · obtain ⟨t', ht', htasks, hproduced⟩ := xadded_set syncs s.ingest htask
    exact ⟨hingest.store htask ht' htasks hproduced, hkept, hmore, hstep⟩
  · exact ⟨hingest.store htask (show TaskState.ended.inHand = [] from rfl) rfl rfl, hkept, hmore, hstep⟩

theorem Sound.step (h : Sound iso float s) (syncs : List GroupSync) (a : Action) :
    Sound iso float (step iso float syncs s a) := by
  cases a with
  | produce task ev => exact ⟨h.ingest.produce task ev, h.serialised, h.entries, h.read⟩
  | xadded task reply => exact h.xadded syncs task reply
  | synced task => exact ⟨h.ingest.synced syncs task, h.serialised, h.entries, h.read⟩
  | shutdown => exact ⟨h.ingest.shutdown, h.serialised, h.entries, h.read⟩
  | read r =>
    exact ⟨h.ingest, h.serialised, (StreamConsumer.entries_read _ s.stream r).trans h.entries,
      StreamConsumer.step_ordered _ _ _ h.read⟩
  | resolve order ip t =>
    rw [IdentityBus.step, resolve]
    split
    · exact h
    · exact ⟨h.ingest, h.serialised, h.entries, h.read.setMemory _⟩

lemma Operated.store {earlier : List IndexEvent} (h : Operated iso float s earlier)
    (hread : StreamConsumer.Ordered (consumer iso float) s.stream) (task : ℕ) (ev : IdentityEvent) :
    Operated iso float (store iso float s task ev) earlier := by
  obtain ⟨ops, hmemory, hevents, hprobes⟩ := h
  exact ⟨ops, hmemory, (hread.idle.handledEvents_xadd _).trans hevents, hprobes⟩

theorem Sound.step_operated (h : Sound iso float s) {earlier : List IndexEvent}
    (hindex : Operated iso float s earlier) (syncs : List GroupSync) (a : Action) :
    Operated iso float (IdentityBus.step iso float syncs s a) earlier ∨
    s.stream.phase = .down ∧ Operated iso float (IdentityBus.step iso float syncs s a)
      (handledEvents (consumer iso float) s.stream) := by
  cases a with
  | produce | synced | shutdown => exact .inl hindex
  | xadded task reply =>
    obtain heq | ⟨ev, _, heq | ⟨_, heq | heq⟩⟩ := xadded_cases iso float syncs s task reply
    · exact .inl (by rw [IdentityBus.step, heq]; exact hindex)
    · exact .inl (by rw [IdentityBus.step, heq]; exact hindex)
    all_goals exact .inl (by rw [IdentityBus.step, heq]; exact hindex.store h.read task ev)
  | read r => exact hindex.read h.read r
  | resolve order ip t => exact .inl (hindex.resolve order ip t)

/-- `got` is what the index has been given by any process, `own` what the present
one inserted. -/
structure Answered (iso : IsoText) (float : Text → Text) (s : State) (got own : List Tagged) :
    Prop where
  handled : handledEvents (consumer iso float) s.stream = got.map fun e => indexed e.2
  suffix : own <:+ got
  ordered : ∀ task, (entriesOf task got).Sublist (entriesOf task s.ingest.produced)
  answers : ∀ order ip t, (∀ p, (ip, p) ∈ s.probed → p ≤ t) →
    Answers (survivors ip (own.map fun e => indexed e.2)) t
      (s.stream.memory.resolve order ip t).1

/-- What the index is given of entries that were published. -/
lemma filterMap_entries {stored : List Tagged}
    (h : ∀ e ∈ stored, (jsonifyIdentity iso e.2).isSome) :
    (stored.map fun e => jsonifyIdentity iso e.2).filterMap (consumer iso float).parse =
      (stored.filter fun e => Insertable (indexed e.2)).map fun e => indexed e.2 := by
  rw [List.filterMap_map, ← List.filterMap_eq_map, List.filterMap_filter]
  refine List.filterMap_congr fun e he => ?_
  obtain ⟨payload, hpayload⟩ := Option.isSome_iff_exists.mp (h e he)
  simp only [Function.comp_apply, hpayload, decide_eq_true_eq]
  exact parse_jsonifyIdentity iso float hpayload

lemma Sound.answered (h : Sound iso float s) {earlier : List IndexEvent}
    (hindex : Operated iso float s earlier) : ∃ got own, Answered iso float s got own := by
  have hsub := h.read.handledEvents_sublist
  rw [h.entries, filterMap_entries h.serialised, List.sublist_map_iff] at hsub
  obtain ⟨got, hgot, hhandled⟩ := hsub
  obtain ⟨own, hsplit, hanswers⟩ := hindex.answers
  have hparts := hhandled.symm.trans hsplit
  rw [List.map_eq_append_iff] at hparts
  obtain ⟨before, kept, rfl, _, rfl⟩ := hparts
  refine ⟨before ++ kept, kept, hhandled, List.suffix_append _ _, fun task => ?_, hanswers⟩
  -- handled, then stored, then produced
  have hstored := hgot.trans List.filter_sublist
  exact (hstored.filterMap _).trans ((List.sublist_append_left _ _).trans (h.ingest task))

/-- In every run, whatever fails, a lookup answers by the rule on the bindings of a last
part of the events handled, and these are events of each adapter in order. -/
theorem lookups_follow_rule (iso : IsoText) (float : Text → Text) (syncs : List GroupSync)
    (adapters : ℕ) (actions : List Action) :
    ∃ got own, Answered iso float
      (run (step iso float syncs) (initial iso float adapters) actions) got own := by
  have hinv := run_invariant (I := fun s => Sound iso float s ∧ ∃ earlier, Operated iso float s earlier)
    (fun s a hs => ⟨hs.1.step syncs a, by
      obtain ⟨earlier, hindex⟩ := hs.2
      rcases hs.1.step_operated hindex syncs a with hsame | ⟨_, hfresh⟩
      · exact ⟨earlier, hsame⟩
      · exact ⟨_, hfresh⟩⟩)
    (s := initial iso float adapters) ⟨sound_initial adapters, [], operated_initial adapters⟩ actions
  obtain ⟨hsound, earlier, hindex⟩ := hinv
  exact hsound.answered hindex

/-! ## Runs without a crash of the correlator -/

/-- An event whose insert raises binds nobody. -/
lemma applyEvent_of_not_insertable {ev : IndexEvent} (h : ¬ Insertable ev) (ip : String)
    (bindings : Finset BindingInterval) : IdentityIndex.applyEvent ip bindings ev = bindings := by
  have hstop : ¬ IdentityIndex.IsStop ev := by
    intro hstop
    exact h (by rw [Insertable, IdentityIndex.insert_stop _ ev hstop])
  have hnone : IdentityIndex.startInterval? ev = none := by
    have hiff := (IdentityIndex.insert_start .fresh ev hstop ip).2
    rw [← Option.not_isSome_iff_eq_none, ← hiff]
    exact h
  simp [IdentityIndex.applyEvent, hstop, hnone]

lemma survivors_filter (ip : String) (events : List Tagged) :
    survivors ip ((events.filter fun e => Insertable (indexed e.2)).map fun e => indexed e.2) =
      survivors ip (events.map fun e => indexed e.2) := by
  unfold survivors
  generalize (∅ : Finset BindingInterval) = bindings
  induction events generalizing bindings with
  | nil => rfl
  | cons e rest ih =>
    by_cases hins : Insertable (indexed e.2)
    · rw [List.filter_cons_of_pos (by simpa using hins), List.map_cons, List.map_cons,
        List.foldl_cons, List.foldl_cons, ih]
    · rw [List.filter_cons_of_neg (by simpa using hins), List.map_cons, List.foldl_cons,
        applyEvent_of_not_insertable hins, ih]

/-- The process of the correlator does not crash. -/
def NoCrash (_ : State) (a : Action) : Prop := a ≠ .read .crash

lemma step_gapless (h : StreamConsumer.Gapless (consumer iso float) s.stream)
    (syncs : List GroupSync) {a : Action} (hcrash : NoCrash s a) :
    StreamConsumer.Gapless (consumer iso float) (step iso float syncs s a).stream := by
  cases a with
  | produce | synced | shutdown => exact h
  | xadded task reply =>
    obtain heq | ⟨ev, _, heq | ⟨_, heq | heq⟩⟩ := xadded_cases iso float syncs s task reply
    · rw [step, heq]
      exact h
    · rw [step, heq]
      exact h
    all_goals
      rw [step, heq]
      exact StreamConsumer.step_gapless h (a := .xadd (jsonifyIdentity iso ev)) (by simp)
  | read r =>
    have hr : r ≠ .crash := fun heq => hcrash (by rw [heq])
    exact StreamConsumer.step_gapless h (Read.action_ne_crash hr)
  | resolve order ip t =>
    rw [step, resolve]
    split
    · exact h
    · exact h.setMemory _

/-- The index has come to the first `n` entries: behind them are the batch in hand and
what has not been read. Lookups follow the rule on these `n`. -/
structure ComesTo (s : State) (n : ℕ) : Prop where
  position : n + (hand s.stream).length = s.stream.lastDelivered
  le : s.stream.lastDelivered ≤ s.stored.length
  answers : ∀ order ip t, (∀ p, (ip, p) ∈ s.probed → p ≤ t) →
    Answers (survivors ip ((s.stored.take n).map fun e => indexed e.2)) t
      (s.stream.memory.resolve order ip t).1

lemma Sound.comesTo (h : Sound iso float s)
    (hgapless : StreamConsumer.Gapless (consumer iso float) s.stream)
    (hindex : Operated iso float s []) : ∃ n, ComesTo s n := by
  obtain ⟨n, hupTo⟩ := hgapless.upTo
  have hle := h.read.ordered.le
  have hlength := congrArg List.length hupTo.hand_eq
  have hn := hupTo.le
  rw [h.entries, List.length_map] at hle
  rw [h.entries, List.length_map, List.length_drop, List.length_take, List.length_map] at hlength
  obtain ⟨own, hown, hanswers⟩ := hindex.answers
  have hread := @filterMap_entries iso float (s.stored.take n)
    fun e he => h.serialised e (List.mem_of_mem_take he)
  rw [List.nil_append, hupTo.events, h.entries, ← List.map_take, hread] at hown
  refine ⟨n, by omega, hle, fun order ip t hprobes => ?_⟩
  rw [← survivors_filter, hown]
  exact hanswers order ip t hprobes

/-- Without a crash the lookups follow the rule on everything published up to the point
that the index has come to. -/
theorem lookups_follow_stream (iso : IsoText) (float : Text → Text) (syncs : List GroupSync)
    (adapters : ℕ) (actions : List Action)
    (h : Along (step iso float syncs) NoCrash (initial iso float adapters) actions) :
    Throughout (step iso float syncs) (fun s => ∃ n, ComesTo s n) (initial iso float adapters)
      actions := by
  refine (throughout_of_along (C := NoCrash) (I := fun s => Sound iso float s ∧
    StreamConsumer.Gapless (consumer iso float) s.stream ∧ Operated iso float s []) ?_
    ⟨sound_initial adapters, StreamConsumer.gapless_initial _, operated_initial adapters⟩ h).mono
    fun s hs => hs.1.comesTo hs.2.1 hs.2.2
  rintro s a ⟨hsound, hgapless, hindex⟩ hcrash
  refine ⟨hsound.step syncs a, step_gapless hgapless syncs hcrash, ?_⟩
  rcases hsound.step_operated hindex syncs a with hsame | ⟨hdown, hfresh⟩
  · exact hsame
  · -- the first process starts with nothing handled
    rwa [handledEvents, hgapless.down hdown] at hfresh

def aliceLogon : IdentityEvent where
  ts := 0
  srcIp := "10.0.0.5"
  userUpn := "alice"
  source := "ad_4624"
  eventType := .logon
  confidence := 90
  ttlSeconds := 60
  mac := none
  rawId := none

/-- A logon on its way into the index, and a second one that is published but not
read. -/
def oneLogon : List Action :=
  [.produce 0 aliceLogon, .xadded 0 .stored, .read .start, .read .xreadgroup, .read .xack,
    .produce 0 { aliceLogon with userUpn := "bob" }, .xadded 0 .stored]

theorem lookups_follow_oneLogon :
    Throughout (step epochIso id []) (fun s => ∃ n, ComesTo s n) (initial epochIso id 1) oneLogon ∧
    (run (step epochIso id []) (initial epochIso id 1) oneLogon).stream.handled = [0] := by
  have hcrash : Along (step epochIso id []) NoCrash (initial epochIso id 1) oneLogon := by
    simp [oneLogon, Along, NoCrash]
  exact ⟨lookups_follow_stream _ _ _ _ _ hcrash, by decide +kernel⟩

end FlowDiscovery.IdentityBus
