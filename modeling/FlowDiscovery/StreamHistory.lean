import FlowDiscovery.StreamConsumer

/-!
# What the readers of a stream have handled

Both loops handle entries in the order of the stream, each at most once, whatever
crashes and restarts lie between. What a process keeps is what it has itself handled
since it started. Without a crash that is everything up to one point of the stream.
-/
namespace FlowDiscovery.StreamConsumer
open Machine

variable {ε μ : Type} (loop : Loop ε μ)

/-- The event of the entry with this id. -/
def eventAt (entries : List Fields) (id : ℕ) : Option ε := entries[id]?.bind loop.parse

/-- The events handled so far, by whichever process. -/
def handledEvents (s : State ε μ) : List ε := s.handled.filterMap (eventAt loop s.entries)

/-! ## Order -/

/-- Ids were handled in increasing order, those in hand come behind them, and every
handled entry has an event. -/
structure OrderedWith (s : State ε μ) (hand : List Delivered) : Prop where
  increasing : (s.handled ++ hand.map Prod.fst).Pairwise (· < ·)
  read : ∀ id ∈ s.handled ++ hand.map Prod.fst, id < s.lastDelivered
  events : ∀ id ∈ s.handled, (eventAt loop s.entries id).isSome
  entry : ∀ msg ∈ hand, s.entries[msg.1]? = some msg.2
  le : s.lastDelivered ≤ s.entries.length

/-- The event that waits for its put is the one of its entry. -/
def PutsParsed (s : State ε μ) : Prop :=
  ∀ msg ev rest, s.phase = .putting msg ev rest → loop.parse msg.2 = some ev

variable {loop} {s : State ε μ} {msg : Delivered} {rest : List Delivered}

lemma OrderedWith.congr {t : State ε μ} {hand : List Delivered} (h : OrderedWith loop s hand)
    (hentries : t.entries = s.entries) (hlast : t.lastDelivered = s.lastDelivered)
    (hhandled : t.handled = s.handled) : OrderedWith loop t hand := by
  obtain ⟨hincreasing, hread, hevents, hentry, hle⟩ := h
  rw [← hhandled] at hincreasing hread hevents
  rw [← hentries] at hevents hentry hle
  rw [← hlast] at hread hle
  exact ⟨hincreasing, hread, hevents, hentry, hle⟩

/-- An entry that is passed over leaves the rest in order. -/
lemma OrderedWith.sub {hand hand' : List Delivered} (h : OrderedWith loop s hand)
    (hsub : hand'.Sublist hand) : OrderedWith loop s hand' where
  increasing := h.increasing.sublist ((hsub.map _).append_left _)
  read id hid := h.read id (((hsub.map Prod.fst).append_left s.handled).subset hid)
  events := h.events
  entry m hm := h.entry m (hsub.subset hm)
  le := h.le

lemma OrderedWith.deliver (h : OrderedWith loop s (msg :: rest)) {ev : ε}
    (hev : loop.parse msg.2 = some ev) : OrderedWith loop (deliver loop s msg.1 ev) rest where
  increasing := by simpa [StreamConsumer.deliver] using h.increasing
  read := by simpa [StreamConsumer.deliver] using h.read
  events id hid := by
    rcases List.mem_append.mp hid with hid | hid
    · exact h.events id hid
    · rw [List.mem_singleton.mp hid]
      show (eventAt loop s.entries msg.1).isSome
      rw [eventAt, h.entry msg List.mem_cons_self, Option.bind_some, hev]
      rfl
  entry m hm := h.entry m (List.mem_cons_of_mem _ hm)
  le := h.le

/-- As `next_cases`, with what the entry parses to. -/
lemma next_parsed (loop : Loop ε μ) (s : State ε μ) (msgs : List Delivered) :
    (msgs = [] ∧ next loop s msgs = { s with phase := .reading }) ∨
    ∃ msg rest, msgs = msg :: rest ∧
      ((loop.parse msg.2 = none ∧ next loop s msgs = { s with phase := .acking msg.1 rest }) ∨
      ∃ ev, loop.parse msg.2 = some ev ∧
        (next loop s msgs = { s with phase := .putting msg ev rest } ∨
        next loop s msgs = { deliver loop s msg.1 ev with phase := .acking msg.1 rest })) := by
  cases msgs with
  | nil => exact .inl ⟨rfl, rfl⟩
  | cons msg rest =>
    refine .inr ⟨msg, rest, rfl, ?_⟩
    cases hparse : loop.parse msg.2 with
    | none => exact .inl ⟨rfl, by rw [next, hparse]⟩
    | some ev =>
      refine .inr ⟨ev, rfl, ?_⟩
      by_cases hsuspends : loop.suspends
      · exact .inl (by rw [next, hparse]; simp [hsuspends])
      · exact .inr (by rw [next, hparse]; simp [hsuspends])

lemma OrderedWith.next {msgs : List Delivered} (h : OrderedWith loop s msgs) :
    OrderedWith loop (next loop s msgs) (hand (next loop s msgs)) ∧
      PutsParsed loop (next loop s msgs) := by
  obtain ⟨rfl, heq⟩ | ⟨msg, rest, rfl, ⟨_, heq⟩ | ⟨ev, hev, heq | heq⟩⟩ := next_parsed loop s msgs
  · rw [heq]
    exact ⟨h.congr rfl rfl rfl, fun _ _ _ hphase => by cases hphase⟩
  · rw [heq]
    exact ⟨(h.sub (List.sublist_cons_self msg rest)).congr rfl rfl rfl,
      fun _ _ _ hphase => by cases hphase⟩
  · rw [heq]
    refine ⟨h.congr rfl rfl rfl, fun _ _ _ hphase => ?_⟩
    obtain ⟨rfl, rfl, rfl⟩ := Phase.putting.inj hphase
    exact hev
  · rw [heq]
    exact ⟨(h.deliver hev).congr rfl rfl rfl, fun _ _ _ hphase => by cases hphase⟩

/-- A read hands out ids behind all earlier ones. -/
lemma OrderedWith.delivered (h : OrderedWith loop s []) :
    OrderedWith loop (delivered s) (batch s) where
  increasing := by
    have hids : ((batch s).map Prod.fst).Pairwise (· < ·) := by
      have hrange : (s.entries.zipIdx.map Prod.swap).map Prod.fst =
          List.range' 0 s.entries.length := by
        rw [List.map_map, ← List.zipIdx_map_snd 0 s.entries]
        rfl
      have hsub : (batch s).Sublist (s.entries.zipIdx.map Prod.swap) :=
        (List.take_sublist _ _).trans (List.drop_sublist _ _)
      have hsorted : (List.range' 0 s.entries.length).Pairwise (· < ·) := List.pairwise_lt_range'
      exact (hrange ▸ hsorted).sublist (hsub.map Prod.fst)
    refine List.pairwise_append.mpr ⟨?_, hids, fun id hid id' hid' => ?_⟩
    · have hhandled := h.increasing
      rwa [List.map_nil, List.append_nil] at hhandled
    · obtain ⟨m, hm, rfl⟩ := List.mem_map.mp hid'
      have hlt := h.read id (List.mem_append_left _ hid)
      have hle := ((mem_batch_iff m).mp hm).1
      omega
  read id hid := by
    rcases List.mem_append.mp hid with hid | hid
    · exact Nat.lt_add_right _ (h.read id (List.mem_append_left _ hid))
    · obtain ⟨m, hm, rfl⟩ := List.mem_map.mp hid
      exact ((mem_batch_iff m).mp hm).2.1
  events := h.events
  entry m hm := ((mem_batch_iff m).mp hm).2.2
  le := by
    have hlength := length_batch s
    have hle := h.le
    simp only [StreamConsumer.delivered]
    omega

lemma eventAt_xadd {entries : List Fields} {id : ℕ} (hlt : id < entries.length) (fields : Fields) :
    eventAt loop (entries ++ [fields]) id = eventAt loop entries id := by
  rw [eventAt, eventAt, List.getElem?_append_left hlt]

lemma OrderedWith.handledEvents_xadd {hand : List Delivered} (h : OrderedWith loop s hand)
    (fields : Fields) :
    handledEvents loop { s with entries := s.entries ++ [fields] } = handledEvents loop s :=
  List.filterMap_congr fun id hid =>
    eventAt_xadd ((h.read id (List.mem_append_left _ hid)).trans_le h.le) fields

lemma OrderedWith.handledEvents_deliver (h : OrderedWith loop s (msg :: rest)) {ev : ε}
    (hev : loop.parse msg.2 = some ev) :
    handledEvents loop (StreamConsumer.deliver loop s msg.1 ev) = handledEvents loop s ++ [ev] := by
  have hat : eventAt loop s.entries msg.1 = some ev := by
    rw [eventAt, h.entry msg List.mem_cons_self, Option.bind_some, hev]
  simp [handledEvents, StreamConsumer.deliver, hat]

lemma OrderedWith.xadd {hand : List Delivered} (h : OrderedWith loop s hand) (fields : Fields) :
    OrderedWith loop { s with entries := s.entries ++ [fields] } hand where
  increasing := h.increasing
  read := h.read
  events id hid := by
    have hlt := (h.read id (List.mem_append_left _ hid)).trans_le h.le
    rw [eventAt_xadd hlt]
    exact h.events id hid
  entry m hm := by
    have hentry := h.entry m hm
    rw [List.getElem?_append_left (List.getElem?_eq_some_iff.mp hentry).1, hentry]
  le := by simpa using Nat.le_succ_of_le h.le

variable (loop)

/-- The invariant of a state. -/
structure Ordered (s : State ε μ) : Prop where
  ordered : OrderedWith loop s (hand s)
  puts : PutsParsed loop s

variable {loop}

lemma ordered_initial : Ordered loop (initial loop) where
  ordered := ⟨by simp [initial, hand, Phase.hand], by simp [initial, hand, Phase.hand],
    by simp [initial], by simp [initial, hand, Phase.hand], by simp [initial]⟩
  puts _ _ _ hphase := by cases hphase

/-- What the process keeps has no part in it. -/
lemma Ordered.setMemory (h : Ordered loop s) (memory : μ) : Ordered loop { s with memory } :=
  ⟨h.ordered.congr rfl rfl rfl, h.puts⟩

/-- The process lets go of what it has in hand. -/
lemma Ordered.idle (h : Ordered loop s) : OrderedWith loop s [] :=
  h.ordered.sub (List.nil_sublist _)

theorem step_ordered (loop : Loop ε μ) (s : State ε μ) (a : Action) (h : Ordered loop s) :
    Ordered loop (step loop s a) := by
  obtain ⟨hordered, hputs⟩ := h
  cases a with
  | xadd fields => exact ⟨hordered.xadd fields, hputs⟩
  | start =>
    rw [step]
    split
    · exact ⟨(Ordered.idle ⟨hordered, hputs⟩).congr rfl rfl rfl, fun _ _ _ hphase => by cases hphase⟩
    · exact ⟨hordered, hputs⟩
  | crash =>
    exact ⟨(Ordered.idle ⟨hordered, hputs⟩).congr rfl rfl rfl, fun _ _ _ hphase => by cases hphase⟩
  | xreadgroup =>
    rw [step]
    split
    · have hnext := (Ordered.idle ⟨hordered, hputs⟩).delivered.next
      exact ⟨hnext.1, hnext.2⟩
    · exact ⟨hordered, hputs⟩
  | put =>
    rw [step]
    split
    · next msg ev rest hphase =>
      rw [hand, hphase] at hordered
      exact ⟨(hordered.deliver (hputs msg ev rest hphase)).congr rfl rfl rfl,
        fun _ _ _ hphase' => by cases hphase'⟩
    · exact ⟨hordered, hputs⟩
  | xack =>
    rw [step]
    split
    · next id rest hphase =>
      rw [hand, hphase] at hordered
      have hrest : OrderedWith loop { s with pending := s.pending.filter (· ≠ id) } rest :=
        hordered.congr rfl rfl rfl
      exact ⟨hrest.next.1, hrest.next.2⟩
    · exact ⟨hordered, hputs⟩

/-- What the process of the correlator does. -/
inductive Read where
  | start
  | crash
  | xreadgroup
  | put
  | xack
  deriving DecidableEq

def Read.action : Read → Action
  | .start => .start
  | .crash => .crash
  | .xreadgroup => .xreadgroup
  | .put => .put
  | .xack => .xack

lemma Read.action_ne_crash {r : Read} (h : r ≠ .crash) : r.action ≠ .crash := by
  cases r with
  | crash => exact absurd rfl h
  | start | xreadgroup | put | xack => simp [Read.action]

/-- The process adds no entry. -/
lemma entries_read (loop : Loop ε μ) (s : State ε μ) (r : Read) :
    (step loop s r.action).entries = s.entries := by
  have hnext : ∀ (t : State ε μ) (msgs : List Delivered),
      (next loop t msgs).entries = t.entries := by
    intro t msgs
    obtain ⟨_, heq⟩ | ⟨_, _, _, ⟨_, heq⟩ | ⟨_, _, heq | heq⟩⟩ := next_parsed loop t msgs
    all_goals
      rw [heq]
      try rfl
  cases r with
  | start =>
    rw [Read.action, step]
    split <;> rfl
  | crash => rfl
  | xreadgroup =>
    rw [Read.action, step]
    split
    · rw [hnext]
      rfl
    · rfl
  | put =>
    rw [Read.action, step]
    split <;> rfl
  | xack =>
    rw [Read.action, step]
    split
    · rw [hnext]
    · rfl

/-! ## The events handled -/

lemma filterMap_eventAt_range (entries : List Fields) :
    (List.range entries.length).filterMap (eventAt loop entries) =
      entries.filterMap loop.parse := by
  induction entries using List.reverseRecOn with
  | nil => rfl
  | append_singleton entries fields ih =>
    have hold : (List.range entries.length).filterMap (eventAt loop (entries ++ [fields])) =
        (List.range entries.length).filterMap (eventAt loop entries) :=
      List.filterMap_congr fun id hid => eventAt_xadd (List.mem_range.mp hid) fields
    have hnew : eventAt loop (entries ++ [fields]) entries.length = loop.parse fields := by
      simp [eventAt]
    rw [List.length_append, List.length_singleton, List.range_succ, List.filterMap_append, hold, ih,
      List.filterMap_append]
    simp [List.filterMap_cons, hnew]

/-- Increasing numbers below a bound are a sublist of all of them. -/
lemma sublist_range {ids : List ℕ} {n : ℕ} (hincreasing : ids.Pairwise (· < ·))
    (hlt : ∀ id ∈ ids, id < n) : ids.Sublist (List.range n) :=
  List.sublist_of_subperm_of_pairwise
    (List.subperm_of_subset (hincreasing.imp fun h => h.ne) fun id hid => List.mem_range.mpr (hlt id hid))
    hincreasing List.pairwise_lt_range

/-- What was handled is in the order of the stream and in no entry twice. -/
theorem Ordered.handledEvents_sublist (h : Ordered loop s) :
    (handledEvents loop s).Sublist (s.entries.filterMap loop.parse) := by
  have hhandled := h.idle.increasing
  have hread := h.idle.read
  simp only [List.map_nil, List.append_nil] at hhandled hread
  rw [← filterMap_eventAt_range, handledEvents]
  exact (sublist_range hhandled fun id hid => (hread id hid).trans_le h.idle.le).filterMap _

/-- What a step does to the memory and to the events handled: an entry is added or
the process does nothing with an event, it delivers one, or a process starts. -/
theorem step_effect (h : Ordered loop s) (a : Action) :
    ((step loop s a).memory = s.memory ∧
      handledEvents loop (step loop s a) = handledEvents loop s) ∨
    (∃ ev, (step loop s a).memory = loop.deliver s.memory ev ∧
      handledEvents loop (step loop s a) = handledEvents loop s ++ [ev]) ∨
    (a = .start ∧ (step loop s a).memory = loop.fresh ∧
      handledEvents loop (step loop s a) = handledEvents loop s) := by
  have hnext : ∀ (t : State ε μ) (msgs : List Delivered), OrderedWith loop t msgs →
      ((next loop t msgs).memory = t.memory ∧
        handledEvents loop (next loop t msgs) = handledEvents loop t) ∨
      ∃ ev, (next loop t msgs).memory = loop.deliver t.memory ev ∧
        handledEvents loop (next loop t msgs) = handledEvents loop t ++ [ev] := by
    intro t msgs ht
    obtain ⟨rfl, heq⟩ | ⟨msg, rest, rfl, ⟨_, heq⟩ | ⟨ev, hev, heq | heq⟩⟩ := next_parsed loop t msgs
    · exact .inl (by rw [heq]; exact ⟨rfl, rfl⟩)
    · exact .inl (by rw [heq]; exact ⟨rfl, rfl⟩)
    · exact .inl (by rw [heq]; exact ⟨rfl, rfl⟩)
    · exact .inr ⟨ev, by rw [heq]; rfl, by rw [heq]; exact ht.handledEvents_deliver hev⟩
  cases a with
  | xadd fields => exact .inl ⟨rfl, h.idle.handledEvents_xadd fields⟩
  | start =>
    rw [step]
    split
    · exact .inr (.inr ⟨rfl, rfl, rfl⟩)
    · exact .inl ⟨rfl, rfl⟩
  | crash => exact .inl ⟨rfl, rfl⟩
  | xreadgroup =>
    rw [step]
    split
    · rcases hnext _ _ h.idle.delivered with hsame | hmore
      · exact .inl hsame
      · exact .inr (.inl hmore)
    · exact .inl ⟨rfl, rfl⟩
  | put =>
    rw [step]
    split
    · next msg ev rest hphase =>
      have hordered := h.ordered
      rw [hand, hphase] at hordered
      exact .inr (.inl ⟨ev, rfl, hordered.handledEvents_deliver (h.puts msg ev rest hphase)⟩)
    · exact .inl ⟨rfl, rfl⟩
  | xack =>
    rw [step]
    split
    · next id rest hphase =>
      have hordered := h.ordered
      rw [hand, hphase] at hordered
      have hrest : OrderedWith loop { s with pending := s.pending.filter (· ≠ id) } rest :=
        hordered.congr rfl rfl rfl
      rcases hnext _ _ hrest with hsame | hmore
      · exact .inl hsame
      · exact .inr (.inl hmore)
    · exact .inl ⟨rfl, rfl⟩

/-- Every process keeps what it has handled itself, and nothing else. -/
def KeepsOwn (loop : Loop ε μ) (s : State ε μ) : Prop :=
  ∃ earlier own, handledEvents loop s = earlier ++ own ∧ s.memory = own.foldl loop.deliver loop.fresh

theorem step_keepsOwn (h : Ordered loop s) (hown : KeepsOwn loop s) (a : Action) :
    KeepsOwn loop (step loop s a) := by
  obtain ⟨earlier, own, hsplit, hmemory⟩ := hown
  obtain ⟨hmem, hevents⟩ | ⟨ev, hmem, hevents⟩ | ⟨_, hmem, hevents⟩ := step_effect h a
  · exact ⟨earlier, own, by rw [hevents, hsplit], by rw [hmem, hmemory]⟩
  · exact ⟨earlier, own ++ [ev], by rw [hevents, hsplit, List.append_assoc],
      by rw [hmem, hmemory, List.foldl_append]; rfl⟩
  · exact ⟨handledEvents loop s, [], by rw [hevents, List.append_nil], by rw [hmem]; rfl⟩

lemma keepsOwn_initial (loop : Loop ε μ) : KeepsOwn loop (initial loop) := ⟨[], [], rfl, rfl⟩

/-! ## Without a crash -/

/-- Exactly the first `n` entries have been dealt with, and the batch in hand goes on
from there. A process that is down has not started yet. -/
structure UpTo (loop : Loop ε μ) (s : State ε μ) (hand : List Delivered) (n : ℕ) : Prop where
  hand_eq : hand.map Prod.snd = (s.entries.take s.lastDelivered).drop n
  le : n ≤ s.lastDelivered
  events : handledEvents loop s = (s.entries.take n).filterMap loop.parse

lemma take_succ_of_drop {α : Type*} {l xs : List α} {k n : ℕ} {x : α}
    (h : (l.take k).drop n = x :: xs) :
    l.take (n + 1) = l.take n ++ [x] ∧ (l.take k).drop (n + 1) = xs ∧ n < k := by
  have hat : (l.take k)[n]? = some x := by
    have hhead := congrArg (fun m => m[0]?) h
    simpa [List.getElem?_drop] using hhead
  have hlt : n < k := by
    have hlength := (List.getElem?_eq_some_iff.mp hat).1
    rw [List.length_take] at hlength
    omega
  rw [List.getElem?_take, if_pos hlt] at hat
  refine ⟨by rw [List.take_add_one, hat]; rfl, ?_, hlt⟩
  rw [← List.tail_drop, h, List.tail_cons]

lemma UpTo.congr {t : State ε μ} {hand : List Delivered} {n : ℕ} (h : UpTo loop s hand n)
    (hentries : t.entries = s.entries) (hlast : t.lastDelivered = s.lastDelivered)
    (hhandled : t.handled = s.handled) : UpTo loop t hand n := by
  obtain ⟨hhand, hle, hevents⟩ := h
  have hsame : handledEvents loop t = handledEvents loop s := by
    rw [handledEvents, handledEvents, hhandled, hentries]
  exact ⟨by rw [hhand, hentries, hlast], by rw [hlast]; exact hle, by rw [hsame, hevents, hentries]⟩

lemma UpTo.deliver {n : ℕ} (hordered : OrderedWith loop s (msg :: rest))
    (h : UpTo loop s (msg :: rest) n) {ev : ε} (hev : loop.parse msg.2 = some ev) :
    UpTo loop (deliver loop s msg.1 ev) rest (n + 1) := by
  obtain ⟨htake, hdrop, hlt⟩ := take_succ_of_drop h.hand_eq.symm
  refine ⟨hdrop.symm, hlt, ?_⟩
  rw [hordered.handledEvents_deliver hev, h.events]
  show _ = (s.entries.take (n + 1)).filterMap loop.parse
  rw [htake, List.filterMap_append]
  simp [hev]

lemma UpTo.next {msgs : List Delivered} {n : ℕ} (hordered : OrderedWith loop s msgs)
    (h : UpTo loop s msgs n) :
    ∃ n', UpTo loop (next loop s msgs) (hand (next loop s msgs)) n' := by
  obtain ⟨rfl, heq⟩ | ⟨msg, rest, rfl, ⟨hparse, heq⟩ | ⟨ev, hev, heq | heq⟩⟩ := next_parsed loop s msgs
  · exact ⟨n, by rw [heq]; exact h.congr rfl rfl rfl⟩
  · obtain ⟨htake, hdrop, hlt⟩ := take_succ_of_drop h.hand_eq.symm
    have hrest : UpTo loop s rest (n + 1) :=
      ⟨hdrop.symm, hlt, by rw [h.events, htake, List.filterMap_append]; simp [hparse]⟩
    exact ⟨n + 1, by rw [heq]; exact hrest.congr rfl rfl rfl⟩
  · exact ⟨n, by rw [heq]; exact h.congr rfl rfl rfl⟩
  · have hrest := h.deliver hordered hev
    exact ⟨n + 1, by rw [heq]; exact hrest.congr rfl rfl rfl⟩

lemma map_snd_batch (s : State ε μ) :
    (batch s).map Prod.snd =
      (s.entries.take (s.lastDelivered + (batch s).length)).drop s.lastDelivered := by
  have hfields : (batch s).map Prod.snd = (s.entries.drop s.lastDelivered).take 500 := by
    rw [batch, List.map_take, List.map_drop, List.map_map]
    have hfst : s.entries.zipIdx.map (Prod.snd ∘ Prod.swap) = s.entries := by
      rw [← List.zipIdx_map_fst 0 s.entries]
      simp [Function.comp_def]
    rw [hfst]
  rw [hfields, List.drop_take, length_batch, Nat.add_sub_cancel_left, ← List.length_drop]
  exact List.take_eq_take_min

/-- With nothing in hand everything that was delivered has been dealt with. -/
lemma UpTo.eq_lastDelivered {n : ℕ} (h : UpTo loop s [] n) (hle : s.lastDelivered ≤ s.entries.length) :
    n = s.lastDelivered := by
  have hempty := congrArg List.length h.hand_eq
  simp only [List.map_nil, List.length_nil, List.length_drop, List.length_take] at hempty
  have hn := h.le
  omega

lemma UpTo.xadd {hand : List Delivered} {n : ℕ} (h : UpTo loop s hand n)
    (hordered : OrderedWith loop s hand) (fields : Fields) :
    UpTo loop { s with entries := s.entries ++ [fields] } hand n where
  hand_eq := by
    rw [h.hand_eq]
    show _ = ((s.entries ++ [fields]).take s.lastDelivered).drop n
    rw [List.take_append_of_le_length hordered.le]
  le := h.le
  events := by
    rw [hordered.handledEvents_xadd, h.events]
    show _ = ((s.entries ++ [fields]).take n).filterMap loop.parse
    rw [List.take_append_of_le_length (h.le.trans hordered.le)]

/-- The invariant of a run without a crash. -/
structure Gapless (loop : Loop ε μ) (s : State ε μ) : Prop where
  ordered : Ordered loop s
  upTo : ∃ n, UpTo loop s (hand s) n
  down : s.phase = .down → s.handled = []

lemma gapless_initial (loop : Loop ε μ) : Gapless loop (initial loop) where
  ordered := ordered_initial
  upTo := ⟨0, rfl, le_rfl, rfl⟩
  down _ := rfl

lemma Gapless.setMemory (h : Gapless loop s) (memory : μ) : Gapless loop { s with memory } := by
  obtain ⟨n, hn⟩ := h.upTo
  exact ⟨h.ordered.setMemory memory, ⟨n, hn.congr rfl rfl rfl⟩, h.down⟩

lemma next_phase_ne_down (loop : Loop ε μ) (s : State ε μ) (msgs : List Delivered) :
    (next loop s msgs).phase ≠ .down := by
  obtain ⟨_, heq⟩ | ⟨_, _, _, ⟨_, heq⟩ | ⟨_, _, heq | heq⟩⟩ := next_parsed loop s msgs
  all_goals
    rw [heq]
    simp

theorem step_gapless (h : Gapless loop s) {a : Action} (hcrash : a ≠ .crash) :
    Gapless loop (step loop s a) := by
  have hordered := step_ordered loop s a h.ordered
  obtain ⟨n, hupTo⟩ := h.upTo
  cases a with
  | xadd fields => exact ⟨hordered, ⟨n, hupTo.xadd h.ordered.ordered fields⟩, h.down⟩
  | crash => exact absurd rfl hcrash
  | start =>
    rw [step] at hordered ⊢
    split at hordered
    · next hphase =>
      rw [hand, hphase] at hupTo
      exact ⟨hordered, ⟨n, hupTo.congr rfl rfl rfl⟩, fun hdown => by cases hdown⟩
    · exact h
  | xreadgroup =>
    rw [step] at hordered ⊢
    split at hordered
    · next hphase =>
      rw [hand, hphase] at hupTo
      have hn := hupTo.eq_lastDelivered h.ordered.idle.le
      have hbatch : UpTo loop (delivered s) (batch s) n := by
        refine ⟨?_, hupTo.le.trans (Nat.le_add_right _ _), hupTo.events⟩
        rw [hn]
        exact map_snd_batch s
      exact ⟨hordered, hbatch.next h.ordered.idle.delivered,
        fun hdown => absurd hdown (next_phase_ne_down loop _ _)⟩
    · exact h
  | put =>
    rw [step] at hordered ⊢
    split at hordered
    · next msg ev rest hphase =>
      have hin := h.ordered.ordered
      rw [hand, hphase] at hupTo hin
      have hrest := UpTo.deliver hin hupTo (h.ordered.puts msg ev rest hphase)
      exact ⟨hordered, ⟨n + 1, hrest.congr rfl rfl rfl⟩, fun hdown => by cases hdown⟩
    · exact h
  | xack =>
    rw [step] at hordered ⊢
    split at hordered
    · next id rest hphase =>
      have hin := h.ordered.ordered
      rw [hand, hphase] at hupTo hin
      have hrest : UpTo loop { s with pending := s.pending.filter (· ≠ id) } rest n :=
        hupTo.congr rfl rfl rfl
      have hrest' : OrderedWith loop { s with pending := s.pending.filter (· ≠ id) } rest :=
        hin.congr rfl rfl rfl
      exact ⟨hordered, hrest.next hrest', fun hdown => absurd hdown (next_phase_ne_down loop _ _)⟩
    · exact h

/-- The one process of a run without a crash keeps everything. -/
theorem step_keepsAll (h : Gapless loop s)
    (hall : s.memory = (handledEvents loop s).foldl loop.deliver loop.fresh) {a : Action}
    (hcrash : a ≠ .crash) :
    (step loop s a).memory =
      (handledEvents loop (step loop s a)).foldl loop.deliver loop.fresh := by
  obtain ⟨hmem, hevents⟩ | ⟨ev, hmem, hevents⟩ | ⟨rfl, hmem, hevents⟩ := step_effect h.ordered a
  · rw [hmem, hevents, hall]
  · rw [hmem, hevents, List.foldl_append, hall]
    rfl
  · by_cases hdown : s.phase = .down
    · -- nothing was handled yet, so the fresh memory is the right one
      rw [hmem, hevents, handledEvents, h.down hdown]
      rfl
    · have hsame : step loop s .start = s := by
        rw [step]
        split
        · next hphase => exact absurd hphase hdown
        · rfl
      rw [hsame, hall]

end FlowDiscovery.StreamConsumer
