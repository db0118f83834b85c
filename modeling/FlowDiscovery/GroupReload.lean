import FlowDiscovery.Correlator
import FlowDiscovery.GroupDecisions

/-!
# Cached decisions across a reload of the memberships

A notification calls two listeners: one drops the cache of the aggregator at
once, the other reloads the group index and suspends while its query runs. A
window that is aggregated in between stores decisions on the old memberships,
and these outlive the reload. So do decisions on rows that were enriched before
the reload completed. Where no window does either, every label is what `lcd`
gives on the rows and the current sizes.
-/
namespace FlowDiscovery.GroupReload
open Machine Correlator

/-- A row with the number of loads that had finished when it was enriched. -/
structure Enriched where
  row : Row
  generation : ℕ
  deriving DecidableEq

/-- Notifications wait to be delivered; a delivery schedules one task of each
listener; a started load holds the rows of its query once the database has
answered. `finished` counts the loads that have ended. -/
structure State where
  db : List GroupRow
  outstanding : ℕ
  clearTasks : ℕ
  reloadTasks : ℕ
  inFlight : List (Option (List GroupRow))
  groups : GroupIndex
  finished : ℕ
  aggregator : GroupAggregator
  enriched : List Enriched

inductive Action where
  | update (rows : List GroupRow)
  | notify
  | deliver
  | clear
  | loadStart
  | loadQuery (i : ℕ)
  | loadComplete (i : ℕ)
  | loadFail (i : ℕ)
  | enrich (hit : Option String) (dst srcIp : String) (bytes flows : ℤ)
  | aggregate (picks : List ℕ)

/-- The state after the first load, before any listener was called. -/
def initial (db : List GroupRow) (excluded : Finset String) (floor : ℤ) : State where
  db := db
  outstanding := 0
  clearTasks := 0
  reloadTasks := 0
  inFlight := []
  groups := GroupIndex.load db
  finished := 0
  aggregator := ⟨excluded, floor, .empty⟩
  enriched := []

/-- The enriched flows of a window, in any selection and order. -/
def picked (s : State) (picks : List ℕ) : List Enriched := picks.filterMap fun i => s.enriched[i]?

def pickedRows (s : State) (picks : List ℕ) : List Row := (picked s picks).map Enriched.row

/-- One call of `aggregate` in group mode with the sizes of the moment. -/
def aggregation (s : State) (picks : List ℕ) : GroupAggregator.Aggregation :=
  s.aggregator.aggregateRows (pickedRows s picks) s.groups.groupSize .group

def enrichRow (groups : GroupIndex) (hit : Option String) (dst srcIp : String) (bytes flows : ℤ) :
    Row :=
  let user := Correlator.enrich groups hit
  ⟨user.1, user.2, dst, srcIp, bytes, flows⟩

def step (s : State) : Action → State
  | .update rows => { s with db := rows }
  | .notify => { s with outstanding := s.outstanding + 1 }
  | .deliver =>
    if s.outstanding = 0 then s
    else { s with
      outstanding := s.outstanding - 1
      clearTasks := s.clearTasks + 1
      reloadTasks := s.reloadTasks + 1 }
  | .clear =>
    if s.clearTasks = 0 then s
    else { s with clearTasks := s.clearTasks - 1, aggregator := s.aggregator.clearCache }
  | .loadStart =>
    if s.reloadTasks = 0 then s
    else { s with reloadTasks := s.reloadTasks - 1, inFlight := s.inFlight ++ [none] }
  | .loadQuery i => { s with inFlight := s.inFlight.modify i fun answer => answer.or (some s.db) }
  | .loadComplete i =>
    match s.inFlight[i]? with
    | some (some rows) =>
      { s with
        groups := GroupIndex.load rows
        finished := s.finished + 1
        inFlight := s.inFlight.eraseIdx i }
    | _ => s
  | .loadFail i =>
    if i < s.inFlight.length then
      { s with finished := s.finished + 1, inFlight := s.inFlight.eraseIdx i }
    else s
  | .enrich hit dst srcIp bytes flows =>
    let row := enrichRow s.groups hit dst srcIp bytes flows
    { s with enriched := s.enriched ++ [⟨row, s.finished⟩] }
  | .aggregate picks => { s with aggregator := (aggregation s picks).aggregator }

/-! ## The property and its condition -/

/-- No notification is outstanding or half handled, and every load has ended. -/
def Quiet (s : State) : Prop :=
  s.outstanding = 0 ∧ s.clearTasks = 0 ∧ s.reloadTasks = 0 ∧ s.inFlight = []

/-- All rows of the window were enriched after the last load had ended. -/
def FreshRows (s : State) (picks : List ℕ) : Prop :=
  ∀ e ∈ picked s picks, e.generation = s.finished

/-- Every group label a window uses is the one recomputed from its rows and the
current sizes, if it runs quietly and on fresh rows. -/
def LabelsCurrent (s : State) : Action → Prop
  | .aggregate picks => Quiet s → FreshRows s picks →
    ∀ dec ∈ (aggregation s picks).decisions,
      dec.chosen = lcd dec.users (collectUserGroups (pickedRows s picks)).get? s.groups.groupSize
        s.aggregator.excluded s.aggregator.floor
  | _ => True

/-- Some destination of the window has a set of users without a cached decision. -/
def Misses (s : State) (picks : List ℕ) : Prop :=
  ∃ r ∈ pickedRows s picks, knownUsers (pickedRows s picks) r.dst ≠ ∅ ∧
    s.aggregator.cache.get? (knownUsers (pickedRows s picks) r.dst) = none

/-- A window only stores new decisions while a clear is still to come, or with no
load pending and on rows of the current memberships. -/
def StoresSafely (s : State) : Action → Prop
  | .aggregate picks => Misses s picks →
    (s.outstanding ≠ 0 ∨ s.clearTasks ≠ 0) ∨
      (s.reloadTasks = 0 ∧ s.inFlight = [] ∧ FreshRows s picks)
  | _ => True

instance (s : State) (picks : List ℕ) : Decidable (FreshRows s picks) :=
  inferInstanceAs (Decidable (∀ _ ∈ _, _))

instance (s : State) (picks : List ℕ) : Decidable (Misses s picks) :=
  inferInstanceAs (Decidable (∃ _ ∈ _, _))

instance (s : State) : DecidablePred (StoresSafely s)
  | .aggregate _ => inferInstanceAs (Decidable (_ → _))
  | .update _ | .notify | .deliver | .clear | .loadStart | .loadQuery _ | .loadComplete _
  | .loadFail _ | .enrich _ _ _ _ _ => isTrue trivial

/-! ## Invariant -/

/-- Unless a clear is still to come, cached decisions are current, and the cache
is empty as long as a load is pending. -/
structure CacheInv (s : State) : Prop where
  generation_le : ∀ e ∈ s.enriched, e.generation ≤ s.finished
  groups_eq : ∀ e ∈ s.enriched, e.generation = s.finished → e.row.userUpn ≠ unknownUser →
    e.row.groups = s.groups.groupsOf e.row.userUpn
  current : s.outstanding = 0 → s.clearTasks = 0 → s.reloadTasks = 0 → s.inFlight = [] →
    s.aggregator.CacheCurrent s.groups.groupsOf s.groups.groupSize
  empty : s.outstanding = 0 → s.clearTasks = 0 → s.reloadTasks ≠ 0 ∨ s.inFlight ≠ [] →
    ∀ k, s.aggregator.cache.get? k = none

theorem initial_cacheInv (db : List GroupRow) (excluded : Finset String) (floor : ℤ) :
    CacheInv (initial db excluded floor) where
  generation_le := by simp [initial]
  groups_eq := by simp [initial]
  current := by simp [initial, GroupAggregator.CacheCurrent]
  empty := by simp [initial]

/-- Fresh rows carry the memberships of the index. -/
theorem rowsFrom_of_fresh {s : State} (h : CacheInv s) {picks : List ℕ}
    (hfresh : FreshRows s picks) : RowsFrom s.groups.groupsOf (pickedRows s picks) := by
  intro r hr hne
  obtain ⟨e, he, rfl⟩ := List.mem_map.mp hr
  obtain ⟨i, _, hi⟩ := List.mem_filterMap.mp he
  exact h.groups_eq e (List.mem_of_getElem? hi) (hfresh e he) hne

/-- A decision that a window adds to the cache is on the users of one of its
destinations, so the window misses. -/
theorem misses_of_new {s : State} {picks : List ℕ} {k : Finset String}
    (hnone : s.aggregator.cache.get? k = none)
    (hdec : ∃ dec ∈ (aggregation s picks).decisions, dec.users = k) :
    Misses s picks ∧ ∃ dst, k = knownUsers (pickedRows s picks) dst := by
  obtain ⟨dec, hmem, rfl⟩ := hdec
  obtain ⟨hk, hne⟩ := (GroupAggregator.aggregateRows_decisions s.aggregator (pickedRows s picks)
    s.groups.groupSize dec.dst dec.users).mp ⟨dec, hmem, rfl, rfl⟩
  refine ⟨?_, dec.dst, hk⟩
  rw [hk] at hnone hne
  obtain ⟨u, hu⟩ := Finset.nonempty_iff_ne_empty.mpr hne
  obtain ⟨_, r, hr, hdst, _⟩ := (mem_knownUsers _ dec.dst u).mp hu
  exact ⟨r, hr, by rw [hdst]; exact hne, by rw [hdst]; exact hnone⟩

theorem CacheInv.aggregate {s : State} (h : CacheInv s) (picks : List ℕ)
    (hsafe : StoresSafely s (.aggregate picks)) : CacheInv (step s (.aggregate picks)) := by
  have hd := GroupAggregator.aggregateRows_decided s.aggregator (pickedRows s picks)
    s.groups.groupSize
  refine ⟨h.generation_le, h.groups_eq, ?_, ?_⟩
  · intro hout hclear hreload hflight k d hk
    simp only [step, aggregation, hd.excluded_eq, hd.floor_eq]
    obtain hold | ⟨hnone, rfl, hdec⟩ := hd.origin k d hk
    · exact h.current hout hclear hreload hflight k d hold
    · obtain ⟨hmiss, dst, rfl⟩ := misses_of_new hnone hdec
      obtain (hout' | hclear') | ⟨_, _, hfresh⟩ := hsafe hmiss
      · exact absurd hout hout'
      · exact absurd hclear hclear'
      · exact lcd_rowsFrom (rowsFrom_of_fresh h hfresh) dst _ _ _
  · intro hout hclear hpending k
    cases hk : (step s (.aggregate picks)).aggregator.cache.get? k with
    | none => rfl
    | some d =>
      obtain hold | ⟨hnone, _, hdec⟩ := hd.origin k d hk
      · rw [h.empty hout hclear hpending k] at hold
        cases hold
      · obtain ⟨hmiss, _⟩ := misses_of_new hnone hdec
        obtain (hout' | hclear') | ⟨hreload, hflight, _⟩ := hsafe hmiss
        · exact absurd hout hout'
        · exact absurd hclear hclear'
        · exact absurd hreload (hpending.resolve_right (not_not.mpr hflight))

theorem CacheInv.enrich {s : State} (h : CacheInv s) (hit : Option String) (dst srcIp : String)
    (bytes flows : ℤ) : CacheInv (step s (.enrich hit dst srcIp bytes flows)) := by
  refine ⟨?_, ?_, h.current, h.empty⟩
  · intro e he
    rcases List.mem_append.mp he with he | he
    · exact h.generation_le e he
    · rw [List.mem_singleton.mp he]
      exact le_rfl
  · intro e he hgen hne
    rcases List.mem_append.mp he with he | he
    · exact h.groups_eq e he hgen hne
    · obtain rfl := List.mem_singleton.mp he
      cases hit with
      | none => exact absurd rfl hne
      | some upn => rfl

/-- Rows enriched before a load ended are not of the new generation. -/
theorem generation_lt {s : State} (h : CacheInv s) {e : Enriched} (he : e ∈ s.enriched) :
    e.generation ≠ s.finished + 1 := by
  have hle := h.generation_le e he
  omega

/-- The end of a load finds the cache empty, unless a clear is still to come. -/
theorem CacheInv.loadEnd {s : State} (h : CacheInv s) (i : ℕ) (hi : i < s.inFlight.length)
    (groups : GroupIndex) :
    CacheInv { s with
      groups := groups, finished := s.finished + 1, inFlight := s.inFlight.eraseIdx i } := by
  have hflight : s.inFlight ≠ [] := List.ne_nil_of_length_pos (by omega)
  refine ⟨fun e he => (h.generation_le e he).trans (Nat.le_succ _), ?_, ?_, ?_⟩
  · intro e he hgen
    exact absurd hgen (generation_lt h he)
  · intro hout hclear _ _ k d hk
    rw [h.empty hout hclear (.inr hflight) k] at hk
    cases hk
  · intro hout hclear _ k
    exact h.empty hout hclear (.inr hflight) k

theorem CacheInv.step {s : State} (h : CacheInv s) (action : Action)
    (hsafe : StoresSafely s action) : CacheInv (step s action) := by
  cases action with
  | update rows => exact ⟨h.generation_le, h.groups_eq, h.current, h.empty⟩
  | notify =>
    exact ⟨h.generation_le, h.groups_eq, fun hout => absurd hout (Nat.succ_ne_zero _),
      fun hout => absurd hout (Nat.succ_ne_zero _)⟩
  | deliver =>
    simp only [GroupReload.step]
    split_ifs with hout
    · exact h
    · exact ⟨h.generation_le, h.groups_eq, fun _ hclear => absurd hclear (Nat.succ_ne_zero _),
        fun _ hclear => absurd hclear (Nat.succ_ne_zero _)⟩
  | clear =>
    simp only [GroupReload.step]
    split_ifs with hclear
    · exact h
    · refine ⟨h.generation_le, h.groups_eq, ?_, fun _ _ _ _ => rfl⟩
      intro _ _ _ _ k d hk
      cases hk
  | loadStart =>
    simp only [GroupReload.step]
    split_ifs with hreload
    · exact h
    · refine ⟨h.generation_le, h.groups_eq, ?_, ?_⟩
      · intro _ _ _ hflight
        exact absurd hflight (by simp)
      · exact fun hout hclear _ => h.empty hout hclear (.inl hreload)
  | loadQuery i =>
    have hnil : s.inFlight.modify i (fun answer => answer.or (some s.db)) = [] ↔
        s.inFlight = [] := by
      rw [← List.length_eq_zero_iff, List.length_modify, List.length_eq_zero_iff]
    refine ⟨h.generation_le, h.groups_eq, ?_, ?_⟩
    · exact fun hout hclear hreload hflight => h.current hout hclear hreload (hnil.mp hflight)
    · exact fun hout hclear hp => h.empty hout hclear (hp.imp id (mt hnil.mpr))
  | loadComplete i =>
    simp only [GroupReload.step]
    split
    · rename_i rows hrows
      exact h.loadEnd i (List.getElem?_eq_some_iff.mp hrows).1 _
    · exact h
  | loadFail i =>
    simp only [GroupReload.step]
    split_ifs with hi
    · exact h.loadEnd i hi s.groups
    · exact h
  | enrich hit dst srcIp bytes flows => exact h.enrich hit dst srcIp bytes flows
  | aggregate picks => exact h.aggregate picks hsafe

/-- In a quiet state the labels of a window of fresh rows are current, whether
they are cached or computed. -/
theorem CacheInv.labelsCurrent {s : State} (h : CacheInv s) (action : Action) :
    LabelsCurrent s action := by
  cases action with
  | aggregate picks =>
    rintro ⟨hout, hclear, hreload, hflight⟩ hfresh dec hdec
    have hd := GroupAggregator.aggregateRows_decided s.aggregator (pickedRows s picks)
      s.groups.groupSize
    obtain hold | ⟨_, hnew, _⟩ := hd.origin _ _ (hd.cached dec hdec)
    · obtain ⟨hk, _⟩ := (GroupAggregator.aggregateRows_decisions s.aggregator
        (pickedRows s picks) s.groups.groupSize dec.dst dec.users).mp ⟨dec, hdec, rfl, rfl⟩
      rw [h.current hout hclear hreload hflight _ _ hold, hk,
        lcd_rowsFrom (rowsFrom_of_fresh h hfresh)]
    · exact hnew
  | _ => trivial

/-- In every run whose windows store decisions safely, every window that runs
quietly on fresh rows uses current labels only. -/
theorem labelsCurrent_of_storesSafely (db : List GroupRow) (excluded : Finset String) (floor : ℤ)
    (actions : List Action)
    (h : Along step StoresSafely (initial db excluded floor) actions) :
    Along step LabelsCurrent (initial db excluded floor) actions :=
  along_of_invariant (I := CacheInv) (fun _ a hI hC => hI.step a hC)
    (fun _ a hI _ => hI.labelsCurrent a) (initial_cacheInv db excluded floor) h

/-- Two users in one group each row; they move together from one team to the other. -/
def membersOf (group : String) : List GroupRow := [⟨"alice", group, group⟩, ⟨"bob", group, group⟩]

/-- Both users send traffic to one application. -/
def teamTraffic : List Action :=
  [.enrich (some "alice") "app:wiki" "10.0.0.5" 10 1,
    .enrich (some "bob") "app:wiki" "10.0.0.6" 10 1]

/-- The reload completes before the window is enriched and aggregated. -/
def quietReload : List Action :=
  [.update (membersOf "ops"), .notify, .deliver, .loadStart, .clear, .loadQuery 0,
    .loadComplete 0] ++ teamTraffic ++ [.aggregate [0, 1]]

theorem labelsCurrent_of_storesSafely_quietReload :
    Along step StoresSafely (initial (membersOf "eng") ∅ 500) quietReload ∧
      Along step LabelsCurrent (initial (membersOf "eng") ∅ 500) quietReload := by
  have hsafe : Along step StoresSafely (initial (membersOf "eng") ∅ 500) quietReload := by
    decide +kernel
  exact ⟨hsafe, labelsCurrent_of_storesSafely _ _ _ _ hsafe⟩

/-- Both listeners start; while the query of the reload runs, the cache is dropped
and a window is aggregated. Two more flows are enriched after the reload. -/
def windowDuringReload : List Action :=
  [.update (membersOf "ops"), .notify, .deliver, .loadStart, .clear] ++ teamTraffic ++
    [.aggregate [0, 1], .loadQuery 0, .loadComplete 0] ++ teamTraffic

/-- Everything is quiet and both rows are fresh, but the next window still rolls
the users up under the team they have left. -/
theorem windowDuringReload_label_outdated :
    let s := run step (initial (membersOf "eng") ∅ 500) windowDuringReload
    Quiet s ∧ FreshRows s [2, 3] ∧
      (aggregation s [2, 3]).decisions = [⟨"app:wiki", {"bob", "alice"}, some "eng"⟩] ∧
      lcd {"bob", "alice"} (collectUserGroups (pickedRows s [2, 3])).get? s.groups.groupSize
        s.aggregator.excluded s.aggregator.floor = some "ops" ∧
      ¬ LabelsCurrent s (.aggregate [2, 3]) := by
  intro s
  have hquiet : Quiet s := by unfold Quiet; decide
  have hfresh : FreshRows s [2, 3] := by decide
  have hdecisions : (aggregation s [2, 3]).decisions =
      [⟨"app:wiki", {"bob", "alice"}, some "eng"⟩] := by decide +kernel
  have hlcd : lcd {"bob", "alice"} (collectUserGroups (pickedRows s [2, 3])).get?
      s.groups.groupSize s.aggregator.excluded s.aggregator.floor = some "ops" := by decide +kernel
  refine ⟨hquiet, hfresh, hdecisions, hlcd, fun h => ?_⟩
  have hchosen := h hquiet hfresh _ (hdecisions ▸ List.mem_singleton_self _)
  rw [hlcd] at hchosen
  exact absurd hchosen (by decide)

end FlowDiscovery.GroupReload
