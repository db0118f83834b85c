import FlowDiscovery.AppResolver
import FlowDiscovery.Machine

/-!
# Reloads of the catalog

Every notification spawns a task of its own that reads the three tables one after
the other and loads what it has read. The task spawned last reads only after the
last change, but nothing makes it the last to load. Where the last load of a
quiet state is by that task, or by one whose rows are still current, the resolver
has the content of the database.
-/
namespace FlowDiscovery.CatalogReload
open Machine AppResolver

/-- `_load_app_resolver` after each of its fetches. -/
inductive Reload where
  | spawned
  | hasManual (manual : List ManualApp)
  | hasSaas (manual : List ManualApp) (saas : List SaasEntry)
  | hasPorts (manual : List ManualApp) (saas : List SaasEntry) (ports : List PortDefault)
  | done
  | failed
  deriving DecidableEq

/-- `tasks` lists the reloads in the order in which they were spawned. -/
structure State where
  db : Catalog
  outstanding : ℕ
  tasks : List Reload
  resolver : AppResolver

/-- Answer of one of the three queries, in whatever order the rows come. -/
inductive Answer where
  | manual (rows : List ManualApp)
  | saas (rows : List SaasEntry)
  | ports (rows : List PortDefault)

inductive Action where
  | commit (db : Catalog) (notifications : ℕ)
  | deliver
  | fetch (i : ℕ) (answer : Answer)
  | complete (i : ℕ)
  | fail (i : ℕ)

/-- The tables were loaded once, and both channels are listened to. -/
def initial (db : Catalog) : State where
  db := db
  outstanding := 0
  tasks := []
  resolver := (load db.manual db.saas db.portDefaults).getD ⟨[], [], .empty⟩

/-- The same content of the two tables that have triggers. -/
def SameTables (db db' : Catalog) : Prop := db'.manual.Perm db.manual ∧ db'.saas.Perm db.saas

instance (db db' : Catalog) : Decidable (SameTables db db') :=
  inferInstanceAs (Decidable (_ ∧ _))

/-- A transaction. The row triggers send at least one notification if it changes
`applications` or `saas_catalog`; `port_defaults` has no trigger. -/
def commit (s : State) (db : Catalog) (notifications : ℕ) : State :=
  if notifications = 0 ∧ ¬ SameTables s.db db then s
  else { s with db, outstanding := s.outstanding + notifications }

/-- `_cb`. -/
def deliver (s : State) : State :=
  if s.outstanding = 0 then s
  else { s with outstanding := s.outstanding - 1, tasks := s.tasks ++ [.spawned] }

def fetch (s : State) (i : ℕ) (answer : Answer) : State :=
  match s.tasks[i]?, answer with
  | some .spawned, .manual rows =>
    if rows.Perm s.db.manual then { s with tasks := s.tasks.set i (.hasManual rows) } else s
  | some (.hasManual manual), .saas rows =>
    if rows.Perm s.db.saas then { s with tasks := s.tasks.set i (.hasSaas manual rows) } else s
  | some (.hasSaas manual saas), .ports rows =>
    if rows.Perm s.db.portDefaults then
      { s with tasks := s.tasks.set i (.hasPorts manual saas rows) }
    else s
  | _, _ => s

/-- `resolver.load` with the fetched rows. -/
def complete (s : State) (i : ℕ) : State :=
  match s.tasks[i]? with
  | some (.hasPorts manual saas ports) =>
    match load manual saas ports with
    | some resolver => { s with resolver, tasks := s.tasks.set i .done }
    | none => { s with tasks := s.tasks.set i .failed }
  | _ => s

/-- A query raises, or the task is cancelled. -/
def fail (s : State) (i : ℕ) : State :=
  match s.tasks[i]? with
  | none | some .done => s
  | some _ => { s with tasks := s.tasks.set i .failed }

def step (s : State) : Action → State
  | .commit db notifications => commit s db notifications
  | .deliver => deliver s
  | .fetch i answer => fetch s i answer
  | .complete i => complete s i
  | .fail i => fail s i

/-! ## The property and its condition -/

/-- No notification is outstanding and all tasks have completed without error. -/
def Quiet (s : State) : Prop := s.outstanding = 0 ∧ ∀ t ∈ s.tasks, t = .done

/-- In a quiet state the tables of the resolver have the content of the database. -/
def Converged (s : State) : Prop :=
  Quiet s → s.resolver.manual.Perm s.db.manual ∧ s.resolver.saasSorted.Perm s.db.saas

/-- All other tasks have completed without error and no notification is
outstanding. -/
def LastInFlight (s : State) (i : ℕ) : Prop :=
  s.outstanding = 0 ∧ ∀ j t, s.tasks[j]? = some t → j ≠ i → t = .done

/-- The last task in flight was spawned last, or neither table has changed in
content since it was read. -/
def NewestLast (s : State) : Action → Prop
  | .complete i => ∀ manual saas ports, s.tasks[i]? = some (.hasPorts manual saas ports) →
      LastInFlight s i →
        i + 1 = s.tasks.length ∨ manual.Perm s.db.manual ∧ saas.Perm s.db.saas
  | _ => True

/-! ## What a step does -/

namespace Reload

/-- What the task has read so far is the present content. -/
def Current (db : Catalog) : Reload → Prop
  | .hasManual manual => manual.Perm db.manual
  | .hasSaas manual saas | .hasPorts manual saas _ => manual.Perm db.manual ∧ saas.Perm db.saas
  | .spawned | .done | .failed => True

/-- The networks it has read can be parsed. -/
def Loadable : Reload → Prop
  | .hasManual manual | .hasSaas manual _ | .hasPorts manual _ _ =>
    ∀ a ∈ manual, a.network.isSome = true
  | .spawned | .done | .failed => True

lemma Current.of_sameTables {db db' : Catalog} {t : Reload} (h : t.Current db)
    (hsame : SameTables db db') : t.Current db' := by
  cases t with
  | hasManual manual => exact h.trans hsame.1.symm
  | hasSaas manual saas => exact ⟨h.1.trans hsame.1.symm, h.2.trans hsame.2.symm⟩
  | hasPorts manual saas ports => exact ⟨h.1.trans hsame.1.symm, h.2.trans hsame.2.symm⟩
  | spawned => trivial
  | done => trivial
  | failed => trivial

end Reload

theorem commit_cases (s : State) (db : Catalog) (notifications : ℕ) :
    commit s db notifications = s ∨
    (notifications = 0 → SameTables s.db db) ∧
      commit s db notifications = { s with db, outstanding := s.outstanding + notifications } := by
  by_cases h : notifications = 0 ∧ ¬ SameTables s.db db
  · exact .inl (if_pos h)
  · refine .inr ⟨fun hzero => ?_, if_neg h⟩
    by_contra hne
    exact h ⟨hzero, hne⟩

theorem deliver_cases (s : State) :
    deliver s = s ∨
    deliver s =
      { s with outstanding := s.outstanding - 1, tasks := s.tasks ++ [.spawned] } := by
  by_cases h : s.outstanding = 0
  · exact .inl (if_pos h)
  · exact .inr (if_neg h)

/-- A fetch reads the present content, so it keeps a current task current. -/
theorem fetch_cases (s : State) (i : ℕ) (answer : Answer) :
    fetch s i answer = s ∨
    ∃ t t', s.tasks[i]? = some t ∧ t' ≠ .done ∧ (t.Current s.db → t'.Current s.db) ∧
      (t.Loadable → t'.Loadable) ∧ fetch s i answer = { s with tasks := s.tasks.set i t' } := by
  unfold fetch
  split
  · next rows htask =>
    split_ifs with hperm
    · refine .inr ⟨_, .hasManual rows, htask, by simp, fun _ => hperm, fun _ a ha => ?_, rfl⟩
      exact s.db.manual_networks a (hperm.mem_iff.mp ha)
    · exact .inl rfl
  · next manual rows htask =>
    split_ifs with hperm
    · exact .inr ⟨_, .hasSaas manual rows, htask, by simp, fun h => ⟨h, hperm⟩, id, rfl⟩
    · exact .inl rfl
  · next manual saas rows htask =>
    split_ifs with hperm
    · exact .inr ⟨_, .hasPorts manual saas rows, htask, by simp, id, id, rfl⟩
    · exact .inl rfl
  · exact .inl rfl

/-- Rows that can be parsed are loaded. -/
theorem complete_cases {s : State} (hload : ∀ t ∈ s.tasks, t.Loadable) (i : ℕ) :
    (complete s i = s ∧ ∀ m sa p, s.tasks[i]? ≠ some (.hasPorts m sa p)) ∨
    ∃ manual saas ports resolver, s.tasks[i]? = some (.hasPorts manual saas ports) ∧
      resolver.manual.Perm manual ∧ resolver.saasSorted.Perm saas ∧
      complete s i = { s with resolver, tasks := s.tasks.set i .done } := by
  unfold complete
  split
  · next manual saas ports htask =>
    have hnetworks : ∀ a ∈ manual, a.network.isSome = true :=
      hload _ (List.mem_of_getElem? htask)
    rw [load, if_pos hnetworks]
    exact .inr ⟨manual, saas, ports, _, htask, sortedBy_perm _ _, sortedBy_perm _ _, rfl⟩
  · next hnone => exact .inl ⟨rfl, hnone⟩

theorem fail_cases (s : State) (i : ℕ) :
    fail s i = s ∨
    ∃ t, s.tasks[i]? = some t ∧ fail s i = { s with tasks := s.tasks.set i .failed } := by
  unfold fail
  split
  · exact .inl rfl
  · exact .inl rfl
  · next t _ htask => exact .inr ⟨t, htask, rfl⟩

/-! ## The task spawned last -/

/-- While nothing is outstanding, what the task spawned last has read is current. -/
structure Fresh (s : State) : Prop where
  loadable : ∀ t ∈ s.tasks, t.Loadable
  newest : s.outstanding = 0 → ∀ i t, i + 1 = s.tasks.length → s.tasks[i]? = some t →
    t.Current s.db

namespace Fresh

lemma commit {s : State} (h : Fresh s) (db : Catalog) (notifications : ℕ) :
    Fresh (commit s db notifications) := by
  obtain heq | ⟨hsame, heq⟩ := commit_cases s db notifications
  · rwa [heq]
  · rw [heq]
    refine ⟨h.loadable, fun hzero i t hi ht => ?_⟩
    have hzeros : s.outstanding = 0 ∧ notifications = 0 := by
      simpa using hzero
    exact (h.newest hzeros.1 i t hi ht).of_sameTables (hsame hzeros.2)

lemma deliver {s : State} (h : Fresh s) : Fresh (deliver s) := by
  obtain heq | heq := deliver_cases s
  · rwa [heq]
  · rw [heq]
    refine ⟨fun t ht => ?_, fun _ i t hi ht => ?_⟩
    · rcases List.mem_append.mp ht with ht | ht
      · exact h.loadable t ht
      · rw [List.mem_singleton.mp ht]
        trivial
    · have hlast : i = s.tasks.length := by
        simpa using hi
      subst hlast
      rw [List.getElem?_concat_length] at ht
      cases ht
      trivial

/-- A task that moves without reading anything old keeps the invariant. -/
lemma set {s : State} (h : Fresh s) {i : ℕ} {t : Reload} (ht : s.tasks[i]? = some t) (t' : Reload)
    (hcurrent : t.Current s.db → t'.Current s.db) (hload : t'.Loadable) (resolver : AppResolver) :
    Fresh { s with resolver, tasks := s.tasks.set i t' } := by
  refine ⟨forall_mem_set h.loadable hload i, fun hzero j u hj hu => ?_⟩
  rw [List.length_set] at hj
  rw [getElem?_set_of_some ht] at hu
  by_cases hij : i = j
  · subst hij
    rw [if_pos rfl] at hu
    cases hu
    exact hcurrent (h.newest hzero i t hj ht)
  · rw [if_neg hij] at hu
    exact h.newest hzero j u hj hu

theorem step {s : State} (h : Fresh s) (action : Action) : Fresh (step s action) := by
  cases action with
  | commit db notifications => exact h.commit db notifications
  | deliver => exact h.deliver
  | fetch i answer =>
    show Fresh (fetch s i answer)
    obtain heq | ⟨t, t', ht, _, hcurrent, hload, heq⟩ := fetch_cases s i answer
    · rwa [heq]
    · rw [heq]
      exact h.set ht t' hcurrent (hload (h.loadable t (List.mem_of_getElem? ht))) s.resolver
  | complete i =>
    show Fresh (complete s i)
    obtain ⟨heq, _⟩ | ⟨manual, saas, ports, resolver, ht, _, _, heq⟩ :=
      complete_cases h.loadable i
    · rwa [heq]
    · rw [heq]
      exact h.set ht .done (fun _ => trivial) trivial resolver
  | fail i =>
    show Fresh (fail s i)
    obtain heq | ⟨t, ht, heq⟩ := fail_cases s i
    · rwa [heq]
    · rw [heq]
      exact h.set ht .failed (fun _ => trivial) trivial s.resolver

end Fresh

/-! ## Convergence -/

lemma converged_of_set {s : State} {i : ℕ} {t t' : Reload} (ht : s.tasks[i]? = some t)
    (ht' : t' ≠ .done) (resolver : AppResolver) :
    Converged { s with resolver, tasks := s.tasks.set i t' } := by
  intro hquiet
  exact absurd (hquiet.2 t' (mem_set_of_some ht t')) ht'

lemma quiet_complete_iff {s : State} {i : ℕ} {t : Reload} (ht : s.tasks[i]? = some t)
    (resolver : AppResolver) :
    Quiet { s with resolver, tasks := s.tasks.set i .done } ↔ LastInFlight s i := by
  refine and_congr_right fun _ => ⟨fun h j u hu hij => ?_, fun h u hu => ?_⟩
  · apply h u
    apply List.mem_of_getElem? (i := j)
    rw [getElem?_set_of_some ht, if_neg (Ne.symm hij), hu]
  · obtain ⟨j, hj⟩ := List.mem_iff_getElem?.mp hu
    rw [getElem?_set_of_some ht] at hj
    split_ifs at hj with hij
    · exact (Option.some.inj hj).symm
    · exact h j u hj (Ne.symm hij)

/-- One step keeps the property exactly when it meets the condition. -/
theorem converged_step_iff {s : State} (hfresh : Fresh s) (hconv : Converged s) (action : Action) :
    Converged (step s action) ↔ NewestLast s action := by
  cases action with
  | commit db notifications =>
    refine iff_of_true ?_ trivial
    show Converged (commit s db notifications)
    obtain heq | ⟨hsame, heq⟩ := commit_cases s db notifications
    · rwa [heq]
    · rw [heq]
      intro hquiet
      have hzeros : s.outstanding = 0 ∧ notifications = 0 := by
        simpa using hquiet.1
      have htables := hconv ⟨hzeros.1, hquiet.2⟩
      have hdb := hsame hzeros.2
      exact ⟨htables.1.trans hdb.1.symm, htables.2.trans hdb.2.symm⟩
  | deliver =>
    refine iff_of_true ?_ trivial
    show Converged (deliver s)
    obtain heq | heq := deliver_cases s
    · rwa [heq]
    · rw [heq]
      intro hquiet
      have hdone := hquiet.2 .spawned (List.mem_append_right _ (List.mem_singleton_self _))
      cases hdone
  | fetch i answer =>
    refine iff_of_true ?_ trivial
    show Converged (fetch s i answer)
    obtain heq | ⟨t, t', ht, hne, _, _, heq⟩ := fetch_cases s i answer
    · rwa [heq]
    · rw [heq]
      exact converged_of_set ht hne s.resolver
  | fail i =>
    refine iff_of_true ?_ trivial
    show Converged (fail s i)
    obtain heq | ⟨t, ht, heq⟩ := fail_cases s i
    · rwa [heq]
    · rw [heq]
      exact converged_of_set ht (by simp) s.resolver
  | complete i =>
    show Converged (complete s i) ↔ _
    obtain ⟨heq, hnone⟩ | ⟨manual, saas, ports, resolver, ht, hm, hs, heq⟩ :=
      complete_cases hfresh.loadable i
    · rw [heq]
      exact iff_of_true hconv fun m sa p htask => absurd htask (hnone m sa p)
    · rw [heq, Converged, quiet_complete_iff ht]
      refine ⟨fun h m sa p htask hlast => ?_, fun h hlast => ?_⟩
      · rw [ht] at htask
        cases htask
        have htables := h hlast
        exact .inr ⟨hm.symm.trans htables.1, hs.symm.trans htables.2⟩
      · -- the task spawned last has read the present content
        have hcurrent : manual.Perm s.db.manual ∧ saas.Perm s.db.saas := by
          rcases h manual saas ports ht hlast with hnewest | hcurrent
          · exact hfresh.newest hlast.1 i _ hnewest ht
          · exact hcurrent
        exact ⟨hm.trans hcurrent.1, hs.trans hcurrent.2⟩

lemma initial_fresh (db : Catalog) : Fresh (initial db) := by
  refine ⟨by simp [initial], fun _ i t hi _ => ?_⟩
  simp [initial] at hi

lemma initial_converged (db : Catalog) : Converged (initial db) := by
  intro _
  simp only [initial, load_perm db (List.Perm.refl _), Option.getD_some]
  exact ⟨sortedBy_perm _ _, sortedBy_perm _ _⟩

/-- For every sequence of commits and every interleaving of notifications and
tasks: every quiet state has converged if and only if the last task in flight is
always the newest one, or one whose rows are still current. -/
theorem converged_iff_newestLast (db : Catalog) (schedule : List Action) :
    Throughout step Converged (initial db) schedule ↔
      Along step NewestLast (initial db) schedule :=
  throughout_iff_along (I := Fresh) (P := Converged) (fun _ action hfresh => hfresh.step action)
    (fun _ action hfresh hconv => converged_step_iff hfresh hconv action) (initial_fresh db)
    (initial_converged db) schedule

def catalogOf (a : ManualApp) (h : a.network.isSome = true) : Catalog where
  manual := [a]
  saas := []
  portDefaults := []
  manual_ids := List.nodup_singleton _
  manual_networks := by simpa using h
  saas_ids := List.nodup_nil
  saas_patterns := List.nodup_nil
  port_keys := List.nodup_nil

/-- The application before the two edits, between them and after them. -/
def appNamed (name : String) : ManualApp := ⟨1, name, "10.0.0.0/8", none, none, none, 100⟩

def catalogNamed (name : String) : Catalog :=
  catalogOf (appNamed name) (by
    show (appNamed "").network.isSome = true
    decide +kernel)

/-- Two edits close together: the reload for the first one has read the table
before the second edit, and it loads last. -/
def overtakenRun : List Action :=
  [.commit (catalogNamed "hr") 1, .deliver, .fetch 0 (.manual [appNamed "hr"]),
    .commit (catalogNamed "payroll") 1, .deliver, .fetch 1 (.manual [appNamed "payroll"]),
    .fetch 1 (.saas []), .fetch 1 (.ports []), .complete 1, .fetch 0 (.saas []),
    .fetch 0 (.ports []), .complete 0]

theorem overtakenRun_keeps_older_tables :
    let s := run step (initial (catalogNamed "")) overtakenRun
    s.outstanding = 0 ∧ s.tasks = [.done, .done] ∧ s.db.manual = [appNamed "payroll"] ∧
      s.resolver.manual = [appNamed "hr"] ∧
      ¬ Throughout step Converged (initial (catalogNamed "")) overtakenRun := by
  have hzero : (run step (initial (catalogNamed "")) overtakenRun).outstanding = 0 := by
    decide +kernel
  have htasks : (run step (initial (catalogNamed "")) overtakenRun).tasks = [.done, .done] := by
    decide +kernel
  have hdb : (run step (initial (catalogNamed "")) overtakenRun).db.manual =
      [appNamed "payroll"] := by decide +kernel
  have hmanual : (run step (initial (catalogNamed "")) overtakenRun).resolver.manual =
      [appNamed "hr"] := by decide +kernel
  refine ⟨hzero, htasks, hdb, hmanual, fun h => ?_⟩
  have hquiet : Quiet (run step (initial (catalogNamed "")) overtakenRun) := by
    refine ⟨hzero, ?_⟩
    rw [htasks]
    simp
  have hperm := (h.last hquiet).1
  rw [hdb, hmanual, List.perm_singleton] at hperm
  revert hperm
  decide

end FlowDiscovery.CatalogReload
