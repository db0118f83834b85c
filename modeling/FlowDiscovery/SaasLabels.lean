import FlowDiscovery.CatalogReload
import FlowDiscovery.ResolutionOrder
import FlowDiscovery.SaasStore

/-!
# From an edit of the catalog to the labels

Each committed edit makes the trigger of its row notify the correlator, which reads the
tables again. A reload reads all SaaS entries in one query, so names are labelled by the
rows as they were after some number of edits, never by a mixture. Where reloads do not
overtake each other, the rows are the present ones once nothing is left to be done.
-/
namespace FlowDiscovery.SaasLabels
open Machine AppResolver SaasStore
open Applications (Auth)
open CatalogReload (Reload Fresh Converged NewestLast Quiet)

/-! ## The system -/

/-- The API with its table, and the correlator that reads it. -/
structure State where
  store : SaasStore.State
  reload : CatalogReload.State

/-- `others` is a transaction on the other two tables. -/
inductive Action where
  | arrive (h : Headers) (call : Call)
  | finish (i : ℕ) (reply : Reply)
  | others (db : Catalog) (notifications : ℕ)
  | deliver
  | fetch (i : ℕ) (answer : CatalogReload.Answer)
  | complete (i : ℕ)
  | fail (i : ℕ)

lemma map_id_entry (rows : List SaasRow) :
    (rows.map SaasRow.entry).map SaasEntry.id = rows.map SaasRow.id := by
  rw [List.map_map]
  rfl

lemma map_pattern_entry (rows : List SaasRow) :
    (rows.map SaasRow.entry).map SaasEntry.pattern = rows.map SaasRow.pattern := by
  rw [List.map_map]
  rfl

/-- The tables with these SaaS entries. -/
def withSaas (db : Catalog) (t : Table) : Catalog :=
  { db with
    saas := t.rows.map SaasRow.entry
    saas_ids := (map_id_entry t.rows).symm ▸ t.ids
    saas_patterns := (map_pattern_entry t.rows).symm ▸ t.patterns }

def initial (m : Migrated) (db : Catalog) : State where
  store := SaasStore.initial m
  reload := CatalogReload.initial (withSaas db m.table)

/-- A commit that changed a row has sent one notification. -/
def finish (s : State) (i : ℕ) (reply : Reply) : State :=
  let store := SaasStore.finish s.store i reply
  if store.edits = s.store.edits then { s with store }
  else ⟨store, CatalogReload.commit s.reload (withSaas s.reload.db store.table) 1⟩

def step (auth : Auth) (s : State) : Action → State
  | .arrive h call => { s with store := SaasStore.arrive auth s.store h call }
  | .finish i reply => finish s i reply
  | .others db notifications =>
    { s with reload := CatalogReload.commit s.reload (withSaas db s.store.table) notifications }
  | .deliver => { s with reload := CatalogReload.deliver s.reload }
  | .fetch i answer => { s with reload := CatalogReload.fetch s.reload i answer }
  | .complete i => { s with reload := CatalogReload.complete s.reload i }
  | .fail i => { s with reload := CatalogReload.fail s.reload i }

/-! ## The properties -/

/-- The rows after the first `n` edits. -/
def versionAt (m : Migrated) (s : SaasStore.State) (n : ℕ) : List SaasRow :=
  ((s.edits.take n).map Prod.snd).foldl Edit.apply m.table.rows

/-- A name gets an entry of these rows that matches it, and none that matches comes
before that one. -/
structure LabelsBy (lower : String → String) (rows : List SaasRow) (r : AppResolver) : Prop where
  hit : ∀ d e, r.fqdnHit lower d.firewallFqdn = some e →
    Named lower (rows.map SaasRow.entry) d e ∧
      ∀ e', Named lower (rows.map SaasRow.entry) d e' → ¬ SaasOutranks e' e
  miss : ∀ d, r.fqdnHit lower d.firewallFqdn = none →
    ∀ e, ¬ Named lower (rows.map SaasRow.entry) d e

/-- Reloads do not overtake each other. -/
def Orderly (s : State) : Action → Prop
  | .complete i => NewestLast s.reload (.complete i)
  | .arrive _ _ | .finish _ _ | .others _ _ | .deliver | .fetch _ _ | .fail _ => True

/-! ## Versions of the rows -/

/-- The entries in the order of the lookups. -/
def sorted (rows : List SaasRow) : List SaasEntry :=
  sortedBy SaasEntry.sortKey (rows.map SaasRow.entry)

/-- These are the entries after some number of edits. -/
def ReadAt (m : Migrated) (s : SaasStore.State) (entries : List SaasEntry) : Prop :=
  ∃ n ≤ s.edits.length, entries = sorted (versionAt m s n)

section

variable {m : Migrated} {s s' : SaasStore.State}

lemma versionAt_of_prefix (h : s.edits <+: s'.edits) {n : ℕ} (hn : n ≤ s.edits.length) :
    versionAt m s' n = versionAt m s n := by
  obtain ⟨rest, hrest⟩ := h
  rw [versionAt, ← hrest, List.take_append_of_le_length hn, versionAt]

lemma ReadAt.extend {entries : List SaasEntry} (hread : ReadAt m s entries)
    (h : s.edits <+: s'.edits) : ReadAt m s' entries := by
  obtain ⟨n, hn, hentries⟩ := hread
  exact ⟨n, hn.trans h.length_le, by rw [hentries, versionAt_of_prefix h hn]⟩

lemma versionAt_all {auth : Auth} (h : Accounted auth m s) :
    versionAt m s s.edits.length = s.table.rows := by
  rw [versionAt, List.take_length, h.rows]

end

/-- The sort key ends in the id. -/
lemma id_eq_of_sortKey_eq {a b : SaasEntry} (h : a.sortKey = b.sortKey) : a.id = b.id :=
  (Prod.mk.inj (Prod.mk.inj h).2).2

/-- Entries with different ids can be sorted in one way. -/
lemma sortedBy_eq {entries entries' : List SaasEntry} (hperm : entries'.Perm entries)
    (hids : (entries.map SaasEntry.id).Nodup) :
    sortedBy SaasEntry.sortKey entries' = sortedBy SaasEntry.sortKey entries :=
  (sortedBy_eq_of_perm hperm.symm fun _ ha _ hb hkey =>
    List.inj_on_of_nodup_map hids ha hb (id_eq_of_sortKey_eq hkey)).symm

/-- Lookups of names read the sorted entries only. -/
lemma labelsBy_of_sorted (lower : String → String) {rows : List SaasRow} {r : AppResolver}
    (h : r.saasSorted = sorted rows) : LabelsBy lower rows r := by
  have hload := (load_eq_some_iff [] (rows.map SaasRow.entry) [] ⟨[], r.saasSorted, .empty⟩).mpr
    ⟨by simp, by rw [h]; rfl⟩
  have hsame : ∀ fqdn, r.fqdnHit lower fqdn =
      AppResolver.fqdnHit lower ⟨[], r.saasSorted, .empty⟩ fqdn := by
    intro fqdn
    rw [fqdnHit_eq, fqdnHit_eq]
  refine ⟨fun d e he => ?_, fun d hd e he => ?_⟩
  · rw [hsame] at he
    exact fqdnHit_best hload he
  · rw [hsame] at hd
    exact fqdnHit_none hload hd ⟨e, he⟩

/-! ## What a step does -/

/-- The SaaS entries that a reload has read. -/
def saasOf : Reload → Option (List SaasEntry)
  | .hasSaas _ saas | .hasPorts _ saas _ => some saas
  | .spawned | .hasManual _ | .done | .failed => none

/-- A step of the correlator: a reload holds what another one held or the present entries,
and the resolver has what it had or what a reload held. -/
structure Moves (r r' : CatalogReload.State) : Prop where
  db : r'.db = r.db
  tasks : ∀ t ∈ r'.tasks, ∀ saas, saasOf t = some saas →
    (∃ t' ∈ r.tasks, saasOf t' = some saas) ∨ saas.Perm r.db.saas
  resolver : r'.resolver = r.resolver ∨
    ∃ t ∈ r.tasks, ∃ saas, saasOf t = some saas ∧
      r'.resolver.saasSorted = sortedBy SaasEntry.sortKey saas

section

variable (r : CatalogReload.State)

lemma Moves.refl : Moves r r := ⟨rfl, fun t ht _ h => .inl ⟨t, ht, h⟩, .inl rfl⟩

/-- One task moves. -/
lemma moves_set {i : ℕ} {t' : Reload}
    (ht' : ∀ saas, saasOf t' = some saas →
      (∃ t ∈ r.tasks, saasOf t = some saas) ∨ saas.Perm r.db.saas) :
    Moves r { r with tasks := r.tasks.set i t' } := by
  refine ⟨rfl, fun t ht saas hsaas => ?_, .inl rfl⟩
  rcases List.mem_or_eq_of_mem_set ht with ht | rfl
  · exact .inl ⟨t, ht, hsaas⟩
  · exact ht' saas hsaas

lemma moves_deliver : Moves r (CatalogReload.deliver r) := by
  rcases CatalogReload.deliver_cases r with heq | heq
  · rw [heq]
    exact .refl r
  · rw [heq]
    refine ⟨rfl, fun t ht saas hsaas => ?_, .inl rfl⟩
    rcases List.mem_append.mp ht with ht | ht
    · exact .inl ⟨t, ht, hsaas⟩
    · rw [List.mem_singleton.mp ht] at hsaas
      cases hsaas

lemma moves_fetch (i : ℕ) (answer : CatalogReload.Answer) :
    Moves r (CatalogReload.fetch r i answer) := by
  unfold CatalogReload.fetch
  split
  · split_ifs
    · exact moves_set r (by simp [saasOf])
    · exact .refl r
  · split_ifs with hperm
    · refine moves_set r fun saas hsaas => .inr ?_
      rwa [← Option.some.inj hsaas]
    · exact .refl r
  · next manual saas rows htask =>
    split_ifs
    · refine moves_set r fun saas' hsaas => .inl ?_
      exact ⟨_, List.mem_of_getElem? htask, hsaas⟩
    · exact .refl r
  · exact .refl r

lemma moves_complete (i : ℕ) : Moves r (CatalogReload.complete r i) := by
  unfold CatalogReload.complete
  split
  · next manual saas ports htask =>
    split
    · next resolver hload =>
      obtain ⟨_, rfl⟩ := (load_eq_some_iff _ _ _ _).mp hload
      have hset : Moves r { r with tasks := r.tasks.set i .done } := moves_set r (by simp [saasOf])
      exact ⟨rfl, hset.tasks, .inr ⟨_, List.mem_of_getElem? htask, saas, rfl, rfl⟩⟩
    · exact moves_set r (by simp [saasOf])
  · exact .refl r

lemma moves_fail (i : ℕ) : Moves r (CatalogReload.fail r i) := by
  rcases CatalogReload.fail_cases r i with heq | ⟨t, _, heq⟩
  · rw [heq]
    exact .refl r
  · rw [heq]
    exact moves_set r (by simp [saasOf])

end

/-- A commit is the only thing that changes the table. -/
lemma finish_frame (s : SaasStore.State) (i : ℕ) (reply : Reply) :
    s.edits <+: (SaasStore.finish s i reply).edits ∧
      ((SaasStore.finish s i reply).edits = s.edits →
        (SaasStore.finish s i reply).table = s.table) := by
  obtain heq | ⟨t, _, hends⟩ := finish_cases s i reply
  · rw [heq]
    exact ⟨List.prefix_refl _, fun _ => rfl⟩
  · generalize SaasStore.finish s i reply = s' at hends
    cases hends with
    | unchanged => exact ⟨List.prefix_refl _, fun _ => rfl⟩
    | edited => exact ⟨List.prefix_append _ _, fun h => absurd h (by simp [answer, record])⟩

/-! ## The invariant -/

/-- What a reload holds and what the resolver has are versions of the rows. -/
structure Tracked (auth : Auth) (m : Migrated) (s : State) : Prop where
  store : Sound auth m s.store
  db : s.reload.db.saas = s.store.table.rows.map SaasRow.entry
  tasks : ∀ t ∈ s.reload.tasks, ∀ saas, saasOf t = some saas →
    ReadAt m s.store (sortedBy SaasEntry.sortKey saas)
  resolver : ReadAt m s.store s.reload.resolver.saasSorted

section

variable {auth : Auth} {m : Migrated} {s : State}

lemma tracked_initial (auth : Auth) (m : Migrated) (db : Catalog) :
    Tracked auth m (initial m db) where
  store := sound_initial auth m
  db := rfl
  tasks := by simp [initial, CatalogReload.initial]
  resolver := by
    refine ⟨0, Nat.le_refl 0, ?_⟩
    simp only [initial, CatalogReload.initial, load_perm _ (List.Perm.refl _), Option.getD_some]
    rfl

/-- The present entries are a version. -/
lemma Tracked.present (h : Tracked auth m s) {saas : List SaasEntry}
    (hperm : saas.Perm s.reload.db.saas) :
    sortedBy SaasEntry.sortKey saas = sorted s.store.table.rows := by
  rw [sortedBy_eq hperm s.reload.db.saas_ids, h.db, sorted]

lemma Tracked.moves (h : Tracked auth m s) {r : CatalogReload.State} (hmoves : Moves s.reload r) :
    Tracked auth m { s with reload := r } where
  store := h.store
  db := by rw [hmoves.db, h.db]
  tasks t ht saas hsaas := by
    rcases hmoves.tasks t ht saas hsaas with ⟨t', ht', hsaas'⟩ | hperm
    · exact h.tasks t' ht' saas hsaas'
    · refine ⟨s.store.edits.length, Nat.le_refl _, ?_⟩
      rw [versionAt_all h.store.accounted]
      exact h.present hperm
  resolver := by
    rcases hmoves.resolver with heq | ⟨t, ht, saas, hsaas, heq⟩
    · simp only [heq]
      exact h.resolver
    · simp only [heq]
      exact h.tasks t ht saas hsaas

/-- The API goes on. -/
lemma Tracked.edited (h : Tracked auth m s) {store : SaasStore.State}
    (hstore : Sound auth m store) (hmore : s.store.edits <+: store.edits)
    {r : CatalogReload.State} (hdb : r.db.saas = store.table.rows.map SaasRow.entry)
    (htasks : r.tasks = s.reload.tasks) (hresolver : r.resolver = s.reload.resolver) :
    Tracked auth m ⟨store, r⟩ where
  store := hstore
  db := hdb
  tasks t ht saas hsaas := (h.tasks t (htasks ▸ ht) saas hsaas).extend hmore
  resolver := by
    simp only [hresolver]
    exact h.resolver.extend hmore

theorem Tracked.step (h : Tracked auth m s) (a : Action) : Tracked auth m (step auth s a) := by
  cases a with
  | arrive headers call =>
    exact h.edited (h.store.arrive headers call) (List.prefix_refl _) h.db rfl rfl
  | finish i reply =>
    have hstore : Sound auth m (SaasStore.finish s.store i reply) := h.store.step (.finish i reply)
    obtain ⟨hmore, htable⟩ := finish_frame s.store i reply
    simp only [SaasLabels.step, finish]
    split_ifs with hedits
    · exact h.edited hstore hmore (by rw [h.db, htable hedits]) rfl rfl
    · -- one notification is sent, so the commit takes place
      rw [CatalogReload.commit, if_neg (by simp)]
      exact h.edited hstore hmore rfl rfl rfl
  | others db notifications =>
    rcases CatalogReload.commit_cases s.reload (withSaas db s.store.table) notifications with
      heq | ⟨_, heq⟩
    · rwa [SaasLabels.step, heq]
    · rw [SaasLabels.step, heq]
      exact h.edited h.store (List.prefix_refl _) rfl rfl rfl
  | deliver => exact h.moves (moves_deliver s.reload)
  | fetch i answer => exact h.moves (moves_fetch s.reload i answer)
  | complete i => exact h.moves (moves_complete s.reload i)
  | fail i => exact h.moves (moves_fail s.reload i)

end

/-- For every order of requests, commits, notifications and reloads, and every failure:
the edits make the rows, and names are labelled by the rows that some of them made. -/
theorem labels_from_version (auth : Auth) (m : Migrated) (db : Catalog) (schedule : List Action) :
    let s := run (step auth) (initial m db) schedule
    versionAt m s.store s.store.edits.length = s.store.table.rows ∧
      ∃ n ≤ s.store.edits.length, ∀ lower, LabelsBy lower (versionAt m s.store n) s.reload.resolver := by
  have h : Tracked auth m (run (step auth) (initial m db) schedule) :=
    run_invariant (I := Tracked auth m) (fun _ a h => h.step a) (tracked_initial auth m db) schedule
  obtain ⟨n, hn, hsorted⟩ := h.resolver
  exact ⟨versionAt_all h.store.accounted, n, hn, fun lower => labelsBy_of_sorted lower hsorted⟩

/-! ## Reloads in order -/

section

variable {auth : Auth} {m : Migrated} {s : State}

/-- Whatever happens, the correlator stands still or takes a step of its own model. -/
lemma step_reload (auth : Auth) (s : State) (a : Action) :
    (step auth s a).reload = s.reload ∨
    ∃ a', (step auth s a).reload = CatalogReload.step s.reload a' ∧
      (Orderly s a → NewestLast s.reload a') := by
  cases a with
  | arrive headers call => exact .inl rfl
  | finish i reply =>
    simp only [step, finish]
    split_ifs
    · exact .inl rfl
    · exact .inr ⟨.commit (withSaas s.reload.db (SaasStore.finish s.store i reply).table) 1, rfl,
        fun _ => trivial⟩
  | others db notifications =>
    exact .inr ⟨.commit (withSaas db s.store.table) notifications, rfl, fun _ => trivial⟩
  | deliver => exact .inr ⟨.deliver, rfl, fun _ => trivial⟩
  | fetch i answer => exact .inr ⟨.fetch i answer, rfl, fun _ => trivial⟩
  | complete i => exact .inr ⟨.complete i, rfl, id⟩
  | fail i => exact .inr ⟨.fail i, rfl, fun _ => trivial⟩

/-- In a quiet state that has converged, the version is the present one. -/
lemma Tracked.current (h : Tracked auth m s) (hconv : Converged s.reload) (hquiet : Quiet s.reload) :
    s.reload.resolver.saasSorted = sorted s.store.table.rows := by
  obtain ⟨n, _, hsorted⟩ := h.resolver
  have hpresent := h.present (hconv hquiet).2
  rw [hsorted] at hpresent ⊢
  rw [← hpresent]
  have htotal : Std.Total fun a b : SaasEntry => a.sortKey ≤ b.sortKey := ⟨fun _ _ => le_total _ _⟩
  exact ((pairwise_sortedBy SaasEntry.sortKey _).insertionSort_eq).symm

end

/-- Once all notifications are delivered and all reloads done, names are labelled by the
present rows, as long as no reload overtook a later one. -/
theorem labels_current (auth : Auth) (m : Migrated) (db : Catalog) (schedule : List Action)
    (h : Along (step auth) Orderly (initial m db) schedule) :
    Throughout (step auth)
      (fun s => Quiet s.reload → ∀ lower, LabelsBy lower s.store.table.rows s.reload.resolver)
      (initial m db) schedule := by
  have hinv := throughout_of_along (C := Orderly)
    (I := fun s => Tracked auth m s ∧ Fresh s.reload ∧ Converged s.reload)
    (fun s a hs horderly => ?_) ⟨tracked_initial auth m db, CatalogReload.initial_fresh _,
      CatalogReload.initial_converged _⟩ h
  · exact hinv.mono fun s hs hquiet lower =>
      labelsBy_of_sorted lower (hs.1.current hs.2.2 hquiet)
  · obtain ⟨htracked, hfresh, hconv⟩ := hs
    refine ⟨htracked.step a, ?_⟩
    rcases step_reload auth s a with heq | ⟨a', heq, hnewest⟩
    · rw [heq]
      exact ⟨hfresh, hconv⟩
    · rw [heq]
      exact ⟨hfresh.step a',
        (CatalogReload.converged_step_iff hfresh hconv a').mpr (hnewest horderly)⟩

lemma nodup_no_keys : (([] : List PortDefault).map PortDefault.key).Nodup := List.nodup_nil

def noRows : Catalog where
  manual := []
  saas := []
  portDefaults := []
  manual_ids := List.nodup_nil
  manual_networks := fun _ h => absurd h List.not_mem_nil
  saas_ids := List.nodup_nil
  saas_patterns := List.nodup_nil
  port_keys := nodup_no_keys

/-- An editor adds an entry, and the correlator reads it. -/
def newEntryRun : List Action :=
  [.arrive (editorHeaders (some "token".toList)) (.create (some ⟨officeFields, rfl⟩)),
    .finish 0 .stored, .deliver, .fetch 0 (.manual []),
    .fetch 0 (.saas [⟨1, "Office", ".office.com", 100⟩]), .fetch 0 (.ports []), .complete 0]

theorem labels_current_newEntry :
    let s := run (step Applications.sessionAuth) (initial emptyCatalog noRows) newEntryRun
    s.reload.outstanding = 0 ∧ s.reload.tasks = [.done] ∧
      (s.reload.resolver.saasHit id "www.office.com").map SaasEntry.name = some "Office" ∧
      Throughout (step Applications.sessionAuth)
        (fun s => Quiet s.reload →
          ∀ lower, LabelsBy lower s.store.table.rows s.reload.resolver)
        (initial emptyCatalog noRows) newEntryRun :=
  ⟨by decide +kernel, by decide +kernel, by decide +kernel,
    labels_current _ _ _ _ ⟨trivial, trivial, trivial, trivial, trivial, trivial,
      fun _ _ _ _ _ => .inl (by decide +kernel), trivial⟩⟩

end FlowDiscovery.SaasLabels
