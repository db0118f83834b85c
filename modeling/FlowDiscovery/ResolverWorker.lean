import FlowDiscovery.AppResolver
import FlowDiscovery.Machine

/-!
# The DNS worker and its two cache keys

`process_one` caches the name of an address under `dns:ptr:ip` and the SaaS entry of
that name under `dns:saas:ip`. Between the two writes it updates the database, the
second key is written only for a name that matches and is never deleted, and each key
expires on its own. So the second key can be missing when the database call raises,
and can be left over from an earlier name.

A state is that of the two keys of one address; runs for other addresses touch
neither.
-/
namespace FlowDiscovery.ResolverWorker
open Machine

/-! ## `SaasMatcher` and `process_one` -/

/-- A process with its catalog and settings. -/
structure Worker where
  saas : List SaasEntry
  ptrTtlS : ℤ
  saasTtlS : ℤ

section

/- `str.lower`. -/
variable (lower : String → String)

/-- `SaasMatcher.match`. -/
def Worker.matchName (w : Worker) (fqdn : String) : Option SaasEntry :=
  (sortedBy SaasEntry.sortKey w.saas).find? fun row =>
    (lower row.pattern).toList.isSuffixOf (lower fqdn).toList

/-- Where a run is suspended: on the read of the cached name, on the token bucket and
the lookup, on the write of the name, on `pg_upsert`, on the write of the entry. -/
inductive Phase where
  | idle
  | checking (w : Worker)
  | looking (w : Worker)
  | caching (w : Worker) (name : String)
  | upserting (w : Worker) (name : String)
  | labelling (w : Worker) (name : String) (row : SaasEntry)

/-- A run that wrote the name and has ended, with the key `dns:saas:ip` at its end. -/
structure Outcome where
  worker : Worker
  name : String
  saas : Option ℤ

/-- The value of `dns:saas:ip` is an id in decimal. -/
structure State where
  ptr : Option String
  saas : Option ℤ
  phase : Phase
  finished : List Outcome

/-- The next suspended operation of the run returns, or raises. A lookup that raises
and one without a name are the same. The keys may expire at any time. -/
inductive Action where
  | start (w : Worker)
  | get
  | lookup (name : Option String)
  | setPtr
  | upsert (returns : Bool)
  | setSaas
  | fail
  | expirePtr
  | expireSaas

def initial : State := ⟨none, none, .idle, []⟩

def finish (s : State) (w : Worker) (name : String) : State :=
  { s with phase := .idle, finished := s.finished ++ [⟨w, name, s.saas⟩] }

/-- `SET` with `ex` raises unless the time to live is positive. -/
def setPtr (s : State) (w : Worker) (name : String) : State :=
  if 0 < w.ptrTtlS then { s with ptr := some name, phase := .upserting w name }
  else { s with phase := .idle }

/-- `process_one` after `pg_upsert`. -/
def label (s : State) (w : Worker) (name : String) : State :=
  if name = "" then finish s w name
  else
    match w.matchName lower name with
    | some row => { s with phase := .labelling w name row }
    | none => finish s w name

def setSaas (s : State) (w : Worker) (name : String) (row : SaasEntry) : State :=
  finish (if 0 < w.saasTtlS then { s with saas := some row.id } else s) w name

/-- The exception leaves `process_one`. -/
def fail (s : State) : State :=
  match s.phase with
  | .idle | .checking _ | .looking _ | .caching _ _ => { s with phase := .idle }
  | .upserting w name | .labelling w name _ => finish s w name

def step (s : State) : Action → State
  | .start w =>
    match s.phase with
    | .idle => { s with phase := .checking w }
    | _ => s
  | .get =>
    match s.phase with
    | .checking w => { s with phase := if s.ptr.isSome then .idle else .looking w }
    | _ => s
  | .lookup name =>
    match s.phase with
    | .looking w => { s with phase := .caching w (name.getD "") }
    | _ => s
  | .setPtr =>
    match s.phase with
    | .caching w name => setPtr s w name
    | _ => s
  | .upsert returns =>
    match s.phase with
    | .upserting w name => if returns then label lower s w name else finish s w name
    | _ => s
  | .setSaas =>
    match s.phase with
    | .labelling w name row => setSaas s w name row
    | _ => s
  | .fail => fail s
  | .expirePtr => { s with ptr := none }
  | .expireSaas => { s with saas := none }

/-! ## The property and its condition -/

/-- The id that belongs to a name. -/
def Worker.saasId (w : Worker) (name : String) : Option ℤ :=
  if name = "" then none else (w.matchName lower name).map SaasEntry.id

/-- Every run that wrote a name has left the key of that name behind. -/
def Coherent (s : State) : Prop := ∀ o ∈ s.finished, o.saas = o.worker.saasId lower o.name

/-- A run with a name that matches nothing ends when no key is left from before. A run
with a name that matches gets through `pg_upsert` and writes the key with a positive
time to live; where it does not, the key from before has the same id. -/
def EndsWell (s : State) (a : Action) : Prop :=
  match s.phase, a with
  | .upserting w name, .upsert true => w.saasId lower name = none → s.saas = none
  | .upserting w name, .upsert false => s.saas = w.saasId lower name
  | .upserting w name, .fail => s.saas = w.saasId lower name
  | .labelling w _ row, .setSaas => 0 < w.saasTtlS ∨ s.saas = some row.id
  | .labelling _ _ row, .fail => s.saas = some row.id
  | _, _ => True

/-! ## Step lemmas -/

/-- The entry about to be written is that of the name. -/
def Matched (s : State) : Prop :=
  ∀ w name row, s.phase = .labelling w name row → w.saasId lower name = some row.id

/-- After the database call the run ends, or goes on to write the entry of the name. -/
lemma label_cases (s : State) (w : Worker) (name : String) :
    (w.saasId lower name = none ∧ label lower s w name = finish s w name) ∨
      ∃ row, w.saasId lower name = some row.id ∧
        label lower s w name = { s with phase := .labelling w name row } := by
  unfold Worker.saasId label
  by_cases hname : name = ""
  · simp [hname]
  · cases hmatch : w.matchName lower name with
    | none => simp [hname]
    | some row => exact .inr ⟨row, by simp [hname], by simp [hname]⟩

lemma matched_of_phase {s t : State} (h : Matched lower s)
    (hphase : t.phase = s.phase ∨ ∀ w name row, t.phase ≠ .labelling w name row) :
    Matched lower t := by
  intro w name row ht
  rcases hphase with hphase | hphase
  · exact h w name row (hphase ▸ ht)
  · exact absurd ht (hphase w name row)

theorem step_matched (s : State) (a : Action) (h : Matched lower s) :
    Matched lower (step lower s a) := by
  cases a with
  | upsert returns =>
    simp only [step]
    split
    · rename_i w name _
      split_ifs
      · rcases label_cases lower s w name with ⟨_, heq⟩ | ⟨row, hid, heq⟩
        · exact heq ▸ matched_of_phase lower h (.inr (by simp [finish]))
        · intro w' name' row' hphase
          rw [heq] at hphase
          obtain ⟨rfl, rfl, rfl⟩ := Phase.labelling.inj hphase
          exact hid
      · exact matched_of_phase lower h (.inr (by simp [finish]))
    · exact h
  | start w =>
    simp only [step]
    split
    · exact matched_of_phase lower h (.inr (by simp))
    · exact h
  | get =>
    simp only [step]
    split
    · refine matched_of_phase lower h (.inr fun w name row => ?_)
      dsimp only
      split_ifs <;> simp
    · exact h
  | lookup name =>
    simp only [step]
    split
    · exact matched_of_phase lower h (.inr (by simp))
    · exact h
  | setPtr =>
    simp only [step]
    split
    · refine matched_of_phase lower h (.inr fun w name row => ?_)
      unfold setPtr
      split_ifs <;> simp
    · exact h
  | setSaas =>
    simp only [step]
    split
    · exact matched_of_phase lower h (.inr (by simp [setSaas, finish]))
    · exact h
  | fail =>
    simp only [step, fail]
    split <;> exact matched_of_phase lower h (.inr (by simp [finish]))
  | expirePtr => exact h
  | expireSaas => exact h

lemma coherent_finish_iff {s : State} (h : Coherent lower s) (w : Worker) (name : String) :
    Coherent lower (finish s w name) ↔ s.saas = w.saasId lower name := by
  simp only [Coherent, finish, List.forall_mem_append, List.forall_mem_singleton]
  exact and_iff_right h

/-- Only three operations can end a run that has written the name. -/
lemma endsWell_of_ne (s : State) {a : Action} (hupsert : ∀ returns, a ≠ .upsert returns)
    (hset : a ≠ .setSaas) (hfail : a ≠ .fail) : EndsWell lower s a := by
  unfold EndsWell
  split
  · exact absurd rfl (hupsert true)
  · exact absurd rfl (hupsert false)
  · exact absurd rfl hfail
  · exact absurd rfl hset
  · exact absurd rfl hfail
  · trivial

/-- The others leave the ends so far alone. -/
lemma step_finished (s : State) {a : Action} (hupsert : ∀ returns, a ≠ .upsert returns)
    (hset : a ≠ .setSaas) (hfail : a ≠ .fail) : (step lower s a).finished = s.finished := by
  cases a with
  | upsert returns => exact absurd rfl (hupsert returns)
  | setSaas => exact absurd rfl hset
  | fail => exact absurd rfl hfail
  | start w =>
    simp only [step]
    split <;> rfl
  | get =>
    simp only [step]
    split <;> rfl
  | lookup name =>
    simp only [step]
    split <;> rfl
  | setPtr =>
    simp only [step, setPtr]
    split
    · split_ifs <;> rfl
    · rfl
  | expirePtr => rfl
  | expireSaas => rfl

lemma upsert_coherent_iff {s : State} (h : Coherent lower s) (returns : Bool) :
    Coherent lower (step lower s (.upsert returns)) ↔ EndsWell lower s (.upsert returns) := by
  cases hphase : s.phase with
  | upserting w name =>
    cases returns with
    | true =>
      simp only [step, EndsWell, hphase, if_true]
      rcases label_cases lower s w name with ⟨hid, heq⟩ | ⟨row, hid, heq⟩
      · rw [heq, coherent_finish_iff lower h, hid]
        simp
      · rw [heq, hid]
        exact iff_of_true h (by simp)
    | false =>
      simp only [step, EndsWell, hphase, Bool.false_eq_true, if_false]
      exact coherent_finish_iff lower h w name
  | _ =>
    simp only [step, EndsWell, hphase]
    exact iff_of_true h trivial

lemma setSaas_coherent_iff {s : State} (hmatched : Matched lower s) (h : Coherent lower s) :
    Coherent lower (step lower s .setSaas) ↔ EndsWell lower s .setSaas := by
  cases hphase : s.phase with
  | labelling w name row =>
    simp only [step, EndsWell, hphase, setSaas]
    have hid := hmatched w name row hphase
    by_cases httl : 0 < w.saasTtlS
    · have hset : Coherent lower { s with saas := some row.id } := h
      simp only [httl, if_true, true_or, iff_true]
      exact (coherent_finish_iff lower hset w name).mpr hid.symm
    · simp only [httl, if_false, false_or]
      rw [coherent_finish_iff lower h, hid]
  | _ =>
    simp only [step, EndsWell, hphase]
    exact iff_of_true h trivial

lemma fail_coherent_iff {s : State} (hmatched : Matched lower s) (h : Coherent lower s) :
    Coherent lower (step lower s .fail) ↔ EndsWell lower s .fail := by
  cases hphase : s.phase with
  | upserting w name =>
    simp only [step, fail, EndsWell, hphase]
    exact coherent_finish_iff lower h w name
  | labelling w name row =>
    simp only [step, fail, EndsWell, hphase]
    rw [coherent_finish_iff lower h, hmatched w name row hphase]
  | _ =>
    simp only [step, fail, EndsWell, hphase]
    exact iff_of_true h trivial

theorem step_coherent_iff {s : State} (hmatched : Matched lower s) (h : Coherent lower s)
    (a : Action) : Coherent lower (step lower s a) ↔ EndsWell lower s a := by
  have hother (hupsert : ∀ returns, a ≠ .upsert returns) (hset : a ≠ .setSaas)
      (hfail : a ≠ .fail) : Coherent lower (step lower s a) ↔ EndsWell lower s a := by
    refine iff_of_true ?_ (endsWell_of_ne lower s hupsert hset hfail)
    rw [Coherent, step_finished lower s hupsert hset hfail]
    exact h
  cases a with
  | upsert returns => exact upsert_coherent_iff lower h returns
  | setSaas => exact setSaas_coherent_iff lower hmatched h
  | fail => exact fail_coherent_iff lower hmatched h
  | start w => exact hother nofun nofun nofun
  | get => exact hother nofun nofun nofun
  | lookup name => exact hother nofun nofun nofun
  | setPtr => exact hother nofun nofun nofun
  | expirePtr => exact hother nofun nofun nofun
  | expireSaas => exact hother nofun nofun nofun

/-- Over any runs and expiries the keys are coherent at every end iff every run that
wrote a name ends well. -/
theorem coherent_iff_endsWell (actions : List Action) :
    Throughout (step lower) (Coherent lower) initial actions ↔
      Along (step lower) (EndsWell lower) initial actions := by
  have hmatched : Matched lower initial := nofun
  have hcoherent : Coherent lower initial := by simp [Coherent, initial]
  exact throughout_iff_along (step_matched lower)
    (fun _ a hmatched hcoherent => step_coherent_iff lower hmatched hcoherent a) hmatched hcoherent
    actions

end

/-! ## A stale key and a missing key -/

/-- The worker of the tests, with a name that expires before the entry. -/
def officeWorker : Worker := ⟨[⟨42, "M365", ".office365.com", 100⟩], 60, 3600⟩

/-- `process_one` of a miss up to the database call. -/
def resolve (name : String) : List Action :=
  [.start officeWorker, .get, .lookup (some name), .setPtr]

/-- The address moves to another host while the entry of the old name lives on. -/
def renamedRun : List Action :=
  resolve "tenant.outlook.office365.com" ++ [.upsert true, .setSaas, .expirePtr] ++
    resolve "host.example.net" ++ [.upsert true]

/-- The database is down. -/
def upsertRaisesRun : List Action := resolve "tenant.outlook.office365.com" ++ [.upsert false]

theorem renamedRun_incoherent :
    ¬ Throughout (step id) (Coherent id) initial renamedRun ∧
      ¬ Throughout (step id) (Coherent id) initial upsertRaisesRun := by
  constructor
  · intro h
    exact absurd h.last (by unfold Coherent; decide +kernel)
  · intro h
    exact absurd h.last (by unfold Coherent; decide +kernel)

end FlowDiscovery.ResolverWorker
