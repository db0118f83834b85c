import FlowDiscovery.AppResolver
import FlowDiscovery.AuditTrail
import FlowDiscovery.AuthVerify

/-!
# Edits of the SaaS catalog

A request passes the middleware against forged requests, then the two role checks, and
runs one statement in a transaction of its own. A statement that meets a row or a pattern
of an open transaction waits for it, so it takes effect where its transaction commits;
only the id of a new row is drawn before, and is not given back. The table is what the
committed edits make of the first rows, and each of these was asked for by a request that
was let in.
-/
namespace FlowDiscovery.SaasStore
open PyText Machine Applications
open AuditTrail (bind_ok)
open AuthVerify (presents_unique rolesOf_userOf)

/-! ## The table -/

structure SaasFields where
  name : String
  vendor : Option String
  fqdnPattern : String
  category : Option String
  priority : ℤ
  deriving DecidableEq, Repr

/-- The constraints of the schema. -/
def SaasFields.valid (f : SaasFields) : Bool := 1 ≤ f.name.length && 2 ≤ f.fqdnPattern.length

/-- A body that the schema accepts. -/
abbrev SaasIn := {f : SaasFields // f.valid}

/-- A row of `saas_catalog`, and the record made from it. -/
structure SaasRow where
  id : ℤ
  fields : SaasFields
  source : String
  deriving DecidableEq, Repr

def SaasRow.pattern (r : SaasRow) : String := r.fields.fqdnPattern

/-- The row as the correlator reads it. -/
def SaasRow.entry (r : SaasRow) : SaasEntry where
  id := r.id
  name := r.fields.name
  pattern := r.pattern
  priority := r.fields.priority

/-- The committed rows, with the primary key and the unique pattern. -/
structure Table where
  rows : List SaasRow
  ids : (rows.map SaasRow.id).Nodup
  patterns : (rows.map SaasRow.pattern).Nodup

/-- A change of the table. -/
inductive Edit where
  | insert (row : SaasRow)
  | update (id : ℤ) (fields : SaasFields)
  | delete (id : ℤ)
  deriving DecidableEq

def replaceFields (id : ℤ) (fields : SaasFields) (r : SaasRow) : SaasRow :=
  if r.id = id then { r with fields } else r

def Edit.apply (rows : List SaasRow) : Edit → List SaasRow
  | .insert row => rows ++ [row]
  | .update id fields => rows.map (replaceFields id fields)
  | .delete id => rows.filter fun r => r.id ≠ id

/-- The rows after the edit, or the violation of a key. -/
def Table.edit (t : Table) (e : Edit) : Option Table :=
  if h : ((e.apply t.rows).map SaasRow.id).Nodup ∧ ((e.apply t.rows).map SaasRow.pattern).Nodup then
    some ⟨e.apply t.rows, h.1, h.2⟩
  else none

/-- What the driver and the column types take: no zero character, a 32-bit number. -/
def isText (s : String) : Bool := s.toList.all fun c => c ≠ Char.ofNat 0

def isInteger (n : ℤ) : Bool := -2 ^ 31 ≤ n ∧ n < 2 ^ 31

def SaasFields.storable (f : SaasFields) : Bool :=
  isText f.name && f.vendor.all isText && isText f.fqdnPattern && f.category.all isText &&
    isInteger f.priority

/-! ## The requests -/

/-- The credentials, the cookie `csrf_token` and the header `x-csrf-token`. -/
structure Headers where
  credentials : Applications.Request
  csrfCookie : Option Text
  csrfHeader : Option Text

/-- The four routes; a body that the schema rejects is `none`. -/
inductive Call where
  | list
  | create (body : Option SaasIn)
  | update (saasId : ℤ) (body : Option SaasIn)
  | delete (saasId : ℤ)

def Call.method : Call → String
  | .list => "GET"
  | .create _ => "POST"
  | .update _ _ => "PUT"
  | .delete _ => "DELETE"

inductive Answer where
  | listed (rows : List SaasRow)
  | created (row : SaasRow)
  | updated (row : SaasRow)
  | deleted
  | csrfMismatch
  | refused (failure : Failure)
  | unprocessable
  | serverError
  deriving DecidableEq

def safeMethods : List String := ["GET", "HEAD", "OPTIONS"]

/-- `CsrfMiddleware.dispatch` up to `call_next`. -/
def csrfPasses (method : String) (h : Headers) : Bool :=
  method ∈ safeMethods || h.credentials.session.isNone ||
    h.csrfCookie.any (fun token => token ≠ []) && h.csrfCookie = h.csrfHeader

/-- `require_role`. -/
def requireRole (auth : Auth) (role : String) (h : Headers) : Except Failure User := do
  let user ← currentUser auth h.credentials
  if role ∉ rolesOf user then .error .forbidden else .ok user

/-- The dependencies of a route. -/
def dependencies (auth : Auth) (h : Headers) : Call → Except Failure User
  | .list => requireRole auth "viewer" h
  | .create _ | .update _ _ | .delete _ => do
    let _ ← requireRole auth "viewer" h
    requireEditor auth h.credentials

/-- Where a request waits: on the statement and its commit, or it has been answered. -/
inductive Phase where
  | listing
  | inserting (id : ℤ) (fields : SaasFields)
  | updating (saasId : ℤ) (fields : SaasFields)
  | deleting (saasId : ℤ)
  | answered (answer : Answer)
  deriving DecidableEq

structure Task where
  headers : Headers
  call : Call
  phase : Phase

/-- `edits` lists the committed changes, each with the request that made it. -/
structure State where
  table : Table
  nextId : ℤ
  tasks : List Task
  edits : List (ℕ × Edit)

inductive Action where
  | arrive (h : Headers) (call : Call)
  | finish (i : ℕ) (reply : Reply)

/-- A table after the migrations; the sequence is past the ids of the seeds. -/
structure Migrated where
  table : Table
  nextId : ℤ
  below : ∀ r ∈ table.rows, r.id < nextId

def initial (m : Migrated) : State := ⟨m.table, m.nextId, [], []⟩

/-- The statement that an admitted request sends, and the next value of the sequence. -/
def send (nextId : ℤ) : Call → Phase × ℤ
  | .list => (.listing, nextId)
  | .create none | .update _ none => (.answered .unprocessable, nextId)
  | .create (some body) =>
    if body.1.storable && isInteger nextId then (.inserting nextId body.1, nextId + 1)
    else (.answered .serverError, nextId)
  | .update saasId (some body) =>
    if body.1.storable && isInteger saasId then (.updating saasId body.1, nextId)
    else (.answered .serverError, nextId)
  | .delete saasId =>
    if isInteger saasId then (.deleting saasId, nextId) else (.answered .serverError, nextId)

/-- From the middleware to the statement. -/
def receive (auth : Auth) (nextId : ℤ) (h : Headers) (call : Call) : Phase × ℤ :=
  if csrfPasses call.method h then
    match dependencies auth h call with
    | .error failure => (.answered (.refused failure), nextId)
    | .ok _ => send nextId call
  else (.answered .csrfMismatch, nextId)

def arrive (auth : Auth) (s : State) (h : Headers) (call : Call) : State :=
  let sent := receive auth s.nextId h call
  { s with nextId := sent.2, tasks := s.tasks ++ [⟨h, call, sent.1⟩] }

/-- Request `i`, which was at `t`, is answered. -/
def answer (s : State) (i : ℕ) (t : Task) (a : Answer) : State :=
  { s with tasks := s.tasks.set i { t with phase := .answered a } }

/-- The change is appended to those that were committed. -/
def record (s : State) (i : ℕ) (e : Edit) (table : Table) : State :=
  { s with table, edits := s.edits ++ [(i, e)] }

/-- The statement and its commit; a violated key raises. -/
def commit (s : State) (i : ℕ) (t : Task) (e : Edit) (done : Answer) (reply : Reply) : State :=
  if reply = .refused then answer s i t .serverError
  else
    match s.table.edit e with
    | none => answer s i t .serverError
    | some table =>
      answer (record s i e table) i t (if reply = .stored then done else .serverError)

/-- The answer of `list_saas`, in the order of the ids. -/
def listSaas (t : Table) : Answer :=
  if t.rows.all fun r => r.fields.valid then .listed (sortedBy SaasRow.id t.rows) else .serverError

def finish (s : State) (i : ℕ) (reply : Reply) : State :=
  match s.tasks[i]? with
  | none => s
  | some t =>
    match t.phase with
    | .answered _ => s
    | .listing => answer s i t (if reply = .stored then listSaas s.table else .serverError)
    | .inserting id fields =>
      let row : SaasRow := ⟨id, fields, "manual"⟩
      commit s i t (.insert row) (.created row) reply
    | .updating saasId fields =>
      match s.table.rows.find? fun r => r.id = saasId with
      | none => answer s i t (if reply = .refused then .serverError else .refused .notFound)
      | some row => commit s i t (.update saasId fields) (.updated { row with fields }) reply
    | .deleting saasId =>
      if saasId ∈ s.table.rows.map SaasRow.id then commit s i t (.delete saasId) .deleted reply
      else answer s i t (if reply = .stored then .deleted else .serverError)

def step (auth : Auth) (s : State) : Action → State
  | .arrive h call => arrive auth s h call
  | .finish i reply => finish s i reply

/-! ## The property -/

/-- The caller has both roles, and a request with a session repeats the token of its
cookie in the header. -/
structure Admitted (auth : Auth) (h : Headers) : Prop where
  roles : ∃ c, Presents auth h.credentials c ∧ "viewer" ∈ c.roles auth.roleMap ∧
    "editor" ∈ c.roles auth.roleMap
  sameSite : h.credentials.session ≠ none →
    ∃ token, token ≠ [] ∧ h.csrfCookie = some token ∧ h.csrfHeader = some token

/-- The change is what the call asks for. -/
inductive Asked : Call → Edit → Prop
  | create (body : SaasIn) (id : ℤ) : Asked (.create (some body)) (.insert ⟨id, body.1, "manual"⟩)
  | update (id : ℤ) (body : SaasIn) : Asked (.update id (some body)) (.update id body.1)
  | delete (id : ℤ) : Asked (.delete id) (.delete id)

def Edit.inserted : Edit → Option ℤ
  | .insert row => some row.id
  | .update _ _ | .delete _ => none

/-- The ids that rows have ever had. -/
def knownIds (m : Migrated) (s : State) : List ℤ :=
  m.table.rows.map SaasRow.id ++ s.edits.filterMap fun e => e.2.inserted

/-- The change that an answer reports. -/
def reported : Answer → Option Edit
  | .created row => some (.insert row)
  | .updated row => some (.update row.id row.fields)
  | .listed _ | .deleted | .csrfMismatch | .refused _ | .unprocessable | .serverError => none

/-- The committed changes account for the rows. Each was asked for by an admitted request,
and by no other one; the id of a deleted row is not used again. -/
structure Accounted (auth : Auth) (m : Migrated) (s : State) : Prop where
  rows : s.table.rows = (s.edits.map Prod.snd).foldl Edit.apply m.table.rows
  allowed : ∀ e ∈ s.edits, ∃ t, s.tasks[e.1]? = some t ∧ Admitted auth t.headers ∧ Asked t.call e.2
  once : (s.edits.map Prod.fst).Nodup
  ids : (knownIds m s).Nodup
  gone : ∀ i id, (i, .delete id) ∈ s.edits → id ∉ s.table.rows.map SaasRow.id
  answers : ∀ i t a e, s.tasks[i]? = some t → t.phase = .answered a → reported a = some e →
    (i, e) ∈ s.edits

/-! ## What lets a request in -/

section

variable {auth : Auth} {h : Headers}

lemma sameSite_of_csrfPasses {method : String} (hmethod : method ∉ safeMethods)
    (hpass : csrfPasses method h = true) (hsession : h.credentials.session ≠ none) :
    ∃ token, token ≠ [] ∧ h.csrfCookie = some token ∧ h.csrfHeader = some token := by
  have hnone : h.credentials.session.isNone = false := by
    rwa [Option.isNone_eq_false_iff, Option.isSome_iff_ne_none]
  simp only [csrfPasses, hmethod, hnone, decide_false, Bool.or_false, Bool.false_or,
    Bool.and_eq_true, Option.any_eq_true, decide_eq_true_eq] at hpass
  obtain ⟨⟨token, hcookie, hne⟩, heq⟩ := hpass
  exact ⟨token, hne, hcookie, heq.symm.trans hcookie⟩

lemma requireRole_ok {role : String} {user : User} (hok : requireRole auth role h = .ok user) :
    ∃ c, Presents auth h.credentials c ∧ role ∈ c.roles auth.roleMap := by
  obtain ⟨user', huser, hrole⟩ := bind_ok hok
  split_ifs at hrole with hmem
  obtain ⟨c, hc, rfl⟩ := (currentUser_eq_ok_iff auth h.credentials user').mp huser
  rw [rolesOf_userOf] at hmem
  exact ⟨c, hc, hmem⟩

lemma requireEditor_ok {user : User} (hok : requireEditor auth h.credentials = .ok user) :
    ∃ c, Presents auth h.credentials c ∧ "editor" ∈ c.roles auth.roleMap := requireRole_ok hok

lemma admitted_of_dependencies {call : Call} (hmethod : call.method ∉ safeMethods) {user : User}
    (hpass : csrfPasses call.method h = true) (hok : dependencies auth h call = .ok user) :
    Admitted auth h := by
  have hboth : ∃ user', requireRole auth "viewer" h = .ok user' ∧
      requireEditor auth h.credentials = .ok user := by
    cases call with
    | list => exact absurd (by decide) hmethod
    | create body => exact bind_ok hok
    | update saasId body => exact bind_ok hok
    | delete saasId => exact bind_ok hok
  obtain ⟨user', hviewer, heditor⟩ := hboth
  obtain ⟨c, hc, hv⟩ := requireRole_ok hviewer
  obtain ⟨c', hc', he⟩ := requireEditor_ok heditor
  obtain rfl := presents_unique hc hc'
  exact ⟨⟨c, hc, hv, he⟩, sameSite_of_csrfPasses hmethod hpass⟩

/-- The change that a request waits for. -/
def Phase.pending : Phase → Option Edit
  | .inserting id fields => some (.insert ⟨id, fields, "manual"⟩)
  | .updating saasId fields => some (.update saasId fields)
  | .deleting saasId => some (.delete saasId)
  | .listing | .answered _ => none

/-- Nothing is left to be done, and no change is reported. -/
def Idle (phase : Phase) : Prop :=
  phase.pending = none ∧ ∀ a, phase = .answered a → reported a = none

lemma idle_answered {a : Answer} (h : reported a = none) : Idle (.answered a) :=
  ⟨rfl, fun _ ha => Phase.answered.inj ha ▸ h⟩

lemma idle_listing : Idle .listing := ⟨rfl, fun _ ha => nomatch ha⟩

/-- Only a new row takes a value of the sequence. -/
lemma send_cases (nextId : ℤ) (call : Call) :
    (Idle (send nextId call).1 ∧ (send nextId call).2 = nextId) ∨
    (∃ e, (send nextId call).1.pending = some e ∧ (send nextId call).2 = nextId ∧
      e.inserted = none ∧ Asked call e ∧ call.method ∉ safeMethods) ∨
    ∃ body : SaasIn, call = .create (some body) ∧
      send nextId call = (.inserting nextId body.1, nextId + 1) := by
  cases call with
  | list => exact .inl ⟨idle_listing, rfl⟩
  | create body =>
    cases body with
    | none => exact .inl ⟨idle_answered rfl, rfl⟩
    | some body =>
      simp only [send]
      split_ifs
      · exact .inr (.inr ⟨body, rfl, rfl⟩)
      · exact .inl ⟨idle_answered rfl, rfl⟩
  | update saasId body =>
    cases body with
    | none => exact .inl ⟨idle_answered rfl, rfl⟩
    | some body =>
      simp only [send]
      split_ifs
      · exact .inr (.inl ⟨_, rfl, rfl, rfl, .update saasId body, by simp [Call.method, safeMethods]⟩)
      · exact .inl ⟨idle_answered rfl, rfl⟩
  | delete saasId =>
    simp only [send]
    split_ifs
    · exact .inr (.inl ⟨_, rfl, rfl, rfl, .delete saasId, by simp [Call.method, safeMethods]⟩)
    · exact .inl ⟨idle_answered rfl, rfl⟩

/-- What a request waits for after it has come in, it was let in for and asks for. -/
lemma receive_cases (auth : Auth) (nextId : ℤ) (h : Headers) (call : Call) :
    (Idle (receive auth nextId h call).1 ∧ (receive auth nextId h call).2 = nextId) ∨
    (∃ e, (receive auth nextId h call).1.pending = some e ∧
      (receive auth nextId h call).2 = nextId ∧ e.inserted = none ∧ Asked call e ∧
      Admitted auth h) ∨
    ∃ body : SaasIn, call = .create (some body) ∧ Admitted auth h ∧
      receive auth nextId h call = (.inserting nextId body.1, nextId + 1) := by
  unfold receive
  split_ifs with hpass
  · cases hok : dependencies auth h call with
    | error failure => exact .inl ⟨idle_answered rfl, rfl⟩
    | ok user =>
      obtain hidle | ⟨e, hpending, hnext, hnew, hasked, hmethod⟩ | ⟨body, rfl, hsend⟩ :=
        send_cases nextId call
      · exact .inl hidle
      · exact .inr (.inl ⟨e, hpending, hnext, hnew, hasked,
          admitted_of_dependencies hmethod hpass hok⟩)
      · exact .inr (.inr ⟨body, rfl, admitted_of_dependencies (by simp [Call.method, safeMethods])
          hpass hok, hsend⟩)
  · exact .inl ⟨idle_answered rfl, rfl⟩

end

/-! ## What a commit does -/

lemma edit_some {t table : Table} {e : Edit} (h : t.edit e = some table) :
    table.rows = e.apply t.rows := by
  unfold Table.edit at h
  split_ifs at h
  rw [← Option.some.inj h]

section

variable (s : State) (i : ℕ)

/-- What a request that is answered has done: nothing, or the change it waited for. Only
a row that is there is deleted. -/
inductive Ends (t : Task) : State → Prop
  | unchanged {a : Answer} (ha : reported a = none) : Ends t (answer s i t a)
  | edited {a : Answer} {e : Edit} {table : Table} (hpending : t.phase.pending = some e)
      (ha : reported a = some e ∨ reported a = none) (hedit : s.table.edit e = some table)
      (hthere : ∀ id, e = .delete id → id ∈ s.table.rows.map SaasRow.id) :
      Ends t (answer (record s i e table) i t a)

variable {s i}

lemma ends_commit {t : Task} {e : Edit} (hpending : t.phase.pending = some e) {done : Answer}
    (hdone : reported done = some e ∨ reported done = none)
    (hthere : ∀ id, e = .delete id → id ∈ s.table.rows.map SaasRow.id) (reply : Reply) :
    Ends s i t (commit s i t e done reply) := by
  unfold commit
  split_ifs with hrefused hstored
  · exact .unchanged rfl
  · cases hedit : s.table.edit e with
    | none => exact .unchanged rfl
    | some table => exact .edited hpending hdone hedit hthere
  · cases hedit : s.table.edit e with
    | none => exact .unchanged rfl
    | some table => exact .edited hpending (.inr rfl) hedit hthere

lemma reported_listSaas (t : Table) : reported (listSaas t) = none := by
  unfold listSaas
  split_ifs <;> rfl

theorem finish_cases (s : State) (i : ℕ) (reply : Reply) :
    finish s i reply = s ∨ ∃ t, s.tasks[i]? = some t ∧ Ends s i t (finish s i reply) := by
  unfold finish
  cases htask : s.tasks[i]? with
  | none => exact .inl rfl
  | some t =>
    obtain ⟨headers, call, phase⟩ := t
    cases phase with
    | answered a => exact .inl rfl
    | listing =>
      refine .inr ⟨_, rfl, .unchanged ?_⟩
      split_ifs
      · exact reported_listSaas s.table
      · rfl
    | inserting id fields =>
      exact .inr ⟨_, rfl, ends_commit rfl (.inl rfl) (by simp) reply⟩
    | updating saasId fields =>
      simp only
      cases hfind : s.table.rows.find? fun r => r.id = saasId with
      | none =>
        refine .inr ⟨_, rfl, .unchanged ?_⟩
        split_ifs <;> rfl
      | some row =>
        -- the row found is the one that is updated
        obtain rfl : row.id = saasId := by simpa using List.find?_some hfind
        exact .inr ⟨_, rfl, ends_commit rfl (.inl rfl) (by simp) reply⟩
    | deleting saasId =>
      simp only
      split_ifs with hmem hreply
      · refine .inr ⟨_, rfl, ends_commit rfl (.inr rfl) (fun id h => ?_) reply⟩
        obtain rfl := Edit.delete.inj h
        exact hmem
      · exact .inr ⟨_, rfl, .unchanged rfl⟩
      · exact .inr ⟨_, rfl, .unchanged rfl⟩

end

/-! ## The invariant -/

/-- Request `i` waits to make the change. -/
def Waits (s : State) (i : ℕ) (e : Edit) : Prop :=
  ∃ t, s.tasks[i]? = some t ∧ t.phase.pending = some e

/-- A row that waits to be inserted has an id of its own, that no row has had. -/
structure Sound (auth : Auth) (m : Migrated) (s : State) : Prop where
  accounted : Accounted auth m s
  pending : ∀ i t e, s.tasks[i]? = some t → t.phase.pending = some e →
    Admitted auth t.headers ∧ Asked t.call e ∧ i ∉ s.edits.map Prod.fst
  drawn : ∀ i e id, Waits s i e → e.inserted = some id → id < s.nextId ∧ id ∉ knownIds m s
  apart : ∀ i j e e' id, Waits s i e → Waits s j e' → e.inserted = some id →
    e'.inserted = some id → i = j
  known : ∀ id ∈ knownIds m s, id < s.nextId
  present : ∀ r ∈ s.table.rows, r.id ∈ knownIds m s
  removed : ∀ i id, (i, .delete id) ∈ s.edits → id ∈ knownIds m s

section

variable {auth : Auth} {m : Migrated} {s : State}

lemma sound_initial (auth : Auth) (m : Migrated) : Sound auth m (initial m) where
  accounted := {
    rows := rfl
    allowed := by simp [initial]
    once := List.nodup_nil
    ids := by simpa [knownIds, initial] using m.table.ids
    gone := by simp [initial]
    answers := by simp [initial] }
  pending := by simp [initial]
  drawn := by simp [initial, Waits]
  apart := by simp [initial, Waits]
  known := by
    intro id hid
    simp only [knownIds, initial, List.filterMap_nil, List.append_nil, List.mem_map] at hid
    obtain ⟨r, hr, rfl⟩ := hid
    exact m.below r hr
  present r hr := by
    simpa [knownIds, initial] using ⟨r, hr, rfl⟩
  removed := by simp [initial]

/-- One more task, which reports nothing. -/
lemma Accounted.arrive (h : Accounted auth m s) (t : Task)
    (hidle : ∀ a, t.phase = .answered a → reported a = none) (nextId : ℤ) :
    Accounted auth m { s with nextId, tasks := s.tasks ++ [t] } where
  rows := h.rows
  allowed e he := by
    obtain ⟨u, hu, hallowed⟩ := h.allowed e he
    exact ⟨u, by rw [List.getElem?_append_left (List.getElem?_eq_some_iff.mp hu).1, hu], hallowed⟩
  once := h.once
  ids := h.ids
  gone := h.gone
  answers i u a e hu ha he := by
    rcases getElem?_concat_cases hu with hu | ⟨_, rfl⟩
    · exact h.answers i u a e hu ha he
    · rw [hidle a ha] at he
      cases he

lemma waits_arrive {t : Task} {nextId : ℤ} {j : ℕ} {e : Edit}
    (h : Waits { s with nextId, tasks := s.tasks ++ [t] } j e) :
    Waits s j e ∨ j = s.tasks.length ∧ t.phase.pending = some e := by
  obtain ⟨u, hu, he⟩ := h
  rcases getElem?_concat_cases hu with hu | ⟨hj, rfl⟩
  · exact .inl ⟨u, hu, he⟩
  · exact .inr ⟨hj, he⟩

/-- One more task, which was let in for the change that it waits for; a new row has the
next value of the sequence. -/
lemma Sound.push (h : Sound auth m s) {t : Task} {nextId : ℤ} (hle : s.nextId ≤ nextId)
    (hidle : ∀ a, t.phase = .answered a → reported a = none)
    (hpending : ∀ e, t.phase.pending = some e → Admitted auth t.headers ∧ Asked t.call e ∧
      ∀ id, e.inserted = some id → id = s.nextId ∧ s.nextId < nextId) :
    Sound auth m { s with nextId, tasks := s.tasks ++ [t] } where
  accounted := h.accounted.arrive t hidle nextId
  pending i u e hu he := by
    rcases getElem?_concat_cases hu with hu | ⟨rfl, rfl⟩
    · exact h.pending i u e hu he
    · obtain ⟨hadmitted, hasked, _⟩ := hpending e he
      refine ⟨hadmitted, hasked, fun hmem => ?_⟩
      obtain ⟨e', he', hlen⟩ := List.mem_map.mp hmem
      obtain ⟨u', hu', _⟩ := h.accounted.allowed e' he'
      rw [hlen, List.getElem?_length] at hu'
      cases hu'
  drawn i e id hwaits hid := by
    rcases waits_arrive hwaits with hold | ⟨_, he⟩
    · obtain ⟨hlt, hnew⟩ := h.drawn i e id hold hid
      exact ⟨hlt.trans_le hle, hnew⟩
    · obtain ⟨rfl, hlt⟩ := (hpending e he).2.2 id hid
      exact ⟨hlt, fun hknown => lt_irrefl _ (h.known _ hknown)⟩
  apart i j e e' id hi hj he he' := by
    rcases waits_arrive hi with hold | ⟨hnew, hphase⟩
    · rcases waits_arrive hj with hold' | ⟨_, hphase'⟩
      · exact h.apart i j e e' id hold hold' he he'
      · have hlt := (h.drawn i e id hold he).1
        rw [((hpending e' hphase').2.2 id he').1] at hlt
        exact absurd hlt (lt_irrefl _)
    · rcases waits_arrive hj with hold' | ⟨hnew', _⟩
      · have hlt := (h.drawn j e' id hold' he').1
        rw [((hpending e hphase).2.2 id he).1] at hlt
        exact absurd hlt (lt_irrefl _)
      · exact hnew.trans hnew'.symm
  known id hid := (h.known id hid).trans_le hle
  present := h.present
  removed := h.removed

lemma Sound.arrive (h : Sound auth m s) (headers : Headers) (call : Call) :
    Sound auth m (arrive auth s headers call) := by
  unfold SaasStore.arrive
  obtain ⟨hidle, hnext⟩ | ⟨e, hpending, hnext, hold, hasked, hadmitted⟩ |
    ⟨body, rfl, hadmitted, heq⟩ := receive_cases auth s.nextId headers call
  · refine h.push hnext.ge hidle.2 fun e he => ?_
    rw [hidle.1] at he
    cases he
  · refine h.push hnext.ge (fun a ha => ?_) fun e' he' => ?_
    · simp only at ha
      rw [ha] at hpending
      cases hpending
    · obtain rfl : e = e' := Option.some.inj (hpending.symm.trans he')
      refine ⟨hadmitted, hasked, fun id hid => ?_⟩
      rw [hold] at hid
      cases hid
  · rw [heq]
    refine h.push (by simp) (by simp) fun e he => ?_
    obtain rfl := Option.some.inj he
    refine ⟨hadmitted, .create body s.nextId, fun id hid => ?_⟩
    obtain rfl := Option.some.inj hid
    exact ⟨rfl, by simp⟩

end

section

variable {auth : Auth} {m : Migrated} {s : State} {i : ℕ} {t : Task}

lemma getElem?_answer (ht : s.tasks[i]? = some t) (a : Answer) {j : ℕ} {u : Task}
    (hu : (answer s i t a).tasks[j]? = some u) :
    j ≠ i ∧ s.tasks[j]? = some u ∨ j = i ∧ u = { t with phase := .answered a } := by
  rw [answer, getElem?_set_of_some ht] at hu
  split_ifs at hu with hij
  · exact .inr ⟨hij.symm, (Option.some.inj hu).symm⟩
  · exact .inl ⟨Ne.symm hij, hu⟩

lemma waits_answer (ht : s.tasks[i]? = some t) {a : Answer} {j : ℕ} {e : Edit}
    (h : Waits (answer s i t a) j e) : j ≠ i ∧ Waits s j e := by
  obtain ⟨u, hu, he⟩ := h
  rcases getElem?_answer ht a hu with ⟨hj, hu⟩ | ⟨_, rfl⟩
  · exact ⟨hj, u, hu, he⟩
  · cases he

/-- Headers and calls stay as they are. -/
lemma Accounted.answer (h : Accounted auth m s) (ht : s.tasks[i]? = some t) {a : Answer}
    (ha : ∀ e, reported a = some e → (i, e) ∈ s.edits) : Accounted auth m (answer s i t a) where
  rows := h.rows
  allowed e he := by
    obtain ⟨u, hu, hallowed⟩ := h.allowed e he
    by_cases hi : i = e.1
    · subst hi
      obtain rfl : t = u := Option.some.inj (ht.symm.trans hu)
      refine ⟨{ t with phase := .answered a }, ?_, hallowed⟩
      rw [SaasStore.answer, getElem?_set_of_some ht, if_pos rfl]
    · refine ⟨u, ?_, hallowed⟩
      rw [SaasStore.answer, getElem?_set_of_some ht, if_neg hi, hu]
  once := h.once
  ids := h.ids
  gone := h.gone
  answers j u a' e hu ha' he := by
    rcases getElem?_answer ht a hu with ⟨_, hu⟩ | ⟨rfl, rfl⟩
    · exact h.answers j u a' e hu ha' he
    · obtain rfl := Phase.answered.inj ha'
      exact ha e he

lemma Sound.unchanged (h : Sound auth m s) (ht : s.tasks[i]? = some t) {a : Answer}
    (ha : reported a = none) : Sound auth m (answer s i t a) where
  accounted := h.accounted.answer ht fun e he => by
    rw [ha] at he
    cases he
  pending j u e hu he := by
    rcases getElem?_answer ht a hu with ⟨_, hu⟩ | ⟨_, rfl⟩
    · exact h.pending j u e hu he
    · cases he
  drawn j e id hwaits := h.drawn j e id (waits_answer ht hwaits).2
  apart j k e e' id hj hk := h.apart j k e e' id (waits_answer ht hj).2 (waits_answer ht hk).2
  known := h.known
  present := h.present
  removed := h.removed

lemma knownIds_record (i : ℕ) (e : Edit) (table : Table) :
    knownIds m (record s i e table) = knownIds m s ++ e.inserted.toList := by
  cases hid : e.inserted <;> simp [knownIds, record, hid]

/-- A row of the new table is an old row, perhaps with new fields, or the one inserted. -/
lemma mem_ids_apply {rows : List SaasRow} {e : Edit} {id : ℤ}
    (h : id ∈ (e.apply rows).map SaasRow.id) :
    id ∈ rows.map SaasRow.id ∧ e ≠ .delete id ∨ e.inserted = some id := by
  obtain ⟨r, hr, rfl⟩ := List.mem_map.mp h
  cases e with
  | insert row =>
    rcases List.mem_append.mp hr with hr | hr
    · exact .inl ⟨List.mem_map_of_mem hr, by simp⟩
    · exact .inr (by rw [List.mem_singleton.mp hr, Edit.inserted])
  | update id fields =>
    obtain ⟨r', hr', rfl⟩ := List.mem_map.mp hr
    refine .inl ⟨List.mem_map.mpr ⟨r', hr', ?_⟩, by simp⟩
    unfold replaceFields
    split_ifs <;> rfl
  | delete id =>
    obtain ⟨hr, hne⟩ := List.mem_filter.mp hr
    refine .inl ⟨List.mem_map_of_mem hr, ?_⟩
    rintro ⟨⟩
    simp at hne

lemma Accounted.record (h : Accounted auth m s) (ht : s.tasks[i]? = some t) {e : Edit}
    {table : Table} (hedit : s.table.edit e = some table) (hadmitted : Admitted auth t.headers)
    (hasked : Asked t.call e) (hfirst : i ∉ s.edits.map Prod.fst)
    (hnew : ∀ id, e.inserted = some id → id ∉ knownIds m s)
    (hremoved : ∀ j id, (j, .delete id) ∈ s.edits → id ∈ knownIds m s) :
    Accounted auth m (record s i e table) where
  rows := by
    rw [SaasStore.record, List.map_append, List.foldl_append, ← h.rows, edit_some hedit]
    rfl
  allowed := by
    simp only [SaasStore.record, List.forall_mem_append, List.forall_mem_singleton]
    exact ⟨h.allowed, t, ht, hadmitted, hasked⟩
  once := by
    rw [SaasStore.record, List.map_append]
    exact h.once.append (List.nodup_singleton i) (by simpa using hfirst)
  ids := by
    rw [knownIds_record]
    cases hid : e.inserted with
    | none => simpa using h.ids
    | some id => exact h.ids.append (List.nodup_singleton id) (by simpa using hnew id hid)
  gone j id hmem hpresent := by
    rw [SaasStore.record, edit_some hedit] at hpresent
    rcases List.mem_append.mp hmem with hmem | hmem
    · rcases mem_ids_apply hpresent with ⟨hold, _⟩ | hid
      · exact h.gone j id hmem hold
      · exact hnew id hid (hremoved j id hmem)
    · rw [List.mem_singleton, Prod.mk.injEq] at hmem
      rcases mem_ids_apply hpresent with ⟨_, hne⟩ | hid
      · exact hne hmem.2.symm
      · rw [← hmem.2] at hid
        cases hid
  answers j u a e' hu ha he := List.mem_append_left _ (h.answers j u a e' hu ha he)

lemma Sound.edited (h : Sound auth m s) (ht : s.tasks[i]? = some t) {a : Answer} {e : Edit}
    {table : Table} (hpending : t.phase.pending = some e)
    (ha : reported a = some e ∨ reported a = none) (hedit : s.table.edit e = some table)
    (hthere : ∀ id, e = .delete id → id ∈ s.table.rows.map SaasRow.id) :
    Sound auth m (answer (record s i e table) i t a) := by
  have hwaits : Waits s i e := ⟨t, ht, hpending⟩
  have hpresent : ∀ id ∈ s.table.rows.map SaasRow.id, id ∈ knownIds m s := by
    simpa using h.present
  obtain ⟨hadmitted, hasked, hfirst⟩ := h.pending i t e ht hpending
  have haccounted := h.accounted.record ht hedit hadmitted hasked hfirst
    (fun id hid => (h.drawn i e id hwaits hid).2) h.removed
  have hknown : knownIds m (answer (record s i e table) i t a) =
      knownIds m s ++ e.inserted.toList := knownIds_record i e table
  refine ⟨haccounted.answer ht fun e' he' => ?_, fun j u e' hu he' => ?_, fun j e' id hj hid => ?_,
    fun j k e' e'' id hj hk => ?_, fun id hid => ?_, fun r hr => ?_, fun j id hmem => ?_⟩
  · rcases ha with ha | ha
    · obtain rfl : e = e' := Option.some.inj (ha.symm.trans he')
      exact List.mem_append_right _ (List.mem_singleton_self _)
    · rw [ha] at he'
      cases he'
  · rcases getElem?_answer (s := record s i e table) ht a hu with ⟨hj, hu⟩ | ⟨_, rfl⟩
    · obtain ⟨hadmitted', hasked', hfirst'⟩ := h.pending j u e' hu he'
      refine ⟨hadmitted', hasked', ?_⟩
      simpa [record, answer, hj] using hfirst'
    · cases he'
  · -- what another request has drawn is not what this one inserts
    obtain ⟨hne, hj⟩ := waits_answer (s := record s i e table) ht hj
    obtain ⟨hlt, hnew⟩ := h.drawn j e' id hj hid
    refine ⟨hlt, ?_⟩
    rw [hknown, List.mem_append, not_or]
    refine ⟨hnew, fun hmem => hne ?_⟩
    exact h.apart j i e' e id hj hwaits hid (Option.mem_toList.mp hmem)
  · exact h.apart j k e' e'' id (waits_answer (s := record s i e table) ht hj).2
      (waits_answer (s := record s i e table) ht hk).2
  · rw [hknown] at hid
    rcases List.mem_append.mp hid with hid | hid
    · exact h.known id hid
    · exact (h.drawn i e id hwaits (Option.mem_toList.mp hid)).1
  · have hr' : r.id ∈ (e.apply s.table.rows).map SaasRow.id := by
      rw [← edit_some hedit]
      exact List.mem_map_of_mem hr
    rw [hknown]
    rcases mem_ids_apply hr' with ⟨hold, _⟩ | hid
    · exact List.mem_append_left _ (hpresent _ hold)
    · exact List.mem_append_right _ (Option.mem_toList.mpr hid)
  · rw [hknown]
    refine List.mem_append_left _ ?_
    rcases List.mem_append.mp hmem with hmem | hmem
    · exact h.removed j id hmem
    · rw [List.mem_singleton, Prod.mk.injEq] at hmem
      exact hpresent id (hthere id hmem.2.symm)

theorem Sound.step (h : Sound auth m s) (a : Action) : Sound auth m (step auth s a) := by
  cases a with
  | arrive headers call => exact h.arrive headers call
  | finish i reply =>
    show Sound auth m (finish s i reply)
    obtain heq | ⟨t, ht, hends⟩ := finish_cases s i reply
    · rwa [heq]
    · generalize finish s i reply = s' at hends
      cases hends with
      | unchanged ha => exact h.unchanged ht ha
      | edited hpending ha hedit hthere => exact h.edited ht hpending ha hedit hthere

end

/-- For every order in which requests come in and commit, and every failure of a
statement or a commit. -/
theorem edits_account_for_rows (auth : Auth) (m : Migrated) (schedule : List Action) :
    Accounted auth m (run (step auth) (initial m) schedule) :=
  (run_invariant (I := Sound auth m) (fun _ a h => h.step a) (sound_initial auth m)
    schedule).accounted

/-- An editor's request, and one that does not repeat the token of the cookie. -/
def editorHeaders (csrfHeader : Option Text) : Headers :=
  ⟨sessionRequest, some "token".toList, csrfHeader⟩

def officeFields : SaasFields := ⟨"Office", none, ".office.com", none, 100⟩

def emptyCatalog : Migrated := ⟨⟨[], List.nodup_nil, List.nodup_nil⟩, 1, fun _ h => absurd h List.not_mem_nil⟩

example :
    let s := run (step sessionAuth) (initial emptyCatalog)
      [.arrive (editorHeaders none) (.create (some ⟨officeFields, rfl⟩)),
        .arrive (editorHeaders (some "token".toList)) (.create (some ⟨officeFields, rfl⟩)),
        .finish 0 .stored, .finish 1 .stored]
    s.tasks.map Task.phase = [.answered .csrfMismatch,
        .answered (.created ⟨1, officeFields, "manual"⟩)] ∧
      s.edits = [(1, .insert ⟨1, officeFields, "manual"⟩)] := by
  decide +kernel

end FlowDiscovery.SaasStore
