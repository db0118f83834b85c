import FlowDiscovery.Dict
import FlowDiscovery.PyJson
import FlowDiscovery.PyTime
import FlowDiscovery.SqlText
import FlowDiscovery.WsSankey

/-!
# Edits of the application catalog

`require_editor` hands the record of the caller to `create_app` and `update_app`,
which write the catalog and its audit trail in one transaction. Both branches of
`current_user` put the caller's name under `user_upn`, and both handlers read it
under `upn`. The lookup raises before anything is written: no edit that is admitted
is ever committed. With the right key the statements themselves would be refused, since a
cast behind a name keeps it from being a parameter.
-/
namespace FlowDiscovery.Applications
open PyText PyTime PyJson WsSankey

/-! ## The caller -/

inductive UserValue where
  | value (v : Json)
  | roles (names : Finset String)

/-- The dictionary that the handlers get. -/
abbrev User := Dict String UserValue

inductive Failure where
  | unauthenticated
  | forbidden
  | notFound
  | keyError
  | indexError
  | typeError
  | validation
  | database
  deriving DecidableEq, Repr

structure RoleMap where
  viewer : Finset PyStr
  editor : Finset PyStr
  admin : Finset PyStr

/-- What the handshake uses from outside: `verify_jwt` with the claims of a token
that it accepts, and the session of a cookie that the codec accepts. -/
structure Auth where
  verifyJwt : Text → Option (List (PyStr × Json))
  decodeSession : Text → Option SessionData
  roleMap : RoleMap

/-- The header `authorization`, empty when missing, and the cookie `session`. -/
structure Request where
  authorization : Text
  session : Option Text

/-- `set(groups)` as far as it can meet a set of texts; `none` is the `TypeError` of a
value that is not iterable or has an element that is not hashable. -/
def groupSet : Json → Option (Finset PyStr)
  | .arr items =>
    if items.any fun | .arr _ => true | .obj _ => true | _ => false then none
    else some (items.filterMap fun | .str s => some s | _ => none).toFinset
  | .str s => some (s.map fun c => [c]).toFinset
  | .obj fields => some (fields.map Prod.fst).toFinset
  | .null | .bool _ | .int _ | .float _ => none

def rolesFromGroups (groups : Finset PyStr) (mapping : RoleMap) : Finset String :=
  if (groups ∩ mapping.admin).Nonempty then {"viewer", "editor", "admin"}
  else if (groups ∩ mapping.editor).Nonempty then {"viewer", "editor"}
  else if (groups ∩ mapping.viewer).Nonempty then {"viewer"}
  else ∅

/-- `auth_header.split(None, 1)[1]`. -/
def bearerToken (header : Text) : Option Text :=
  let word := (header.dropWhile isSpace).dropWhile fun c => !isSpace c
  let rest := word.dropWhile isSpace
  if rest = [] then none else some rest

def userOf (upn : Json) (roles : Finset String) : User :=
  (Dict.empty.set "user_upn" (.value upn)).set "roles" (.roles roles)

def currentUser (auth : Auth) (request : Request) : Except Failure User :=
  if "bearer ".toList.isPrefixOf (lowerAscii request.authorization) then
    match bearerToken request.authorization with
    | none => .error .indexError
    | some token =>
      match auth.verifyJwt token with
      | none => .error .unauthenticated
      | some claims =>
        let sub := (Json.lookup claims (ofString "sub")).getD (.str (ofString "unknown"))
        let upn := (Json.lookup claims (ofString "upn")).getD sub
        match groupSet ((Json.lookup claims (ofString "groups")).getD (.arr [])) with
        | none => .error .typeError
        | some groups => .ok (userOf upn (rolesFromGroups groups auth.roleMap))
  else
    match request.session with
    | none | some [] => .error .unauthenticated
    | some cookie =>
      match auth.decodeSession cookie with
      | none => .error .unauthenticated
      | some data => .ok (userOf (.str (ofString data.userUpn)) data.roles)

/-- What a request proves of its caller: the claims of a token with the groups in them,
or a session. -/
inductive Credential where
  | bearer (claims : List (PyStr × Json)) (groups : Finset PyStr)
  | session (data : SessionData)

namespace Credential

def upn : Credential → Json
  | bearer claims _ =>
    let sub := (Json.lookup claims (ofString "sub")).getD (.str (ofString "unknown"))
    (Json.lookup claims (ofString "upn")).getD sub
  | session data => .str (ofString data.userUpn)

def roles (mapping : RoleMap) : Credential → Finset String
  | bearer _ groups => rolesFromGroups groups mapping
  | session data => data.roles

end Credential

/-- A session counts only without a bearer token. -/
inductive Presents (auth : Auth) (request : Request) : Credential → Prop where
  | bearer {token : Text} {claims : List (PyStr × Json)} {groups : Finset PyStr}
      (hheader : "bearer ".toList.isPrefixOf (lowerAscii request.authorization) = true)
      (htoken : bearerToken request.authorization = some token)
      (hclaims : auth.verifyJwt token = some claims)
      (hgroups : groupSet ((Json.lookup claims (ofString "groups")).getD (.arr [])) =
        some groups) : Presents auth request (.bearer claims groups)
  | session {cookie : Text} {data : SessionData}
      (hheader : "bearer ".toList.isPrefixOf (lowerAscii request.authorization) = false)
      (hcookie : request.session = some cookie) (hne : cookie ≠ [])
      (hdata : auth.decodeSession cookie = some data) : Presents auth request (.session data)

/-- The record that `current_user` makes is that of the credential. -/
theorem currentUser_eq_ok_iff (auth : Auth) (request : Request) (user : User) :
    currentUser auth request = .ok user ↔
      ∃ c, Presents auth request c ∧ user = userOf c.upn (c.roles auth.roleMap) := by
  constructor
  · intro h
    unfold currentUser at h
    split at h
    · next hheader =>
      split at h
      · cases h
      · next token htoken =>
        split at h
        · cases h
        · next claims hclaims =>
          dsimp only at h
          split at h
          · cases h
          · next groups hgroups =>
            exact ⟨.bearer claims groups, .bearer hheader htoken hclaims hgroups,
              (Except.ok.inj h).symm⟩
    · next hheader =>
      split at h
      · cases h
      · cases h
      · next cookie hne hcookie =>
        split at h
        · cases h
        · next data hdata =>
          refine ⟨.session data, .session (Bool.eq_false_iff.mpr hheader) hcookie ?_ hdata,
            (Except.ok.inj h).symm⟩
          rintro rfl
          exact hne rfl
  · rintro ⟨c, hc, rfl⟩
    cases hc with
    | bearer hheader htoken hclaims hgroups =>
      simp only [currentUser, hheader, htoken, hclaims, hgroups, if_true]
      rfl
    | session hheader hcookie hne hdata =>
      obtain ⟨ch, rest, rfl⟩ := List.exists_cons_of_ne_nil hne
      simp only [currentUser, hheader, hcookie, hdata]
      rfl

/-- `user.get("roles", set())`. -/
def rolesOf (user : User) : Finset String :=
  match user.get? "roles" with
  | some (.roles names) => names
  | _ => ∅

def requireEditor (auth : Auth) (request : Request) : Except Failure User := do
  let user ← currentUser auth request
  if "editor" ∉ rolesOf user then .error .forbidden else .ok user

/-! ## The tables -/

structure AppFields where
  name : String
  description : Option String
  owner : Option String
  dstCidr : String
  dstPortMin : Option ℤ
  dstPortMax : Option ℤ
  proto : Option ℤ
  priority : ℤ
  deriving DecidableEq, Repr

def isPort (n : ℤ) : Bool := 0 ≤ n ∧ n ≤ 65535

/-- The constraints of the schema. -/
def AppFields.valid (f : AppFields) : Bool :=
  1 ≤ f.name.length && f.name.length ≤ 200 && f.dstPortMin.all isPort && f.dstPortMax.all isPort

/-- A body that the schema accepts. -/
abbrev ApplicationIn := {f : AppFields // f.valid}

/-- A row of `applications`, and the record made from it. -/
structure Application where
  id : ℤ
  fields : AppFields
  source : String
  createdAt : Instant
  updatedAt : Instant
  updatedBy : Option String
  deriving DecidableEq, Repr

inductive AuditOp where
  | create
  | update
  | delete
  deriving DecidableEq, Repr

/-- A row of `application_audit`. -/
structure AuditEntry where
  applicationId : ℤ
  changedBy : String
  op : AuditOp
  before : Option Application
  after : Option Application
  deriving DecidableEq, Repr

structure Database where
  applications : List Application
  audit : List AuditEntry
  deriving DecidableEq, Repr

/-! ## The handlers -/

def toText (s : PyStr) : String := String.ofList (s.map Char.ofNat)

/-- A value where the driver expects a text. -/
def textParam : UserValue → Option String
  | .value (.str s) => some (toText s)
  | _ => none

/-- `user[key]`. -/
def getItem (user : User) (key : String) : Except Failure UserValue :=
  match user.get? key with
  | some v => .ok v
  | none => .error .keyError

/-- An error of the database or its driver is `none`. -/
def executed {α : Type} : Option α → Except Failure α
  | some a => .ok a
  | none => .error .database

/-- `Application(**dict(row))`. -/
def application (row : Application) : Except Failure Application :=
  if row.fields.valid then .ok row else .error .validation

section

/- What the database stores for a body, `none` when it refuses a value. -/
variable (store : AppFields → Option AppFields)

/-- `create_app` up to its commit, on the transaction's copy of the tables. `id` and
`now` are what the sequence and the clock of the database give. -/
def createSteps (user : User) (body : ApplicationIn) (id : ℤ) (now : Instant) (db : Database) :
    Except Failure (Database × Application) := do
  let updatedBy ← getItem user "upn"
  let fields ← executed (store body)
  let updatedBy ← executed (textParam updatedBy)
  let row : Application := ⟨id, fields, "manual", now, now, some updatedBy⟩
  let changedBy ← getItem user "upn"
  let after ← application row
  let changedBy ← executed (textParam changedBy)
  let entry : AuditEntry := ⟨row.id, changedBy, .create, none, some after⟩
  return (⟨db.applications ++ [row], db.audit ++ [entry]⟩, after)

def replaceRow (rows : List Application) (row : Application) : List Application :=
  rows.map fun r => if r.id = row.id then row else r

/-- The row that `UPDATE ... RETURNING` makes of the stored one. -/
def updateRow (user : User) (body : ApplicationIn) (now : Instant) (stored : Application) :
    Except Failure Application := do
  let updatedBy ← getItem user "upn"
  let fields ← executed (store body)
  let updatedBy ← executed (textParam updatedBy)
  return { stored with fields, updatedAt := now, updatedBy := some updatedBy }

/-- The audit row of an update. -/
def updateAudit (user : User) (appId : ℤ) (before after : Application) :
    Except Failure AuditEntry := do
  let changedBy ← getItem user "upn"
  let before ← application before
  let after ← application after
  let changedBy ← executed (textParam changedBy)
  return ⟨appId, changedBy, .update, some before, some after⟩

/-- `update_app` up to its commit. -/
def updateSteps (user : User) (appId : ℤ) (body : ApplicationIn) (now : Instant) (db : Database) :
    Except Failure (Database × Application) := do
  match db.applications.find? fun r => r.id = appId with
  | none => .error .notFound
  | some before =>
    let after ← updateRow store user body now before
    let entry ← updateAudit user appId before after
    return (⟨replaceRow db.applications after, db.audit ++ [entry]⟩, after)

/-- The commit, or the rollback that the session does when the handler raises. -/
def transaction (db : Database) : Except Failure (Database × Application) →
    Database × Except Failure Application
  | .ok (db', row) => (db', .ok row)
  | .error e => (db, .error e)

def createApp (user : User) (body : ApplicationIn) (id : ℤ) (now : Instant) (db : Database) :
    Database × Except Failure Application :=
  transaction db (createSteps store user body id now db)

def updateApp (user : User) (appId : ℤ) (body : ApplicationIn) (now : Instant) (db : Database) :
    Database × Except Failure Application :=
  transaction db (updateSteps store user appId body now db)

/-! ## The statements -/

def insertSql : List String :=
  ["INSERT INTO applications (name, description, owner, dst_cidr,",
    "dst_port_min, dst_port_max, proto, priority,",
    "source, updated_by)",
    "VALUES (:name, :description, :owner, :dst_cidr::cidr,",
    ":dst_port_min, :dst_port_max, :proto, :priority,",
    "'manual', :updated_by)",
    "RETURNING id, name, description, owner, dst_cidr::text AS dst_cidr,",
    "dst_port_min, dst_port_max, proto, priority, source,",
    "created_at, updated_at, updated_by"]

def updateSql : List String :=
  ["UPDATE applications",
    "SET name=:name, description=:description, owner=:owner,",
    "dst_cidr=:dst_cidr::cidr, dst_port_min=:dst_port_min,",
    "dst_port_max=:dst_port_max, proto=:proto, priority=:priority,",
    "updated_at=now(), updated_by=:updated_by",
    "WHERE id=:id",
    "RETURNING id, name, description, owner, dst_cidr::text AS dst_cidr,",
    "dst_port_min, dst_port_max, proto, priority, source,",
    "created_at, updated_at, updated_by"]

/-- What the database stores through a statement: nothing when it refuses the statement. -/
def served (statement : List String) (store : AppFields → Option AppFields) (fields : AppFields) :
    Option AppFields :=
  match SqlText.execute statement (store fields) with
  | .ok stored => stored
  | .error _ => none

lemma served_insertSql (store : AppFields → Option AppFields) (fields : AppFields) :
    served insertSql store fields = none := by
  rw [served, SqlText.execute_of_not_accepted (by decide +kernel)]

lemma served_updateSql (store : AppFields → Option AppFields) (fields : AppFields) :
    served updateSql store fields = none := by
  rw [served, SqlText.execute_of_not_accepted (by decide +kernel)]

/-- Whatever the record of the caller, neither statement is carried out. -/
theorem edits_refused (store : AppFields → Option AppFields) (user : User) (body : ApplicationIn)
    (id : ℤ) (now : Instant) (db : Database) (stored : Application) :
    (createApp (served insertSql store) user body id now db).1 = db ∧
      ∀ row, updateRow (served updateSql store) user body now stored ≠ .ok row := by
  constructor
  · simp only [createApp, createSteps, served_insertSql, executed]
    cases getItem user "upn" <;> rfl
  · intro row
    simp only [updateRow, served_updateSql, executed]
    cases getItem user "upn" <;> exact nofun

/-! ## The property -/

/-- The name of the caller. -/
def callerUpn (user : User) : Option String := (user.get? "user_upn").bind textParam

/-- One row was added to each table, the audit row under the caller's name. -/
def CreateAttributed (user : User) (db db' : Database) : Prop :=
  ∃ row entry, db' = ⟨db.applications ++ [row], db.audit ++ [entry]⟩ ∧
    entry.applicationId = row.id ∧ callerUpn user = some entry.changedBy

/-- The row of that id was replaced and one audit row added under the caller's name. -/
def UpdateAttributed (user : User) (appId : ℤ) (db db' : Database) : Prop :=
  ∃ row entry, row.id = appId ∧ db' = ⟨replaceRow db.applications row, db.audit ++ [entry]⟩ ∧
    entry.applicationId = appId ∧ callerUpn user = some entry.changedBy

/-- A request that fails leaves both tables as they were. -/
def Atomic (db : Database) (result : Database × Except Failure Application) : Prop :=
  ∀ e, result.2 = .error e → result.1 = db

theorem atomic_transaction (db : Database) (steps : Except Failure (Database × Application)) :
    Atomic db (transaction db steps) := by
  intro e he
  cases steps with
  | ok p => cases he
  | error e' => rfl

/-! ## No edit is committed -/

lemma get?_userOf_upn (upn : Json) (roles : Finset String) :
    (userOf upn roles).get? "upn" = none := by
  rw [userOf, Dict.get?_set, Dict.get?_set]
  rfl

/-- Both branches build the same kind of record. -/
lemma currentUser_cases {auth : Auth} {request : Request} {user : User}
    (h : currentUser auth request = .ok user) : ∃ upn roles, user = userOf upn roles := by
  obtain ⟨c, _, rfl⟩ := (currentUser_eq_ok_iff auth request user).mp h
  exact ⟨_, _, rfl⟩

/-- Whoever is admitted, the record has no `upn`. -/
theorem get?_upn_of_requireEditor {auth : Auth} {request : Request} {user : User}
    (h : requireEditor auth request = .ok user) : user.get? "upn" = none := by
  unfold requireEditor at h
  cases hcurrent : currentUser auth request with
  | error e =>
    rw [hcurrent] at h
    cases h
  | ok user' =>
    obtain ⟨upn, roles, rfl⟩ := currentUser_cases hcurrent
    have hok : (if "editor" ∉ rolesOf (userOf upn roles) then Except.error Failure.forbidden
        else .ok (userOf upn roles)) = .ok user := by
      rw [hcurrent] at h
      exact h
    split_ifs at hok
    rw [← Except.ok.inj hok]
    exact get?_userOf_upn upn roles

lemma getItem_upn {user : User} (hupn : user.get? "upn" = none) :
    getItem user "upn" = .error .keyError := by
  rw [getItem, hupn]

lemma createApp_eq {user : User} (hupn : user.get? "upn" = none) (body : ApplicationIn) (id : ℤ)
    (now : Instant) (db : Database) :
    createApp store user body id now db = (db, .error .keyError) := by
  rw [createApp, createSteps, getItem_upn hupn]
  rfl

lemma updateApp_fst {user : User} (hupn : user.get? "upn" = none) (appId : ℤ)
    (body : ApplicationIn) (now : Instant) (db : Database) :
    (updateApp store user appId body now db).1 = db := by
  rw [updateApp, updateSteps]
  cases db.applications.find? fun r => r.id = appId with
  | none => rfl
  | some before =>
    dsimp only
    rw [updateRow, getItem_upn hupn]
    rfl

/-- A database that did not change has no new audit row. -/
lemma not_attributed (user : User) (appId : ℤ) (db : Database) :
    ¬ CreateAttributed user db db ∧ ¬ UpdateAttributed user appId db db := by
  have haudit : ∀ entry, db.audit ≠ db.audit ++ [entry] := by
    intro entry heq
    simpa using congrArg List.length heq
  constructor
  · rintro ⟨row, entry, heq, _, _⟩
    exact haudit entry (congrArg Database.audit heq)
  · rintro ⟨row, entry, _, heq, _, _⟩
    exact haudit entry (congrArg Database.audit heq)

end

/-- No edit of an admitted caller is committed, whatever the body, the tables and the
caller's name; a failed one changes nothing. -/
theorem admitted_edit_never_attributed (auth : Auth) (request : Request) (user : User)
    (hadmitted : requireEditor auth request = .ok user) (store : AppFields → Option AppFields)
    (body : ApplicationIn) (id appId : ℤ) (now : Instant) (db : Database) :
    ¬ CreateAttributed user db (createApp store user body id now db).1 ∧
      ¬ UpdateAttributed user appId db (updateApp store user appId body now db).1 ∧
      Atomic db (createApp store user body id now db) ∧
      Atomic db (updateApp store user appId body now db) := by
  have hupn := get?_upn_of_requireEditor hadmitted
  refine ⟨?_, ?_, atomic_transaction _ _, atomic_transaction _ _⟩
  · rw [createApp_eq store hupn]
    exact (not_attributed user appId db).1
  · rw [updateApp_fst store hupn]
    exact (not_attributed user appId db).2

/-- One editor with a session, and a directory of no bearer tokens. -/
def sessionAuth : Auth where
  verifyJwt _ := none
  decodeSession cookie :=
    if cookie = "signed".toList then some ⟨"alice@corp", {"viewer", "editor"}⟩ else none
  roleMap := ⟨∅, ∅, ∅⟩

def sessionRequest : Request := ⟨[], some "signed".toList⟩

/-- `{"name": "payroll", "dst_cidr": "10.1.0.0/16"}`. -/
def payrollBody : ApplicationIn :=
  ⟨⟨"payroll", none, none, "10.1.0.0/16", none, none, none, 100⟩, by decide⟩

def payrollRow : Application :=
  ⟨7, payrollBody, "manual", 0, 0, none⟩

def aliceUser : User := userOf (.str (ofString "alice@corp")) {"viewer", "editor"}

lemma requireEditor_session : requireEditor sessionAuth sessionRequest = .ok aliceUser := by
  rfl

theorem admitted_edit_never_attributed_session :
    requireEditor sessionAuth sessionRequest = .ok aliceUser ∧
      ¬ CreateAttributed aliceUser ⟨[], []⟩ (createApp some aliceUser payrollBody 1 0 ⟨[], []⟩).1 :=
  ⟨requireEditor_session, (admitted_edit_never_attributed sessionAuth sessionRequest aliceUser
    requireEditor_session some payrollBody 1 7 0 ⟨[], []⟩).1⟩

/-- The database accepts the body, and neither a new application nor a change of an
existing one is committed. -/
theorem session_edit_raises :
    requireEditor sessionAuth sessionRequest = .ok aliceUser ∧
      (∃ e, (createApp some aliceUser payrollBody 1 0 ⟨[], []⟩).2 = .error e) ∧
      ¬ CreateAttributed aliceUser ⟨[], []⟩ (createApp some aliceUser payrollBody 1 0 ⟨[], []⟩).1 ∧
      ¬ UpdateAttributed aliceUser 7 ⟨[payrollRow], []⟩
        (updateApp some aliceUser 7 payrollBody 0 ⟨[payrollRow], []⟩).1 := by
  refine ⟨requireEditor_session, ⟨.keyError, rfl⟩, ?_, ?_⟩
  · exact (not_attributed aliceUser 7 ⟨[], []⟩).1
  · exact (not_attributed aliceUser 7 ⟨[payrollRow], []⟩).2

end FlowDiscovery.Applications
