import FlowDiscovery.Applications
import FlowDiscovery.Machine
import FlowDiscovery.PyJsonDumps
import FlowDiscovery.SaasStore

/-!
# Browser sessions

The server keeps nothing between requests: what it knows of a browser is in the cookies
that the browser sends. `callback` signs a session behind a login of the same browser, and
every later request is answered from the signed cookie. Over any run this is the session
that somebody in charge of a table would keep: one pending login, one current session, and
nothing else.
-/
namespace FlowDiscovery.Sessions
open PyText PyJson Applications

/-! ## The codec -/

structure SessionData extends WsSankey.SessionData where
  csrf : Text
  exp : ℤ

/-- `URLSafeTimedSerializer` at a second of the clock: signing a value, and reading a token
of at most some age. `none` is an exception. -/
structure Serializer where
  dumps : Json → ℕ → Option Text
  loads : Text → ℤ → ℕ → Option Json

def ttlS : ℤ := 8 * 3600

/-- `sorted` of a set. -/
def sorted {α : Type*} [LinearOrder α] (s : Finset α) : List α := s.sort (· ≤ ·)

@[simp] lemma sorted_toFinset {α : Type*} [LinearOrder α] (s : Finset α) :
    (sorted s).toFinset = s := Finset.sort_toFinset s (· ≤ ·)

/-- The dictionary that `encode` signs. -/
def payload (data : SessionData) : Json :=
  .obj [(ofString "user_upn", .str (ofString data.userUpn)),
    (ofString "roles", .arr ((sorted data.roles).map fun role => .str (ofString role))),
    (ofString "csrf", .str (ofText data.csrf)), (ofString "exp", .int data.exp)]

def encode (serializer : Serializer) (data : SessionData) (now : ℕ) : Option Text :=
  serializer.dumps (payload data) now

/-- The end of `decode`, on a payload as `encode` makes it. -/
def readPayload (now : ℕ) : Json → Option SessionData
  | .obj raw =>
    match Json.member raw "exp", Json.member raw "user_upn", Json.member raw "roles",
      Json.member raw "csrf" with
    | some (.int exp), some (.str upn), some (.arr roles), some (.str csrf) =>
      if exp < now then none
      else some {
        userUpn := toText upn
        roles := (roles.filterMap fun | .str role => some (toText role) | _ => none).toFinset
        csrf := csrf.map Char.ofNat
        exp := exp }
    | _, _, _, _ => none
  | _ => none

def decode (serializer : Serializer) (now : ℕ) (token : Text) : Option SessionData :=
  (serializer.loads token ttlS now).bind (readPayload now)

/-- What is documented of the serializer, for the dictionaries that `encode` signs: one
that can be written is signed, and the token is good for the age that the reader allows. -/
structure Lawful (serializer : Serializer) : Prop where
  signs : ∀ data, (dumps false (payload data)).isSome → ∀ t, ∃ token,
    serializer.dumps (payload data) t = some token ∧ token ≠ []
  reads : ∀ data t token, serializer.dumps (payload data) t = some token → ∀ maxAge now,
    serializer.loads token maxAge now =
      if t ≤ now ∧ (now : ℤ) - t ≤ maxAge then some (payload data) else none

/-! ## The browser -/

/-- A cookie is kept up to a second of the clock. -/
structure Cookie where
  value : Text
  expires : ℕ

abbrev Jar := Dict String Cookie

inductive SetCookie where
  | set (name : String) (value : Text) (maxAge : ℕ)
  | delete (name : String)

def store (now : ℕ) (jar : Jar) : SetCookie → Jar
  | .set name value maxAge => jar.set name ⟨value, now + maxAge⟩
  | .delete name => jar.erase name

/-- What `request.cookies.get(name)` is when the browser sends the cookies that `sends` says. -/
def cookie (jar : Jar) (now : ℕ) (sends : String → Bool) (name : String) : Option Text :=
  ((jar.get? name).filter fun c => sends name && decide (now ≤ c.expires)).map Cookie.value

/-! ## The server -/

structure Settings where
  roleMap : RoleMap
  accessTokenTtlS : ℤ

/-- The claims that the provider has verified. -/
structure Claims where
  upn : Option String
  groups : Json

inductive Answer where
  | redirect
  | stateMismatch
  | serverError
  | noContent
  | csrfMismatch
  | unauthenticated
  | served (user : User)
  | joined (upn : String)
  | closed

def login (state : Text) : Answer × List SetCookie :=
  (.redirect, [.set "oidc_state" state 600])

/-- `callback`, with the answer of `exchange_code` and the token drawn for the session. -/
def callback (serializer : Serializer) (settings : Settings) (now : ℕ) (sent : Option Text)
    (state : Text) (answer : Option Claims) (csrf : Text) : Answer × List SetCookie :=
  if sent ≠ some state then (.stateMismatch, [])
  else
    match answer with
    | none => (.serverError, [])
    | some claims =>
      match groupSet claims.groups, claims.upn with
      | some groups, some upn =>
        let roles := rolesFromGroups groups settings.roleMap
        match encode serializer ⟨⟨upn, roles⟩, csrf, now + settings.accessTokenTtlS⟩ now with
        | none => (.serverError, [])
        | some token =>
          (.redirect, [.set "session" token 28800, .set "csrf_token" csrf 28800,
            .delete "oidc_state"])
      | _, _ => (.serverError, [])

/-- A request that changes nothing, one that does with its header `x-csrf-token`, or the
handshake of the WebSocket. -/
inductive Use where
  | read
  | edit (header : Option Text)
  | handshake

/-- The services of a request at a second; no bearer token comes from a browser. -/
def auth (serializer : Serializer) (settings : Settings) (now : ℕ) : Auth where
  verifyJwt _ := none
  decodeSession token := (decode serializer now token).map SessionData.toSessionData
  roleMap := settings.roleMap

/-- `CsrfMiddleware` on a request that is no `GET`. -/
def csrfPasses (session csrf header : Option Text) : Bool :=
  SaasStore.csrfPasses "POST" ⟨⟨[], session⟩, csrf, header⟩

def logout (session csrf header : Option Text) : Answer × List SetCookie :=
  if csrfPasses session csrf header then
    (.noContent, [.delete "session", .delete "csrf_token"])
  else (.csrfMismatch, [])

def identified (auth : Auth) (session : Option Text) : Answer :=
  match currentUser auth ⟨[], session⟩ with
  | .ok user => .served user
  | .error _ => .unauthenticated

def serve (auth : Auth) (session csrf : Option Text) : Use → Answer
  | .read => identified auth session
  | .edit header =>
    if csrfPasses session csrf header then identified auth session else .csrfMismatch
  | .handshake =>
    match WsSankey.resolveCookieUser ((session.filter (· ≠ [])).bind auth.decodeSession) with
    | some upn => .joined upn
    | none => .closed

/-! ## Runs -/

/-- What the browser does at a second; it may hold back cookies. -/
inductive Action where
  | login (now : ℕ) (state : Text)
  | callback (now : ℕ) (sends : String → Bool) (state : Text) (answer : Option Claims) (csrf : Text)
  | logout (now : ℕ) (sends : String → Bool) (header : Option Text)
  | request (now : ℕ) (sends : String → Bool) (use : Use)

structure State where
  jar : Jar
  answers : List Answer

def State.receive (s : State) (now : ℕ) (response : Answer × List SetCookie) : State :=
  ⟨response.2.foldl (store now) s.jar, s.answers ++ [response.1]⟩

def step (serializer : Serializer) (settings : Settings) (s : State) : Action → State
  | .login now state => s.receive now (login state)
  | .callback now sends state answer csrf =>
    s.receive now (callback serializer settings now (cookie s.jar now sends "oidc_state") state
      answer csrf)
  | .logout now sends header =>
    s.receive now (logout (cookie s.jar now sends "session") (cookie s.jar now sends "csrf_token")
      header)
  | .request now sends use =>
    s.receive now (serve (auth serializer settings now) (cookie s.jar now sends "session")
      (cookie s.jar now sends "csrf_token") use, [])

def initial : State := ⟨.empty, []⟩

/-! ## The table -/

/-- Who has logged in, when, and the token of the session. -/
structure Session where
  user : WsSankey.SessionData
  csrf : Text
  since : ℕ

/-- Up to 600 seconds behind a login its callback is accepted. -/
structure Table where
  pending : Option (Text × ℕ)
  current : Option Session
  answers : List Answer

namespace Table

/-- The session is good for eight hours and for the time of an access token. -/
def Valid (settings : Settings) (e : Session) (now : ℕ) : Prop :=
  e.since ≤ now ∧ now ≤ e.since + 28800 ∧ (now : ℤ) ≤ e.since + settings.accessTokenTtlS

instance (settings : Settings) (e : Session) (now : ℕ) : Decidable (Valid settings e now) :=
  inferInstanceAs (Decidable (_ ∧ _))

/-- The session of the provider's answer. -/
def opened (settings : Settings) (now : ℕ) (answer : Option Claims) (csrf : Text) :
    Option Session := do
  let claims ← answer
  let groups ← groupSet claims.groups
  let upn ← claims.upn
  return ⟨⟨upn, rolesFromGroups groups settings.roleMap⟩, csrf, now⟩

/-- The session of a request that sends its cookie. -/
def holder (settings : Settings) (t : Table) (now : ℕ) (sends : String → Bool) : Option Session :=
  t.current.filter fun e => sends "session" && decide (Valid settings e now)

def identified (holder : Option Session) : Answer :=
  match holder with
  | some e => .served (userOf (.str (ofString e.user.userUpn)) e.user.roles)
  | none => .unauthenticated

/-- A change needs the token of the session, where the cookie of one is sent at all. -/
def tokenShown (t : Table) (now : ℕ) (sends : String → Bool) (header : Option Text) : Bool :=
  match t.current with
  | none => true
  | some e =>
    !(sends "session" && decide (now ≤ e.since + 28800)) ||
      (sends "csrf_token" && e.csrf ≠ [] && header = some e.csrf)

def serve (settings : Settings) (t : Table) (now : ℕ) (sends : String → Bool) : Use → Answer
  | .read => identified (t.holder settings now sends)
  | .edit header =>
    if t.tokenShown now sends header then identified (t.holder settings now sends)
    else .csrfMismatch
  | .handshake =>
    match (t.holder settings now sends).filter fun e => "viewer" ∈ e.user.roles with
    | some e => .joined e.user.userUpn
    | none => .closed

def answering (t : Table) (a : Answer) : Table := { t with answers := t.answers ++ [a] }

def step (settings : Settings) (t : Table) : Action → Table
  | .login now state => { t with pending := some (state, now) }.answering .redirect
  | .callback now sends state answer csrf =>
    if t.pending.any fun p => sends "oidc_state" && decide (now ≤ p.2 + 600) && p.1 = state then
      match opened settings now answer csrf with
      | some e => { t with pending := none, current := some e }.answering .redirect
      | none => t.answering .serverError
    else t.answering .stateMismatch
  | .logout now sends header =>
    if t.tokenShown now sends header then { t with current := none }.answering .noContent
    else t.answering .csrfMismatch
  | .request now sends use => t.answering (t.serve settings now sends use)

def initial : Table := ⟨none, none, []⟩

end Table

/-! ## The codec reads what it has signed -/

lemma toText_ofString (s : String) : toText (ofString s) = s := by
  rw [toText, ofString, ofText, List.map_map]
  simp [Function.comp_def]

lemma map_ofNat_ofText (s : Text) : (ofText s).map Char.ofNat = s := by
  simp [ofText, Function.comp_def]

lemma plain_payload (data : SessionData) : Plain (payload data) := by
  refine .member (plain_ofString _) _ (.member (.arr ?_) _ (.member (plain_ofText _) _
    (.member (.int _) _ plain_empty)))
  intro v hv
  obtain ⟨role, _, rfl⟩ := List.mem_map.mp hv
  exact plain_ofString role

lemma isSome_dumps_payload {data : SessionData} (h : (dumpsInt data.exp).isSome) :
    (dumps false (payload data)).isSome := by
  have hroles : (dumpsItems false
      ((sorted data.roles).map fun role => .str (ofString role))).isSome := by
    rw [dumpsItems_isSome_iff]
    intro v hv
    obtain ⟨role, _, rfl⟩ := List.mem_map.mp hv
    rfl
  rw [payload, dumps, Option.isSome_map, dumpsFields_isSome_iff]
  simp only [List.forall_mem_cons, List.not_mem_nil, false_imp_iff, implies_true, and_true]
  exact ⟨rfl, by rwa [dumps, Option.isSome_map], rfl, h⟩

/-- The four names are looked up one by one. -/
lemma member_payload (upn roles csrf exp : Json) :
    let raw := [(ofString "user_upn", upn), (ofString "roles", roles), (ofString "csrf", csrf),
      (ofString "exp", exp)]
    Json.member raw "exp" = some exp ∧ Json.member raw "user_upn" = some upn ∧
      Json.member raw "roles" = some roles ∧ Json.member raw "csrf" = some csrf :=
  ⟨rfl, rfl, rfl, rfl⟩

lemma readPayload_payload (data : SessionData) (now : ℕ) :
    readPayload now (payload data) = if data.exp < now then none else some data := by
  have hroles : (((sorted data.roles).map fun role => Json.str (ofString role)).filterMap
      fun | .str role => some (toText role) | _ => none).toFinset = data.roles := by
    rw [List.filterMap_map]
    simp [toText_ofString]
  obtain ⟨hexp, hupn, hlist, hcsrf⟩ := member_payload (.str (ofString data.userUpn))
    (.arr ((sorted data.roles).map fun role => .str (ofString role)))
    (.str (ofText data.csrf)) (.int data.exp)
  rw [payload, readPayload, hexp, hupn, hlist, hcsrf]
  simp only [toText_ofString, map_ofNat_ofText, hroles]

section

variable {serializer : Serializer} (h : Lawful serializer)
include h

/-- A token of the codec is good for eight hours and up to the second it carries. -/
lemma decode_encode {data : SessionData} {t : ℕ} {token : Text}
    (htoken : encode serializer data t = some token) (now : ℕ) :
    decode serializer now token =
      if t ≤ now ∧ now ≤ t + 28800 ∧ (now : ℤ) ≤ data.exp then some data else none := by
  rw [decode, h.reads data t token htoken]
  by_cases hage : t ≤ now ∧ (now : ℤ) - t ≤ ttlS
  · rw [if_pos hage, Option.bind_some, readPayload_payload]
    rw [ttlS] at hage
    split_ifs <;> first | rfl | omega
  · rw [if_neg hage, Option.bind_none, if_neg]
    rw [ttlS] at hage
    omega

end

/-! ## Cookies -/

lemma cookie_of_none {jar : Jar} {name : String} (h : jar.get? name = none) (now : ℕ)
    (sends : String → Bool) : cookie jar now sends name = none := by
  rw [cookie, h]
  rfl

lemma cookie_of_some {jar : Jar} {name : String} {c : Cookie} (h : jar.get? name = some c) (now : ℕ)
    (sends : String → Bool) :
    cookie jar now sends name = if sends name ∧ now ≤ c.expires then some c.value else none := by
  rw [cookie, h]
  by_cases hsent : sends name ∧ now ≤ c.expires
  · simp [Option.filter, hsent]
  · rw [if_neg hsent]
    simpa [Option.filter, not_and_or] using hsent

/-- What the codec signs for a session of the table. -/
def Session.data (settings : Settings) (e : Session) : SessionData :=
  ⟨e.user, e.csrf, e.since + settings.accessTokenTtlS⟩

/-- The two cookies of a session. -/
def Kept (serializer : Serializer) (settings : Settings) (jar : Jar) : Option Session → Prop
  | none => jar.get? "session" = none ∧ jar.get? "csrf_token" = none
  | some e => ∃ token, encode serializer (e.data settings) e.since = some token ∧ token ≠ [] ∧
    jar.get? "session" = some ⟨token, e.since + 28800⟩ ∧
    jar.get? "csrf_token" = some ⟨e.csrf, e.since + 28800⟩

/-- The jar has the cookies of the table. -/
structure Agrees (serializer : Serializer) (settings : Settings) (s : State) (t : Table) : Prop where
  pending : s.jar.get? "oidc_state" = t.pending.map fun p => ⟨p.1, p.2 + 600⟩
  kept : Kept serializer settings s.jar t.current
  answers : s.answers = t.answers

section

variable {serializer : Serializer} {settings : Settings} {s : State} {t : Table}

lemma session_ne_nil (h : Kept serializer settings s.jar t.current) {now : ℕ}
    {sends : String → Bool} {token : Text} (htoken : cookie s.jar now sends "session" = some token) :
    token ≠ [] := by
  cases hcurrent : t.current with
  | none =>
    rw [hcurrent] at h
    rw [cookie_of_none h.1] at htoken
    cases htoken
  | some e =>
    rw [hcurrent] at h
    obtain ⟨signed, _, hne, hsession, _⟩ := h
    rw [cookie_of_some hsession] at htoken
    split_ifs at htoken with hsent
    rwa [← Option.some.inj htoken]

/-- The session that the server reads from the cookie. -/
lemma decodeSession_cookie (hser : Lawful serializer) (h : Kept serializer settings s.jar t.current)
    (now : ℕ) (sends : String → Bool) :
    (cookie s.jar now sends "session").bind (auth serializer settings now).decodeSession =
      (t.holder settings now sends).map Session.user := by
  rw [Table.holder]
  cases hcurrent : t.current with
  | none =>
    rw [hcurrent] at h
    rw [cookie_of_none h.1]
    rfl
  | some e =>
    rw [hcurrent] at h
    obtain ⟨token, htoken, _, hsession, _⟩ := h
    have hdecode : (auth serializer settings now).decodeSession token =
        if Table.Valid settings e now then some e.user else none := by
      have hread : decode serializer now token =
          if Table.Valid settings e now then some (e.data settings) else none :=
        decode_encode hser htoken now
      simp only [auth, hread]
      split_ifs <;> rfl
    rw [cookie_of_some hsession, Option.filter]
    by_cases hvalid : Table.Valid settings e now
    · cases hsends : sends "session" <;> simp [hdecode, hvalid, hvalid.2.1]
    · cases hsends : sends "session" with
      | false => simp
      | true =>
        by_cases hage : now ≤ e.since + 28800 <;> simp [hage, hdecode, hvalid]

lemma csrfPasses_cookie (h : Kept serializer settings s.jar t.current) (now : ℕ)
    (sends : String → Bool) (header : Option Text) :
    csrfPasses (cookie s.jar now sends "session") (cookie s.jar now sends "csrf_token") header =
      t.tokenShown now sends header := by
  have hpost : decide ("POST" ∈ SaasStore.safeMethods) = false := by decide
  rw [Table.tokenShown, csrfPasses, SaasStore.csrfPasses, hpost, Bool.false_or]
  cases hcurrent : t.current with
  | none =>
    rw [hcurrent] at h
    rw [cookie_of_none h.1]
    rfl
  | some e =>
    rw [hcurrent] at h
    obtain ⟨token, _, _, hsession, hcsrf⟩ := h
    rw [cookie_of_some hsession, cookie_of_some hcsrf]
    by_cases hage : now ≤ e.since + 28800
    · cases sends "session" <;> cases sends "csrf_token" <;> simp [hage, eq_comm]
    · simp [hage]

lemma identified_of_ne_nil {auth : Auth} {session : Option Text}
    (hne : ∀ token, session = some token → token ≠ []) :
    identified auth session =
      match session.bind auth.decodeSession with
      | some data => .served (userOf (.str (ofString data.userUpn)) data.roles)
      | none => .unauthenticated := by
  have hbearer : "bearer ".toList.isPrefixOf (lowerAscii []) = false := rfl
  cases session with
  | none => rfl
  | some token =>
    obtain ⟨c, cs, rfl⟩ := List.exists_cons_of_ne_nil (hne token rfl)
    simp only [identified, currentUser, hbearer, Bool.false_eq_true, if_false, Option.bind_some]
    cases auth.decodeSession (c :: cs) <;> rfl

lemma identified_cookie (hser : Lawful serializer) (h : Kept serializer settings s.jar t.current)
    (now : ℕ) (sends : String → Bool) :
    identified (auth serializer settings now) (cookie s.jar now sends "session") =
      Table.identified (t.holder settings now sends) := by
  rw [identified_of_ne_nil fun token => session_ne_nil h, decodeSession_cookie hser h]
  cases t.holder settings now sends <;> rfl

lemma serve_cookie (hser : Lawful serializer) (h : Kept serializer settings s.jar t.current)
    (now : ℕ) (sends : String → Bool) (use : Use) :
    serve (auth serializer settings now) (cookie s.jar now sends "session")
        (cookie s.jar now sends "csrf_token") use = t.serve settings now sends use := by
  cases use with
  | read => exact identified_cookie hser h now sends
  | edit header =>
    rw [serve, Table.serve, csrfPasses_cookie h, identified_cookie hser h]
  | handshake =>
    have hfilter : (cookie s.jar now sends "session").filter (· ≠ []) =
        cookie s.jar now sends "session" := by
      cases htoken : cookie s.jar now sends "session" with
      | none => rfl
      | some token => simp [Option.filter, session_ne_nil h htoken]
    rw [serve, Table.serve, hfilter, decodeSession_cookie hser h]
    cases t.holder settings now sends with
    | none => rfl
    | some e => by_cases hviewer : "viewer" ∈ e.user.roles <;>
        simp [WsSankey.resolveCookieUser, Option.filter, hviewer]

/-! ## Steps -/

/-- The second at which the session would end can be written. -/
def Proper (settings : Settings) : Action → Prop
  | .callback now _ _ _ _ => (dumpsInt (now + settings.accessTokenTtlS)).isSome
  | .login _ _ | .logout _ _ _ | .request _ _ _ => True

lemma state_sent_iff (h : Agrees serializer settings s t) (now : ℕ) (sends : String → Bool)
    (state : Text) :
    cookie s.jar now sends "oidc_state" = some state ↔
      (t.pending.any fun p => sends "oidc_state" && decide (now ≤ p.2 + 600) && p.1 = state) := by
  have hpending := h.pending
  cases hp : t.pending with
  | none =>
    rw [hp] at hpending
    rw [cookie_of_none hpending]
    simp
  | some p =>
    rw [hp] at hpending
    rw [cookie_of_some hpending]
    split_ifs with hsent
    · simp [hsent]
    · simpa using fun h1 h2 => absurd ⟨h1, h2⟩ hsent

/-- An accepted callback opens the session of the table, or fails as the table does. -/
lemma callback_accepted (hser : Lawful serializer) {now : ℕ}
    (hproper : (dumpsInt (now + settings.accessTokenTtlS)).isSome) (state : Text)
    (answer : Option Claims) (csrf : Text) :
    (Table.opened settings now answer csrf = none ∧
      callback serializer settings now (some state) state answer csrf = (.serverError, [])) ∨
    ∃ e token, Table.opened settings now answer csrf = some e ∧
      encode serializer (e.data settings) e.since = some token ∧ token ≠ [] ∧
      callback serializer settings now (some state) state answer csrf =
        (.redirect, [.set "session" token 28800, .set "csrf_token" e.csrf 28800,
          .delete "oidc_state"]) ∧ e.since = now := by
  unfold callback
  rw [if_neg (by simp)]
  cases answer with
  | none => exact .inl ⟨rfl, rfl⟩
  | some claims =>
    obtain ⟨upn, groups⟩ := claims
    cases hgroups : groupSet groups with
    | none =>
      refine .inl ⟨?_, by simp [hgroups]⟩
      simp [Table.opened, hgroups]
    | some gs =>
      cases upn with
      | none =>
        refine .inl ⟨?_, by simp [hgroups]⟩
        simp [Table.opened, hgroups]
      | some upn =>
        let e : Session := ⟨⟨upn, rolesFromGroups gs settings.roleMap⟩, csrf, now⟩
        obtain ⟨token, htoken, hne⟩ := hser.signs (e.data settings)
          (isSome_dumps_payload hproper) now
        have hencode : encode serializer ⟨⟨upn, rolesFromGroups gs settings.roleMap⟩, csrf,
            now + settings.accessTokenTtlS⟩ now = some token := htoken
        refine .inr ⟨e, token, ?_, htoken, hne, ?_, rfl⟩
        · simp [Table.opened, hgroups, e]
        · simp [hgroups, hencode, e]

lemma Agrees.answering (h : Agrees serializer settings s t) (now : ℕ) (a : Answer) :
    Agrees serializer settings (s.receive now (a, [])) (t.answering a) :=
  ⟨h.pending, h.kept, by simp only [State.receive, Table.answering, h.answers]⟩

lemma Kept.of_get? {jar jar' : Jar} {current : Option Session}
    (h : Kept serializer settings jar current)
    (hsession : jar'.get? "session" = jar.get? "session")
    (hcsrf : jar'.get? "csrf_token" = jar.get? "csrf_token") :
    Kept serializer settings jar' current := by
  cases current with
  | none => exact ⟨hsession.trans h.1, hcsrf.trans h.2⟩
  | some e =>
    obtain ⟨token, htoken, hne, hs, hc⟩ := h
    exact ⟨token, htoken, hne, hsession.trans hs, hcsrf.trans hc⟩

theorem Agrees.step (hser : Lawful serializer) (h : Agrees serializer settings s t) (a : Action)
    (hproper : Proper settings a) :
    Agrees serializer settings (step serializer settings s a) (t.step settings a) := by
  cases a with
  | login now state =>
    refine ⟨?_, h.kept.of_get? ?_ ?_, ?_⟩
    · simp [Sessions.step, State.receive, login, store, Table.step, Table.answering]
    · simp [Sessions.step, State.receive, login, store]
    · simp [Sessions.step, State.receive, login, store]
    · simp only [Sessions.step, State.receive, login, Table.step, Table.answering, h.answers]
  | callback now sends state answer csrf =>
    have hsent := state_sent_iff h now sends state
    rw [Sessions.step, Table.step]
    by_cases haccepted : cookie s.jar now sends "oidc_state" = some state
    · rw [haccepted, if_pos (hsent.mp haccepted)]
      rcases callback_accepted hser hproper state answer csrf with
        ⟨hopened, hcallback⟩ | ⟨e, token, hopened, htoken, hne, hcallback, hsince⟩
      · rw [hopened, hcallback]
        exact h.answering now .serverError
      · rw [hopened, hcallback]
        subst hsince
        refine ⟨?_, ⟨token, htoken, hne, ?_, ?_⟩, ?_⟩
        · simp [State.receive, store, Dict.get?_erase, Table.answering]
        · simp [State.receive, store, Dict.get?_erase]
        · simp [State.receive, store, Dict.get?_erase]
        · simp only [State.receive, Table.answering, h.answers]
    · have hrefused : callback serializer settings now (cookie s.jar now sends "oidc_state") state
          answer csrf = (.stateMismatch, []) := if_pos haccepted
      rw [if_neg (mt hsent.mpr haccepted), hrefused]
      exact h.answering now .stateMismatch
  | logout now sends header =>
    rw [Sessions.step, Table.step, logout, csrfPasses_cookie h.kept]
    split_ifs with hshown
    · refine ⟨?_, ⟨?_, ?_⟩, ?_⟩
      · simpa [State.receive, store, Dict.get?_erase, Table.answering] using h.pending
      · simp [State.receive, store, Dict.get?_erase]
      · simp [State.receive, store, Dict.get?_erase]
      · simp only [State.receive, Table.answering, h.answers]
    · exact h.answering now .csrfMismatch
  | request now sends use =>
    rw [Sessions.step, Table.step, serve_cookie hser h.kept]
    exact h.answering now _

end

/-- Over any run the answers are those of the table. -/
theorem answers_from_table (serializer : Serializer) (hser : Lawful serializer)
    (settings : Settings) (actions : List Action) (hproper : ∀ a ∈ actions, Proper settings a) :
    (Machine.run (step serializer settings) initial actions).answers =
      (Machine.run (Table.step settings) Table.initial actions).answers := by
  suffices hrun : ∀ s t, Agrees serializer settings s t →
      Agrees serializer settings (Machine.run (step serializer settings) s actions)
        (Machine.run (Table.step settings) t actions) from
    (hrun initial Table.initial ⟨rfl, ⟨rfl, rfl⟩, rfl⟩).answers
  induction actions with
  | nil => exact fun s t h => h
  | cons a rest ih =>
    intro s t h
    exact ih (fun b hb => hproper b (List.mem_cons_of_mem a hb)) _ _
      (h.step hser a (hproper a List.mem_cons_self))

/-! One browser, with a serializer that writes the second in front of the value and signs
nothing. -/

def plainSerializer : Serializer where
  dumps v t := (dumps false v).map fun text => natText t ++ '.' :: text.map Char.ofNat
  loads token maxAge now :=
    match splitOnce ['.'] token with
    | none => none
    | some (stamp, text) =>
      let t := Nat.ofDigitChars 10 stamp 0
      if t ≤ now ∧ (now : ℤ) - t ≤ maxAge then loads id (ofText text) else none

lemma ofText_map_ofNat {text : PyStr} (h : Ascii text) : ofText (text.map Char.ofNat) = text := by
  rw [ofText, List.map_map]
  refine (List.map_congr_left (g := id) fun x hx => ?_).trans (List.map_id text)
  have hlt := (h x hx).2
  have hscalar : x.isValidChar := .inl (by omega)
  rw [Function.comp_apply, Char.ofNat, dif_pos hscalar]
  rfl

lemma lawful_plainSerializer : Lawful plainSerializer where
  signs data hsome t := by
    obtain ⟨text, htext⟩ := Option.isSome_iff_exists.mp hsome
    exact ⟨natText t ++ '.' :: text.map Char.ofNat, by simp [plainSerializer, htext], by simp⟩
  reads data t token htoken maxAge now := by
    obtain ⟨text, htext, rfl⟩ := Option.map_eq_some_iff.mp htoken
    have hdot : '.' ∉ natText t := fun hmem => by cases isDigit_of_mem_natText hmem
    have hplain := plain_payload data
    have hback : loads id (ofText (text.map Char.ofNat)) = some (payload data) := by
      rw [ofText_map_ofNat (hplain.dumps_ascii false text htext)]
      exact loads_dumps id false hplain htext
    have hstamp : Nat.ofDigitChars 10 (natText t) 0 = t := Nat.ofDigitChars_ten_toDigits
    simp only [plainSerializer, splitOnce_singleton hdot, hstamp, hback]

def oneRole : Settings := ⟨⟨{ofString "net"}, ∅, ∅⟩, 3600⟩

/-- A login, a request a minute later and one after the hour. -/
def oneLogin : List Action :=
  let all := fun _ => true
  [.login 1000 "s1".toList,
    .callback 1010 all "s1".toList (some ⟨some "alice@corp", .arr [.str (ofString "net")]⟩) "c1".toList,
    .request 1070 all .read, .request 1070 all (.edit none), .request 4611 all .read]

theorem answers_from_table_oneLogin :
    (Machine.run (step plainSerializer oneRole) initial oneLogin).answers =
      [.redirect, .redirect, .served (userOf (.str (ofString "alice@corp")) {"viewer"}),
        .csrfMismatch, .unauthenticated] :=
  (answers_from_table plainSerializer lawful_plainSerializer oneRole oneLogin
    (by simp [oneLogin, Proper]; decide)).trans rfl

end FlowDiscovery.Sessions
