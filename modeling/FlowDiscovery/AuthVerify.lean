import FlowDiscovery.Applications
import Mathlib.Data.String.Basic

/-!
# Admin-only consoles

Traefik asks `/auth/verify` before it serves a router with the middleware
`oidc-verify`. There are two of them, the dashboard under `/traefik` and Grafana
under `/grafana`, and the operations guide has both for admins. `verify` looks for
the first prefix only: under `/grafana` it answers 200 to whoever has a name and
roles that can be sent back in headers.
-/
namespace FlowDiscovery.AuthVerify
open PyText PyJson WsSankey Applications

/-! ## The endpoint -/

/-- Whatever `verify` raises other than an `HTTPException` is answered with 500. -/
inductive Answer where
  | ok (xUser xRoles : PyStr)
  | refused (failure : Failure)
  | forbidden (detail : String)
  | serverError
  deriving DecidableEq

/-- The encoding of a header by the response class. -/
def latin1 (s : PyStr) : Option PyStr := if ∀ c ∈ s, c < 256 then some s else none

/-- The value of `X-User`; what is no text cannot be encoded. -/
def userHeader : UserValue → Option PyStr
  | .value (.str s) => latin1 s
  | _ => none

def joinRoles (roles : Finset String) : PyStr :=
  ofString (String.intercalate "," (roles.sort (· ≤ ·)))

/-- The value of `X-Roles`. -/
def rolesHeader : UserValue → Option PyStr
  | .roles names => latin1 (joinRoles names)
  | .value _ => none

/-- The two headers; a missing key raises as well. -/
def responseHeaders (user : User) : Option (PyStr × PyStr) := do
  let xUser ← (user.get? "user_upn").bind userHeader
  let xRoles ← (user.get? "roles").bind rolesHeader
  return (xUser, xRoles)

/-- The header `x-forwarded-uri` is empty when missing. -/
def verify (auth : Auth) (request : Request) (forwardedUri : Text) : Answer :=
  match currentUser auth request with
  | .error failure => .refused failure
  | .ok user =>
    if "/traefik".toList.isPrefixOf forwardedUri ∧ "admin" ∉ rolesOf user then
      .forbidden "admin role required for /traefik"
    else
      match responseHeaders user with
      | some (xUser, xRoles) => .ok xUser xRoles
      | none => .serverError

/-! ## The property -/

/-- A path of one of the routers with the middleware. -/
def AdminConsole (uri : Text) : Prop :=
  "/traefik".toList <+: uri ∨ "/grafana".toList <+: uri

/-- The groups of a bearer meet those of the role; a session lists its roles. -/
def IsAdmin (mapping : RoleMap) : Credential → Prop
  | .bearer _ groups => (groups ∩ mapping.admin).Nonempty
  | .session data => "admin" ∈ data.roles

/-- A request for a console is let through for an admin only. -/
def AdminOnly (auth : Auth) (request : Request) (uri : Text) : Prop :=
  AdminConsole uri → ∀ xUser xRoles, verify auth request uri = .ok xUser xRoles →
    ∃ c, Presents auth request c ∧ IsAdmin auth.roleMap c

/-- The caller's name is a text, and name and roles have no characters past Latin-1. -/
structure Sendable (mapping : RoleMap) (c : Credential) : Prop where
  name : ∃ s, c.upn = .str s ∧ ∀ ch ∈ s, ch < 256
  roles : ∀ ch ∈ joinRoles (c.roles mapping), ch < 256

/-- A request for Grafana of somebody who is no admin and can be named in headers. -/
structure Exposed (auth : Auth) (request : Request) (uri : Text) (c : Credential) : Prop where
  grafana : "/grafana".toList <+: uri
  presents : Presents auth request c
  sendable : Sendable auth.roleMap c
  notAdmin : ¬ IsAdmin auth.roleMap c

/-! ## Roles and headers -/

/-- A request has one credential. -/
lemma presents_unique {auth : Auth} {request : Request} {c c' : Credential}
    (h : Presents auth request c) (h' : Presents auth request c') : c = c' := by
  cases h with
  | bearer hheader htoken hclaims hgroups =>
    cases h' with
    | bearer _ htoken' hclaims' hgroups' =>
      rw [htoken, Option.some.injEq] at htoken'
      subst htoken'
      rw [hclaims, Option.some.injEq] at hclaims'
      subst hclaims'
      rw [hgroups, Option.some.injEq] at hgroups'
      rw [hgroups']
    | session hheader' => exact absurd (hheader.symm.trans hheader') (by decide)
  | session hheader hcookie _ hdata =>
    cases h' with
    | bearer hheader' => exact absurd (hheader'.symm.trans hheader) (by decide)
    | session _ hcookie' _ hdata' =>
      rw [hcookie, Option.some.injEq] at hcookie'
      subst hcookie'
      rw [hdata, Option.some.injEq] at hdata'
      rw [hdata']

/-- Among the groups only those of `admin` give the role. -/
lemma admin_mem_rolesFromGroups (groups : Finset PyStr) (mapping : RoleMap) :
    "admin" ∈ rolesFromGroups groups mapping ↔ (groups ∩ mapping.admin).Nonempty := by
  unfold rolesFromGroups
  split_ifs with hadmin
  all_goals simp [hadmin]

lemma admin_mem_roles_iff (mapping : RoleMap) (c : Credential) :
    "admin" ∈ c.roles mapping ↔ IsAdmin mapping c := by
  cases c with
  | bearer claims groups => exact admin_mem_rolesFromGroups groups mapping
  | session data => exact Iff.rfl

@[simp] lemma get?_userOf_userUpn (upn : Json) (roles : Finset String) :
    (userOf upn roles).get? "user_upn" = some (.value upn) := by
  rw [userOf, Dict.get?_set, Dict.get?_set]
  rfl

@[simp] lemma get?_userOf_roles (upn : Json) (roles : Finset String) :
    (userOf upn roles).get? "roles" = some (.roles roles) := by
  rw [userOf, Dict.get?_set, if_pos rfl]

lemma rolesOf_userOf (upn : Json) (roles : Finset String) :
    rolesOf (userOf upn roles) = roles := by
  rw [rolesOf, get?_userOf_roles]

lemma latin1_isSome_iff (s : PyStr) : (latin1 s).isSome ↔ ∀ c ∈ s, c < 256 := by
  unfold latin1
  split_ifs with h
  · exact iff_of_true rfl h
  · exact iff_of_false nofun h

lemma userHeader_isSome_iff (upn : Json) :
    (userHeader (.value upn)).isSome ↔ ∃ s, upn = .str s ∧ ∀ ch ∈ s, ch < 256 := by
  cases upn with
  | str s => simp [userHeader, latin1_isSome_iff]
  | _ => simp [userHeader]

/-- The headers can be set exactly for a credential that can be sent. -/
lemma responseHeaders_isSome_iff (mapping : RoleMap) (c : Credential) :
    (responseHeaders (userOf c.upn (c.roles mapping))).isSome ↔ Sendable mapping c := by
  have hsome : (responseHeaders (userOf c.upn (c.roles mapping))).isSome ↔
      (userHeader (.value c.upn)).isSome ∧ (rolesHeader (.roles (c.roles mapping))).isSome := by
    simp only [responseHeaders, get?_userOf_userUpn, get?_userOf_roles, Option.bind_some]
    cases userHeader (.value c.upn) <;> cases rolesHeader (.roles (c.roles mapping)) <;> simp
  rw [hsome, userHeader_isSome_iff, rolesHeader, latin1_isSome_iff]
  exact ⟨fun h => ⟨h.1, h.2⟩, fun h => ⟨h.name, h.roles⟩⟩

/-! ## Who is let through -/

/-- Exactly when `verify` answers 200. -/
lemma verify_ok_iff (auth : Auth) (request : Request) (uri : Text) :
    (∃ xUser xRoles, verify auth request uri = .ok xUser xRoles) ↔
      ∃ c, Presents auth request c ∧ Sendable auth.roleMap c ∧
        ("/traefik".toList <+: uri → IsAdmin auth.roleMap c) := by
  constructor
  · rintro ⟨xUser, xRoles, h⟩
    unfold verify at h
    cases huser : currentUser auth request with
    | error failure =>
      rw [huser] at h
      cases h
    | ok user =>
      obtain ⟨c, hc, rfl⟩ := (currentUser_eq_ok_iff auth request user).mp huser
      rw [huser] at h
      dsimp only at h
      split_ifs at h with hforbidden
      rw [rolesOf_userOf, admin_mem_roles_iff, List.isPrefixOf_iff_prefix, not_and_not_right]
        at hforbidden
      refine ⟨c, hc, (responseHeaders_isSome_iff auth.roleMap c).mp ?_, hforbidden⟩
      cases hheaders : responseHeaders (userOf c.upn (c.roles auth.roleMap)) with
      | none =>
        rw [hheaders] at h
        cases h
      | some headers => rfl
  · rintro ⟨c, hc, hsendable, hadmin⟩
    have huser := (currentUser_eq_ok_iff auth request _).mpr ⟨c, hc, rfl⟩
    obtain ⟨⟨xUser, xRoles⟩, hheaders⟩ :=
      Option.isSome_iff_exists.mp ((responseHeaders_isSome_iff auth.roleMap c).mpr hsendable)
    refine ⟨xUser, xRoles, ?_⟩
    have hallowed : ¬ ("/traefik".toList.isPrefixOf uri ∧
        "admin" ∉ rolesOf (userOf c.upn (c.roles auth.roleMap))) := by
      rwa [rolesOf_userOf, admin_mem_roles_iff, List.isPrefixOf_iff_prefix, not_and_not_right]
    simp only [verify, huser, if_neg hallowed, hheaders]

/-- The prefixes exclude each other. -/
lemma not_traefik_of_grafana {uri : Text} (h : "/grafana".toList <+: uri) :
    ¬ "/traefik".toList <+: uri := by
  intro h'
  have hsame := List.prefix_of_prefix_length_le h h' (by decide)
  revert hsame
  decide

/-- For every directory, request and URI: a console is open to admins only if and only
if the request is not one for Grafana of a caller who is no admin and whose name and
roles fit into the headers. -/
theorem verify_adminOnly_iff (auth : Auth) (request : Request) (uri : Text) :
    AdminOnly auth request uri ↔ ∀ c, ¬ Exposed auth request uri c := by
  constructor
  · intro h c hexposed
    have hok := (verify_ok_iff auth request uri).mpr ⟨c, hexposed.presents, hexposed.sendable,
      fun htraefik => absurd htraefik (not_traefik_of_grafana hexposed.grafana)⟩
    obtain ⟨xUser, xRoles, hverify⟩ := hok
    obtain ⟨c', hc', hadmin⟩ := h (.inr hexposed.grafana) xUser xRoles hverify
    rw [presents_unique hc' hexposed.presents] at hadmin
    exact hexposed.notAdmin hadmin
  · intro h hconsole xUser xRoles hverify
    obtain ⟨c, hc, hsendable, hadmin⟩ := (verify_ok_iff auth request uri).mp ⟨_, _, hverify⟩
    refine ⟨c, hc, ?_⟩
    rcases hconsole with htraefik | hgrafana
    · exact hadmin htraefik
    · by_contra hnot
      exact h c ⟨hgrafana, hc, hsendable, hnot⟩

/-- A viewer with a session. -/
def viewerAuth : Auth where
  verifyJwt _ := none
  decodeSession cookie :=
    if cookie = "signed".toList then some ⟨"bob@corp", {"viewer"}⟩ else none
  roleMap := ⟨∅, ∅, ∅⟩

/-- The viewer is kept from the dashboard and let through to Grafana. -/
theorem viewer_reaches_grafana :
    verify viewerAuth sessionRequest "/traefik/".toList =
        .forbidden "admin role required for /traefik" ∧
      verify viewerAuth sessionRequest "/grafana/".toList =
        .ok (ofString "bob@corp") (ofString "viewer") ∧
      ¬ AdminOnly viewerAuth sessionRequest "/grafana/".toList := by
  have hok : verify viewerAuth sessionRequest "/grafana/".toList =
      .ok (ofString "bob@corp") (ofString "viewer") := by decide +kernel
  refine ⟨by decide +kernel, hok, fun h => ?_⟩
  have hconsole : AdminConsole "/grafana/".toList := .inr (by decide)
  obtain ⟨c, hc, hadmin⟩ := h hconsole _ _ hok
  have hviewer : Presents viewerAuth sessionRequest (.session ⟨"bob@corp", {"viewer"}⟩) :=
    .session (by decide) rfl (by decide) rfl
  rw [presents_unique hc hviewer] at hadmin
  exact absurd hadmin (by simp [IsAdmin])

end FlowDiscovery.AuthVerify
