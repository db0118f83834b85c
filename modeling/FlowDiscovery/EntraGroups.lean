import FlowDiscovery.LinkedPages
import FlowDiscovery.PyJson

/-!
# Group memberships from Entra

The sync follows the links of Graph twice: over the users of the tenant, and for each user
over its memberships, each time with a token of its own. It returns all rows or, after an
exception anywhere, none. Graph is taken to answer alike for as long as the sync runs: the
same request gets the same answer.
-/
namespace FlowDiscovery.EntraGroups
open PyText PyJson LinkedPages

structure GroupUpsert where
  userUpn : Json
  groupId : Json
  groupName : Json
  groupSource : String

/-- What Graph answers during a sync: `_token` when `sync_all` calls it and when
`sync_user` does for a user, and the body of a `GET` with a token. A call that raises is
`none`. -/
structure Graph where
  token : Option Json → Option Text
  get : Text → PyStr → Option Json

/-- The values that `for` takes from a decoded value. -/
def elements : Json → Option (List Json)
  | .arr items => some items
  | .str s => some (s.map fun c => .str [c])
  | .obj fields => some (fields.map fun field => .str field.1)
  | .null | .bool _ | .int _ | .float _ => none

/-- `body.get("@odata.nextLink")` as the condition of the loop and the next address. -/
def nextLink (body : List (PyStr × Json)) : Next PyStr :=
  match (Json.member body "@odata.nextLink").filter Json.truthy with
  | none => .last
  | some (.str url) => .more url
  | some _ => .broken

def pageOf : Json → Option (Page PyStr Json)
  | .obj body =>
    (elements ((Json.member body "value").getD (.arr []))).map fun items => ⟨items, nextLink body⟩
  | _ => none

/-- `g.get("@odata.type") == "#microsoft.graph.group"`. -/
def isGroup (g : List (PyStr × Json)) : Bool :=
  match Json.member g "@odata.type" with
  | some (.str s) => s = ofString "#microsoft.graph.group"
  | _ => false

/-- The body of the loop over the memberships of a user. -/
def membership (userUpn : Json) : Json → Option (List GroupUpsert)
  | .obj g =>
    if isGroup g then
      (Json.member g "id").map fun id =>
        [⟨userUpn, id, ((Json.member g "displayName").filter Json.truthy).getD id, "entra"⟩]
    else some []
  | _ => none

def graphUrl : String := "https://graph.microsoft.com/v1.0"

def usersUrl : PyStr := ofString (graphUrl ++ "/users?$select=userPrincipalName")

section

/- `str` of a principal name in an f-string. -/
variable (str : Json → PyStr) (graph : Graph)

def memberUrl (userUpn : Json) : PyStr :=
  ofString (graphUrl ++ "/users/") ++ str userUpn ++ ofString "/transitiveMemberOf"

def page (token : Text) (url : PyStr) : Option (Page PyStr Json) := graph.get token url >>= pageOf

def syncUser (fuel : ℕ) (userUpn : Json) : Outcome GroupUpsert :=
  match graph.token (some userUpn) with
  | none => some none
  | some token =>
    readPages (page graph token) (fun _ g => some (membership userUpn g)) fuel
      (memberUrl str userUpn) []

/-- The body of the loop over the users. -/
def memberships (fuel : ℕ) : Json → Outcome GroupUpsert
  | .obj u =>
    match (Json.member u "userPrincipalName").filter Json.truthy with
    | none => some (some [])
    | some upn => syncUser str graph fuel upn
  | _ => some none

def syncAll (fuel : ℕ) : Outcome GroupUpsert :=
  match graph.token none with
  | none => some none
  | some token => readPages (page graph token) (memberships str graph) fuel usersUrl []

/-! ## What is returned -/

/-- The rows of a user that gets a token and whose pages are all served with it, with an
identifier in every group. -/
def RowsOf (userUpn : Json) (rows : List GroupUpsert) : Prop :=
  ∃ token pages parts, graph.token (some userUpn) = some token ∧
    Serves (page graph token) (memberUrl str userUpn) pages ∧
    List.Forall₂ (fun g part => membership userUpn g = some part) pages.flatten parts ∧
    rows = parts.flatten

/-- What an entry of the users gives: nothing without a principal name. -/
inductive Gives : Json → List GroupUpsert → Prop
  | nameless {u : List (PyStr × Json)}
      (h : (Json.member u "userPrincipalName").filter Json.truthy = none) : Gives (.obj u) []
  | named {u : List (PyStr × Json)} {upn : Json} {rows : List GroupUpsert}
      (h : (Json.member u "userPrincipalName").filter Json.truthy = some upn)
      (hrows : RowsOf str graph upn rows) : Gives (.obj u) rows

variable {str graph}

lemma syncUser_steady (userUpn : Json) : Steady fun n => syncUser str graph n userUpn := by
  unfold syncUser
  cases graph.token (some userUpn) with
  | none => exact steady_const _
  | some token => exact readPages_steady (fun g => steady_const (some (membership userUpn g))) _ _

lemma memberships_of_nameless {u : List (PyStr × Json)}
    (h : (Json.member u "userPrincipalName").filter Json.truthy = none) (fuel : ℕ) :
    memberships str graph fuel (.obj u) = some (some []) := by
  rw [memberships, h]

lemma memberships_of_named {u : List (PyStr × Json)} {upn : Json}
    (h : (Json.member u "userPrincipalName").filter Json.truthy = some upn) (fuel : ℕ) :
    memberships str graph fuel (.obj u) = syncUser str graph fuel upn := by
  rw [memberships, h]

lemma memberships_steady (user : Json) : Steady fun n => memberships str graph n user := by
  cases user with
  | obj u =>
    cases hupn : (Json.member u "userPrincipalName").filter Json.truthy with
    | none =>
      simp only [memberships_of_nameless hupn]
      exact steady_const _
    | some upn =>
      simp only [memberships_of_named hupn]
      exact syncUser_steady upn
  | _ => exact steady_const _

theorem syncUser_reads_iff (userUpn : Json) (rows : List GroupUpsert) :
    Reads (fun n => syncUser str graph n userUpn) rows ↔ RowsOf str graph userUpn rows := by
  cases htoken : graph.token (some userUpn) with
  | none =>
    refine iff_of_false ?_ ?_
    · rintro ⟨fuel, h⟩
      simp only [syncUser, htoken] at h
      cases h
    · rintro ⟨token, _, _, h, -⟩
      exact nomatch htoken.symm.trans h
  | some token =>
    have hreads : Reads (fun n => readPages (page graph token)
        (fun _ g => some (membership userUpn g)) n (memberUrl str userUpn) []) rows ↔ _ :=
      reads_pages_iff (fun g => steady_const (some (membership userUpn g))) _ rows
    simp only [syncUser, RowsOf, htoken, hreads, reads_const_iff, Option.some.injEq,
      exists_and_left, exists_eq_left']

lemma memberships_reads_iff (user : Json) (rows : List GroupUpsert) :
    Reads (fun n => memberships str graph n user) rows ↔ Gives str graph user rows := by
  cases user with
  | obj u =>
    cases hupn : (Json.member u "userPrincipalName").filter Json.truthy with
    | none =>
      simp only [memberships_of_nameless hupn, reads_const_iff, Option.some.injEq]
      constructor
      · rintro rfl
        exact .nameless hupn
      · intro h
        cases h with
        | nameless => rfl
        | named h => cases hupn.symm.trans h
    | some upn =>
      simp only [memberships_of_named hupn, syncUser_reads_iff]
      constructor
      · exact .named hupn
      · intro h
        cases h with
        | nameless h => cases hupn.symm.trans h
        | named h hrows =>
          obtain rfl := Option.some.inj (hupn.symm.trans h)
          exact hrows
  | _ =>
    refine iff_of_false ?_ nofun
    rintro ⟨fuel, h⟩
    cases h

/-- The sync returns rows exactly if the pages of the users are served up to a last one and
so are those of each named user, which gets a token as well, all with what is needed of
them; the rows are those of the users in order. -/
theorem syncAll_returns_iff (str : Json → PyStr) (graph : Graph) (rows : List GroupUpsert) :
    (∃ fuel, syncAll str graph fuel = some (some rows)) ↔
      ∃ token pages parts, graph.token none = some token ∧
        Serves (page graph token) usersUrl pages ∧
        List.Forall₂ (Gives str graph) pages.flatten parts ∧ rows = parts.flatten := by
  cases htoken : graph.token none with
  | none =>
    refine iff_of_false ?_ ?_
    · rintro ⟨fuel, h⟩
      rw [syncAll, htoken] at h
      cases h
    · rintro ⟨token, pages, parts, h, -⟩
      cases h
  | some token =>
    have hreads : Reads (fun n => readPages (page graph token) (memberships str graph) n usersUrl
        []) rows ↔ _ := reads_pages_iff memberships_steady usersUrl rows
    simp only [memberships_reads_iff] at hreads
    simp only [syncAll, htoken, Option.some.injEq, exists_and_left, exists_eq_left']
    exact hreads.trans (by simp only [exists_and_left])

end

end FlowDiscovery.EntraGroups
