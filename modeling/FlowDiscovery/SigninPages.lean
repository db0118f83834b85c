import FlowDiscovery.EntraSignin
import FlowDiscovery.PyJson

/-!
# Malformed items in the sign-in log

The items of a page are what JSON makes of them. The conversion of an item stands
inside the loop over the pages, and an exception in it is caught around the whole poll
only. So a poll ends at the first item that raises, its position stays where it was,
and the next poll meets the same item again.
-/
namespace FlowDiscovery.SigninPages
open PyText PyTime PyIpaddress PyJson

/-! ## Items -/

/-- The event of an item; the address and the user have been checked for truth only. -/
structure SigninEvent where
  ts : Instant
  srcIp : Json
  userUpn : Json
  confidence : ℤ
  ttlSeconds : ℤ
  rawId : Option Json

inductive Verdict where
  | skip
  | raises
  | event (ev : SigninEvent)

/-- `ip_address(ip)`. A boolean counts as an integer, and the string of no other value is
an address. -/
def addressOf : Json → Option Address
  | .str s => ipAddress (s.map Char.ofNat)
  | .int n => ipAddressOfInt n
  | .bool b => ipAddressOfInt (if b then 1 else 0)
  | .null | .float _ | .arr _ | .obj _ => none

/-- `_confidence`. -/
def confidence (cidrs : List Network) (ip : Json) : ℤ :=
  match addressOf ip with
  | none => EntraSignin.confOut
  | some addr =>
    if cidrs.any fun c => c.contains addr then EntraSignin.confIn else EntraSignin.confOut

/-- `value == 0`. -/
def equalsZero : Json → Bool
  | .int n => n = 0
  | .bool b => !b
  | .float repr => repr = "0.0".toList ∨ repr = "-0.0".toList
  | .null | .str _ | .arr _ | .obj _ => false

/-- `item.get("status", {}).get("errorCode")`; an exception where the status has no
members. -/
def errorCode (members : List (PyStr × Json)) : Option (Option Json) :=
  match Json.member members "status" with
  | none => some none
  | some (.obj status) => some (Json.member status "errorCode")
  | some _ => none

/-- A member that counts as true. -/
def truthyMember (members : List (PyStr × Json)) (name : String) : Option Json :=
  (Json.member members name).filter Json.truthy

section

/- `datetime.fromisoformat`, whose `ValueError` is `none`. -/
variable (fromisoformat : PyStr → Option Instant)

/-- `datetime.fromisoformat(item["createdDateTime"].replace("Z", "+00:00"))`. -/
def createdDateTime (members : List (PyStr × Json)) : Option Instant :=
  match Json.member members "createdDateTime" with
  | some (.str s) => fromisoformat (replaceZ s)
  | _ => none

/-- The body of the loop over a page up to its `yield`. -/
def judge (cidrs : List Network) : Json → Verdict
  | .obj members =>
    match errorCode members with
    | none => .raises
    | some code =>
      if code.any equalsZero then
        match truthyMember members "ipAddress", truthyMember members "userPrincipalName" with
        | some ip, some upn =>
          match createdDateTime fromisoformat members with
          | none => .raises
          | some ts => .event {
              ts := ts
              srcIp := ip
              userUpn := upn
              confidence := confidence cidrs ip
              ttlSeconds := EntraSignin.ttlS
              rawId := Json.member members "id" }
        | _, _ => .skip
      else .skip
  | _ => .raises

/-- The exception that ends the poll: no object, a status without members, or a
successful sign-in whose time is missing, no string or no timestamp. -/
def Malformed : Json → Prop
  | .obj members =>
    match errorCode members with
    | none => True
    | some code => code.any equalsZero ∧ (truthyMember members "ipAddress").isSome ∧
        (truthyMember members "userPrincipalName").isSome ∧
        createdDateTime fromisoformat members = none
  | _ => True

/-- A successful sign-in with an address, a user and a time. -/
structure WellFormed (item : Json) (ip upn : PyStr) (ts : Instant) : Prop where
  members : ∃ members status created, item = .obj members ∧
    Json.member members "status" = some (.obj status) ∧
    Json.member status "errorCode" = some (.int 0) ∧
    Json.member members "ipAddress" = some (.str ip) ∧
    Json.member members "userPrincipalName" = some (.str upn) ∧
    Json.member members "createdDateTime" = some (.str created) ∧
    fromisoformat (replaceZ created) = some ts
  ip_ne : ip ≠ []
  upn_ne : upn ≠ []

variable {fromisoformat}

theorem judge_raises_iff (cidrs : List Network) (item : Json) :
    judge fromisoformat cidrs item = .raises ↔ Malformed fromisoformat item := by
  cases item with
  | obj members =>
    cases hcode : errorCode members with
    | none => simp [judge, Malformed, hcode]
    | some code =>
      cases hzero : code.any equalsZero with
      | false => simp [judge, Malformed, hcode, hzero]
      | true =>
        cases hip : truthyMember members "ipAddress" with
        | none => simp [judge, Malformed, hcode, hzero, hip]
        | some ip =>
          cases hupn : truthyMember members "userPrincipalName" with
          | none => simp [judge, Malformed, hcode, hzero, hip, hupn]
          | some upn =>
            cases hts : createdDateTime fromisoformat members <;>
              simp [judge, Malformed, hcode, hzero, hip, hupn, hts]
  | _ => simp [judge, Malformed]

theorem judge_wellFormed {item : Json} {ip upn : PyStr} {ts : Instant}
    (h : WellFormed fromisoformat item ip upn ts) (cidrs : List Network) :
    ∃ ev, judge fromisoformat cidrs item = .event ev ∧ ev.srcIp = .str ip ∧
      ev.userUpn = .str upn ∧ ev.ts = ts := by
  obtain ⟨members, status, created, rfl, hstatus, hcode, hip, hupn, hcreated, hts⟩ := h.members
  have hip' : truthyMember members "ipAddress" = some (.str ip) := by
    simp [truthyMember, hip, Json.truthy, h.ip_ne]
  have hupn' : truthyMember members "userPrincipalName" = some (.str upn) := by
    simp [truthyMember, hupn, Json.truthy, h.upn_ne]
  unfold judge
  simp only [errorCode, hstatus, hcode, Option.any_some, equalsZero, decide_true, if_true, hip',
    hupn', createdDateTime, hcreated, hts]
  exact ⟨_, rfl, rfl, rfl, rfl⟩

end

/-! ## Polls -/

/-- An `@odata` link. -/
abbrev Link := String

/-- The pages that one poll can see: each but the last one has a link to the next page,
and the last one has a delta link. -/
structure Pages where
  before : List (List Json)
  last : List Json
  deltaLink : Link

/-- All items in the order in which a poll reads them. -/
def Pages.items (pages : Pages) : List Json := pages.before.flatten ++ pages.last

/-- `stored` records the delta links that were assigned to `_delta_link`. -/
structure State where
  deltaLink : Option Link
  yielded : List SigninEvent
  stored : List Link

section

variable (fromisoformat : PyStr → Option Instant) (cidrs : List Network)

/-- The loop over the items of one page: the events it yields, and whether an item
raises. -/
def scan : List Json → List SigninEvent × Bool
  | [] => ([], false)
  | item :: rest =>
    match judge fromisoformat cidrs item with
    | .skip => scan rest
    | .raises => ([], true)
    | .event ev => (ev :: (scan rest).1, (scan rest).2)

/-- The loop over the pages with a link to the next one. -/
def walk : List (List Json) → List SigninEvent × Bool
  | [] => ([], false)
  | page :: rest =>
    let (events, raised) := scan fromisoformat cidrs page
    if raised then (events, true) else (events ++ (walk rest).1, (walk rest).2)

/-- One cycle of `run` on the pages behind the stored link. An exception ends the poll
and is logged; the position is stored behind the last item of the last page. -/
def pollCycle (server : Option Link → Pages) (s : State) : State :=
  let pages := server s.deltaLink
  let (events, raised) := walk fromisoformat cidrs pages.before
  if raised then { s with yielded := s.yielded ++ events }
  else
    let (lastEvents, raised) := scan fromisoformat cidrs pages.last
    let yielded := s.yielded ++ events ++ lastEvents
    if raised then { s with yielded := yielded }
    else ⟨some pages.deltaLink, yielded, s.stored ++ [pages.deltaLink]⟩

/-- The state after so many cycles. -/
def cycles (server : Option Link → Pages) (s : State) (n : ℕ) : State :=
  (pollCycle fromisoformat cidrs server)^[n] s

/-- Some number of cycles yields every well-formed item of the pages and stores their
delta link. -/
def Delivered (server : Option Link → Pages) (s : State) : Prop :=
  ∃ n,
    (∀ item ∈ (server s.deltaLink).items, ∀ ip upn ts, WellFormed fromisoformat item ip upn ts →
      ∃ ev ∈ (cycles fromisoformat cidrs server s n).yielded,
        ev.srcIp = .str ip ∧ ev.userUpn = .str upn ∧ ev.ts = ts) ∧
    ∃ new, (cycles fromisoformat cidrs server s n).stored = s.stored ++ new ∧
      (server s.deltaLink).deltaLink ∈ new

variable {fromisoformat}

lemma scan_raised_iff (items : List Json) :
    (scan fromisoformat cidrs items).2 = true ↔ ∃ item ∈ items, Malformed fromisoformat item := by
  induction items with
  | nil => simp [scan]
  | cons item rest ih =>
    have hiff : judge fromisoformat cidrs item = .raises ↔ Malformed fromisoformat item :=
      judge_raises_iff cidrs item
    rw [List.exists_mem_cons_iff, ← hiff, ← ih, scan]
    cases judge fromisoformat cidrs item <;> simp

/-- A list in which nothing raises yields every event. -/
lemma mem_scan {items : List Json} (h : (scan fromisoformat cidrs items).2 = false) {item : Json}
    (hitem : item ∈ items) {ev : SigninEvent} (hev : judge fromisoformat cidrs item = .event ev) :
    ev ∈ (scan fromisoformat cidrs items).1 := by
  induction items with
  | nil => cases hitem
  | cons first rest ih =>
    rw [scan] at h ⊢
    rcases List.mem_cons.mp hitem with rfl | hrest
    · rw [hev]
      exact List.mem_cons_self
    · cases hfirst : judge fromisoformat cidrs first with
      | skip =>
        rw [hfirst] at h
        exact ih h hrest
      | raises =>
        rw [hfirst] at h
        cases h
      | event other =>
        rw [hfirst] at h
        exact List.mem_cons_of_mem _ (ih h hrest)

lemma scan_append (items more : List Json) :
    scan fromisoformat cidrs (items ++ more) =
      if (scan fromisoformat cidrs items).2 then scan fromisoformat cidrs items
      else ((scan fromisoformat cidrs items).1 ++ (scan fromisoformat cidrs more).1,
        (scan fromisoformat cidrs more).2) := by
  induction items with
  | nil => simp [scan]
  | cons item rest ih =>
    rw [List.cons_append, scan, scan, ih]
    cases judge fromisoformat cidrs item with
    | skip => rfl
    | raises => rfl
    | event ev => cases hraised : (scan fromisoformat cidrs rest).2 <;> simp [hraised]

lemma walk_eq_scan (pages : List (List Json)) :
    walk fromisoformat cidrs pages = scan fromisoformat cidrs pages.flatten := by
  induction pages with
  | nil => rfl
  | cons page rest ih =>
    rw [List.flatten_cons, scan_append, walk, ih]
    rcases hscan : scan fromisoformat cidrs page with ⟨events, raised⟩
    cases raised <;> rfl

/-- A cycle reads the pages as one list of items. -/
lemma pollCycle_eq (server : Option Link → Pages) (s : State) {events : List SigninEvent}
    {raised : Bool} (h : scan fromisoformat cidrs (server s.deltaLink).items = (events, raised)) :
    pollCycle fromisoformat cidrs server s =
      if raised then { s with yielded := s.yielded ++ events }
      else ⟨some (server s.deltaLink).deltaLink, s.yielded ++ events,
        s.stored ++ [(server s.deltaLink).deltaLink]⟩ := by
  rw [Pages.items, scan_append] at h
  unfold pollCycle
  dsimp only
  rw [walk_eq_scan]
  rcases hbefore : scan fromisoformat cidrs (server s.deltaLink).before.flatten with ⟨front, b⟩
  rw [hbefore] at h
  cases b with
  | true =>
    obtain ⟨rfl, rfl⟩ := Prod.mk.inj h
    rfl
  | false =>
    obtain ⟨rfl, rfl⟩ := Prod.mk.inj h
    simp only [Bool.false_eq_true, if_false, List.append_assoc]

/-- As long as an item raises, the position stays where it is and no item behind that
one is yielded. -/
lemma cycles_stuck {server : Option Link → Pages} {s : State} {events : List SigninEvent}
    (h : scan fromisoformat cidrs (server s.deltaLink).items = (events, true)) (n : ℕ) :
    (cycles fromisoformat cidrs server s n).deltaLink = s.deltaLink ∧
      (cycles fromisoformat cidrs server s n).stored = s.stored ∧
      ∀ ev ∈ (cycles fromisoformat cidrs server s n).yielded, ev ∈ s.yielded ∨ ev ∈ events := by
  induction n with
  | zero => exact ⟨rfl, rfl, fun ev hev => .inl hev⟩
  | succ n ih =>
    obtain ⟨hlink, hstored, hyielded⟩ := ih
    rw [← hlink] at h
    have hcycle : cycles fromisoformat cidrs server s (n + 1) =
        { cycles fromisoformat cidrs server s n with
          yielded := (cycles fromisoformat cidrs server s n).yielded ++ events } := by
      rw [cycles, Function.iterate_succ_apply']
      exact pollCycle_eq cidrs server _ h
    rw [hcycle]
    refine ⟨hlink, hstored, fun ev hev => ?_⟩
    rcases List.mem_append.mp hev with hev | hev
    · exact hyielded ev hev
    · exact .inr hev

/-- The items of the pages are all delivered if and only if none of them is malformed. -/
theorem delivered_iff_none_malformed (fromisoformat : PyStr → Option Instant)
    (cidrs : List Network) (server : Option Link → Pages) (s : State) :
    Delivered fromisoformat cidrs server s ↔
      ∀ item ∈ (server s.deltaLink).items, ¬ Malformed fromisoformat item := by
  rcases hscan : scan fromisoformat cidrs (server s.deltaLink).items with ⟨events, raised⟩
  have hiff : (scan fromisoformat cidrs (server s.deltaLink).items).2 = true ↔
      ∃ item ∈ (server s.deltaLink).items, Malformed fromisoformat item :=
    scan_raised_iff cidrs _
  rw [hscan] at hiff
  cases raised with
  | true =>
    obtain ⟨item, hitem, hmalformed⟩ := hiff.mp rfl
    refine iff_of_false ?_ fun hnone => hnone item hitem hmalformed
    rintro ⟨n, _, new, hstored, hnew⟩
    rw [(cycles_stuck cidrs hscan n).2.1] at hstored
    rw [List.self_eq_append_right.mp hstored] at hnew
    cases hnew
  | false =>
    refine iff_of_true ?_ fun item hitem hmalformed => ?_
    · have hcycle : cycles fromisoformat cidrs server s 1 =
          ⟨some (server s.deltaLink).deltaLink, s.yielded ++ events,
            s.stored ++ [(server s.deltaLink).deltaLink]⟩ := pollCycle_eq cidrs server s hscan
      refine ⟨1, ?_, [(server s.deltaLink).deltaLink], by rw [hcycle], List.mem_singleton_self _⟩
      intro item hitem ip upn ts hwell
      obtain ⟨ev, hev, hfields⟩ := judge_wellFormed hwell cidrs
      have hmem := mem_scan cidrs (by rw [hscan]) hitem hev
      rw [hscan] at hmem
      rw [hcycle]
      exact ⟨ev, List.mem_append_right _ hmem, hfields⟩
    · cases hiff.mpr ⟨item, hitem, hmalformed⟩

end

/-! One item without a time on the first of two pages. -/

def signinItem (upn : String) (created : List (PyStr × Json)) : Json :=
  .obj ([(ofString "status", .obj [(ofString "errorCode", .int 0)]),
    (ofString "ipAddress", .str (ofString "10.1.2.3")),
    (ofString "userPrincipalName", .str (ofString upn))] ++ created)

def timed : List (PyStr × Json) :=
  [(ofString "createdDateTime", .str (ofString "2026-04-22T12:00:00Z"))]

def twoPages : Pages where
  before := [[signinItem "alice@corp.example" timed, signinItem "bob@corp.example" []]]
  last := [signinItem "carol@corp.example" timed]
  deltaLink := "https://graph.microsoft.com/v1.0/auditLogs/signIns?$deltatoken=1"

/-- `datetime.fromisoformat` on the one text above. -/
def fromisoformatNoon (s : PyStr) : Option Instant :=
  if s = ofString "2026-04-22T12:00:00+00:00" then some 1776859200000000 else none

def firstPoll : State := ⟨none, [], []⟩

/-- After any number of cycles the delta link is not stored and the sign-in on the second
page, which is well formed, has not been yielded. -/
theorem twoPages_blocked :
    WellFormed fromisoformatNoon (signinItem "carol@corp.example" timed) (ofString "10.1.2.3")
      (ofString "carol@corp.example") 1776859200000000 ∧
    (∀ n, (cycles fromisoformatNoon [] (fun _ => twoPages) firstPoll n).stored = [] ∧
      ∀ ev ∈ (cycles fromisoformatNoon [] (fun _ => twoPages) firstPoll n).yielded,
        ev.userUpn = .str (ofString "alice@corp.example")) ∧
    ¬ Delivered fromisoformatNoon [] (fun _ => twoPages) firstPoll := by
  have hscan : scan fromisoformatNoon [] twoPages.items =
      ([⟨1776859200000000, .str (ofString "10.1.2.3"), .str (ofString "alice@corp.example"), 40,
        3600, none⟩], true) := by
    rfl
  have hmalformed : Malformed fromisoformatNoon (signinItem "bob@corp.example" []) :=
    ⟨rfl, rfl, rfl, rfl⟩
  have hitem : signinItem "bob@corp.example" [] ∈ twoPages.items :=
    List.mem_cons_of_mem _ List.mem_cons_self
  refine ⟨?_, fun n => ?_, fun hdelivered => ?_⟩
  · exact ⟨⟨_, _, _, rfl, rfl, rfl, rfl, rfl, rfl, rfl⟩, by decide, by decide⟩
  · obtain ⟨_, hstored, hyielded⟩ : _ ∧ (cycles fromisoformatNoon [] (fun _ => twoPages)
        firstPoll n).stored = firstPoll.stored ∧ _ := cycles_stuck [] hscan n
    refine ⟨hstored, fun ev hev => ?_⟩
    rcases hyielded ev hev with hev | hev
    · cases hev
    · rw [List.mem_singleton.mp hev]
  · exact (delivered_iff_none_malformed _ _ _ _).mp hdelivered _ hitem hmalformed

end FlowDiscovery.SigninPages
