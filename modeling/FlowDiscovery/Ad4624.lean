import FlowDiscovery.PyJson
import FlowDiscovery.PyTime

/-!
# Logons of the domain controllers

`Ad4624Adapter.parse` on a decoded line. Every exception in it is caught and answered with
no event, so one that is raised is `none` here as well.
-/
namespace FlowDiscovery.Ad4624
open PyText PyTime PyJson

/-- What the adapter uses of the language beyond texts and JSON: `repr(float(s))`,
`datetime.fromisoformat`, and `str` of a value that is no string; `none` is an exception. -/
structure Builtins where
  float : Text → Text
  fromisoformat : PyStr → Option Instant
  str : Json → Option PyStr

/-- The source and the type of every event are the same; the address has been checked for
truth only. -/
structure LogonEvent where
  ts : Instant
  srcIp : Json
  userUpn : PyStr
  confidence : ℤ
  ttlSeconds : ℤ
  rawId : Option Json

def confidenceByLogonType : List (PyStr × ℤ) :=
  [(ofString "2", 90), (ofString "10", 90), (ofString "11", 50), (ofString "3", 70)]

def defaultTtlS : ℤ := 8 * 3600

def acceptedLogonTypes : List PyStr :=
  [ofString "2", ofString "3", ofString "10", ofString "11"]

abbrev Members := List (PyStr × Json)

/-- `value == 4624`; a float can be equal to it too. -/
def isLogonEventId : Json → Bool
  | .int n => n = 4624
  | .float repr => repr = "4624.0".toList
  | .null | .bool _ | .str _ | .arr _ | .obj _ => false

/-- `d.get(name, {})` where `get` is called on the result. -/
def child (members : Members) (name : String) : Option Members :=
  match Json.member members name with
  | none => some []
  | some (.obj inner) => some inner
  | some _ => none

/-- `ip and ip != "-"`. -/
def isAddress (ip : Json) : Bool :=
  ip.truthy && (match ip with | .str s => s ≠ ofString "-" | _ => true)

/-- `s.rstrip("@")`. -/
def rstripAt (s : PyStr) : PyStr := (s.reverse.dropWhile fun c => c = 0x40).reverse

/-- Winlogbeat frames its JSON behind the first colon and blank. -/
def payload (text : Text) : Text :=
  match splitOnce ": ".toList text with
  | some (_, json) => json
  | none => text

section

variable (py : Builtins)

/-- `str(value)`. -/
def strOf : Json → Option PyStr
  | .str s => some s
  | value => py.str value

/-- `str(data.get(name, ""))`. -/
def textOf (data : Members) (name : String) : Option PyStr :=
  match Json.member data name with
  | none => some []
  | some value => strOf py value

/-- `f"{data['TargetUserName']}@{data.get('TargetDomainName', '')}".rstrip("@")`. -/
def upnOf (data : Members) : Option PyStr := do
  let name ← (Json.member data "TargetUserName").bind (strOf py)
  let domain ← textOf py data "TargetDomainName"
  return rstripAt (name ++ 0x40 :: domain)

/-- `datetime.fromisoformat(doc["@timestamp"].replace("Z", "+00:00"))`. -/
def timestampOf (doc : Members) : Option Instant :=
  match Json.member doc "@timestamp" with
  | some (.str s) => py.fromisoformat (replaceZ s)
  | _ => none

/-- The body of the `try` behind the decoder. -/
def parseDocument : Json → Option LogonEvent
  | .obj doc =>
    if ((Json.member doc "event_id").any isLogonEventId) = false then none
    else do
      let winlog ← child doc "winlog"
      let data ← child winlog "event_data"
      let logonType ← textOf py data "LogonType"
      let ip ← (Json.member data "IpAddress").filter isAddress
      if logonType ∉ acceptedLogonTypes then none
      else do
        let upn ← upnOf py data
        let ts ← timestampOf py doc
        return {
          ts := ts
          srcIp := ip
          userUpn := upn
          confidence := (confidenceByLogonType.lookup logonType).getD 50
          ttlSeconds := defaultTtlS
          rawId := Json.member data "LogonGuid" }
  | _ => none

def parse (text : Text) : Option LogonEvent :=
  (loads py.float (ofText (payload text))).bind (parseDocument py)

/-- A logon that is reported: the event, an accepted type, an address, a user and a time. -/
structure IsLogon (doc : Members) : Prop where
  eventId : (Json.member doc "event_id").any isLogonEventId = true
  data : ∃ winlog data logonType ip, child doc "winlog" = some winlog ∧
    child winlog "event_data" = some data ∧ textOf py data "LogonType" = some logonType ∧
    logonType ∈ acceptedLogonTypes ∧ Json.member data "IpAddress" = some ip ∧
    isAddress ip = true ∧ (upnOf py data).isSome
  timestamp : (timestampOf py doc).isSome

theorem parseDocument_isSome_iff (doc : Members) :
    (parseDocument py (.obj doc)).isSome ↔ IsLogon py doc := by
  constructor
  · intro h
    obtain ⟨ev, hev⟩ := Option.isSome_iff_exists.mp h
    unfold parseDocument at hev
    dsimp only at hev
    split_ifs at hev with hid
    obtain ⟨winlog, hwinlog, hev⟩ := Option.bind_eq_some_iff.mp hev
    obtain ⟨data, hdata, hev⟩ := Option.bind_eq_some_iff.mp hev
    obtain ⟨logonType, htype, hev⟩ := Option.bind_eq_some_iff.mp hev
    obtain ⟨ip, hip, hev⟩ := Option.bind_eq_some_iff.mp hev
    obtain ⟨hmember, haddress⟩ := Option.filter_eq_some_iff.mp hip
    split_ifs at hev with haccepted
    obtain ⟨upn, hupn, hev⟩ := Option.bind_eq_some_iff.mp hev
    obtain ⟨ts, hts, -⟩ := Option.bind_eq_some_iff.mp hev
    refine ⟨Bool.not_eq_false _ ▸ hid, ⟨winlog, data, logonType, ip, hwinlog, hdata, htype,
      haccepted, hmember, haddress, ?_⟩, ?_⟩
    · rw [hupn]
      rfl
    · rw [hts]
      rfl
  · rintro ⟨hid, ⟨winlog, data, logonType, ip, hwinlog, hdata, htype, haccepted, hmember, haddress,
      hupn⟩, hts⟩
    obtain ⟨upn, hupn⟩ := Option.isSome_iff_exists.mp hupn
    obtain ⟨ts, hts⟩ := Option.isSome_iff_exists.mp hts
    have hip : (Json.member data "IpAddress").filter isAddress = some ip := by
      rw [hmember, Option.filter_some, if_pos haddress]
    simp [parseDocument, hid, hwinlog, hdata, htype, haccepted, hip, hupn, hts]

end

end FlowDiscovery.Ad4624
