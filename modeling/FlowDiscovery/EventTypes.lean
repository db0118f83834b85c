import FlowDiscovery.PyTime

/-!
# Events exchanged between the services

The two record types of the shared package. `raw_id` and `mac` are carried for
completeness; no consumer reads them.
-/
namespace FlowDiscovery
open PyTime

/-- One firewall session record. -/
structure FlowEvent where
  ts : Instant
  srcIp : String
  srcPort : ℤ
  dstIp : String
  dstPort : ℤ
  proto : ℤ
  bytes : ℤ
  packets : ℤ
  action : String
  fqdn : Option String
  appId : Option String
  source : String
  rawId : Option String
  deriving DecidableEq, Repr

/-- Kinds of identity event; `other` stands for any further text. -/
inductive IdentityEventType where
  | logon
  | nacAuth
  | nacAuthStop
  | dhcp
  | other (name : String)
  deriving DecidableEq, Repr

/-- One session binding as the identity adapters emit it. -/
structure IdentityEvent where
  ts : Instant
  srcIp : String
  userUpn : String
  source : String
  eventType : IdentityEventType
  confidence : ℤ
  ttlSeconds : ℤ
  mac : Option String
  rawId : Option String
  deriving DecidableEq, Repr

end FlowDiscovery
