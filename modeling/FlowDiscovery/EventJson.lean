import FlowDiscovery.PyJsonDumps
import FlowDiscovery.StreamConsumer

/-!
# Events on the wire

`_jsonify_flow` and `_jsonify_identity`, and what the correlator makes of their
output. Every member comes back as it was. An event with an integer of more digits than
`str` writes has no text: serialising it raises.
-/
namespace FlowDiscovery.EventJson
open PyText PyTime PyJson StreamConsumer

/-- `datetime.isoformat` and `datetime.fromisoformat`. -/
structure IsoText where
  isoformat : Instant → Text
  fromisoformat : PyStr → Option Instant
  fromisoformat_isoformat : ∀ t, fromisoformat (ofText (isoformat t)) = some t

/-- The text of the epoch as it is; any other instant is written as its number here. -/
def epochIso : IsoText where
  isoformat t :=
    if t = 0 then "1970-01-01T00:00:00+00:00".toList
    else (if t < 0 then '-' else '+') :: natText t.natAbs
  fromisoformat s :=
    if s = ofString "1970-01-01T00:00:00+00:00" then some 0
    else
      match s with
      | 0x2D :: digits => some (-digitsValue digits)
      | _ :: digits => some (digitsValue digits)
      | [] => none
  fromisoformat_isoformat t := by
    by_cases hzero : t = 0
    · subst hzero
      rfl
    · have hne : ∀ (c : Char), c ≠ '1' →
          ofText (c :: natText t.natAbs) ≠ ofString "1970-01-01T00:00:00+00:00" := by
        intro c hc heq
        exact hc (Char.toNat_inj.mp (List.cons.inj heq).1)
      by_cases hneg : t < 0
      · simp only [if_neg hzero, if_pos hneg, if_neg (hne '-' (by decide))]
        show some (-(digitsValue (ofText (natText t.natAbs)) : ℤ)) = some t
        rw [digitsValue_natText, Int.ofNat_natAbs_of_nonpos (le_of_lt hneg), neg_neg]
      · simp only [if_neg hzero, if_neg hneg, if_neg (hne '+' (by decide))]
        show some (digitsValue (ofText (natText t.natAbs)) : ℤ) = some t
        rw [digitsValue_natText, Int.natAbs_of_nonneg (not_lt.mp hneg)]

def strOrNull : Option String → Json
  | none => .null
  | some s => .str (ofString s)

lemma plain_strOrNull (s : Option String) : Plain (strOrNull s) := by
  cases s with
  | none => exact .null
  | some s => exact plain_ofString s

lemma toString_ofString (s : String) : StreamConsumer.toString (ofString s) = s := by
  simp [StreamConsumer.toString, ofString, ofText, Function.comp_def]

section

variable (iso : IsoText)

/-! ## Flow events -/

/-- The members of the record, in the order of its type. -/
def flowMembers (ev : FlowEvent) : List (PyStr × Json) :=
  [(ofString "ts", .str (ofText (iso.isoformat ev.ts))),
    (ofString "src_ip", .str (ofString ev.srcIp)),
    (ofString "src_port", .int ev.srcPort),
    (ofString "dst_ip", .str (ofString ev.dstIp)),
    (ofString "dst_port", .int ev.dstPort),
    (ofString "proto", .int ev.proto),
    (ofString "bytes", .int ev.bytes),
    (ofString "packets", .int ev.packets),
    (ofString "action", .str (ofString ev.action)),
    (ofString "fqdn", strOrNull ev.fqdn),
    (ofString "app_id", strOrNull ev.appId),
    (ofString "source", .str (ofString ev.source)),
    (ofString "raw_id", strOrNull ev.rawId)]

/-- `_jsonify_flow`. -/
def jsonifyFlow (ev : FlowEvent) : Option PyStr := dumps false (.obj (flowMembers iso ev))

/-- `str` writes the numbers of the event. -/
def Writable (ev : FlowEvent) : Prop :=
  ∀ n ∈ [ev.srcPort, ev.dstPort, ev.proto, ev.bytes, ev.packets], n.natAbs < 10 ^ intMaxStrDigits

instance : DecidablePred Writable := fun _ => inferInstanceAs (Decidable (∀ n ∈ _, _))

lemma dumps_strOrNull_isSome (s : Option String) : (dumps false (strOrNull s)).isSome := by
  cases s with
  | none => rfl
  | some s => rfl

/-- Only a number can keep an event from being serialised. -/
lemma jsonifyFlow_isSome_iff (ev : FlowEvent) : (jsonifyFlow iso ev).isSome ↔ Writable ev := by
  rw [jsonifyFlow, dumps, Option.isSome_map, dumpsFields_isSome_iff]
  simp only [flowMembers, Writable, List.forall_mem_cons, dumps_strOrNull_isSome, dumps,
    dumpsInt_isSome_iff, Option.isSome_some, true_and, List.not_mem_nil, false_imp_iff,
    implies_true, and_true]

lemma plain_flowMembers (ev : FlowEvent) : Plain (.obj (flowMembers iso ev)) :=
  (plain_ofText _).member "ts" <| (plain_ofString _).member "src_ip" <|
  (Plain.int _).member "src_port" <| (plain_ofString _).member "dst_ip" <|
  (Plain.int _).member "dst_port" <| (Plain.int _).member "proto" <|
  (Plain.int _).member "bytes" <| (Plain.int _).member "packets" <|
  (plain_ofString _).member "action" <| (plain_strOrNull _).member "fqdn" <|
  (plain_strOrNull _).member "app_id" <| (plain_ofString _).member "source" <|
  (plain_strOrNull _).member "raw_id" plain_empty

/-- The dictionary that the reader of the stream puts on its queue. -/
def flowDict (ev : FlowEvent) : FlowDict := ⟨flowMembers iso ev, ev.ts⟩

/-- `ev.get(key)` of a text or null. -/
def strOrNullMember (members : List (PyStr × Json)) (key : String) : Option (Option String) :=
  match Json.lookup members (ofString key) with
  | some (.str s) => some (some (StreamConsumer.toString s))
  | some .null => some none
  | _ => none

/-- A flow event in the types of its record. -/
def flowEvent (d : FlowDict) : Option FlowEvent := do
  return {
    ts := d.ts
    srcIp := StreamConsumer.toString (← strMember d.fields "src_ip")
    srcPort := ← intMember d.fields "src_port"
    dstIp := StreamConsumer.toString (← strMember d.fields "dst_ip")
    dstPort := ← intMember d.fields "dst_port"
    proto := ← intMember d.fields "proto"
    bytes := ← intMember d.fields "bytes"
    packets := ← intMember d.fields "packets"
    action := StreamConsumer.toString (← strMember d.fields "action")
    fqdn := ← strOrNullMember d.fields "fqdn"
    appId := ← strOrNullMember d.fields "app_id"
    source := StreamConsumer.toString (← strMember d.fields "source")
    rawId := ← strOrNullMember d.fields "raw_id" }

lemma strOrNullMember_of_lookup {members : List (PyStr × Json)} {key : String} {s : Option String}
    (h : Json.lookup members (ofString key) = some (strOrNull s)) :
    strOrNullMember members key = some s := by
  rw [strOrNullMember, h]
  cases s with
  | none => rfl
  | some s => simp only [strOrNull, toString_ofString]

/-- No member is lost or changed. -/
lemma flowEvent_flowDict (ev : FlowEvent) : flowEvent (flowDict iso ev) = some ev := by
  have hfqdn : strOrNullMember (flowMembers iso ev) "fqdn" = some ev.fqdn :=
    strOrNullMember_of_lookup rfl
  have happ : strOrNullMember (flowMembers iso ev) "app_id" = some ev.appId :=
    strOrNullMember_of_lookup rfl
  have hraw : strOrNullMember (flowMembers iso ev) "raw_id" = some ev.rawId :=
    strOrNullMember_of_lookup rfl
  have hsrc : strMember (flowMembers iso ev) "src_ip" = some (ofString ev.srcIp) := rfl
  have hsrcPort : intMember (flowMembers iso ev) "src_port" = some ev.srcPort := rfl
  have hdst : strMember (flowMembers iso ev) "dst_ip" = some (ofString ev.dstIp) := rfl
  have hdstPort : intMember (flowMembers iso ev) "dst_port" = some ev.dstPort := rfl
  have hproto : intMember (flowMembers iso ev) "proto" = some ev.proto := rfl
  have hbytes : intMember (flowMembers iso ev) "bytes" = some ev.bytes := rfl
  have hpackets : intMember (flowMembers iso ev) "packets" = some ev.packets := rfl
  have haction : strMember (flowMembers iso ev) "action" = some (ofString ev.action) := rfl
  have hsource : strMember (flowMembers iso ev) "source" = some (ofString ev.source) := rfl
  simp only [flowEvent, flowDict, hfqdn, happ, hraw, hsrc, hsrcPort, hdst, hdstPort, hproto, hbytes,
    hpackets, haction, hsource, toString_ofString, Option.bind_eq_bind, Option.bind_some,
    Option.pure_def]

/-- The reader gets back what the publisher serialised. -/
theorem parse_jsonifyFlow (float : Text → Text) {ev : FlowEvent} {payload : PyStr}
    (h : jsonifyFlow iso ev = some payload) :
    (readXstreamInto float iso.fromisoformat).parse (some payload) = some (flowDict iso ev) := by
  have hloads := loads_dumps float false (plain_flowMembers iso ev) h
  have hts : tsMember iso.fromisoformat (flowMembers iso ev) = some ev.ts :=
    iso.fromisoformat_isoformat ev.ts
  simp only [readXstreamInto, loadsObject, Option.bind_eq_bind, Option.bind_some, hloads, hts,
    Option.pure_def]
  rfl

/-! ## Identity events -/

def eventTypeName : IdentityEventType → String
  | .logon => "logon"
  | .nacAuth => "nac-auth"
  | .nacAuthStop => "nac-auth-stop"
  | .dhcp => "dhcp"
  | .other name => name

def identityMembers (ev : IdentityEvent) : List (PyStr × Json) :=
  [(ofString "ts", .str (ofText (iso.isoformat ev.ts))),
    (ofString "src_ip", .str (ofString ev.srcIp)),
    (ofString "user_upn", .str (ofString ev.userUpn)),
    (ofString "source", .str (ofString ev.source)),
    (ofString "event_type", .str (ofString (eventTypeName ev.eventType))),
    (ofString "confidence", .int ev.confidence),
    (ofString "ttl_seconds", .int ev.ttlSeconds),
    (ofString "mac", strOrNull ev.mac),
    (ofString "raw_id", strOrNull ev.rawId)]

/-- `_jsonify_identity`. -/
def jsonifyIdentity (ev : IdentityEvent) : Option PyStr := dumps false (.obj (identityMembers iso ev))

lemma plain_identityMembers (ev : IdentityEvent) : Plain (.obj (identityMembers iso ev)) :=
  (plain_ofText _).member "ts" <| (plain_ofString _).member "src_ip" <|
  (plain_ofString _).member "user_upn" <| (plain_ofString _).member "source" <|
  (plain_ofString _).member "event_type" <| (Plain.int _).member "confidence" <|
  (Plain.int _).member "ttl_seconds" <| (plain_strOrNull _).member "mac" <|
  (plain_strOrNull _).member "raw_id" plain_empty

/-- The event as the index takes it. Its kind is read from its text. -/
def indexed (ev : IdentityEvent) : IndexEvent :=
  { ev.toIndexEvent with eventType := eventTypeOf (eventTypeName ev.eventType) }

lemma indexEvent_identityMembers (ev : IdentityEvent) :
    indexEvent iso.fromisoformat (identityMembers iso ev) = some (indexed ev) := by
  have hts : tsMember iso.fromisoformat (identityMembers iso ev) = some ev.ts :=
    iso.fromisoformat_isoformat ev.ts
  have hsrc : strMember (identityMembers iso ev) "src_ip" = some (ofString ev.srcIp) := rfl
  have huser : strMember (identityMembers iso ev) "user_upn" = some (ofString ev.userUpn) := rfl
  have hsource : strMember (identityMembers iso ev) "source" = some (ofString ev.source) := rfl
  have hkind : strMember (identityMembers iso ev) "event_type" =
      some (ofString (eventTypeName ev.eventType)) := rfl
  have hconf : intMember (identityMembers iso ev) "confidence" = some ev.confidence := rfl
  have httl : intMember (identityMembers iso ev) "ttl_seconds" = some ev.ttlSeconds := rfl
  simp only [indexEvent, hts, hsrc, huser, hsource, hkind, hconf, httl, toString_ofString,
    Option.bind_eq_bind, Option.bind_some, Option.pure_def]
  rfl

/-- An insert of the event does not raise. -/
def Insertable (ev : IndexEvent) : Prop := (IdentityIndex.fresh.insert ev).2 = none

instance : DecidablePred Insertable := fun _ => inferInstanceAs (Decidable (_ = _))

/-- The index is given the event unless its insert raises. -/
theorem parse_jsonifyIdentity (float : Text → Text) {ev : IdentityEvent} {payload : PyStr}
    (h : jsonifyIdentity iso ev = some payload) :
    (identityConsumer float iso.fromisoformat).parse (some payload) =
      if Insertable (indexed ev) then some (indexed ev) else none := by
  have hloads := loads_dumps float false (plain_identityMembers iso ev) h
  simp only [identityConsumer, loadsObject, Option.bind_eq_bind, Option.bind_some, hloads,
    indexEvent_identityMembers, Option.isNone_iff_eq_none]
  rfl

end

end FlowDiscovery.EventJson
