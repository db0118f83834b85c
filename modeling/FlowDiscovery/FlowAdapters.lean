import FlowDiscovery.Dict
import FlowDiscovery.EventTypes
import FlowDiscovery.PyLexers

/-!
# Firewall log parsers

`parse_line` of the PAN-OS and of the FortiGate adapter. The current time is an
argument because both parsers stamp events with it. A parser that gives up
returns `none`; only the CSV reader can raise, and its error is kept.
-/
namespace FlowDiscovery.FlowAdapters
open PyText PyTime PyLexers

/-- `k, v = pair.split("=", 1)` when the pair has an equals sign. -/
def keyValue (pair : Text) : Option (Text × Text) := splitOnce ['='] pair

/-- `int(kv.get(k, 0))`. -/
def intField (kv : Dict String String) (k : String) : Option ℤ :=
  match kv.get? k with
  | none => some 0
  | some v => int? v.toList

/-- `kv.get(k) or None`. -/
def nonEmptyField (kv : Dict String String) (k : String) : Option String :=
  orElse (kv.get? k) none

/-! ## FortiGate -/

namespace FortiGate

def name : String := "fortigate"

/-- The priority prefix `<digits>` at the start of a line is removed. -/
def dropPri : Text → Text
  | '<' :: rest =>
    let isDigit := fun c => (decimal? c).isSome
    match rest.takeWhile isDigit, rest.dropWhile isDigit with
    | _ :: _, '>' :: body => body
    | _, _ => '<' :: rest
  | line => line

/-- `_kv`; `none` is the `ValueError` of the shell lexer. -/
def kv (line : Text) : Option (Dict String String) :=
  (shlexSplit (strip (dropPri line))).map fun tokens =>
    tokens.foldl (fun out tok =>
      match keyValue tok with
      | some (k, v) => out.set (String.ofList k) (String.ofList v)
      | none => out) Dict.empty

def parseLine (now : Instant) (line : Text) : Option FlowEvent := do
  let kv ← kv line
  if kv.get? "type" ≠ some "traffic" then none
  else if kv.get? "subtype" ≠ some "forward" then none
  else if kv.get? "status" ≠ some "close" then none
  else do
    let srcIp ← kv.get? "srcip"
    let srcPort ← intField kv "srcport"
    let dstIp ← kv.get? "dstip"
    let dstPort ← intField kv "dstport"
    let proto ← intField kv "proto"
    let sentByte ← intField kv "sentbyte"
    let rcvdByte ← intField kv "rcvdbyte"
    let sentPkt ← intField kv "sentpkt"
    let rcvdPkt ← intField kv "rcvdpkt"
    return {
      ts := now, srcIp, srcPort, dstIp, dstPort, proto
      bytes := sentByte + rcvdByte
      packets := sentPkt + rcvdPkt
      action := kv.getD "action" "close"
      fqdn := nonEmptyField kv "hostname"
      appId := nonEmptyField kv "app"
      source := name
      rawId := kv.get? "logid" }

end FortiGate

/-! ## PAN-OS -/

namespace PaloAlto

def name : String := "palo_alto"

def protoByName : List (String × ℤ) := [("tcp", 6), ("udp", 17), ("icmp", 1)]

/-- `_proto`: a known name, else a number, else zero. No character outside A to Z
lowers to a letter of the known names, so ASCII lowering is enough here. -/
def proto (val : Text) : ℤ :=
  let v := lowerAscii (strip val)
  match protoByName.lookup (String.ofList v) with
  | some n => n
  | none => (int? v).getD 0

/-- `_ts`: the two accepted formats, else the current time. -/
def parseTs (now : Instant) (s : Text) : Instant :=
  match strptime? slashFormat s with
  | some t => t
  | none => (strptime? isoFormat s).getD now

def minPanCsvFields : ℕ := 32
def minLeefPipes : ℕ := 6
def panGeneratedTimeIdx : ℕ := 6

/-- `int(field or 0)`. -/
def blankInt (s : Text) : Option ℤ := if s = [] then some 0 else int? s

/-- The generated time of a row long enough to have one, else the current time. -/
def generatedTime (now : Instant) (fields : List Text) : Instant :=
  match fields[panGeneratedTimeIdx]? with
  | some time => parseTs now time
  | none => now

/-- The body of the `try` in `_parse_csv`; `none` is a `ValueError` or an
`IndexError`. -/
def csvEvent (now : Instant) (fields : List Text) : Option FlowEvent := do
  let srcIp ← fields[7]?
  let srcPort ← fields[24]? >>= blankInt
  let dstIp ← fields[8]?
  let dstPort ← fields[25]? >>= blankInt
  let protoText ← fields[29]?
  let bytes ← fields[31]? >>= blankInt
  let packets ← fields[32]? >>= blankInt
  let action ← fields[30]?
  let app ← fields[14]?
  return {
    ts := generatedTime now fields
    srcPort, dstPort, bytes, packets
    srcIp := String.ofList srcIp
    dstIp := String.ofList dstIp
    proto := proto protoText
    action := String.ofList action
    fqdn := none
    appId := orElse (some (String.ofList app)) none
    source := name
    rawId := none }

/-- A syslog header ends at the first colon followed by a blank. -/
def csvPayload (line : Text) : Text :=
  match splitOnce ": ".toList line with
  | some (_, payload) => payload
  | none => line

def parseCsv (now : Instant) (line : Text) : Except CsvError (Option FlowEvent) :=
  (firstCsvRecord (csvPayload line)).map fun record =>
    match record with
    | none => none
    | some fields =>
      if fields.length < minPanCsvFields ∨ fields[3]? ≠ some "TRAFFIC".toList then none
      else if fields[4]? ≠ some "end".toList then none
      else csvEvent now fields

/-- Pairs of the tab-separated extension, then pairs of whole pipe segments for
keys not seen yet. -/
def leefPairs (parts : List Text) : Dict String String :=
  let clean := fun (t : Text) => String.ofList (strip t)
  let tabbed := ((parts.drop 5).flatMap (List.splitOn '\t')).filterMap keyValue
  let whole := parts.filterMap keyValue
  let kvs := tabbed.foldl (fun (d : Dict String String) p => d.set (clean p.1) (clean p.2)) .empty
  whole.foldl (fun (d : Dict String String) p => d.setdefault (clean p.1) (clean p.2)) kvs

/-- The body of the `try` in `_parse_leef`; `none` is a `KeyError` or a
`ValueError`. -/
def leefEvent (now : Instant) (kvs : Dict String String) : Option FlowEvent := do
  let srcIp ← kvs.get? "src"
  let srcPort ← intField kvs "srcPort"
  let dstIp ← kvs.get? "dst"
  let dstPort ← intField kvs "dstPort"
  let bytes ← intField kvs "bytesTotal"
  let packets ← intField kvs "packetsTotal"
  return {
    ts := now, srcIp, srcPort, dstIp, dstPort, bytes, packets
    proto := proto (kvs.getD "proto" "tcp").toList
    action := kvs.getD "action" "allow"
    fqdn := nonEmptyField kvs "hostname"
    appId := nonEmptyField kvs "app"
    source := name
    rawId := none }

def parseLeef (now : Instant) (line : Text) : Option FlowEvent := do
  let tail ← fromFirst "LEEF:".toList line
  let parts := List.splitOn '|' tail
  if parts.length < minLeefPipes then none else leefEvent now (leefPairs parts)

def parseLine (now : Instant) (line : Text) : Except CsvError (Option FlowEvent) :=
  if isInfix "LEEF:".toList line && isInfix "Palo Alto Networks".toList line then
    .ok (parseLeef now line)
  else if isInfix "TRAFFIC".toList line then parseCsv now line
  else .ok none

end PaloAlto

/-! ## Acceptance does not depend on the clock -/

lemma isSome_bind_congr {α β : Type} (x : Option α) {f g : α → Option β}
    (h : ∀ a, (f a).isSome = (g a).isSome) : (x >>= f).isSome = (x >>= g).isSome := by
  cases x with
  | none => rfl
  | some a => exact h a

theorem FortiGate.parseLine_isSome_eq (t t' : Instant) (line : Text) :
    (FortiGate.parseLine t line).isSome = (FortiGate.parseLine t' line).isSome := by
  refine isSome_bind_congr _ fun kv => ?_
  split_ifs
  · rfl
  · rfl
  · rfl
  · iterate 9 refine isSome_bind_congr _ fun _ => ?_
    simp only [Option.pure_def, Option.isSome_some]

namespace PaloAlto

lemma csvEvent_isSome_eq (t t' : Instant) (fields : List Text) :
    (csvEvent t fields).isSome = (csvEvent t' fields).isSome := by
  iterate 9 refine isSome_bind_congr _ fun _ => ?_
  simp only [Option.pure_def, Option.isSome_some]

lemma parseLeef_isSome_eq (t t' : Instant) (line : Text) :
    (parseLeef t line).isSome = (parseLeef t' line).isSome := by
  refine isSome_bind_congr _ fun tail => ?_
  dsimp only
  split_ifs
  · rfl
  · iterate 6 refine isSome_bind_congr _ fun _ => ?_
    simp only [Option.pure_def, Option.isSome_some]

lemma parseCsv_isSome_eq (t t' : Instant) (line : Text) :
    (parseCsv t line).map Option.isSome = (parseCsv t' line).map Option.isSome := by
  unfold parseCsv
  rcases firstCsvRecord (csvPayload line) with e | none | fields
  · simp only [Except.map]
  · simp only [Except.map]
  · simp only [Except.map]
    split_ifs
    · simp only [Option.isSome_none]
    · simp only [Option.isSome_none]
    · rw [csvEvent_isSome_eq t t' fields]

/-- Whether a line is parsed, rejected or raises does not depend on the time. -/
theorem parseLine_isSome_eq (t t' : Instant) (line : Text) :
    (parseLine t line).map Option.isSome = (parseLine t' line).map Option.isSome := by
  unfold parseLine
  split_ifs
  · exact congrArg Except.ok (parseLeef_isSome_eq t t' line)
  · exact parseCsv_isSome_eq t t' line
  · simp only [Except.map]

end PaloAlto
end FlowDiscovery.FlowAdapters
