import FlowDiscovery.FlowIngest
import FlowDiscovery.FortiGateLog
import FlowDiscovery.LogFormats
import FlowDiscovery.PyBytes
import FlowDiscovery.PyStrftime

/-!
# Generated log lines

The generator fills one template for each vendor with what it draws and sends each line
as a datagram. The receiver hands over the line, the adapter of the vendor makes the event
of what was drawn, and the other adapter makes none.
-/
namespace FlowDiscovery.MockGenerator
open PyText PyTime PyBytes PyStrftime FlowAdapters FlowIngest FortiGateLog

/-! ## The templates -/

def appsPan : List String := ["ms-office365", "ms-teams", "github", "salesforce", "zoom", "slack"]

def appsFgt : List String := ["SharePoint", "Teams", "GitHub", "Salesforce", "Zoom", "Slack"]

def fqdns : List String :=
  ["outlook.office365.com", "teams.microsoft.com", "api.github.com", "login.salesforce.com",
    "zoom.us", "wss-mobile.slack.com"]

/-- What `pan_line` draws. -/
structure PanDraw where
  now : Stamp
  src : ℕ
  dst : ℕ
  sport : ℕ
  dport : ℕ
  app : String
  bytes : ℕ
  pkts : ℕ
  src_range : 1 ≤ src ∧ src ≤ 250
  dst_range : 1 ≤ dst ∧ dst ≤ 250
  sport_range : 10000 ≤ sport ∧ sport ≤ 60000
  dport_mem : dport ∈ [443, 80, 22, 53]
  app_mem : app ∈ appsPan
  bytes_range : 500 ≤ bytes ∧ bytes ≤ 50000
  pkts_range : 1 ≤ pkts ∧ pkts ≤ 100

/-- What `fgt_line` draws. -/
structure FgtDraw where
  now : Stamp
  src : ℕ
  dst : ℕ
  sport : ℕ
  dport : ℕ
  sent : ℕ
  rcvd : ℕ
  spkt : ℕ
  rpkt : ℕ
  app : String
  fqdn : String
  src_range : 1 ≤ src ∧ src ≤ 250
  dst_range : 1 ≤ dst ∧ dst ≤ 250
  sport_range : 10000 ≤ sport ∧ sport ≤ 60000
  dport_mem : dport ∈ [443, 80, 22, 53]
  sent_range : 500 ≤ sent ∧ sent ≤ 50000
  rcvd_range : 500 ≤ rcvd ∧ rcvd ≤ 50000
  spkt_range : 1 ≤ spkt ∧ spkt ≤ 100
  rpkt_range : 1 ≤ rpkt ∧ rpkt ≤ 100
  app_mem : app ∈ appsFgt
  fqdn_mem : fqdn ∈ fqdns

/-- A network and the number of a host. -/
def host (net : String) (n : ℕ) : Text := net.toList ++ natText n

/-- The columns of `PAN_FIELDS`. -/
def panColumns (d : PanDraw) : List Text :=
  ["1".toList, d.now.slashText, "001801000000".toList, "TRAFFIC".toList, "end".toList,
    "2560".toList, d.now.slashText, host "10.0.0." d.src, host "52.97.1." d.dst, [], [],
    "allow-all".toList, [], [], d.app.toList, "vsys1".toList, "trust".toList, "untrust".toList,
    "ae1".toList, "ae2".toList, [], [], [], [], natText d.sport, natText d.dport, [], [],
    "0x400000".toList, "tcp".toList, "allow".toList, natText d.bytes, natText d.pkts]

def panLine (d : PanDraw) : Text := PyLexers.csvRow (panColumns d)

def bare (key : String) (value : Text) : LogField := ⟨key, value, false⟩

def quoted (key value : String) : LogField := ⟨key, value.toList, true⟩

/-- The fields of `FGT_FIELDS`. -/
def fgtFields (d : FgtDraw) : List LogField :=
  [bare "date" (d.now.date '-'), bare "time" d.now.time, quoted "devname" "fw02",
    quoted "logid" "0000000013", quoted "type" "traffic", quoted "subtype" "forward",
    quoted "eventtype" "forward", quoted "level" "notice", quoted "vd" "root",
    bare "srcip" (host "10.0.1." d.src), bare "srcport" (natText d.sport),
    bare "dstip" (host "52.97.2." d.dst), bare "dstport" (natText d.dport),
    bare "proto" "6".toList, quoted "action" "close", bare "sentbyte" (natText d.sent),
    bare "rcvdbyte" (natText d.rcvd), bare "sentpkt" (natText d.spkt),
    bare "rcvdpkt" (natText d.rpkt), quoted "appcat" "Collaboration", quoted "app" d.app,
    quoted "status" "close", quoted "hostname" d.fqdn]

def fgtLine (d : FgtDraw) : Text := logLine "189".toList (fgtFields d)

/-- A line of either vendor. -/
inductive Line where
  | pan (d : PanDraw)
  | fgt (d : FgtDraw)

namespace Line

def text : Line → Text
  | pan d => panLine d
  | fgt d => fgtLine d

/-- The adapter that the line is for. -/
def vendor : Line → AdapterClass
  | pan _ => .paloAlto
  | fgt _ => .fortigate

/-- The event of what was drawn; a FortiGate line is stamped where it is read. -/
def event (now : Instant) : Line → FlowEvent
  | pan d => {
      ts := d.now.instant
      srcIp := String.ofList (host "10.0.0." d.src)
      srcPort := d.sport
      dstIp := String.ofList (host "52.97.1." d.dst)
      dstPort := d.dport
      proto := 6
      bytes := d.bytes
      packets := d.pkts
      action := "allow"
      fqdn := none
      appId := some d.app
      source := PaloAlto.name
      rawId := none }
  | fgt d => {
      ts := now
      srcIp := String.ofList (host "10.0.1." d.src)
      srcPort := d.sport
      dstIp := String.ofList (host "52.97.2." d.dst)
      dstPort := d.dport
      proto := 6
      bytes := d.sent + d.rcvd
      packets := d.spkt + d.rpkt
      action := "close"
      fqdn := some d.fqdn
      appId := some d.app
      source := FortiGate.name
      rawId := some "0000000013" }

/-- `sendto` of the line and a newline; every character is ASCII. -/
def datagram (l : Line) : Bytes := PyBytes.ofString (String.ofList (l.text ++ ['\n']))

end Line

/-- `_UDPProtocol.datagram_received`. -/
def datagramReceived (peer : String) (data : Bytes) : List Message :=
  let line := decodeReplace (data.rdropWhile fun b => b = 0x0D ∨ b = 0x0A)
  if line = [] then [] else [(peer, String.ofList line)]

/-! ## Characters -/

/-- Any ASCII character but `x` and the ends of a line. -/
def isOther (x c : Char) : Bool := c.toNat < 128 && c ≠ x && c ≠ '\n' && c ≠ '\r'

lemma ne_of_isDigit {c x : Char} (hc : c.isDigit) (hx : x.isDigit = false) : c ≠ x := by
  rintro rfl
  rw [hx] at hc
  cases hc

lemma toNat_lt_of_isDigit {c : Char} (hc : c.isDigit) : c.toNat < 128 := by
  simp only [Char.isDigit, Bool.and_eq_true, decide_eq_true_eq, ge_iff_le,
    UInt32.le_iff_toNat_le] at hc
  exact Nat.lt_of_le_of_lt hc.2 (by decide)

/-- What a drawn text and a time are made of. -/
def isValue (c : Char) : Bool := c.isDigit || c = '.' || c = ':' || c = '-' || c = '/'

lemma isValue_of_isDigit {c : Char} (hc : c.isDigit) : isValue c := by
  simp [isValue, hc]

/-- A property of digits and the four separators holds of all of these. -/
lemma forall_isValue {P : Char → Prop} (hdigit : ∀ c, c.isDigit → P c) (hdot : P '.')
    (hcolon : P ':') (hdash : P '-') (hslash : P '/') {c : Char} (hc : isValue c) : P c := by
  simp only [isValue, Bool.or_eq_true, decide_eq_true_eq] at hc
  rcases hc with (((hc | rfl) | rfl) | rfl) | rfl
  · exact hdigit c hc
  · exact hdot
  · exact hcolon
  · exact hdash
  · exact hslash

lemma all_natText (n : ℕ) : (natText n).all isValue := by
  rw [List.all_eq_true]
  exact fun c hc => isValue_of_isDigit (isDigit_of_mem_natText hc)

lemma all_host {net : String} (hnet : net.toList.all isValue) (n : ℕ) : (host net n).all isValue := by
  rw [host, List.all_append, hnet, all_natText]
  rfl

lemma all_date {t : Stamp} {sep : Char} (hsep : isValue sep) : (t.date sep).all isValue := by
  rw [List.all_eq_true]
  intro c hc
  rcases mem_date hc with hc | rfl
  · exact isValue_of_isDigit hc
  · exact hsep

lemma all_time (t : Stamp) : t.time.all isValue := by
  rw [List.all_eq_true]
  intro c hc
  rcases mem_time hc with hc | rfl
  · exact isValue_of_isDigit hc
  · rfl

lemma all_mono {p q : Char → Bool} {s : Text} (hpq : ∀ c, p c → q c) (h : s.all p) : s.all q := by
  rw [List.all_eq_true] at h ⊢
  exact fun c hc => hpq c (h c hc)

lemma isOther_of_isValue {x : Char} (hx : isValue x = false) {c : Char} (hc : isValue c) :
    isOther x c := by
  have hne : c ≠ x := by
    rintro rfl
    rw [hx] at hc
    cases hc
  have hrest : c.toNat < 128 ∧ c ≠ '\n' ∧ c ≠ '\r' := by
    refine forall_isValue (P := fun c => c.toNat < 128 ∧ c ≠ '\n' ∧ c ≠ '\r') (fun d hd => ?_)
      (by decide) (by decide) (by decide) (by decide) hc
    exact ⟨toNat_lt_of_isDigit hd, ne_of_isDigit hd rfl, ne_of_isDigit hd rfl⟩
  simp [isOther, hne, hrest]

/-! ## Datagrams -/

lemma toNat_toUInt8_of_lt {c : Char} (h : c.toNat < 128) : c.toNat.toUInt8.toNat = c.toNat := by
  rw [Nat.toUInt8_eq, UInt8.toNat_ofNat']
  exact Nat.mod_eq_of_lt (h.trans (by decide))

lemma decodeReplace_ascii {s : Text} (h : ∀ c ∈ s, c.toNat < 128) :
    decodeReplace (s.map fun c => c.toNat.toUInt8) = s := by
  rw [decodeReplace]
  induction s with
  | nil => rfl
  | cons c cs ih =>
    have hc := h c List.mem_cons_self
    rw [List.map_cons, decodeFrom, decodeOctet, leadOctet, toNat_toUInt8_of_lt hc, if_pos hc,
      Char.ofNat_toNat, ih fun d hd => h d (List.mem_cons_of_mem c hd)]
    rfl

lemma octet_ne {c x : Char} (hc : c.toNat < 128) (hx : x.toNat < 128) (hne : c ≠ x) :
    c.toNat.toUInt8 ≠ x.toNat.toUInt8 := by
  intro heq
  have hnat := congrArg UInt8.toNat heq
  rw [toNat_toUInt8_of_lt hc, toNat_toUInt8_of_lt hx] at hnat
  exact hne (Char.toNat_inj.mp hnat)

/-- The line without its end. -/
lemma datagramReceived_line (peer : String) {s : Text} {x : Char} (hne : s ≠ [])
    (h : s.all (isOther x)) :
    datagramReceived peer (PyBytes.ofString (String.ofList (s ++ ['\n']))) =
      [(peer, String.ofList s)] := by
  rw [List.all_eq_true] at h
  have hchars : ∀ c ∈ s, c.toNat < 128 ∧ c ≠ '\n' ∧ c ≠ '\r' := by
    intro c hc
    have hother := h c hc
    simp only [isOther, Bool.and_eq_true, decide_eq_true_eq] at hother
    exact ⟨hother.1.1.1, hother.1.2, hother.2⟩
  have hdrop : (PyBytes.ofString (String.ofList (s ++ ['\n']))).rdropWhile
      (fun b => b = 0x0D ∨ b = 0x0A) = s.map fun c => c.toNat.toUInt8 := by
    rw [PyBytes.ofString, String.toList_ofList, List.map_append, List.map_singleton,
      List.rdropWhile_concat_pos _ _ _ (by decide), List.rdropWhile_eq_self_iff]
    intro hlast
    obtain ⟨c, hc, heq⟩ := List.mem_map.mp (List.getLast_mem hlast)
    obtain ⟨hascii, hnewline, hreturn⟩ := hchars c hc
    rw [← heq, decide_eq_true_eq, not_or]
    exact ⟨octet_ne hascii (by decide) hreturn, octet_ne hascii (by decide) hnewline⟩
  rw [datagramReceived, hdrop, decodeReplace_ascii fun c hc => (hchars c hc).1]
  exact if_neg hne

/-! ## Numbers -/

lemma length_natText_le {n : ℕ} (h : n < 10 ^ 5) : (natText n).length ≤ 5 :=
  (Nat.length_toDigits_le_iff (by omega) (by omega)).mpr h

lemma int?_natText_of_lt {n : ℕ} (h : n < 10 ^ 5) : int? (natText n) = some (n : ℤ) := by
  rw [int?_natText, if_neg]
  exact not_lt.mpr ((length_natText_le h).trans (by decide))

lemma dport_lt {n : ℕ} (h : n ∈ [443, 80, 22, 53]) : n < 10 ^ 5 := by
  simp only [List.mem_cons, List.not_mem_nil, or_false] at h
  omega

/-! ## FortiGate lines -/

lemma plain_bare {key : String} {value : Text}
    (hkey : key.toList.all fun c => ShellWords.isBare c && !isSpace c && c ≠ '=')
    (hvalue : value.all isValue) : (bare key value).Plain := by
  rw [List.all_eq_true] at hkey hvalue
  refine ⟨fun c hc => ?_, fun _ c hc => ?_, nofun⟩
  · simpa [and_assoc] using hkey c hc
  · refine forall_isValue (P := fun c => ShellWords.isBare c ∧ isSpace c = false) (fun d hd => ?_)
      (by decide) (by decide) (by decide) (by decide) (hvalue c hc)
    have hblank : isSpace d = false := isSpace_of_decimal (by rw [decimal?_of_isDigit hd]; rfl)
    refine ⟨?_, hblank⟩
    simp [ShellWords.isBare, PyLexers.isShlexBlank, ne_of_isDigit hd (x := ' ') rfl,
      ne_of_isDigit hd (x := '\t') rfl, ne_of_isDigit hd (x := '\r') rfl,
      ne_of_isDigit hd (x := '\n') rfl, ne_of_isDigit hd (x := '\\') rfl,
      ne_of_isDigit hd (x := '\'') rfl, ne_of_isDigit hd (x := '"') rfl]

lemma plain_quoted {key value : String}
    (hkey : key.toList.all fun c => ShellWords.isBare c && !isSpace c && c ≠ '=')
    (hvalue : value.toList.all ShellWords.isQuotable) : (quoted key value).Plain := by
  rw [List.all_eq_true] at hkey hvalue
  exact ⟨fun c hc => by simpa [and_assoc] using hkey c hc, nofun, fun _ => hvalue⟩

section

variable (d : FgtDraw)

lemma all_drawn {names : List String} {p : Char → Bool} (h : names.all fun n => n.toList.all p)
    {name : String} (hmem : name ∈ names) : name.toList.all p :=
  List.all_eq_true.mp h name hmem

lemma plain_fgtFields : ∀ f ∈ fgtFields d, f.Plain := by
  have happ := all_drawn (p := ShellWords.isQuotable) (by decide) d.app_mem
  have hfqdn := all_drawn (p := ShellWords.isQuotable) (by decide) d.fqdn_mem
  simp only [fgtFields, List.forall_mem_cons, List.not_mem_nil, false_imp_iff, implies_true,
    and_true]
  exact ⟨plain_bare rfl (all_date rfl), plain_bare rfl (all_time _), plain_quoted rfl rfl,
    plain_quoted rfl rfl, plain_quoted rfl rfl, plain_quoted rfl rfl, plain_quoted rfl rfl,
    plain_quoted rfl rfl, plain_quoted rfl rfl, plain_bare rfl (all_host rfl _),
    plain_bare rfl (all_natText _), plain_bare rfl (all_host rfl _), plain_bare rfl (all_natText _),
    plain_bare rfl rfl, plain_quoted rfl rfl, plain_bare rfl (all_natText _),
    plain_bare rfl (all_natText _), plain_bare rfl (all_natText _), plain_bare rfl (all_natText _),
    plain_quoted rfl rfl, plain_quoted rfl happ, plain_quoted rfl rfl, plain_quoted rfl hfqdn⟩

lemma nodup_keys : ((fgtFields d).map LogField.key).Nodup := by
  have hkeys : (fgtFields d).map LogField.key = ["date", "time", "devname", "logid", "type",
      "subtype", "eventtype", "level", "vd", "srcip", "srcport", "dstip", "dstport", "proto",
      "action", "sentbyte", "rcvdbyte", "sentpkt", "rcvdpkt", "appcat", "app", "status",
      "hostname"] := rfl
  rw [hkeys]
  decide

/-- The field at a place is the one of its key. -/
lemma get?_fgtFields {i : ℕ} {f : LogField} (h : (fgtFields d)[i]? = some f) :
    (dictOf (fgtFields d)).get? f.key = some (String.ofList f.value) :=
  get?_dictOf (nodup_keys d) (List.mem_of_getElem? h)

lemma get?_quoted {i : ℕ} {key value : String} (h : (fgtFields d)[i]? = some (quoted key value)) :
    (dictOf (fgtFields d)).get? key = some value := by
  have hget := get?_fgtFields d h
  rwa [quoted, String.ofList_toList] at hget

lemma get?_bare {i : ℕ} {key : String} {value : Text} (h : (fgtFields d)[i]? = some (bare key value)) :
    (dictOf (fgtFields d)).get? key = some (String.ofList value) := by
  have hget := get?_fgtFields d h
  rwa [bare] at hget

lemma intField_bare {i : ℕ} {key : String} {n : ℕ} (hn : n < 10 ^ 5)
    (h : (fgtFields d)[i]? = some (bare key (natText n))) :
    intField (dictOf (fgtFields d)) key = some (n : ℤ) := by
  rw [intField, get?_bare d h]
  simp only [String.toList_ofList]
  exact int?_natText_of_lt hn

lemma nonEmptyField_quoted {i : ℕ} {key value : String} (hne : value ≠ "")
    (h : (fgtFields d)[i]? = some (quoted key value)) :
    nonEmptyField (dictOf (fgtFields d)) key = some value := by
  rw [nonEmptyField, get?_quoted d h]
  exact if_neg hne

theorem parseLine_fgtLine (now : Instant) :
    FortiGate.parseLine now (fgtLine d) = some (Line.event now (.fgt d)) := by
  have hkv : FortiGate.kv (fgtLine d) = some (dictOf (fgtFields d)) :=
    kv_logLine (by decide) (List.all_eq_true.mp (by decide)) (plain_fgtFields d)
  have hproto : intField (dictOf (fgtFields d)) "proto" = some 6 := by
    rw [intField, get?_bare d (i := 13) rfl]
    decide
  have happ : d.app ≠ "" := by
    rintro h
    exact absurd (h ▸ d.app_mem) (by decide)
  have hfqdn : d.fqdn ≠ "" := by
    rintro h
    exact absurd (h ▸ d.fqdn_mem) (by decide)
  rw [FortiGate.parseLine, hkv]
  simp only [Option.bind_eq_bind, Option.bind_some, get?_quoted d (i := 4) rfl,
    get?_quoted d (i := 5) rfl, get?_quoted d (i := 21) rfl, ne_eq, not_true_eq_false, if_false,
    get?_bare d (i := 9) rfl, get?_bare d (i := 11) rfl, hproto,
    intField_bare d (i := 10) (by have := d.sport_range; omega) rfl,
    intField_bare d (i := 12) (dport_lt d.dport_mem) rfl,
    intField_bare d (i := 15) (by have := d.sent_range; omega) rfl,
    intField_bare d (i := 16) (by have := d.rcvd_range; omega) rfl,
    intField_bare d (i := 17) (by have := d.spkt_range; omega) rfl,
    intField_bare d (i := 18) (by have := d.rpkt_range; omega) rfl,
    nonEmptyField_quoted d (i := 20) happ rfl, nonEmptyField_quoted d (i := 22) hfqdn rfl,
    get?_quoted d (i := 3) rfl, Dict.getD, get?_quoted d (i := 14) rfl]
  rfl

end

/-! ## Rows -/

lemma all_slashText {x : Char} (hx : isValue x = false) (hblank : x ≠ ' ') (t : Stamp) :
    t.slashText.all (isOther x) := by
  rw [Stamp.slashText, List.all_append, List.all_cons,
    all_mono (fun _ => isOther_of_isValue hx) (all_date rfl : (t.date '/').all isValue),
    all_mono (fun _ => isOther_of_isValue hx) (all_time t)]
  simp [isOther, hblank.symm]

lemma isDelimiter_of_isValue {c : Char} (hc : isValue c) : LogFormats.isDelimiter c = false := by
  refine forall_isValue (P := fun c => LogFormats.isDelimiter c = false) (fun d hd => ?_) rfl rfl
    rfl rfl hc
  simp [LogFormats.isDelimiter, ne_of_isDigit hd (x := ',') rfl, ne_of_isDigit hd (x := '"') rfl,
    ne_of_isDigit hd (x := '\n') rfl, ne_of_isDigit hd (x := '\r') rfl,
    ne_of_isDigit hd (x := '|') rfl, ne_of_isDigit hd (x := '\t') rfl]

lemma plain_value {s : Text} (h : s.all isValue) : ∀ c ∈ s, LogFormats.isDelimiter c = false :=
  fun c hc => isDelimiter_of_isValue (List.all_eq_true.mp h c hc)

lemma plain_text {s : Text} (h : s.all fun c => !LogFormats.isDelimiter c) :
    ∀ c ∈ s, LogFormats.isDelimiter c = false := by
  rw [List.all_eq_true] at h
  exact fun c hc => by simpa using h c hc

lemma plain_slashText (t : Stamp) : ∀ c ∈ t.slashText, LogFormats.isDelimiter c = false := by
  intro c hc
  rw [Stamp.slashText, List.mem_append, List.mem_cons] at hc
  rcases hc with hc | rfl | hc
  · exact plain_value (all_date rfl : (t.date '/').all isValue) c hc
  · rfl
  · exact plain_value (all_time t) c hc

/-- The one blank is not behind a colon. -/
lemma not_isInfix_slashText (t : Stamp) : isInfix ": ".toList t.slashText = false := by
  rw [Bool.eq_false_iff, Ne, isInfix_iff]
  rintro ⟨before, after, h⟩
  have hdate : ':' ∉ t.date '/' ∧ ' ' ∉ t.time := by
    refine ⟨fun hmem => ?_, fun hmem => ?_⟩
    · rcases mem_date hmem with hc | hc <;> cases hc
    · rcases mem_time hmem with hc | hc <;> cases hc
  have hparts : before ++ ':' :: ' ' :: after = t.date '/' ++ ' ' :: t.time := by
    simpa [Stamp.slashText] using h
  rcases List.append_eq_append_iff.mp hparts with ⟨cs, hleft, hright⟩ | ⟨cs, hleft, hright⟩
  · cases cs with
    | nil => cases hright
    | cons c cs =>
      obtain ⟨rfl, -⟩ := List.cons.inj hright
      exact hdate.1 (by simp [hleft])
  · cases cs with
    | nil => cases hright
    | cons c cs =>
      obtain ⟨rfl, htail⟩ := List.cons.inj hright
      exact hdate.2 (by rw [htail]; simp)

section

variable (d : PanDraw)

def panRecord : LogFormats.TrafficRecord where
  subtype := ⟨"end".toList, plain_text rfl⟩
  src := ⟨host "10.0.0." d.src, plain_value (all_host rfl d.src)⟩
  dst := ⟨host "52.97.1." d.dst, plain_value (all_host rfl d.dst)⟩
  srcPort := ⟨natText d.sport, plain_value (all_natText d.sport)⟩
  dstPort := ⟨natText d.dport, plain_value (all_natText d.dport)⟩
  proto := ⟨"tcp".toList, plain_text rfl⟩
  app := .ofString d.app
  bytes := ⟨natText d.bytes, plain_value (all_natText d.bytes)⟩
  packets := ⟨natText d.pkts, plain_value (all_natText d.pkts)⟩
  action := ⟨"allow".toList, plain_text rfl⟩

/-- The columns that the record says nothing about. -/
def panOthers : ℕ → LogFormats.Field
  | 0 => ⟨"1".toList, plain_text rfl⟩
  | 1 => ⟨d.now.slashText, plain_slashText d.now⟩
  | 2 => ⟨"001801000000".toList, plain_text rfl⟩
  | 5 => ⟨"2560".toList, plain_text rfl⟩
  | 6 => ⟨d.now.slashText, plain_slashText d.now⟩
  | 11 => ⟨"allow-all".toList, plain_text rfl⟩
  | 15 => ⟨"vsys1".toList, plain_text rfl⟩
  | 16 => ⟨"trust".toList, plain_text rfl⟩
  | 17 => ⟨"untrust".toList, plain_text rfl⟩
  | 18 => ⟨"ae1".toList, plain_text rfl⟩
  | 19 => ⟨"ae2".toList, plain_text rfl⟩
  | 28 => ⟨"0x400000".toList, plain_text rfl⟩
  | _ => ⟨[], plain_text rfl⟩

lemma app_text : (panRecord d).app.text = d.app.toList := by
  have happ := all_drawn (p := fun c => !LogFormats.isDelimiter c) (by decide) d.app_mem
  exact List.filter_eq_self.mpr (List.all_eq_true.mp happ)

lemma columns_panRecord : LogFormats.columns (panRecord d) (panOthers d) = panColumns d := by
  have hcolumns : LogFormats.columns (panRecord d) (panOthers d) =
      (panColumns d).set 14 (panRecord d).app.text := rfl
  rw [hcolumns, app_text]
  rfl

lemma row_panRecord : LogFormats.row (panRecord d) (panOthers d) = panLine d := by
  rw [LogFormats.row, columns_panRecord, panLine]

/-- What holds of the constants, the applications, the time and the numbers. -/
lemma forall_panColumns {P : Text → Prop}
    (hconst : ∀ s ∈ ["1", "001801000000", "TRAFFIC", "end", "2560", "", "allow-all", "vsys1",
      "trust", "untrust", "ae1", "ae2", "0x400000", "tcp", "allow"] ++ appsPan, P s.toList)
    (htime : P d.now.slashText) (hvalue : ∀ s : Text, s.length ≤ 13 → s.all isValue → P s) :
    ∀ col ∈ panColumns d, P col := by
  have happ := hconst d.app (List.mem_append_right _ d.app_mem)
  have hhost : ∀ net : String, net.toList.length ≤ 8 → net.toList.all isValue →
      ∀ n < 10 ^ 5, P (host net n) := by
    intro net hlength hnet n hn
    refine hvalue _ ?_ (all_host hnet n)
    rw [host, List.length_append]
    exact Nat.add_le_add hlength (length_natText_le hn)
  have hnumber : ∀ n < 10 ^ 5, P (natText n) := fun n hn =>
    hvalue _ ((length_natText_le hn).trans (by decide)) (all_natText n)
  have hsrc := hhost "10.0.0." (by decide) rfl d.src (by have := d.src_range; omega)
  have hdst := hhost "52.97.1." (by decide) rfl d.dst (by have := d.dst_range; omega)
  have hsport := hnumber d.sport (by have := d.sport_range; omega)
  have hdport := hnumber d.dport (dport_lt d.dport_mem)
  have hbytes := hnumber d.bytes (by have := d.bytes_range; omega)
  have hpkts := hnumber d.pkts (by have := d.pkts_range; omega)
  have hblank : P [] := hconst "" (by decide)
  simp only [panColumns, List.forall_mem_cons, List.not_mem_nil, false_imp_iff, implies_true,
    and_true]
  refine ⟨hconst _ (by decide), htime, hconst _ (by decide), hconst _ (by decide),
    hconst _ (by decide), hconst _ (by decide), htime, hsrc, hdst, hblank, hblank,
    hconst _ (by decide), hblank, hblank, happ, hconst _ (by decide), hconst _ (by decide),
    hconst _ (by decide), hconst _ (by decide), hconst _ (by decide), hblank, hblank, hblank,
    hblank, hsport, hdport, hblank, hblank, hconst _ (by decide), hconst _ (by decide),
    hconst _ (by decide), hbytes, hpkts⟩

lemma all_panLine {x : Char} (hx : x = '=' ∨ x = 'L') : (panLine d).all (isOther x) := by
  have hcolumns : ∀ col ∈ panColumns d, col.all (isOther x) := by
    have hsep : isValue x = false ∧ x ≠ ' ' := by
      rcases hx with rfl | rfl
      · exact ⟨rfl, by decide⟩
      · exact ⟨rfl, by decide⟩
    refine forall_panColumns d ?_ (all_slashText hsep.1 hsep.2 d.now)
      fun s _ hs => all_mono (fun _ => isOther_of_isValue hsep.1) hs
    rcases hx with rfl | rfl
    · decide
    · decide
  rw [List.all_eq_true]
  intro c hc
  rcases PyLexers.mem_csvRow hc with rfl | ⟨col, hcol, hc⟩
  · rcases hx with rfl | rfl <;> rfl
  · exact List.all_eq_true.mp (hcolumns col hcol) c hc

lemma notMem_of_all {s : Text} {x : Char} (h : s.all (isOther x)) : x ∉ s := by
  intro hmem
  have hother := List.all_eq_true.mp h x hmem
  simp [isOther] at hother

lemma blankInt_natText {n : ℕ} (h : n < 10 ^ 5) :
    PaloAlto.blankInt (natText n) = some (n : ℤ) := by
  have hne : natText n ≠ [] := by
    intro hnil
    have hint := int?_natText_of_lt h
    rw [hnil] at hint
    cases hint
  rw [PaloAlto.blankInt, if_neg hne, int?_natText_of_lt h]

lemma not_isInfix_of_notMem (sub : Text) {s : Text} {c : Char} (hc : c ∈ sub) (h : c ∉ s) :
    isInfix sub s = false := by
  rw [Bool.eq_false_iff, Ne, isInfix_iff]
  exact fun hpart => h (hpart.subset hc)

lemma rowAccepted : LogFormats.RowAccepted (panRecord d) (panOthers d) := by
  have huncut : ∀ col ∈ panColumns d, isInfix ": ".toList col = false := by
    refine forall_panColumns d (by decide) (not_isInfix_slashText d.now) fun s _ hs => ?_
    exact not_isInfix_of_notMem _ (c := ' ') (by decide)
      (notMem_of_all (all_mono (fun _ => isOther_of_isValue rfl) hs))
  have hshort : ∀ col ∈ panColumns d, col.length ≤ PyLexers.csvFieldLimit := by
    refine forall_panColumns d (by decide) ((length_slashText_le d.now).trans (by decide))
      fun s hs _ => hs.trans (by decide)
  refine ⟨⟨fun h => ?_, .inr fun col hcol => ?_, fun col hcol => ?_⟩, rfl, ?_⟩
  · have hmark := not_isInfix_of_notMem "LEEF:".toList (c := 'L') (by decide)
      (notMem_of_all (all_panLine d (.inr rfl)))
    rw [row_panRecord, hmark] at h
    cases h.1
  · rw [columns_panRecord] at hcol
    exact huncut col (List.mem_of_mem_tail hcol)
  · rw [LogFormats.readColumns, columns_panRecord] at hcol
    have hfirst : (PaloAlto.csvPayload "1".toList).length ≤ PyLexers.csvFieldLimit := by decide
    rcases List.mem_cons.mp hcol with rfl | hcol
    · exact hfirst
    · exact hshort col (List.mem_of_mem_tail hcol)
  · simp only [LogFormats.numbers, List.forall_mem_cons, List.not_mem_nil, false_imp_iff,
      implies_true, and_true, panRecord]
    rw [blankInt_natText (by have := d.sport_range; omega), blankInt_natText (dport_lt d.dport_mem),
      blankInt_natText (by have := d.bytes_range; omega),
      blankInt_natText (by have := d.pkts_range; omega)]
    exact ⟨rfl, rfl, rfl, rfl⟩

lemma generatedTime_panRecord (now : Instant) :
    PaloAlto.generatedTime now (LogFormats.readColumns (panRecord d) (panOthers d)) =
      d.now.instant := by
  have htime : PaloAlto.generatedTime now (LogFormats.readColumns (panRecord d) (panOthers d)) =
      PaloAlto.parseTs now d.now.slashText := rfl
  rw [htime, PaloAlto.parseTs, strptime?_slashText]

theorem eventOf_parseLine_panLine (now : Instant) :
    LogFormats.eventOf (PaloAlto.parseLine now (panLine d)) = some (Line.event now (.pan d)) := by
  have happ : d.app ≠ "" := by
    rintro h
    exact absurd (h ▸ d.app_mem) (by decide)
  have hevent := LogFormats.row_event (panRecord d) (panOthers d) (rowAccepted d)
    (blankInt_natText (n := d.sport) (by have := d.sport_range; omega))
    (blankInt_natText (dport_lt d.dport_mem))
    (blankInt_natText (n := d.bytes) (by have := d.bytes_range; omega))
    (blankInt_natText (n := d.pkts) (by have := d.pkts_range; omega)) now
  rw [row_panRecord, generatedTime_panRecord] at hevent
  rw [hevent, LogFormats.rowEvent, app_text, String.ofList_toList, orElse, if_neg happ]
  rfl

end

/-! ## The other adapter -/

section

variable (d : FgtDraw)

lemma all_fgtLine : (fgtLine d).all (isOther 'F') := by
  have hvalue {s : Text} (h : s.all isValue) : s.all (isOther 'F') :=
    all_mono (fun _ => isOther_of_isValue rfl) h
  have hbare {key : String} {value : Text} (hkey : key.toList.all (isOther 'F'))
      (h : value.all (isOther 'F')) : (bare key value).render.all (isOther 'F') := by
    have hrender : (bare key value).render = key.toList ++ '=' :: value := rfl
    rw [hrender, List.all_append, hkey, List.all_cons, h]
    rfl
  have hquoted {key value : String} (hkey : key.toList.all (isOther 'F'))
      (h : value.toList.all (isOther 'F')) : (quoted key value).render.all (isOther 'F') := by
    have hrender : (quoted key value).render =
        key.toList ++ '=' :: '"' :: (value.toList ++ ['"']) := rfl
    rw [hrender, List.all_append, hkey, List.all_cons, List.all_cons, List.all_append, h]
    rfl
  have happ := all_drawn (p := isOther 'F') (by decide) d.app_mem
  have hfqdn := all_drawn (p := isOther 'F') (by decide) d.fqdn_mem
  have hfields : ∀ f ∈ fgtFields d, f.render.all (isOther 'F') := by
    simp only [fgtFields, List.forall_mem_cons, List.not_mem_nil, false_imp_iff, implies_true,
      and_true]
    exact ⟨hbare rfl (hvalue (all_date rfl)), hbare rfl (hvalue (all_time _)), hquoted rfl rfl,
      hquoted rfl rfl, hquoted rfl rfl, hquoted rfl rfl, hquoted rfl rfl, hquoted rfl rfl,
      hquoted rfl rfl, hbare rfl (hvalue (all_host rfl _)), hbare rfl (hvalue (all_natText _)),
      hbare rfl (hvalue (all_host rfl _)), hbare rfl (hvalue (all_natText _)), hbare rfl rfl,
      hquoted rfl rfl, hbare rfl (hvalue (all_natText _)), hbare rfl (hvalue (all_natText _)),
      hbare rfl (hvalue (all_natText _)), hbare rfl (hvalue (all_natText _)), hquoted rfl rfl,
      hquoted rfl happ, hquoted rfl rfl, hquoted rfl hfqdn⟩
  have hbody : (body (fgtFields d)).all (isOther 'F') := by
    rw [List.all_eq_true]
    intro c hc
    rcases mem_intercalate hc with rfl | ⟨t, ht, hc⟩
    · rfl
    · obtain ⟨f, hf, rfl⟩ := List.mem_map.mp ht
      exact List.all_eq_true.mp (hfields f hf) c hc
  rw [fgtLine, logLine, List.all_cons, List.all_append, List.all_cons, hbody]
  rfl

lemma eventOf_parseLine_fgtLine (now : Instant) :
    LogFormats.eventOf (PaloAlto.parseLine now (fgtLine d)) = none := by
  have hmark := not_isInfix_of_notMem "LEEF:".toList (c := 'F') (by decide)
    (notMem_of_all (all_fgtLine d))
  have htraffic := not_isInfix_of_notMem "TRAFFIC".toList (c := 'F') (by decide)
    (notMem_of_all (all_fgtLine d))
  rw [PaloAlto.parseLine, hmark, htraffic]
  rfl

end

/-! ## From the generator to an adapter -/

lemma handle_paloAlto (allowlist : Option (Finset String)) (now : Instant) (peer : String)
    (s : Text) :
    FlowAdapter.handle ⟨.paloAlto, allowlist⟩ now (peer, String.ofList s) =
      if FlowAdapter.admits ⟨.paloAlto, allowlist⟩ peer then
        LogFormats.eventOf (PaloAlto.parseLine now s)
      else none := by
  simp only [FlowAdapter.handle, FlowAdapter.parseLine, String.toList_ofList]
  cases PaloAlto.parseLine now s <;> rfl

lemma handle_fortigate (allowlist : Option (Finset String)) (now : Instant) (peer : String)
    (s : Text) :
    FlowAdapter.handle ⟨.fortigate, allowlist⟩ now (peer, String.ofList s) =
      if FlowAdapter.admits ⟨.fortigate, allowlist⟩ peer then FortiGate.parseLine now s
      else none := by
  simp only [FlowAdapter.handle, FlowAdapter.parseLine, String.toList_ofList]

lemma datagramReceived_datagram (peer : String) (l : Line) :
    datagramReceived peer l.datagram = [(peer, String.ofList l.text)] := by
  cases l with
  | pan d => exact datagramReceived_line peer (by simp [Line.text, panLine, panColumns,
      PyLexers.csvRow_cons_cons]) (all_panLine d (.inr rfl))
  | fgt d => exact datagramReceived_line peer (List.cons_ne_nil _ _) (all_fgtLine d)

/-- A line that its sender put into a datagram. -/
structure Sent where
  peer : String
  line : Line

namespace Sent

def message (p : Sent) : Message := (p.peer, String.ofList p.line.text)

/-- The adapter makes an event of the line. -/
def For (p : Sent) (a : FlowAdapter) : Prop := a.admits p.peer ∧ a.cls = p.line.vendor

instance (p : Sent) (a : FlowAdapter) : Decidable (p.For a) := inferInstanceAs (Decidable (_ ∧ _))

end Sent

lemma handle_message (p : Sent) (a : FlowAdapter) (now : Instant) :
    a.handle now p.message = if p.For a then some (p.line.event now) else none := by
  obtain ⟨peer, l⟩ := p
  obtain ⟨cls, allowlist⟩ := a
  cases cls with
  | paloAlto =>
    rw [Sent.message, handle_paloAlto]
    cases l with
    | pan d => simp only [Line.text, eventOf_parseLine_panLine, Sent.For, Line.vendor, and_true]
    | fgt d => simp [Line.text, eventOf_parseLine_fgtLine, Sent.For, Line.vendor]
  | fortigate =>
    rw [Sent.message, handle_fortigate]
    cases l with
    | pan d =>
      simp [Line.text, parseLine_of_no_sign now (notMem_of_all (all_panLine d (.inl rfl))),
        Sent.For, Line.vendor]
    | fgt d => simp only [Line.text, parseLine_fgtLine, Sent.For, Line.vendor, and_true]

/-- A generated line arrives as it was made, and the adapter of its vendor, for a peer that it
admits, makes the event of what was drawn. Any other adapter drops the line. -/
theorem generated_line_read_back (p : Sent) (a : FlowAdapter) (now : Instant) :
    datagramReceived p.peer p.line.datagram = [p.message] ∧
      a.handle now p.message = if p.For a then some (p.line.event now) else none :=
  ⟨datagramReceived_datagram p.peer p.line, handle_message p a now⟩

/-! ## From the generator to the publisher -/

/-- A line is sent, or the task of an adapter takes a message. -/
inductive Action where
  | send (p : Sent)
  | get (task : ℕ) (now : Instant)

/-- The ingest with two histories: the adapters whose tasks handed over the events of
`handed`, and those that dropped the messages of `discarded`. -/
structure State (queueMax : ℕ) where
  ingest : Ingest queueMax
  handedBy : List FlowAdapter
  discardedBy : List FlowAdapter

variable {queueMax : ℕ}

def initial : State queueMax := ⟨FlowIngest.initial, [], []⟩

/-- One iteration of an adapter's `run`, with who it was. -/
def get (a : FlowAdapter) (now : Instant) (s : State queueMax) : State queueMax :=
  let ingest := adapterGet a now s.ingest
  match s.ingest.queue.items with
  | [] => { s with ingest }
  | m :: _ =>
    if (a.handle now m).isSome then { s with ingest, handedBy := s.handedBy ++ [a] }
    else { s with ingest, discardedBy := s.discardedBy ++ [a] }

def step (adapters : List FlowAdapter) (s : State queueMax) : Action → State queueMax
  | .send p =>
    { s with ingest := (datagramReceived p.peer p.line.datagram).foldl enqueue s.ingest }
  | .get task now =>
    match adapters[task]? with
    | none => s
    | some a => get a now s

def sentBy (schedule : List Action) : List Sent :=
  schedule.filterMap fun
    | .send p => some p
    | .get _ _ => none

/-- A line that the task of an adapter took from the queue. -/
structure Taken where
  sent : Sent
  adapter : FlowAdapter
  now : Instant

/-- Where the lines are: in the queue, with the publisher, dropped by an adapter or pushed
out of the queue. -/
structure Places where
  waiting : List Sent
  published : List Taken
  discarded : List Taken
  evicted : List Sent

namespace Places

def all (w : Places) : List Sent :=
  w.waiting ++ (w.published.map Taken.sent ++ (w.discarded.map Taken.sent ++ w.evicted))

/-- The ingest has every line in its place. The publisher has the events of what was drawn,
each from an adapter that the line was for, and an adapter drops only lines that are not
for it. -/
structure Of (w : Places) (adapters : List FlowAdapter) (s : State queueMax) : Prop where
  waiting : s.ingest.queue.items = w.waiting.map Sent.message
  published : s.ingest.handed = w.published.map fun h => (h.sent.message, h.sent.line.event h.now)
  publishedBy : s.handedBy = w.published.map Taken.adapter
  discarded : s.ingest.discarded = w.discarded.map fun h => h.sent.message
  discardedBy : s.discardedBy = w.discarded.map Taken.adapter
  evicted : s.ingest.evicted = w.evicted.map Sent.message
  forTaker : ∀ h ∈ w.published, h.adapter ∈ adapters ∧ h.sent.For h.adapter
  notForTaker : ∀ h ∈ w.discarded, h.adapter ∈ adapters ∧ ¬ h.sent.For h.adapter

/-- To publish the first waiting line moves it from one place to another. -/
lemma publish_perm {w : Places} {h : Taken} {waiting : List Sent}
    (hw : w.waiting = h.sent :: waiting) :
    ({ w with waiting := waiting, published := w.published ++ [h] } : Places).all.Perm w.all := by
  simp only [all, hw, List.map_append, List.map_singleton, List.append_assoc, List.cons_append]
  rw [← List.append_assoc]
  refine List.perm_middle.trans ?_
  rw [List.append_assoc, List.nil_append]

/-- And so does to discard it. -/
lemma discard_perm {w : Places} {h : Taken} {waiting : List Sent}
    (hw : w.waiting = h.sent :: waiting) :
    ({ w with waiting := waiting, discarded := w.discarded ++ [h] } : Places).all.Perm w.all := by
  simp only [all, hw, List.map_append, List.map_singleton, List.append_assoc, List.cons_append]
  rw [← List.append_assoc, ← List.append_assoc]
  refine List.perm_middle.trans ?_
  rw [List.append_assoc, List.append_assoc, List.nil_append]

end Places

/-- Every line that was sent is in one place. -/
def Located (adapters : List FlowAdapter) (sent : List Sent) (s : State queueMax) : Prop :=
  ∃ w : Places, w.Of adapters s ∧ w.all.Perm sent

section

variable {adapters : List FlowAdapter} {sent : List Sent} {s : State queueMax}

/-- What an adapter's task does with the first message. -/
lemma get_cases (a : FlowAdapter) (now : Instant) (s : State queueMax) :
    (s.ingest.queue.items = [] ∧ get a now s = s) ∨
    (∃ m q ev, s.ingest.queue.items = m :: q.items ∧ a.handle now m = some ev ∧
      get a now s =
        { ingest := { s.ingest with queue := q, handed := s.ingest.handed ++ [(m, ev)] }
          handedBy := s.handedBy ++ [a]
          discardedBy := s.discardedBy }) ∨
    (∃ m q, s.ingest.queue.items = m :: q.items ∧ a.handle now m = none ∧
      get a now s =
        { ingest := { s.ingest with queue := q, discarded := s.ingest.discarded ++ [m] }
          handedBy := s.handedBy
          discardedBy := s.discardedBy ++ [a] }) := by
  unfold get
  obtain ⟨hi, he⟩ | ⟨m, q, ev, hi, hhandle, he⟩ | ⟨m, q, hi, hhandle, he⟩ :=
    adapterGet_cases a now s.ingest
  · exact .inl ⟨hi, by simp only [hi, he]⟩
  · exact .inr (.inl ⟨m, q, ev, hi, hhandle, by simp only [hi, he, hhandle, Option.isSome_some, if_true]⟩)
  · exact .inr (.inr ⟨m, q, hi, hhandle, by simp [hi, he, hhandle]⟩)

lemma Located.send (h : Located adapters sent s) (p : Sent) :
    Located adapters (sent ++ [p]) (step adapters s (.send p)) := by
  obtain ⟨w, hw, hperm⟩ := h
  have hqueue := s.ingest.queue.putDropOldest_conserves p.message
  rw [hw.waiting, ← List.map_singleton, ← List.map_append, eq_comm, List.map_eq_append_iff]
    at hqueue
  obtain ⟨evicted, waiting, hparts, hevicted, hwaiting⟩ := hqueue
  have hstep : step adapters s (.send p) = { s with ingest := enqueue s.ingest p.message } := by
    rw [step, datagramReceived_datagram]
    rfl
  rw [hstep]
  refine ⟨{ w with waiting := waiting, evicted := w.evicted ++ evicted },
    { hw with waiting := hwaiting.symm, evicted := ?_ }, ?_⟩
  · simp only [enqueue, hw.evicted, List.map_append, hevicted]
  · -- what is queued and pushed out now was queued or is the new line
    classical
    rw [List.perm_iff_count] at hperm ⊢
    intro q
    have hq := hperm q
    have hcount := congrArg (List.count q) hparts
    simp only [Places.all, List.count_append] at hq hcount ⊢
    omega

lemma Located.get (h : Located adapters sent s) {a : FlowAdapter} (ha : a ∈ adapters)
    (now : Instant) : Located adapters sent (get a now s) := by
  obtain ⟨w, hw, hperm⟩ := h
  have hfirst {m : Message} {rest : List Message} (hi : s.ingest.queue.items = m :: rest) :
      ∃ p waiting, w.waiting = p :: waiting ∧ m = p.message ∧ rest = waiting.map Sent.message := by
    rw [hw.waiting, List.map_eq_cons_iff] at hi
    obtain ⟨p, waiting, hwaiting, hm, hrest⟩ := hi
    exact ⟨p, waiting, hwaiting, hm.symm, hrest.symm⟩
  obtain ⟨_, he⟩ | ⟨m, q, ev, hi, hhandle, he⟩ | ⟨m, q, hi, hhandle, he⟩ := get_cases a now s
  · rw [he]
    exact ⟨w, hw, hperm⟩
  · obtain ⟨p, waiting, hwaiting, rfl, hrest⟩ := hfirst hi
    rw [handle_message] at hhandle
    split_ifs at hhandle with hfor
    obtain rfl := Option.some.inj hhandle
    rw [he]
    refine ⟨{ w with waiting := waiting, published := w.published ++ [⟨p, a, now⟩] },
      { hw with waiting := hrest, published := ?_, publishedBy := ?_, forTaker := ?_ },
      (Places.publish_perm (h := ⟨p, a, now⟩) hwaiting).trans hperm⟩
    · simp only [hw.published, List.map_append, List.map_singleton]
    · simp only [hw.publishedBy, List.map_append, List.map_singleton]
    · rw [List.forall_mem_append]
      exact ⟨hw.forTaker, by simpa using ⟨ha, hfor⟩⟩
  · obtain ⟨p, waiting, hwaiting, rfl, hrest⟩ := hfirst hi
    rw [handle_message] at hhandle
    split_ifs at hhandle with hfor
    rw [he]
    refine ⟨{ w with waiting := waiting, discarded := w.discarded ++ [⟨p, a, now⟩] },
      { hw with waiting := hrest, discarded := ?_, discardedBy := ?_, notForTaker := ?_ },
      (Places.discard_perm (h := ⟨p, a, now⟩) hwaiting).trans hperm⟩
    · simp only [hw.discarded, List.map_append, List.map_singleton]
    · simp only [hw.discardedBy, List.map_append, List.map_singleton]
    · rw [List.forall_mem_append]
      exact ⟨hw.notForTaker, by simpa using ⟨ha, hfor⟩⟩

lemma Located.step (h : Located adapters sent s) (action : Action) :
    Located adapters (sent ++ sentBy [action]) (MockGenerator.step adapters s action) := by
  cases action with
  | send p => exact h.send p
  | get task now =>
    have hnone : sentBy [.get task now] = [] := rfl
    rw [hnone, List.append_nil, MockGenerator.step]
    cases htask : adapters[task]? with
    | none => exact h
    | some a => exact h.get (List.mem_of_getElem? htask) now

lemma Located.run (h : Located adapters sent s) (schedule : List Action) :
    Located adapters (sent ++ sentBy schedule) (Machine.run (MockGenerator.step adapters) s schedule) := by
  induction schedule generalizing sent s with
  | nil =>
    rw [sentBy, List.filterMap_nil, List.append_nil]
    exact h
  | cons action rest ih =>
    have hcons : sentBy (action :: rest) = sentBy [action] ++ sentBy rest := by
      rw [← List.singleton_append, sentBy, List.filterMap_append]
      rfl
    rw [hcons, ← List.append_assoc]
    exact ih (h.step action)

end

/-- Whatever the order in which lines are sent and tasks take messages, the publisher has at
most one event for each line that was sent, the one of what was drawn, from an adapter that
the line is for. -/
theorem generated_flows_located (adapters : List FlowAdapter) (schedule : List Action) :
    Located adapters (sentBy schedule)
      (Machine.run (step adapters) (initial : State queueMax) schedule) := by
  have hinitial : Located adapters [] (initial : State queueMax) :=
    ⟨⟨[], [], [], []⟩, ⟨rfl, rfl, rfl, rfl, rfl, rfl, nofun, nofun⟩, .refl _⟩
  exact Located.run hinitial schedule

end FlowDiscovery.MockGenerator
