import FlowDiscovery.Ad4624
import FlowDiscovery.LogFormats
import FlowDiscovery.PyJsonNesting

/-!
# Syslog headers

Both adapters take what stands in front of the first colon and blank for a syslog
header, also when the line has none. So a bare payload is read as it is only if it has
no colon with a blank behind it. A header can do more to a firewall row: with the two
marks of LEEF in it, the row goes to the other parser.
-/
namespace FlowDiscovery.SyslogHeader
open PyText PyTime PyLexers PyJson FlowAdapters FlowAdapters.PaloAlto LogFormats

/-! ## Lines -/

/-- The text of a header in front of the colon. -/
structure Header where
  text : Text
  unsplit : isInfix ": ".toList text = false

def framed (h : Header) (payload : Text) : Text := h.text ++ ": ".toList ++ payload

/-- A text that the reader takes for one complete row. -/
structure TrafficRow where
  text : Text
  fields : List Text
  read : firstCsvRecord text = .ok (some fields)
  complete : 33 ≤ fields.length
  traffic : fields[3]? = some "TRAFFIC".toList
  named : isInfix "TRAFFIC".toList text = true

/-- A text that is decoded to an object. -/
structure LogonDocument (float : Text → Text) where
  text : Text
  members : List (PyStr × Json)
  decoded : loads float (ofText text) = some (.obj members)

/-! ## The property and its condition -/

def RowAlike (now : Instant) (h : Header) (row : TrafficRow) : Prop :=
  parseLine now (framed h row.text) = parseLine now row.text

def LogonAlike (py : Ad4624.Builtins) (h : Header) (doc : LogonDocument py.float) : Prop :=
  Ad4624.parse py (framed h doc.text) = Ad4624.parse py doc.text

/-- The line goes to the parser of LEEF. -/
def Marked (line : Text) : Prop :=
  isInfix "LEEF:".toList line = true ∧ isInfix "Palo Alto Networks".toList line = true

/-- The columns of a session that has ended, with numbers that are blank or numbers. -/
structure Reported (fields : List Text) : Prop where
  complete : 33 ≤ fields.length
  traffic : fields[3]? = some "TRAFFIC".toList
  ended : fields[4]? = some "end".toList
  numbers : ∀ i ∈ [24, 25, 31, 32], (fields[i]? >>= blankInt).isSome

/-- The same session, in the columns that are used of it. -/
structure SameSession (now : Instant) (fields fields' : List Text) : Prop where
  texts : ∀ i ∈ [7, 8, 14, 30], fields[i]? = fields'[i]?
  numbers : ∀ i ∈ [24, 25, 31, 32], (fields[i]? >>= blankInt) = (fields'[i]? >>= blankInt)
  protocol : fields[29]?.map PaloAlto.proto = fields'[29]?.map PaloAlto.proto
  time : generatedTime now fields = generatedTime now fields'

/-- What is left of a row behind its first colon and blank is read without an error, and
neither of the two is reported or it is the row of the same session again. -/
def CutUnnoticed (now : Instant) (row : TrafficRow) : Prop :=
  ∃ record, firstCsvRecord (csvPayload row.text) = .ok record ∧
    (¬ Reported row.fields ∧ (∀ fields ∈ record, ¬ Reported fields) ∨
      Reported row.fields ∧
        ∃ fields ∈ record, Reported fields ∧ SameSession now row.fields fields)

/-- Nothing is reported of what is left of a row, nor is there an error. -/
def Unreported (row : TrafficRow) : Prop :=
  ∃ record, firstCsvRecord (csvPayload row.text) = .ok record ∧ ∀ fields ∈ record, ¬ Reported fields

/-! ## Framing -/

/-- A separator of two characters behind a text without it. -/
lemma splitOnce_pair {a b : Char} (hab : a ≠ b) {s : Text} (h : isInfix [a, b] s = false)
    (t : Text) : splitOnce [a, b] (s ++ a :: b :: t) = some (s, t) := by
  induction s with
  | nil => simp [splitOnce, List.isPrefixOf]
  | cons c cs ih =>
    rw [isInfix, splitOnce] at h
    split_ifs at h with hprefix
    · cases h
    · rw [Option.isSome_map] at h
      have hnot : ¬ [a, b].isPrefixOf (c :: (cs ++ a :: b :: t)) = true := by
        cases cs with
        | nil =>
          intro hpair
          simp only [List.nil_append, List.isPrefixOf, Bool.and_eq_true, beq_iff_eq] at hpair
          exact hab hpair.2.1.symm
        | cons d ds => simpa [List.isPrefixOf] using hprefix
      rw [List.cons_append, splitOnce, if_neg hnot, ih h]
      rfl

lemma splitOnce_framed (h : Header) (payload : Text) :
    splitOnce ": ".toList (framed h payload) = some (h.text, payload) := by
  have hopen : isInfix [':', ' '] h.text = false := h.unsplit
  rw [framed, List.append_assoc]
  exact splitOnce_pair (by decide) hopen payload

lemma csvPayload_framed (h : Header) (payload : Text) :
    csvPayload (framed h payload) = payload := by
  rw [csvPayload, splitOnce_framed]

lemma suffix_framed (h : Header) (payload : Text) : payload <:+ framed h payload :=
  ⟨h.text ++ ": ".toList, rfl⟩

lemma isInfix_framed {sub payload : Text} (hsub : isInfix sub payload = true) (h : Header) :
    isInfix sub (framed h payload) = true :=
  isInfix_iff.mpr ((isInfix_iff.mp hsub).trans (suffix_framed h payload).isInfix)

lemma marked_framed {payload : Text} (hmarked : Marked payload) (h : Header) :
    Marked (framed h payload) :=
  ⟨isInfix_framed hmarked.1 h, isInfix_framed hmarked.2 h⟩

/-! ## Firewall rows -/

lemma parseLine_of_marked {line : Text} (h : Marked line) (now : Instant) :
    parseLine now line = .ok (parseLeef now line) := by
  rw [parseLine, h.1, h.2]
  rfl

lemma parseLine_of_not_marked {line : Text} (h : ¬ Marked line)
    (htraffic : isInfix "TRAFFIC".toList line = true) (now : Instant) :
    parseLine now line = parseCsv now line := by
  have hnot : ¬ (isInfix "LEEF:".toList line && isInfix "Palo Alto Networks".toList line) =
      true := fun hboth => h (Bool.and_eq_true_iff.mp hboth)
  rw [parseLine, if_neg hnot, if_pos htraffic]

/-- The parser of LEEF lines begins at its mark. -/
lemma parseLeef_framed {h : Header} {payload : Text}
    (hheader : isInfix "LEEF:".toList (h.text ++ [':']) = false) (now : Instant) :
    parseLeef now (framed h payload) = parseLeef now payload := by
  have hline : framed h payload = (h.text ++ [':']) ++ ' ' :: payload := by simp [framed]
  rw [parseLeef, parseLeef, hline, fromFirst_append_cons (by decide) (by decide) hheader]

theorem rowAlike_of_marked {h : Header} {row : TrafficRow} (hmarked : Marked row.text)
    (hheader : isInfix "LEEF:".toList (h.text ++ [':']) = false) (now : Instant) :
    RowAlike now h row := by
  rw [RowAlike, parseLine_of_marked (marked_framed hmarked h), parseLine_of_marked hmarked,
    parseLeef_framed hheader]

/-- What is used of a session. -/
structure Session where
  srcIp : Text
  dstIp : Text
  app : Text
  protoText : Text
  action : Text
  srcPort : ℤ
  dstPort : ℤ
  bytes : ℤ
  packets : ℤ

namespace Session

/-- The columns hold the session. -/
structure In (v : Session) (fields : List Text) : Prop where
  srcIp : fields[7]? = some v.srcIp
  dstIp : fields[8]? = some v.dstIp
  app : fields[14]? = some v.app
  protoText : fields[29]? = some v.protoText
  action : fields[30]? = some v.action
  srcPort : fields[24]? >>= blankInt = some v.srcPort
  dstPort : fields[25]? >>= blankInt = some v.dstPort
  bytes : fields[31]? >>= blankInt = some v.bytes
  packets : fields[32]? >>= blankInt = some v.packets

def event (v : Session) (ts : Instant) : FlowEvent where
  ts := ts
  srcIp := String.ofList v.srcIp
  srcPort := v.srcPort
  dstIp := String.ofList v.dstIp
  dstPort := v.dstPort
  proto := PaloAlto.proto v.protoText
  bytes := v.bytes
  packets := v.packets
  action := String.ofList v.action
  fqdn := none
  appId := orElse (some (String.ofList v.app)) none
  source := PaloAlto.name
  rawId := none

lemma csvEvent_of_in {v : Session} {fields : List Text} (h : v.In fields) (now : Instant) :
    csvEvent now fields = some (v.event (generatedTime now fields)) := by
  rw [csvEvent, h.srcIp, h.srcPort, h.dstIp, h.dstPort, h.protoText, h.bytes, h.packets, h.action,
    h.app]
  rfl

end Session

/-- The row of a session is reported. -/
lemma exists_session {fields : List Text} (h : Reported fields) : ∃ v : Session, v.In fields := by
  have hlength := h.complete
  have hfield : ∀ i, i < 33 → ∃ t, fields[i]? = some t := fun i hi =>
    ⟨_, List.getElem?_eq_getElem (by omega)⟩
  have hnumber := fun i hi => Option.isSome_iff_exists.mp (h.numbers i hi)
  obtain ⟨srcIp, hsrcIp⟩ := hfield 7 (by omega)
  obtain ⟨dstIp, hdstIp⟩ := hfield 8 (by omega)
  obtain ⟨app, happ⟩ := hfield 14 (by omega)
  obtain ⟨protoText, hproto⟩ := hfield 29 (by omega)
  obtain ⟨action, haction⟩ := hfield 30 (by omega)
  obtain ⟨srcPort, hsrcPort⟩ := hnumber 24 (by simp)
  obtain ⟨dstPort, hdstPort⟩ := hnumber 25 (by simp)
  obtain ⟨bytes, hbytes⟩ := hnumber 31 (by simp)
  obtain ⟨packets, hpackets⟩ := hnumber 32 (by simp)
  exact ⟨⟨srcIp, dstIp, app, protoText, action, srcPort, dstPort, bytes, packets⟩, hsrcIp, hdstIp,
    happ, hproto, haction, hsrcPort, hdstPort, hbytes, hpackets⟩

/-- The event of what the reader returns. -/
def recordEvent (now : Instant) : Option (List Text) → Option FlowEvent
  | none => none
  | some fields =>
    if fields.length < minPanCsvFields ∨ fields[3]? ≠ some "TRAFFIC".toList then none
    else if fields[4]? ≠ some "end".toList then none
    else csvEvent now fields

lemma parseCsv_eq_map (now : Instant) (line : Text) :
    parseCsv now line = (firstCsvRecord (csvPayload line)).map (recordEvent now) := by
  rw [parseCsv]
  rcases firstCsvRecord (csvPayload line) with e | none | fields
  · rfl
  · rfl
  · rfl

lemma recordEvent_of_reported {fields : List Text} (h : Reported fields) (now : Instant) :
    recordEvent now (some fields) = csvEvent now fields := by
  have henough : ¬ fields.length < 32 := by
    have hcomplete := h.complete
    omega
  simp only [recordEvent, minPanCsvFields, henough, h.traffic, h.ended, ne_eq, not_true_eq_false,
    or_false, if_false]

/-- Any other row has no event. -/
lemma recordEvent_of_not_reported {fields : List Text} (h : ¬ Reported fields) (now : Instant) :
    recordEvent now (some fields) = none := by
  by_contra hsome
  obtain ⟨ev, hev⟩ := Option.ne_none_iff_exists'.mp hsome
  rw [recordEvent] at hev
  split_ifs at hev with hrow hended
  obtain ⟨-, htraffic⟩ := not_or.mp hrow
  unfold csvEvent at hev
  obtain ⟨_, -, hev⟩ := Option.bind_eq_some_iff.mp hev
  obtain ⟨srcPort, hsrcPort, hev⟩ := Option.bind_eq_some_iff.mp hev
  obtain ⟨_, -, hev⟩ := Option.bind_eq_some_iff.mp hev
  obtain ⟨dstPort, hdstPort, hev⟩ := Option.bind_eq_some_iff.mp hev
  obtain ⟨_, -, hev⟩ := Option.bind_eq_some_iff.mp hev
  obtain ⟨bytes, hbytes, hev⟩ := Option.bind_eq_some_iff.mp hev
  obtain ⟨packets, hpackets, -⟩ := Option.bind_eq_some_iff.mp hev
  obtain ⟨last, hlast, -⟩ := Option.bind_eq_some_iff.mp hpackets
  obtain ⟨hlength, -⟩ := List.getElem?_eq_some_iff.mp hlast
  refine h ⟨by omega, not_not.mp htraffic, not_not.mp hended, ?_⟩
  simp only [List.forall_mem_cons, List.not_mem_nil, false_imp_iff, implies_true, and_true]
  rw [hsrcPort, hdstPort, hbytes, hpackets]
  exact ⟨rfl, rfl, rfl, rfl⟩

lemma csvEvent_eq_iff {fields fields' : List Text} (h : Reported fields) (h' : Reported fields')
    (now : Instant) :
    csvEvent now fields = csvEvent now fields' ↔ SameSession now fields fields' := by
  obtain ⟨v, hv⟩ := exists_session h
  obtain ⟨v', hv'⟩ := exists_session h'
  rw [Session.csvEvent_of_in hv, Session.csvEvent_of_in hv']
  constructor
  · intro hevent
    obtain ⟨hts, hsrcIp, hsrcPort, hdstIp, hdstPort, hproto, hbytes, hpackets, haction, -, happ, -,
      -⟩ := FlowEvent.mk.inj (Option.some.inj hevent)
    rw [String.ofList_inj] at hsrcIp hdstIp haction
    constructor
    case texts =>
      simp only [List.forall_mem_cons, List.not_mem_nil, false_imp_iff, implies_true, and_true]
      rw [hv.srcIp, hv'.srcIp, hv.dstIp, hv'.dstIp, hv.app, hv'.app, hv.action, hv'.action,
        hsrcIp, hdstIp, (appId_eq_iff _ _).mp happ, haction]
      exact ⟨rfl, rfl, rfl, rfl⟩
    case numbers =>
      simp only [List.forall_mem_cons, List.not_mem_nil, false_imp_iff, implies_true, and_true]
      rw [hv.srcPort, hv'.srcPort, hv.dstPort, hv'.dstPort, hv.bytes, hv'.bytes, hv.packets,
        hv'.packets, hsrcPort, hdstPort, hbytes, hpackets]
      exact ⟨rfl, rfl, rfl, rfl⟩
    case protocol => rw [hv.protoText, hv'.protoText, Option.map_some, Option.map_some, hproto]
    case time => exact hts
  · intro hsame
    obtain ⟨htexts, hnumbers, hproto, htime⟩ := hsame
    simp only [List.forall_mem_cons, List.not_mem_nil, false_imp_iff, implies_true, and_true,
      hv.srcIp, hv'.srcIp, hv.dstIp, hv'.dstIp, hv.app, hv'.app, hv.action, hv'.action,
      Option.some.injEq] at htexts
    simp only [List.forall_mem_cons, List.not_mem_nil, false_imp_iff, implies_true, and_true,
      hv.srcPort, hv'.srcPort, hv.dstPort, hv'.dstPort, hv.bytes, hv'.bytes, hv.packets,
      hv'.packets, Option.some.injEq] at hnumbers
    rw [hv.protoText, hv'.protoText, Option.map_some, Option.map_some, Option.some.injEq] at hproto
    obtain ⟨hsrcIp, hdstIp, happ, haction⟩ := htexts
    obtain ⟨hsrcPort, hdstPort, hbytes, hpackets⟩ := hnumbers
    rw [Session.event, Session.event, hsrcIp, hdstIp, happ, haction, hsrcPort, hdstPort, hbytes,
      hpackets, hproto, htime]

lemma recordEvent_eq_none_iff (now : Instant) (record : Option (List Text)) :
    recordEvent now record = none ↔ ∀ fields ∈ record, ¬ Reported fields := by
  cases record with
  | none => exact iff_of_true rfl fun _ hnone => nomatch hnone
  | some fields =>
    simp only [Option.mem_def, Option.some.injEq, forall_eq']
    by_cases hrow : Reported fields
    · obtain ⟨v, hv⟩ := exists_session hrow
      rw [recordEvent_of_reported hrow, Session.csvEvent_of_in hv]
      exact iff_of_false nofun fun hnot => hnot hrow
    · exact iff_of_true (recordEvent_of_not_reported hrow now) hrow

lemma recordEvent_eq_iff (now : Instant) (fields : List Text) (record : Option (List Text)) :
    recordEvent now (some fields) = recordEvent now record ↔
      ¬ Reported fields ∧ (∀ fields' ∈ record, ¬ Reported fields') ∨
        Reported fields ∧ ∃ fields' ∈ record, Reported fields' ∧ SameSession now fields fields' := by
  by_cases hrow : Reported fields
  · simp only [hrow, not_true_eq_false, false_and, false_or, true_and]
    obtain ⟨v, hv⟩ := exists_session hrow
    cases record with
    | none =>
      rw [recordEvent_of_reported hrow, Session.csvEvent_of_in hv]
      exact iff_of_false nofun fun ⟨_, hnone, _⟩ => nomatch hnone
    | some fields' =>
      simp only [Option.mem_def, Option.some.injEq, exists_eq_left']
      by_cases hrow' : Reported fields'
      · rw [recordEvent_of_reported hrow, recordEvent_of_reported hrow', csvEvent_eq_iff hrow hrow',
          and_iff_right hrow']
      · rw [recordEvent_of_reported hrow, recordEvent_of_not_reported hrow',
          Session.csvEvent_of_in hv]
        exact iff_of_false nofun fun hboth => hrow' hboth.1
  · simp only [hrow, not_false_eq_true, true_and, false_and, or_false]
    rw [recordEvent_of_not_reported hrow, eq_comm, recordEvent_eq_none_iff]

/-- Behind a header that leaves the row with its parser, a row is parsed alike exactly if
it is not cut or the cut is not noticed. -/
theorem rowAlike_iff_of_unmarked {h : Header} {row : TrafficRow}
    (hmarked : ¬ Marked (framed h row.text)) (now : Instant) :
    RowAlike now h row ↔ isInfix ": ".toList row.text = false ∨ CutUnnoticed now row := by
  have hbareMarked : ¬ Marked row.text := fun hrow => hmarked (marked_framed hrow h)
  rw [RowAlike, parseLine_of_not_marked hmarked (isInfix_framed row.named h),
    parseLine_of_not_marked hbareMarked row.named, parseCsv_eq_map, parseCsv_eq_map,
    csvPayload_framed, row.read]
  by_cases hbare : isInfix ": ".toList row.text = false
  · rw [csvPayload_of_not_isInfix hbare, row.read]
    exact iff_of_true rfl (.inl hbare)
  · rw [or_iff_right hbare, CutUnnoticed]
    cases firstCsvRecord (csvPayload row.text) with
    | error e => exact iff_of_false nofun fun ⟨_, hread, _⟩ => nomatch hread
    | ok record =>
      simp only [Except.map, Except.ok.injEq, exists_eq_left', recordEvent_eq_iff]

/-- Behind a header that takes the row to the other parser, which finds no LEEF line, a row is
parsed alike exactly if it goes there without the header as well or is not reported. -/
theorem rowAlike_iff_of_few_pipes {h : Header} {row : TrafficRow}
    (hmarked : Marked (framed h row.text)) (hpipes : (framed h row.text).count '|' < 5)
    (now : Instant) : RowAlike now h row ↔ Marked row.text ∨ Unreported row := by
  rw [RowAlike, parseLine_of_marked hmarked, parseLeef_of_few_pipes hpipes]
  by_cases hrow : Marked row.text
  · have hfew : row.text.count '|' < 5 :=
      ((suffix_framed h row.text).sublist.count_le '|').trans_lt hpipes
    rw [parseLine_of_marked hrow, parseLeef_of_few_pipes hfew]
    exact iff_of_true rfl (.inl hrow)
  · rw [or_iff_right hrow, parseLine_of_not_marked hrow row.named, parseCsv_eq_map, Unreported]
    cases firstCsvRecord (csvPayload row.text) with
    | error e => exact iff_of_false nofun fun ⟨_, hread, _⟩ => nomatch hread
    | ok record =>
      rw [Except.map, Except.ok.injEq, eq_comm, recordEvent_eq_none_iff]
      simp only [Except.ok.injEq, exists_eq_left']

/-- The cut of a reported row is noticed where fewer than 32 commas are left. -/
theorem not_cutUnnoticed_of_few_commas {row : TrafficRow} (hrow : Reported row.fields)
    (hcommas : (csvPayload row.text).count ',' < 32) (now : Instant) : ¬ CutUnnoticed now row := by
  rintro ⟨record, hread, ⟨hnot, -⟩ | ⟨-, fields, hfields, hreported, -⟩⟩
  · exact hnot hrow
  · have hlength := length_firstCsvRecord_le (hread.trans (congrArg Except.ok hfields))
    have hcomplete := hreported.complete
    omega

/-! ## Rows without quotes

A cut in the first column leaves all others in their places. A cut in a later one moves
the columns behind it to the front. -/

/-- The first column is not used. -/
lemma reported_cons_congr (t t' : Text) (rest : List Text) :
    Reported (t :: rest) ↔ Reported (t' :: rest) := by
  have hmove : ∀ t t', Reported (t :: rest) → Reported (t' :: rest) := by
    intro t t' h
    refine ⟨h.complete, h.traffic, h.ended, fun i hi => ?_⟩
    have hnumber := h.numbers i hi
    obtain ⟨j, rfl⟩ : ∃ j, i = j + 1 := Nat.exists_eq_succ_of_ne_zero (by rintro rfl; simp at hi)
    exact hnumber
  exact ⟨hmove t t', hmove t' t⟩

lemma sameSession_cons_congr (now : Instant) (fields : List Text) (t t' : Text)
    (rest : List Text) :
    SameSession now fields (t :: rest) ↔ SameSession now fields (t' :: rest) := by
  have hmove : ∀ t t', SameSession now fields (t :: rest) →
      SameSession now fields (t' :: rest) := by
    intro t t' h
    refine ⟨fun i hi => ?_, fun i hi => ?_, h.protocol, h.time⟩
    · have htext := h.texts i hi
      obtain ⟨j, rfl⟩ : ∃ j, i = j + 1 := Nat.exists_eq_succ_of_ne_zero (by rintro rfl; simp at hi)
      exact htext
    · have hnumber := h.numbers i hi
      obtain ⟨j, rfl⟩ : ∃ j, i = j + 1 := Nat.exists_eq_succ_of_ne_zero (by rintro rfl; simp at hi)
      exact hnumber
  exact ⟨hmove t t', hmove t' t⟩

lemma payloadColumns_of_cut {before after : List Text} {col : Text}
    (hbefore : ∀ t ∈ before, isInfix ": ".toList t = false)
    (hcol : isInfix ": ".toList col = true) :
    payloadColumns (before ++ col :: after) = csvPayload col :: after := by
  induction before with
  | nil => rw [List.nil_append, payloadColumns, if_pos hcol]
  | cons t before ih =>
    obtain ⟨ht, hbefore⟩ := List.forall_mem_cons.mp hbefore
    have hany : (before ++ col :: after).any (isInfix ": ".toList) = true :=
      List.any_eq_true.mpr ⟨col, List.mem_append_right _ (.head _), hcol⟩
    have hnot : ¬ isInfix ": ".toList t = true := ne_true_of_eq_false ht
    rw [List.cons_append, payloadColumns, if_neg hnot, if_pos hany, ih hbefore]

lemma length_csvPayload_le (s : Text) : (csvPayload s).length ≤ s.length := by
  rw [csvPayload]
  cases hsplit : splitOnce ": ".toList s with
  | none => exact le_rfl
  | some parts =>
    have hlength := congrArg List.length (splitOnce_eq_some hsplit)
    simp only [List.length_append] at hlength
    exact hlength ▸ Nat.le_add_left _ _

lemma csvRow_ne_nil (t t' : Text) (rest : List Text) : csvRow (t :: t' :: rest) ≠ [] := by
  rw [csvRow_cons_cons]
  simp

/-- The row is read, so none of its columns is too long. -/
lemma TrafficRow.short {row : TrafficRow} (htext : row.text = csvRow row.fields)
    (hplain : ∀ t ∈ row.fields, CsvPlain t) : ∀ t ∈ row.fields, t.length ≤ csvFieldLimit := by
  obtain ⟨t₀, t₁, rest, hfields⟩ : ∃ t₀ t₁ rest, row.fields = t₀ :: t₁ :: rest := by
    have hcomplete := row.complete
    match row.fields, hcomplete with
    | t₀ :: t₁ :: rest, _ => exact ⟨t₀, t₁, rest, rfl⟩
  have hne : csvRow row.fields ≠ [] := by
    rw [hfields]
    exact csvRow_ne_nil t₀ t₁ rest
  have hread := row.read
  rw [htext, firstCsvRecord_csvRow hne hplain] at hread
  by_contra hlong
  rw [if_neg hlong] at hread
  cases hread

/-- A row whose first colon and blank are in its column `k` is compared with itself from
that column on. -/
theorem cutUnnoticed_iff_drop {row : TrafficRow} (htext : row.text = csvRow row.fields)
    (hplain : ∀ t ∈ row.fields, CsvPlain t) {k : ℕ} {col : Text} (hk : row.fields[k]? = some col)
    (hbefore : ∀ t ∈ row.fields.take k, isInfix ": ".toList t = false)
    (hcol : isInfix ": ".toList col = true) (now : Instant) :
    CutUnnoticed now row ↔
      ¬ Reported row.fields ∧ ¬ Reported (row.fields.drop k) ∨
        Reported row.fields ∧ Reported (row.fields.drop k) ∧
          SameSession now row.fields (row.fields.drop k) := by
  obtain ⟨hlt, hget⟩ := List.getElem?_eq_some_iff.mp hk
  have hdrop : row.fields.drop k = col :: row.fields.drop (k + 1) := by
    rw [List.drop_eq_getElem_cons hlt, hget]
  have hsplit : row.fields = row.fields.take k ++ col :: row.fields.drop (k + 1) := by
    rw [← hdrop, List.take_append_drop]
  set after := row.fields.drop (k + 1) with hafter
  have hshort := row.short htext hplain
  have hcut : csvPayload row.text = csvRow (csvPayload col :: after) := by
    have hcols : row.fields ≠ [] := List.ne_nil_of_length_pos (by omega)
    rw [htext, csvPayload_csvRow hcols]
    conv_lhs => rw [hsplit, payloadColumns_of_cut hbefore hcol]
  have hmem : ∀ t ∈ col :: after, t ∈ row.fields := by
    intro t ht
    rw [hsplit]
    exact List.mem_append_right _ ht
  rw [CutUnnoticed, hcut, hdrop, reported_cons_congr col (csvPayload col),
    sameSession_cons_congr now row.fields col (csvPayload col)]
  by_cases hempty : csvRow (csvPayload col :: after) = []
  · -- nothing is left behind the last column
    have hlast : after = [] := by
      cases hrest : after with
      | nil => rfl
      | cons t rest =>
        rw [hrest] at hempty
        exact absurd hempty (csvRow_ne_nil _ t rest)
    have hnot : ¬ Reported (csvPayload col :: after) := by
      intro h
      have hcomplete := h.complete
      simp [hlast] at hcomplete
    have hnone : firstCsvRecord [] = .ok none := rfl
    simp [hempty, hnone, hnot]
  · have hplain' : ∀ t ∈ csvPayload col :: after, CsvPlain t := by
      refine List.forall_mem_cons.mpr ⟨csvPlain_csvPayload (hplain col (hmem col (.head _))), ?_⟩
      exact fun t ht => hplain t (hmem t (List.mem_cons_of_mem col ht))
    have hshort' : ∀ t ∈ csvPayload col :: after, t.length ≤ csvFieldLimit := by
      refine List.forall_mem_cons.mpr ⟨?_, ?_⟩
      · exact (length_csvPayload_le col).trans (hshort col (hmem col (.head _)))
      · exact fun t ht => hshort t (hmem t (List.mem_cons_of_mem col ht))
    rw [firstCsvRecord_csvRow hempty hplain', if_pos hshort']
    simp

/-- A cut in the first column is never noticed. -/
theorem cutUnnoticed_of_first_column {row : TrafficRow} (htext : row.text = csvRow row.fields)
    (hplain : ∀ t ∈ row.fields, CsvPlain t) {col : Text} (hfirst : row.fields.head? = some col)
    (hcol : isInfix ": ".toList col = true) (now : Instant) : CutUnnoticed now row := by
  rw [cutUnnoticed_iff_drop htext hplain (List.head?_eq_getElem? ▸ hfirst) (by simp) hcol,
    List.drop_zero]
  by_cases h : Reported row.fields
  · exact .inr ⟨h, h, fun _ _ => rfl, fun _ _ => rfl, rfl, rfl⟩
  · exact .inl ⟨h, h⟩

/-! ## Logons -/

lemma ofText_append (s t : Text) : ofText (s ++ t) = ofText s ++ ofText t := List.map_append

/-- A document that is cut is no document. -/
lemma loads_of_cut {float : Text → Text} (doc : LogonDocument float)
    {before json : Text} (h : splitOnce ": ".toList doc.text = some (before, json)) :
    loads float (ofText json) = none := by
  have htext := splitOnce_eq_some h
  have hcodes : ofText doc.text = ofText before ++ 0x3A :: 0x20 :: ofText json := by
    rw [htext, ofText_append, ofText_append, List.append_assoc]
    rfl
  exact loads_behind_colon doc.decoded hcodes

section

variable (py : Ad4624.Builtins)

lemma parse_framed (h : Header) (doc : LogonDocument py.float) :
    Ad4624.parse py (framed h doc.text) = Ad4624.parseDocument py (.obj doc.members) := by
  rw [Ad4624.parse, Ad4624.payload, splitOnce_framed]
  dsimp only
  rw [doc.decoded, Option.bind_some]

lemma parse_bare (doc : LogonDocument py.float) :
    Ad4624.parse py doc.text =
      if isInfix ": ".toList doc.text = false then Ad4624.parseDocument py (.obj doc.members)
      else none := by
  rw [Ad4624.parse, Ad4624.payload, isInfix]
  cases hsplit : splitOnce ": ".toList doc.text with
  | none =>
    dsimp only
    rw [doc.decoded, Option.bind_some]
    rfl
  | some parts =>
    dsimp only
    rw [loads_of_cut doc hsplit]
    rfl

/-- A header makes no difference exactly for a document without a colon and a blank or one
that is no logon to report. -/
theorem logonAlike_iff (h : Header) (doc : LogonDocument py.float) :
    LogonAlike py h doc ↔
      isInfix ": ".toList doc.text = false ∨ ¬ Ad4624.IsLogon py doc.members := by
  rw [LogonAlike, parse_framed, parse_bare, ← Ad4624.parseDocument_isSome_iff]
  split_ifs with hbare
  · exact iff_of_true rfl (.inl hbare)
  · rw [or_iff_right hbare, Option.not_isSome_iff_eq_none]

end

/-- A row is parsed alike without its header exactly if it is not cut or the cut is not
noticed. Where the line has the marks of the other format, but not its pipes, that is so
if the row has them too or is not reported; where it has the pipes as well, if the row has
the marks and the header does not begin them. A logon is parsed alike exactly if it is not
cut or has nothing to report. -/
theorem header_unnoticed (now : Instant) (py : Ad4624.Builtins) (h : Header) (row : TrafficRow)
    (doc : LogonDocument py.float) :
    (¬ Marked (framed h row.text) →
      (RowAlike now h row ↔ isInfix ": ".toList row.text = false ∨ CutUnnoticed now row)) ∧
    (Marked (framed h row.text) → (framed h row.text).count '|' < 5 →
      (RowAlike now h row ↔ Marked row.text ∨ Unreported row)) ∧
    (Marked row.text → isInfix "LEEF:".toList (h.text ++ [':']) = false → RowAlike now h row) ∧
    (LogonAlike py h doc ↔
      isInfix ": ".toList doc.text = false ∨ ¬ Ad4624.IsLogon py doc.members) :=
  ⟨fun hmarked => rowAlike_iff_of_unmarked hmarked now,
    fun hmarked hpipes => rowAlike_iff_of_few_pipes hmarked hpipes now,
    fun hmarked hheader => rowAlike_of_marked hmarked hheader now, logonAlike_iff py h doc⟩

/-! Rows with different names of their rule, and a logon written with and
without blanks. -/

def ruleFields (rule : String) : List Text :=
  ["1", "2026/04/22 14:12:05", "001801000000", "TRAFFIC", "end", "2560", "2026/04/22 14:12:05",
    "10.0.0.1", "52.97.1.1", "", "", rule, "", "", "ms-office365", "vsys1", "trust", "untrust",
    "ae1", "ae2", "", "", "", "", "44321", "443", "", "", "0x400000", "tcp", "allow", "1024",
    "8"].map String.toList

lemma read_allowAll :
    firstCsvRecord (csvRow (ruleFields "allow-all")) = .ok (some (ruleFields "allow-all")) := by
  decide +kernel

lemma read_allowQuoted :
    firstCsvRecord (csvRow (ruleFields "\"allow: all\"")) =
      .ok (some (ruleFields "allow: all")) := by
  decide +kernel

lemma named_rule (rule : String) :
    isInfix "TRAFFIC".toList (csvRow (ruleFields rule)) = true :=
  isInfix_iff.mpr (infix_csvRow (by simp [ruleFields]))

def allowAll : TrafficRow where
  text := csvRow (ruleFields "allow-all")
  fields := ruleFields "allow-all"
  read := read_allowAll
  complete := Nat.le_refl 33
  traffic := rfl
  named := named_rule _

def allowQuoted : TrafficRow where
  text := csvRow (ruleFields "\"allow: all\"")
  fields := ruleFields "allow: all"
  read := read_allowQuoted
  complete := Nat.le_refl 33
  traffic := rfl
  named := named_rule _

lemma read_allowMarked :
    firstCsvRecord (csvRow (ruleFields "LEEF:Palo Alto Networks")) =
      .ok (some (ruleFields "LEEF:Palo Alto Networks")) := by
  decide +kernel

/-- The rule has the marks of the other format in its name. -/
def allowMarked : TrafficRow where
  text := csvRow (ruleFields "LEEF:Palo Alto Networks")
  fields := ruleFields "LEEF:Palo Alto Networks"
  read := read_allowMarked
  complete := Nat.le_refl 33
  traffic := rfl
  named := named_rule _

lemma unsplit_firewall : isInfix ": ".toList "<14>Apr 22 14:12:05 fw01".toList = false := by
  decide +kernel

def firewall : Header := ⟨"<14>Apr 22 14:12:05 fw01".toList, unsplit_firewall⟩

/-- A logon with some blanks behind its colons. -/
def logonText (blank : String) : Text :=
  ("\x7b\"event_id\":" ++ blank ++ "4624,\"@timestamp\":" ++ blank ++
    "\"2026-04-22T12:00:00.000Z\",\"winlog\":" ++ blank ++ "\x7b\"event_data\":" ++ blank ++
    "\x7b\"TargetUserName\":" ++ blank ++ "\"alice\",\"LogonType\":" ++ blank ++
    "\"2\",\"IpAddress\":" ++ blank ++ "\"10.0.12.34\"\x7d\x7d\x7d").toList

/-- No other text and no value but a string is converted here. -/
def noonBuiltins : Ad4624.Builtins where
  float s := s
  fromisoformat s :=
    if s = ofString "2026-04-22T12:00:00.000+00:00" then some 1776859200000000 else none
  str _ := none

def membersOf : Option Json → List (PyStr × Json)
  | some (.obj members) => members
  | _ => []

def isObject : Option Json → Bool
  | some (.obj _) => true
  | _ => false

lemma eq_of_isObject {d : Option Json} (h : isObject d = true) : d = some (.obj (membersOf d)) := by
  match d with
  | some (.obj _) => rfl

lemma isObject_compact : isObject (loads noonBuiltins.float (ofText (logonText ""))) = true := by
  decide +kernel

lemma isObject_spaced : isObject (loads noonBuiltins.float (ofText (logonText " "))) = true := by
  decide +kernel

def compactLogon : LogonDocument noonBuiltins.float := ⟨_, _, eq_of_isObject isObject_compact⟩

def spacedLogon : LogonDocument noonBuiltins.float := ⟨_, _, eq_of_isObject isObject_spaced⟩

theorem header_unnoticed_compact :
    RowAlike 0 firewall allowAll ∧ RowAlike 0 firewall allowMarked ∧
      LogonAlike noonBuiltins firewall compactLogon := by
  have hunmarked : ¬ Marked (framed firewall allowAll.text) := by
    unfold Marked
    decide +kernel
  have hmarked : Marked allowMarked.text := by
    unfold Marked
    decide +kernel
  obtain ⟨hrow, -, -, hlogon⟩ := header_unnoticed 0 noonBuiltins firewall allowAll compactLogon
  refine ⟨(hrow hunmarked).mpr (.inl (by decide +kernel)), ?_,
    hlogon.mpr (.inl (by decide +kernel))⟩
  have hframed : Marked (framed firewall allowMarked.text) := marked_framed hmarked firewall
  exact ((header_unnoticed 0 noonBuiltins firewall allowMarked compactLogon).2.1 hframed
    (by decide +kernel)).mpr (.inl hmarked)

/-- Behind the header each is parsed; without it the row is cut in the name of its rule and
the logon behind its first key. -/
theorem bare_payloads_cut :
    (eventOf (parseLine 0 (framed firewall allowQuoted.text))).isSome = true ∧
      (eventOf (parseLine 0 allowQuoted.text)).isSome = false ∧
      (Ad4624.parse noonBuiltins (framed firewall spacedLogon.text)).isSome = true ∧
      (Ad4624.parse noonBuiltins spacedLogon.text).isSome = false ∧
      ¬ RowAlike 0 firewall allowQuoted ∧ ¬ LogonAlike noonBuiltins firewall spacedLogon := by
  have hrow : (eventOf (parseLine 0 (framed firewall allowQuoted.text))).isSome = true := by
    decide +kernel
  have hbareRow : (eventOf (parseLine 0 allowQuoted.text)).isSome = false := by decide +kernel
  have hlogon : (Ad4624.parse noonBuiltins (framed firewall spacedLogon.text)).isSome = true := by
    decide +kernel
  have hbareLogon : (Ad4624.parse noonBuiltins spacedLogon.text).isSome = false := by
    decide +kernel
  refine ⟨hrow, hbareRow, hlogon, hbareLogon, fun h => ?_, fun h => ?_⟩
  · rw [h, hbareRow] at hrow
    cases hrow
  · rw [h, hbareLogon] at hlogon
    cases hlogon

end FlowDiscovery.SyslogHeader
