import FlowDiscovery.FlowAdapters

/-!
# One traffic record in the two log formats

A record is written as a row of 33 columns and as a LEEF line. The parser of rows
keeps sessions that have ended only, takes a blank number as zero and the texts as
they are; the parser of LEEF lines never looks at `cat`, converts whatever follows the
equals sign, and strips it.
-/
namespace FlowDiscovery.LogFormats
open PyText PyTime PyLexers FlowAdapters FlowAdapters.PaloAlto

/-! ## The record -/

/-- Where a row, a field of a row, a LEEF line or its extension is cut. -/
def isDelimiter (c : Char) : Bool :=
  c = ',' || c = '"' || c = '\n' || c = '\r' || c = '|' || c = '\t'

structure Field where
  text : Text
  plain : ∀ c ∈ text, isDelimiter c = false

structure TrafficRecord where
  subtype : Field
  src : Field
  dst : Field
  srcPort : Field
  dstPort : Field
  proto : Field
  app : Field
  bytes : Field
  packets : Field
  action : Field

/-- The columns of a row. Those that the record says nothing about are arbitrary. -/
def column (r : TrafficRecord) (others : ℕ → Field) : ℕ → Text
  | 3 => "TRAFFIC".toList
  | 4 => r.subtype.text
  | 7 => r.src.text
  | 8 => r.dst.text
  | 14 => r.app.text
  | 24 => r.srcPort.text
  | 25 => r.dstPort.text
  | 29 => r.proto.text
  | 30 => r.action.text
  | 31 => r.bytes.text
  | 32 => r.packets.text
  | i => (others i).text

def columns (r : TrafficRecord) (others : ℕ → Field) : List Text :=
  (List.range 33).map (column r others)

def row (r : TrafficRecord) (others : ℕ → Field) : Text := csvRow (columns r others)

def pairs (r : TrafficRecord) : List (String × Text) :=
  [("cat", r.subtype.text), ("src", r.src.text), ("dst", r.dst.text),
    ("srcPort", r.srcPort.text), ("dstPort", r.dstPort.text), ("proto", r.proto.text),
    ("app", r.app.text), ("bytesTotal", r.bytes.text), ("packetsTotal", r.packets.text),
    ("action", r.action.text)]

def pairTexts (r : TrafficRecord) : List Text :=
  (pairs r).map fun pair => pair.1.toList ++ '=' :: pair.2

def envelope : List Text :=
  ["LEEF:2.0".toList, "Palo Alto Networks".toList, "PAN-OS".toList, "10.2".toList,
    "TRAFFIC".toList]

/-- The pairs follow each other behind tabs or behind pipes. -/
inductive Separator where
  | tab
  | pipe
  deriving DecidableEq, Repr

def segments (r : TrafficRecord) : Separator → List Text
  | .tab => envelope ++ [List.intercalate ['\t'] (pairTexts r)]
  | .pipe => envelope ++ pairTexts r

def leefLine (r : TrafficRecord) (sep : Separator) : Text :=
  List.intercalate ['|'] (segments r sep)

/-! ## The property and its condition -/

/-- The event that a parser returns; it returns none when it raises. -/
def eventOf : Except CsvError (Option FlowEvent) → Option FlowEvent
  | .ok ev => ev
  | .error _ => none

structure Agree (e e' : FlowEvent) : Prop where
  srcIp : e.srcIp = e'.srcIp
  dstIp : e.dstIp = e'.dstIp
  srcPort : e.srcPort = e'.srcPort
  dstPort : e.dstPort = e'.dstPort
  proto : e.proto = e'.proto
  bytes : e.bytes = e'.bytes
  packets : e.packets = e'.packets
  action : e.action = e'.action
  appId : e.appId = e'.appId

/-- The two readings of a record, each at its time. A session of which a start and an end
are logged has at most one event in either format by `endOnly`. -/
structure Alike (now now' : Instant) (r : TrafficRecord) (others : ℕ → Field)
    (sep : Separator) : Prop where
  same : (eventOf (parseLine now (row r others))).isSome ↔
    (eventOf (parseLine now' (leefLine r sep))).isSome
  endOnly : (eventOf (parseLine now (row r others))).isSome ∨
    (eventOf (parseLine now' (leefLine r sep))).isSome → r.subtype.text = "end".toList
  agree : ∀ e e', eventOf (parseLine now (row r others)) = some e →
    eventOf (parseLine now' (leefLine r sep)) = some e' → Agree e e'

/-- The columns behind a syslog header in the first one. -/
def readColumns (r : TrafficRecord) (others : ℕ → Field) : List Text :=
  csvPayload (others 0).text :: (columns r others).tail

/-- The row is taken for a row, nothing behind its first column is taken for the end of a
syslog header, and its fields are within the limit of the reader. -/
structure Readable (r : TrafficRecord) (others : ℕ → Field) : Prop where
  unmarked : ¬ (isInfix "LEEF:".toList (row r others) = true ∧
    isInfix "Palo Alto Networks".toList (row r others) = true)
  uncut : isInfix ": ".toList (others 0).text = true ∨
    ∀ col ∈ (columns r others).tail, isInfix ": ".toList col = false
  short : ∀ col ∈ readColumns r others, col.length ≤ csvFieldLimit

def numbers (r : TrafficRecord) : List Text :=
  [r.srcPort.text, r.dstPort.text, r.bytes.text, r.packets.text]

/-- A session that has ended, with numbers that are numbers and texts without blanks
around them. -/
structure Clean (r : TrafficRecord) : Prop where
  ended : r.subtype.text = "end".toList
  numbers : ∀ t ∈ numbers r, (int? t).isSome
  stripped : ∀ t ∈ [r.src.text, r.dst.text, r.app.text, r.action.text], strip t = t

structure RowAccepted (r : TrafficRecord) (others : ℕ → Field) : Prop where
  readable : Readable r others
  ended : r.subtype.text = "end".toList
  numbers : ∀ t ∈ numbers r, (blankInt t).isSome

def LeefAccepted (r : TrafficRecord) : Prop := ∀ t ∈ numbers r, (int? (strip t)).isSome

/-! ## Rows -/

/-- The columns that are left when a row is cut like a syslog header. -/
def payloadColumns : List Text → List Text
  | [] => []
  | col :: rest =>
    if isInfix ": ".toList col then csvPayload col :: rest
    else if rest.any (isInfix ": ".toList) then payloadColumns rest
    else col :: rest

lemma csvPayload_of_not_isInfix {s : Text} (h : isInfix ": ".toList s = false) :
    csvPayload s = s := by
  rw [csvPayload, Option.isSome_eq_false_iff.mp h |> Option.isNone_iff_eq_none.mp]

lemma csvPayload_append_comma (col rest : Text) :
    csvPayload (col ++ ',' :: rest) =
      if isInfix ": ".toList col then csvPayload col ++ ',' :: rest
      else if isInfix ": ".toList rest then csvPayload rest
      else col ++ ',' :: rest := by
  rw [csvPayload, splitOnce_append_cons (by decide) (by decide), isInfix, isInfix, csvPayload,
    csvPayload]
  cases splitOnce ": ".toList col <;> cases splitOnce ": ".toList rest <;> rfl

lemma isInfix_csvRow (cols : List Text) :
    isInfix ": ".toList (csvRow cols) = cols.any (isInfix ": ".toList) := by
  induction cols with
  | nil => rfl
  | cons col rest ih =>
    cases rest with
    | nil => simp [csvRow]
    | cons col' rest =>
      rw [csvRow_cons_cons, isInfix_append_cons (by decide) (by decide), ih, ← List.any_cons]

/-- A row that is cut is again a row. -/
lemma csvPayload_csvRow {cols : List Text} (hne : cols ≠ []) :
    csvPayload (csvRow cols) = csvRow (payloadColumns cols) := by
  induction cols with
  | nil => exact absurd rfl hne
  | cons col rest ih =>
    cases rest with
    | nil =>
      rw [csvRow, List.intercalate_singleton, payloadColumns]
      split_ifs with h hany
      · rw [csvRow, List.intercalate_singleton]
      · cases hany
      · rw [csvRow, List.intercalate_singleton,
          csvPayload_of_not_isInfix (Bool.eq_false_iff.mpr h)]
    | cons col' rest =>
      rw [csvRow_cons_cons, csvPayload_append_comma, isInfix_csvRow, payloadColumns,
        ih (List.cons_ne_nil _ _)]
      split_ifs
      · rw [csvRow_cons_cons]
      · rfl
      · rw [csvRow_cons_cons]

lemma length_payloadColumns_le (cols : List Text) :
    (payloadColumns cols).length ≤ cols.length := by
  induction cols with
  | nil => exact Nat.le_refl 0
  | cons col rest ih =>
    rw [payloadColumns]
    split_ifs
    · exact Nat.le_refl _
    · exact Nat.le_succ_of_le ih
    · exact Nat.le_refl _

lemma mem_of_mem_csvPayload {s : Text} {c : Char} (h : c ∈ csvPayload s) : c ∈ s := by
  rw [csvPayload] at h
  cases hsplit : splitOnce ": ".toList s with
  | none =>
    rw [hsplit] at h
    exact h
  | some parts =>
    rw [hsplit] at h
    rw [splitOnce_eq_some hsplit]
    exact List.mem_append_right _ h

lemma csvPlain_csvPayload {s : Text} (h : CsvPlain s) : CsvPlain (csvPayload s) :=
  fun c hc => h c (mem_of_mem_csvPayload hc)

lemma csvPlain_payloadColumns {cols : List Text} (h : ∀ col ∈ cols, CsvPlain col) :
    ∀ col ∈ payloadColumns cols, CsvPlain col := by
  induction cols with
  | nil => exact nofun
  | cons col rest ih =>
    obtain ⟨hcol, hrest⟩ := List.forall_mem_cons.mp h
    rw [payloadColumns]
    split_ifs
    · exact List.forall_mem_cons.mpr ⟨csvPlain_csvPayload hcol, hrest⟩
    · exact ih hrest
    · exact h

/-- A cut behind the first column costs at least one column. -/
lemma payloadColumns_cons (col : Text) (rest : List Text) :
    (isInfix ": ".toList col = true ∨ ∀ col' ∈ rest, isInfix ": ".toList col' = false) ∧
        payloadColumns (col :: rest) = csvPayload col :: rest ∨
      ¬ (isInfix ": ".toList col = true ∨ ∀ col' ∈ rest, isInfix ": ".toList col' = false) ∧
        (payloadColumns (col :: rest)).length ≤ rest.length := by
  rw [payloadColumns]
  split_ifs with hcol hany
  · exact .inl ⟨.inl hcol, rfl⟩
  · refine .inr ⟨?_, length_payloadColumns_le rest⟩
    rintro (h | h)
    · exact hcol h
    · obtain ⟨col', hmem, hinfix⟩ := List.any_eq_true.mp hany
      rw [h col' hmem] at hinfix
      cases hinfix
  · refine .inl ⟨.inr fun col' hmem => ?_, ?_⟩
    · exact Bool.eq_false_iff.mpr fun hinfix => hany (List.any_eq_true.mpr ⟨col', hmem, hinfix⟩)
    · rw [csvPayload_of_not_isInfix (Bool.eq_false_iff.mpr hcol)]

lemma csvEvent_of_short {fields : List Text} (h : fields.length ≤ 32) (now : Instant) :
    csvEvent now fields = none := by
  have hpackets : fields[32]? = none := List.getElem?_eq_none h
  simp [csvEvent, hpackets]

/-- A LEEF line has at least five pipes. -/
lemma parseLeef_of_few_pipes {line : Text} (h : line.count '|' < 5) (now : Instant) :
    parseLeef now line = none := by
  unfold parseLeef
  cases htail : fromFirst "LEEF:".toList line with
  | none => rfl
  | some tail =>
    have hcount := (fromFirst_suffix htail).sublist.count_le '|'
    have hfew : (tail.splitOn '|').length < minLeefPipes := by
      rw [length_splitOn, minLeefPipes]
      omega
    simp only [Option.bind_eq_bind, Option.bind_some, if_pos hfew]

/-- Fewer than 33 columns never make an event. -/
lemma eventOf_short {cols : List Text} (hplain : ∀ col ∈ cols, CsvPlain col)
    (hlength : cols.length ≤ 32) (now : Instant) {line : Text}
    (hline : csvPayload line = csvRow cols) : eventOf (parseCsv now line) = none := by
  rw [parseCsv, hline]
  by_cases hempty : csvRow cols = []
  · rw [hempty]
    rfl
  · rw [firstCsvRecord_csvRow hempty hplain]
    split_ifs
    · simp only [Except.map, csvEvent_of_short hlength, eventOf, ite_self]
    · rfl

section

variable (r : TrafficRecord) (others : ℕ → Field)

lemma csvPlain_of_plain (t : Field) : CsvPlain t.text := by
  intro c hc
  have hplain := t.plain c hc
  simp only [isDelimiter, Bool.or_eq_false_iff, decide_eq_false_iff_not] at hplain
  tauto

lemma csvPlain_column (i : ℕ) : CsvPlain (column r others i) := by
  unfold column
  split
  · have htraffic : ("TRAFFIC".toList.all fun c => !isDelimiter c) = true := by decide
    exact csvPlain_of_plain ⟨_, fun c hc => by simpa using List.all_eq_true.mp htraffic c hc⟩
  all_goals exact csvPlain_of_plain _

lemma csvPlain_columns : ∀ col ∈ columns r others, CsvPlain col := by
  intro col hcol
  obtain ⟨i, _, rfl⟩ := List.mem_map.mp hcol
  exact csvPlain_column r others i

lemma pipe_notMem_column (i : ℕ) : '|' ∉ column r others i := by
  have hplain : ∀ t : Field, '|' ∉ t.text := fun t h => by cases t.plain _ h
  unfold column
  split
  · decide
  all_goals exact hplain _

lemma columns_eq_cons : columns r others = (others 0).text :: (columns r others).tail := rfl

/-- The columns behind the first one are where they should be. -/
lemma getElem?_columns {i : ℕ} (hi : i < 32) (first : Text) :
    (first :: (columns r others).tail)[i + 1]? = some (column r others (i + 1)) := by
  rw [List.getElem?_cons_succ, List.getElem?_tail, columns, List.getElem?_map,
    List.getElem?_range (by omega)]
  rfl

lemma isInfix_row_traffic : isInfix "TRAFFIC".toList (row r others) = true := by
  have hmem : column r others 3 ∈ columns r others :=
    List.mem_map_of_mem (List.mem_range.mpr (by omega))
  exact isInfix_iff.mpr (infix_csvRow hmem)

lemma pipe_notMem_row : '|' ∉ row r others := by
  intro h
  rcases mem_csvRow h with h | ⟨col, hcol, h⟩
  · cases h
  · obtain ⟨i, _, rfl⟩ := List.mem_map.mp hcol
    exact pipe_notMem_column r others i h

/-- A row that is taken for a LEEF line has no segments. -/
lemma parseLeef_row (now : Instant) : parseLeef now (row r others) = none := by
  apply parseLeef_of_few_pipes
  rw [List.count_eq_zero.mpr (pipe_notMem_row r others)]
  omega

/-- The event of a row. -/
def rowEvent (ts : Instant) (srcPort dstPort bytes packets : ℤ) : FlowEvent where
  ts := ts
  srcIp := String.ofList r.src.text
  srcPort := srcPort
  dstIp := String.ofList r.dst.text
  dstPort := dstPort
  proto := PaloAlto.proto r.proto.text
  bytes := bytes
  packets := packets
  action := String.ofList r.action.text
  fqdn := none
  appId := orElse (some (String.ofList r.app.text)) none
  source := PaloAlto.name
  rawId := none

lemma csvEvent_columns (now : Instant) (first : Text) :
    csvEvent now (first :: (columns r others).tail) = do
      let srcPort ← blankInt r.srcPort.text
      let dstPort ← blankInt r.dstPort.text
      let bytes ← blankInt r.bytes.text
      let packets ← blankInt r.packets.text
      return rowEvent r (generatedTime now (first :: (columns r others).tail)) srcPort dstPort
        bytes packets := by
  have h := fun i (hi : i < 32) => getElem?_columns r others hi first
  have hsrc := h 6 (by omega)
  have hdst := h 7 (by omega)
  have happ := h 13 (by omega)
  have hsrcPort := h 23 (by omega)
  have hdstPort := h 24 (by omega)
  have hproto := h 28 (by omega)
  have haction := h 29 (by omega)
  have hbytes := h 30 (by omega)
  have hpackets := h 31 (by omega)
  simp only [Nat.reduceAdd] at hsrc hdst happ hsrcPort hdstPort hproto haction hbytes hpackets
  unfold csvEvent
  rw [hsrc, hdst, happ, hsrcPort, hdstPort, hproto, haction, hbytes, hpackets]
  rfl

lemma csvPlain_readColumns : ∀ col ∈ readColumns r others, CsvPlain col :=
  List.forall_mem_cons.mpr ⟨csvPlain_csvPayload (csvPlain_of_plain (others 0)),
    fun col hcol => csvPlain_columns r others col (List.mem_of_mem_tail hcol)⟩

lemma csvRow_readColumns_ne_nil : csvRow (readColumns r others) ≠ [] := by
  have hcons : csvRow (readColumns r others) = csvPayload (others 0).text ++
      ',' :: csvRow (columns r others).tail := csvRow_cons_cons _ _ _
  rw [hcons]
  exact List.append_ne_nil_of_right_ne_nil _ (List.cons_ne_nil _ _)

lemma columns_ne_nil : columns r others ≠ [] := List.cons_ne_nil _ _

/-- What the parser makes of a row that is not cut behind its first column. -/
lemma parseCsv_of_uncut (h : isInfix ": ".toList (others 0).text = true ∨
    ∀ col ∈ (columns r others).tail, isInfix ": ".toList col = false) (now : Instant) :
    parseCsv now (row r others) =
      if ∀ col ∈ readColumns r others, col.length ≤ csvFieldLimit then
        .ok (if r.subtype.text = "end".toList then csvEvent now (readColumns r others) else none)
      else .error .fieldLimit := by
  have hpayload : csvPayload (row r others) = csvRow (readColumns r others) := by
    rw [row, csvPayload_csvRow (columns_ne_nil r others), columns_eq_cons]
    rcases payloadColumns_cons (others 0).text (columns r others).tail with
      ⟨_, hcut⟩ | ⟨hcut, _⟩
    · exact congrArg csvRow hcut
    · exact absurd h hcut
  have hlength : (readColumns r others).length = 33 := rfl
  have htype : (readColumns r others)[3]? = some "TRAFFIC".toList :=
    getElem?_columns r others (i := 2) (by omega) _
  have hsubtype : (readColumns r others)[4]? = some r.subtype.text :=
    getElem?_columns r others (i := 3) (by omega) _
  rw [parseCsv, hpayload, firstCsvRecord_csvRow (csvRow_readColumns_ne_nil r others)
    (csvPlain_readColumns r others)]
  have henough : ¬ 33 < 32 := by omega
  split_ifs with hshort hend
  · simp only [Except.map, hlength, htype, hsubtype, minPanCsvFields, henough, hend, ne_eq,
      not_true_eq_false, or_false, if_false]
  · simp only [Except.map, hlength, htype, hsubtype, minPanCsvFields, ne_eq, Option.some.injEq,
      hend, not_false_eq_true, if_true, ite_self]
  · rfl

/-- A row that is cut behind its first column has too few columns left. -/
lemma eventOf_of_cut (h : ¬ (isInfix ": ".toList (others 0).text = true ∨
    ∀ col ∈ (columns r others).tail, isInfix ": ".toList col = false)) (now : Instant) :
    eventOf (parseCsv now (row r others)) = none := by
  have hpayload : csvPayload (row r others) = csvRow (payloadColumns (columns r others)) :=
    csvPayload_csvRow (columns_ne_nil r others)
  refine eventOf_short (csvPlain_payloadColumns (csvPlain_columns r others)) ?_ now hpayload
  rw [columns_eq_cons]
  rcases payloadColumns_cons (others 0).text (columns r others).tail with
    ⟨huncut, _⟩ | ⟨_, hlength⟩
  · exact absurd huncut h
  · exact hlength

lemma parseLine_row (now : Instant) :
    parseLine now (row r others) =
      if isInfix "LEEF:".toList (row r others) = true ∧
          isInfix "Palo Alto Networks".toList (row r others) = true then .ok none
      else parseCsv now (row r others) := by
  rw [parseLine, parseLeef_row, isInfix_row_traffic]
  simp only [Bool.and_eq_true, if_true]

lemma csvEvent_readColumns_isSome_iff (now : Instant) :
    (csvEvent now (readColumns r others)).isSome ↔ ∀ t ∈ numbers r, (blankInt t).isSome := by
  rw [readColumns, csvEvent_columns, numbers]
  simp only [List.forall_mem_cons, List.not_mem_nil, false_imp_iff, implies_true, and_true]
  cases blankInt r.srcPort.text <;> cases blankInt r.dstPort.text <;>
    cases blankInt r.bytes.text <;> cases blankInt r.packets.text <;> simp

theorem row_isSome_iff (now : Instant) :
    (eventOf (parseLine now (row r others))).isSome ↔ RowAccepted r others := by
  rw [parseLine_row]
  by_cases hmarked : isInfix "LEEF:".toList (row r others) = true ∧
      isInfix "Palo Alto Networks".toList (row r others) = true
  · rw [if_pos hmarked]
    exact iff_of_false nofun fun h => h.readable.unmarked hmarked
  · rw [if_neg hmarked]
    by_cases huncut : isInfix ": ".toList (others 0).text = true ∨
        ∀ col ∈ (columns r others).tail, isInfix ": ".toList col = false
    · rw [parseCsv_of_uncut r others huncut]
      split_ifs with hshort hend
      · rw [eventOf, csvEvent_readColumns_isSome_iff]
        exact ⟨fun h => ⟨⟨hmarked, huncut, hshort⟩, hend, h⟩, fun h => h.numbers⟩
      · exact iff_of_false nofun fun h => hend h.ended
      · exact iff_of_false nofun fun h => hshort h.readable.short
    · rw [eventOf_of_cut r others huncut]
      exact iff_of_false nofun fun h => huncut h.readable.uncut

/-- The event of an accepted row. -/
theorem row_event (h : RowAccepted r others) {srcPort dstPort bytes packets : ℤ}
    (hsrcPort : blankInt r.srcPort.text = some srcPort)
    (hdstPort : blankInt r.dstPort.text = some dstPort)
    (hbytes : blankInt r.bytes.text = some bytes)
    (hpackets : blankInt r.packets.text = some packets) (now : Instant) :
    eventOf (parseLine now (row r others)) =
      some (rowEvent r (generatedTime now (readColumns r others)) srcPort dstPort bytes
        packets) := by
  rw [parseLine_row, if_neg h.readable.unmarked, parseCsv_of_uncut r others h.readable.uncut,
    if_pos h.readable.short, if_pos h.ended, readColumns, csvEvent_columns, hsrcPort, hdstPort,
    hbytes, hpackets]
  rfl

end

/-! ## LEEF lines -/

def keys : List String :=
  ["cat", "src", "dst", "srcPort", "dstPort", "proto", "app", "bytesTotal", "packetsTotal",
    "action"]

lemma nodup_keys : keys.Nodup := by decide

section

variable (r : TrafficRecord)

lemma keys_pairs : (pairs r).map Prod.fst = keys := rfl

/-- The keys have no separators and no blanks around them. -/
lemma key_plain : ∀ pair ∈ pairs r, '=' ∉ pair.1.toList ∧ '|' ∉ pair.1.toList ∧
    '\t' ∉ pair.1.toList ∧ String.ofList (strip pair.1.toList) = pair.1 := by
  have hkeys : ∀ key ∈ keys, '=' ∉ key.toList ∧ '|' ∉ key.toList ∧
      '\t' ∉ key.toList ∧ String.ofList (strip key.toList) = key := by decide
  intro pair hpair
  exact hkeys pair.1 (keys_pairs r ▸ List.mem_map_of_mem hpair)

lemma delimiter_notMem_value {c : Char} (hc : isDelimiter c = true) :
    ∀ pair ∈ pairs r, c ∉ pair.2 := by
  have hplain : ∀ t : Field, c ∉ t.text := fun t h => by
    rw [t.plain c h] at hc
    cases hc
  simp only [pairs, List.forall_mem_cons, List.not_mem_nil, false_imp_iff, implies_true, and_true]
  exact ⟨hplain _, hplain _, hplain _, hplain _, hplain _, hplain _, hplain _, hplain _,
    hplain _, hplain _⟩

lemma delimiter_notMem_pairTexts {c : Char} (hc : c = '|' ∨ c = '\t') :
    ∀ t ∈ pairTexts r, c ∉ t := by
  intro t ht hmem
  obtain ⟨pair, hpair, rfl⟩ := List.mem_map.mp ht
  obtain ⟨-, hpipe, htab, -⟩ := key_plain r pair hpair
  rcases List.mem_append.mp hmem with hmem | hmem
  · rcases hc with rfl | rfl
    · exact hpipe hmem
    · exact htab hmem
  · rcases List.mem_cons.mp hmem with rfl | hmem
    · rcases hc with hc | hc <;> cases hc
    · refine delimiter_notMem_value r ?_ pair hpair hmem
      rcases hc with rfl | rfl <;> rfl

lemma keyValue_pairTexts :
    (pairTexts r).filterMap keyValue = (pairs r).map fun pair => (pair.1.toList, pair.2) := by
  rw [pairTexts, List.filterMap_map, ← List.filterMap_eq_map]
  apply List.filterMap_congr
  intro pair hpair
  exact splitOnce_singleton (key_plain r pair hpair).1 pair.2

lemma pairTexts_ne_nil : pairTexts r ≠ [] := List.cons_ne_nil _ _

/-- The extension is cut into the pairs behind either separator. -/
lemma flatMap_splitOn_segments (sep : Separator) :
    ((segments r sep).drop 5).flatMap (List.splitOn '\t') = pairTexts r := by
  have htab := delimiter_notMem_pairTexts r (.inr rfl : '\t' = '|' ∨ '\t' = '\t')
  cases sep with
  | tab =>
    have hdrop : (segments r .tab).drop 5 = [List.intercalate ['\t'] (pairTexts r)] := rfl
    rw [hdrop, List.flatMap_singleton,
      List.splitOn_intercalate '\t' htab (pairTexts_ne_nil r)]
  | pipe =>
    have hdrop : (segments r .pipe).drop 5 = pairTexts r := rfl
    rw [hdrop]
    have hsplit : (pairTexts r).flatMap (List.splitOn '\t') =
        (pairTexts r).flatMap fun t => [t] :=
      List.flatMap_congr fun t ht => splitOn_of_notMem (htab t ht)
    rw [hsplit, List.flatMap_singleton']

lemma pipe_notMem_segments (sep : Separator) : ∀ t ∈ segments r sep, '|' ∉ t := by
  have henvelope : ∀ t ∈ envelope, '|' ∉ t := by decide
  have hpipe := delimiter_notMem_pairTexts r (.inl rfl : '|' = '|' ∨ '|' = '\t')
  intro t ht
  cases sep with
  | tab =>
    rcases List.mem_append.mp ht with ht | ht
    · exact henvelope t ht
    · rw [List.mem_singleton.mp ht]
      intro hmem
      rcases mem_intercalate hmem with hmem | ⟨t, ht, hmem⟩
      · cases hmem
      · exact hpipe t ht hmem
  | pipe =>
    rcases List.mem_append.mp ht with ht | ht
    · exact henvelope t ht
    · exact hpipe t ht

lemma splitOn_leefLine (sep : Separator) : (leefLine r sep).splitOn '|' = segments r sep :=
  List.splitOn_intercalate '|' (pipe_notMem_segments r sep) (by cases sep <;> exact nofun)

/-- The value that the parser has for a key. -/
lemma get?_leefPairs (sep : Separator) {pair : String × Text} (h : pair ∈ pairs r) :
    (leefPairs (segments r sep)).get? pair.1 = some (String.ofList (strip pair.2)) := by
  have htabbed : (((segments r sep).drop 5).flatMap (List.splitOn '\t')).filterMap keyValue =
      (pairs r).map fun pair => (pair.1.toList, pair.2) := by
    rw [flatMap_splitOn_segments, keyValue_pairTexts]
  have hfind : (pairs r).reverse.find? (fun p => String.ofList (strip p.1.toList) = pair.1) =
      some pair := by
    cases hfind : (pairs r).reverse.find? (fun p => String.ofList (strip p.1.toList) = pair.1) with
    | none =>
      have hnot := List.find?_eq_none.mp hfind pair (List.mem_reverse.mpr h)
      exact absurd (decide_eq_true (key_plain r pair h).2.2.2) hnot
    | some p =>
      have hp : p ∈ pairs r := List.mem_reverse.mp (List.mem_of_find?_eq_some hfind)
      have hkey : String.ofList (strip p.1.toList) = pair.1 := by
        simpa using List.find?_some hfind
      rw [(key_plain r p hp).2.2.2] at hkey
      rw [List.inj_on_of_nodup_map (keys_pairs r ▸ nodup_keys) hp h hkey]
  unfold leefPairs
  dsimp only
  rw [htabbed, Dict.get?_foldl_setdefault, Dict.get?_foldl_set_map, ← List.map_reverse,
    List.find?_map, Option.map_map]
  have hcomp : ((fun x : Text × Text => decide (String.ofList (strip x.1) = pair.1)) ∘
      fun p : String × Text => (p.1.toList, p.2)) =
      fun p : String × Text => decide (String.ofList (strip p.1.toList) = pair.1) := rfl
  rw [hcomp, hfind]
  rfl

lemma parseLine_leefLine (sep : Separator) (now : Instant) :
    parseLine now (leefLine r sep) = .ok (leefEvent now (leefPairs (segments r sep))) := by
  have hprefix : "LEEF:".toList <+: leefLine r sep := by cases sep <;> exact ⟨_, rfl⟩
  have hvendor : "Palo Alto Networks".toList <:+: leefLine r sep := by
    cases sep <;> exact ⟨"LEEF:2.0|".toList, _, rfl⟩
  have hparts : ¬ (segments r sep).length < minLeefPipes := by
    cases sep <;> simp [segments, envelope, pairTexts, pairs, minLeefPipes]
  rw [parseLine, isInfix_iff.mpr hprefix.isInfix, isInfix_iff.mpr hvendor]
  simp only [Bool.and_self, if_true, parseLeef, fromFirst_eq_self hprefix, Option.bind_eq_bind,
    Option.bind_some, splitOn_leefLine, if_neg hparts]

/-- The event of a LEEF line; its host name is not part of the record. -/
def leefFlow (now : Instant) (fqdn : Option String) (srcPort dstPort bytes packets : ℤ) :
    FlowEvent where
  ts := now
  srcIp := String.ofList (strip r.src.text)
  srcPort := srcPort
  dstIp := String.ofList (strip r.dst.text)
  dstPort := dstPort
  proto := PaloAlto.proto r.proto.text
  bytes := bytes
  packets := packets
  action := String.ofList (strip r.action.text)
  fqdn := fqdn
  appId := orElse (some (String.ofList (strip r.app.text))) none
  source := PaloAlto.name
  rawId := none

lemma proto_strip (val : Text) : PaloAlto.proto (strip val) = PaloAlto.proto val := by
  rw [PaloAlto.proto, PaloAlto.proto, strip_strip]

lemma leefEvent_segments (sep : Separator) (now : Instant) :
    leefEvent now (leefPairs (segments r sep)) = do
      let srcPort ← int? (strip r.srcPort.text)
      let dstPort ← int? (strip r.dstPort.text)
      let bytes ← int? (strip r.bytes.text)
      let packets ← int? (strip r.packets.text)
      return leefFlow r now (nonEmptyField (leefPairs (segments r sep)) "hostname") srcPort dstPort
        bytes packets := by
  have h := fun key value (hpair : (key, value) ∈ pairs r) => get?_leefPairs r sep hpair
  have hsrc := h "src" r.src.text (by simp [pairs])
  have hdst := h "dst" r.dst.text (by simp [pairs])
  have hsrcPort := h "srcPort" r.srcPort.text (by simp [pairs])
  have hdstPort := h "dstPort" r.dstPort.text (by simp [pairs])
  have hproto := h "proto" r.proto.text (by simp [pairs])
  have happ := h "app" r.app.text (by simp [pairs])
  have hbytes := h "bytesTotal" r.bytes.text (by simp [pairs])
  have hpackets := h "packetsTotal" r.packets.text (by simp [pairs])
  have haction := h "action" r.action.text (by simp [pairs])
  dsimp only at hsrc hdst hsrcPort hdstPort hproto happ hbytes hpackets haction
  unfold leefEvent
  simp only [intField, hsrc, hdst, hsrcPort, hdstPort, hbytes, hpackets, Dict.getD, hproto,
    haction, Option.getD_some, String.toList_ofList, proto_strip, Option.bind_eq_bind,
    Option.bind_some]
  rw [show nonEmptyField (leefPairs (segments r sep)) "app" =
    orElse (some (String.ofList (strip r.app.text))) none by rw [nonEmptyField, happ]]
  rfl

theorem leef_isSome_iff (sep : Separator) (now : Instant) :
    (eventOf (parseLine now (leefLine r sep))).isSome ↔ LeefAccepted r := by
  rw [parseLine_leefLine, eventOf, leefEvent_segments, LeefAccepted, numbers]
  simp only [List.forall_mem_cons, List.not_mem_nil, false_imp_iff, implies_true, and_true]
  cases int? (strip r.srcPort.text) <;> cases int? (strip r.dstPort.text) <;>
    cases int? (strip r.bytes.text) <;> cases int? (strip r.packets.text) <;> simp

end

/-! ## The two readings -/

/-- A number that both formats accept is the same in both. -/
lemma number_agrees {t : Text} (hrow : (blankInt t).isSome) (hleef : (int? (strip t)).isSome) :
    ∃ n, int? t = some n ∧ blankInt t = some n ∧ int? (strip t) = some n := by
  have hne : t ≠ [] := by
    rintro rfl
    cases hleef
  rw [blankInt, if_neg hne] at hrow ⊢
  obtain ⟨n, hn⟩ := Option.isSome_iff_exists.mp hrow
  exact ⟨n, hn, hn, int?_strip hn⟩

lemma number_accepted {t : Text} (h : (int? t).isSome) :
    (blankInt t).isSome ∧ (int? (strip t)).isSome := by
  have hne : t ≠ [] := by
    rintro rfl
    cases h
  obtain ⟨n, hn⟩ := Option.isSome_iff_exists.mp h
  rw [blankInt, if_neg hne, int?_strip hn, hn]
  exact ⟨rfl, rfl⟩

lemma ofList_strip_eq_iff (t : Text) : String.ofList t = String.ofList (strip t) ↔ strip t = t := by
  rw [String.ofList_inj, eq_comm]

/-- The application, which is left out of an event where it is blank. -/
lemma appId_eq_iff (t u : Text) :
    orElse (some (String.ofList t)) none = orElse (some (String.ofList u)) none ↔ t = u := by
  have hempty : ∀ w : Text, String.ofList w = "" ↔ w = [] := fun w => by
    rw [← String.ofList_nil, String.ofList_inj]
  simp only [orElse, hempty]
  split_ifs with ht hu hu
  · exact iff_of_true rfl (ht.trans hu.symm)
  · exact iff_of_false nofun fun h => hu (h ▸ ht)
  · exact iff_of_false nofun fun h => ht (h ▸ hu)
  · rw [Option.some_inj, String.ofList_inj]

lemma agree_iff (r : TrafficRecord) (ts now : Instant) (fqdn : Option String)
    (srcPort dstPort bytes packets : ℤ) :
    Agree (rowEvent r ts srcPort dstPort bytes packets)
        (leefFlow r now fqdn srcPort dstPort bytes packets) ↔
      ∀ t ∈ [r.src.text, r.dst.text, r.app.text, r.action.text], strip t = t := by
  simp only [List.forall_mem_cons, List.not_mem_nil, false_imp_iff, implies_true, and_true]
  constructor
  · intro h
    exact ⟨(ofList_strip_eq_iff _).mp h.srcIp, (ofList_strip_eq_iff _).mp h.dstIp,
      ((appId_eq_iff _ _).mp h.appId).symm, (ofList_strip_eq_iff _).mp h.action⟩
  · rintro ⟨hsrc, hdst, happ, haction⟩
    exact ⟨(ofList_strip_eq_iff _).mpr hsrc, (ofList_strip_eq_iff _).mpr hdst, rfl, rfl, rfl, rfl,
      rfl, (ofList_strip_eq_iff _).mpr haction, (appId_eq_iff _ _).mpr happ.symm⟩

/-- When both formats accept a record, the events agree exactly if the texts are stripped. -/
lemma agree_events_iff {r : TrafficRecord} {others : ℕ → Field} {sep : Separator}
    (hrow : RowAccepted r others) (hleef : LeefAccepted r) (now now' : Instant) :
    (∀ e e', eventOf (parseLine now (row r others)) = some e →
        eventOf (parseLine now' (leefLine r sep)) = some e' → Agree e e') ↔
      ∀ t ∈ [r.src.text, r.dst.text, r.app.text, r.action.text], strip t = t := by
  have hnumber := fun t (ht : t ∈ numbers r) => number_agrees (hrow.numbers t ht) (hleef t ht)
  obtain ⟨srcPort, -, hsrcPort, hsrcPort'⟩ := hnumber r.srcPort.text (by simp [numbers])
  obtain ⟨dstPort, -, hdstPort, hdstPort'⟩ := hnumber r.dstPort.text (by simp [numbers])
  obtain ⟨bytes, -, hbytes, hbytes'⟩ := hnumber r.bytes.text (by simp [numbers])
  obtain ⟨packets, -, hpackets, hpackets'⟩ := hnumber r.packets.text (by simp [numbers])
  have hrowEvent := row_event r others hrow hsrcPort hdstPort hbytes hpackets now
  have hleefEvent : eventOf (parseLine now' (leefLine r sep)) =
      some (leefFlow r now' (nonEmptyField (leefPairs (segments r sep)) "hostname") srcPort dstPort
        bytes packets) := by
    rw [parseLine_leefLine, eventOf, leefEvent_segments, hsrcPort', hdstPort', hbytes', hpackets']
    rfl
  rw [hrowEvent, hleefEvent, ← agree_iff r (generatedTime now (readColumns r others)) now'
    (nonEmptyField (leefPairs (segments r sep)) "hostname") srcPort dstPort bytes packets]
  constructor
  · exact fun h => h _ _ rfl rfl
  · intro h e e' he he'
    cases he
    cases he'
    exact h

/-- A record is read alike exactly if both formats reject it, or its row can be read and
it is that of an ended session, with numbers that are numbers and stripped texts. -/
theorem alike_iff_clean (now now' : Instant) (r : TrafficRecord) (others : ℕ → Field)
    (sep : Separator) :
    Alike now now' r others sep ↔
      (Readable r others ∧ Clean r) ∨ (¬ RowAccepted r others ∧ ¬ LeefAccepted r) := by
  constructor
  · intro h
    have hsame := h.same
    rw [row_isSome_iff, leef_isSome_iff] at hsame
    by_cases hrow : RowAccepted r others
    · have hleef := hsame.mp hrow
      refine .inl ⟨hrow.readable, hrow.ended, fun t ht => ?_, ?_⟩
      · obtain ⟨n, hn, -, -⟩ := number_agrees (hrow.numbers t ht) (hleef t ht)
        rw [hn]
        rfl
      · exact (agree_events_iff hrow hleef now now').mp h.agree
    · exact .inr ⟨hrow, fun hleef => hrow (hsame.mpr hleef)⟩
  · rintro (⟨hreadable, hclean⟩ | ⟨hrow, hleef⟩)
    · have hrow : RowAccepted r others := ⟨hreadable, hclean.ended, fun t ht =>
        (number_accepted (hclean.numbers t ht)).1⟩
      have hleef : LeefAccepted r := fun t ht => (number_accepted (hclean.numbers t ht)).2
      refine ⟨?_, fun _ => hclean.ended, ?_⟩
      · rw [row_isSome_iff, leef_isSome_iff]
        exact iff_of_true hrow hleef
      · exact (agree_events_iff hrow hleef now now').mpr hclean.stripped
    · rw [← row_isSome_iff r others now] at hrow
      rw [← leef_isSome_iff r sep now'] at hleef
      refine ⟨iff_of_false hrow hleef, fun h => ?_, fun e e' he => ?_⟩
      · exact (h.elim hrow hleef).elim
      · rw [he] at hrow
        exact absurd rfl hrow

/-! The start of a session, and the end of one without ports. -/

lemma plain_filter (s : Text) :
    ∀ c ∈ s.filter fun c => !isDelimiter c, isDelimiter c = false := by
  intro c hc
  simpa using (List.mem_filter.mp hc).2

def Field.ofString (s : String) : Field := ⟨_, plain_filter s.toList⟩

def office365 (subtype srcPort dstPort : String) : TrafficRecord where
  subtype := .ofString subtype
  src := .ofString "10.0.0.1"
  dst := .ofString "52.97.1.1"
  srcPort := .ofString srcPort
  dstPort := .ofString dstPort
  proto := .ofString "tcp"
  app := .ofString "ms-office365"
  bytes := .ofString "1024"
  packets := .ofString "8"
  action := .ofString "allow"

def timeColumns : ℕ → Field
  | 6 => .ofString "2026/04/22 14:12:05"
  | _ => .ofString ""

/-- The start has an event in one format and none in the other; with blank ports it is the
other way round at the end. -/
theorem office365_differs :
    (eventOf (parseLine 0 (row (office365 "start" "44321" "443") timeColumns))).isSome = false ∧
      (eventOf (parseLine 0 (leefLine (office365 "start" "44321" "443") .pipe))).isSome = true ∧
      (eventOf (parseLine 0 (row (office365 "end" "" "") timeColumns))).isSome = true ∧
      (eventOf (parseLine 0 (leefLine (office365 "end" "" "") .pipe))).isSome = false ∧
      ¬ Alike 0 0 (office365 "start" "44321" "443") timeColumns .pipe ∧
      ¬ Alike 0 0 (office365 "end" "" "") timeColumns .pipe := by
  have hstartRow : (eventOf (parseLine 0 (row (office365 "start" "44321" "443")
      timeColumns))).isSome = false := by decide +kernel
  have hstartLeef : (eventOf (parseLine 0 (leefLine (office365 "start" "44321" "443")
      .pipe))).isSome = true := by decide +kernel
  have hendRow : (eventOf (parseLine 0 (row (office365 "end" "" "") timeColumns))).isSome =
      true := by decide +kernel
  have hendLeef : (eventOf (parseLine 0 (leefLine (office365 "end" "" "") .pipe))).isSome =
      false := by decide +kernel
  refine ⟨hstartRow, hstartLeef, hendRow, hendLeef, fun h => ?_, fun h => ?_⟩
  · have hsame := h.same
    rw [hstartRow, hstartLeef] at hsame
    exact absurd hsame (by decide)
  · have hsame := h.same
    rw [hendRow, hendLeef] at hsame
    exact absurd hsame (by decide)

end FlowDiscovery.LogFormats
