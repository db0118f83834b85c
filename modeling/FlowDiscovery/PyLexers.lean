import FlowDiscovery.PyText

/-!
# The two standard lexers: `csv.reader` and `shlex.split`

Both are the state machines of the standard library, one character at a time.
`csv.reader` runs with its default dialect (comma, double quote, doubled quotes,
no escape character, not strict) over the lines of a text buffer; `shlex.split`
runs in POSIX mode with white-space splitting and without comments.
-/
namespace FlowDiscovery.PyLexers
open FlowDiscovery.PyText

/-! ## `csv.reader` -/

inductive CsvState where
  | startRecord
  | startField
  | inField
  | inQuotedField
  | quoteInQuotedField
  | eatCrnl
  deriving DecidableEq, Repr

/-- Why `csv.Error` is raised. -/
inductive CsvError where
  | fieldLimit
  | newlineInUnquotedField
  deriving DecidableEq, Repr

structure CsvParser where
  state : CsvState
  field : Text
  fields : List Text
  deriving DecidableEq, Repr

/-- `csv.field_size_limit()`. -/
def csvFieldLimit : ℕ := 131072

def CsvParser.initial : CsvParser := ⟨.startRecord, [], []⟩

def CsvParser.addChar (p : CsvParser) (c : Char) (next : CsvState) : Except CsvError CsvParser :=
  if csvFieldLimit ≤ p.field.length then .error .fieldLimit
  else .ok ⟨next, p.field ++ [c], p.fields⟩

def CsvParser.saveField (p : CsvParser) (next : CsvState) : CsvParser :=
  ⟨next, [], p.fields ++ [p.field]⟩

/-- `none` is the end-of-line mark sent after the characters of each line. -/
def CsvParser.processField (p : CsvParser) : Option Char → Except CsvError CsvParser
  | none => .ok (p.saveField .startRecord)
  | some c =>
    if c = '\n' ∨ c = '\r' then .ok (p.saveField .eatCrnl)
    else if c = '"' then .ok { p with state := .inQuotedField }
    else if c = ',' then .ok (p.saveField .startField)
    else p.addChar c .inField

def CsvParser.process (p : CsvParser) (c : Option Char) : Except CsvError CsvParser :=
  match p.state with
  | .startRecord =>
    match c with
    | none => .ok p
    | some x => if x = '\n' ∨ x = '\r' then .ok { p with state := .eatCrnl } else p.processField c
  | .startField => p.processField c
  | .inField =>
    match c with
    | none => .ok (p.saveField .startRecord)
    | some x =>
      if x = '\n' ∨ x = '\r' then .ok (p.saveField .eatCrnl)
      else if x = ',' then .ok (p.saveField .startField)
      else p.addChar x .inField
  | .inQuotedField =>
    match c with
    | none => .ok p
    | some x =>
      if x = '"' then .ok { p with state := .quoteInQuotedField } else p.addChar x .inQuotedField
  | .quoteInQuotedField =>
    match c with
    | none => .ok (p.saveField .startRecord)
    | some x =>
      if x = '"' then p.addChar x .inQuotedField
      else if x = ',' then .ok (p.saveField .startField)
      else if x = '\n' ∨ x = '\r' then .ok (p.saveField .eatCrnl)
      else p.addChar x .inField
  | .eatCrnl =>
    match c with
    | none => .ok { p with state := .startRecord }
    | some x => if x = '\n' ∨ x = '\r' then .ok p else .error .newlineInUnquotedField

def CsvParser.processLine (p : CsvParser) : Text → Except CsvError CsvParser
  | [] => p.process none
  | c :: cs => do
    let p' ← p.process (some c)
    p'.processLine cs

/-- Lines of a text buffer, each with its line feed. A carriage return alone
does not end a line. -/
def bufferLines : Text → List Text
  | [] => []
  | c :: cs =>
    if c = '\n' then [c] :: bufferLines cs
    else match bufferLines cs with
      | [] => [[c]]
      | l :: ls => (c :: l) :: ls

/-- `next(reader, None)`: lines are read until the record is complete. At the
end of the input an unfinished quoted field is still saved. -/
def nextRecord (p : CsvParser) : List Text → Except CsvError (Option (List Text))
  | [] =>
    if p.field ≠ [] ∨ p.state = .inQuotedField then
      .ok (some (p.saveField .startRecord).fields)
    else .ok none
  | line :: rest => do
    let p' ← p.processLine line
    if p'.state = .startRecord then .ok (some p'.fields) else nextRecord p' rest

/-- `next(csv.reader(io.StringIO(s)), None)`. -/
def firstCsvRecord (s : Text) : Except CsvError (Option (List Text)) :=
  nextRecord .initial (bufferLines s)

example : firstCsvRecord "a,\"b\"\"c,\",\r\nd".toList =
    .ok (some ["a".toList, "b\"c,".toList, []]) := by decide

/-! Rows of fields that need no quotes are read back. -/

/-- No quote, no line end and no comma. -/
def CsvPlain (t : Text) : Prop := ∀ c ∈ t, c ≠ '"' ∧ c ≠ '\n' ∧ c ≠ '\r' ∧ c ≠ ','

lemma CsvPlain.tail {c : Char} {t : Text} (h : CsvPlain (c :: t)) : CsvPlain t :=
  fun d hd => h d (List.mem_cons_of_mem c hd)

/-- A row of fields that need no quotes. -/
def csvRow (cols : List Text) : Text := List.intercalate [','] cols

lemma csvRow_cons_cons (t t' : Text) (rest : List Text) :
    csvRow (t :: t' :: rest) = t ++ ',' :: csvRow (t' :: rest) := by
  rw [csvRow, List.intercalate_cons_cons, List.append_assoc, List.singleton_append, csvRow]

/-- Behind the comma after some fields. -/
def CsvParser.behind (fields : List Text) : CsvParser := ⟨.startField, [], fields⟩

lemma process_inField {field : Text} {fields : List Text} {c : Char}
    (hc : c ≠ '"' ∧ c ≠ '\n' ∧ c ≠ '\r' ∧ c ≠ ',') :
    (CsvParser.mk .inField field fields).process (some c) =
      (CsvParser.mk .inField field fields).addChar c .inField := by
  simp [CsvParser.process, hc]

lemma process_behind {fields : List Text} {c : Char}
    (hc : c ≠ '"' ∧ c ≠ '\n' ∧ c ≠ '\r' ∧ c ≠ ',') :
    (CsvParser.behind fields).process (some c) = .ok ⟨.inField, [c], fields⟩ := by
  simp [CsvParser.process, CsvParser.processField, CsvParser.behind, CsvParser.addChar, hc,
    csvFieldLimit]

/-- A field is read up to what follows it, or its length raises. -/
lemma processLine_inField {t : Text} (h : CsvPlain t) {field : Text}
    (hfield : field.length ≤ csvFieldLimit) (fields : List Text) (rest : Text) :
    (CsvParser.mk .inField field fields).processLine (t ++ rest) =
      if field.length + t.length ≤ csvFieldLimit then
        (CsvParser.mk .inField (field ++ t) fields).processLine rest
      else .error .fieldLimit := by
  induction t generalizing field with
  | nil => simp [hfield]
  | cons c cs ih =>
    rw [List.cons_append, CsvParser.processLine, process_inField (h c List.mem_cons_self),
      CsvParser.addChar, List.length_cons]
    dsimp only
    by_cases hlimit : csvFieldLimit ≤ field.length
    · rw [if_pos hlimit, if_neg (by omega)]
      rfl
    · rw [if_neg hlimit]
      change CsvParser.processLine _ _ = _
      have hlength : (field ++ [c]).length = field.length + 1 := List.length_append
      rw [ih h.tail (by omega), hlength, List.append_assoc, List.singleton_append]
      exact if_congr (by omega) rfl rfl

lemma processLine_behind {t : Text} (h : CsvPlain t) (hne : t ≠ []) (fields : List Text)
    (rest : Text) :
    (CsvParser.behind fields).processLine (t ++ rest) =
      if t.length ≤ csvFieldLimit then (CsvParser.mk .inField t fields).processLine rest
      else .error .fieldLimit := by
  obtain ⟨c, cs, rfl⟩ := List.exists_cons_of_ne_nil hne
  rw [List.cons_append, CsvParser.processLine, process_behind (h c List.mem_cons_self)]
  change CsvParser.processLine _ _ = _
  have hone : [c].length ≤ csvFieldLimit := by
    rw [List.length_singleton]
    decide
  rw [processLine_inField h.tail hone, List.length_singleton, List.length_cons]
  exact if_congr (by omega) rfl rfl

lemma processLine_column {t : Text} (h : CsvPlain t) (fields : List Text) (rest : Text) :
    (CsvParser.behind fields).processLine (t ++ ',' :: rest) =
      if t.length ≤ csvFieldLimit then (CsvParser.behind (fields ++ [t])).processLine rest
      else .error .fieldLimit := by
  by_cases hempty : t = []
  · subst hempty
    rfl
  · rw [processLine_behind h hempty]
    rfl

/-- A row of plain fields on one line; a field over the limit raises. -/
theorem processLine_csvRow {cols : List Text} (hne : cols ≠ []) (h : ∀ t ∈ cols, CsvPlain t)
    (fields : List Text) :
    (CsvParser.behind fields).processLine (csvRow cols) =
      if ∀ t ∈ cols, t.length ≤ csvFieldLimit then .ok ⟨.startRecord, [], fields ++ cols⟩
      else .error .fieldLimit := by
  induction cols generalizing fields with
  | nil => exact absurd rfl hne
  | cons t rest ih =>
    have ht : CsvPlain t := h t List.mem_cons_self
    cases rest with
    | nil =>
      rw [csvRow, List.intercalate_singleton]
      by_cases hempty : t = []
      · subst hempty
        simp [CsvParser.processLine, CsvParser.process, CsvParser.processField, CsvParser.behind,
          CsvParser.saveField]
      · rw [← List.append_nil t, processLine_behind ht hempty, List.append_nil]
        simp [CsvParser.processLine, CsvParser.process, CsvParser.saveField]
    | cons t' rest =>
      have hrest := ih (List.cons_ne_nil _ _) (fun u hu => h u (List.mem_cons_of_mem t hu))
        (fields ++ [t])
      rw [csvRow_cons_cons, processLine_column ht, hrest]
      by_cases hlimit : t.length ≤ csvFieldLimit
      · simp [hlimit]
      · simp [hlimit]

lemma bufferLines_eq_singleton {s : Text} (hne : s ≠ []) (h : ∀ c ∈ s, c ≠ '\n') :
    bufferLines s = [s] := by
  induction s with
  | nil => exact absurd rfl hne
  | cons c cs ih =>
    rw [bufferLines, if_neg (h c List.mem_cons_self)]
    cases cs with
    | nil => rfl
    | cons d ds => rw [ih (List.cons_ne_nil d ds) fun e he => h e (List.mem_cons_of_mem c he)]

lemma processLine_initial {c : Char} {cs : Text} (hc : c ≠ '\n' ∧ c ≠ '\r') :
    CsvParser.initial.processLine (c :: cs) = (CsvParser.behind []).processLine (c :: cs) := by
  simp [CsvParser.processLine, CsvParser.process, CsvParser.processField, CsvParser.initial,
    CsvParser.behind, CsvParser.saveField, CsvParser.addChar, hc]

lemma mem_csvRow {cols : List Text} {c : Char} (h : c ∈ csvRow cols) :
    c = ',' ∨ ∃ t ∈ cols, c ∈ t := mem_intercalate h

lemma infix_csvRow {cols : List Text} {t : Text} (h : t ∈ cols) : t <:+: csvRow cols := by
  induction cols with
  | nil => cases h
  | cons u rest ih =>
    cases rest with
    | nil =>
      rw [csvRow, List.intercalate_singleton, List.mem_singleton.mp h]
    | cons u' rest =>
      rw [csvRow_cons_cons]
      rcases List.mem_cons.mp h with rfl | h
      · exact (List.prefix_append t _).isInfix
      · exact (ih h).trans (List.suffix_append_of_suffix (List.suffix_cons ',' _)).isInfix

/-- The reader gives back the columns of a row that is not empty. -/
theorem firstCsvRecord_csvRow {cols : List Text} (hne : csvRow cols ≠ [])
    (h : ∀ t ∈ cols, CsvPlain t) :
    firstCsvRecord (csvRow cols) =
      if ∀ t ∈ cols, t.length ≤ csvFieldLimit then .ok (some cols) else .error .fieldLimit := by
  have hends : ∀ c ∈ csvRow cols, c ≠ '\n' ∧ c ≠ '\r' := by
    intro c hc
    rcases mem_csvRow hc with rfl | ⟨t, ht, hct⟩
    · decide
    · exact ⟨(h t ht c hct).2.1, (h t ht c hct).2.2.1⟩
  have hcols : cols ≠ [] := fun hcols => hne (by rw [hcols]; rfl)
  have hrow := processLine_csvRow hcols h []
  rw [firstCsvRecord, bufferLines_eq_singleton hne fun c hc => (hends c hc).1, nextRecord]
  obtain ⟨c, cs, hcs⟩ := List.exists_cons_of_ne_nil hne
  rw [hcs] at hends hrow ⊢
  rw [processLine_initial (hends c List.mem_cons_self), hrow]
  split_ifs
  · rfl
  · rfl

/-! Commas and line ends are all that ends a column. -/

/-- Columns saved so far against the commas read so far. -/
def CsvParser.Bounded (p : CsvParser) (k : ℕ) : Prop :=
  match p.state with
  | .startRecord => p.fields = []
  | .startField | .inField | .inQuotedField | .quoteInQuotedField => p.fields.length ≤ k
  | .eatCrnl => p.fields.length ≤ k + 1

lemma addChar_bounded {p p' : CsvParser} {c : Char} {next : CsvState} {k : ℕ}
    (h : p.addChar c next = .ok p') (hnext : next = .inField ∨ next = .inQuotedField)
    (hfields : p.fields.length ≤ k) : p'.Bounded k := by
  unfold CsvParser.addChar at h
  split_ifs at h
  cases h
  rcases hnext with rfl | rfl
  · exact hfields
  · exact hfields

/-- The column that a line end completes. -/
lemma saveField_bounded {p : CsvParser} {k : ℕ} (h : p.fields.length ≤ k) (c : Char) :
    (p.saveField .eatCrnl).Bounded (k + [c].count ',') := by
  simp only [CsvParser.Bounded, CsvParser.saveField, List.length_append, List.length_singleton]
  omega

/-- The column that a comma completes. -/
lemma saveField_comma_bounded {p : CsvParser} {k : ℕ} (h : p.fields.length ≤ k) :
    (p.saveField .startField).Bounded (k + [','].count ',') := by
  simp only [CsvParser.Bounded, CsvParser.saveField, List.length_append, List.length_singleton,
    List.count_singleton_self]
  omega

lemma processField_bounded {p p' : CsvParser} {c : Char} {k : ℕ}
    (h : p.processField (some c) = .ok p') (hfields : p.fields.length ≤ k) :
    p'.Bounded (k + [c].count ',') := by
  unfold CsvParser.processField at h
  dsimp only at h
  split_ifs at h with hend hquote hcomma
  · cases h
    exact saveField_bounded hfields c
  · cases h
    simp only [CsvParser.Bounded]
    omega
  · cases h
    subst hcomma
    exact saveField_comma_bounded hfields
  · exact addChar_bounded h (.inl rfl) (by omega)

/-- A character adds a column only if it is a comma or ends the line. -/
lemma process_bounded {p p' : CsvParser} {c : Char} {k : ℕ} (hp : p.Bounded k)
    (h : p.process (some c) = .ok p') : p'.Bounded (k + [c].count ',') := by
  unfold CsvParser.Bounded at hp
  unfold CsvParser.process at h
  cases hstate : p.state with
  | startRecord =>
    simp only [hstate] at h hp
    split_ifs at h
    · cases h
      simp [CsvParser.Bounded, hp]
    · exact processField_bounded h (by simp [hp])
  | startField =>
    simp only [hstate] at h hp
    exact processField_bounded h hp
  | inField =>
    simp only [hstate] at h hp
    split_ifs at h with hend hcomma
    · cases h
      exact saveField_bounded hp c
    · cases h
      subst hcomma
      exact saveField_comma_bounded hp
    · exact addChar_bounded h (.inl rfl) (by omega)
  | inQuotedField =>
    simp only [hstate] at h hp
    split_ifs at h with hquote
    · cases h
      simp only [CsvParser.Bounded]
      omega
    · exact addChar_bounded h (.inr rfl) (by omega)
  | quoteInQuotedField =>
    simp only [hstate] at h hp
    split_ifs at h with hquote hcomma hend
    · exact addChar_bounded h (.inr rfl) (by omega)
    · cases h
      subst hcomma
      exact saveField_comma_bounded hp
    · cases h
      exact saveField_bounded hp c
    · exact addChar_bounded h (.inl rfl) (by omega)
  | eatCrnl =>
    simp only [hstate] at h hp
    split_ifs at h
    cases h
    simp only [CsvParser.Bounded, hstate]
    omega

/-- At the end of a line the record is complete, or a quoted field goes on. -/
lemma process_none_bounded {p p' : CsvParser} {k : ℕ} (hp : p.Bounded k)
    (h : p.process none = .ok p') :
    (p'.state = .startRecord ∧ p'.fields.length ≤ k + 1) ∨
      (p'.state = .inQuotedField ∧ p'.fields.length ≤ k) := by
  unfold CsvParser.Bounded at hp
  unfold CsvParser.process at h
  cases hstate : p.state with
  | startRecord =>
    simp only [hstate] at h hp
    cases h
    exact .inl ⟨hstate, by simp [hp]⟩
  | inQuotedField =>
    simp only [hstate] at h hp
    cases h
    exact .inr ⟨hstate, hp⟩
  | eatCrnl =>
    simp only [hstate] at h hp
    cases h
    exact .inl ⟨rfl, hp⟩
  | _ =>
    simp only [hstate, CsvParser.processField] at h hp
    cases h
    refine .inl ⟨rfl, ?_⟩
    simp only [CsvParser.saveField, List.length_append, List.length_singleton]
    omega

lemma processLine_bounded {line : Text} {p p' : CsvParser} {k : ℕ} (hp : p.Bounded k)
    (h : p.processLine line = .ok p') :
    (p'.state = .startRecord ∧ p'.fields.length ≤ k + line.count ',' + 1) ∨
      (p'.state = .inQuotedField ∧ p'.fields.length ≤ k + line.count ',') := by
  induction line generalizing p k with
  | nil => exact process_none_bounded hp h
  | cons c cs ih =>
    rw [CsvParser.processLine] at h
    cases hc : p.process (some c) with
    | error e =>
      rw [hc] at h
      cases h
    | ok q =>
      rw [hc] at h
      have hcs := ih (process_bounded hp hc) h
      have hcount : (c :: cs).count ',' = [c].count ',' + cs.count ',' := by
        rw [← List.count_append]
        rfl
      rw [hcount, ← Nat.add_assoc]
      exact hcs

lemma nextRecord_bounded {lines : List Text} {p : CsvParser} {k : ℕ} {fields : List Text}
    (hp : p.state = .startRecord ∧ p.fields = [] ∨
      p.state = .inQuotedField ∧ p.fields.length ≤ k)
    (h : nextRecord p lines = .ok (some fields)) :
    fields.length ≤ k + lines.flatten.count ',' + 1 := by
  induction lines generalizing p k with
  | nil =>
    rw [nextRecord] at h
    have hfields : p.fields.length ≤ k := by
      rcases hp with ⟨_, hp⟩ | ⟨_, hp⟩
      · simp [hp]
      · exact hp
    split_ifs at h
    · cases h
      simp only [CsvParser.saveField, List.length_append, List.length_singleton]
      omega
    · cases h
  | cons line rest ih =>
    have hbounded : p.Bounded k := by
      rcases hp with ⟨hstate, hp⟩ | ⟨hstate, hp⟩
      · simpa [CsvParser.Bounded, hstate] using hp
      · simpa [CsvParser.Bounded, hstate] using hp
    rw [nextRecord] at h
    cases hline : p.processLine line with
    | error e =>
      rw [hline] at h
      cases h
    | ok q =>
      rw [hline] at h
      change (if q.state = .startRecord then _ else _) = _ at h
      rw [List.flatten_cons, List.count_append]
      rcases processLine_bounded hbounded hline with ⟨hstate, hfields⟩ | ⟨hstate, hfields⟩
      · rw [if_pos hstate] at h
        cases h
        omega
      · rw [if_neg (by rw [hstate]; decide)] at h
        have hrest := ih (.inr ⟨hstate, hfields⟩) h
        omega

lemma flatten_bufferLines (s : Text) : (bufferLines s).flatten = s := by
  induction s with
  | nil => rfl
  | cons c cs ih =>
    rw [bufferLines]
    split_ifs
    · rw [List.flatten_cons, ih, List.singleton_append]
    · cases hlines : bufferLines cs with
      | nil =>
        rw [hlines] at ih
        rw [← ih]
        rfl
      | cons l ls =>
        rw [hlines] at ih
        rw [← ih]
        rfl

/-- A record has at most one column more than its text has commas. -/
theorem length_firstCsvRecord_le {s : Text} {fields : List Text}
    (h : firstCsvRecord s = .ok (some fields)) : fields.length ≤ s.count ',' + 1 := by
  have hrecord := nextRecord_bounded (k := 0) (.inl ⟨rfl, rfl⟩) h
  rwa [flatten_bufferLines, Nat.zero_add] at hrecord

/-! ## `shlex.split` -/

inductive ShlexState where
  | between
  | word
  | quote (mark : Char)
  | escape (back : Option Char)
  deriving DecidableEq, Repr

/-- Running lexer: current token, whether part of it was quoted, finished tokens.
`escape back` remembers the quote to return to, `none` outside quotes. -/
structure Shlex where
  state : ShlexState
  token : Text
  quoted : Bool
  tokens : List Text
  deriving DecidableEq, Repr

def Shlex.initial : Shlex := ⟨.between, [], false, []⟩

def isShlexBlank (c : Char) : Bool := c = ' ' || c = '\t' || c = '\r' || c = '\n'

/-- Close the current token if there is one. -/
def Shlex.emit (l : Shlex) : Shlex :=
  if l.token ≠ [] ∨ l.quoted then ⟨.between, [], false, l.tokens ++ [l.token]⟩
  else { l with state := .between }

def Shlex.step (l : Shlex) (c : Char) : Shlex :=
  match l.state with
  | .between =>
    if isShlexBlank c then l.emit
    else if c = '\\' then { l with state := .escape none }
    else if c = '\'' ∨ c = '"' then { l with state := .quote c }
    else { l with state := .word, token := [c] }
  | .word =>
    if isShlexBlank c then l.emit
    else if c = '\'' ∨ c = '"' then { l with state := .quote c }
    else if c = '\\' then { l with state := .escape none }
    else { l with token := l.token ++ [c] }
  | .quote mark =>
    if c = mark then { l with state := .word, quoted := true }
    else if c = '\\' ∧ mark = '"' then { l with state := .escape (some mark), quoted := true }
    else { l with token := l.token ++ [c], quoted := true }
  | .escape none => { l with state := .word, token := l.token ++ [c] }
  | .escape (some mark) =>
    -- inside double quotes a backslash only escapes itself and the quote
    let kept := if c = '\\' ∨ c = mark then [c] else ['\\', c]
    { l with state := .quote mark, token := l.token ++ kept }

/-- `shlex.split(s, posix=True)`; `none` is the `ValueError` of an open quotation
or a trailing backslash. -/
def shlexSplit (s : Text) : Option (List Text) :=
  let l := s.foldl Shlex.step .initial
  match l.state with
  | .quote _ => none
  | .escape _ => none
  | .between => some l.emit.tokens
  | .word => some l.emit.tokens

example : shlexSplit "a=b msg=\"x \\\"y\" ''".toList =
    some ["a=b".toList, "msg=x \"y".toList, []] := by decide

end FlowDiscovery.PyLexers
