import FlowDiscovery.RawFlows

/-!
# How decoding a cursor fails

The route answers 400 to a `ValueError` of `decode_cursor` and handles no other
exception. Only the base64 and JSON steps are guarded; the keys of the document and
the conversions of its members are used without a check of their types. Here the
recursion limit counts as well.
-/
namespace FlowDiscovery.CursorErrors
open PyText PyJson PyBase64 Cursor

/-- Reads as one of the two infinities. -/
def IsInfinite (repr : Text) : Prop := repr = "inf".toList ∨ repr = "-inf".toList

/-- The limits of the interpreter on top of the codec: the texts and the values on which
`json.loads` and `str` reach the recursion limit, and which floats `int` refuses. -/
structure Interpreter (Time : Type) extends Builtins Time where
  loadsTooDeep : PyStr → Bool
  strTooDeep : Json → Bool
  intOfFloat_infinite : ∀ repr, IsInfinite repr → intOfFloat repr = .error .overflow
  intOfFloat_finite : ∀ repr, ¬ IsInfinite repr →
    (∃ n, intOfFloat repr = .ok n) ∨ intOfFloat repr = .error .conversion

/-- The exception that leaves `decode_cursor`. -/
inductive Raised where
  | error (e : CursorError)
  | recursion
  deriving DecidableEq, Repr

/-- `isinstance(exc, ValueError)`. -/
def Raised.isValueError : Raised → Bool
  | .error .malformed | .error .missingFields | .error .conversion => true
  | .error .attribute | .error .type | .error .overflow | .recursion => false

section

variable {Time : Type} (py : Interpreter Time)

/-- `str(value)`; a string is returned as it is. -/
def strRaises : Json → Bool
  | .str _ => false
  | value => py.strTooDeep value

/-- The fields in the order in which they are converted. -/
def convert (time src dst port : Json) : Except Raised (CursorPayload Time) := do
  let lastTime ← (timeOf py.toBuiltins time).mapError .error
  if strRaises py src || strRaises py dst then
    throw .recursion
  let lastDstPort ← (intOf py.toBuiltins port).mapError .error
  return ⟨lastTime, strOf py.toBuiltins src, strOf py.toBuiltins dst, lastDstPort⟩

/-- `decode_cursor` behind `json.loads`. -/
def fromDocument : Json → Except Raised (CursorPayload Time)
  | .obj fields =>
    match Json.lookup fields keyTime, Json.lookup fields keySrcIp, Json.lookup fields keyDstIp,
        Json.lookup fields keyDstPort with
    | some time, some src, some dst, some port => convert py time src dst port
    | _, _, _, _ => .error (.error .missingFields)
  | _ => .error (.error .attribute)

/-- The text that the scanner of `json.loads` is given. -/
def jsonText (token : Text) : Option PyStr := (urlsafeB64decode (pad token)).bind decodeBytes

def decode (token : Text) : Except Raised (CursorPayload Time) :=
  match jsonText token with
  | none => .error (.error .malformed)
  | some s =>
    if py.loadsTooDeep s then .error .recursion
    else
      match loads py.float s with
      | none => .error (.error .malformed)
      | some d => fromDocument py d

lemma convert_of_error {time : Json} {e : CursorError} (h : timeOf py.toBuiltins time = .error e)
    (src dst port : Json) : convert py time src dst port = .error (.error e) := by
  rw [convert, h]
  rfl

lemma convert_of_deep {time src dst : Json} {t : Time} (h : timeOf py.toBuiltins time = .ok t)
    (hdeep : (strRaises py src || strRaises py dst) = true) (port : Json) :
    convert py time src dst port = .error .recursion := by
  rw [convert, h, hdeep]
  rfl

lemma convert_of_shallow {time src dst : Json} {t : Time}
    (h : timeOf py.toBuiltins time = .ok t)
    (hshallow : (strRaises py src || strRaises py dst) = false) (port : Json) :
    convert py time src dst port = ((intOf py.toBuiltins port).mapError .error).map fun n =>
      ⟨t, strOf py.toBuiltins src, strOf py.toBuiltins dst, n⟩ := by
  rw [convert, h, hshallow]
  rfl

/-- Below the recursion limit the fields are converted as `decodeCursor` does it. -/
lemma convert_eq (hstr : ∀ value, py.strTooDeep value = false) (time src dst port : Json) :
    convert py time src dst port =
      (do
        let lastTime ← timeOf py.toBuiltins time
        let lastDstPort ← intOf py.toBuiltins port
        return (⟨lastTime, strOf py.toBuiltins src, strOf py.toBuiltins dst, lastDstPort⟩ :
          CursorPayload Time)).mapError .error := by
  have hraises : ∀ value, strRaises py value = false := by
    intro value
    cases value <;> simp [strRaises, hstr]
  cases ht : timeOf py.toBuiltins time with
  | error e =>
    rw [convert_of_error py ht]
    rfl
  | ok t =>
    rw [convert_of_shallow py ht (by simp [hraises])]
    cases intOf py.toBuiltins port <;> rfl

lemma fromDocument_eq_payloadOf (hstr : ∀ value, py.strTooDeep value = false) (d : Json) :
    fromDocument py d = (payloadOf py.toBuiltins d).mapError .error := by
  cases d with
  | obj fields =>
    unfold fromDocument payloadOf
    dsimp only
    cases Json.lookup fields keyTime with
    | none => rfl
    | some time =>
      cases Json.lookup fields keySrcIp with
      | none => rfl
      | some src =>
        cases Json.lookup fields keyDstIp with
        | none => rfl
        | some dst =>
          cases Json.lookup fields keyDstPort with
          | none => rfl
          | some port => exact convert_eq py hstr time src dst port
  | _ => rfl

/-- Below the recursion limit this is `decodeCursor`. -/
theorem decode_eq_decodeCursor (hloads : ∀ s, py.loadsTooDeep s = false)
    (hstr : ∀ value, py.strTooDeep value = false) (token : Text) :
    decode py token = (decodeCursor py.toBuiltins token).mapError .error := by
  have htext : (urlsafeB64decode (pad token)).bind (loadsBytes py.float) =
      (jsonText token).bind (loads py.float) := by
    rw [jsonText, Option.bind_assoc]
    rfl
  rw [decode, decodeCursor, htext]
  cases jsonText token with
  | none => rfl
  | some s =>
    simp only [hloads, Bool.false_eq_true, if_false, Option.bind_some]
    cases loads py.float s with
    | none => rfl
    | some d => exact fromDocument_eq_payloadOf py hstr d

/-- How the route goes on with a cursor that is not empty: with its payload or with a
status code. An exception that nobody handles is answered by the server. -/
def handleCursor (token : Text) : Except ℕ (CursorPayload Time) :=
  match decode py token with
  | .ok cur => .ok cur
  | .error e => if e.isValueError then .error 400 else .error 500

/-- The token decodes, or fails with a `ValueError` that is answered with 400. -/
def FailsAsHandled (token : Text) : Prop :=
  (∃ cur, decode py token = .ok cur) ∨
    ∃ e, decode py token = .error e ∧ e.isValueError ∧ handleCursor py token = .error 400

/-! ## The tokens that are handled -/

/-- A port that `int` converts or rejects with a `ValueError`. -/
def PortConvertible : Json → Prop
  | .int _ | .bool _ | .str _ => True
  | .float repr => ¬ IsInfinite repr
  | .null | .arr _ | .obj _ => False

/-- The time is a text; unless it is no timestamp, the other members convert. -/
def MembersConvertible (time src dst port : Json) : Prop :=
  ∃ text, time = .str text ∧ (py.fromisoformat text = none ∨
    strRaises py src = false ∧ strRaises py dst = false ∧ PortConvertible port)

/-- An object; unless a member is missing, its members convert. -/
def DocumentConvertible : Json → Prop
  | .obj fields =>
    ∀ time ∈ Json.lookup fields keyTime, ∀ src ∈ Json.lookup fields keySrcIp,
      ∀ dst ∈ Json.lookup fields keyDstIp, ∀ port ∈ Json.lookup fields keyDstPort,
        MembersConvertible py time src dst port
  | _ => False

/-- Unless the token is not base64 of a JSON text, the document converts. -/
def TokenConvertible (token : Text) : Prop :=
  ∀ s ∈ jsonText token, py.loadsTooDeep s = false ∧
    ∀ d ∈ loads py.float s, DocumentConvertible py d

/-! ## Exactly these are handled -/

/-- Nothing but a `ValueError` comes out. -/
def OnlyValueErrors {α : Type} (result : Except Raised α) : Prop :=
  ∀ e, result = .error e → e.isValueError

lemma failsAsHandled_iff (token : Text) :
    FailsAsHandled py token ↔ OnlyValueErrors (decode py token) := by
  unfold FailsAsHandled OnlyValueErrors handleCursor
  cases decode py token with
  | ok cur => simp
  | error e =>
    cases he : e.isValueError <;> simp [he]

lemma onlyValueErrors_intOf (port : Json) :
    OnlyValueErrors ((intOf py.toBuiltins port).mapError .error) ↔ PortConvertible port := by
  cases port with
  | float repr =>
    by_cases hinf : IsInfinite repr
    · simp [OnlyValueErrors, intOf, py.intOfFloat_infinite repr hinf, Except.mapError,
        Raised.isValueError, PortConvertible, hinf]
    · obtain ⟨n, hn⟩ | hn := py.intOfFloat_finite repr hinf
      · simp [OnlyValueErrors, intOf, hn, Except.mapError, PortConvertible, hinf]
      · simp [OnlyValueErrors, intOf, hn, Except.mapError, Raised.isValueError, PortConvertible,
          hinf]
  | str s =>
    cases hn : int? (s.map Char.ofNat) <;>
      simp [OnlyValueErrors, intOf, hn, Except.mapError, Raised.isValueError, PortConvertible]
  | _ => simp [OnlyValueErrors, intOf, Except.mapError, Raised.isValueError, PortConvertible]

lemma onlyValueErrors_map {α β : Type} (f : α → β) (result : Except Raised α) :
    OnlyValueErrors (result.map f) ↔ OnlyValueErrors result := by
  cases result <;> simp [OnlyValueErrors, Except.map]

lemma onlyValueErrors_convert (time src dst port : Json) :
    OnlyValueErrors (convert py time src dst port) ↔ MembersConvertible py time src dst port := by
  unfold MembersConvertible
  cases time with
  | str text =>
    cases ht : py.fromisoformat text with
    | none =>
      rw [convert_of_error py (e := .conversion) (by simp [timeOf, ht])]
      simp [OnlyValueErrors, Raised.isValueError, ht]
    | some t =>
      have htime : timeOf py.toBuiltins (.str text) = .ok t := by simp [timeOf, ht]
      cases hdeep : strRaises py src || strRaises py dst with
      | true =>
        rw [convert_of_deep py htime hdeep]
        rw [Bool.or_eq_true] at hdeep
        rcases hdeep with hdeep | hdeep <;>
          simp [OnlyValueErrors, Raised.isValueError, ht, hdeep]
      | false =>
        rw [convert_of_shallow py htime hdeep, onlyValueErrors_map, onlyValueErrors_intOf]
        rw [Bool.or_eq_false_iff] at hdeep
        simp [ht, hdeep.1, hdeep.2]
  | _ =>
    rw [convert_of_error py (e := .type) rfl]
    simp [OnlyValueErrors, Raised.isValueError]

lemma onlyValueErrors_fromDocument (d : Json) :
    OnlyValueErrors (fromDocument py d) ↔ DocumentConvertible py d := by
  cases d with
  | obj fields =>
    unfold fromDocument DocumentConvertible
    dsimp only
    split
    · next time src dst port h1 h2 h3 h4 =>
      rw [onlyValueErrors_convert]
      simp [h1, h2, h3, h4]
    · next hmissing =>
      refine iff_of_true (by simp [OnlyValueErrors, Raised.isValueError]) ?_
      intro time ht src hs dst hd port hp
      exact (hmissing time src dst port ht hs hd hp).elim
  | _ => simp [OnlyValueErrors, fromDocument, DocumentConvertible, Raised.isValueError]

/-- A token decodes or is answered with 400 if and only if, as far as it is base64 of a
JSON text, the document is an object whose members, when all are there, convert. -/
theorem failsAsHandled_iff_convertible (token : Text) :
    FailsAsHandled py token ↔ TokenConvertible py token := by
  rw [failsAsHandled_iff]
  unfold decode TokenConvertible
  cases jsonText token with
  | none => simp [OnlyValueErrors, Raised.isValueError]
  | some s =>
    cases hdeep : py.loadsTooDeep s with
    | true => simp [OnlyValueErrors, Raised.isValueError, hdeep]
    | false =>
      cases hd : loads py.float s with
      | none => simp [OnlyValueErrors, Raised.isValueError, hdeep, hd]
      | some d =>
        have hdocument := onlyValueErrors_fromDocument py d
        simpa [hdeep, hd] using hdocument

end

instance (repr : Text) : Decidable (IsInfinite repr) := inferInstanceAs (Decidable (_ ∨ _))

/-- `int` of a float that is written without an exponent. -/
def truncate (repr : Text) : Except CursorError ℤ :=
  if IsInfinite repr then .error .overflow
  else
    match int? (repr.takeWhile (· ≠ '.')) with
    | some n => .ok n
    | none => .error .conversion

/-- Far from the recursion limit. -/
def shallowInterpreter : Interpreter (Fin 2) where
  isoformat := RawFlows.twoTimes.isoformat
  fromisoformat := RawFlows.twoTimes.fromisoformat
  float := id
  intOfFloat := truncate
  str _ := []
  fromisoformat_isoformat := RawFlows.twoTimes.fromisoformat_isoformat
  loadsTooDeep _ := false
  strTooDeep _ := false
  intOfFloat_infinite repr h := by rw [truncate, if_pos h]
  intOfFloat_finite repr h := by
    rw [truncate, if_neg h]
    cases int? (repr.takeWhile (· ≠ '.')) with
    | none => exact .inr rfl
    | some n => exact .inl ⟨n, rfl⟩

/-- A cursor made of any document. -/
def tokenOf (document : String) : Text := unpad (urlsafeB64encode (PyBytes.ofString document))

/-- The four members with the given time and port. -/
def documentOf (time port : String) : String :=
  "\x7b\"last_time\":" ++ time ++ ",\"last_src_ip\":\"10.0.0.1\",\"last_dst_ip\":\"10.0.0.2\"," ++
    "\"last_dst_port\":" ++ port ++ "\x7d"

deriving instance DecidableEq for CursorPayload

/-- An array, a number for the time, no port and an infinite one. -/
theorem shallowInterpreter_escapes :
    decode shallowInterpreter (tokenOf "[]") = .error (.error .attribute) ∧
    decode shallowInterpreter (tokenOf (documentOf "5" "443")) = .error (.error .type) ∧
    decode shallowInterpreter (tokenOf (documentOf "\"2026-04-22T14:12:00+00:00\"" "null")) =
      .error (.error .type) ∧
    decode shallowInterpreter (tokenOf (documentOf "\"2026-04-22T14:12:00+00:00\"" "Infinity")) =
      .error (.error .overflow) ∧
    handleCursor shallowInterpreter (tokenOf "[]") = .error 500 ∧
    ¬ ∀ token, FailsAsHandled shallowInterpreter token := by
  have harray : decode shallowInterpreter (tokenOf "[]") = .error (.error .attribute) := by
    decide +kernel
  refine ⟨harray, by decide +kernel, by decide +kernel, by decide +kernel, by decide +kernel, ?_⟩
  intro h
  have hvalue := (failsAsHandled_iff _ _).mp (h (tokenOf "[]")) _ harray
  cases hvalue

end FlowDiscovery.CursorErrors
