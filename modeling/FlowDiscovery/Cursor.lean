import FlowDiscovery.PyBase64
import FlowDiscovery.PyJsonRoundTrip

/-!
# Cursors of the raw flows

A cursor is the key of a row as JSON in URL-safe base64 without padding. Decoding
checks that the four members are there and converts each; what it does not check
surfaces as another exception than the `ValueError` its caller handles.
-/
namespace FlowDiscovery.Cursor
open PyText PyJson PyBase64

structure CursorPayload (Time : Type) where
  lastTime : Time
  lastSrcIp : PyStr
  lastDstIp : PyStr
  lastDstPort : ℤ

/-- The exception that `decode_cursor` ends with: one of its own two `ValueError`s,
one of a conversion, or one of another class. -/
inductive CursorError where
  | malformed
  | missingFields
  | conversion
  | attribute
  | type
  | overflow
  deriving DecidableEq, Repr

/-- What the codec uses of the language beyond texts, integers and JSON:
`datetime.isoformat` and `datetime.fromisoformat` (`none` is its `ValueError`),
`repr(float(s))`, `int` of a float and `str` of a value that is not a string. -/
structure Builtins (Time : Type) where
  isoformat : Time → Text
  fromisoformat : PyStr → Option Time
  float : Text → Text
  intOfFloat : Text → Except CursorError ℤ
  str : Json → PyStr
  fromisoformat_isoformat : ∀ t, fromisoformat (ofText (isoformat t)) = some t

def keyTime : PyStr := ofString "last_time"
def keySrcIp : PyStr := ofString "last_src_ip"
def keyDstIp : PyStr := ofString "last_dst_ip"
def keyDstPort : PyStr := ofString "last_dst_port"

section

variable {Time : Type} (py : Builtins Time)

/-- `none` is the `ValueError` of a port with too many digits. -/
def encodeCursor (payload : CursorPayload Time) : Option Text := do
  let port ← dumpsInt payload.lastDstPort
  let raw := dumpsObject
    [(keyTime, dumpsString (ofText (py.isoformat payload.lastTime))),
      (keySrcIp, dumpsString payload.lastSrcIp), (keyDstIp, dumpsString payload.lastDstIp),
      (keyDstPort, port)]
  return unpad (urlsafeB64encode (encodeAscii raw))

/-- `datetime.fromisoformat(value)`. -/
def timeOf : Json → Except CursorError Time
  | .str s =>
    match py.fromisoformat s with
    | some t => .ok t
    | none => .error .conversion
  | _ => .error .type

/-- `str(value)`. -/
def strOf : Json → PyStr
  | .str s => s
  | value => py.str value

/-- `int(value)`. -/
def intOf : Json → Except CursorError ℤ
  | .int n => .ok n
  | .bool b => .ok (if b then 1 else 0)
  | .float repr => py.intOfFloat repr
  | .str s =>
    match int? (s.map Char.ofNat) with
    | some n => .ok n
    | none => .error .conversion
  | .null | .arr _ | .obj _ => .error .type

/-- The checks and conversions on the decoded document. -/
def payloadOf : Json → Except CursorError (CursorPayload Time)
  | .obj fields =>
    match Json.lookup fields keyTime, Json.lookup fields keySrcIp, Json.lookup fields keyDstIp,
        Json.lookup fields keyDstPort with
    | some time, some srcIp, some dstIp, some port => do
      let lastTime ← timeOf py time
      let lastDstPort ← intOf py port
      return ⟨lastTime, strOf py srcIp, strOf py dstIp, lastDstPort⟩
    | _, _, _, _ => .error .missingFields
  | _ => .error .attribute

def decodeCursor (token : Text) : Except CursorError (CursorPayload Time) :=
  match (urlsafeB64decode (pad token)).bind (loadsBytes py.float) with
  | none => .error .malformed
  | some d => payloadOf py d

/-! ## Round trip -/

/-- The document that was written, as its reader sees it. -/
def fieldsOf (payload : CursorPayload Time) : List (PyStr × Json) :=
  [(keyTime, .str (ofText (py.isoformat payload.lastTime))), (keySrcIp, .str payload.lastSrcIp),
    (keyDstIp, .str payload.lastDstIp), (keyDstPort, .int payload.lastDstPort)]

lemma payloadOf_fieldsOf (payload : CursorPayload Time) :
    payloadOf py (.obj (fieldsOf py payload)) = .ok payload := by
  have htime : Json.lookup (fieldsOf py payload) keyTime =
      some (.str (ofText (py.isoformat payload.lastTime))) := rfl
  have hsrc : Json.lookup (fieldsOf py payload) keySrcIp = some (.str payload.lastSrcIp) := rfl
  have hdst : Json.lookup (fieldsOf py payload) keyDstIp = some (.str payload.lastDstIp) := rfl
  have hport : Json.lookup (fieldsOf py payload) keyDstPort = some (.int payload.lastDstPort) := rfl
  simp only [payloadOf, htime, hsrc, hdst, hport, timeOf, py.fromisoformat_isoformat, intOf, strOf]
  rfl

/-- The payload with the surrogates of its strings joined. -/
def joined (payload : CursorPayload Time) : CursorPayload Time :=
  { payload with
    lastSrcIp := joinSurrogates payload.lastSrcIp
    lastDstIp := joinSurrogates payload.lastDstIp }

/-- The members of the document with what is read back of each. -/
def membersOf (payload : CursorPayload Time) (port : PyStr) : List Member :=
  [(keyTime, dumpsString (ofText (py.isoformat payload.lastTime)),
      .str (ofText (py.isoformat payload.lastTime))),
    (keySrcIp, dumpsString payload.lastSrcIp, .str (joinSurrogates payload.lastSrcIp)),
    (keyDstIp, dumpsString payload.lastDstIp, .str (joinSurrogates payload.lastDstIp)),
    (keyDstPort, port, .int payload.lastDstPort)]

section

variable {payload : CursorPayload Time} {port : PyStr}

lemma isScalar_key : ∀ m ∈ membersOf py payload port, ∀ c ∈ m.1, IsScalar c := by
  intro m hm
  simp only [membersOf, List.mem_cons, List.not_mem_nil, or_false] at hm
  rcases hm with rfl | rfl | rfl | rfl <;> exact isScalar_ofText _

lemma loads_document (hport : dumpsInt payload.lastDstPort = some port)
    (hsrc : IsStr payload.lastSrcIp) (hdst : IsStr payload.lastDstIp) :
    loads py.float (dumpsObject ((membersOf py payload port).map Member.text)) =
      some (.obj (fieldsOf py (joined payload))) := by
  have hwritten : ∀ m ∈ membersOf py payload port, Member.Written py.float m := by
    intro m hm
    refine ⟨isScalar_key py m hm, ?_⟩
    simp only [membersOf, List.mem_cons, List.not_mem_nil, or_false] at hm
    rcases hm with rfl | rfl | rfl | rfl
    · exact renders_dumpsString py.float (isScalar_ofText _)
    · exact renders_dumpsString_join py.float hsrc
    · exact renders_dumpsString_join py.float hdst
    · exact renders_dumpsInt py.float hport
  exact loads_dumpsObject py.float (List.cons_ne_nil _ _) hwritten

lemma document_ascii (hport : dumpsInt payload.lastDstPort = some port)
    (hsrc : IsStr payload.lastSrcIp) (hdst : IsStr payload.lastDstIp) :
    ∀ x ∈ dumpsObject ((membersOf py payload port).map Member.text), 0 < x ∧ x < 0x80 := by
  apply dumpsObject_ascii
  · intro text htext c hc
    obtain ⟨m, hm, rfl⟩ := List.mem_map.mp htext
    exact (isScalar_key py m hm c hc).lt
  · intro text htext
    obtain ⟨m, hm, rfl⟩ := List.mem_map.mp htext
    simp only [membersOf, List.mem_cons, List.not_mem_nil, or_false] at hm
    rcases hm with rfl | rfl | rfl | rfl
    · exact dumpsString_ascii fun c hc => (isScalar_ofText _ c hc).lt
    · exact dumpsString_ascii hsrc
    · exact dumpsString_ascii hdst
    · exact dumpsInt_ascii hport

end

/-- What a cursor decodes to, whatever the strings. -/
theorem decodeCursor_joined {payload : CursorPayload Time} {token : Text}
    (h : encodeCursor py payload = some token) (hsrc : IsStr payload.lastSrcIp)
    (hdst : IsStr payload.lastDstIp) : decodeCursor py token = .ok (joined payload) := by
  obtain ⟨port, hport, htoken⟩ := Option.bind_eq_some_iff.mp h
  have hloads := loads_document py hport hsrc hdst
  rw [← loadsBytes_encodeAscii py.float (document_ascii py hport hsrc hdst)] at hloads
  simp only [membersOf, List.map_cons, List.map_nil, Member.text] at hloads
  obtain rfl := Option.some.inj htoken
  rw [decodeCursor, pad_unpad_encode, urlsafeB64decode_encode, Option.bind_some, hloads]
  exact payloadOf_fieldsOf py (joined payload)

/-- A cursor decodes to the payload it was made from. -/
theorem decodeCursor_encodeCursor {payload : CursorPayload Time} {token : Text}
    (h : encodeCursor py payload = some token) (hsrc : ∀ c ∈ payload.lastSrcIp, IsScalar c)
    (hdst : ∀ c ∈ payload.lastDstIp, IsScalar c) : decodeCursor py token = .ok payload := by
  have hjoined : joined payload = payload := by
    rw [joined, joinSurrogates_of_isScalar hsrc, joinSurrogates_of_isScalar hdst]
  have hdecode := decodeCursor_joined py h (fun c hc => (hsrc c hc).lt) fun c hc => (hdst c hc).lt
  rwa [hjoined] at hdecode

end

end FlowDiscovery.Cursor
