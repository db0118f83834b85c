import FlowDiscovery.Cursor

/-!
# Cursors read back

Encoding takes the padding off the base64 text, and decoding computes it again from the
length of the token. What is lost between the two is lost in JSON: a string in which a
low surrogate follows a high one comes back with the two joined, and a port of more than
4300 digits is not written.
-/
namespace FlowDiscovery.CursorRoundTrip
open PyText PyJson PyBase64 Cursor
open PyBytes (Bytes)

/-- The texts hold code points only, as every string of the language does. -/
structure Payload (Time : Type) extends CursorPayload Time where
  isStr_src : IsStr lastSrcIp
  isStr_dst : IsStr lastDstIp

section

variable {Time : Type} (py : Builtins Time)

/-- `json.dumps` on the fields of the payload. -/
def dumpsPayload (payload : CursorPayload Time) : Option PyStr := do
  let port ← dumpsInt payload.lastDstPort
  return dumpsObject
    [(keyTime, dumpsString (ofText (py.isoformat payload.lastTime))),
      (keySrcIp, dumpsString payload.lastSrcIp), (keyDstIp, dumpsString payload.lastDstIp),
      (keyDstPort, port)]

/-- `json.loads` is inverse to `json.dumps` on the fields of the payload. -/
def JsonInverse (payload : CursorPayload Time) : Prop :=
  ∃ raw, dumpsPayload py payload = some raw ∧
    loads py.float raw = some (.obj (fieldsOf py payload))

def RoundTrips (payload : CursorPayload Time) : Prop :=
  ∃ token, encodeCursor py payload = some token ∧ decodeCursor py token = .ok payload

lemma encodeCursor_eq (payload : CursorPayload Time) :
    encodeCursor py payload =
      (dumpsPayload py payload).map fun raw => unpad (urlsafeB64encode (encodeAscii raw)) := by
  unfold encodeCursor dumpsPayload
  cases dumpsInt payload.lastDstPort <;> rfl

theorem urlsafeB64decode_pad_unpad (b : Bytes) :
    urlsafeB64decode (pad (unpad (urlsafeB64encode b))) = some b := by
  rw [pad_unpad_encode, urlsafeB64decode_encode]

lemma dumpsPayload_ascii (payload : Payload Time) {raw : PyStr}
    (h : dumpsPayload py payload.toCursorPayload = some raw) : ∀ x ∈ raw, 0 < x ∧ x < 0x80 := by
  obtain ⟨port, hport, hraw⟩ := Option.bind_eq_some_iff.mp h
  obtain rfl := Option.some.inj hraw
  exact document_ascii py hport payload.isStr_src payload.isStr_dst

theorem roundTrips_of_jsonInverse (payload : Payload Time)
    (h : JsonInverse py payload.toCursorPayload) : RoundTrips py payload.toCursorPayload := by
  obtain ⟨raw, hdumps, hloads⟩ := h
  refine ⟨unpad (urlsafeB64encode (encodeAscii raw)), ?_, ?_⟩
  · rw [encodeCursor_eq, hdumps, Option.map_some]
  · have hascii := dumpsPayload_ascii py payload hdumps
    rw [decodeCursor, urlsafeB64decode_pad_unpad, Option.bind_some,
      loadsBytes_encodeAscii py.float hascii, hloads]
    exact payloadOf_fieldsOf py payload.toCursorPayload

/-- Base64 without padding is inverse on all bytes, and where JSON and the timestamps are
inverse, so are the cursors. -/
theorem cursors_round_trip :
    (∀ b : Bytes, urlsafeB64decode (pad (unpad (urlsafeB64encode b))) = some b) ∧
      ∀ payload : Payload Time, JsonInverse py payload.toCursorPayload →
        RoundTrips py payload.toCursorPayload :=
  ⟨urlsafeB64decode_pad_unpad, roundTrips_of_jsonInverse py⟩

/-! ## Where JSON is inverse -/

lemma fieldsOf_inj {p q : CursorPayload Time} (h : fieldsOf py p = fieldsOf py q) : p = q := by
  have hread := payloadOf_fieldsOf py p
  rw [h, payloadOf_fieldsOf] at hread
  exact (Except.ok.inj hread).symm

lemma joined_eq_self_iff (payload : CursorPayload Time) :
    joined payload = payload ↔ Unpaired payload.lastSrcIp ∧ Unpaired payload.lastDstIp := by
  obtain ⟨time, src, dst, port⟩ := payload
  simp only [joined, CursorPayload.mk.injEq, true_and, and_true, joinSurrogates_eq_self_iff]

lemma exists_dumpsInt_iff (n : ℤ) :
    (∃ text, dumpsInt n = some text) ↔ (natText n.natAbs).length ≤ intMaxStrDigits := by
  unfold dumpsInt str?
  by_cases hlong : intMaxStrDigits < (natText n.natAbs).length
  · simp [hlong]
  · simp [hlong, Nat.le_of_not_lt hlong]

theorem jsonInverse_iff (payload : Payload Time) :
    JsonInverse py payload.toCursorPayload ↔
      (natText payload.lastDstPort.natAbs).length ≤ intMaxStrDigits ∧
        Unpaired payload.lastSrcIp ∧ Unpaired payload.lastDstIp := by
  rw [← exists_dumpsInt_iff, ← joined_eq_self_iff]
  constructor
  · rintro ⟨raw, hdumps, hloads⟩
    obtain ⟨port, hport, hraw⟩ := Option.bind_eq_some_iff.mp hdumps
    obtain rfl := Option.some.inj hraw
    have hdocument := loads_document py hport payload.isStr_src payload.isStr_dst
    have hsame := hloads.symm.trans hdocument
    simp only [Option.some.injEq, Json.obj.injEq] at hsame
    exact ⟨⟨port, hport⟩, (fieldsOf_inj py hsame).symm⟩
  · rintro ⟨⟨port, hport⟩, hjoined⟩
    have hdocument := loads_document py hport payload.isStr_src payload.isStr_dst
    rw [hjoined] at hdocument
    refine ⟨_, ?_, hdocument⟩
    rw [dumpsPayload, hport]
    rfl

/-- The cursors add no loss to that of JSON. -/
theorem roundTrips_iff_jsonInverse (payload : Payload Time) :
    RoundTrips py payload.toCursorPayload ↔ JsonInverse py payload.toCursorPayload := by
  constructor
  · rintro ⟨token, hencode, hdecode⟩
    have hjoined := decodeCursor_joined py hencode payload.isStr_src payload.isStr_dst
    rw [hdecode] at hjoined
    obtain ⟨port, hport, -⟩ := Option.bind_eq_some_iff.mp hencode
    rw [jsonInverse_iff, ← exists_dumpsInt_iff, ← joined_eq_self_iff]
    exact ⟨⟨port, hport⟩, (Except.ok.inj hjoined).symm⟩
  · exact roundTrips_of_jsonInverse py payload

end

/-! ## An aware and a naive timestamp -/

/-- The time of the same clock with an offset or without one. -/
def awareAndNaive : Builtins Bool where
  isoformat aware :=
    if aware then "2026-04-22T14:12:05.000001+02:00".toList else "2026-04-22T14:12:05.000001".toList
  fromisoformat s :=
    if s = ofString "2026-04-22T14:12:05.000001+02:00" then some true
    else if s = ofString "2026-04-22T14:12:05.000001" then some false
    else none
  float := id
  intOfFloat _ := .error .conversion
  str _ := []
  fromisoformat_isoformat := by decide +kernel

/-- Strings with a quote, a letter beyond ASCII, a lone surrogate and a character beyond the
basic plane. -/
def oddPayload (aware : Bool) : Payload Bool where
  lastTime := aware
  lastSrcIp := [0x22, 0xE9, 0xD800, 0x1F600]
  lastDstIp := []
  lastDstPort := -443
  isStr_src := by
    unfold IsStr
    decide
  isStr_dst := by
    unfold IsStr
    decide

lemma oddPayload_jsonInverse (aware : Bool) :
    JsonInverse awareAndNaive (oddPayload aware).toCursorPayload := by
  have hport : (natText 443).length ≤ intMaxStrDigits := by decide +kernel
  have hsrc : Unpaired [0x22, 0xE9, 0xD800, 0x1F600] := by
    unfold Unpaired
    decide
  rw [jsonInverse_iff]
  exact ⟨hport, hsrc, .nil⟩

theorem cursors_round_trip_odd :
    RoundTrips awareAndNaive (oddPayload true).toCursorPayload ∧
      RoundTrips awareAndNaive (oddPayload false).toCursorPayload :=
  ⟨(cursors_round_trip awareAndNaive).2 (oddPayload true) (oddPayload_jsonInverse true),
    (cursors_round_trip awareAndNaive).2 (oddPayload false) (oddPayload_jsonInverse false)⟩

end FlowDiscovery.CursorRoundTrip
