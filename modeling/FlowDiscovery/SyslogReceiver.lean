import FlowDiscovery.FlowIngest
import FlowDiscovery.Framing
import FlowDiscovery.PyBytes

/-!
# Syslog over TCP

A connection is read in chunks. After each chunk the buffer is drained: a buffer
that starts with an ASCII digit is taken to be octet-counted, any other one to be
a line. `Frame` says what a complete frame is, and the loop body finds exactly
these. The choice of the framing looks at the first octet only, so a line that
starts with a digit is never delivered as a line.
-/
namespace FlowDiscovery.SyslogReceiver
open PyText PyBytes FlowIngest

/-- `buf[:1].isdigit()`. -/
def startsWithDigit (buf : Bytes) : Bool := buf.head?.any isDigit

/-- A decoded message of the peer, as `_enqueue` gets it. -/
def message (peer : String) (body : Bytes) : Message := (peer, String.ofList (decodeReplace body))

/-- One pass through the loop of `_drain_buffer`. `none` means that the buffer is
returned as it is. -/
def nextFrame (peer : String) (buf : Bytes) : Option (List Message × Bytes) :=
  if buf = [] then none
  else if startsWithDigit buf then
    match find 0x20 buf with
    | none => none
    | some sp =>
      -- a prefix that is not a number counts as length -1
      let length := (intBytes? (buf.take sp)).getD (-1)
      if 0 ≤ length ∧ sp + 1 + length ≤ buf.length then
        let body := (buf.drop (sp + 1)).take length.toNat
        some ([message peer body], buf.drop (sp + 1 + length.toNat))
      else none
  else
    match find 0x0A buf with
    | none => none
    | some nl =>
      let line := rstrip 0x0D (buf.take nl)
      some (if line = [] then [] else [message peer line], buf.drop (nl + 1))

/-! ## Complete frames -/

/-- A complete frame at the front of a buffer, its messages and what follows it. -/
inductive Frame (peer : String) : Bytes → List Message → Bytes → Prop where
  | octets (count body rest : Bytes) (hdigit : startsWithDigit count) (hblank : 0x20 ∉ count)
      (hlength : intBytes? count = some (body.length : ℤ)) :
      Frame peer (count ++ 0x20 :: (body ++ rest)) [message peer body] rest
  | line (raw rest : Bytes) (hdigit : ¬ startsWithDigit raw) (hnewline : 0x0A ∉ raw) :
      Frame peer (raw ++ 0x0A :: rest)
        (if rstrip 0x0D raw = [] then [] else [message peer (rstrip 0x0D raw)]) rest

lemma startsWithDigit_append {front : Bytes} (c : UInt8) (back : Bytes) (hc : isDigit c = false) :
    startsWithDigit (front ++ c :: back) = startsWithDigit front := by
  cases front with
  | nil => simp [startsWithDigit, hc]
  | cons b bs => rfl

theorem nextFrame_of_frame {peer : String} {buf rest : Bytes} {out : List Message}
    (h : Frame peer buf out rest) : nextFrame peer buf = some (out, rest) := by
  cases h with
  | octets count body rest hdigit hblank hlength =>
    have hfind : find 0x20 (count ++ 0x20 :: (body ++ rest)) = some count.length :=
      (find_eq_some_iff _ _ _).mpr ⟨count, _, rfl, hblank, rfl⟩
    have hstart : startsWithDigit (count ++ 0x20 :: (body ++ rest)) := by
      rwa [startsWithDigit_append 0x20 _ rfl]
    have hdrop : (count ++ 0x20 :: (body ++ rest)).drop (count.length + 1) = body ++ rest := by
      simp
    have hrest : (count ++ 0x20 :: (body ++ rest)).drop (count.length + 1 + body.length) =
        rest := by
      rw [← List.drop_drop, hdrop, List.drop_left]
    have hfits : (0 : ℤ) ≤ body.length ∧ (count.length + 1 + (body.length : ℤ)) ≤
        (count ++ 0x20 :: (body ++ rest)).length := by
      simp only [List.length_append, List.length_cons]
      omega
    simp only [nextFrame, hstart, hfind, List.take_left, hlength, Option.getD_some, hdrop,
      Int.toNat_natCast, hrest]
    rw [if_neg (by simp), if_pos trivial, if_pos hfits]
  | line raw rest hdigit hnewline =>
    have hfind : find 0x0A (raw ++ 0x0A :: rest) = some raw.length :=
      (find_eq_some_iff _ _ _).mpr ⟨raw, rest, rfl, hnewline, rfl⟩
    have hstart : startsWithDigit (raw ++ 0x0A :: rest) = false := by
      rw [startsWithDigit_append 0x0A _ rfl]
      exact eq_false_of_ne_true hdigit
    simp [nextFrame, hstart, hfind]

theorem frame_of_nextFrame {peer : String} {buf rest : Bytes} {out : List Message}
    (h : nextFrame peer buf = some (out, rest)) : Frame peer buf out rest := by
  unfold nextFrame at h
  split_ifs at h with hnil hdigit
  · cases hfind : find 0x20 buf with
    | none => simp [hfind] at h
    | some sp =>
      obtain ⟨count, back, rfl, hblank, rfl⟩ := (find_eq_some_iff _ _ _).mp hfind
      simp only [hfind, List.take_left] at h
      split_ifs at h with hfits
      rw [startsWithDigit_append 0x20 _ rfl] at hdigit
      cases hlength : intBytes? count with
      | none => simp [hlength] at hfits
      | some n =>
        simp only [hlength, Option.getD_some] at h hfits
        obtain ⟨k, rfl⟩ := Int.eq_ofNat_of_zero_le hfits.1
        have hk : k ≤ back.length := by
          have := hfits.2
          simp only [List.length_append, List.length_cons] at this
          omega
        have hdrop : (count ++ 0x20 :: back).drop (count.length + 1) = back := by simp
        simp only [Int.toNat_natCast, ← List.drop_drop, hdrop, Option.some.injEq,
          Prod.mk.injEq] at h
        obtain ⟨rfl, rfl⟩ := h
        have hbody : intBytes? count = some ((back.take k).length : ℤ) := by
          rw [hlength, List.length_take_of_le hk]
        have hframe : Frame peer _ _ _ :=
          .octets count (back.take k) (back.drop k) hdigit hblank hbody
        rwa [List.take_append_drop] at hframe
  · cases hfind : find 0x0A buf with
    | none => simp [hfind] at h
    | some nl =>
      obtain ⟨raw, back, rfl, hnewline, rfl⟩ := (find_eq_some_iff _ _ _).mp hfind
      rw [startsWithDigit_append 0x0A _ rfl] at hdigit
      have hdrop : (raw ++ 0x0A :: back).drop (raw.length + 1) = back := by simp
      simp only [hfind, List.take_left, hdrop, Option.some.injEq, Prod.mk.injEq] at h
      obtain ⟨rfl, rfl⟩ := h
      exact Frame.line raw back hdigit hnewline

theorem nextFrame_eq_some_iff (peer : String) (buf rest : Bytes) (out : List Message) :
    nextFrame peer buf = some (out, rest) ↔ Frame peer buf out rest :=
  ⟨frame_of_nextFrame, nextFrame_of_frame⟩

theorem Frame.append {peer : String} {buf rest : Bytes} {out : List Message}
    (h : Frame peer buf out rest) (more : Bytes) : Frame peer (buf ++ more) out (rest ++ more) := by
  cases h with
  | octets count body rest hdigit hblank hlength =>
    have hframe : Frame peer _ _ _ := .octets count body (rest ++ more) hdigit hblank hlength
    simpa using hframe
  | line raw rest hdigit hnewline =>
    have hframe : Frame peer _ _ _ := .line raw (rest ++ more) hdigit hnewline
    simpa using hframe

theorem Frame.length_lt {peer : String} {buf rest : Bytes} {out : List Message}
    (h : Frame peer buf out rest) : rest.length < buf.length := by
  cases h with
  | octets count body rest =>
    simp only [List.length_append, List.length_cons]
    omega
  | line raw rest =>
    simp only [List.length_append, List.length_cons]
    omega

/-- The loop of `_drain_buffer`. -/
def framer (peer : String) : Framer UInt8 Message where
  next := nextFrame peer
  shrinks h := (frame_of_nextFrame h).length_lt
  stable more h := nextFrame_of_frame ((frame_of_nextFrame h).append more)

/-- The messages enqueued, in order, and the buffer returned. -/
def drainBuffer (peer : String) (buf : Bytes) : List Message × Bytes := (framer peer).drain buf

/-- `_handle_tcp_client` on the results of its reads. An empty read is the end of
the connection. -/
def handleTcpClient (peer : String) : Bytes → List Bytes → List Message × Bytes
  | buf, [] => ([], buf)
  | buf, chunk :: reads =>
    if chunk = [] then ([], buf)
    else
      let drained := drainBuffer peer (buf ++ chunk)
      let rest := handleTcpClient peer drained.2 reads
      (drained.1 ++ rest.1, rest.2)

/-! ## Independence of the chunk boundaries -/

lemma handleTcpClient_eq_foldl (peer : String) (chunks : List Bytes) (h : ∀ c ∈ chunks, c ≠ [])
    (out : List Message) (buf : Bytes) :
    chunks.foldl (framer peer).feed (out, buf) =
      (out ++ (handleTcpClient peer buf chunks).1, (handleTcpClient peer buf chunks).2) := by
  induction chunks generalizing out buf with
  | nil => simp [handleTcpClient]
  | cons chunk reads ih =>
    have hchunk : chunk ≠ [] := h chunk List.mem_cons_self
    have hreads : ∀ c ∈ reads, c ≠ [] := fun c hc => h c (List.mem_cons_of_mem _ hc)
    rw [List.foldl_cons, Framer.feed, ih hreads]
    simp only [handleTcpClient, hchunk, if_false, drainBuffer, List.append_assoc]

lemma handleTcpClient_flatten (peer : String) (chunks : List Bytes) (h : ∀ c ∈ chunks, c ≠ []) :
    handleTcpClient peer [] chunks = drainBuffer peer chunks.flatten := by
  have hfold := handleTcpClient_eq_foldl peer chunks h [] []
  rw [(framer peer).foldl_feed] at hfold
  exact hfold.symm

/-- Reading a byte string in any chunks enqueues the same messages and leaves the
same buffer as draining it at once. -/
theorem handleTcpClient_eq_drainBuffer (peer : String) (s : Bytes) (chunks : List Bytes)
    (hne : ∀ c ∈ chunks, c ≠ []) (hs : chunks.flatten = s) :
    handleTcpClient peer [] chunks = drainBuffer peer s := by
  rw [← hs]
  exact handleTcpClient_flatten peer chunks hne

/-- An octet-counted message, a line, an empty line and a malformed length, cut
inside the length, inside the body and inside the line. -/
theorem handleTcpClient_eq_drainBuffer_mixed :
    handleTcpClient "10.10.0.11" [] [ofString "1", ofString "0 ab\nc 12", ofString "345<1",
        ofString "4>x\r\n\n7x y"] =
      drainBuffer "10.10.0.11" (ofString "10 ab\nc 12345<14>x\r\n\n7x y") ∧
    drainBuffer "10.10.0.11" (ofString "10 ab\nc 12345<14>x\r\n\n7x y") =
      ([("10.10.0.11", "ab\nc 12345"), ("10.10.0.11", "<14>x")], ofString "7x y") :=
  ⟨handleTcpClient_eq_drainBuffer _ _ _ (by decide) (by decide), by decide⟩

/-! ## Lines -/

/-- A line as a sender writes it: its octets and whether it ends in CR LF. -/
structure SentLine where
  bytes : Bytes
  crlf : Bool
  nonempty : bytes ≠ []
  no_newline : 0x0A ∉ bytes
  no_cr : bytes.getLast? ≠ some 0x0D

namespace SentLine

/-- The octets before the newline. -/
def raw (l : SentLine) : Bytes := l.bytes ++ if l.crlf then [0x0D] else []

end SentLine

/-- What is sent for a list of lines. -/
def stream (lines : List SentLine) : Bytes := lines.flatMap fun l => l.raw ++ [0x0A]

namespace SentLine

lemma rstrip_raw (l : SentLine) : rstrip 0x0D l.raw = l.bytes := by
  have hbytes : rstrip 0x0D l.bytes = l.bytes := by
    rw [rstrip, List.rdropWhile_eq_self_iff]
    intro hne
    have hlast := l.no_cr
    rw [List.getLast?_eq_some_getLast hne] at hlast
    simpa using hlast
  rw [raw]
  cases l.crlf with
  | false => simpa using hbytes
  | true =>
    rw [rstrip] at hbytes ⊢
    rw [if_pos rfl, List.rdropWhile_concat_pos _ _ _ (by simp), hbytes]

lemma startsWithDigit_raw (l : SentLine) (more : Bytes) :
    startsWithDigit (l.raw ++ more) = startsWithDigit l.bytes := by
  obtain ⟨b, bs, hb⟩ := List.exists_cons_of_ne_nil l.nonempty
  simp [raw, startsWithDigit, hb]

/-- A line that does not start with a digit is a frame of its own. -/
lemma frame (l : SentLine) (h : startsWithDigit l.bytes = false) (peer : String) (rest : Bytes) :
    Frame peer (l.raw ++ 0x0A :: rest) [message peer l.bytes] rest := by
  have hdigit : ¬ startsWithDigit l.raw := by
    have := l.startsWithDigit_raw []
    rw [List.append_nil] at this
    simp [this, h]
  have hnewline : 0x0A ∉ l.raw := by
    have := l.no_newline
    cases hc : l.crlf <;> simp [raw, hc, this]
  have hframe : Frame peer _ _ rest := .line l.raw rest hdigit hnewline
  rwa [l.rstrip_raw, if_neg l.nonempty] at hframe

end SentLine

lemma stream_cons (l : SentLine) (lines : List SentLine) :
    stream (l :: lines) = l.raw ++ 0x0A :: stream lines := by
  simp [stream]

/-! ## Blanks lost by octet counting -/

/-- Blanks in the messages. -/
def blanks (out : List Message) : ℕ := (out.map fun m => m.2.toList.count ' ').sum

lemma blanks_append (out out' : List Message) : blanks (out ++ out') = blanks out + blanks out' := by
  simp [blanks]

lemma blanks_message (peer : String) (body : Bytes) :
    blanks [message peer body] = body.count 0x20 := by
  simp [blanks, message, decodeReplace_count]

/-- No frame adds a blank, and an octet-counted one drops the blank behind its
length. -/
lemma Frame.blanks_le {peer : String} {buf rest : Bytes} {out : List Message}
    (h : Frame peer buf out rest) :
    blanks out + rest.count 0x20 + (if startsWithDigit buf then 1 else 0) ≤ buf.count 0x20 := by
  cases h with
  | octets count body rest hdigit hblank hlength =>
    rw [startsWithDigit_append 0x20 _ rfl, if_pos hdigit, blanks_message]
    simp only [List.count_append, List.count_cons_self]
    omega
  | line raw rest hdigit hnewline =>
    rw [startsWithDigit_append 0x0A _ rfl, if_neg hdigit]
    have hstrip : (rstrip 0x0D raw).count 0x20 ≤ raw.count 0x20 :=
      (List.rdropWhile_prefix _ raw).sublist.count_le _
    have hrest : (raw ++ 0x0A :: rest).count 0x20 = raw.count 0x20 + rest.count 0x20 := by
      simp [List.count_append]
    rw [hrest]
    split_ifs
    · simp [blanks]
    · rw [blanks_message]
      omega

lemma drain_blanks_le (peer : String) (buf : Bytes) :
    blanks (drainBuffer peer buf).1 + (drainBuffer peer buf).2.count 0x20 ≤ buf.count 0x20 := by
  unfold drainBuffer
  induction buf using (framer peer).drain_induction with
  | wait buf h =>
    rw [(framer peer).drain_of_none h]
    simp [blanks]
  | frame buf out rest h ih =>
    have hle := (frame_of_nextFrame h).blanks_le
    rw [(framer peer).drain_of_some h]
    dsimp only
    rw [blanks_append]
    omega

lemma blanks_lines (peer : String) (lines : List SentLine) :
    blanks (lines.map fun l => message peer l.bytes) = (stream lines).count 0x20 := by
  induction lines with
  | nil => rfl
  | cons l rest ih =>
    have hraw : l.raw.count 0x20 = l.bytes.count 0x20 := by
      cases hc : l.crlf <;> simp [SentLine.raw, hc]
    have hcons : (l :: rest).map (fun l => message peer l.bytes) =
        [message peer l.bytes] ++ rest.map fun l => message peer l.bytes := rfl
    rw [hcons, blanks_append, blanks_message, ih, stream_cons]
    simp [List.count_append, hraw]

/-- A stream that starts with a digit loses a blank or is not used up. -/
lemma drainBuffer_ne_of_digit (peer : String) (l : SentLine) (lines : List SentLine)
    (h : startsWithDigit l.bytes) :
    drainBuffer peer (stream (l :: lines)) ≠
      ((l :: lines).map (fun l => message peer l.bytes), []) := by
  intro hdrain
  have hstart : startsWithDigit (stream (l :: lines)) := by
    rw [stream_cons, l.startsWithDigit_raw, h]
  have hblanks := blanks_lines peer (l :: lines)
  cases hn : (framer peer).next (stream (l :: lines)) with
  | none =>
    rw [drainBuffer, (framer peer).drain_of_none hn] at hdrain
    have hempty := congrArg Prod.snd hdrain
    rw [stream_cons] at hempty
    simp at hempty
  | some p =>
    obtain ⟨out, rest⟩ := p
    have hle := (frame_of_nextFrame hn).blanks_le
    have hrest := drain_blanks_le peer rest
    rw [if_pos hstart] at hle
    rw [drainBuffer, (framer peer).drain_of_some hn] at hdrain
    obtain ⟨hout, hleft⟩ := Prod.mk.inj hdrain
    rw [← hout, blanks_append] at hblanks
    simp only [drainBuffer] at hrest
    omega

lemma drainBuffer_stream_iff (peer : String) (lines : List SentLine) :
    drainBuffer peer (stream lines) = (lines.map (fun l => message peer l.bytes), []) ↔
      ∀ l ∈ lines, startsWithDigit l.bytes = false := by
  induction lines with
  | nil => simp [stream, drainBuffer]
  | cons l rest ih =>
    cases hl : startsWithDigit l.bytes with
    | true =>
      refine iff_of_false (drainBuffer_ne_of_digit peer l rest hl) fun hall => ?_
      have := hall l List.mem_cons_self
      rw [hl] at this
      cases this
    | false =>
      have hnext : (framer peer).next (stream (l :: rest)) =
          some ([message peer l.bytes], stream rest) := by
        rw [stream_cons]
        exact nextFrame_of_frame (l.frame hl peer (stream rest))
      rw [List.forall_mem_cons, ← ih, drainBuffer, (framer peer).drain_of_some hnext]
      simp [hl, drainBuffer, Prod.ext_iff]

/-- Lines sent over one connection are delivered exactly, in order and without a
rest if and only if none of them starts with an ASCII digit. -/
theorem newlineFraming_iff (peer : String) (lines : List SentLine) (chunks : List Bytes)
    (hne : ∀ c ∈ chunks, c ≠ []) (hs : chunks.flatten = stream lines) :
    handleTcpClient peer [] chunks = (lines.map (fun l => message peer l.bytes), []) ↔
      ∀ l ∈ lines, startsWithDigit l.bytes = false := by
  rw [handleTcpClient_flatten peer chunks hne, hs]
  exact drainBuffer_stream_iff peer lines

def fgtLine : SentLine where
  bytes := ofString "<189>date=2026-04-22 logid=13 status=close"
  crlf := true
  nonempty := by decide
  no_newline := by decide
  no_cr := by decide

theorem newlineFraming_iff_fgtLine :
    handleTcpClient "10.20.0.21" [] [stream [fgtLine]] =
      ([fgtLine].map (fun l => message "10.20.0.21" l.bytes), []) := by
  refine (newlineFraming_iff "10.20.0.21" [fgtLine] [stream [fgtLine]] ?_ ?_).mpr ?_
  · decide
  · simp
  · decide

/-- A PAN-OS traffic row as the log generator writes it. -/
def panLine : SentLine where
  bytes := ofString ("1,2026/04/22 14:12:00,001801000000,TRAFFIC,end,2560,2026/04/22 14:12:00," ++
    "10.0.0.3,52.97.1.7,,,allow-all,,,zoom,vsys1,trust,untrust,ae1,ae2,,,,,40000,443,,," ++
    "0x400000,tcp,allow,1200,10")
  crlf := false
  nonempty := by decide +kernel
  no_newline := by decide +kernel
  no_cr := by decide +kernel

/-- The row is not delivered, and no later line of the connection is. -/
theorem panLine_wedges_connection :
    handleTcpClient "10.10.0.11" [] [stream [panLine], stream [fgtLine]] =
        ([], stream [panLine, fgtLine]) ∧
      handleTcpClient "10.10.0.11" [] [stream [panLine], stream [fgtLine]] ≠
        ([panLine, fgtLine].map (fun l => message "10.10.0.11" l.bytes), []) := by
  have hstuck : handleTcpClient "10.10.0.11" [] [stream [panLine], stream [fgtLine]] =
      ([], stream [panLine, fgtLine]) := by
    decide +kernel
  refine ⟨hstuck, ?_⟩
  rw [hstuck]
  simp

end FlowDiscovery.SyslogReceiver
