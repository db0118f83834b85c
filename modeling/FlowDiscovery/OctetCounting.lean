import FlowDiscovery.SyslogReceiver

/-!
# Octet-counted syslog

A sender writes the length of a message in decimal, a blank and the message. The
first octet of such a frame is a digit and its first blank is the one behind the
length, so the receiver finds the frame whatever the message looks like, and goes
on reading behind it.
-/
namespace FlowDiscovery.SyslogReceiver
open PyText PyBytes FlowIngest

/-- Largest length of a byte string, `sys.maxsize`. -/
def maxsize : ℕ := 2 ^ 63 - 1

/-- A message as a sender holds it. Any octets may occur in it. -/
structure SentMessage where
  bytes : Bytes
  fits : bytes.length ≤ maxsize

namespace SentMessage

/-- `str(len(m)).encode()`. -/
def count (m : SentMessage) : Bytes := (natText m.bytes.length).map fun c => c.toNat.toUInt8

/-- `str(len(m)).encode() + b" " + m`. -/
def encode (m : SentMessage) : Bytes := m.count ++ 0x20 :: m.bytes

lemma isDigit_toNat {c : Char} (h : c.isDigit) : 0x30 ≤ c.toNat ∧ c.toNat ≤ 0x39 := by
  simp only [Char.isDigit, Bool.and_eq_true, decide_eq_true_eq, ge_iff_le,
    UInt32.le_iff_toNat_le] at h
  exact h

/-- One octet per digit, with the digit's own code. -/
lemma toNat_octet {c : Char} (h : c.isDigit) : c.toNat.toUInt8.toNat = c.toNat := by
  have hrange := isDigit_toNat h
  change c.toNat % 2 ^ 8 = c.toNat
  omega

lemma isDigit_of_mem_count {m : SentMessage} {b : UInt8} (h : b ∈ m.count) : isDigit b := by
  obtain ⟨c, hc, rfl⟩ := List.mem_map.mp h
  have hdigit := isDigit_of_mem_natText hc
  have hrange := isDigit_toNat hdigit
  simp only [isDigit, toNat_octet hdigit, Bool.and_eq_true, decide_eq_true_eq]
  omega

lemma startsWithDigit_count (m : SentMessage) : startsWithDigit m.count := by
  have hne : m.count ≠ [] := fun h => natText_ne_nil _ (List.map_eq_nil_iff.mp h)
  obtain ⟨b, bs, hb⟩ := List.exists_cons_of_ne_nil hne
  have hdigit : isDigit b := isDigit_of_mem_count (m := m) (hb ▸ List.mem_cons_self)
  simp [startsWithDigit, hb, hdigit]

lemma blank_notMem_count (m : SentMessage) : 0x20 ∉ m.count := fun h =>
  absurd (isDigit_of_mem_count h) (by decide)

/-- Reading the octets of the length gives its digits back. -/
lemma map_count (m : SentMessage) :
    (m.count.map fun b => Char.ofNat b.toNat) = natText m.bytes.length := by
  have hback : ∀ c ∈ natText m.bytes.length, Char.ofNat c.toNat.toUInt8.toNat = c := by
    intro c hc
    rw [toNat_octet (isDigit_of_mem_natText hc), Char.ofNat_toNat]
  rw [count, List.map_map, List.map_congr_left (f := _ ∘ _) (g := id) hback, List.map_id]

lemma intBytes?_count (m : SentMessage) : intBytes? m.count = some (m.bytes.length : ℤ) := by
  have hascii : m.count.all fun b => b.toNat < 0x80 := by
    rw [List.all_eq_true]
    intro b hb
    have hdigit := isDigit_of_mem_count hb
    simp only [isDigit, Bool.and_eq_true, decide_eq_true_eq] at hdigit ⊢
    omega
  have hshort : ¬ intMaxStrDigits < (natText m.bytes.length).length := by
    apply length_natText_of_lt
    have hfits := m.fits
    rw [maxsize] at hfits
    omega
  rw [intBytes?, if_pos hascii, m.map_count, int?_natText, if_neg hshort]

/-- An encoded message is one frame, whatever follows it. -/
lemma frame (m : SentMessage) (peer : String) (rest : Bytes) :
    Frame peer (m.encode ++ rest) [message peer m.bytes] rest := by
  have hframe : Frame peer _ _ _ :=
    .octets m.count m.bytes rest m.startsWithDigit_count m.blank_notMem_count m.intBytes?_count
  rwa [← List.cons_append, ← List.append_assoc] at hframe

end SentMessage

lemma drainBuffer_encode (peer : String) (msgs : List SentMessage) :
    drainBuffer peer (msgs.flatMap SentMessage.encode) =
      (msgs.map fun m => message peer m.bytes, []) := by
  induction msgs with
  | nil => exact (framer peer).drain_nil
  | cons m rest ih =>
    have hnext : (framer peer).next (m.encode ++ rest.flatMap SentMessage.encode) =
        some ([message peer m.bytes], rest.flatMap SentMessage.encode) :=
      nextFrame_of_frame (m.frame peer _)
    rw [drainBuffer] at ih ⊢
    rw [List.flatMap_cons, (framer peer).drain_of_some hnext, ih]
    rfl

/-- Octet-counted messages, sent in any chunks, are enqueued exactly and in order,
and nothing stays in the buffer. -/
theorem octetCounting_roundTrip (peer : String) (msgs : List SentMessage) (chunks : List Bytes)
    (hne : ∀ c ∈ chunks, c ≠ []) (hs : chunks.flatten = msgs.flatMap SentMessage.encode) :
    handleTcpClient peer [] chunks = (msgs.map fun m => message peer m.bytes, []) := by
  rw [handleTcpClient_flatten peer chunks hne, hs, drainBuffer_encode]

/-- A message that looks like a frame followed by a line. -/
def nestedMessage : SentMessage where
  bytes := ofString "3 ab\n<14>x\n"
  fits := by decide

def emptyMessage : SentMessage where
  bytes := []
  fits := by decide

/-- Cut inside the length, inside the message and behind the blank. -/
theorem octetCounting_roundTrip_nested :
    handleTcpClient "10.10.0.11" [] [ofString "1", ofString "1 3 ab\n<1", ofString "4>x\n0 "] =
      ([nestedMessage, emptyMessage].map (fun m => message "10.10.0.11" m.bytes), []) := by
  apply octetCounting_roundTrip "10.10.0.11" [nestedMessage, emptyMessage]
  · decide
  · decide

end FlowDiscovery.SyslogReceiver
