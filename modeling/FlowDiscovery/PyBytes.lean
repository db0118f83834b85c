import FlowDiscovery.PyText
import Mathlib.Data.List.DropRight

/-!
# Byte strings of the implementation language

`bytes` are lists of octets. `decodeReplace` is `decode("utf-8", errors="replace")`:
a machine over the octets that emits U+FFFD once for every maximal part of a
sequence that cannot be completed. ASCII octets are never part of such a
sequence, so each of them comes out as its own character.
-/
namespace FlowDiscovery.PyBytes
open PyText

abbrev Bytes := List UInt8

def ofString (s : String) : Bytes := s.toList.map fun c => c.toNat.toUInt8

/-- `b.isdigit()` for one octet. -/
def isDigit (b : UInt8) : Bool := 0x30 ≤ b.toNat && b.toNat ≤ 0x39

/-- `int(b)` for a byte string: as for a text of ASCII characters. -/
def intBytes? (b : Bytes) : Option ℤ :=
  if b.all fun c => c.toNat < 0x80 then int? (b.map fun c => Char.ofNat c.toNat) else none

example : intBytes? (ofString "12\n") = some 12 := by decide

/-- `b.rstrip(bytes([c]))`. -/
def rstrip (c : UInt8) (b : Bytes) : Bytes := b.rdropWhile (· = c)

/-- `b.find(bytes([c]))`; `none` stands for -1. -/
def find (c : UInt8) (b : Bytes) : Option ℕ := b.findIdx? (· = c)

theorem find_eq_none_iff (c : UInt8) (b : Bytes) : find c b = none ↔ c ∉ b := by
  rw [find, List.findIdx?_eq_none_iff]
  constructor
  · intro h hc
    exact absurd (h c hc) (by simp)
  · intro h x hx
    exact decide_eq_false fun he => h (he ▸ hx)

theorem find_eq_some_iff (c : UInt8) (b : Bytes) (i : ℕ) :
    find c b = some i ↔ ∃ front back, b = front ++ c :: back ∧ c ∉ front ∧ front.length = i := by
  constructor
  · intro h
    obtain ⟨hi, hat, hbefore⟩ := List.findIdx?_eq_some_iff_getElem.mp h
    refine ⟨b.take i, b.drop (i + 1), ?_, ?_, List.length_take_of_le hi.le⟩
    · rw [← of_decide_eq_true hat, List.getElem_cons_drop, List.take_append_drop]
    · intro hc
      obtain ⟨j, hj, hjc⟩ := List.mem_take_iff_getElem.mp hc
      exact absurd hjc (by simpa using hbefore j (by omega))
  · rintro ⟨front, back, rfl, hnot, rfl⟩
    have hfront : find c front = none := (find_eq_none_iff c front).mpr hnot
    rw [find] at hfront ⊢
    simp [List.findIdx?_append, hfront, List.findIdx?_cons]

/-! ## UTF-8 with replacement -/

/-- Between characters, or inside one: continuation octets still owed, the range
of the next one and the bits read so far. -/
inductive Utf8State where
  | start
  | within (owed lo hi acc : ℕ)

def replacement : Char := Char.ofNat 0xFFFD

/-- First octet of a character: what it emits and where the machine is then. -/
def leadOctet (b : UInt8) : Text × Utf8State :=
  let n := b.toNat
  if n < 0x80 then ([Char.ofNat n], .start)
  else if n < 0xC2 then ([replacement], .start)
  else if n < 0xE0 then ([], .within 1 0x80 0xBF (n - 0xC0))
  else if n = 0xE0 then ([], .within 2 0xA0 0xBF 0)
  else if n = 0xED then ([], .within 2 0x80 0x9F 0xD)
  else if n < 0xF0 then ([], .within 2 0x80 0xBF (n - 0xE0))
  else if n = 0xF0 then ([], .within 3 0x90 0xBF 0)
  else if n < 0xF4 then ([], .within 3 0x80 0xBF (n - 0xF0))
  else if n = 0xF4 then ([], .within 3 0x80 0x8F 4)
  else ([replacement], .start)

/-- An octet outside the expected range ends the sequence before it and is read
again as a first octet. -/
def decodeOctet : Utf8State → UInt8 → Text × Utf8State
  | .start, b => leadOctet b
  | .within owed lo hi acc, b =>
    if lo ≤ b.toNat ∧ b.toNat ≤ hi then
      let acc' := acc * 64 + (b.toNat - 0x80)
      if owed ≤ 1 then ([Char.ofNat acc'], .start) else ([], .within (owed - 1) 0x80 0xBF acc')
    else (replacement :: (leadOctet b).1, (leadOctet b).2)

def decodeFrom : Utf8State → Bytes → Text
  | .start, [] => []
  | .within _ _ _ _, [] => [replacement]
  | q, b :: rest => (decodeOctet q b).1 ++ decodeFrom (decodeOctet q b).2 rest

def decodeReplace (b : Bytes) : Text := decodeFrom .start b

example : decodeReplace [0x61, 0xF0, 0x9F, 0x98, 0x80, 0xE2, 0x82, 0x62, 0xC3] =
    "a😀".toList ++ [replacement, 'b', replacement] := by decide

/-! ## Blanks come out one to one -/

/-- Whatever completes the sequence, it does not stand for an ASCII character. -/
def Utf8State.Wide : Utf8State → Prop
  | .start => True
  | .within owed lo _ acc =>
    1 ≤ owed ∧ 0x80 ≤ lo ∧ 0x80 ≤ acc * 64 ^ owed + (lo - 0x80) * 64 ^ (owed - 1)

lemma ofNat_eq_blank_iff (n : ℕ) : Char.ofNat n = ' ' ↔ n = 0x20 := by
  constructor
  · intro h
    by_cases hvalid : n.isValidChar
    · rw [Char.ofNat, dif_pos hvalid] at h
      exact congrArg Char.toNat h
    · rw [Char.ofNat, dif_neg hvalid] at h
      exact absurd h (by decide)
  · rintro rfl
    rfl

lemma leadOctet_wide (b : UInt8) : (leadOctet b).2.Wide := by
  unfold leadOctet
  dsimp only
  split_ifs <;> simp only [Utf8State.Wide] <;> omega

lemma toNat_eq_blank_iff (b : UInt8) : b.toNat = 0x20 ↔ b = 0x20 :=
  ⟨fun h => UInt8.toNat_inj.mp h, fun h => congrArg UInt8.toNat h⟩

lemma leadOctet_count (b : UInt8) : (leadOctet b).1.count ' ' = if b = 0x20 then 1 else 0 := by
  have hrep : replacement ≠ ' ' := by decide
  simp only [← toNat_eq_blank_iff]
  unfold leadOctet
  dsimp only
  split_ifs <;> simp_all [ofNat_eq_blank_iff]

lemma decodeOctet_wide {q : Utf8State} (hq : q.Wide) (b : UInt8) : (decodeOctet q b).2.Wide := by
  cases q with
  | start => exact leadOctet_wide b
  | within owed lo hi acc =>
    obtain ⟨howed, hlo, hwide⟩ := hq
    unfold decodeOctet
    dsimp only
    split_ifs with hrange hlast
    · trivial
    · obtain ⟨k, rfl⟩ : ∃ k, owed = k + 2 := ⟨owed - 2, by omega⟩
      have hpow : (lo - 0x80) * 64 ^ (k + 1) ≤ (b.toNat - 0x80) * 64 ^ (k + 1) :=
        Nat.mul_le_mul_right _ (by omega)
      refine ⟨by omega, le_rfl, ?_⟩
      calc 0x80 ≤ acc * 64 ^ (k + 2) + (lo - 0x80) * 64 ^ (k + 1) := hwide
        _ ≤ acc * 64 ^ (k + 2) + (b.toNat - 0x80) * 64 ^ (k + 1) := by omega
        _ = (acc * 64 + (b.toNat - 0x80)) * 64 ^ (k + 1) := by ring
        _ ≤ _ := Nat.le_add_right _ _
    · exact leadOctet_wide b

lemma decodeOctet_count {q : Utf8State} (hq : q.Wide) (b : UInt8) :
    (decodeOctet q b).1.count ' ' = if b = 0x20 then 1 else 0 := by
  cases q with
  | start => exact leadOctet_count b
  | within owed lo hi acc =>
    obtain ⟨howed, hlo, hwide⟩ := hq
    unfold decodeOctet
    dsimp only
    split_ifs with hrange hlast hb hb hb
    · rw [hb] at hrange
      exact absurd hrange.1 (by simp; omega)
    · obtain rfl : owed = 1 := by omega
      have hne : Char.ofNat (acc * 64 + (b.toNat - 0x80)) ≠ ' ' := by
        rw [ne_eq, ofNat_eq_blank_iff]
        simp only [pow_one, Nat.sub_self, pow_zero, mul_one] at hwide
        omega
      simp [hne]
    · rw [hb] at hrange
      exact absurd hrange.1 (by simp; omega)
    · rfl
    · have hrep : replacement ≠ ' ' := by decide
      rw [List.count_cons_of_ne hrep, leadOctet_count, if_pos hb]
    · have hrep : replacement ≠ ' ' := by decide
      rw [List.count_cons_of_ne hrep, leadOctet_count, if_neg hb]

lemma decodeFrom_count {q : Utf8State} (hq : q.Wide) (b : Bytes) :
    (decodeFrom q b).count ' ' = b.count 0x20 := by
  induction b generalizing q with
  | nil =>
    cases q with
    | start => rfl
    | within owed lo hi acc =>
      change [replacement].count ' ' = 0
      decide
  | cons c rest ih =>
    rw [decodeFrom, List.count_append, decodeOctet_count hq, ih (decodeOctet_wide hq c),
      List.count_cons]
    simp only [beq_iff_eq]
    omega

/-- Decoding keeps the number of blanks. -/
theorem decodeReplace_count (b : Bytes) : (decodeReplace b).count ' ' = b.count 0x20 :=
  decodeFrom_count (q := .start) trivial b

end FlowDiscovery.PyBytes
