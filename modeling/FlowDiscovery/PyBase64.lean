import FlowDiscovery.PyBytes

/-!
# URL-safe base64

`base64.urlsafe_b64encode` and `base64.urlsafe_b64decode`. The decoder is the
machine of the standard library in its lenient mode: characters outside the
alphabet are skipped, and complete padding ends the input. A raised
`binascii.Error` is `none`.
-/
namespace FlowDiscovery.PyBase64
open PyText PyBytes

def alphabet : Text := "ABCDEFGHIJKLMNOPQRSTUVWXYZabcdefghijklmnopqrstuvwxyz0123456789-_".toList

/-- The character of a six-bit value. -/
def digit (n : ℕ) : Char := alphabet.getD n 'A'

def urlsafeB64encode : Bytes → Text
  | [] => []
  | [a] => [digit (a.toNat / 4), digit (a.toNat % 4 * 16), '=', '=']
  | [a, b] =>
    [digit (a.toNat / 4), digit (a.toNat % 4 * 16 + b.toNat / 16), digit (b.toNat % 16 * 4), '=']
  | a :: b :: c :: rest =>
    digit (a.toNat / 4) :: digit (a.toNat % 4 * 16 + b.toNat / 16) ::
      digit (b.toNat % 16 * 4 + c.toNat / 64) :: digit (c.toNat % 64) :: urlsafeB64encode rest

/-- Value of a character; those of the ordinary alphabet are read as well. -/
def value? (c : Char) : Option ℕ :=
  if 'A' ≤ c ∧ c ≤ 'Z' then some (c.toNat - 'A'.toNat)
  else if 'a' ≤ c ∧ c ≤ 'z' then some (c.toNat - 'a'.toNat + 26)
  else if '0' ≤ c ∧ c ≤ '9' then some (c.toNat - '0'.toNat + 52)
  else if c = '-' ∨ c = '+' then some 62
  else if c = '_' ∨ c = '/' then some 63
  else none

/-- The decoder at a position of its quad, with the bits left over from the last
character and the padding seen since. -/
def decodeFrom (quadPos left pads : ℕ) : Text → Option Bytes
  | [] => if quadPos = 0 then some [] else none
  | c :: rest =>
    if c = '=' then
      if 2 ≤ quadPos then
        if 4 ≤ quadPos + (pads + 1) then some [] else decodeFrom quadPos left (pads + 1) rest
      else decodeFrom quadPos left pads rest
    else
      match value? c with
      | none => decodeFrom quadPos left pads rest
      | some v =>
        match quadPos with
        | 0 => decodeFrom 1 v 0 rest
        | 1 => (decodeFrom 2 (v % 16) 0 rest).map ((left * 4 + v / 16).toUInt8 :: ·)
        | 2 => (decodeFrom 3 (v % 4) 0 rest).map ((left * 16 + v / 4).toUInt8 :: ·)
        | _ => (decodeFrom 0 0 0 rest).map ((left * 64 + v).toUInt8 :: ·)

def urlsafeB64decode (s : Text) : Option Bytes := decodeFrom 0 0 0 s

example : urlsafeB64encode [0xFB, 0xEF] = "--8=".toList := by decide
example : urlsafeB64decode "-+ 8=".toList = some [0xFB, 0xEF] := by decide

/-! ## Decoding undoes encoding -/

lemma value?_digit {n : ℕ} (h : n < 64) : value? (digit n) = some n := by
  have hall : ∀ n < 64, value? (digit n) = some n := by decide +kernel
  exact hall n h

lemma digit_ne_pad {n : ℕ} (h : n < 64) : digit n ≠ '=' := by
  intro hpad
  have hvalue := value?_digit h
  rw [hpad] at hvalue
  cases hvalue

lemma decodeFrom_digit {n : ℕ} (h : n < 64) (quadPos left pads : ℕ) (rest : Text) :
    decodeFrom quadPos left pads (digit n :: rest) =
      match quadPos with
      | 0 => decodeFrom 1 n 0 rest
      | 1 => (decodeFrom 2 (n % 16) 0 rest).map ((left * 4 + n / 16).toUInt8 :: ·)
      | 2 => (decodeFrom 3 (n % 4) 0 rest).map ((left * 16 + n / 4).toUInt8 :: ·)
      | _ => (decodeFrom 0 0 0 rest).map ((left * 64 + n).toUInt8 :: ·) := by
  rw [decodeFrom, if_neg (digit_ne_pad h), value?_digit h]

lemma toUInt8_eq {n : ℕ} {a : UInt8} (h : n = a.toNat) : n.toUInt8 = a := by
  rw [h]
  exact UInt8.ofNat_toNat

theorem urlsafeB64decode_encode (b : Bytes) : urlsafeB64decode (urlsafeB64encode b) = some b := by
  unfold urlsafeB64decode
  induction b using urlsafeB64encode.induct with
  | case1 => rfl
  | case2 a =>
    have ha := a.toNat_lt
    rw [urlsafeB64encode, decodeFrom_digit (by omega)]
    simp only [decodeFrom_digit (show a.toNat % 4 * 16 < 64 by omega)]
    rw [decodeFrom, if_pos rfl, if_pos (by omega), if_neg (by omega), decodeFrom, if_pos rfl,
      if_pos (by omega), if_pos (by omega), Option.map_some]
    rw [toUInt8_eq (show a.toNat / 4 * 4 + a.toNat % 4 * 16 / 16 = a.toNat by omega)]
  | case3 a b =>
    have ha := a.toNat_lt
    have hb := b.toNat_lt
    rw [urlsafeB64encode, decodeFrom_digit (by omega)]
    simp only [decodeFrom_digit (show a.toNat % 4 * 16 + b.toNat / 16 < 64 by omega),
      decodeFrom_digit (show b.toNat % 16 * 4 < 64 by omega)]
    rw [decodeFrom, if_pos rfl, if_pos (by omega), if_pos (by omega), Option.map_some,
      Option.map_some]
    rw [toUInt8_eq (show a.toNat / 4 * 4 + (a.toNat % 4 * 16 + b.toNat / 16) / 16 = a.toNat by omega),
      toUInt8_eq (show (a.toNat % 4 * 16 + b.toNat / 16) % 16 * 16 + b.toNat % 16 * 4 / 4 = b.toNat by
        omega)]
  | case4 a b c rest ih =>
    have ha := a.toNat_lt
    have hb := b.toNat_lt
    have hc := c.toNat_lt
    rw [urlsafeB64encode, decodeFrom_digit (by omega)]
    simp only [decodeFrom_digit (show a.toNat % 4 * 16 + b.toNat / 16 < 64 by omega),
      decodeFrom_digit (show b.toNat % 16 * 4 + c.toNat / 64 < 64 by omega),
      decodeFrom_digit (show c.toNat % 64 < 64 by omega), ih, Option.map_some]
    rw [toUInt8_eq (show a.toNat / 4 * 4 + (a.toNat % 4 * 16 + b.toNat / 16) / 16 = a.toNat by omega),
      toUInt8_eq (show (a.toNat % 4 * 16 + b.toNat / 16) % 16 * 16 +
        (b.toNat % 16 * 4 + c.toNat / 64) / 4 = b.toNat by omega),
      toUInt8_eq (show (b.toNat % 16 * 4 + c.toNat / 64) % 4 * 64 + c.toNat % 64 = c.toNat by omega)]

/-! ## Without padding -/

/-- `s.rstrip("=")`. -/
def unpad (s : Text) : Text := s.rdropWhile (· = '=')

/-- `s + "=" * (-len(s) % 4)`. -/
def pad (s : Text) : Text := s ++ List.replicate (-(s.length : ℤ) % 4).toNat '='

/-- The encoding is a body without padding characters and at most two of them, and
its length is a multiple of four. -/
lemma encode_body (b : Bytes) :
    ∃ body k, urlsafeB64encode b = body ++ List.replicate k '=' ∧ '=' ∉ body ∧ k ≤ 2 ∧
      (body.length + k) % 4 = 0 := by
  induction b using urlsafeB64encode.induct with
  | case1 => exact ⟨[], 0, rfl, by simp, by omega, rfl⟩
  | case2 a =>
    have ha := a.toNat_lt
    refine ⟨[digit (a.toNat / 4), digit (a.toNat % 4 * 16)], 2, rfl, ?_, by omega, by simp⟩
    simp only [List.mem_cons, List.not_mem_nil, or_false, not_or]
    exact ⟨(digit_ne_pad (by omega)).symm, (digit_ne_pad (by omega)).symm⟩
  | case3 a b =>
    have ha := a.toNat_lt
    have hb := b.toNat_lt
    refine ⟨[digit (a.toNat / 4), digit (a.toNat % 4 * 16 + b.toNat / 16),
      digit (b.toNat % 16 * 4)], 1, rfl, ?_, by omega, by simp⟩
    simp only [List.mem_cons, List.not_mem_nil, or_false, not_or]
    exact ⟨(digit_ne_pad (by omega)).symm, (digit_ne_pad (by omega)).symm,
      (digit_ne_pad (by omega)).symm⟩
  | case4 a b c rest ih =>
    have ha := a.toNat_lt
    have hb := b.toNat_lt
    have hc := c.toNat_lt
    obtain ⟨body, k, heq, hnot, hk, hlen⟩ := ih
    refine ⟨digit (a.toNat / 4) :: digit (a.toNat % 4 * 16 + b.toNat / 16) ::
      digit (b.toNat % 16 * 4 + c.toNat / 64) :: digit (c.toNat % 64) :: body, k, ?_, ?_, hk, ?_⟩
    · rw [urlsafeB64encode, heq]
      rfl
    · simp only [List.mem_cons, not_or]
      exact ⟨(digit_ne_pad (by omega)).symm, (digit_ne_pad (by omega)).symm,
        (digit_ne_pad (by omega)).symm, (digit_ne_pad (by omega)).symm, hnot⟩
    · simp only [List.length_cons]
      omega

lemma unpad_append_replicate {body : Text} (h : '=' ∉ body) (k : ℕ) :
    unpad (body ++ List.replicate k '=') = body := by
  have hbody : unpad body = body := by
    rw [unpad, List.rdropWhile_eq_self_iff]
    intro hne hlast
    exact h (of_decide_eq_true hlast ▸ List.getLast_mem hne)
  induction k with
  | zero => simpa using hbody
  | succ k ih =>
    rw [List.replicate_succ', ← List.append_assoc, unpad,
      List.rdropWhile_concat_pos _ _ _ (by simp), ← unpad]
    exact ih

/-- Padding that was stripped is put back. -/
theorem pad_unpad_encode (b : Bytes) : pad (unpad (urlsafeB64encode b)) = urlsafeB64encode b := by
  obtain ⟨body, k, heq, hnot, hk, hlen⟩ := encode_body b
  rw [heq, unpad_append_replicate hnot, pad]
  congr 2
  omega

end FlowDiscovery.PyBase64
