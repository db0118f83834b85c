import Mathlib.Tactic

/-!
# Text primitives of the implementation language

Texts are lists of characters. The definitions follow the documented behaviour
of the string methods and of `int`, Unicode white space and decimal digits
included. A raised `ValueError` is `none`.
-/
namespace FlowDiscovery.PyText

abbrev Text := List Char

/-- Characters that `str.strip`, `str.split` and the class `\s` treat as blank. -/
def isSpace (c : Char) : Bool :=
  let n := c.toNat
  (0x09 ≤ n && n ≤ 0x0D) || (0x1C ≤ n && n ≤ 0x20) || n == 0x85 || n == 0xA0 || n == 0x1680 ||
    (0x2000 ≤ n && n ≤ 0x200A) || n == 0x2028 || n == 0x2029 || n == 0x202F || n == 0x205F ||
    n == 0x3000

/-- Code points of the zeros of all decimal digit ranges (category Nd). Each
range holds its ten digits in order. -/
def decimalZeros : List ℕ :=
  [0x30, 0x660, 0x6F0, 0x7C0, 0x966, 0x9E6, 0xA66, 0xAE6, 0xB66, 0xBE6, 0xC66, 0xCE6, 0xD66, 0xDE6,
   0xE50, 0xED0, 0xF20, 0x1040, 0x1090, 0x17E0, 0x1810, 0x1946, 0x19D0, 0x1A80, 0x1A90, 0x1B50,
   0x1BB0, 0x1C40, 0x1C50, 0xA620, 0xA8D0, 0xA900, 0xA9D0, 0xA9F0, 0xAA50, 0xABF0, 0xFF10, 0x104A0,
   0x10D30, 0x11066, 0x110F0, 0x11136, 0x111D0, 0x112F0, 0x11450, 0x114D0, 0x11650, 0x116C0,
   0x11730, 0x118E0, 0x11950, 0x11C50, 0x11D50, 0x11DA0, 0x11F50, 0x16A60, 0x16AC0, 0x16B50,
   0x1D7CE, 0x1D7D8, 0x1D7E2, 0x1D7EC, 0x1D7F6, 0x1E140, 0x1E2F0, 0x1E4F0, 0x1E950, 0x1FBF0]

/-- Value of a decimal digit, for `int` and the class `\d`. -/
def decimal? (c : Char) : Option ℕ :=
  (decimalZeros.find? fun z => z ≤ c.toNat && c.toNat < z + 10).map fun z => c.toNat - z

def stripBy (p : Char → Bool) (s : Text) : Text :=
  ((s.dropWhile p).reverse.dropWhile p).reverse

/-- `s.strip()` without an argument. -/
def strip (s : Text) : Text := stripBy isSpace s

/-- `s.lower()` on the letters A to Z. -/
def lowerAscii (s : Text) : Text := s.map Char.toLower

/-- `s.split(sep, 1)` at the first occurrence of a separator that does occur. -/
def splitOnce (sep : Text) : Text → Option (Text × Text)
  | [] => if sep.isEmpty then some ([], []) else none
  | c :: cs =>
    if sep.isPrefixOf (c :: cs) then some ([], (c :: cs).drop sep.length)
    else (splitOnce sep cs).map fun parts => (c :: parts.1, parts.2)

/-- `sub in s`. -/
def isInfix (sub s : Text) : Bool := (splitOnce sub s).isSome

/-- `s[s.index(sub):]`; `none` is the `ValueError` of a missing substring. -/
def fromFirst (sub : Text) : Text → Option Text
  | [] => if sub.isEmpty then some [] else none
  | c :: cs => if sub.isPrefixOf (c :: cs) then some (c :: cs) else fromFirst sub cs

/-- Blanks skipped by `int` around the number: below 127 only those of the C
locale, above it all Unicode blanks. -/
def isIntSpace (c : Char) : Bool :=
  let n := c.toNat
  (0x09 ≤ n && n ≤ 0x0D) || n == 0x20 || (127 ≤ n && isSpace c)

/-- Digits after the first one; single underscores may separate digits. -/
def digitTail : Text → Option (List ℕ)
  | [] => some []
  | ['_'] => none
  | '_' :: c :: cs => do
    let d ← decimal? c
    let ds ← digitTail cs
    return d :: ds
  | c :: cs => do
    let d ← decimal? c
    let ds ← digitTail cs
    return d :: ds

def digitRun : Text → Option (List ℕ)
  | [] => none
  | c :: cs => do
    let d ← decimal? c
    let ds ← digitTail cs
    return d :: ds

/-- Conversion of longer digit strings raises `ValueError`. -/
def intMaxStrDigits : ℕ := 4300

def ofDigits (ds : List ℕ) : ℤ := ds.foldl (fun acc d => acc * 10 + d) 0

/-- Sign and remaining text of a number. -/
def splitSign : Text → Bool × Text
  | '-' :: rest => (true, rest)
  | '+' :: rest => (false, rest)
  | rest => (false, rest)

/-- `int(s)` for a string in base ten. -/
def int? (s : Text) : Option ℤ :=
  let (negative, rest) := splitSign (stripBy isIntSpace s)
  match digitRun rest with
  | none => none
  | some ds =>
    if intMaxStrDigits < ds.length then none
    else some (if negative then -ofDigits ds else ofDigits ds)

example : int? " -0_12 ".toList = some (-12) := by decide
example : int? "1__2".toList = none := by decide

/-- Decimal digits of a number, as `str` writes them. -/
def natText (n : ℕ) : Text := Nat.toDigits 10 n

/-- `str(n)` of an integer; `none` is the `ValueError` of a number with too many
digits. -/
def str? (n : ℤ) : Option Text :=
  if intMaxStrDigits < (natText n.natAbs).length then none
  else some (if n < 0 then '-' :: natText n.natAbs else natText n.natAbs)

/-- Value of an ASCII digit. -/
def digitValue (c : Char) : ℕ := c.toNat - 0x30

lemma isDigit_of_mem_natText {n : ℕ} {c : Char} (h : c ∈ natText n) : c.isDigit :=
  Nat.isDigit_of_mem_toDigits (by omega) (by omega) h

lemma natText_ne_nil (n : ℕ) : natText n ≠ [] := Nat.toDigits_ne_nil

/-- No leading zeros. -/
lemma head?_natText_ne_zero {n : ℕ} (h : 0 < n) : (natText n).head? ≠ some '0' := by
  induction n using Nat.strong_induction_on with
  | _ n ih =>
    rw [natText, Nat.toDigits_eq_if (by omega)]
    split_ifs with hlt
    · simp only [List.head?_cons, ne_eq, Option.some.injEq, Nat.digitChar_eq_zero]
      omega
    · have hrec := ih (n / 10) (by omega) (by omega)
      obtain ⟨c, cs, hcs⟩ := List.exists_cons_of_ne_nil (natText_ne_nil (n / 10))
      rw [natText] at hcs hrec
      rw [hcs] at hrec ⊢
      exact hrec

lemma decimal?_of_isDigit {c : Char} (h : c.isDigit) : decimal? c = some (digitValue c) := by
  have hrange : 0x30 ≤ c.toNat ∧ c.toNat < 0x30 + 10 := by
    simp only [Char.isDigit, Bool.and_eq_true, decide_eq_true_eq, ge_iff_le,
      UInt32.le_iff_toNat_le] at h
    have h1 : (0x30 : ℕ) ≤ c.toNat := h.1
    have h2 : c.toNat ≤ 0x39 := h.2
    omega
  rw [decimal?, decimalZeros, List.find?_cons_of_pos (by simpa using hrange), Option.map_some,
    digitValue]

lemma digitTail_of_isDigit {s : Text} (h : ∀ c ∈ s, c.isDigit) :
    digitTail s = some (s.map digitValue) := by
  induction s with
  | nil => rfl
  | cons c cs ih =>
    have hc : c.isDigit := h c List.mem_cons_self
    have hne : c ≠ '_' := by
      rintro rfl
      exact absurd hc (by decide)
    have hcs := ih fun d hd => h d (List.mem_cons_of_mem _ hd)
    rw [digitTail.eq_def]
    simp [hcs, hne, decimal?_of_isDigit hc]

lemma digitRun_of_isDigit {s : Text} (hne : s ≠ []) (h : ∀ c ∈ s, c.isDigit) :
    digitRun s = some (s.map digitValue) := by
  obtain ⟨c, cs, rfl⟩ := List.exists_cons_of_ne_nil hne
  have hcs := digitTail_of_isDigit fun d hd => h d (List.mem_cons_of_mem c hd)
  simp [digitRun, decimal?_of_isDigit (h c List.mem_cons_self), hcs]

lemma foldl_digitValue (s : Text) (acc : ℕ) :
    (s.map digitValue).foldl (fun (acc : ℤ) (d : ℕ) => acc * 10 + d) acc =
      Nat.ofDigitChars 10 s acc := by
  induction s generalizing acc with
  | nil => rfl
  | cons c cs ih =>
    have hstep : (acc : ℤ) * 10 + digitValue c = ((10 * acc + (c.toNat - '0'.toNat) : ℕ) : ℤ) := by
      rw [Nat.cast_add, Nat.cast_mul, mul_comm]
      rfl
    rw [List.map_cons, List.foldl_cons, Nat.ofDigitChars_cons, hstep, ih]

lemma ofDigits_eq_foldl (ds : List ℕ) :
    ofDigits ds = ds.foldl (fun (acc : ℤ) (d : ℕ) => acc * 10 + d) 0 := by
  simp only [ofDigits, List.bind_eq_flatMap, List.pure_def, ← List.map_eq_flatMap,
    List.foldl_map]

lemma ofDigits_natText (n : ℕ) : ofDigits ((natText n).map digitValue) = n := by
  have h := foldl_digitValue (natText n) 0
  rw [natText, Nat.ofDigitChars_ten_toDigits, Nat.cast_zero] at h
  rw [ofDigits_eq_foldl]
  exact h

lemma dropWhile_eq_self {p : Char → Bool} {s : Text} (h : ∀ c ∈ s, p c = false) :
    s.dropWhile p = s := by
  cases s with
  | nil => rfl
  | cons c cs => rw [List.dropWhile_cons_of_neg (by simp [h c List.mem_cons_self])]

lemma stripBy_eq_self {p : Char → Bool} {s : Text} (h : ∀ c ∈ s, p c = false) :
    stripBy p s = s := by
  have hreverse : ∀ c ∈ s.reverse, p c = false := fun c hc => h c (List.mem_reverse.mp hc)
  rw [stripBy, dropWhile_eq_self h, dropWhile_eq_self hreverse, List.reverse_reverse]

lemma isIntSpace_of_isDigit {c : Char} (h : c.isDigit) : isIntSpace c = false := by
  have hrange : 0x30 ≤ c.toNat ∧ c.toNat ≤ 0x39 := by
    simp only [Char.isDigit, Bool.and_eq_true, decide_eq_true_eq, ge_iff_le,
      UInt32.le_iff_toNat_le] at h
    exact h
  simp only [isIntSpace, Bool.or_eq_false_iff, Bool.and_eq_false_iff, decide_eq_false_iff_not,
    beq_eq_false_iff_ne]
  omega

/-- `int` reads back what `str` has written, unless there are too many digits. -/
theorem int?_natText (n : ℕ) :
    int? (natText n) = if intMaxStrDigits < (natText n).length then none else some (n : ℤ) := by
  have hdigits : ∀ c ∈ natText n, c.isDigit := fun c hc => isDigit_of_mem_natText hc
  have hstrip : stripBy isIntSpace (natText n) = natText n :=
    stripBy_eq_self fun c hc => isIntSpace_of_isDigit (hdigits c hc)
  have hsign : splitSign (natText n) = (false, natText n) := by
    obtain ⟨c, cs, hcs⟩ := List.exists_cons_of_ne_nil (natText_ne_nil n)
    have hc : c.isDigit := hdigits c (hcs ▸ List.mem_cons_self)
    rw [hcs]
    unfold splitSign
    split
    · next h => cases h; exact absurd hc (by decide)
    · next h => cases h; exact absurd hc (by decide)
    · rfl
  simp [int?, hstrip, hsign, digitRun_of_isDigit (natText_ne_nil n) hdigits, ofDigits_natText]

theorem int?_str? {n : ℤ} {text : Text} (h : str? n = some text) : int? text = some n := by
  unfold str? at h
  split_ifs at h with hlong hneg
  all_goals obtain rfl := Option.some.inj h
  · have hdigits : ∀ c ∈ natText n.natAbs, c.isDigit := fun c hc => isDigit_of_mem_natText hc
    have hstrip : stripBy isIntSpace ('-' :: natText n.natAbs) = '-' :: natText n.natAbs := by
      apply stripBy_eq_self
      intro c hc
      rcases List.mem_cons.mp hc with rfl | hc
      · decide
      · exact isIntSpace_of_isDigit (hdigits c hc)
    simp [int?, hstrip, splitSign, digitRun_of_isDigit (natText_ne_nil _) hdigits,
      ofDigits_natText, hlong, abs_of_neg hneg]
  · rw [int?_natText, if_neg hlong, Int.natAbs_of_nonneg (by omega)]

lemma length_natText_le_iff (n : ℕ) :
    (natText n).length ≤ intMaxStrDigits ↔ n < 10 ^ intMaxStrDigits :=
  Nat.length_toDigits_le_iff (by omega) (by decide)

/-- The numbers of the program are far from the limit. -/
lemma length_natText_of_lt {n : ℕ} (h : n < 10 ^ 21) :
    ¬ intMaxStrDigits < (natText n).length := by
  rw [not_lt, length_natText_le_iff]
  exact h.trans_le (Nat.pow_le_pow_right (by omega) (by decide))

/-! ## Splitting and searching -/

lemma isPrefixOf_append_cons {sep : Text} {d : Char} (h : d ∉ sep) (xs ys : Text) :
    sep.isPrefixOf (xs ++ d :: ys) = sep.isPrefixOf xs := by
  induction xs generalizing sep with
  | nil =>
    cases sep with
    | nil => rfl
    | cons s rest =>
      have hne : s ≠ d := fun hs => h (hs ▸ List.mem_cons_self)
      simp [List.isPrefixOf, hne]
  | cons c cs ih =>
    cases sep with
    | nil => rfl
    | cons s rest =>
      rw [List.cons_append, List.isPrefixOf, List.isPrefixOf,
        ih fun hd => h (List.mem_cons_of_mem s hd)]

/-- A separator is found on one side of a character that does not occur in it. -/
theorem splitOnce_append_cons {sep : Text} (hne : sep ≠ []) {d : Char} (h : d ∉ sep)
    (xs ys : Text) :
    splitOnce sep (xs ++ d :: ys) =
      match splitOnce sep xs with
      | some parts => some (parts.1, parts.2 ++ d :: ys)
      | none => (splitOnce sep ys).map fun parts => (xs ++ d :: parts.1, parts.2) := by
  have hempty : sep.isEmpty = false := by simpa using hne
  induction xs with
  | nil =>
    have hprefix : sep.isPrefixOf (d :: ys) = false := by
      rw [← List.nil_append (d :: ys), isPrefixOf_append_cons h]
      cases sep with
      | nil => exact absurd rfl hne
      | cons s rest => rfl
    simp [splitOnce, hprefix, hempty]
  | cons c cs ih =>
    have hsame : sep.isPrefixOf (c :: cs ++ d :: ys) = sep.isPrefixOf (c :: cs) :=
      isPrefixOf_append_cons h (c :: cs) ys
    rw [List.cons_append] at hsame ⊢
    rw [splitOnce, splitOnce, hsame, ih]
    cases hprefix : sep.isPrefixOf (c :: cs) with
    | true =>
      have hlength := (List.isPrefixOf_iff_prefix.mp hprefix).length_le
      simp only [if_true]
      rw [← List.cons_append, List.drop_append_of_le_length hlength]
    | false =>
      cases splitOnce sep cs with
      | some parts => rfl
      | none => cases splitOnce sep ys <;> rfl

lemma isInfix_append_cons {sep : Text} (hne : sep ≠ []) {d : Char} (h : d ∉ sep) (xs ys : Text) :
    isInfix sep (xs ++ d :: ys) = (isInfix sep xs || isInfix sep ys) := by
  rw [isInfix, isInfix, isInfix, splitOnce_append_cons hne h]
  cases splitOnce sep xs <;> cases splitOnce sep ys <;> rfl

lemma splitOnce_eq_some {sep s : Text} {parts : Text × Text} (h : splitOnce sep s = some parts) :
    s = parts.1 ++ sep ++ parts.2 := by
  induction s generalizing parts with
  | nil =>
    rw [splitOnce] at h
    split_ifs at h with hempty
    · cases h
      rw [List.isEmpty_iff.mp hempty]
      rfl
  | cons c cs ih =>
    rw [splitOnce] at h
    split_ifs at h with hprefix
    · obtain ⟨rest, hrest⟩ := List.isPrefixOf_iff_prefix.mp hprefix
      cases h
      rw [← hrest, List.drop_left]
      rfl
    · obtain ⟨tail, htail, rfl⟩ := Option.map_eq_some_iff.mp h
      rw [ih htail]
      rfl

/-- `sub in s` says what it should. -/
theorem isInfix_iff {sub s : Text} : isInfix sub s = true ↔ sub <:+: s := by
  rw [isInfix]
  constructor
  · intro h
    obtain ⟨parts, hparts⟩ := Option.isSome_iff_exists.mp h
    exact ⟨parts.1, parts.2, (splitOnce_eq_some hparts).symm⟩
  · rintro ⟨before, after, rfl⟩
    induction before with
    | nil =>
      rw [List.nil_append]
      cases hs : sub ++ after with
      | nil =>
        rw [List.append_eq_nil_iff] at hs
        rw [hs.1]
        rfl
      | cons c cs =>
        have hprefix : sub.isPrefixOf (c :: cs) = true :=
          List.isPrefixOf_iff_prefix.mpr ⟨after, hs⟩
        rw [splitOnce, if_pos hprefix]
        rfl
    | cons c cs ih =>
      rw [List.cons_append, List.cons_append, splitOnce]
      split_ifs
      · rfl
      · rw [Option.isSome_map]
        exact ih

lemma fromFirst_eq_self {sub s : Text} (h : sub <+: s) : fromFirst sub s = some s := by
  cases s with
  | nil =>
    rw [List.prefix_nil.mp h]
    rfl
  | cons c cs => rw [fromFirst, if_pos (List.isPrefixOf_iff_prefix.mpr h)]

lemma fromFirst_suffix {sub s tail : Text} (h : fromFirst sub s = some tail) : tail <:+ s := by
  induction s with
  | nil =>
    rw [fromFirst] at h
    split_ifs at h
    cases h
    exact List.suffix_refl []
  | cons c cs ih =>
    rw [fromFirst] at h
    split_ifs at h
    · cases h
      exact List.suffix_refl (c :: cs)
    · exact (ih h).trans (List.suffix_cons c cs)

lemma fromFirst_append_cons {sub : Text} (hne : sub ≠ []) {d : Char} (h : d ∉ sub) {xs : Text}
    (hxs : isInfix sub xs = false) (ys : Text) :
    fromFirst sub (xs ++ d :: ys) = fromFirst sub ys := by
  induction xs with
  | nil =>
    have hprefix : sub.isPrefixOf (d :: ys) = false := by
      rw [← List.nil_append (d :: ys), isPrefixOf_append_cons h]
      cases sub with
      | nil => exact absurd rfl hne
      | cons s rest => rfl
    rw [List.nil_append, fromFirst, hprefix]
    rfl
  | cons c cs ih =>
    have hsame : sub.isPrefixOf (c :: cs ++ d :: ys) = sub.isPrefixOf (c :: cs) :=
      isPrefixOf_append_cons h (c :: cs) ys
    rw [isInfix, splitOnce] at hxs
    split_ifs at hxs with hprefix
    · cases hxs
    · rw [Option.isSome_map] at hxs
      rw [List.cons_append] at hsame ⊢
      rw [fromFirst, hsame, if_neg hprefix]
      exact ih hxs

lemma splitOnce_singleton {c : Char} {xs : Text} (h : c ∉ xs) (ys : Text) :
    splitOnce [c] (xs ++ c :: ys) = some (xs, ys) := by
  induction xs with
  | nil => simp [splitOnce, List.isPrefixOf]
  | cons x xs ih =>
    have hx : c ≠ x := fun hx => h (hx ▸ List.mem_cons_self)
    rw [List.cons_append, splitOnce, ih fun hmem => h (List.mem_cons_of_mem x hmem)]
    simp [List.isPrefixOf, hx]

lemma splitOn_of_notMem {c : Char} {t : Text} (h : c ∉ t) : t.splitOn c = [t] := by
  have hsplit : (List.intercalate [c] [t]).splitOn c = [t] :=
    List.splitOn_intercalate c (by simpa using h) (List.cons_ne_nil _ _)
  rwa [List.intercalate_singleton] at hsplit

/-- One piece more than there are separators. -/
lemma length_splitOn (c : Char) (t : Text) : (t.splitOn c).length = t.count c + 1 := by
  induction t with
  | nil => rfl
  | cons x xs ih =>
    rw [List.splitOn, List.splitOnP_cons_eq_if_modifyHead]
    rw [List.splitOn] at ih
    by_cases hx : x = c
    · subst hx
      rw [if_pos (beq_self_eq_true x), List.length_cons, ih, List.count_cons_self]
    · rw [if_neg (by simpa using hx), List.length_modifyHead, ih, List.count_cons_of_ne hx]

lemma mem_intercalate {sep : Char} {ts : List Text} {c : Char}
    (h : c ∈ List.intercalate [sep] ts) : c = sep ∨ ∃ t ∈ ts, c ∈ t := by
  induction ts with
  | nil => cases h
  | cons t rest ih =>
    cases rest with
    | nil =>
      rw [List.intercalate_singleton] at h
      exact .inr ⟨t, List.mem_cons_self, h⟩
    | cons t' rest =>
      rw [List.intercalate_cons_cons, List.append_assoc, List.singleton_append, List.mem_append,
        List.mem_cons] at h
      rcases h with h | h | h
      · exact .inr ⟨t, List.mem_cons_self, h⟩
      · exact .inl h
      · rcases ih h with h | ⟨u, hu, hc⟩
        · exact .inl h
        · exact .inr ⟨u, List.mem_cons_of_mem t hu, hc⟩

/-! ## Stripping -/

lemma exists_append_stripBy (p : Char → Bool) (s : Text) :
    ∃ before after, s = before ++ stripBy p s ++ after ∧ (∀ c ∈ before, p c) ∧
      ∀ c ∈ after, p c := by
  have hafter : ∀ t : Text, t = (t.reverse.dropWhile p).reverse ++ (t.reverse.takeWhile p).reverse := by
    intro t
    rw [← List.reverse_append, List.takeWhile_append_dropWhile, List.reverse_reverse]
  refine ⟨s.takeWhile p, ((s.dropWhile p).reverse.takeWhile p).reverse, ?_, ?_, ?_⟩
  · rw [stripBy, List.append_assoc, ← hafter, List.takeWhile_append_dropWhile]
  · exact List.all_eq_true.mp List.all_takeWhile
  · exact fun c hc => List.all_eq_true.mp List.all_takeWhile c (List.mem_reverse.mp hc)

/-- Neither the first nor the last character satisfies the predicate. -/
def Trimmed (p : Char → Bool) (s : Text) : Prop :=
  (∀ c ∈ s.head?, p c = false) ∧ ∀ c ∈ s.getLast?, p c = false

lemma dropWhile_append_of_head {p : Char → Bool} {before s : Text} (hbefore : ∀ c ∈ before, p c)
    (h : ∀ c ∈ s.head?, p c = false) : (before ++ s).dropWhile p = s := by
  rw [List.dropWhile_append_of_pos hbefore]
  cases s with
  | nil => rfl
  | cons c cs => rw [List.dropWhile_cons_of_neg (by simp [h c rfl])]

lemma stripBy_append {p : Char → Bool} {before s after : Text} (h : Trimmed p s)
    (hbefore : ∀ c ∈ before, p c) (hafter : ∀ c ∈ after, p c) :
    stripBy p (before ++ s ++ after) = s := by
  cases s with
  | nil =>
    have hall : ∀ c ∈ before ++ [] ++ after, p c := by
      intro c hc
      rw [List.append_nil, List.mem_append] at hc
      exact hc.elim (hbefore c) (hafter c)
    have hnil := dropWhile_append_of_head (s := []) hall nofun
    rw [List.append_nil] at hnil
    rw [stripBy, hnil]
    rfl
  | cons c cs =>
    have hreverse : ∀ d ∈ (c :: cs).reverse.head?, p d = false := by
      rw [List.head?_reverse]
      exact h.2
    have hhead : ∀ d ∈ (c :: cs ++ after).head?, p d = false := h.1
    rw [stripBy, List.append_assoc, dropWhile_append_of_head hbefore hhead, List.reverse_append,
      dropWhile_append_of_head (fun d hd => hafter d (List.mem_reverse.mp hd)) hreverse,
      List.reverse_reverse]

lemma stripBy_of_trimmed {p : Char → Bool} {s : Text} (h : Trimmed p s) : stripBy p s = s := by
  have hstrip : stripBy p ([] ++ s ++ []) = s := stripBy_append h nofun nofun
  rwa [List.nil_append, List.append_nil] at hstrip

lemma head?_dropWhile_eq_false {p : Char → Bool} {s : Text} :
    ∀ c ∈ (s.dropWhile p).head?, p c = false := by
  intro c hc
  have hnot := List.head?_dropWhile_not p s
  rw [hc] at hnot
  exact hnot

lemma trimmed_stripBy (p : Char → Bool) (s : Text) : Trimmed p (stripBy p s) := by
  constructor
  · intro c hc
    obtain ⟨cs, hcs⟩ : ∃ cs, stripBy p s = c :: cs := List.head?_eq_some_iff.mp hc
    have hsplit : s.dropWhile p = stripBy p s ++ ((s.dropWhile p).reverse.takeWhile p).reverse := by
      rw [stripBy, ← List.reverse_append, List.takeWhile_append_dropWhile, List.reverse_reverse]
    apply head?_dropWhile_eq_false (s := s)
    rw [hsplit, hcs]
    rfl
  · intro c hc
    rw [stripBy, List.getLast?_reverse] at hc
    exact head?_dropWhile_eq_false c hc

@[simp] lemma strip_strip (s : Text) : strip (strip s) = strip s :=
  stripBy_of_trimmed (trimmed_stripBy isSpace s)

lemma isSpace_of_decimal {c : Char} (h : (decimal? c).isSome) : isSpace c = false := by
  rw [decimal?, Option.isSome_map] at h
  obtain ⟨z, hz⟩ := Option.isSome_iff_exists.mp h
  have hrange := List.find?_some hz
  have hmem := List.mem_of_find?_eq_some hz
  simp only [Bool.and_eq_true, decide_eq_true_eq] at hrange
  have hzeros : ∀ z ∈ decimalZeros, ∀ i < 10, isSpace (Char.ofNat (z + i)) = false := by
    decide +kernel
  have hc := hzeros z hmem (c.toNat - z) (by omega)
  rwa [Nat.add_sub_cancel' hrange.1, Char.ofNat_toNat] at hc

/-- What `int` skips, `strip` removes as well. -/
lemma isSpace_of_isIntSpace {c : Char} (h : isIntSpace c = true) : isSpace c = true := by
  simp only [isIntSpace, isSpace, Bool.or_eq_true, Bool.and_eq_true, decide_eq_true_eq,
    beq_iff_eq] at h ⊢
  omega

lemma isSome_getLast_of_digitTail {s : Text} {ds : List ℕ} (h : digitTail s = some ds) :
    ∀ c ∈ s.getLast?, (decimal? c).isSome := by
  fun_induction digitTail s generalizing ds with
  | case1 => exact nofun
  | case2 => cases h
  | case3 c cs ih =>
    obtain ⟨d, hd, hrest⟩ := Option.bind_eq_some_iff.mp h
    obtain ⟨ds', hds, -⟩ := Option.bind_eq_some_iff.mp hrest
    intro e he
    rw [List.getLast?_cons_cons] at he
    cases cs with
    | nil =>
      cases he
      exact Option.isSome_iff_exists.mpr ⟨d, hd⟩
    | cons c' cs =>
      rw [List.getLast?_cons_cons] at he
      exact ih hds e he
  | case4 c cs _ _ ih =>
    obtain ⟨d, hd, hrest⟩ := Option.bind_eq_some_iff.mp h
    obtain ⟨ds', hds, -⟩ := Option.bind_eq_some_iff.mp hrest
    intro e he
    cases cs with
    | nil =>
      cases he
      exact Option.isSome_iff_exists.mpr ⟨d, hd⟩
    | cons c' cs =>
      rw [List.getLast?_cons_cons] at he
      exact ih hds e he

/-- A run of digits begins and ends with a digit. -/
lemma trimmed_of_digitRun {s : Text} {ds : List ℕ} (h : digitRun s = some ds) :
    s ≠ [] ∧ Trimmed isSpace s := by
  cases s with
  | nil => cases h
  | cons c cs =>
    obtain ⟨d, hd, hrest⟩ := Option.bind_eq_some_iff.mp h
    obtain ⟨ds', hds, -⟩ := Option.bind_eq_some_iff.mp hrest
    have hc : (decimal? c).isSome := Option.isSome_iff_exists.mpr ⟨d, hd⟩
    refine ⟨List.cons_ne_nil c cs, fun e he => ?_, fun e he => ?_⟩
    · cases he
      exact isSpace_of_decimal hc
    · cases cs with
      | nil =>
        cases he
        exact isSpace_of_decimal hc
      | cons c' cs =>
        rw [List.getLast?_cons_cons] at he
        exact isSpace_of_decimal (isSome_getLast_of_digitTail hds e he)

lemma trimmed_of_splitSign {s : Text} (hne : (splitSign s).2 ≠ [])
    (h : Trimmed isSpace (splitSign s).2) : Trimmed isSpace s := by
  have hsign : ∀ {c : Char} {rest : Text}, isSpace c = false → rest ≠ [] →
      Trimmed isSpace rest → Trimmed isSpace (c :: rest) := by
    intro c rest hc hrest htrimmed
    obtain ⟨d, ds, rfl⟩ := List.exists_cons_of_ne_nil hrest
    refine ⟨fun e he => ?_, fun e he => ?_⟩
    · cases he
      exact hc
    · rw [List.getLast?_cons_cons] at he
      exact htrimmed.2 e he
  unfold splitSign at hne h
  split at h
  · exact hsign (by decide) hne h
  · exact hsign (by decide) hne h
  · exact h

/-- `int` reads a stripped number as the number itself. -/
theorem int?_strip {s : Text} {n : ℤ} (h : int? s = some n) : int? (strip s) = some n := by
  obtain ⟨before, after, hs, hbefore, hafter⟩ := exists_append_stripBy isIntSpace s
  have hcore : Trimmed isSpace (stripBy isIntSpace s) := by
    rw [int?] at h
    dsimp only at h
    cases hrun : digitRun (splitSign (stripBy isIntSpace s)).2 with
    | none =>
      rw [hrun] at h
      cases h
    | some ds =>
      obtain ⟨hne, htrimmed⟩ := trimmed_of_digitRun hrun
      exact trimmed_of_splitSign hne htrimmed
  have hstrip : strip s = stripBy isIntSpace s := by
    rw [strip]
    nth_rewrite 1 [hs]
    exact stripBy_append hcore (fun c hc => isSpace_of_isIntSpace (hbefore c hc))
      fun c hc => isSpace_of_isIntSpace (hafter c hc)
  have hagain : stripBy isIntSpace (strip s) = stripBy isIntSpace s := by
    rw [hstrip]
    exact stripBy_of_trimmed (trimmed_stripBy isIntSpace s)
  rw [int?, hagain]
  exact h

/-- `a or b` for optional strings: an empty string is false. -/
def orElse (a b : Option String) : Option String :=
  match a with
  | some s => if s = "" then b else some s
  | none => b

end FlowDiscovery.PyText
