import FlowDiscovery.PyJson

/-!
# JSON read back

What `dumps` writes, `loads` reads: strings of characters with every kind of
escape, integers, and objects of such values. The output is ASCII, so the same
holds through bytes.
-/
namespace FlowDiscovery.PyJson
open PyText PyBytes

/-! ## Strings -/

/-- A code point of a character. -/
def IsScalar (c : ℕ) : Prop := c < 0xD800 ∨ 0xE000 ≤ c ∧ c < 0x110000

/-- The code points of a string, surrogates included. -/
def IsStr (s : PyStr) : Prop := ∀ c ∈ s, c < 0x110000

lemma IsScalar.lt {c : ℕ} (h : IsScalar c) : c < 0x110000 := by
  rcases h with h | h
  · omega
  · exact h.2

lemma IsScalar.not_highSurrogate {c : ℕ} (h : IsScalar c) : isHighSurrogate c = false := by
  simp only [isHighSurrogate, Bool.and_eq_false_iff, decide_eq_false_iff_not]
  rcases h with h | h <;> omega

lemma isScalar_ofText (s : Text) : ∀ c ∈ ofText s, IsScalar c := by
  intro c hc
  obtain ⟨x, _, rfl⟩ := List.mem_map.mp hc
  rcases x.valid with h | h
  · exact .inl h
  · have h1 : 0xDFFF < x.toNat := h.1
    have h2 : x.toNat < 0x110000 := h.2
    exact .inr ⟨by omega, h2⟩

/-- How the reader sees an escaped code point. -/
def unitsOf (c : ℕ) : List CodeUnit :=
  if c = 0x22 ∨ c = 0x5C ∨ c = 0x0A ∨ c = 0x0D ∨ c = 0x09 ∨ c = 0x0C ∨ c = 0x08 ∨
      0x20 ≤ c ∧ c ≤ 0x7E then [.plain c]
  else if c < 0x10000 then [.escaped c]
  else [.escaped (0xD800 + (c - 0x10000) / 0x400), .escaped (0xDC00 + (c - 0x10000) % 0x400)]

lemma hexValue_hexDigit {d : ℕ} (h : d < 16) : hexValue (hexDigit d) = some d := by
  have hall : ∀ d < 16, hexValue (hexDigit d) = some d := by decide
  exact hall d h

lemma hex4_hexDigits {n : ℕ} (h : n < 0x10000) :
    hex4 (hexDigit (n / 4096)) (hexDigit (n / 256 % 16)) (hexDigit (n / 16 % 16))
      (hexDigit (n % 16)) = some n := by
  have hsum : ((n / 4096 * 16 + n / 256 % 16) * 16 + n / 16 % 16) * 16 + n % 16 = n := by omega
  simp [hex4, hexValue_hexDigit (show n / 4096 < 16 by omega),
    hexValue_hexDigit (show n / 256 % 16 < 16 by omega),
    hexValue_hexDigit (show n / 16 % 16 < 16 by omega),
    hexValue_hexDigit (show n % 16 < 16 by omega), hsum]

/-- One escape is read as its units. -/
lemma scanUnits_uEscape {n : ℕ} (h : n < 0x10000) (rest : PyStr) :
    scanUnits (uEscape n ++ rest) =
      (scanUnits rest).map fun (units, rest) => (.escaped n :: units, rest) := by
  simp only [uEscape, List.cons_append, List.nil_append, scanUnits, hex4_hexDigits h]
  cases scanUnits rest <;> rfl

lemma scanUnits_plain {c : ℕ} (h1 : 0x20 ≤ c) (h2 : c ≠ 0x22) (h3 : c ≠ 0x5C) (rest : PyStr) :
    scanUnits (c :: rest) =
      (scanUnits rest).map fun (units, rest) => (.plain c :: units, rest) := by
  rw [scanUnits]
  · rw [if_neg (by omega)]
    cases scanUnits rest <;> rfl
  all_goals grind

lemma scanUnits_simple {e c : ℕ} (he : simpleEscape e = some c) (rest : PyStr) :
    scanUnits (0x5C :: e :: rest) =
      (scanUnits rest).map fun (units, rest) => (.plain c :: units, rest) := by
  have hu : e ≠ 0x75 := by
    rintro rfl
    cases he
  rw [scanUnits]
  · rw [he]
    cases scanUnits rest <;> rfl
  all_goals grind

lemma scanUnits_escape {c : ℕ} (h : c < 0x110000) (rest : PyStr) :
    scanUnits (escape c ++ rest) =
      (scanUnits rest).map fun (units, rest) => (unitsOf c ++ units, rest) := by
  unfold escape
  split_ifs with h1 h2 h3 h4 h5 h6 h7 h8 h9
  · subst h1
    exact scanUnits_simple rfl rest
  · subst h2
    exact scanUnits_simple rfl rest
  · subst h3
    exact scanUnits_simple rfl rest
  · subst h4
    exact scanUnits_simple rfl rest
  · subst h5
    exact scanUnits_simple rfl rest
  · subst h6
    exact scanUnits_simple rfl rest
  · subst h7
    exact scanUnits_simple rfl rest
  · rw [List.singleton_append, scanUnits_plain h8.1 h1 h2, unitsOf, if_pos (by omega)]
    rfl
  · rw [scanUnits_uEscape h9, unitsOf, if_neg (by omega), if_pos h9]
    rfl
  · rw [List.append_assoc, scanUnits_uEscape (by omega), scanUnits_uEscape (by omega), unitsOf,
      if_neg (by omega), if_neg h9]
    cases scanUnits rest <;> rfl

/-- A high surrogate and a low one after it, as one code point. -/
def joinSurrogates : PyStr → PyStr
  | [] => []
  | [c] => [c]
  | c :: d :: rest =>
    if isHighSurrogate c ∧ isLowSurrogate d then
      (0x10000 + (c - 0xD800) * 0x400 + (d - 0xDC00)) :: joinSurrogates rest
    else c :: joinSurrogates (d :: rest)

/-- The first unit, if it is an escape, is no low surrogate. -/
def StartsApart (units : List CodeUnit) : Prop :=
  ∀ d rest, units = .escaped d :: rest → isLowSurrogate d = false

lemma startsApart_unitsOf {c : ℕ} (hc : c < 0x110000) (h : isLowSurrogate c = false)
    (units : List CodeUnit) : StartsApart (unitsOf c ++ units) := by
  intro d rest hd
  unfold unitsOf at hd
  split_ifs at hd
  · cases hd
  · cases hd
    exact h
  · cases hd
    simp only [isLowSurrogate, Bool.and_eq_false_iff, decide_eq_false_iff_not]
    omega

lemma joinPairs_unitsOf {c : ℕ} (hc : c < 0x110000) {units : List CodeUnit}
    (h : isHighSurrogate c = false ∨ StartsApart units) :
    joinPairs (unitsOf c ++ units) = c :: joinPairs units := by
  unfold unitsOf
  split_ifs with h1 h2
  · rfl
  · rcases units with _ | ⟨_ | d, rest⟩
    · rfl
    · rfl
    · have hapart : ¬ (isHighSurrogate c = true ∧ isLowSurrogate d = true) := by
        rintro ⟨hhigh, hlow⟩
        rcases h with h | h
        · rw [h] at hhigh
          cases hhigh
        · rw [h d rest rfl] at hlow
          cases hlow
      rw [List.singleton_append, joinPairs, if_neg hapart]
  · have hpair : isHighSurrogate (0xD800 + (c - 0x10000) / 0x400) = true ∧
        isLowSurrogate (0xDC00 + (c - 0x10000) % 0x400) = true := by
      simp only [isHighSurrogate, isLowSurrogate, Bool.and_eq_true, decide_eq_true_eq]
      omega
    have hsum : 0x10000 + (0xD800 + (c - 0x10000) / 0x400 - 0xD800) * 0x400 +
        (0xDC00 + (c - 0x10000) % 0x400 - 0xDC00) = c := by omega
    rw [List.cons_append, List.singleton_append, joinPairs, if_pos hpair, hsum]

lemma unitsOf_surrogate {c : ℕ} (h : isHighSurrogate c = true ∨ isLowSurrogate c = true) :
    unitsOf c = [.escaped c] := by
  simp only [isHighSurrogate, isLowSurrogate, Bool.and_eq_true, decide_eq_true_eq] at h
  rw [unitsOf, if_neg (by omega), if_pos (by omega)]

/-- The reader joins the surrogates that the writer has escaped one by one. -/
lemma joinPairs_flatMap_unitsOf {s : PyStr} (h : IsStr s) :
    joinPairs (s.flatMap unitsOf) = joinSurrogates s := by
  induction s using joinSurrogates.induct with
  | case1 => rfl
  | case2 c =>
    have hapart : StartsApart [] := by
      intro d rest hd
      cases hd
    rw [List.flatMap_singleton, ← List.append_nil (unitsOf c),
      joinPairs_unitsOf (h c List.mem_cons_self) (.inr hapart)]
    rfl
  | case3 c d rest hpair ih =>
    have hrest : IsStr rest := fun x hx => h x (by simp [hx])
    rw [List.flatMap_cons, List.flatMap_cons, unitsOf_surrogate (.inl hpair.1),
      unitsOf_surrogate (.inr hpair.2), List.singleton_append, List.singleton_append, joinPairs,
      if_pos hpair, ih hrest, joinSurrogates, if_pos hpair]
  | case4 c d rest hpair ih =>
    have hrest : IsStr (d :: rest) := fun x hx => h x (List.mem_cons_of_mem c hx)
    have hapart : isHighSurrogate c = false ∨ StartsApart ((d :: rest).flatMap unitsOf) := by
      by_cases hlow : isLowSurrogate d = true
      · exact .inl (Bool.eq_false_iff.mpr fun hhigh => hpair ⟨hhigh, hlow⟩)
      · rw [List.flatMap_cons]
        exact .inr (startsApart_unitsOf (hrest d List.mem_cons_self) (Bool.eq_false_iff.mpr hlow) _)
    rw [List.flatMap_cons, joinPairs_unitsOf (h c List.mem_cons_self) hapart, ih hrest,
      joinSurrogates, if_neg hpair]

lemma length_joinSurrogates_le (s : PyStr) : (joinSurrogates s).length ≤ s.length := by
  fun_induction joinSurrogates s with
  | case1 => rfl
  | case2 c => rfl
  | case3 c d rest hpair ih =>
    simp only [List.length_cons]
    omega
  | case4 c d rest hpair ih =>
    simp only [List.length_cons] at ih ⊢
    omega

/-- No low surrogate follows a high one. -/
def Unpaired (s : PyStr) : Prop :=
  s.IsChain fun c d => ¬ (isHighSurrogate c = true ∧ isLowSurrogate d = true)

theorem joinSurrogates_eq_self_iff (s : PyStr) : joinSurrogates s = s ↔ Unpaired s := by
  unfold Unpaired
  fun_induction joinSurrogates s with
  | case1 => simp
  | case2 c => simp
  | case3 c d rest hpair ih =>
    -- the join is shorter than the string
    have hlength := length_joinSurrogates_le rest
    refine iff_of_false (fun heq => ?_) fun hchain => (List.isChain_cons_cons.mp hchain).1 hpair
    have hsame := congrArg List.length heq
    simp only [List.length_cons] at hsame
    omega
  | case4 c d rest hpair ih =>
    rw [List.isChain_cons_cons, ← ih]
    simp [hpair]

lemma unpaired_of_isScalar {s : PyStr} (h : ∀ c ∈ s, IsScalar c) : Unpaired s := by
  apply List.Pairwise.isChain
  rw [List.pairwise_iff_forall_sublist]
  intro c d hcd hpair
  have hc := h c (hcd.subset (by simp))
  rw [hc.not_highSurrogate] at hpair
  cases hpair.1

lemma joinSurrogates_of_isScalar {s : PyStr} (h : ∀ c ∈ s, IsScalar c) : joinSurrogates s = s :=
  (joinSurrogates_eq_self_iff s).mpr (unpaired_of_isScalar h)

/-- A string is read back with its surrogates joined. -/
theorem scanString_flatMap_escape {s : PyStr} (h : IsStr s) (rest : PyStr) :
    scanString (s.flatMap escape ++ 0x22 :: rest) = some (joinSurrogates s, rest) := by
  have hunits : scanUnits (s.flatMap escape ++ 0x22 :: rest) = some (s.flatMap unitsOf, rest) := by
    induction s with
    | nil => simp [scanUnits]
    | cons c cs ih =>
      have hcs := ih fun d hd => h d (List.mem_cons_of_mem c hd)
      rw [List.flatMap_cons, List.flatMap_cons, List.append_assoc,
        scanUnits_escape (h c List.mem_cons_self), hcs]
      rfl
  simp only [scanString, hunits, Option.map_some, joinPairs_flatMap_unitsOf h]

/-- A string of characters is read back. -/
theorem scanString_dumpsString {s : PyStr} (h : ∀ c ∈ s, IsScalar c) (rest : PyStr) :
    scanString (s.flatMap escape ++ 0x22 :: rest) = some (s, rest) := by
  have hstring := scanString_flatMap_escape (fun c hc => (h c hc).lt) rest
  rwa [joinSurrogates_of_isScalar h] at hstring

/-! ## Numbers -/

/-- What follows a value inside an object. -/
def EndsValue (rest : PyStr) : Prop := ∃ c tail, rest = c :: tail ∧ (c = 0x2C ∨ c = 0x7D)

/-- Nothing that follows belongs to a number before it. -/
def EndsNumber (rest : PyStr) : Prop :=
  ∀ c tail, rest = c :: tail → isDigit c = false ∧ c ≠ 0x2E ∧ c ≠ 0x65 ∧ c ≠ 0x45

lemma EndsValue.endsNumber {rest : PyStr} (h : EndsValue rest) : EndsNumber rest := by
  obtain ⟨c, tail, rfl, hc⟩ := h
  rintro _ _ ⟨rfl, rfl⟩
  rcases hc with rfl | rfl <;> decide

lemma span_digits {digits rest : PyStr} (hdigits : ∀ c ∈ digits, isDigit c = true)
    (hrest : EndsNumber rest) : (digits ++ rest).span isDigit = (digits, rest) := by
  rw [List.span_eq_takeWhile_dropWhile, List.takeWhile_append_of_pos hdigits,
    List.dropWhile_append_of_pos hdigits]
  cases rest with
  | nil => simp
  | cons c tail =>
    have hstop := (hrest c tail rfl).1
    rw [List.takeWhile_cons_of_neg (by simp [hstop]), List.dropWhile_cons_of_neg (by simp [hstop]),
      List.append_nil]

/-- Neither a point nor an exponent follows. -/
lemma EndsNumber.scans {rest : PyStr} (h : EndsNumber rest) :
    scanFraction rest = ([], rest) ∧ scanExponent rest = ([], rest) := by
  cases rest with
  | nil => exact ⟨rfl, rfl⟩
  | cons c tail =>
    obtain ⟨_, hpoint, he, hE⟩ := h c tail rfl
    refine ⟨?_, ?_⟩
    · unfold scanFraction
      split
      · next heq => exact absurd (List.cons.inj heq).1 hpoint
      · rfl
    · simp only [scanExponent, if_neg (show ¬ (c = 0x65 ∨ c = 0x45) by simp [he, hE])]

lemma ofText_natText_isDigit (n : ℕ) : ∀ c ∈ ofText (natText n), isDigit c = true := by
  intro c hc
  obtain ⟨x, hx, rfl⟩ := List.mem_map.mp hc
  have hdigit := isDigit_of_mem_natText hx
  simp only [Char.isDigit, Bool.and_eq_true, decide_eq_true_eq, ge_iff_le,
    UInt32.le_iff_toNat_le] at hdigit
  simp only [isDigit, Bool.and_eq_true, decide_eq_true_eq]
  exact hdigit

lemma digitsValue_natText (n : ℕ) : digitsValue (ofText (natText n)) = n := by
  have hfold : digitsValue (ofText (natText n)) = Nat.ofDigitChars 10 (natText n) 0 := by
    rw [digitsValue, ofText, List.foldl_map, Nat.ofDigitChars_eq_foldl]
    rfl
  rw [hfold, natText, Nat.ofDigitChars_ten_toDigits]

lemma scanInteger_natText (n : ℕ) {rest : PyStr} (hrest : EndsNumber rest) :
    scanInteger (ofText (natText n) ++ rest) = (ofText (natText n), rest) := by
  rcases Nat.eq_zero_or_pos n with rfl | hpos
  · rw [natText, Nat.toDigits_zero]
    rfl
  · obtain ⟨c, cs, hcs⟩ := List.exists_cons_of_ne_nil (natText_ne_nil n)
    have hc : c.toNat ≠ 0x30 := by
      intro hzero
      have hchar : c = '0' := Char.toNat_inj.mp hzero
      exact head?_natText_ne_zero hpos (by rw [hcs, hchar]; rfl)
    have hspan := span_digits (ofText_natText_isDigit n) hrest
    rw [hcs] at hspan ⊢
    rw [← hspan]
    unfold scanInteger
    split
    · next rest' heq =>
      simp only [ofText, List.map_cons, List.cons_append, List.cons.injEq] at heq
      exact absurd heq.1 hc
    · rfl

section

variable (float : Text → Text)

lemma scanUnsigned_natText (negative : Bool) {n : ℕ} (hlen : (natText n).length ≤ intMaxStrDigits)
    {rest : PyStr} (hrest : EndsNumber rest) :
    scanUnsigned float negative (ofText (natText n) ++ rest) =
      some (.int (if negative then -n else n), rest) := by
  have hends := hrest.scans
  have hne : ofText (natText n) ≠ [] := by
    simpa [ofText] using natText_ne_nil n
  have hlength : ¬ intMaxStrDigits < (ofText (natText n)).length := by
    rw [ofText, List.length_map]
    omega
  simp only [scanUnsigned, scanInteger_natText n hrest, hends.1, hends.2, if_neg hne,
    if_neg hlength, digitsValue_natText, and_self, if_true]

/-- A rendered value is read back in front of whatever can follow it, and does not
begin with a blank. -/
structure Renders (text : PyStr) (value : Json) : Prop where
  starts : ∃ c tail, text = c :: tail ∧ isBlank c = false
  reads : ∀ fuel rest, EndsValue rest →
    scanValue float (fuel + 1) (text ++ rest) = some (value, rest)

lemma renders_dumpsString_join {s : PyStr} (h : IsStr s) :
    Renders float (dumpsString s) (.str (joinSurrogates s)) where
  starts := ⟨0x22, _, rfl, rfl⟩
  reads fuel rest _ := by
    have hstring := scanString_flatMap_escape h rest
    simp only [dumpsString, List.cons_append, List.append_assoc, List.nil_append, scanValue,
      hstring, Option.map_some]

lemma renders_dumpsString {s : PyStr} (h : ∀ c ∈ s, IsScalar c) :
    Renders float (dumpsString s) (.str s) := by
  have hjoin := renders_dumpsString_join float fun c hc => (h c hc).lt
  rwa [joinSurrogates_of_isScalar h] at hjoin

/-- The names start with a letter, or with a minus and a letter. -/
lemma words_start (word : PyStr × Json) (h : word ∈ words) :
    ∃ a b rest, word.1 = a :: b :: rest ∧ (a ≠ 0x2D ∧ isDigit a = false ∨ a = 0x2D ∧ b = 0x49) := by
  simp only [words, List.mem_cons, List.not_mem_nil, or_false] at h
  rcases h with rfl | rfl | rfl | rfl | rfl | rfl
  all_goals exact ⟨_, _, _, rfl, by decide⟩

/-- A number is neither a string, a container nor a name. -/
lemma scanValue_number {c : ℕ} {tail : PyStr} (fuel : ℕ)
    (hc : isDigit c = true ∨ c = 0x2D ∧ ∃ d rest, tail = d :: rest ∧ isDigit d = true) :
    scanValue float (fuel + 1) (c :: tail) = scanNumber float (c :: tail) := by
  have hbounds : c = 0x2D ∨ 0x30 ≤ c ∧ c ≤ 0x39 := by
    rcases hc with hc | ⟨rfl, _⟩
    · simp only [isDigit, Bool.and_eq_true, decide_eq_true_eq] at hc
      exact .inr hc
    · exact .inl rfl
  have hwords : (words.find? fun word => word.1.isPrefixOf (c :: tail)) = none := by
    rw [List.find?_eq_none]
    intro word hword hstarts
    obtain ⟨a, b, rest, hstart, hname⟩ := words_start word hword
    rw [hstart, List.isPrefixOf_iff_prefix, List.cons_prefix_cons] at hstarts
    obtain ⟨rfl, hrest⟩ := hstarts
    rcases hname with ⟨hminus, hletter⟩ | ⟨rfl, rfl⟩
    · rcases hc with hc | ⟨hc, _⟩
      · rw [hletter] at hc
        cases hc
      · exact hminus hc
    · rcases hc with hc | ⟨_, d, tail', rfl, hd⟩
      · cases hc
      · rw [List.cons_prefix_cons] at hrest
        rw [← hrest.1] at hd
        cases hd
  have hatom : scanAtom float (c :: tail) = scanNumber float (c :: tail) := by
    rw [scanAtom, hwords]
  rw [scanValue]
  · exact hatom
  all_goals grind

lemma isBlank_of_isDigit {c : ℕ} (h : isDigit c = true) : isBlank c = false := by
  simp only [isDigit, Bool.and_eq_true, decide_eq_true_eq] at h
  simp only [isBlank, Bool.or_eq_false_iff, decide_eq_false_iff_not]
  omega

lemma scanNumber_of_isDigit {c : ℕ} (h : isDigit c = true) (tail : PyStr) :
    scanNumber float (c :: tail) = scanUnsigned float false (c :: tail) := by
  unfold scanNumber
  split
  · next heq =>
    rw [(List.cons.inj heq).1] at h
    cases h
  · rfl

lemma ofText_natText_cons (n : ℕ) : ∃ d ds, ofText (natText n) = d :: ds ∧ isDigit d = true := by
  obtain ⟨d, ds, hds⟩ := List.exists_cons_of_ne_nil (natText_ne_nil n)
  have hd : isDigit d.toNat = true :=
    ofText_natText_isDigit n _ (by rw [hds]; exact List.mem_cons_self)
  exact ⟨d.toNat, ofText ds, by rw [hds]; rfl, hd⟩

/-- An integer is read back in front of whatever cannot go on with it. -/
lemma scanValue_dumpsInt {n : ℤ} {text : PyStr} (h : dumpsInt n = some text) :
    (∃ c tail, text = c :: tail ∧ (c = 0x2D ∨ isDigit c = true)) ∧
    ∀ fuel rest, EndsNumber rest →
      scanValue float (fuel + 1) (text ++ rest) = some (.int n, rest) := by
  obtain ⟨digits, hstr, rfl⟩ := Option.map_eq_some_iff.mp h
  unfold str? at hstr
  obtain ⟨d, ds, hds, hd⟩ := ofText_natText_cons n.natAbs
  split_ifs at hstr with hlen hneg
  all_goals cases hstr
  · -- a negative number is its sign and the digits of its absolute value
    refine ⟨⟨0x2D, ofText (natText n.natAbs), rfl, .inl rfl⟩, fun fuel rest hrest => ?_⟩
    have hvalue : scanValue float (fuel + 1) (0x2D :: (ofText (natText n.natAbs) ++ rest)) =
        scanNumber float (0x2D :: (ofText (natText n.natAbs) ++ rest)) :=
      scanValue_number float fuel (.inr ⟨rfl, d, ds ++ rest, by rw [hds]; rfl, hd⟩)
    show scanValue float (fuel + 1) (0x2D :: (ofText (natText n.natAbs) ++ rest)) = _
    rw [hvalue, scanNumber, scanUnsigned_natText float true (by omega) hrest, if_pos rfl]
    rw [show -(n.natAbs : ℤ) = n by omega]
  · refine ⟨⟨d, ds, hds, .inr hd⟩, fun fuel rest hrest => ?_⟩
    have hvalue : scanValue float (fuel + 1) (ofText (natText n.natAbs) ++ rest) =
        scanUnsigned float false (ofText (natText n.natAbs) ++ rest) := by
      rw [hds, List.cons_append, scanValue_number float fuel (.inl hd)]
      exact scanNumber_of_isDigit float hd (ds ++ rest)
    rw [hvalue, scanUnsigned_natText float false (by omega) hrest, if_neg (by simp)]
    rw [show (n.natAbs : ℤ) = n by omega]

lemma renders_dumpsInt {n : ℤ} {text : PyStr} (h : dumpsInt n = some text) :
    Renders float text (.int n) := by
  obtain ⟨⟨c, tail, htext, hc⟩, hreads⟩ := scanValue_dumpsInt float h
  refine ⟨⟨c, tail, htext, ?_⟩, fun fuel rest hrest => hreads fuel rest hrest.endsNumber⟩
  rcases hc with rfl | hc
  · rfl
  · exact isBlank_of_isDigit hc

/-! ## Objects -/

lemma skipBlanks_cons {c : ℕ} (h : isBlank c = false) (s : PyStr) : skipBlanks (c :: s) = c :: s :=
  List.dropWhile_cons_of_neg (by simp [h])

lemma length_le_dumpsMembers (members : List (PyStr × PyStr)) :
    members.length ≤ (dumpsMembers members).length := by
  induction members with
  | nil => simp
  | cons m ms ih =>
    cases ms with
    | nil => simp [dumpsMembers, dumpsString]
    | cons m' ms =>
      simp only [dumpsMembers, dumpsString, List.length_cons, List.length_append] at ih ⊢
      omega

/-- As `Renders`, for a value whose reader takes some fuel. -/
structure RendersFrom (need : ℕ) (text : PyStr) (value : Json) : Prop where
  starts : ∃ c tail, text = c :: tail ∧ isBlank c = false
  reads : ∀ fuel, need ≤ fuel → ∀ rest, EndsValue rest →
    scanValue float fuel (text ++ rest) = some (value, rest)

lemma Renders.from {text : PyStr} {value : Json} (h : Renders float text value) {need : ℕ}
    (hneed : 1 ≤ need) : RendersFrom float need text value where
  starts := h.starts
  reads fuel hfuel rest hrest := by
    obtain ⟨fuel, rfl⟩ : ∃ f, fuel = f + 1 := ⟨fuel - 1, by omega⟩
    exact h.reads fuel rest hrest

lemma RendersFrom.skipBlanks_append {need : ℕ} {text : PyStr} {value : Json}
    (h : RendersFrom float need text value) (rest : PyStr) :
    skipBlanks (text ++ rest) = text ++ rest := by
  obtain ⟨c, tail, rfl, hc⟩ := h.starts
  exact skipBlanks_cons hc _

/-- A member with its key, its rendered value and the value itself. -/
abbrev Member := PyStr × PyStr × Json

def Member.Written (m : Member) : Prop := (∀ c ∈ m.1, IsScalar c) ∧ Renders float m.2.1 m.2.2

def Member.WrittenFrom (need : ℕ) (m : Member) : Prop :=
  (∀ c ∈ m.1, IsScalar c) ∧ RendersFrom float need m.2.1 m.2.2

def Member.text (m : Member) : PyStr × PyStr := (m.1, m.2.1)

def Member.field (m : Member) : PyStr × Json := (m.1, m.2.2)

lemma scanMembers_cons {fuel : ℕ} {s text rest : PyStr} {key : PyStr} {value : Json}
    (hkey : scanString s = some (key, 0x3A :: text)) (hblanks : skipBlanks text = text)
    (hvalue : scanValue float fuel text = some (value, 0x2C :: 0x22 :: rest)) :
    scanMembers float (fuel + 1) (0x22 :: s) =
      (scanMembers float fuel (0x22 :: rest)).map fun (fields, rest) =>
        ((key, value) :: fields, rest) := by
  simp only [scanMembers, hkey, Option.bind_eq_bind, Option.bind_some,
    skipBlanks_cons (show isBlank 0x3A = false from rfl), hblanks, hvalue,
    skipBlanks_cons (show isBlank 0x2C = false from rfl),
    skipBlanks_cons (show isBlank 0x22 = false from rfl)]
  cases scanMembers float fuel (0x22 :: rest) <;> rfl

lemma scanMembers_last {fuel : ℕ} {s text rest : PyStr} {key : PyStr} {value : Json}
    (hkey : scanString s = some (key, 0x3A :: text)) (hblanks : skipBlanks text = text)
    (hvalue : scanValue float fuel text = some (value, 0x7D :: rest)) :
    scanMembers float (fuel + 1) (0x22 :: s) = some ([(key, value)], rest) := by
  simp only [scanMembers, hkey, Option.bind_eq_bind, Option.bind_some,
    skipBlanks_cons (show isBlank 0x3A = false from rfl), hblanks, hvalue,
    skipBlanks_cons (show isBlank 0x7D = false from rfl)]

lemma dumpsMembers_cons {members : List (PyStr × PyStr)} (h : members ≠ []) :
    ∃ rest, dumpsMembers members = 0x22 :: rest := by
  obtain ⟨m, ms, rfl⟩ := List.exists_cons_of_ne_nil h
  cases ms <;> exact ⟨_, rfl⟩

/-- The members of an object are read back one by one. -/
lemma scanMembers_dumpsMembers {members : List Member} (hne : members ≠ []) {need : ℕ}
    (hwritten : ∀ m ∈ members, Member.WrittenFrom float need m) {fuel : ℕ}
    (hfuel : members.length + need ≤ fuel) (rest : PyStr) :
    scanMembers float fuel (dumpsMembers (members.map Member.text) ++ 0x7D :: rest) =
      some (members.map Member.field, rest) := by
  induction members generalizing fuel with
  | nil => exact absurd rfl hne
  | cons m ms ih =>
    obtain ⟨key, text, value⟩ := m
    obtain ⟨hkey, hrenders⟩ := hwritten _ List.mem_cons_self
    simp only at hkey hrenders
    obtain ⟨fuel, rfl⟩ : ∃ f, fuel = f + 1 := ⟨fuel - 1, by simp at hfuel; omega⟩
    have hneed : need ≤ fuel := by
      simp only [List.length_cons] at hfuel
      omega
    cases ms with
    | nil =>
      have hdumps : dumpsMembers ([(key, text, value)].map Member.text) ++ 0x7D :: rest =
          0x22 :: (key.flatMap escape ++ 0x22 :: 0x3A :: (text ++ 0x7D :: rest)) := by
        simp [dumpsMembers, dumpsString, Member.text]
      rw [hdumps]
      exact scanMembers_last float (scanString_dumpsString hkey _) (hrenders.skipBlanks_append _ _)
        (hrenders.reads fuel hneed _ ⟨0x7D, rest, rfl, .inr rfl⟩)
    | cons m' ms =>
      obtain ⟨more, hmore⟩ := dumpsMembers_cons (show (m' :: ms).map Member.text ≠ [] by simp)
      have hrec := ih (by simp) (fun x hx => hwritten x (List.mem_cons_of_mem _ hx))
        (show (m' :: ms).length + need ≤ fuel by simp at hfuel ⊢; omega)
      rw [hmore, List.cons_append] at hrec
      have hdumps : dumpsMembers (((key, text, value) :: m' :: ms).map Member.text) ++ 0x7D :: rest =
          0x22 :: (key.flatMap escape ++
            0x22 :: 0x3A :: (text ++ 0x2C :: 0x22 :: (more ++ 0x7D :: rest))) := by
        show (dumpsString key ++ 0x3A :: text ++ 0x2C :: dumpsMembers ((m' :: ms).map Member.text)) ++
          0x7D :: rest = _
        rw [hmore]
        simp [dumpsString]
      rw [hdumps, scanMembers_cons float (scanString_dumpsString hkey _)
        (hrenders.skipBlanks_append _ _) (hrenders.reads fuel hneed _ ⟨0x2C, _, rfl, .inl rfl⟩), hrec]
      rfl

/-- An object with members is read back. -/
theorem loads_dumpsObject {members : List Member} (hne : members ≠ [])
    (hwritten : ∀ m ∈ members, Member.Written float m) :
    loads float (dumpsObject (members.map Member.text)) =
      some (.obj (members.map Member.field)) := by
  obtain ⟨more, hmore⟩ := dumpsMembers_cons (show members.map Member.text ≠ [] by simpa using hne)
  have hobject : dumpsObject (members.map Member.text) = 0x7B :: 0x22 :: (more ++ [0x7D]) := by
    rw [dumpsObject, hmore]
    rfl
  have hfuel : members.length + 1 ≤ 2 * (dumpsObject (members.map Member.text)).length + 1 := by
    have hlength := length_le_dumpsMembers (members.map Member.text)
    simp only [List.length_map] at hlength
    simp only [dumpsObject, List.cons_append, List.length_cons, List.length_append]
    omega
  have hscan := scanMembers_dumpsMembers float hne
    (fun m hm => ⟨(hwritten m hm).1, (hwritten m hm).2.from float le_rfl⟩) hfuel []
  rw [hmore, List.cons_append] at hscan
  generalize hbudget : 2 * (dumpsObject (members.map Member.text)).length + 1 = fuel at hscan
  have hvalue : scanValue float (fuel + 1) (0x7B :: 0x22 :: (more ++ [0x7D])) =
      some (.obj (members.map Member.field), []) := by
    simp only [scanValue, skipBlanks_cons (show isBlank 0x22 = false from rfl), hscan,
      Option.map_some]
  have hhead : (dumpsObject (members.map Member.text)).head? ≠ some 0xFEFF := by
    rw [hobject]
    simp
  have hblanks : skipBlanks (dumpsObject (members.map Member.text)) =
      0x7B :: 0x22 :: (more ++ [0x7D]) := by
    rw [hobject]
    exact skipBlanks_cons rfl _
  have hloads : 2 * (dumpsObject (members.map Member.text)).length + 2 = fuel + 1 := by omega
  rw [loads, if_neg hhead, hloads, hblanks, hvalue]
  rfl

end

/-! ## Bytes -/

lemma toNat_toUInt8 {c : ℕ} (h : c < 0x80) : c.toUInt8.toNat = c := by
  simp only [Nat.toUInt8, UInt8.toNat_ofNat']
  omega

lemma decodeUtf8_encodeAscii {s : PyStr} (h : ∀ c ∈ s, c < 0x80) :
    decodeUtf8 (encodeAscii s) = some s := by
  induction s with
  | nil => rfl
  | cons c cs ih =>
    have hc := h c List.mem_cons_self
    have hcs := ih fun d hd => h d (List.mem_cons_of_mem c hd)
    show decodeUtf8 (c.toUInt8 :: encodeAscii cs) = some (c :: cs)
    rw [decodeUtf8.eq_def]
    simp only [toNat_toUInt8 hc, if_pos hc, hcs, Option.map_some]

/-- No ASCII text without null characters looks like another encoding. -/
lemma detectEncoding_ascii {b : Bytes} (h : ∀ x ∈ b, x ≠ 0 ∧ x.toNat < 0x80) :
    detectEncoding b = (.utf8, 0) := by
  have hmark : ∀ mark : Bytes, (∃ x tail, mark = x :: tail ∧ (x = 0 ∨ 0x80 ≤ x.toNat)) →
      mark.isPrefixOf b = false := by
    rintro _ ⟨x, tail, rfl, hx⟩
    rw [Bool.eq_false_iff, ne_eq, List.isPrefixOf_iff_prefix]
    intro hstarts
    obtain ⟨hne, hlt⟩ := h x (hstarts.subset List.mem_cons_self)
    rcases hx with hx | hx
    · exact hne hx
    · omega
  have h1 := hmark [0x00, 0x00, 0xFE, 0xFF] ⟨_, _, rfl, .inl rfl⟩
  have h2 := hmark [0xFF, 0xFE, 0x00, 0x00] ⟨_, _, rfl, .inr (by decide)⟩
  have h3 := hmark [0xFE, 0xFF] ⟨_, _, rfl, .inr (by decide)⟩
  have h4 := hmark [0xFF, 0xFE] ⟨_, _, rfl, .inr (by decide)⟩
  have h5 := hmark [0xEF, 0xBB, 0xBF] ⟨_, _, rfl, .inr (by decide)⟩
  simp only [detectEncoding, h1, h2, h3, h4, h5, Bool.false_eq_true, if_false]
  split
  · next b0 b1 b2 b3 rest =>
    rw [if_neg (h b0 (by simp)).1, if_neg (h b1 (by simp)).1]
  · next b0 b1 =>
    rw [if_neg (h b0 (by simp)).1, if_neg (h b1 (by simp)).1]
  · rfl

lemma mem_encodeAscii {s : PyStr} (h : ∀ c ∈ s, 0 < c ∧ c < 0x80) :
    ∀ x ∈ encodeAscii s, x ≠ 0 ∧ x.toNat < 0x80 := by
  intro x hx
  obtain ⟨c, hc, rfl⟩ := List.mem_map.mp hx
  have hnat := toNat_toUInt8 (h c hc).2
  refine ⟨fun hzero => ?_, by rw [hnat]; exact (h c hc).2⟩
  rw [hzero] at hnat
  exact absurd (h c hc).1 (by rw [← hnat]; decide)

lemma hexDigit_ascii {d : ℕ} (h : d < 16) : 0 < hexDigit d ∧ hexDigit d < 0x80 := by
  unfold hexDigit
  split_ifs <;> omega

lemma uEscape_ascii {n : ℕ} (h : n < 0x10000) : ∀ x ∈ uEscape n, 0 < x ∧ x < 0x80 := by
  intro x hx
  simp only [uEscape, List.mem_cons, List.not_mem_nil, or_false] at hx
  rcases hx with rfl | rfl | rfl | rfl | rfl | rfl
  · omega
  · omega
  all_goals exact hexDigit_ascii (by omega)

lemma escape_ascii {c : ℕ} (h : c < 0x110000) : ∀ x ∈ escape c, 0 < x ∧ x < 0x80 := by
  by_cases hwide : 0x10000 ≤ c
  · have hescape : escape c = uEscape (0xD800 + (c - 0x10000) / 0x400) ++
        uEscape (0xDC00 + (c - 0x10000) % 0x400) := by
      unfold escape
      repeat rw [if_neg (by omega)]
    intro x hx
    rw [hescape, List.mem_append] at hx
    rcases hx with hx | hx
    · exact uEscape_ascii (by omega) x hx
    · exact uEscape_ascii (by omega) x hx
  · have hnarrow : c < 0x10000 := by omega
    unfold escape
    rw [if_pos hnarrow]
    split_ifs
    case neg => exact uEscape_ascii hnarrow
    all_goals
      intro x hx
      simp only [List.mem_cons, List.not_mem_nil, or_false] at hx
      omega

lemma dumpsString_ascii {s : PyStr} (h : IsStr s) :
    ∀ x ∈ dumpsString s, 0 < x ∧ x < 0x80 := by
  intro x hx
  simp only [dumpsString, List.cons_append, List.mem_cons, List.mem_append, List.mem_flatMap,
    List.not_mem_nil, or_false] at hx
  rcases hx with rfl | ⟨c, hc, hx⟩ | rfl
  · omega
  · exact escape_ascii (h c hc) x hx
  · omega

lemma dumpsInt_ascii {n : ℤ} {text : PyStr} (h : dumpsInt n = some text) :
    ∀ x ∈ text, 0 < x ∧ x < 0x80 := by
  have hdigits : ∀ x ∈ ofText (natText n.natAbs), 0 < x ∧ x < 0x80 := by
    intro x hx
    have hdigit := ofText_natText_isDigit n.natAbs x hx
    simp only [isDigit, Bool.and_eq_true, decide_eq_true_eq] at hdigit
    omega
  obtain ⟨digits, hstr, rfl⟩ := Option.map_eq_some_iff.mp h
  unfold str? at hstr
  split_ifs at hstr
  all_goals cases hstr
  · intro x hx
    rcases List.mem_cons.mp hx with rfl | hx
    · decide
    · exact hdigits x hx
  · exact hdigits

lemma dumpsMembers_ascii {members : List (PyStr × PyStr)}
    (hkeys : ∀ m ∈ members, IsStr m.1)
    (hvalues : ∀ m ∈ members, ∀ x ∈ m.2, 0 < x ∧ x < 0x80) :
    ∀ x ∈ dumpsMembers members, 0 < x ∧ x < 0x80 := by
  induction members with
  | nil => simp [dumpsMembers]
  | cons m ms ih =>
    have hkey := dumpsString_ascii (hkeys m List.mem_cons_self)
    have hvalue := hvalues m List.mem_cons_self
    have hrest := ih (fun m' hm' => hkeys m' (List.mem_cons_of_mem m hm'))
      (fun m' hm' => hvalues m' (List.mem_cons_of_mem m hm'))
    intro x hx
    cases ms with
    | nil =>
      simp only [dumpsMembers, List.mem_append, List.mem_cons] at hx
      rcases hx with hx | rfl | hx
      · exact hkey x hx
      · omega
      · exact hvalue x hx
    | cons m' ms =>
      simp only [dumpsMembers, List.mem_append, List.mem_cons] at hx
      rcases hx with (hx | rfl | hx) | rfl | hx
      · exact hkey x hx
      · omega
      · exact hvalue x hx
      · omega
      · exact hrest x hx

lemma dumpsObject_ascii {members : List (PyStr × PyStr)}
    (hkeys : ∀ m ∈ members, IsStr m.1)
    (hvalues : ∀ m ∈ members, ∀ x ∈ m.2, 0 < x ∧ x < 0x80) :
    ∀ x ∈ dumpsObject members, 0 < x ∧ x < 0x80 := by
  intro x hx
  simp only [dumpsObject, List.cons_append, List.mem_cons, List.mem_append, List.not_mem_nil,
    or_false] at hx
  rcases hx with rfl | hx | rfl
  · omega
  · exact dumpsMembers_ascii hkeys hvalues x hx
  · omega

theorem loadsBytes_encodeAscii (float : Text → Text) {s : PyStr} (h : ∀ c ∈ s, 0 < c ∧ c < 0x80) :
    loadsBytes float (encodeAscii s) = loads float s := by
  rw [loadsBytes, decodeBytes, detectEncoding_ascii (mem_encodeAscii h)]
  simp only [List.drop_zero, decodeUtf8_encodeAscii fun c hc => (h c hc).2, Option.bind_some]

end FlowDiscovery.PyJson
