import FlowDiscovery.PyTime

/-!
# `strftime`

The directives of a date and a time are written with leading zeros, and `strptime` with
the same format reads the date and the time back.
-/
namespace FlowDiscovery.PyStrftime
open PyText PyTime

/-- The fields of a `datetime` in UTC. From the year 1000 on `%Y` has four digits. -/
structure Stamp where
  year : ℕ
  month : ℕ
  day : ℕ
  hour : ℕ
  minute : ℕ
  second : ℕ
  year_range : 1000 ≤ year ∧ year ≤ 9999
  month_range : 1 ≤ month ∧ month ≤ 12
  day_range : 1 ≤ day ∧ day ≤ daysInMonth year month
  time_range : hour ≤ 23 ∧ minute ≤ 59 ∧ second ≤ 59

/-- The instant without its microseconds. -/
def Stamp.instant (t : Stamp) : Instant :=
  let days := daysBeforeYear t.year + daysBeforeMonth t.year t.month + t.day - epochOrdinal
  seconds (((days * 24 + t.hour) * 60 + t.minute) * 60 + t.second)

/-- A directive of two digits. -/
def pad2 (n : ℕ) : Text := if n < 10 then '0' :: natText n else natText n

/-- `%Y`, `%m` and `%d` with a character between them. -/
def Stamp.date (t : Stamp) (sep : Char) : Text :=
  natText t.year ++ sep :: (pad2 t.month ++ sep :: pad2 t.day)

/-- `%H:%M:%S`. -/
def Stamp.time (t : Stamp) : Text := pad2 t.hour ++ ':' :: (pad2 t.minute ++ ':' :: pad2 t.second)

/-- `%Y/%m/%d %H:%M:%S`. -/
def Stamp.slashText (t : Stamp) : Text := t.date '/' ++ ' ' :: t.time

lemma isDigit_of_mem_pad2 {n : ℕ} {c : Char} (h : c ∈ pad2 n) : c.isDigit := by
  unfold pad2 at h
  split_ifs at h
  · rcases List.mem_cons.mp h with rfl | h
    · rfl
    · exact isDigit_of_mem_natText h
  · exact isDigit_of_mem_natText h

lemma mem_date {t : Stamp} {sep c : Char} (h : c ∈ t.date sep) : c.isDigit ∨ c = sep := by
  simp only [Stamp.date, List.mem_append, List.mem_cons] at h
  rcases h with h | rfl | h | rfl | h
  · exact .inl (isDigit_of_mem_natText h)
  · exact .inr rfl
  · exact .inl (isDigit_of_mem_pad2 h)
  · exact .inr rfl
  · exact .inl (isDigit_of_mem_pad2 h)

lemma mem_time {t : Stamp} {c : Char} (h : c ∈ t.time) : c.isDigit ∨ c = ':' := by
  simp only [Stamp.time, List.mem_append, List.mem_cons] at h
  rcases h with h | rfl | h | rfl | h
  · exact .inl (isDigit_of_mem_pad2 h)
  · exact .inr rfl
  · exact .inl (isDigit_of_mem_pad2 h)
  · exact .inr rfl
  · exact .inl (isDigit_of_mem_pad2 h)

lemma length_natText_year {y : ℕ} (h : 1000 ≤ y ∧ y ≤ 9999) : (natText y).length = 4 := by
  have hle : (natText y).length ≤ 4 := (Nat.length_toDigits_le_iff (by omega) (by omega)).mpr (by omega)
  have hnot : ¬ (natText y).length ≤ 3 := by
    rw [natText, Nat.length_toDigits_le_iff (by omega) (by omega)]
    omega
  omega

lemma length_pad2_le {n : ℕ} (h : n < 100) : (pad2 n).length ≤ 3 := by
  have hle : (natText n).length ≤ 2 := (Nat.length_toDigits_le_iff (by omega) (by omega)).mpr h
  unfold pad2
  split_ifs
  · rw [List.length_cons]
    omega
  · omega

lemma daysInMonth_le (y m : ℕ) : daysInMonth y m ≤ 31 := by
  unfold daysInMonth
  split
  · split_ifs <;> omega
  all_goals omega

lemma length_slashText_le (t : Stamp) : t.slashText.length ≤ 24 := by
  obtain ⟨hhour, hminute, hsecond⟩ := t.time_range
  have hyear := length_natText_year t.year_range
  have hmonth := length_pad2_le (Nat.lt_of_le_of_lt t.month_range.2 (by decide : 12 < 100))
  have hday := length_pad2_le (Nat.lt_of_le_of_lt (t.day_range.2.trans (daysInMonth_le _ _))
    (by decide : 31 < 100))
  have hhour := length_pad2_le (Nat.lt_of_le_of_lt hhour (by decide : 23 < 100))
  have hminute := length_pad2_le (Nat.lt_of_le_of_lt hminute (by decide : 59 < 100))
  have hsecond := length_pad2_le (Nat.lt_of_le_of_lt hsecond (by decide : 59 < 100))
  simp only [Stamp.slashText, Stamp.date, Stamp.time, List.length_append, List.length_cons]
  omega

/-! ## Reading back -/

/-- The first way to read the text up to `rest` gives the number. -/
def Reads (item : FormatItem) (s : Text) (n : ℕ) (rest : Text) : Prop :=
  ∃ alts, item = .field alts ∧
    (alts.filterMap fun classes => matchClasses classes 0 s).head? = some (n, rest)

lemma head?_matchFormat_field {item : FormatItem} {items : List FormatItem} {s s' s'' : Text}
    {n : ℕ} {ns : List ℕ} (hread : Reads item s n s')
    (hrest : (matchFormat items s').head? = some (ns, s'')) :
    (matchFormat (item :: items) s).head? = some (n :: ns, s'') := by
  obtain ⟨alts, rfl, hfirst⟩ := hread
  obtain ⟨others, hothers⟩ := List.head?_eq_some_iff.mp hfirst
  obtain ⟨more, hmore⟩ := List.head?_eq_some_iff.mp hrest
  simp only [matchFormat, hothers, List.flatMap_cons, hmore]
  rfl

lemma reads_month {n : ℕ} (h : 1 ≤ n ∧ n ≤ 12) (rest : Text) :
    Reads directiveMonth (pad2 n ++ rest) n rest := by
  obtain ⟨h1, h2⟩ := h
  refine ⟨_, rfl, ?_⟩
  interval_cases n <;> rfl

lemma reads_day {n : ℕ} (h : 1 ≤ n ∧ n ≤ 31) (rest : Text) :
    Reads directiveDay (pad2 n ++ rest) n rest := by
  obtain ⟨h1, h2⟩ := h
  refine ⟨_, rfl, ?_⟩
  interval_cases n <;> rfl

lemma reads_hour {n : ℕ} (h : n ≤ 23) (rest : Text) :
    Reads directiveHour (pad2 n ++ rest) n rest := by
  refine ⟨_, rfl, ?_⟩
  interval_cases n <;> rfl

lemma reads_minute {n : ℕ} (h : n ≤ 59) (rest : Text) :
    Reads directiveMinute (pad2 n ++ rest) n rest := by
  refine ⟨_, rfl, ?_⟩
  interval_cases n <;> rfl

lemma reads_second {n : ℕ} (h : n ≤ 59) (rest : Text) :
    Reads directiveSecond (pad2 n ++ rest) n rest := by
  refine ⟨_, rfl, ?_⟩
  interval_cases n <;> rfl

lemma matchClasses_digits {s : Text} (h : ∀ c ∈ s, c.isDigit) (acc : ℕ) (rest : Text) :
    matchClasses (List.replicate s.length decimal?) acc (s ++ rest) =
      some (Nat.ofDigitChars 10 s acc, rest) := by
  induction s generalizing acc with
  | nil => rfl
  | cons c cs ih =>
    have hc := decimal?_of_isDigit (h c List.mem_cons_self)
    have hcs := ih fun d hd => h d (List.mem_cons_of_mem c hd)
    rw [List.length_cons, List.replicate_succ, List.cons_append, matchClasses, hc]
    simp only [hcs, Nat.ofDigitChars_cons]
    rw [mul_comm, digitValue]
    rfl

lemma reads_year {y : ℕ} (h : 1000 ≤ y ∧ y ≤ 9999) (rest : Text) :
    Reads directiveY (natText y ++ rest) y rest := by
  have hdigits := matchClasses_digits (fun c hc => isDigit_of_mem_natText (n := y) hc) 0 rest
  rw [length_natText_year h, natText, Nat.ofDigitChars_ten_toDigits] at hdigits
  have hyear : matchClasses [decimal?, decimal?, decimal?, decimal?] 0 (natText y ++ rest) =
      some (y, rest) := hdigits
  exact ⟨_, rfl, by simp [hyear]⟩

lemma matchFormat_literal (c : Char) (items : List FormatItem) (s : Text) :
    matchFormat (.literal c :: items) (c :: s) = matchFormat items s := if_pos rfl

/-- One blank, with no other one behind it. -/
lemma matchFormat_blanks {s : Text} (h : ∀ c ∈ s.head?, isSpace c = false)
    (items : List FormatItem) : matchFormat (.blanks :: items) (' ' :: s) = matchFormat items s := by
  have htake : takeBlanks (' ' :: s) = [s] := by
    cases s with
    | nil => rfl
    | cons c cs =>
      have hc : isSpace c = false := h c rfl
      have hblank : isSpace ' ' = true := rfl
      simp [takeBlanks, hc, hblank]
  rw [matchFormat, htake, List.flatMap_singleton]

lemma isSpace_head?_time (t : Stamp) : ∀ c ∈ t.time.head?, isSpace c = false := by
  intro c hc
  rcases mem_time (List.mem_of_mem_head? hc) with h | rfl
  · exact isSpace_of_decimal (by rw [decimal?_of_isDigit h]; rfl)
  · rfl

lemma head?_matchFormat_time (t : Stamp) :
    (matchFormat [directiveHour, .literal ':', directiveMinute, .literal ':', directiveSecond]
      t.time).head? = some ([t.hour, t.minute, t.second], []) := by
  obtain ⟨hhour, hminute, hsecond⟩ := t.time_range
  refine head?_matchFormat_field (reads_hour hhour _) ?_
  rw [matchFormat_literal]
  refine head?_matchFormat_field (reads_minute hminute _) ?_
  rw [matchFormat_literal]
  have hread := reads_second hsecond []
  rw [List.append_nil] at hread
  exact head?_matchFormat_field hread rfl

theorem strptime?_slashText (t : Stamp) : strptime? slashFormat t.slashText = some t.instant := by
  have hday : 1 ≤ t.day ∧ t.day ≤ 31 := ⟨t.day_range.1, t.day_range.2.trans (daysInMonth_le _ _)⟩
  have hmatch : (matchFormat slashFormat t.slashText).head? =
      some ([t.year, t.month, t.day, t.hour, t.minute, t.second], []) := by
    rw [Stamp.slashText, Stamp.date, List.append_assoc, List.cons_append, List.append_assoc,
      List.cons_append]
    refine head?_matchFormat_field (reads_year t.year_range _) ?_
    rw [matchFormat_literal]
    refine head?_matchFormat_field (reads_month t.month_range _) ?_
    rw [matchFormat_literal]
    refine head?_matchFormat_field (reads_day hday _) ?_
    rw [matchFormat_blanks (isSpace_head?_time t)]
    exact head?_matchFormat_time t
  have hdate : datetime? t.year t.month t.day t.hour t.minute t.second = some t.instant := by
    have hyear := t.year_range
    exact if_pos ⟨by omega, hyear.2, t.month_range.1, t.month_range.2, t.day_range.1, t.day_range.2,
      t.time_range.1, t.time_range.2.1, t.time_range.2.2⟩
  rw [strptime?, hmatch]
  exact hdate

end FlowDiscovery.PyStrftime
