import FlowDiscovery.PyText

/-!
# Instants and `strptime`

An instant is a number of microseconds since the epoch in UTC. Aware datetimes
are compared, hashed and subtracted by their instant, so the zone is not kept.
`strptime` matches the regular expression compiled from its format, with the
backtracking order of that expression written as a list of successes.
-/
namespace FlowDiscovery.PyTime
open FlowDiscovery.PyText

/-- Microseconds since 1970-01-01T00:00:00Z. -/
abbrev Instant := ℤ

def microsPerSecond : ℤ := 1000000

/-- Seconds as an instant or a duration. -/
def seconds (n : ℤ) : Instant := n * microsPerSecond

/-- Two instants a whole number of seconds apart with the same whole seconds left. -/
theorem eq_of_tdiv_eq {start stop stop' now n n' : ℤ} (hstop : stop = start + seconds n)
    (hstop' : stop' = start + seconds n') (h : now < stop) (h' : now < stop')
    (heq : (stop - now).tdiv microsPerSecond = (stop' - now).tdiv microsPerSecond) :
    stop = stop' := by
  rw [Int.tdiv_eq_ediv_of_nonneg (by omega), Int.tdiv_eq_ediv_of_nonneg (by omega)] at heq
  simp only [seconds, microsPerSecond] at hstop hstop' heq
  omega

/-- Instants of `datetime.min` and `datetime.max` (years 1 to 9999). -/
def datetimeMin : Instant := -62135596800000000
def datetimeMax : Instant := 253402300799999999

/-- `t + timedelta(seconds=n)`; `none` is the `OverflowError` raised outside the
supported years. A duration beyond the limits of `timedelta` overflows too. -/
def addSeconds? (t : Instant) (n : ℤ) : Option Instant :=
  let r := t + seconds n
  if datetimeMin ≤ r ∧ r ≤ datetimeMax then some r else none

/-- `datetime.fromtimestamp(n, tz=UTC)` for whole seconds; `none` is its `ValueError`. -/
def fromtimestamp? (n : ℤ) : Option Instant :=
  if datetimeMin ≤ seconds n ∧ seconds n ≤ datetimeMax then some (seconds n) else none

/-- The integer nearest to `n / d`, the even one of two. -/
def roundHalfEven (n d : ℕ) : ℕ :=
  let twice := 2 * (n % d)
  if d < twice ∨ (twice = d ∧ n / d % 2 = 1) then n / d + 1 else n / d

/-- `int(t.timestamp())`. The timestamp is a double: its 53 bits hold the microseconds of
the near future, but late in the year range the last ones round up to a whole second. -/
def wholeSeconds (t : Instant) : ℤ :=
  let micros := t.natAbs
  let scale := 2 ^ (52 - Nat.log2 (micros / 1000000))
  t.sign * (roundHalfEven (micros * scale) 1000000 / scale : ℕ)

example : wholeSeconds 1776867120999999 = 1776867120 := by decide
example : wholeSeconds datetimeMax = 253402300800 := by decide

def isLeap (y : ℕ) : Bool := y % 4 == 0 && (y % 100 != 0 || y % 400 == 0)

def daysInMonth (y m : ℕ) : ℕ :=
  match m with
  | 2 => if isLeap y then 29 else 28
  | 4 | 6 | 9 | 11 => 30
  | _ => 31

/-- Days before January 1st of a year, counted from year 1. -/
def daysBeforeYear (y : ℕ) : ℤ :=
  let p : ℤ := (y : ℤ) - 1
  p * 365 + p / 4 - p / 100 + p / 400

def daysBeforeMonth (y m : ℕ) : ℤ :=
  ((List.range (m - 1)).map fun i => (daysInMonth y (i + 1) : ℤ)).sum

/-- Proleptic Gregorian ordinal of 1970-01-01. -/
def epochOrdinal : ℤ := 719163

/-- `datetime(y, mo, d, h, mi, s, tzinfo=UTC)`; `none` is its `ValueError`. -/
def datetime? (y mo d h mi s : ℕ) : Option Instant :=
  if 1 ≤ y ∧ y ≤ 9999 ∧ 1 ≤ mo ∧ mo ≤ 12 ∧ 1 ≤ d ∧ d ≤ daysInMonth y mo ∧
      h ≤ 23 ∧ mi ≤ 59 ∧ s ≤ 59 then
    let days := daysBeforeYear y + daysBeforeMonth y mo + d - epochOrdinal
    some (seconds (((days * 24 + h) * 60 + mi) * 60 + s))
  else none

/-- A character class of a directive, with the digit the character stands for. -/
abbrev DigitClass := Char → Option ℕ

def digitRange (lo hi : Char) : DigitClass := fun c =>
  if lo ≤ c ∧ c ≤ hi then some (c.toNat - '0'.toNat) else none

def blank : DigitClass := fun c => if c = ' ' then some 0 else none

/-- One element of a compiled format. -/
inductive FormatItem where
  | field (alternatives : List (List DigitClass))
  | literal (c : Char)
  | blanks

def matchClasses : List DigitClass → ℕ → Text → Option (ℕ × Text)
  | [], acc, s => some (acc, s)
  | _ :: _, _, [] => none
  | cls :: rest, acc, c :: cs =>
    match cls c with
    | none => none
    | some d => matchClasses rest (acc * 10 + d) cs

/-- All ways in which one or more blanks can be taken, longest first. -/
def takeBlanks : Text → List Text
  | [] => []
  | c :: cs => if isSpace c then takeBlanks cs ++ [cs] else []

/-- All matches of a format at the start of a text, in backtracking order. -/
def matchFormat : List FormatItem → Text → List (List ℕ × Text)
  | [], s => [([], s)]
  | .field alts :: rest, s =>
    (alts.filterMap fun classes => matchClasses classes 0 s).flatMap fun (v, s') =>
      (matchFormat rest s').map fun (vs, s'') => (v :: vs, s'')
  | .literal c :: rest, s =>
    match s with
    | [] => []
    | x :: s' => if x.toLower = c.toLower then matchFormat rest s' else []
  | .blanks :: rest, s => (takeBlanks s).flatMap (matchFormat rest)

def directiveY : FormatItem := .field [[decimal?, decimal?, decimal?, decimal?]]
def directiveMonth : FormatItem :=
  .field [[digitRange '1' '1', digitRange '0' '2'], [digitRange '0' '0', digitRange '1' '9'],
    [digitRange '1' '9']]
def directiveDay : FormatItem :=
  .field [[digitRange '3' '3', digitRange '0' '1'], [digitRange '1' '2', decimal?],
    [digitRange '0' '0', digitRange '1' '9'], [digitRange '1' '9'], [blank, digitRange '1' '9']]
def directiveHour : FormatItem :=
  .field [[digitRange '2' '2', digitRange '0' '3'], [digitRange '0' '1', decimal?], [decimal?]]
def directiveMinute : FormatItem := .field [[digitRange '0' '5', decimal?], [decimal?]]
def directiveSecond : FormatItem :=
  .field [[digitRange '6' '6', digitRange '0' '1'], [digitRange '0' '5', decimal?], [decimal?]]

/-- `datetime.strptime(s, fmt)` for a format with exactly the six directives of
a date and a time in order. The first match has to use up the whole text. -/
def strptime? (fmt : List FormatItem) (s : Text) : Option Instant :=
  match (matchFormat fmt s).head? with
  | some ([y, mo, d, h, mi, sec], []) => datetime? y mo d h mi sec
  | _ => none

/-- The format `%Y/%m/%d %H:%M:%S`. -/
def slashFormat : List FormatItem :=
  [directiveY, .literal '/', directiveMonth, .literal '/', directiveDay, .blanks,
    directiveHour, .literal ':', directiveMinute, .literal ':', directiveSecond]

/-- The format `%Y-%m-%dT%H:%M:%SZ`. -/
def isoFormat : List FormatItem :=
  [directiveY, .literal '-', directiveMonth, .literal '-', directiveDay, .literal 'T',
    directiveHour, .literal ':', directiveMinute, .literal ':', directiveSecond, .literal 'Z']

example : strptime? slashFormat "2026/04/22 14:12:00".toList = some 1776867120000000 := by decide
example : strptime? isoFormat "2026-2-30T1:02:03Z".toList = none := by decide

end FlowDiscovery.PyTime
