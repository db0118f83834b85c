import FlowDiscovery.Machine

/-!
# The token bucket of the PTR lookups

`_TokenBucket.take` holds the bucket's lock from its first reading of the clock to
its end, so takes follow each other, and one that finds less than a whole token
sleeps in between. Nothing is suspended behind the last reading of the clock: a take
completes at that reading. Numbers are exact rationals.
-/
namespace FlowDiscovery.TokenBucket
open Machine

structure Config where
  ratePerS : ℚ
  rate_pos : 0 < ratePerS

def Config.capacity (cfg : Config) : ℚ := max 1 cfg.ratePerS

/-- `sleeping` says that some take holds the lock and waits. The times at which takes
completed are a history. -/
structure State where
  tokens : ℚ
  last : ℚ
  sleeping : Bool
  completed : List ℚ

/-- `_TokenBucket(rate_per_s)` at a reading of the clock. -/
def initial (cfg : Config) (now : ℚ) : State := ⟨cfg.capacity, now, false, []⟩

/-- A take gets the lock, a sleeping take wakes up, or is cancelled in its sleep.
Readings of the clock are part of the action. -/
inductive Action where
  | acquire (now : ℚ)
  | wake (now : ℚ)
  | cancel
  deriving DecidableEq

/-- `(1.0 - self._tokens) / self._rate`. -/
def wait (cfg : Config) (s : State) : ℚ := (1 - s.tokens) / cfg.ratePerS

def refill (cfg : Config) (s : State) (now : ℚ) : ℚ :=
  min cfg.capacity (s.tokens + (now - s.last) * cfg.ratePerS)

def step (cfg : Config) (s : State) : Action → State
  | .acquire now =>
    if s.sleeping then s
    else
      let tokens := refill cfg s now
      if tokens < 1 then { s with tokens := tokens, last := now, sleeping := true }
      else { s with tokens := tokens - 1, last := now, completed := s.completed ++ [now] }
  | .wake now =>
    if s.sleeping then ⟨0, now, false, s.completed ++ [now]⟩ else s
  | .cancel => { s with sleeping := false }

/-- The clock does not go back and a sleep lasts at least as long as asked for. -/
def Timely (cfg : Config) (s : State) : Action → Prop
  | .acquire now => s.last ≤ now
  | .wake now => s.sleeping → s.last + wait cfg s ≤ now
  | .cancel => True

instance (cfg : Config) (s : State) (a : Action) : Decidable (Timely cfg s a) := by
  cases a <;> unfold Timely <;> infer_instance

/-! ## One step -/

/-- What one action can do. -/
theorem step_cases (cfg : Config) (s : State) (a : Action) (h : Timely cfg s a) :
    step cfg s a = s ∨ step cfg s a = { s with sleeping := false } ∨
    (∃ now, s.last ≤ now ∧ refill cfg s now < 1 ∧
      step cfg s a = { s with tokens := refill cfg s now, last := now, sleeping := true }) ∨
    (∃ now, s.last ≤ now ∧ s.sleeping = false ∧ 1 ≤ refill cfg s now ∧
      step cfg s a = { s with
        tokens := refill cfg s now - 1, last := now, completed := s.completed ++ [now] }) ∨
    ∃ now, s.last + wait cfg s ≤ now ∧ s.sleeping ∧
      step cfg s a = ⟨0, now, false, s.completed ++ [now]⟩ := by
  cases a with
  | acquire now =>
    simp only [step]
    split_ifs with hlock hlow
    · exact .inl rfl
    · exact .inr (.inr (.inl ⟨now, h, hlow, rfl⟩))
    · exact .inr (.inr (.inr (.inl ⟨now, h, eq_false_of_ne_true hlock, not_lt.mp hlow, rfl⟩)))
  | wake now =>
    simp only [step]
    split_ifs with hlock
    · exact .inr (.inr (.inr (.inr ⟨now, h hlock, hlock, rfl⟩)))
    · exact .inl rfl
  | cancel => exact .inr (.inl rfl)

/-- The tokens are in range, a sleeping take has found less than one, and no take has
completed after the last reading of the clock. -/
structure InRange (cfg : Config) (s : State) : Prop where
  tokens_nonneg : 0 ≤ s.tokens
  tokens_le : s.tokens ≤ cfg.capacity
  sleeping_low : s.sleeping → s.tokens < 1
  completed_le : ∀ c ∈ s.completed, c ≤ s.last

lemma capacity_ge_one (cfg : Config) : 1 ≤ cfg.capacity := le_max_left _ _

lemma refill_nonneg {cfg : Config} {s : State} (hs : InRange cfg s) {now : ℚ} (h : s.last ≤ now) :
    0 ≤ refill cfg s now := by
  have hearned : 0 ≤ (now - s.last) * cfg.ratePerS :=
    mul_nonneg (sub_nonneg.mpr h) cfg.rate_pos.le
  have hcap := capacity_ge_one cfg
  apply le_min
  · linarith
  · linarith [hs.tokens_nonneg]

/-- A sleep lasts long enough to earn what was missing. -/
lemma wait_earns (cfg : Config) (s : State) {now : ℚ} (h : s.last + wait cfg s ≤ now) :
    1 ≤ s.tokens + (now - s.last) * cfg.ratePerS := by
  have hwait : (1 - s.tokens) / cfg.ratePerS ≤ now - s.last := by
    rw [wait] at h
    linarith
  have hearned := (div_le_iff₀ cfg.rate_pos).mp hwait
  linarith

lemma last_le_of_wait {cfg : Config} {s : State} (hs : InRange cfg s) (hsleep : s.sleeping)
    {now : ℚ} (h : s.last + wait cfg s ≤ now) : s.last ≤ now := by
  have hlow := hs.sleeping_low hsleep
  have hwait : 0 ≤ wait cfg s := div_nonneg (by linarith) cfg.rate_pos.le
  linarith

theorem initial_inRange (cfg : Config) (now : ℚ) : InRange cfg (initial cfg now) where
  tokens_nonneg := zero_le_one.trans (capacity_ge_one cfg)
  tokens_le := le_rfl
  sleeping_low := by simp [initial]
  completed_le := by simp [initial]

lemma completed_append_le {s : State} {now : ℚ} (hs : ∀ c ∈ s.completed, c ≤ s.last)
    (h : s.last ≤ now) : ∀ c ∈ s.completed ++ [now], c ≤ now := by
  intro c hc
  rcases List.mem_append.mp hc with hc | hc
  · exact (hs c hc).trans h
  · exact (List.mem_singleton.mp hc).le

theorem step_inRange {cfg : Config} {s : State} (hs : InRange cfg s) {a : Action}
    (ha : Timely cfg s a) : InRange cfg (step cfg s a) := by
  obtain he | he | ⟨now, hnow, hlow, he⟩ | ⟨now, hnow, hawake, hone, he⟩ | ⟨now, hnow, hsleep, he⟩ :=
    step_cases cfg s a ha
  all_goals rw [he]
  · exact hs
  · exact ⟨hs.tokens_nonneg, hs.tokens_le, by simp, hs.completed_le⟩
  · exact ⟨refill_nonneg hs hnow, min_le_left _ _, fun _ => hlow,
      fun c hc => (hs.completed_le c hc).trans hnow⟩
  · have hcap : refill cfg s now ≤ cfg.capacity := min_le_left _ _
    exact ⟨sub_nonneg.mpr hone, by linarith, by simp [hawake],
      completed_append_le hs.completed_le hnow⟩
  · have hcap := capacity_ge_one cfg
    exact ⟨le_rfl, by linarith, by simp,
      completed_append_le hs.completed_le (last_le_of_wait hs hsleep hnow)⟩

/-! ## The budget of an interval -/

/-- Takes that completed from `lo` to `hi`. -/
def completions (lo hi : ℚ) (completed : List ℚ) : ℕ :=
  completed.countP fun c => lo ≤ c ∧ c ≤ hi

lemma completions_append (lo hi : ℚ) (completed : List ℚ) (now : ℚ) :
    completions lo hi (completed ++ [now]) =
      completions lo hi completed + if lo ≤ now ∧ now ≤ hi then 1 else 0 := by
  simp [completions, List.countP_append, List.countP_singleton]

lemma completions_eq_zero {lo hi : ℚ} {completed : List ℚ} (h : ∀ c ∈ completed, c < lo) :
    completions lo hi completed = 0 := by
  rw [completions, List.countP_eq_zero]
  intro c hc
  simp [h c hc]

/-- Until the clock leaves the interval, a take that has completed in it and the tokens
that are left were paid from a full bucket and what was earned since its start. -/
structure Budget (cfg : Config) (lo hi : ℚ) (s : State) : Prop where
  count_le : (completions lo hi s.completed : ℚ) ≤ cfg.capacity + cfg.ratePerS * (hi - lo)
  potential : s.last ≤ hi → completions lo hi s.completed = 0 ∨
    (completions lo hi s.completed : ℚ) + s.tokens ≤
      cfg.capacity + cfg.ratePerS * (s.last - lo)

theorem initial_budget (cfg : Config) {lo hi : ℚ} (hle : lo ≤ hi) (now : ℚ) :
    Budget cfg lo hi (initial cfg now) where
  count_le := by
    have hearned : 0 ≤ cfg.ratePerS * (hi - lo) :=
      mul_nonneg cfg.rate_pos.le (sub_nonneg.mpr hle)
    have hcap := capacity_ge_one cfg
    simp only [initial, completions, List.countP_nil, Nat.cast_zero]
    linarith
  potential _ := .inl rfl

/-- Time passes and no take completes. -/
lemma Budget.wait {cfg : Config} {lo hi : ℚ} {s : State} (hb : Budget cfg lo hi s) {now : ℚ}
    (hnow : s.last ≤ now) {tokens : ℚ}
    (hearned : tokens ≤ s.tokens + (now - s.last) * cfg.ratePerS) (sleeping : Bool) :
    Budget cfg lo hi ⟨tokens, now, sleeping, s.completed⟩ where
  count_le := hb.count_le
  potential hhi := by
    obtain hzero | hpaid := hb.potential (hnow.trans hhi)
    · exact .inl hzero
    · right
      dsimp only
      linarith

/-- A take that completes is paid by a full bucket if it is the first one in the
interval, and by what was earned since the last reading if it is not. -/
lemma Budget.complete {cfg : Config} {lo hi : ℚ} {s : State} (hs : InRange cfg s)
    (hb : Budget cfg lo hi s) {now : ℚ} (hnow : s.last ≤ now) {tokens : ℚ} (hnonneg : 0 ≤ tokens)
    (hfull : tokens + 1 ≤ cfg.capacity)
    (hearned : tokens + 1 ≤ s.tokens + (now - s.last) * cfg.ratePerS) :
    Budget cfg lo hi ⟨tokens, now, false, s.completed ++ [now]⟩ := by
  have hpotential : now ≤ hi → completions lo hi (s.completed ++ [now]) = 0 ∨
      (completions lo hi (s.completed ++ [now]) : ℚ) + tokens ≤
        cfg.capacity + cfg.ratePerS * (now - lo) := by
    intro hhi
    rcases lt_or_ge now lo with hbefore | hlo
    · exact .inl (completions_eq_zero fun c hc =>
        (completed_append_le hs.completed_le hnow c hc).trans_lt hbefore)
    · right
      have hlength : 0 ≤ cfg.ratePerS * (now - lo) :=
        mul_nonneg cfg.rate_pos.le (sub_nonneg.mpr hlo)
      rw [completions_append, if_pos ⟨hlo, hhi⟩]
      push_cast
      obtain hzero | hpaid := hb.potential (hnow.trans hhi)
      · rw [hzero]
        push_cast
        linarith
      · linarith
  refine ⟨?_, hpotential⟩
  dsimp only
  rcases lt_or_ge hi now with hafter | hhi
  · rw [completions_append, if_neg fun h => absurd h.2 hafter.not_ge, Nat.add_zero]
    exact hb.count_le
  · obtain hzero | hpaid := hpotential hhi
    · have hbound : (0 : ℚ) ≤ completions lo hi s.completed := Nat.cast_nonneg _
      rw [hzero, Nat.cast_zero]
      exact hbound.trans hb.count_le
    · have hend : cfg.ratePerS * (now - lo) ≤ cfg.ratePerS * (hi - lo) :=
        mul_le_mul_of_nonneg_left (by linarith) cfg.rate_pos.le
      linarith

theorem step_budget {cfg : Config} {lo hi : ℚ} {s : State} (hs : InRange cfg s)
    (hb : Budget cfg lo hi s) {a : Action} (ha : Timely cfg s a) :
    Budget cfg lo hi (step cfg s a) := by
  obtain he | he | ⟨now, hnow, hlow, he⟩ | ⟨now, hnow, hawake, hone, he⟩ | ⟨now, hnow, hsleep, he⟩ :=
    step_cases cfg s a ha
  all_goals rw [he]
  · exact hb
  · exact ⟨hb.count_le, hb.potential⟩
  · exact hb.wait hnow (min_le_right _ _) true
  · have hcap : refill cfg s now ≤ cfg.capacity := min_le_left _ _
    have hearned : refill cfg s now ≤ s.tokens + (now - s.last) * cfg.ratePerS := min_le_right _ _
    rw [hawake]
    exact hb.complete hs hnow (by linarith) (by linarith) (by linarith)
  · have hearned := wait_earns cfg s hnow
    have hcap := capacity_ge_one cfg
    exact hb.complete hs (last_le_of_wait hs hsleep hnow) le_rfl (by linarith) (by linarith)

/-- However the takes follow each other, at any time the tokens are within the capacity,
and in every closed interval no more takes complete than a full bucket and the tokens
earned in it allow. -/
theorem takes_within_rate (cfg : Config) (start : ℚ) (actions : List Action)
    (h : Along (step cfg) (Timely cfg) (initial cfg start) actions) :
    Throughout (step cfg) (fun s => 0 ≤ s.tokens ∧ s.tokens ≤ max 1 cfg.ratePerS)
      (initial cfg start) actions ∧
    ∀ lo hi : ℚ, lo ≤ hi →
      (completions lo hi (run (step cfg) (initial cfg start) actions).completed : ℚ) ≤
        max 1 cfg.ratePerS + cfg.ratePerS * (hi - lo) := by
  constructor
  · have hrange := throughout_of_along (I := InRange cfg) (fun _ _ hs ha => step_inRange hs ha)
      (initial_inRange cfg start) h
    exact hrange.mono fun s hs => ⟨hs.tokens_nonneg, hs.tokens_le⟩
  · intro lo hi hle
    have hbudget := throughout_of_along (I := fun s => InRange cfg s ∧ Budget cfg lo hi s)
      (fun _ _ hs ha => ⟨step_inRange hs.1 ha, step_budget hs.1 hs.2 ha⟩)
      ⟨initial_inRange cfg start, initial_budget cfg hle start⟩ h
    exact hbudget.last.2.count_le

def twoPerSecond : Config := ⟨2, two_pos⟩

/-- Three takes at once at two per second: the third one completes after it has slept for
half a second and a tenth more. -/
theorem takes_within_rate_three :
    let takes := [.acquire 10, .acquire 10, .acquire 10, .wake (106 / 10)]
    let s := run (step twoPerSecond) (initial twoPerSecond 10) takes
    s.completed = [10, 10, 106 / 10] ∧
      (completions 10 (105 / 10) s.completed : ℚ) ≤ max 1 2 + 2 * (105 / 10 - 10) := by
  refine ⟨by decide +kernel, ?_⟩
  apply (takes_within_rate twoPerSecond 10 _ _).2
  · norm_num
  · decide +kernel

end FlowDiscovery.TokenBucket
