import FlowDiscovery.GroupSums
import FlowDiscovery.TopLinks

/-!
# Historical answers

The view `flows_1m` sums the flows per minute, and the historical mode sums the minutes of
a range once more. Over minutes that are up to date the answer is the one computed from
the flows themselves: those from the first full minute of the range on, summed per key, and
of the links that satisfy the filters the largest. A range that does not start or end on a
minute is moved to the next one.
-/
namespace FlowDiscovery.HistoricalSankey
open PyTime RawFlows SankeyApi GroupSums

/-! ## The view -/

/-- `time_bucket('1 minute', t)`. -/
def minuteOf (t : Instant) : Instant := t - t % seconds 60

/-- The first start of a minute from `t` on. -/
def nextMinute (t : Instant) : Instant := minuteOf (t + seconds 60 - 1)

section

variable {Inet : Type} [DecidableEq Inet]

abbrev Flow (Inet : Type) := FlowRow Instant Inet

def flowKey (r : Flow Inet) : Inet × Inet × ℤ × ℤ := (r.srcIp, r.dstIp, r.dstPort, r.proto)

def amounts (r : Flow Inet) : ℤ × ℤ × ℤ := (r.bytes, r.packets, r.flowCount)

def minuteRow (e : (Instant × Inet × Inet × ℤ × ℤ) × ℤ × ℤ × ℤ) : FlowMinute Inet :=
  ⟨e.1.1, e.1.2.1, e.1.2.2.1, e.1.2.2.2.1, e.1.2.2.2.2, e.2.1, e.2.2.1, e.2.2.2⟩

/-- The query of `flows_1m`. -/
def flows1m (flows : List (Flow Inet)) : List (FlowMinute Inet) :=
  (groupSums (fun r => (minuteOf r.time, flowKey r)) amounts flows).entries.map minuteRow

/-! ## One pass over the flows -/

def groupOf (e : (Inet × Inet × ℤ × ℤ) × ℤ × ℤ × ℤ) : FlowGroup Inet :=
  ⟨e.1.1, e.1.2.1, e.1.2.2.1, e.1.2.2.2, e.2.1, e.2.2.1, e.2.2.2⟩

/-- The flows of a range, and for each key in them the sums over its flows. -/
def rangeGroups (flows : List (Flow Inet)) (fromTs toTs : Instant) : List (FlowGroup Inet) :=
  let rows := flows.filter fun r => fromTs ≤ r.time ∧ r.time < toTs
  (rows.map flowKey).dedup.map fun k =>
    groupOf (k, ((rows.filter fun r => flowKey r = k).map amounts).sum)

def rangeLinks (inet : InetType Inet) (flows : List (Flow Inet)) (fromTs toTs : Instant) :
    List Link :=
  (rangeGroups flows fromTs toTs).map (FlowGroup.link inet)

/-! ## Two passes are one -/

def minuteAmounts (r : FlowMinute Inet) : ℤ × ℤ × ℤ := (r.bytes, r.packets, r.flowCount)

lemma groupMinutes_eq (table : List (FlowMinute Inet)) (fromTs toTs : Instant) :
    groupMinutes table fromTs toTs =
      (groupSums FlowMinute.key minuteAmounts
        (table.filter fun r => fromTs ≤ r.bucket ∧ r.bucket < toTs)).entries.map groupOf := rfl

/-- A minute starts in a range when its flows are in the range moved to full minutes. -/
lemma le_minuteOf_iff (t t' : Instant) : t ≤ minuteOf t' ↔ nextMinute t ≤ t' := by
  have haligned : ∀ n n' : ℤ, n ≤ n' - n' % (60 * 1000000) ↔
      n + 60 * 1000000 - 1 - (n + 60 * 1000000 - 1) % (60 * 1000000) ≤ n' := by omega
  exact haligned t t'

lemma inRange_iff (fromTs toTs t : Instant) : fromTs ≤ minuteOf t ∧ minuteOf t < toTs ↔
    nextMinute fromTs ≤ t ∧ t < nextMinute toTs := by
  rw [le_minuteOf_iff, ← not_le, le_minuteOf_iff, not_le]

theorem groupMinutes_flows1m (flows : List (Flow Inet)) (fromTs toTs : Instant) :
    (groupMinutes (flows1m flows) fromTs toTs).Perm
      (rangeGroups flows (nextMinute fromTs) (nextMinute toTs)) := by
  have hregroup := regroup_perm (fun r : Flow Inet => (minuteOf r.time, flowKey r)) amounts
    Prod.snd (fun k => fromTs ≤ k.1 ∧ k.1 < toTs) flows
  have hlisted := groupSums_listed flowKey amounts
    (flows.filter fun r => fromTs ≤ minuteOf r.time ∧ minuteOf r.time < toTs)
  have hminutes : groupMinutes (flows1m flows) fromTs toTs =
      (groupSums (fun e : (Instant × Inet × Inet × ℤ × ℤ) × ℤ × ℤ × ℤ => e.1.2) Prod.snd
        ((groupSums (fun r => (minuteOf r.time, flowKey r)) amounts flows).entries.filter
          fun e => fromTs ≤ e.1.1 ∧ e.1.1 < toTs)).entries.map groupOf := by
    rw [groupMinutes_eq, flows1m, List.filter_map, groupSums_map]
    rfl
  rw [hminutes]
  refine ((hregroup.trans hlisted).map groupOf).trans ?_
  simp only [rangeGroups, inRange_iff, List.map_map]
  exact List.Perm.refl _

/-! ## The answer -/

/-- The minutes of a range hold all flows so far. -/
def UpToDate (minutes : List (FlowMinute Inet)) (flows : List (Flow Inet))
    (fromTs toTs : Instant) : Prop :=
  (minutes.filter fun r => fromTs ≤ r.bucket ∧ r.bucket < toTs).Perm
    ((flows1m flows).filter fun r => fromTs ≤ r.bucket ∧ r.bucket < toTs)

lemma groupMinutes_perm {minutes : List (FlowMinute Inet)} {flows : List (Flow Inet)}
    {fromTs toTs : Instant} (h : UpToDate minutes flows fromTs toTs) :
    (groupMinutes minutes fromTs toTs).Perm (groupMinutes (flows1m flows) fromTs toTs) := by
  rw [groupMinutes_eq, groupMinutes_eq]
  exact (groupSums_perm _ _ h).map groupOf

/-- Whatever order the database returns the groups in. -/
lemma historicalLinks_perm {src : Sources Inet} {flows : List (Flow Inet)} {fromTs toTs : Instant}
    (h : UpToDate src.minutes flows fromTs toTs) : (historicalLinks src fromTs toTs).Perm
      (rangeLinks src.inet flows (nextMinute fromTs) (nextMinute toTs)) := by
  have hscan := src.scan.perm (groupMinutes src.minutes fromTs toTs)
  exact ((hscan.trans (groupMinutes_perm h)).trans (groupMinutes_flows1m flows fromTs toTs)).map _

end

/-- The largest links do not depend on the order of all of them. -/
lemma exactTop_perm {limit : ℕ} {f : LinkFilter} {links links' : List Link} {r : SankeyResponse}
    (h : ExactTop limit f links r) (hperm : links.Perm links') : ExactTop limit f links' r where
  selected := h.selected.trans hperm.subperm
  satisfied := h.satisfied
  count := by rw [h.count, hperm.countP_eq]
  ranked := h.ranked
  largest := by
    obtain ⟨omitted, hlisted, hle⟩ := h.largest
    exact ⟨omitted, hlisted.trans (hperm.filter _), hle⟩
  total := by rw [h.total, hperm.countP_eq]
  truncated := by rw [h.truncated, hperm.countP_eq]

section

variable {Inet : Type} [DecidableEq Inet]

lemma sankey_range {src : Sources Inet} {q : SankeyQuery} {fromTs toTs : Instant}
    (hmode : q.mode = .historical) (hfrom : q.fromTs = some fromTs) (hto : q.toTs = some toTs) :
    sankey src q = (filterLinks q.filter (historicalLinks src fromTs toTs)).map
      (respond q.limit (historicalBase src fromTs toTs)) := by
  simp only [sankey, baseOf, hmode, hfrom, hto]
  rfl

/-- For every content of the table, range, filter and limit, over minutes that are up to
date in the range. -/
theorem historical_exactTop (src : Sources Inet) (q : SankeyQuery) (flows : List (Flow Inet))
    {fromTs toTs : Instant} (hmode : q.mode = .historical) (hfrom : q.fromTs = some fromTs)
    (hto : q.toTs = some toTs) (hminutes : UpToDate src.minutes flows fromTs toTs) :
    ((∃ r, sankey src q = .ok r) ↔ q.filter.Valid) ∧
    ∀ r, sankey src q = .ok r → ExactTop q.limit q.filter
      (rangeLinks src.inet flows (nextMinute fromTs) (nextMinute toTs)) r := by
  rw [sankey_range hmode hfrom hto]
  by_cases hvalid : q.filter.Valid
  · rw [filterLinks_satisfies hvalid]
    refine ⟨iff_of_true ⟨_, rfl⟩ hvalid, fun r hr => ?_⟩
    obtain rfl := Except.ok.inj hr
    exact exactTop_perm (exactTop_respond q.limit q.filter _ _) (historicalLinks_perm hminutes)
  · rw [filterLinks_of_not_valid hvalid]
    refine ⟨iff_of_false ?_ hvalid, fun r hr => ?_⟩
    · rintro ⟨r, hr⟩
      cases hr
    · cases hr

end

lemma https_range : -2 ^ 31 ≤ (443 : ℤ) ∧ (443 : ℤ) < 2 ^ 31 := by decide

/-- One flow in the second minute, and one in the third. -/
def twoFlows : List (Flow (Fin 2)) :=
  [⟨seconds 90, ⟨0, Nat.zero_lt_two⟩, ⟨1, Nat.one_lt_two⟩, 443, 6, 100, 2, 1, "correlator", https_range⟩,
    ⟨seconds 130, ⟨0, Nat.zero_lt_two⟩, ⟨1, Nat.one_lt_two⟩, 443, 6, 50, 1, 1, "correlator", https_range⟩]

/-- A range that starts and ends within a minute, of which only the full minute is up to
date in the view. -/
def unalignedQuery : SankeyQuery :=
  ⟨.historical, 200, noFilter, some (seconds 30), some (seconds 100), Nat.le_add_left 1 199,
    Nat.le_add_right 200 800⟩

theorem historical_exactTop_unaligned :
    ∃ r, sankey oneMinute unalignedQuery = .ok r ∧
      r.links = [⟨"ip:10.0.0.1/32", "app:10.0.0.2/32:443", 100, 1, 0⟩] ∧
      ExactTop 200 noFilter (rangeLinks twoHosts twoFlows (seconds 60) (seconds 120)) r := by
  obtain ⟨_, htop⟩ := historical_exactTop oneMinute unalignedQuery twoFlows rfl rfl rfl
    (.of_eq rfl)
  exact ⟨_, rfl, by decide +kernel, htop _ rfl⟩

end FlowDiscovery.HistoricalSankey
