import FlowDiscovery.IdentityIndex
import FlowDiscovery.Machine

/-!
# The declarative resolution rule

The surviving bindings of an address are the fold of its events in arrival
order: a start adds its interval, a stop removes the intervals of its user, or
all of them when it names none. A lookup answers with a maximal surviving
binding that covers the probed instant. The index refines this rule as long as
the probes of each address do not go back in time; what a later probe takes away
from an earlier one is characterised at the end.
-/
namespace FlowDiscovery.IdentityIndex
open PyTime BindingInterval Machine

/-! ## Specification -/

/-- Effect of one event on the bindings of an address. -/
def applyEvent (ip : String) (bindings : Finset BindingInterval) (ev : IndexEvent) :
    Finset BindingInterval :=
  if ev.srcIp ≠ ip then bindings
  else if IsStop ev then
    match ev.userUpn with
    | none => ∅
    | some u => bindings.filter fun iv => iv.data.userUpn ≠ u
  else (startInterval? ev).toFinset ∪ bindings

/-- Bindings of an address after the events, in arrival order. -/
def survivors (ip : String) (events : List IndexEvent) : Finset BindingInterval :=
  events.foldl (applyEvent ip) ∅

/-- The interval of a start is `[ts, ts + ttl)` with the event's own data. It
exists for a positive TTL, a given user and an end that is a `datetime`. -/
theorem startInterval?_eq_some_iff (ev : IndexEvent) (iv : BindingInterval) :
    startInterval? ev = some iv ↔
      ¬ IsStop ev ∧ (addSeconds? ev.ts ev.ttlSeconds).isSome ∧ 0 < ev.ttlSeconds ∧
      iv.beginTs = ev.ts ∧ iv.endTs = ev.ts + seconds ev.ttlSeconds ∧
      ev.userUpn = some iv.data.userUpn ∧ iv.data.confidence = ev.confidence ∧
      iv.data.source = ev.source := by
  unfold startInterval?
  by_cases hstop : IsStop ev
  · simp [hstop]
  by_cases hrange : (addSeconds? ev.ts ev.ttlSeconds).isSome
  · cases hu : ev.userUpn with
    | none => simp [hstop, closing?, hrange]
    | some user =>
      by_cases hpos : 0 < ev.ttlSeconds
      · have hlt : ev.ts < ev.ts + seconds ev.ttlSeconds :=
          lt_add_of_pos_right _ (mul_pos hpos (by decide))
        have hiv : iv.beginTs = iv.data.tStart := iv.begin_eq
        simp only [hstop, closing?, hrange, hlt, hpos, if_true, if_false, dif_pos,
          not_false_eq_true, true_and, Option.some.injEq]
        obtain ⟨b, e, ⟨u, c, src, t⟩, _, _⟩ := iv
        simp only [intervalOf, BindingInterval.mk.injEq, Binding.mk.injEq]
        simp only at hiv
        constructor
        · rintro ⟨rfl, rfl, rfl, rfl, rfl, rfl⟩
          exact ⟨rfl, rfl, rfl, rfl, rfl⟩
        · rintro ⟨rfl, rfl, rfl, rfl, rfl⟩
          exact ⟨rfl, rfl, rfl, rfl, rfl, hiv⟩
      · have hlt : ¬ ev.ts < ev.ts + seconds ev.ttlSeconds :=
          fun h => hpos (pos_of_lt_add_seconds h)
        simp [hstop, closing?, hrange, hlt, hpos]
  · simp [hstop, closing?, hrange]

/-! ## Runs of the index -/

/-- One operation on the index. The order in which sets are listed may change
from call to call. -/
inductive Op where
  | insert (ev : IndexEvent)
  | resolve (order : SetOrder BindingInterval) (ip : String) (t : Instant)

def step (idx : IdentityIndex) : Op → IdentityIndex
  | .insert ev => (idx.insert ev).1
  | .resolve order ip t => (idx.resolve order ip t).2

def Op.event? : Op → Option IndexEvent
  | .insert ev => some ev
  | .resolve _ _ _ => none

/-- The instant at which an operation probes the address, if it does. -/
def Op.probe? (ip : String) : Op → Option Instant
  | .insert _ => none
  | .resolve _ ip' t => if ip' = ip then some t else none

def eventsOf (ops : List Op) : List IndexEvent := ops.filterMap Op.event?

def probesOf (ip : String) (ops : List Op) : List Instant := ops.filterMap (Op.probe? ip)

/-- The probes of each address never go back in time. -/
def ProbesOrdered (ops : List Op) : Prop := ∀ ip, (probesOf ip ops).Pairwise (· ≤ ·)

/-- The tree holds surviving bindings only, and every missing one had ended by
some probe of the address. -/
def Simulates (idx : IdentityIndex) (ops : List Op) : Prop :=
  ∀ ip, idx.tree ip ⊆ survivors ip (eventsOf ops) ∧
    ∀ iv ∈ survivors ip (eventsOf ops), iv ∉ idx.tree ip → ∃ p ∈ probesOf ip ops, iv.endTs ≤ p

theorem insert_tree (idx : IdentityIndex) (ev : IndexEvent) (ip : String) :
    (idx.insert ev).1.tree ip = applyEvent ip (idx.tree ip) ev := by
  unfold applyEvent
  by_cases hstop : IsStop ev
  · rw [insert_stop idx ev hstop, invalidate_tree]
    by_cases hip : ev.srcIp = ip
    · cases ev.userUpn <;> simp [hip, hstop]
    · simp [hip]
  · rw [(insert_start idx ev hstop ip).1]
    by_cases hip : ev.srcIp = ip <;> simp [hip, hstop]

theorem applyEvent_mono {ip : String} {s t : Finset BindingInterval} (h : s ⊆ t)
    (ev : IndexEvent) : applyEvent ip s ev ⊆ applyEvent ip t ev := by
  unfold applyEvent
  split_ifs
  · exact h
  · cases ev.userUpn with
    | none => exact Finset.Subset.refl _
    | some u => exact Finset.filter_subset_filter _ h
  · exact Finset.union_subset_union_right h

/-- An event keeps a difference between two sets of bindings, or removes it. -/
theorem mem_of_mem_applyEvent {ip : String} {s t : Finset BindingInterval} {ev : IndexEvent}
    {iv : BindingInterval} (ht : iv ∈ applyEvent ip t ev) (hs : iv ∉ applyEvent ip s ev) :
    iv ∈ t ∧ iv ∉ s := by
  unfold applyEvent at ht hs
  split_ifs at ht hs
  · exact ⟨ht, hs⟩
  · cases hu : ev.userUpn with
    | none => simp [hu] at ht
    | some u =>
      simp only [hu, Finset.mem_filter, not_and, not_not] at ht hs
      exact ⟨ht.1, fun hmem => ht.2 (hs hmem)⟩
  · rw [Finset.mem_union, not_or] at hs
    exact ⟨(Finset.mem_union.mp ht).resolve_left hs.1, hs.2⟩

theorem simulates_insert {idx : IdentityIndex} {ops : List Op} (h : Simulates idx ops)
    (ev : IndexEvent) : Simulates (step idx (.insert ev)) (ops ++ [.insert ev]) := by
  intro ip
  obtain ⟨hsub, hgone⟩ := h ip
  have hevents : survivors ip (eventsOf (ops ++ [.insert ev])) =
      applyEvent ip (survivors ip (eventsOf ops)) ev := by
    simp [survivors, eventsOf, Op.event?]
  have hprobes : probesOf ip (ops ++ [.insert ev]) = probesOf ip ops := by
    simp [probesOf, Op.probe?]
  rw [hevents, hprobes, step, insert_tree]
  refine ⟨applyEvent_mono hsub ev, fun iv hiv hnot => ?_⟩
  obtain ⟨hmem, hmissing⟩ := mem_of_mem_applyEvent hiv hnot
  exact hgone iv hmem hmissing

theorem simulates_resolve {idx : IdentityIndex} {ops : List Op} (h : Simulates idx ops)
    (order : SetOrder BindingInterval) (ip : String) (t : Instant) :
    Simulates (step idx (.resolve order ip t)) (ops ++ [.resolve order ip t]) := by
  intro ip'
  obtain ⟨hsub, hgone⟩ := h ip'
  have hevents : eventsOf (ops ++ [.resolve order ip t]) = eventsOf ops := by
    simp [eventsOf, Op.event?]
  have hprobes : probesOf ip' (ops ++ [.resolve order ip t]) =
      probesOf ip' ops ++ if ip = ip' then [t] else [] := by
    by_cases hip : ip = ip' <;> simp [probesOf, Op.probe?, hip]
  rw [hevents, hprobes, step, resolve_tree]
  split_ifs with hip
  · refine ⟨(Finset.filter_subset _ _).trans hsub, fun iv hiv hnot => ?_⟩
    by_cases hmem : iv ∈ idx.tree ip'
    · have hended : iv.endTs ≤ t := by simpa [hmem] using hnot
      exact ⟨t, by simp, hended⟩
    · obtain ⟨p, hp, hle⟩ := hgone iv hiv hmem
      exact ⟨p, List.mem_append_left _ hp, hle⟩
  · refine ⟨hsub, fun iv hiv hnot => ?_⟩
    obtain ⟨p, hp, hle⟩ := hgone iv hiv hnot
    exact ⟨p, List.mem_append_left _ hp, hle⟩

theorem run_simulates (ops : List Op) : Simulates (run step fresh ops) ops := by
  induction ops using List.reverseRecOn with
  | nil => exact fun ip => ⟨by simp, by simp [survivors, eventsOf]⟩
  | append_singleton ops op ih =>
    rw [run_append, run_cons, run_nil]
    cases op with
    | insert ev => exact simulates_insert ih ev
    | resolve order ip t => exact simulates_resolve ih order ip t

/-- What a lookup answers, by the rule: nothing exactly when no binding covers the
instant, else the data of a covering binding that is maximal in confidence and
start. -/
structure Answers (bindings : Finset BindingInterval) (t : Instant) (r : Option Resolved) :
    Prop where
  none_iff : r = none ↔ ¬ ∃ iv ∈ bindings, Covers t iv
  maximal : ∀ a, r = some a → ∃ iv ∈ bindings, Covers t iv ∧ a = answer t iv ∧
    ∀ iv' ∈ bindings, Covers t iv' → iv'.rank ≤ iv.rank

theorem resolve_answers_tree (idx : IdentityIndex) (order : SetOrder BindingInterval)
    (ip : String) (t : Instant) : Answers (idx.tree ip) t (idx.resolve order ip t).1 := by
  rw [resolve_answer]
  constructor
  · rw [Option.map_eq_none_iff, winner_eq_none_iff, Finset.filter_eq_empty_iff]
    simp
  · intro a ha
    obtain ⟨iv, hiv, rfl⟩ := Option.map_eq_some_iff.mp ha
    obtain ⟨hmem, hmax⟩ := winner_maximal hiv
    obtain ⟨htree, hcov⟩ := Finset.mem_filter.mp hmem
    exact ⟨iv, htree, hcov, rfl, fun iv' h h' => hmax iv' (Finset.mem_filter.mpr ⟨h, h'⟩)⟩

/-- The answer only depends on the bindings that cover the instant. -/
theorem Answers.congr {s s' : Finset BindingInterval} {t : Instant} {r : Option Resolved}
    (h : Answers s t r) (heq : ∀ iv, Covers t iv → (iv ∈ s ↔ iv ∈ s')) : Answers s' t r where
  none_iff := by
    rw [h.none_iff]
    refine not_congr (exists_congr fun iv => ?_)
    constructor
    · exact fun hiv => ⟨(heq iv hiv.2).mp hiv.1, hiv.2⟩
    · exact fun hiv => ⟨(heq iv hiv.2).mpr hiv.1, hiv.2⟩
  maximal := by
    intro a ha
    obtain ⟨iv, hiv, hcov, hans, hmax⟩ := h.maximal a ha
    exact ⟨iv, (heq iv hcov).mp hiv, hcov, hans,
      fun iv' hiv' hcov' => hmax iv' ((heq iv' hcov').mpr hiv') hcov'⟩

/-- A lookup follows the rule on the surviving bindings when no earlier probe of
the address is later than it: what was evicted had ended. -/
theorem resolve_answers_survivors (before : List Op) (order : SetOrder BindingInterval)
    (ip : String) (t : Instant) (hle : ∀ p ∈ probesOf ip before, p ≤ t) :
    Answers (survivors ip (eventsOf before)) t
      ((run step fresh before).resolve order ip t).1 := by
  obtain ⟨hsub, hgone⟩ := run_simulates before ip
  refine (resolve_answers_tree _ order ip t).congr fun iv hcov => ⟨fun h => hsub h, fun h => ?_⟩
  by_contra hnot
  obtain ⟨p, hp, hend⟩ := hgone iv h hnot
  exact absurd hcov.2 (not_lt.mpr (hend.trans (hle p hp)))

/-- In every run whose probes of each address are non-decreasing, every lookup
answers by the declarative rule on the surviving bindings. -/
theorem resolve_refines_rule (ops : List Op) (h : ProbesOrdered ops) (before : List Op)
    (order : SetOrder BindingInterval) (ip : String) (t : Instant) (after : List Op)
    (hsplit : ops = before ++ .resolve order ip t :: after) :
    Answers (survivors ip (eventsOf before)) t
      ((run step fresh before).resolve order ip t).1 := by
  apply resolve_answers_survivors
  intro p hp
  have hpair := h ip
  rw [hsplit, probesOf, List.filterMap_append, List.filterMap_cons_some (b := t)] at hpair
  · exact (List.pairwise_append.mp hpair).2.2 p hp t (by simp)
  · simp [Op.probe?]

def logonAt (ts : ℤ) (user : String) (confidence ttl : ℤ) : IndexEvent where
  srcIp := "10.0.0.5"
  ts := seconds ts
  eventType := .logon
  ttlSeconds := ttl
  userUpn := some user
  confidence := confidence
  source := "ad_4624"

/-- Two overlapping sessions and a probe, before the stronger session stops. -/
noncomputable def overlappingSessions : List Op :=
  [.insert (logonAt 100 "alice" 70 60), .insert (logonAt 110 "bob" 90 60),
    .resolve (.choice _) "10.0.0.5" (seconds 120),
    .insert { logonAt 130 "bob" 90 0 with eventType := .nacAuthStop }]

/-- After the stop of the stronger session the weaker one answers. -/
theorem resolve_refines_rule_overlapping :
    let probe := Op.resolve (.choice _) "10.0.0.5" (seconds 140)
    let r := ((run step fresh overlappingSessions).resolve (.choice _) "10.0.0.5" (seconds 140)).1
    ProbesOrdered (overlappingSessions ++ [probe]) ∧
      Answers (survivors "10.0.0.5" (eventsOf overlappingSessions)) (seconds 140) r ∧
      r.map Resolved.userUpn = some "alice" := by
  intro probe r
  have hordered : ProbesOrdered (overlappingSessions ++ [probe]) := by
    intro ip
    by_cases hip : "10.0.0.5" = ip
    · simp [overlappingSessions, probe, probesOf, List.filterMap_cons, Op.probe?, hip, seconds,
        microsPerSecond]
    · simp [overlappingSessions, probe, probesOf, List.filterMap_cons, Op.probe?, hip]
  have hanswers : Answers (survivors "10.0.0.5" (eventsOf overlappingSessions)) (seconds 140) r :=
    resolve_refines_rule _ hordered overlappingSessions _ _ _ [] rfl
  refine ⟨hordered, hanswers, ?_⟩
  have hevents : eventsOf overlappingSessions = [logonAt 100 "alice" 70 60,
      logonAt 110 "bob" 90 60, { logonAt 130 "bob" 90 0 with eventType := .nacAuthStop }] := rfl
  have hone : ∃ iv ∈ survivors "10.0.0.5" (eventsOf overlappingSessions),
      Covers (seconds 140) iv := by
    rw [hevents]
    decide
  have huser : ∀ iv ∈ survivors "10.0.0.5" (eventsOf overlappingSessions),
      iv.data.userUpn = "alice" := by
    rw [hevents]
    decide
  cases hr : r with
  | none => exact absurd hone (hanswers.none_iff.mp hr)
  | some a =>
    obtain ⟨iv, hiv, _, rfl, _⟩ := hanswers.maximal a hr
    exact congrArg some (huser iv hiv)

/-! ## Probes that go back in time -/

/-- An answer determines its interval: two bindings with one start end a whole
number of seconds apart. -/
theorem answer_injective {t : Instant} {iv iv' : BindingInterval} (hcov : Covers t iv)
    (hcov' : Covers t iv') (h : answer t iv = answer t iv') : iv = iv' := by
  obtain ⟨b, e, ⟨u, c, src, ts⟩, hb, ⟨n, _, hn⟩⟩ := iv
  obtain ⟨b', e', ⟨u', c', src', ts'⟩, hb', ⟨n', _, hn'⟩⟩ := iv'
  simp only [answer, Resolved.mk.injEq] at h
  obtain ⟨rfl, rfl, rfl, rfl, hrem⟩ := h
  simp only [Covers] at hcov hcov' hb hb' hn hn'
  subst hb hb'
  obtain rfl := eq_of_tdiv_eq hn hn' hcov.2 hcov'.2 hrem
  rfl

/-- Two different sets can be listed with any two of their elements in front. -/
theorem exists_order_heads {α : Type*} [DecidableEq α] {s₁ s₂ : Finset α} (hne : s₁ ≠ s₂)
    {m₁ m₂ : α} (h₁ : m₁ ∈ s₁) (h₂ : m₂ ∈ s₂) :
    ∃ order : SetOrder α, (∃ rest, order.list s₁ = m₁ :: rest) ∧
      ∃ rest, order.list s₂ = m₂ :: rest := by
  have hlist : ∀ (s : Finset α) (m : α), m ∈ s →
      ((m :: (s.erase m).toList : List α) : Multiset α) = s.val := by
    intro s m hm
    rw [← Multiset.cons_coe, Finset.coe_toList, Finset.erase_val]
    exact Multiset.cons_erase hm
  refine ⟨⟨fun s => if s = s₁ then m₁ :: (s₁.erase m₁).toList
    else if s = s₂ then m₂ :: (s₂.erase m₂).toList else s.toList, ?_⟩, ⟨_, if_pos rfl⟩,
    ⟨(s₂.erase m₂).toList, by simp [hne.symm]⟩⟩
  intro s
  split_ifs with hs₁ hs₂
  · exact hs₁ ▸ hlist s₁ m₁ h₁
  · exact hs₂ ▸ hlist s₂ m₂ h₂
  · exact Finset.coe_toList s

/-- A lookup at `t₂` has no influence on a lookup at `t₁` that follows it, in
whatever order the sets are listed. -/
def ProbeHarmless (idx : IdentityIndex) (ip : String) (t₁ t₂ : Instant) : Prop :=
  ∀ order₁ order₂, ((idx.resolve order₂ ip t₂).2.resolve order₁ ip t₁).1 =
    (idx.resolve order₁ ip t₁).1

/-- Bindings that a lookup at `t₁` sees after one at `t₂`. -/
theorem probeHarmless_iff_winner (idx : IdentityIndex) (ip : String) (t₁ t₂ : Instant) :
    ProbeHarmless idx ip t₁ t₂ ↔ ∀ order,
      (winner order ((idx.tree ip).filter fun iv => Covers t₁ iv ∧ t₂ < iv.endTs)).map
        (answer t₁) = (winner order ((idx.tree ip).filter (Covers t₁))).map (answer t₁) := by
  have hfilter : ((idx.tree ip).filter fun iv => ¬ iv.endTs ≤ t₂).filter (Covers t₁) =
      (idx.tree ip).filter fun iv => Covers t₁ iv ∧ t₂ < iv.endTs := by
    ext iv
    simp only [Finset.mem_filter, not_le]
    tauto
  simp only [ProbeHarmless, resolve_answer, resolve_tree, if_true, hfilter]
  exact ⟨fun h order => h order order, fun h order _ => h order⟩

/-- A strict maximum wins whatever the order. -/
theorem winner_of_strict_max (order : SetOrder BindingInterval) {hits : Finset BindingInterval}
    {iv : BindingInterval} (hiv : iv ∈ hits)
    (hmax : ∀ iv' ∈ hits, iv' ≠ iv → iv'.rank < iv.rank) : winner order hits = some iv := by
  cases hw : winner order hits with
  | none =>
    rw [(winner_eq_none_iff order hits).mp hw] at hiv
    exact absurd hiv (Finset.notMem_empty _)
  | some w =>
    obtain ⟨hmem, hle⟩ := winner_maximal hw
    by_contra hne
    have hlt := hmax w hmem fun h => hne (congrArg some h)
    exact absurd (hle iv hiv) (not_le.mpr hlt)

/-- If a harmless probe evicts a covering binding, all listings agree on the best
one, so it is unique and was not evicted. -/
theorem best_survives_of_harmless {idx : IdentityIndex} {ip : String} {t₁ t₂ : Instant}
    (h : ProbeHarmless idx ip t₁ t₂) {x : BindingInterval} (hx : x ∈ idx.tree ip)
    (hcov : Covers t₁ x) (hended : ¬ t₂ < x.endTs) :
    ∃ iv ∈ idx.tree ip, Covers t₁ iv ∧ t₂ < iv.endTs ∧
      ∀ iv' ∈ idx.tree ip, Covers t₁ iv' → iv' ≠ iv → iv'.rank < iv.rank := by
  rw [probeHarmless_iff_winner] at h
  set seen := (idx.tree ip).filter (Covers t₁) with hseen
  set left := (idx.tree ip).filter fun iv => Covers t₁ iv ∧ t₂ < iv.endTs with hleft
  have hxseen : x ∈ seen := Finset.mem_filter.mpr ⟨hx, hcov⟩
  have hne : left ≠ seen := by
    intro he
    exact hended (Finset.mem_filter.mp (he ▸ hxseen)).2.2
  have hleftne : left.Nonempty := by
    rw [Finset.nonempty_iff_ne_empty]
    intro he
    have hw := h (.choice _)
    rw [he, winner_empty, Option.map_none, eq_comm, Option.map_eq_none_iff,
      winner_eq_none_iff] at hw
    exact absurd (hw ▸ hxseen) (Finset.notMem_empty _)
  obtain ⟨m₁, hm₁, hmax₁⟩ := seen.exists_max_image rank ⟨x, hxseen⟩
  obtain ⟨m₂, hm₂, hmax₂⟩ := left.exists_max_image rank hleftne
  obtain ⟨hm₂tree, hm₂cov, hm₂live⟩ := Finset.mem_filter.mp hm₂
  -- any maximal covering binding can be listed first, so each of them is `m₂`
  have huniq : ∀ m ∈ seen, (∀ iv ∈ seen, iv.rank ≤ m.rank) → m = m₂ := by
    intro m hm hmax
    obtain ⟨order, ⟨_, hl₂⟩, ⟨_, hl₁⟩⟩ := exists_order_heads hne hm₂ hm
    have hw := h order
    rw [winner_of_list_cons hl₂ hmax₂, winner_of_list_cons hl₁ hmax] at hw
    exact (answer_injective hm₂cov (Finset.mem_filter.mp hm).2 (Option.some.inj hw)).symm
  have hm₁eq := huniq m₁ hm₁ hmax₁
  refine ⟨m₂, hm₂tree, hm₂cov, hm₂live, fun iv' hiv' hcov' hneq => ?_⟩
  have hiv'seen : iv' ∈ seen := Finset.mem_filter.mpr ⟨hiv', hcov'⟩
  refine lt_of_le_of_ne (hm₁eq ▸ hmax₁ iv' hiv'seen) fun hrank => hneq ?_
  exact huniq iv' hiv'seen fun iv hiv => hrank ▸ hm₁eq ▸ hmax₁ iv hiv

/-- A lookup at `t₂` leaves the answer at `t₁` alone if and only if no binding
that covers `t₁` has ended by `t₂`, or the best of them is unique and has not.
Probes in time order are always harmless. -/
theorem probeHarmless_iff (idx : IdentityIndex) (ip : String) (t₁ t₂ : Instant) :
    (ProbeHarmless idx ip t₁ t₂ ↔
      (∀ iv ∈ idx.tree ip, Covers t₁ iv → t₂ < iv.endTs) ∨
      ∃ iv ∈ idx.tree ip, Covers t₁ iv ∧ t₂ < iv.endTs ∧
        ∀ iv' ∈ idx.tree ip, Covers t₁ iv' → iv' ≠ iv → iv'.rank < iv.rank) ∧
    (t₂ ≤ t₁ → ProbeHarmless idx ip t₁ t₂) := by
  have hkept : (∀ iv ∈ idx.tree ip, Covers t₁ iv → t₂ < iv.endTs) →
      ProbeHarmless idx ip t₁ t₂ := by
    intro h
    rw [probeHarmless_iff_winner]
    intro order
    congr 2
    exact Finset.filter_congr fun iv hiv => ⟨fun hc => hc.1, fun hc => ⟨hc, h iv hiv hc⟩⟩
  refine ⟨⟨fun h => ?_, fun h => h.elim hkept ?_⟩,
    fun hle => hkept fun iv _ hcov => lt_of_le_of_lt hle hcov.2⟩
  · by_cases hall : ∀ iv ∈ idx.tree ip, Covers t₁ iv → t₂ < iv.endTs
    · exact .inl hall
    · simp only [not_forall] at hall
      obtain ⟨x, hx, hcov, hended⟩ := hall
      exact .inr (best_survives_of_harmless h hx hcov hended)
  · rintro ⟨iv, hiv, hcov, hlive, hmax⟩
    rw [probeHarmless_iff_winner]
    intro order
    rw [@winner_of_strict_max order _ iv, @winner_of_strict_max order _ iv]
    all_goals simp only [Finset.mem_filter]
    · exact ⟨hiv, hcov⟩
    · exact fun iv' h => hmax iv' h.1 h.2
    · exact ⟨hiv, hcov, hlive⟩
    · exact fun iv' h => hmax iv' h.1 h.2.1

/-- The interval from 100 to 160. -/
def minuteInterval : BindingInterval :=
  intervalOf (logonAt 100 "alice" 70 60) "alice" (seconds 160) (by decide) (by decide)

/-- A binding from 100 to 160 answers at 150, unless 200 was probed before. -/
theorem later_probe_changes_answer :
    let idx := (fresh.insert (logonAt 100 "alice" 70 60)).1
    let order := SetOrder.choice BindingInterval
    (idx.resolve order "10.0.0.5" (seconds 150)).1 =
        some ⟨"alice", 70, "ad_4624", seconds 100, 10⟩ ∧
      ((idx.resolve order "10.0.0.5" (seconds 200)).2.resolve order "10.0.0.5" (seconds 150)).1 =
        none ∧
      ¬ ProbeHarmless idx "10.0.0.5" (seconds 150) (seconds 200) := by
  intro idx order
  have hseen : (idx.tree "10.0.0.5").filter (Covers (seconds 150)) = {minuteInterval} := by
    decide
  have hfirst : (idx.resolve order "10.0.0.5" (seconds 150)).1 =
      some ⟨"alice", 70, "ad_4624", seconds 100, 10⟩ := by
    rw [resolve_answer, hseen, winner_of_strict_max order (Finset.mem_singleton_self _)]
    · decide
    · exact fun iv hiv hne => absurd (Finset.mem_singleton.mp hiv) hne
  have hsecond : ((idx.resolve order "10.0.0.5" (seconds 200)).2.resolve order "10.0.0.5"
      (seconds 150)).1 = none := by
    rw [resolve_answer, resolve_tree, if_pos rfl, Option.map_eq_none_iff, winner_eq_none_iff]
    decide
  refine ⟨hfirst, hsecond, fun h => ?_⟩
  have heq := h order order
  rw [hfirst, hsecond] at heq
  cases heq

end FlowDiscovery.IdentityIndex
