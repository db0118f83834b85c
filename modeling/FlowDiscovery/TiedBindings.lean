import FlowDiscovery.IdentityResolution

/-!
# Tied bindings

A lookup sorts the covering bindings by confidence and start and takes the first.
Bindings that tie on both stay in the order in which the set was listed. So the
user that a lookup names depends on the enumeration exactly when, at some instant,
two leading starts are for different users; the arrival order never matters.
-/
namespace FlowDiscovery.IdentityIndex
open PyTime BindingInterval Machine

/-- A start for one address. -/
def StartOf (ip : String) : Type := {ev : IndexEvent // ev.srcIp = ip ∧ ¬ IsStop ev}

instance (ip : String) : DecidableEq (StartOf ip) :=
  inferInstanceAs (DecidableEq {ev : IndexEvent // ev.srcIp = ip ∧ ¬ IsStop ev})

/-- The index after the starts have arrived in the order of the list. -/
def indexAfter {ip : String} (arrival : List (StartOf ip)) : IdentityIndex :=
  run step fresh (arrival.map fun ev => .insert ev.1)

/-- The start has a binding that covers the instant. -/
def ActiveAt (t : Instant) (ev : IndexEvent) : Prop :=
  ∃ iv, startInterval? ev = some iv ∧ Covers t iv

/-- No start of the set that is active at the instant has a greater confidence, nor
the same confidence and a later time. -/
structure Leads {ip : String} (starts : Finset (StartOf ip)) (t : Instant) (ev : StartOf ip) :
    Prop where
  mem : ev ∈ starts
  active : ActiveAt t ev.1
  foremost : ∀ ev' ∈ starts, ActiveAt t ev'.1 →
    ev'.1.confidence < ev.1.confidence ∨
      ev'.1.confidence = ev.1.confidence ∧ ev'.1.ts ≤ ev.1.ts

/-- Whatever the two arrival orders and the two enumerations, a lookup names the
same user. -/
def ResolvesAlike {ip : String} (starts : Finset (StartOf ip)) : Prop :=
  ∀ arrival arrival' : List (StartOf ip), (arrival : Multiset (StartOf ip)) = starts.val →
    (arrival' : Multiset (StartOf ip)) = starts.val →
    ∀ (order order' : SetOrder BindingInterval) (t : Instant),
      ((indexAfter arrival).resolve order ip t).1.map Resolved.userUpn =
        ((indexAfter arrival').resolve order' ip t).1.map Resolved.userUpn

/-- Starts that lead together are for one user. -/
def LeadersAgree {ip : String} (starts : Finset (StartOf ip)) : Prop :=
  ∀ t ev ev', Leads starts t ev → Leads starts t ev' → ev.1.userUpn = ev'.1.userUpn

/-! ## The tree after the starts -/

theorem mem_tree_indexAfter {ip : String} (arrival : List (StartOf ip)) (iv : BindingInterval) :
    iv ∈ (indexAfter arrival).tree ip ↔ ∃ ev ∈ arrival, startInterval? ev.1 = some iv := by
  induction arrival using List.reverseRecOn with
  | nil => simp [indexAfter]
  | append_singleton arrival ev ih =>
    have hstep : indexAfter (arrival ++ [ev]) = ((indexAfter arrival).insert ev.1).1 := by
      rw [indexAfter, List.map_append, run_append]
      rfl
    have htree := (insert_start (indexAfter arrival) ev.1 ev.2.2 ip).1
    rw [if_pos ev.2.1] at htree
    rw [hstep, htree, Finset.mem_union, Option.mem_toFinset, Option.mem_def, ih]
    simp only [List.mem_append, List.mem_singleton, or_and_right, exists_or, exists_eq_left]
    exact or_comm

/-- The bindings that compete in a lookup. -/
def hitsAt {ip : String} (arrival : List (StartOf ip)) (t : Instant) : Finset BindingInterval :=
  ((indexAfter arrival).tree ip).filter (Covers t)

theorem mem_hitsAt {ip : String} {starts : Finset (StartOf ip)} {arrival : List (StartOf ip)}
    (h : (arrival : Multiset (StartOf ip)) = starts.val) (t : Instant) (iv : BindingInterval) :
    iv ∈ hitsAt arrival t ↔
      ∃ ev ∈ starts, startInterval? ev.1 = some iv ∧ Covers t iv := by
  have hmem : ∀ ev, ev ∈ arrival ↔ ev ∈ starts := by
    intro ev
    rw [← Multiset.mem_coe, h, Finset.mem_val]
  simp only [hitsAt, Finset.mem_filter, mem_tree_indexAfter, hmem]
  constructor
  · rintro ⟨⟨ev, hev, hiv⟩, hcov⟩
    exact ⟨ev, hev, hiv, hcov⟩
  · rintro ⟨ev, hev, hiv, hcov⟩
    exact ⟨⟨ev, hev, hiv⟩, hcov⟩

/-- The interval of a start has its confidence, start and user. -/
theorem startInterval?_data {ev : IndexEvent} {iv : BindingInterval}
    (h : startInterval? ev = some iv) :
    iv.rank = toLex (ev.confidence, ev.ts) ∧ ev.userUpn = some iv.data.userUpn := by
  obtain ⟨_, _, _, hbegin, _, huser, hconf, _⟩ := (startInterval?_eq_some_iff ev iv).mp h
  rw [rank, hconf, ← iv.begin_eq, hbegin]
  exact ⟨rfl, huser⟩

/-- Leading starts are the maximal competitors. -/
theorem leads_iff_maximal {ip : String} {starts : Finset (StartOf ip)}
    {arrival : List (StartOf ip)} (h : (arrival : Multiset (StartOf ip)) = starts.val)
    {t : Instant} {ev : StartOf ip} (hev : ev ∈ starts) {iv : BindingInterval}
    (hiv : startInterval? ev.1 = some iv) (hcov : Covers t iv) :
    Leads starts t ev ↔ ∀ iv' ∈ hitsAt arrival t, iv'.rank ≤ iv.rank := by
  have hrank := (startInterval?_data hiv).1
  constructor
  · intro hleads iv' hiv'
    obtain ⟨ev', hev', hstart, hcov'⟩ := (mem_hitsAt h t iv').mp hiv'
    rw [hrank, (startInterval?_data hstart).1, Prod.Lex.toLex_le_toLex]
    exact hleads.foremost ev' hev' ⟨iv', hstart, hcov'⟩
  · intro hmax
    refine ⟨hev, ⟨iv, hiv, hcov⟩, fun ev' hev' hactive => ?_⟩
    obtain ⟨iv', hstart, hcov'⟩ := hactive
    have hle := hmax iv' ((mem_hitsAt h t iv').mpr ⟨ev', hev', hstart, hcov'⟩)
    rwa [hrank, (startInterval?_data hstart).1, Prod.Lex.toLex_le_toLex] at hle

/-! ## The user that is named -/

theorem resolve_user (idx : IdentityIndex) (order : SetOrder BindingInterval) (ip : String)
    (t : Instant) :
    (idx.resolve order ip t).1.map Resolved.userUpn =
      (winner order ((idx.tree ip).filter (Covers t))).map fun iv => iv.data.userUpn := by
  rw [resolve_answer, Option.map_map]
  rfl

/-- The winner belongs to a leading start. -/
theorem exists_leads_of_winner {ip : String} {starts : Finset (StartOf ip)}
    {arrival : List (StartOf ip)} (h : (arrival : Multiset (StartOf ip)) = starts.val)
    {order : SetOrder BindingInterval} {t : Instant} {iv : BindingInterval}
    (hw : winner order (hitsAt arrival t) = some iv) :
    ∃ ev, Leads starts t ev ∧ ev.1.userUpn = some iv.data.userUpn := by
  obtain ⟨hmem, hmax⟩ := winner_maximal hw
  obtain ⟨ev, hev, hiv, hcov⟩ := (mem_hitsAt h t iv).mp hmem
  exact ⟨ev, (leads_iff_maximal h hev hiv hcov).mpr hmax, (startInterval?_data hiv).2⟩

theorem resolvesAlike_of_leadersAgree {ip : String} {starts : Finset (StartOf ip)}
    (hagree : LeadersAgree starts) : ResolvesAlike starts := by
  intro arrival arrival' h h' order order' t
  have hhits : hitsAt arrival t = hitsAt arrival' t := by
    ext iv
    rw [mem_hitsAt h, mem_hitsAt h']
  rw [resolve_user, resolve_user]
  change (winner order (hitsAt arrival t)).map _ = (winner order' (hitsAt arrival' t)).map _
  cases hw : winner order (hitsAt arrival t) with
  | none =>
    have hempty := (winner_eq_none_iff order _).mp hw
    rw [← hhits, hempty, winner_empty]
  | some iv =>
    cases hw' : winner order' (hitsAt arrival' t) with
    | none =>
      have hempty := (winner_eq_none_iff order' _).mp hw'
      have hmem := (winner_maximal hw).1
      simp [hhits, hempty] at hmem
    | some iv' =>
      obtain ⟨ev, hleads, huser⟩ := exists_leads_of_winner h hw
      obtain ⟨ev', hleads', huser'⟩ := exists_leads_of_winner h' hw'
      have hsame := hagree t ev ev' hleads hleads'
      rw [huser, huser'] at hsame
      exact hsame

/-- Two leading starts for different users: list the one or the other first. -/
theorem not_resolvesAlike_of_tie {ip : String} {starts : Finset (StartOf ip)} {t : Instant}
    {ev ev' : StartOf ip} (hleads : Leads starts t ev) (hleads' : Leads starts t ev')
    (huser : ev.1.userUpn ≠ ev'.1.userUpn) : ¬ ResolvesAlike starts := by
  intro halike
  have h : (starts.toList : Multiset (StartOf ip)) = starts.val := Finset.coe_toList starts
  obtain ⟨iv, hiv, hcov⟩ := hleads.active
  obtain ⟨iv', hiv', hcov'⟩ := hleads'.active
  have hmem := (mem_hitsAt h t iv).mpr ⟨ev, hleads.mem, hiv, hcov⟩
  have hmem' := (mem_hitsAt h t iv').mpr ⟨ev', hleads'.mem, hiv', hcov'⟩
  have hne : iv.data.userUpn ≠ iv'.data.userUpn := by
    intro he
    rw [(startInterval?_data hiv).2, (startInterval?_data hiv').2, he] at huser
    exact huser rfl
  have hnotSingle : ∀ x, hitsAt starts.toList t ≠ {x} := by
    intro x hx
    rw [hx, Finset.mem_singleton] at hmem hmem'
    exact hne (by rw [hmem, hmem'])
  obtain ⟨order, ⟨rest, hlist⟩, _⟩ :=
    exists_order_heads (hnotSingle iv) hmem (Finset.mem_singleton_self iv)
  obtain ⟨order', ⟨rest', hlist'⟩, _⟩ :=
    exists_order_heads (hnotSingle iv') hmem' (Finset.mem_singleton_self iv')
  have hw := winner_of_list_cons hlist ((leads_iff_maximal h hleads.mem hiv hcov).mp hleads)
  have hw' := winner_of_list_cons hlist' ((leads_iff_maximal h hleads'.mem hiv' hcov').mp hleads')
  have hsame := halike starts.toList starts.toList h h order order' t
  rw [resolve_user, resolve_user] at hsame
  change (winner order (hitsAt starts.toList t)).map _ =
    (winner order' (hitsAt starts.toList t)).map _ at hsame
  rw [hw, hw', Option.map_some, Option.map_some, Option.some.injEq] at hsame
  exact hne hsame

/-- Lookups name the same user under all arrival orders and enumerations iff the
starts that lead at one instant are always for one user. -/
theorem resolvesAlike_iff_leadersAgree (ip : String) (starts : Finset (StartOf ip)) :
    ResolvesAlike starts ↔ LeadersAgree starts := by
  constructor
  · intro halike t ev ev' hleads hleads'
    by_contra huser
    exact not_resolvesAlike_of_tie hleads hleads' huser halike
  · exact resolvesAlike_of_leadersAgree

theorem logonAt_not_isStop (user : String) : ¬ IsStop (logonAt 100 user 70 60) := by
  simp [IsStop, logonAt]

/-- A logon of a user at 100 s with confidence 70, for a minute. -/
def logonOf (user : String) : StartOf "10.0.0.5" :=
  ⟨logonAt 100 user 70 60, rfl, logonAt_not_isStop user⟩

/-- Two logons in the same second with the same confidence. -/
theorem simultaneousLogons_tie : ¬ ResolvesAlike {logonOf "alice", logonOf "bob"} := by
  have hactive : ∀ user, ActiveAt (seconds 100) (logonOf user).1 := by
    intro user
    have hpos : (0 : ℤ) < 60 := by decide
    have hend : seconds 160 = seconds 100 + seconds 60 := by decide
    have hrange : (addSeconds? (seconds 100) 60).isSome := by decide
    have hlt : seconds 100 < seconds 160 := by decide
    refine ⟨⟨seconds 100, seconds 160, ⟨user, 70, "ad_4624", seconds 100⟩, rfl, 60, hpos, hend⟩,
      ?_, le_rfl, hlt⟩
    rw [startInterval?_eq_some_iff]
    exact ⟨(logonOf user).2.2, hrange, hpos, rfl, hend, rfl, rfl, rfl⟩
  have hleads : ∀ user, logonOf user ∈ ({logonOf "alice", logonOf "bob"} : Finset _) →
      Leads {logonOf "alice", logonOf "bob"} (seconds 100) (logonOf user) := by
    intro user hmem
    refine ⟨hmem, hactive user, fun ev' hev' _ => .inr ?_⟩
    rcases Finset.mem_insert.mp hev' with rfl | hev'
    · exact ⟨rfl, le_rfl⟩
    · rw [Finset.mem_singleton.mp hev']
      exact ⟨rfl, le_rfl⟩
  refine not_resolvesAlike_of_tie (hleads "alice" ?_) (hleads "bob" ?_) ?_
  · exact Finset.mem_insert_self _ _
  · exact Finset.mem_insert_of_mem (Finset.mem_singleton_self _)
  · decide

end FlowDiscovery.IdentityIndex
