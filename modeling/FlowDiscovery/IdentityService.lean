import FlowDiscovery.GroupIndex
import FlowDiscovery.IdentityResolution
import FlowDiscovery.SqlText
import Mathlib.Data.String.Basic

/-!
# Historical lookups and their agreement with the index

The api answers the same question from table `identity_events` with a query. The name of
the address in it has a cast behind it and is no parameter, so the server refuses the
statement and no lookup is answered.

With the address bound, the two implementations would still differ on stops, on the
instant at which a TTL runs out, on events with TTL zero and on how addresses are
compared. They would agree exactly when no row that the query admits outranks the bindings
still live in the index.
-/
namespace FlowDiscovery.IdentityService
open PyTime BindingInterval IdentityIndex Machine

variable {Inet : Type*} [DecidableEq Inet]

/-- Order in which the database scans a table: any permutation of its rows. -/
structure ScanOrder (α : Type*) where
  rows : List α → List α
  perm : ∀ table, (rows table).Perm table

/-- The `WHERE` clause for a row of `identity_events`. -/
def Admits (inet : String → Inet) (ip : String) (t : Instant) (r : IdentityEvent) : Prop :=
  inet r.srcIp = inet ip ∧ r.ts ≤ t ∧ t ≤ r.ts + seconds r.ttlSeconds ∧
    r.eventType ≠ .nacAuthStop

instance (inet : String → Inet) (ip : String) (t : Instant) :
    DecidablePred (Admits inet ip t) := fun _ => inferInstanceAs (Decidable (_ ∧ _))

/-- `ORDER BY confidence DESC, time DESC`. -/
def orderKey (r : IdentityEvent) : ℤ ×ₗ ℤ := toLex (-r.confidence, -r.ts)

/-- What the query means with the address bound: `LIMIT 1` takes the first row in that
order. -/
def selectRow (inet : String → Inet) (scan : ScanOrder IdentityEvent)
    (table : List IdentityEvent) (ip : String) (t : Instant) : Option IdentityEvent :=
  (sortedBy orderKey ((scan.rows table).filter fun r => Admits inet ip t r)).head?

/-- What the service returns. -/
structure Response where
  userUpn : String
  source : String
  confidence : ℤ
  groups : List String
  ttlRemaining : ℤ
  deriving DecidableEq, Repr

/-- The text of the query. -/
def selectSql : List String :=
  ["SELECT user_upn, source, confidence, ttl_seconds, time",
    "FROM identity_events",
    "WHERE src_ip = :ip::inet",
    "AND time <= :at",
    "AND time + (ttl_seconds || ' seconds')::interval >= :at",
    "AND event_type <> 'nac-auth-stop'",
    "ORDER BY confidence DESC, time DESC",
    "LIMIT 1"]

/-- The row that the service goes on with; `error` is the exception of the driver. -/
def fetchRow (inet : String → Inet) (scan : ScanOrder IdentityEvent) (table : List IdentityEvent)
    (ip : String) (t : Instant) : Except SqlText.Refused (Option IdentityEvent) :=
  SqlText.execute selectSql (selectRow inet scan table ip t)

/-- `resolve`, with the second query for the names of the user's groups (sorted
by code point, as under collation `C`). -/
def resolve (inet : String → Inet) (scan : ScanOrder IdentityEvent)
    (table : List IdentityEvent) (userGroups : List GroupRow) (ip : String) (t : Instant) :
    Except SqlText.Refused (Option Response) := do
  let row ← fetchRow inet scan table ip t
  return row.map fun r =>
    { userUpn := r.userUpn
      source := r.source
      confidence := r.confidence
      groups := sortedBy id
        ((userGroups.filter fun g => g.userUpn = r.userUpn).map GroupRow.groupName)
      ttlRemaining := max 0 ((seconds r.ttlSeconds - (t - r.ts)).tdiv microsPerSecond) }

/-! ## The same events in the index -/

/-- A fresh index fed the events in order. -/
def fed (events : List IdentityEvent) : IdentityIndex :=
  events.foldl (fun idx ev => (idx.insert ev.toIndexEvent).1) fresh

/-- Bindings of an address that are live at an instant. -/
def live (events : List IdentityEvent) (ip : String) (t : Instant) : Finset BindingInterval :=
  (survivors ip (events.map IdentityEvent.toIndexEvent)).filter (Covers t)

/-- Rows that the query admits. -/
def admitted (inet : String → Inet) (events : List IdentityEvent) (ip : String) (t : Instant) :
    List IdentityEvent := events.filter fun r => Admits inet ip t r

def rowRank (r : IdentityEvent) : ℤ ×ₗ ℤ := toLex (r.confidence, r.ts)

theorem orderKey_le_iff (a b : IdentityEvent) :
    orderKey a ≤ orderKey b ↔ rowRank b ≤ rowRank a := by
  simp only [orderKey, rowRank, Prod.Lex.toLex_le_toLex, neg_le_neg_iff, neg_lt_neg_iff, neg_inj]
  rw [eq_comm]

theorem fed_tree (events : List IdentityEvent) (ip : String) :
    (fed events).tree ip = survivors ip (events.map IdentityEvent.toIndexEvent) := by
  have h : ∀ (events : List IdentityEvent) (idx : IdentityIndex),
      (events.foldl (fun idx ev => (idx.insert ev.toIndexEvent).1) idx).tree ip =
        (events.map IdentityEvent.toIndexEvent).foldl (applyEvent ip) (idx.tree ip) := by
    intro events
    induction events with
    | nil => exact fun _ => rfl
    | cons ev rest ih =>
      intro idx
      rw [List.foldl_cons, ih, insert_tree, List.map_cons, List.foldl_cons]
  exact h events fresh

/-- Every surviving binding was added by one of the events. -/
theorem exists_event_of_survivor {events : List IndexEvent} {ip : String} {iv : BindingInterval}
    (h : iv ∈ survivors ip events) :
    ∃ ev ∈ events, ev.srcIp = ip ∧ startInterval? ev = some iv := by
  induction events using List.reverseRecOn with
  | nil => simp [survivors] at h
  | append_singleton events ev ih =>
    have hold : iv ∈ survivors ip events →
        ∃ ev' ∈ events ++ [ev], ev'.srcIp = ip ∧ startInterval? ev' = some iv := by
      intro hiv
      obtain ⟨ev', hev', h'⟩ := ih hiv
      exact ⟨ev', List.mem_append_left _ hev', h'⟩
    rw [survivors, List.foldl_append, List.foldl_cons, List.foldl_nil] at h
    change iv ∈ applyEvent ip (survivors ip events) ev at h
    unfold applyEvent at h
    split_ifs at h with hip hstop
    · exact hold h
    · cases hu : ev.userUpn with
      | none => simp [hu] at h
      | some u => exact hold (Finset.mem_filter.mp (by simpa only [hu] using h)).1
    · rcases Finset.mem_union.mp h with h | h
      · exact ⟨ev, by simp, not_not.mp hip, by simpa using h⟩
      · exact hold h

/-- A live binding comes from an admitted row of the same rank and user. -/
theorem exists_admitted_of_live (inet : String → Inet) {events : List IdentityEvent} {ip : String}
    {t : Instant} {iv : BindingInterval} (h : iv ∈ live events ip t) :
    ∃ r ∈ admitted inet events ip t, rowRank r = iv.rank ∧ r.userUpn = iv.data.userUpn := by
  obtain ⟨hsurvives, hcov⟩ := Finset.mem_filter.mp h
  obtain ⟨ev, hev, hip, hstart⟩ := exists_event_of_survivor hsurvives
  obtain ⟨r, hr, rfl⟩ := List.mem_map.mp hev
  obtain ⟨hstop, _, _, hbegin, hend, huser, hconf, _⟩ := (startInterval?_eq_some_iff _ iv).mp hstart
  rw [Covers, hbegin, hend] at hcov
  refine ⟨r, List.mem_filter.mpr ⟨hr, decide_eq_true ⟨congrArg inet hip, hcov.1, hcov.2.le, ?_⟩⟩,
    ?_, Option.some.inj huser⟩
  · exact fun htype => hstop (.inl htype)
  · rw [rowRank, rank, hconf, ← iv.begin_eq, hbegin]
    rfl

theorem mem_scan_filter (inet : String → Inet) (scan : ScanOrder IdentityEvent)
    (table : List IdentityEvent) (ip : String) (t : Instant) (r : IdentityEvent) :
    r ∈ (scan.rows table).filter (fun r => Admits inet ip t r) ↔ r ∈ admitted inet table ip t :=
  ((scan.perm table).filter _).mem_iff

theorem selectRow_eq_none_iff (inet : String → Inet) (scan : ScanOrder IdentityEvent)
    (table : List IdentityEvent) (ip : String) (t : Instant) :
    selectRow inet scan table ip t = none ↔ ∀ r, r ∉ admitted inet table ip t := by
  rw [selectRow, head?_sortedBy_eq_none_iff, List.eq_nil_iff_forall_not_mem]
  simp only [mem_scan_filter]

theorem selectRow_maximal {inet : String → Inet} {scan : ScanOrder IdentityEvent}
    {table : List IdentityEvent} {ip : String} {t : Instant} {r : IdentityEvent}
    (h : selectRow inet scan table ip t = some r) :
    r ∈ admitted inet table ip t ∧ ∀ r' ∈ admitted inet table ip t, rowRank r' ≤ rowRank r := by
  obtain ⟨hmem, hleast⟩ := head?_sortedBy_least h
  refine ⟨(mem_scan_filter inet scan table ip t r).mp hmem, fun r' hr' => ?_⟩
  exact (orderKey_le_iff r r').mp (hleast r' ((mem_scan_filter inet scan table ip t r').mpr hr'))

/-- Every maximal row is selected under some scan order. -/
theorem exists_scan_selects (inet : String → Inet) {table : List IdentityEvent} {ip : String}
    {t : Instant} {r : IdentityEvent} (hr : r ∈ admitted inet table ip t)
    (hmax : ∀ r' ∈ admitted inet table ip t, rowRank r' ≤ rowRank r) :
    ∃ scan, selectRow inet scan table ip t = some r := by
  obtain ⟨hmem, hadmits⟩ := List.mem_filter.mp hr
  refine ⟨⟨fun rows => if r ∈ rows then r :: rows.erase r else rows, fun rows => ?_⟩, ?_⟩
  · split_ifs with hin
    · exact (List.perm_cons_erase hin).symm
    · exact List.Perm.refl _
  · simp only [selectRow, if_pos hmem]
    rw [List.filter_cons_of_pos (by simpa using hadmits)]
    apply head?_sortedBy_cons
    intro r' hr'
    refine (orderKey_le_iff r r').mpr (hmax r' ?_)
    exact List.mem_filter.mpr ⟨List.mem_of_mem_erase (List.mem_filter.mp hr').1,
      (List.mem_filter.mp hr').2⟩

/-! ## Agreement -/

/-- One of the two lookups has a single best candidate. -/
def UniqueMaximum (inet : String → Inet) (events : List IdentityEvent) (ip : String)
    (t : Instant) : Prop :=
  (∃! iv, iv ∈ live events ip t ∧ ∀ iv' ∈ live events ip t, iv'.rank ≤ iv.rank) ∨
    ∃! r, r ∈ admitted inet events ip t ∧
      ∀ r' ∈ admitted inet events ip t, rowRank r' ≤ rowRank r

/-- Both lookups return nothing, or bindings of the same confidence and start,
and of the same user when the maximum is unique. -/
def SameBinding (unique : Prop) : Option IdentityEvent → Option Resolved → Prop
  | none, none => True
  | some r, some a =>
    a.confidence = r.confidence ∧ a.tStart = r.ts ∧ (unique → a.userUpn = r.userUpn)
  | _, _ => False

/-- The query, were its address bound, and a fresh index fed the same events agree, in
whatever order rows are scanned and sets are listed. -/
def QueryAgrees (inet : String → Inet) (events : List IdentityEvent) (ip : String)
    (t : Instant) : Prop :=
  ∀ scan order, SameBinding (UniqueMaximum inet events ip t) (selectRow inet scan events ip t)
    ((fed events).resolve order ip t).1

/-- The service gets a row or none, and that agrees with the index. -/
def LookupsAgree (inet : String → Inet) (events : List IdentityEvent) (ip : String)
    (t : Instant) : Prop :=
  ∀ scan order, ∃ row, fetchRow inet scan events ip t = .ok row ∧
    SameBinding (UniqueMaximum inet events ip t) row ((fed events).resolve order ip t).1

/-- Every row the query admits is outranked by a live binding, or ties with one
of the same user, or ties with several. -/
def NoneOutranks (inet : String → Inet) (events : List IdentityEvent) (ip : String)
    (t : Instant) : Prop :=
  ∀ r ∈ admitted inet events ip t, ∃ iv ∈ live events ip t, rowRank r ≤ iv.rank ∧
    (rowRank r = iv.rank → r.userUpn = iv.data.userUpn ∨
      ∃ iv' ∈ live events ip t, iv' ≠ iv ∧ iv'.rank = iv.rank)

theorem resolve_fed (events : List IdentityEvent) (order : SetOrder BindingInterval)
    (ip : String) (t : Instant) :
    (((fed events).resolve order ip t).1 = none ∧ live events ip t = ∅) ∨
      ∃ iv ∈ live events ip t, ((fed events).resolve order ip t).1 = some (answer t iv) ∧
        ∀ iv' ∈ live events ip t, iv'.rank ≤ iv.rank := by
  rw [resolve_answer, fed_tree]
  change ((winner order (live events ip t)).map _ = none ∧ _) ∨
    ∃ iv ∈ _, (winner order (live events ip t)).map _ = _ ∧ _
  cases hw : winner order (live events ip t) with
  | none => exact .inl ⟨rfl, (winner_eq_none_iff order _).mp hw⟩
  | some iv => exact .inr ⟨iv, (winner_maximal hw).1, rfl, (winner_maximal hw).2⟩

theorem rank_eq_iff (r : IdentityEvent) (iv : BindingInterval) :
    rowRank r = iv.rank ↔ iv.data.confidence = r.confidence ∧ iv.data.tStart = r.ts := by
  rw [rowRank, rank, toLex_inj, Prod.mk.injEq]
  exact and_congr eq_comm eq_comm

theorem queryAgrees_of_noneOutranks (inet : String → Inet) (events : List IdentityEvent)
    (ip : String) (t : Instant) (h : NoneOutranks inet events ip t) :
    QueryAgrees inet events ip t := by
  intro scan order
  obtain ⟨hnone, hempty⟩ | ⟨iv, hiv, hsome, hmax⟩ := resolve_fed events order ip t
  · have hsel : selectRow inet scan events ip t = none := by
      rw [selectRow_eq_none_iff]
      intro r hr
      obtain ⟨iv, hiv, _⟩ := h r hr
      simp [hempty] at hiv
    rw [hnone, hsel]
    trivial
  · obtain ⟨r₀, hr₀, hrank₀, huser₀⟩ := exists_admitted_of_live inet hiv
    cases hsel : selectRow inet scan events ip t with
    | none => exact absurd hr₀ ((selectRow_eq_none_iff inet scan events ip t).mp hsel r₀)
    | some r =>
      obtain ⟨hr, hrmax⟩ := selectRow_maximal hsel
      obtain ⟨iv₁, hiv₁, hle, htie⟩ := h r hr
      have hrank : rowRank r = iv.rank :=
        le_antisymm (hle.trans (hmax iv₁ hiv₁)) (hrank₀ ▸ hrmax r₀ hr₀)
      obtain ⟨hconf, hstart⟩ := (rank_eq_iff r iv).mp hrank
      rw [hsome]
      refine ⟨hconf, hstart, ?_⟩
      rintro (⟨m, _, hm⟩ | ⟨m, _, hm⟩)
      · have hiv₁eq : iv₁.rank = iv.rank := le_antisymm (hmax iv₁ hiv₁) (hrank ▸ hle)
        have hsame : ∀ iv' ∈ live events ip t, iv'.rank = iv.rank → iv' = m :=
          fun iv' hiv' he => hm iv' ⟨hiv', fun iv'' h'' => he ▸ hmax iv'' h''⟩
        rcases htie (hrank.trans hiv₁eq.symm) with hu | ⟨iv', hiv', hne, he⟩
        · rw [hu, hsame iv₁ hiv₁ hiv₁eq, ← hsame iv hiv rfl]
          rfl
        · refine absurd ?_ hne
          rw [hsame iv' hiv' (he.trans hiv₁eq), hsame iv₁ hiv₁ hiv₁eq]
      · have hr₀max : ∀ r' ∈ _, rowRank r' ≤ rowRank r₀ := fun r' hr' => by
          rw [hrank₀, ← hrank]
          exact hrmax r' hr'
        have hr₀eq : r₀ = m := hm r₀ ⟨hr₀, hr₀max⟩
        have hreq : r = m := hm r ⟨hr, hrmax⟩
        rw [hreq, ← hr₀eq, huser₀]
        rfl

theorem exists_maximal_row {rows : List IdentityEvent} {r : IdentityEvent} (hr : r ∈ rows) :
    ∃ m ∈ rows, ∀ r' ∈ rows, rowRank r' ≤ rowRank m := by
  cases hm : (sortedBy orderKey rows).head? with
  | none =>
    rw [(head?_sortedBy_eq_none_iff orderKey rows).mp hm] at hr
    exact absurd hr List.not_mem_nil
  | some m =>
    obtain ⟨hmem, hleast⟩ := head?_sortedBy_least hm
    exact ⟨m, hmem, fun r' hr' => (orderKey_le_iff m r').mp (hleast r' hr')⟩

/-- With the address bound, the historical and the live lookup agree if and only if no
admitted row outranks the live bindings. -/
theorem queryAgrees_iff (inet : String → Inet) (events : List IdentityEvent) (ip : String)
    (t : Instant) : QueryAgrees inet events ip t ↔ NoneOutranks inet events ip t := by
  refine ⟨fun h r hr => ?_, queryAgrees_of_noneOutranks inet events ip t⟩
  obtain ⟨r₀, hr₀, hmax₀⟩ := exists_maximal_row hr
  -- a maximal row is selected under some scan order; take `r` itself if it is one
  obtain ⟨m, hm, hmmax, hreq⟩ : ∃ m ∈ admitted inet events ip t,
      (∀ r' ∈ admitted inet events ip t, rowRank r' ≤ rowRank m) ∧
      (rowRank r = rowRank m → r = m) := by
    by_cases he : rowRank r = rowRank r₀
    · exact ⟨r, hr, fun r' hr' => he ▸ hmax₀ r' hr', fun _ => rfl⟩
    · exact ⟨r₀, hr₀, hmax₀, fun h' => absurd h' he⟩
  obtain ⟨scan, hsel⟩ := exists_scan_selects inet hm hmmax
  have hagree := h scan (.choice _)
  obtain ⟨hnone, _⟩ | ⟨iv, hiv, hsome, hmax⟩ := resolve_fed events (.choice _) ip t
  · rw [hsel, hnone] at hagree
    exact hagree.elim
  · rw [hsel, hsome] at hagree
    obtain ⟨hconf, hstart, huser⟩ := hagree
    have hrank : rowRank m = iv.rank := (rank_eq_iff m iv).mpr ⟨hconf, hstart⟩
    refine ⟨iv, hiv, hrank ▸ hmmax r hr, fun htie => ?_⟩
    obtain rfl := hreq (htie.trans hrank.symm)
    by_cases hother : ∃ iv' ∈ live events ip t, iv' ≠ iv ∧ iv'.rank = iv.rank
    · exact .inr hother
    · refine .inl (huser (.inl ⟨iv, ⟨hiv, hmax⟩, fun iv' hiv' => ?_⟩)).symm
      by_contra hne
      exact hother ⟨iv', hiv'.1, hne, le_antisymm (hmax iv' hiv'.1) (hiv'.2 iv hiv)⟩

/-! ## No lookup is answered -/

lemma selectSql_refused : SqlText.accepted selectSql = false := by decide +kernel

lemma fetchRow_refused (inet : String → Inet) (scan : ScanOrder IdentityEvent)
    (table : List IdentityEvent) (ip : String) (t : Instant) :
    fetchRow inet scan table ip t = .error ⟨⟩ :=
  SqlText.execute_of_not_accepted selectSql_refused _

/-- `resolve` raises on every input. -/
lemma resolve_refused (inet : String → Inet) (scan : ScanOrder IdentityEvent)
    (table : List IdentityEvent) (userGroups : List GroupRow) (ip : String) (t : Instant) :
    resolve inet scan table userGroups ip t = .error ⟨⟩ := by
  rw [resolve, fetchRow_refused]
  rfl

/-- Whatever the events, the address and the instant, the two lookups do not agree: that of
the service raises. -/
theorem lookups_never_agree (inet : String → Inet) (events : List IdentityEvent) (ip : String)
    (t : Instant) : ¬ LookupsAgree inet events ip t := by
  intro h
  obtain ⟨row, hrow, _⟩ := h ⟨id, fun table => .refl table⟩ (.choice _)
  rw [fetchRow_refused] at hrow
  cases hrow

/-- One host, a session start and its stop a minute later. -/
def stoppedSession : List IdentityEvent :=
  [⟨seconds 1000, "10.0.0.5", "alice", "cisco_ise", .nacAuth, 95, 43200, none, none⟩,
    ⟨seconds 1060, "10.0.0.5", "alice", "cisco_ise", .nacAuthStop, 95, 0, none, none⟩]

def tableOrder : ScanOrder IdentityEvent := ⟨id, fun table => List.Perm.refl table⟩

/-- Even with the address bound: after the stop the index has no binding, while the query
still returns the start. -/
theorem stoppedSession_queries_differ :
    ((fed stoppedSession).resolve (.choice _) "10.0.0.5" (seconds 1100)).1 = none ∧
      (selectRow id tableOrder stoppedSession "10.0.0.5" (seconds 1100)).map
        IdentityEvent.userUpn = some "alice" := by
  refine ⟨?_, by decide⟩
  rw [resolve_answer, Option.map_eq_none_iff, winner_eq_none_iff]
  decide

/-- While the session runs, the index has its binding and the service raises. -/
theorem runningSession_lookup_raises :
    let events := stoppedSession.take 1
    (live events "10.0.0.5" (seconds 1010)).card = 1 ∧
      resolve id tableOrder events [] "10.0.0.5" (seconds 1010) = .error ⟨⟩ ∧
      ¬ LookupsAgree id events "10.0.0.5" (seconds 1010) := by
  refine ⟨by decide, resolve_refused .., fun h => ?_⟩
  obtain ⟨row, hrow, _⟩ := h tableOrder (.choice _)
  rw [fetchRow_refused] at hrow
  cases hrow

end FlowDiscovery.IdentityService
