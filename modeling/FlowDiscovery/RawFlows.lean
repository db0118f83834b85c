import FlowDiscovery.Cursor
import FlowDiscovery.IdentityService
import FlowDiscovery.KeyedSort
import FlowDiscovery.SqlText

/-!
# Pages of raw flows

A cursor and the two address filters put names with a cast behind them into the
statement. They are no parameters, so the server refuses it: a request with a cursor or
an address fails, and a walk over all pages is complete exactly when no address is asked
for and the first page is the last one.

With the names bound the walk would still lose rows. A page asks for one row more than its
limit. That row is taken off the page and becomes the anchor of the next one, which asks
for the rows strictly after it, so the anchor is on no page.
-/
namespace FlowDiscovery.RawFlows
open PyText PyJson Cursor IdentityService

/-- The type of the address columns: how a value is written, and the cast of a
text (`none` is the error of an invalid one). -/
structure InetType (Inet : Type) where
  text : Inet → Text
  cast : PyStr → Option Inet
  cast_text : ∀ a, cast (ofText (text a)) = some a

variable {Time Inet : Type}

/-- A row of `flows`; the port column is a 32-bit integer. -/
structure FlowRow (Time Inet : Type) where
  time : Time
  srcIp : Inet
  dstIp : Inet
  dstPort : ℤ
  proto : ℤ
  bytes : ℤ
  packets : ℤ
  flowCount : ℤ
  source : String
  port_range : -2 ^ 31 ≤ dstPort ∧ dstPort < 2 ^ 31

structure RawFlow (Time : Type) where
  time : Time
  srcIp : Text
  dstIp : Text
  dstPort : ℤ
  proto : ℤ
  bytes : ℤ
  packets : ℤ
  flowCount : ℤ
  source : String
  deriving DecidableEq

def FlowRow.item (inet : InetType Inet) (r : FlowRow Time Inet) : RawFlow Time where
  time := r.time
  srcIp := inet.text r.srcIp
  dstIp := inet.text r.dstIp
  dstPort := r.dstPort
  proto := r.proto
  bytes := r.bytes
  packets := r.packets
  flowCount := r.flowCount
  source := r.source

/-- The request without its cursor. An address parameter stands for the value it is
cast to, and an empty one for none. -/
structure RawQuery (Time Inet : Type) where
  limit : ℕ
  srcIp : Option Inet
  dstIp : Option Inet
  port : Option ℤ
  fromTs : Option Time
  toTs : Option Time
  one_le_limit : 1 ≤ limit

structure RawFlowsPage (Time : Type) where
  items : List (RawFlow Time)
  nextCursor : Option Text

/-- The request fails: in the cursor, in the database, or in making the next cursor. -/
inductive RawError where
  | cursor (e : CursorError)
  | database
  | encoding

section

variable [LinearOrder Time] [LinearOrder Inet]

/-- The row `(time, src_ip, dst_ip, dst_port)`, compared from the left. -/
abbrev Key (Time Inet : Type) := Time ×ₗ Inet ×ₗ Inet ×ₗ ℤ

def FlowRow.key (r : FlowRow Time Inet) : Key Time Inet :=
  toLex (r.time, toLex (r.srcIp, toLex (r.dstIp, r.dstPort)))

/-- The filters of the `WHERE` clause. -/
def Matches (q : RawQuery Time Inet) (r : FlowRow Time Inet) : Prop :=
  (∀ a ∈ q.srcIp, r.srcIp = a) ∧ (∀ a ∈ q.dstIp, r.dstIp = a) ∧ (∀ p ∈ q.port, r.dstPort = p) ∧
    (∀ t ∈ q.fromTs, t ≤ r.time) ∧ (∀ t ∈ q.toTs, r.time < t)

instance (q : RawQuery Time Inet) : DecidablePred (Matches q) := fun _ =>
  inferInstanceAs (Decidable (_ ∧ _))

/-- The whole clause: the filters, and after a cursor the strict comparison. -/
def Selected (q : RawQuery Time Inet) (bound : Option (Key Time Inet)) (r : FlowRow Time Inet) :
    Prop := Matches q r ∧ ∀ k ∈ bound, r.key < k

instance (q : RawQuery Time Inet) (bound : Option (Key Time Inet)) :
    DecidablePred (Selected q bound) := fun _ => inferInstanceAs (Decidable (_ ∧ _))

/-- The selected rows in the order of the query. -/
def ordered (scan : ScanOrder (FlowRow Time Inet)) (table : List (FlowRow Time Inet))
    (q : RawQuery Time Inet) (bound : Option (Key Time Inet)) : List (FlowRow Time Inet) :=
  sortedBy (fun r => OrderDual.toDual r.key) ((scan.rows table).filter fun r => Selected q bound r)

def FlowRow.payload (inet : InetType Inet) (r : FlowRow Time Inet) : CursorPayload Time where
  lastTime := r.time
  lastSrcIp := ofText (inet.text r.srcIp)
  lastDstIp := ofText (inet.text r.dstIp)
  lastDstPort := r.dstPort

section

variable (py : Builtins Time) (inet : InetType Inet)

/-- The right-hand side of the comparison; a missing or empty cursor gives none. -/
def boundOf : Option Text → Except RawError (Option (Key Time Inet))
  | none | some [] => .ok none
  | some token =>
    match decodeCursor py token with
    | .error e => .error (.cursor e)
    | .ok cur =>
      match inet.cast cur.lastSrcIp, inet.cast cur.lastDstIp with
      | some src, some dst =>
        .ok (some (toLex (cur.lastTime, toLex (src, toLex (dst, cur.lastDstPort)))))
      | _, _ => .error .database

/-- The page made of the rows of the query, at most `limit + 1` of them. -/
def pageOf (limit : ℕ) (rows : List (FlowRow Time Inet)) : Except RawError (RawFlowsPage Time) :=
  if limit < rows.length then
    match rows.getLast? with
    | none => .ok ⟨[], none⟩
    | some extra =>
      match encodeCursor py (extra.payload inet) with
      | none => .error .encoding
      | some token => .ok ⟨rows.dropLast.map fun r => r.item inet, some token⟩
  else .ok ⟨rows.map fun r => r.item inet, none⟩

/-- The page that the query means, with all of its names bound. -/
def boundPage (scan : ScanOrder (FlowRow Time Inet)) (table : List (FlowRow Time Inet))
    (q : RawQuery Time Inet) (cursor : Option Text) : Except RawError (RawFlowsPage Time) :=
  match boundOf py inet cursor with
  | .error e => .error e
  | .ok bound => pageOf py inet q.limit ((ordered scan table q bound).take (q.limit + 1))

/-- The conditions of a request, which depend on what it gives. -/
def RawQuery.conds (q : RawQuery Time Inet) (bound : Option (Key Time Inet)) : List String :=
  (if bound.isSome then ["(time, src_ip, dst_ip, dst_port) < " ++
    "(:cur_time, :cur_src_ip::inet, :cur_dst_ip::inet, :cur_dst_port)"] else []) ++
  (if q.srcIp.isSome then ["src_ip = :src_ip::inet"] else []) ++
  (if q.dstIp.isSome then ["dst_ip = :dst_ip::inet"] else []) ++
  (if q.port.isSome then ["dst_port = :port"] else []) ++
  (if q.fromTs.isSome then ["time >= :from_ts"] else []) ++
  (if q.toTs.isSome then ["time < :to_ts"] else [])

/-- The text of the query with these conditions. -/
def rawSql (conds : List String) : List String :=
  ["SELECT time, src_ip::text AS src_ip, dst_ip::text AS dst_ip, dst_port,",
    "proto, bytes, packets, flow_count, source",
    "FROM flows"] ++
  (if conds = [] then [] else "WHERE" :: conds.intersperse "AND") ++
  ["ORDER BY time DESC, src_ip DESC, dst_ip DESC, dst_port DESC",
    "LIMIT :limit"]

/-- `GET /api/flows/raw`. -/
def raw (scan : ScanOrder (FlowRow Time Inet)) (table : List (FlowRow Time Inet))
    (q : RawQuery Time Inet) (cursor : Option Text) : Except RawError (RawFlowsPage Time) :=
  match boundOf py inet cursor with
  | .error e => .error e
  | .ok bound =>
    match SqlText.execute (rawSql (q.conds bound)) (ordered scan table q bound) with
    | .error _ => .error .database
    | .ok rows => pageOf py inet q.limit (rows.take (q.limit + 1))

/-- The items of all pages from a cursor on, for the page that the n-th request gets.
`none`: a request failed, or there were more pages than the fuel allows. -/
def walk (fetch : ℕ → Option Text → Except RawError (RawFlowsPage Time)) :
    ℕ → ℕ → Option Text → Option (List (RawFlow Time))
  | 0, _, _ => none
  | fuel + 1, n, cursor =>
    match fetch n cursor with
    | .error _ => none
    | .ok page =>
      match page.nextCursor with
      | none => some page.items
      | some next => (walk fetch fuel (n + 1) (some next)).map (page.items ++ ·)

/-- The items are the matching rows, each once, in the stated order. -/
def Listing (table : List (FlowRow Time Inet)) (q : RawQuery Time Inet)
    (items : List (RawFlow Time)) : Prop :=
  ∃ rows : List (FlowRow Time Inet), rows.Perm (table.filter fun r => Matches q r) ∧
    rows.Pairwise (fun a b => b.key ≤ a.key) ∧ items = rows.map fun r => r.item inet

/-- The walk from the first page ends, and its items are a listing. -/
def Complete (fetch : ℕ → Option Text → Except RawError (RawFlowsPage Time))
    (table : List (FlowRow Time Inet)) (q : RawQuery Time Inet) : Prop :=
  ∃ fuel items, walk fetch fuel 0 none = some items ∧ Listing inet table q items

/-- The requests of a walk, where each may scan the table in an order of its own. -/
def rawPages (scans : ℕ → ScanOrder (FlowRow Time Inet)) (table : List (FlowRow Time Inet))
    (q : RawQuery Time Inet) (n : ℕ) : Option Text → Except RawError (RawFlowsPage Time) :=
  raw py inet (scans n) table q

def boundPages (scans : ℕ → ScanOrder (FlowRow Time Inet)) (table : List (FlowRow Time Inet))
    (q : RawQuery Time Inet) (n : ℕ) : Option Text → Except RawError (RawFlowsPage Time) :=
  boundPage py inet (scans n) table q

end

/-! ## The rows of a query -/

lemma ordered_perm (scan : ScanOrder (FlowRow Time Inet)) (table : List (FlowRow Time Inet))
    (q : RawQuery Time Inet) (bound : Option (Key Time Inet)) :
    (ordered scan table q bound).Perm (table.filter fun r => Selected q bound r) :=
  (sortedBy_perm _ _).trans ((scan.perm table).filter _)

lemma ordered_descending (scan : ScanOrder (FlowRow Time Inet)) (table : List (FlowRow Time Inet))
    (q : RawQuery Time Inet) (bound : Option (Key Time Inet)) :
    (ordered scan table q bound).Pairwise fun a b => b.key ≤ a.key :=
  (pairwise_sortedBy (fun r : FlowRow Time Inet => OrderDual.toDual r.key) _).imp fun h =>
    OrderDual.toDual_le_toDual.mp h

/-- After an anchor, neither it nor what stands before it is selected again. -/
lemma length_after_anchor {table : List (FlowRow Time Inet)} {q : RawQuery Time Inet}
    {bound : Option (Key Time Inet)} {scan : ScanOrder (FlowRow Time Inet)}
    {front tail : List (FlowRow Time Inet)} {extra : FlowRow Time Inet}
    (hsplit : ordered scan table q bound = front ++ extra :: tail) :
    (table.filter fun r => Selected q (some extra.key) r).length + front.length + 1 ≤
      (table.filter fun r => Selected q bound r).length := by
  have hperm := ordered_perm scan table q bound
  have hsorted := ordered_descending scan table q bound
  rw [hsplit] at hperm hsorted
  obtain ⟨_, htail, hfront⟩ := List.pairwise_append.mp hsorted
  have hextra : Selected q bound extra := by
    have hmem := hperm.mem_iff.mp (List.mem_append_right front List.mem_cons_self)
    exact of_decide_eq_true (List.mem_filter.mp hmem).2
  -- every row below the anchor is selected here too, and it stands behind the anchor
  have hbelow : ∀ r, Selected q (some extra.key) r ↔ Selected q bound r ∧ r.key < extra.key := by
    intro r
    simp only [Selected, Option.mem_some_iff, forall_eq']
    refine ⟨fun h => ⟨⟨h.1, fun k hk => h.2.trans (hextra.2 k hk)⟩, h.2⟩, fun h => ⟨h.1.1, h.2⟩⟩
  have hfilter : (table.filter fun r => Selected q (some extra.key) r) =
      (table.filter fun r => Selected q bound r).filter fun r => r.key < extra.key := by
    rw [List.filter_filter]
    refine List.filter_congr fun r _ => ?_
    simp only [hbelow r, Bool.decide_and, Bool.and_comm]
  have hnone : ((front ++ extra :: tail).filter fun r => r.key < extra.key) =
      tail.filter fun r => r.key < extra.key := by
    have hfrontNone : (front.filter fun r => r.key < extra.key) = [] := by
      rw [List.filter_eq_nil_iff]
      intro r hr hlt
      have hle := hfront r hr extra List.mem_cons_self
      exact absurd (of_decide_eq_true hlt) (not_lt.mpr hle)
    rw [List.filter_append, hfrontNone, List.nil_append, List.filter_cons_of_neg (by simp)]
  have hlength := (hperm.filter fun r => r.key < extra.key).length_eq
  rw [hnone] at hlength
  have htailLength := List.length_filter_le (fun r => decide (r.key < extra.key)) tail
  have htotal := hperm.length_eq
  simp only [List.length_append, List.length_cons] at htotal
  rw [hfilter]
  omega

/-! ## One page -/

section

variable (py : Builtins Time) (inet : InetType Inet)

omit [LinearOrder Time] [LinearOrder Inet] in
lemma encodeCursor_payload (r : FlowRow Time Inet) :
    ∃ token, encodeCursor py (r.payload inet) = some token := by
  have hport : r.dstPort.natAbs < 10 ^ 21 := by
    have hrange := r.port_range
    omega
  have hdigits := length_natText_of_lt hport
  obtain ⟨port, hdumps⟩ : ∃ port, dumpsInt r.dstPort = some port := by
    rw [dumpsInt, str?, if_neg hdigits]
    exact ⟨_, rfl⟩
  simp only [encodeCursor, FlowRow.payload, hdumps, Option.bind_eq_bind, Option.bind_some]
  exact ⟨_, rfl⟩

omit [LinearOrder Time] [LinearOrder Inet] in
/-- The cursor made from a row selects the rows strictly after it. -/
lemma boundOf_payload {r : FlowRow Time Inet} {token : Text}
    (h : encodeCursor py (r.payload inet) = some token) :
    boundOf py inet (some token) = .ok (some r.key) := by
  have hdecode := decodeCursor_encodeCursor py h (isScalar_ofText _) (isScalar_ofText _)
  have hempty : decodeCursor py [] = .error .malformed := rfl
  cases token with
  | nil =>
    rw [hempty] at hdecode
    cases hdecode
  | cons c cs =>
    simp only [boundOf, hdecode, FlowRow.payload, inet.cast_text]
    rfl

lemma boundPage_of_bound {cursor : Option Text} {bound : Option (Key Time Inet)}
    (h : boundOf py inet cursor = .ok bound) (scan : ScanOrder (FlowRow Time Inet))
    (table : List (FlowRow Time Inet)) (q : RawQuery Time Inet) :
    boundPage py inet scan table q cursor =
      pageOf py inet q.limit ((ordered scan table q bound).take (q.limit + 1)) := by
  rw [boundPage, h]

/-- A page is the last one and has all rows, or it stops before an anchor. -/
theorem boundPage_cases {cursor : Option Text} {bound : Option (Key Time Inet)}
    (h : boundOf py inet cursor = .ok bound) (scan : ScanOrder (FlowRow Time Inet))
    (table : List (FlowRow Time Inet)) (q : RawQuery Time Inet) :
    ((ordered scan table q bound).length ≤ q.limit ∧
      boundPage py inet scan table q cursor =
        .ok ⟨(ordered scan table q bound).map fun r => r.item inet, none⟩) ∨
    ∃ front extra tail token, ordered scan table q bound = front ++ extra :: tail ∧
      front.length = q.limit ∧ encodeCursor py (extra.payload inet) = some token ∧
      boundPage py inet scan table q cursor = .ok ⟨front.map fun r => r.item inet, some token⟩ := by
  rw [boundPage_of_bound py inet h]
  by_cases hlast : (ordered scan table q bound).length ≤ q.limit
  · refine .inl ⟨hlast, ?_⟩
    rw [List.take_of_length_le (by omega), pageOf, if_neg (by omega)]
  · obtain ⟨extra, tail, htail⟩ := List.exists_cons_of_ne_nil
      (show (ordered scan table q bound).drop q.limit ≠ [] by
        rw [ne_eq, List.drop_eq_nil_iff]
        omega)
    obtain ⟨token, htoken⟩ := encodeCursor_payload py inet extra
    have hsplit : ordered scan table q bound =
        (ordered scan table q bound).take q.limit ++ extra :: tail := by
      rw [← htail, List.take_append_drop]
    have hlength : ((ordered scan table q bound).take q.limit).length = q.limit :=
      List.length_take_of_le (by omega)
    have htake : (ordered scan table q bound).take (q.limit + 1) =
        (ordered scan table q bound).take q.limit ++ [extra] := by
      rw [List.take_add, htail]
      rfl
    refine .inr ⟨_, extra, tail, token, hsplit, hlength, htoken, ?_⟩
    rw [htake, pageOf, if_pos (by simp [hlength])]
    simp only [List.getLast?_concat, htoken, List.dropLast_concat]

/-! ## The walk that is meant -/

omit [LinearOrder Time] in
lemma walk_succ (fetch : ℕ → Option Text → Except RawError (RawFlowsPage Time)) {fuel n : ℕ}
    {cursor : Option Text} {page : RawFlowsPage Time} (h : fetch n cursor = .ok page) :
    walk fetch (fuel + 1) n cursor =
      match page.nextCursor with
      | none => some page.items
      | some next => (walk fetch fuel (n + 1) (some next)).map (page.items ++ ·) := by
  rw [walk, h]

omit [LinearOrder Time] in
lemma walk_error (fetch : ℕ → Option Text → Except RawError (RawFlowsPage Time)) (fuel : ℕ) {n : ℕ}
    {cursor : Option Text} {e : RawError} (h : fetch n cursor = .error e) :
    walk fetch fuel n cursor = none := by
  cases fuel with
  | zero => rfl
  | succ fuel => rw [walk, h]

/-- A walk has at most as many items as there are rows to select. -/
theorem length_walk_le {scans : ℕ → ScanOrder (FlowRow Time Inet)}
    {table : List (FlowRow Time Inet)} {q : RawQuery Time Inet} {fuel n : ℕ}
    {cursor : Option Text} {bound : Option (Key Time Inet)} {items : List (RawFlow Time)}
    (hbound : boundOf py inet cursor = .ok bound)
    (h : walk (boundPages py inet scans table q) fuel n cursor = some items) :
    items.length ≤ (table.filter fun r => Selected q bound r).length := by
  induction fuel generalizing n cursor bound items with
  | zero => cases h
  | succ fuel ih =>
    obtain ⟨_, hpage⟩ | ⟨front, extra, tail, token, hsplit, _, htoken, hpage⟩ :=
      boundPage_cases py inet hbound (scans n) table q
    · rw [walk_succ (boundPages py inet scans table q) hpage] at h
      rw [← Option.some.inj h, List.length_map, (ordered_perm (scans n) table q bound).length_eq]
    · rw [walk_succ (boundPages py inet scans table q) hpage] at h
      obtain ⟨rest, hrest, rfl⟩ := Option.map_eq_some_iff.mp h
      have hle := ih (boundOf_payload py inet htoken) hrest
      have hanchor := length_after_anchor hsplit
      simp only [List.length_append, List.length_map]
      omega

/-- Every walk ends. -/
theorem walk_terminates (scans : ℕ → ScanOrder (FlowRow Time Inet))
    (table : List (FlowRow Time Inet)) (q : RawQuery Time Inet) {cursor : Option Text}
    {bound : Option (Key Time Inet)} (hbound : boundOf py inet cursor = .ok bound) (n : ℕ) :
    ∃ fuel items, walk (boundPages py inet scans table q) fuel n cursor = some items := by
  induction hsize : (table.filter fun r => Selected q bound r).length using
    Nat.strong_induction_on generalizing n cursor bound with
  | _ size ih =>
    obtain ⟨_, hpage⟩ | ⟨front, extra, tail, token, hsplit, _, htoken, hpage⟩ :=
      boundPage_cases py inet hbound (scans n) table q
    · exact ⟨1, _, walk_succ (boundPages py inet scans table q) hpage⟩
    · have hanchor := length_after_anchor hsplit
      obtain ⟨fuel, items, hwalk⟩ := ih _ (by omega) (boundOf_payload py inet htoken) (n + 1) rfl
      refine ⟨fuel + 1, front.map (fun r => r.item inet) ++ items, ?_⟩
      rw [walk_succ (boundPages py inet scans table q) hpage]
      simp only [hwalk, Option.map_some]

lemma selected_none (q : RawQuery Time Inet) (table : List (FlowRow Time Inet)) :
    (table.filter fun r => Selected q none r) = table.filter fun r => Matches q r := by
  refine List.filter_congr fun r _ => ?_
  simp [Selected]

/-- The first page has a cursor unless all rows are on it. -/
lemma firstPage_cases (scan : ScanOrder (FlowRow Time Inet)) (table : List (FlowRow Time Inet))
    (q : RawQuery Time Inet) :
    ((table.filter fun r => Matches q r).length ≤ q.limit ∧ ∃ items,
      boundPage py inet scan table q none = .ok ⟨items, none⟩ ∧ Listing inet table q items) ∨
    (q.limit < (table.filter fun r => Matches q r).length ∧
      ∃ front extra tail token, ordered scan table q none = front ++ extra :: tail ∧
        encodeCursor py (extra.payload inet) = some token ∧
        boundPage py inet scan table q none = .ok ⟨front.map fun r => r.item inet, some token⟩) := by
  have hperm := ordered_perm scan table q none
  rw [selected_none] at hperm
  obtain ⟨hfits, hpage⟩ | ⟨front, extra, tail, token, hsplit, hfront, htoken, hpage⟩ :=
    boundPage_cases py inet (rfl : boundOf py inet none = .ok none) scan table q
  · refine .inl ⟨hperm.length_eq ▸ hfits, _, hpage, ?_⟩
    exact ⟨_, hperm, ordered_descending scan table q none, rfl⟩
  · refine .inr ⟨?_, front, extra, tail, token, hsplit, htoken, hpage⟩
    have hlength := hperm.length_eq
    rw [hsplit, List.length_append, List.length_cons] at hlength
    omega

/-- With the names bound: for every content of the table, all filters and every limit,
in whatever order ties come, following the cursors lists the matching rows, each once and
in order, if and only if they fit on the first page. The anchor of the first page is on no
page, so a walk that goes on misses a row. -/
theorem boundComplete_iff_fits (scans : ℕ → ScanOrder (FlowRow Time Inet))
    (table : List (FlowRow Time Inet)) (q : RawQuery Time Inet) :
    Complete inet (boundPages py inet scans table q) table q ↔
      (table.filter fun r => Matches q r).length ≤ q.limit := by
  obtain ⟨hfits, items, hpage, hlisting⟩ | ⟨hlt, front, extra, tail, token, hsplit, htoken, hpage⟩ :=
    firstPage_cases py inet (scans 0) table q
  · refine iff_of_true ⟨1, items, ?_, hlisting⟩ hfits
    exact walk_succ (boundPages py inet scans table q) hpage
  · refine iff_of_false ?_ (not_le.mpr hlt)
    rintro ⟨fuel, items, hwalk, rows, hrows, _, rfl⟩
    cases fuel with
    | zero => cases hwalk
    | succ fuel =>
      rw [walk_succ (boundPages py inet scans table q) hpage] at hwalk
      obtain ⟨rest, hrest, heq⟩ := Option.map_eq_some_iff.mp hwalk
      have hanchor := length_after_anchor hsplit
      rw [selected_none] at hanchor
      have hle := length_walk_le py inet (boundOf_payload py inet htoken) hrest
      have hlength := congrArg List.length heq
      simp only [List.length_append, List.length_map, hrows.length_eq] at hlength
      omega

/-! ## The walk of the endpoint -/

lemma accepted_intersperse (conds : List String) :
    SqlText.accepted (conds.intersperse "AND") = SqlText.accepted conds := by
  have hand : (SqlText.unbound ' ' "AND".toList).isEmpty = true := by decide
  induction conds with
  | nil => rfl
  | cons c rest ih =>
    cases rest with
    | nil => rfl
    | cons c' rest =>
      simp only [List.intersperse, SqlText.accepted, List.all_cons, hand, Bool.true_and] at ih ⊢
      rw [ih]

/-- The statement of a request is accepted as far as its conditions are. -/
lemma accepted_rawSql (conds : List String) :
    SqlText.accepted (rawSql conds) = SqlText.accepted conds := by
  have hselect : SqlText.accepted
      ["SELECT time, src_ip::text AS src_ip, dst_ip::text AS dst_ip, dst_port,",
        "proto, bytes, packets, flow_count, source", "FROM flows"] = true := by decide +kernel
  have horder : SqlText.accepted ["ORDER BY time DESC, src_ip DESC, dst_ip DESC, dst_port DESC",
      "LIMIT :limit"] = true := by decide +kernel
  rw [rawSql, SqlText.accepted_append, SqlText.accepted_append, hselect, horder]
  split_ifs with hnil
  · rw [hnil]
    rfl
  · have hwhere : (SqlText.unbound ' ' "WHERE".toList).isEmpty = true := by decide
    rw [← accepted_intersperse conds]
    simp only [SqlText.accepted, List.all_cons, hwhere, Bool.true_and, Bool.and_true]

omit [LinearOrder Time] [LinearOrder Inet] in
/-- The server accepts the statement of a first page without address filters, and no
other. -/
lemma accepted_conds (q : RawQuery Time Inet) (bound : Option (Key Time Inet)) :
    SqlText.accepted (q.conds bound) = (!bound.isSome && !q.srcIp.isSome && !q.dstIp.isSome) := by
  have hcursor : SqlText.accepted ["(time, src_ip, dst_ip, dst_port) < " ++
    "(:cur_time, :cur_src_ip::inet, :cur_dst_ip::inet, :cur_dst_port)"] = false := by decide +kernel
  have hsrc : SqlText.accepted ["src_ip = :src_ip::inet"] = false := by decide +kernel
  have hdst : SqlText.accepted ["dst_ip = :dst_ip::inet"] = false := by decide +kernel
  have hport : SqlText.accepted ["dst_port = :port"] = true := by decide +kernel
  have hfrom : SqlText.accepted ["time >= :from_ts"] = true := by decide +kernel
  have hto : SqlText.accepted ["time < :to_ts"] = true := by decide +kernel
  simp only [RawQuery.conds, SqlText.accepted_append, SqlText.accepted_ite, hcursor, hsrc, hdst,
    hport, hfrom, hto, Bool.or_false, Bool.or_true, Bool.and_true]

lemma raw_of_bound {cursor : Option Text} {bound : Option (Key Time Inet)}
    (h : boundOf py inet cursor = .ok bound) (scan : ScanOrder (FlowRow Time Inet))
    (table : List (FlowRow Time Inet)) (q : RawQuery Time Inet) :
    raw py inet scan table q cursor =
      if bound = none ∧ q.srcIp = none ∧ q.dstIp = none then boundPage py inet scan table q cursor
      else .error .database := by
  have haccepted : SqlText.accepted (rawSql (q.conds bound)) =
      (!bound.isSome && !q.srcIp.isSome && !q.dstIp.isSome) := by
    rw [accepted_rawSql, accepted_conds]
  rw [raw, h, boundPage_of_bound py inet h]
  by_cases hplain : bound = none ∧ q.srcIp = none ∧ q.dstIp = none
  · have htrue : SqlText.accepted (rawSql (q.conds bound)) = true := by
      rw [haccepted, hplain.1, hplain.2.1, hplain.2.2]
      rfl
    simp only [SqlText.execute_of_accepted htrue, if_pos hplain]
  · have hfalse : SqlText.accepted (rawSql (q.conds bound)) = false := by
      rw [haccepted]
      simpa only [Bool.and_eq_false_iff, Bool.not_eq_false', Option.isSome_iff_ne_none,
        not_and_or, or_assoc] using hplain
    simp only [SqlText.execute_of_not_accepted hfalse, if_neg hplain]

/-- With an address filter the first request fails, and with a further page the second. -/
lemma walk_fails {scans : ℕ → ScanOrder (FlowRow Time Inet)} {table : List (FlowRow Time Inet)}
    {q : RawQuery Time Inet} (h : ¬ (q.srcIp = none ∧ q.dstIp = none ∧
      (table.filter fun r => Matches q r).length ≤ q.limit)) (fuel : ℕ) :
    walk (rawPages py inet scans table q) fuel 0 none = none := by
  have hfirst := raw_of_bound py inet (rfl : boundOf py inet none = .ok none) (scans 0) table q
  by_cases hplain : q.srcIp = none ∧ q.dstIp = none
  · rw [if_pos ⟨rfl, hplain⟩] at hfirst
    obtain ⟨hfits, _⟩ | ⟨_, front, extra, _, token, _, htoken, hpage⟩ :=
      firstPage_cases py inet (scans 0) table q
    · exact absurd ⟨hplain.1, hplain.2, hfits⟩ h
    · have hsecond : rawPages py inet scans table q 1 (some token) = .error .database := by
        rw [rawPages, raw_of_bound py inet (boundOf_payload py inet htoken), if_neg (by simp)]
      cases fuel with
      | zero => rfl
      | succ fuel =>
        rw [walk_succ (rawPages py inet scans table q) (hfirst.trans hpage)]
        simp only [walk_error _ fuel hsecond, Option.map_none]
  · rw [if_neg fun h => hplain h.2] at hfirst
    exact walk_error (rawPages py inet scans table q) fuel hfirst

end

end

/-- Two instants, five seconds apart. -/
def twoTimes : Builtins (Fin 2) where
  isoformat t :=
    if t = 0 then "2026-04-22T14:12:00+00:00".toList else "2026-04-22T14:12:05+00:00".toList
  fromisoformat s :=
    if s = ofString "2026-04-22T14:12:00+00:00" then some 0
    else if s = ofString "2026-04-22T14:12:05+00:00" then some 1
    else none
  float := id
  intOfFloat _ := .error .conversion
  str _ := []
  fromisoformat_isoformat := by decide +kernel

def twoHosts : InetType (Fin 2) where
  text a := if a = 0 then "10.0.0.1/32".toList else "10.0.0.2/32".toList
  cast s :=
    if s = ofString "10.0.0.1/32" then some 0
    else if s = ofString "10.0.0.2/32" then some 1
    else none
  cast_text := by decide +kernel

def flowAt (t : Fin 2) : FlowRow (Fin 2) (Fin 2) where
  time := t
  srcIp := 0
  dstIp := 1
  dstPort := 443
  proto := 6
  bytes := 100
  packets := 2
  flowCount := 1
  source := "fortigate"
  port_range := by decide

def onePerPage : RawQuery (Fin 2) (Fin 2) := ⟨1, none, none, none, none, none, by decide⟩

def inTableOrder : ℕ → ScanOrder (FlowRow (Fin 2) (Fin 2)) := fun _ => ⟨id, fun _ => .refl _⟩

/-- With the names bound the second page is empty. -/
example : walk (boundPages twoTimes twoHosts inTableOrder [flowAt 0, flowAt 1] onePerPage) 2 0 none =
    some [(flowAt 1).item twoHosts] := by decide +kernel

end FlowDiscovery.RawFlows
