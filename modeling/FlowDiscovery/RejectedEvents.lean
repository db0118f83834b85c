import FlowDiscovery.Dict
import FlowDiscovery.KeyedSort
import FlowDiscovery.PyJson
import FlowDiscovery.StreamConsumer
import Mathlib.Data.Prod.Lex

/-!
# Identity events that raise

`insert` reads the members of a decoded event one after the other, and each of them
may be missing or of any type. It creates the tree of the address before several of
the conversions, so an event that raises can leave an empty tree behind. An empty
tree is never told from a missing one: not by a lookup, not by the size, and not by
any later insert.

Here an event is what JSON makes of it, and the trees, the instants and the hashing
of keys are taken as they come.
-/
namespace FlowDiscovery.RejectedEvents
open PyText PyJson

/-- What `insert` and `resolve` use of the language: `datetime.fromisoformat`,
`t + timedelta(seconds=n)`, `t.timestamp()`, `int` of a float, `int` of a difference of
timestamps, the hash of a dictionary key, `==` and `repr(float(s))`. A raised exception
is `none`. -/
structure Builtins (Time Stamp Key : Type) where
  fromisoformat : PyStr → Option Time
  plusSeconds : Time → ℤ → Option Time
  timestamp : Time → Option Stamp
  intOfFloat : Text → Option ℤ
  wholeSeconds : Stamp → Stamp → ℤ
  hashKey : Json → Option Key
  eq : Json → Json → Bool
  float : Text → Text

structure Binding (Time : Type) where
  userUpn : Json
  confidence : ℤ
  source : Json
  tStart : Time

structure Interval (Time Stamp : Type) where
  beginTs : Stamp
  endTs : Stamp
  data : Binding Time

/-- The package `intervaltree`. Adding an interval that is empty raises a `ValueError`
before anything changes, `list` and `query` are in the order of the underlying sets, and
a new tree has no interval. -/
structure TreePackage (Time Stamp Tree : Type) where
  new : Tree
  len : Tree → ℕ
  add : Tree → Interval Time Stamp → Option Tree
  clear : Tree → Tree
  list : Tree → List (Interval Time Stamp)
  remove : Tree → Interval Time Stamp → Tree
  query : Tree → Stamp → List (Interval Time Stamp)
  len_new : len new = 0

/-- `IdentityIndex`. -/
structure Index (Key Tree : Type) where
  trees : Dict Key Tree

/-- `ev["ts"]` as `_ts` returns it: an instant, or something that is not a string and
cannot be added to. -/
inductive TsValue (Time : Type) where
  | time (t : Time)
  | other

/-- The dictionary that a lookup answers with. -/
structure Resolved (Time : Type) where
  userUpn : Json
  confidence : ℤ
  source : Json
  tStart : Time
  ttlRemaining : ℤ

/-- A decoded event. The consumer may have replaced its `ts` by an instant. -/
structure Event (Time : Type) where
  document : Json
  ts : Option Time

section

variable {Time Stamp Key Tree : Type}
variable (py : Builtins Time Stamp Key) (pkg : TreePackage Time Stamp Tree)

/-! ## Reading an event -/

/-- `int(value)`. -/
def intOf : Json → Option ℤ
  | .int n => some n
  | .bool b => some (if b then 1 else 0)
  | .float repr => py.intOfFloat repr
  | .str s => int? (s.map Char.ofNat)
  | .null | .arr _ | .obj _ => none

/-- `_ts`. -/
def tsOf (members : List (PyStr × Json)) : Option Time → Option (TsValue Time)
  | some t => some (.time t)
  | none =>
    match Json.member members "ts" with
    | none => none
    | some (.str s) => (py.fromisoformat (replaceZ s)).map .time
    | some _ => some .other

/-- `ev.get("event_type") == "nac-auth-stop" or int(ev.get("ttl_seconds", 0)) == 0`. -/
def isStop (members : List (PyStr × Json)) : Option Bool :=
  match Json.member members "event_type" with
  | some (.str s) => if s = ofString "nac-auth-stop" then some true else ttlIsZero
  | _ => ttlIsZero
where
  ttlIsZero : Option Bool :=
    match Json.member members "ttl_seconds" with
    | none => some true
    | some ttl => (intOf py ttl).map fun n => n = 0

/-- `ev.get("user_upn")`; a null is `None` as well. -/
def userOf (members : List (PyStr × Json)) : Option Json :=
  match Json.member members "user_upn" with
  | some .null | none => none
  | some user => some user

/-- `t + timedelta(seconds=int(ev["ttl_seconds"]))`, with `t`. -/
def endOf (members : List (PyStr × Json)) : TsValue Time → Option (Time × Time)
  | .other => none
  | .time t => do
    let ttl ← intOf py (← Json.member members "ttl_seconds")
    return (t, ← py.plusSeconds t ttl)

/-- The arguments of `addi`, evaluated from the left. -/
def intervalOf (members : List (PyStr × Json)) (t stop : Time) : Option (Interval Time Stamp) := do
  let beginTs ← py.timestamp t
  let endTs ← py.timestamp stop
  let user ← Json.member members "user_upn"
  let confidence ← intOf py (← Json.member members "confidence")
  let source ← Json.member members "source"
  return ⟨beginTs, endTs, ⟨user, confidence, source, t⟩⟩

/-! ## The operations -/

variable [DecidableEq Key]

def Index.set (idx : Index Key Tree) (key : Key) (tree : Tree) : Index Key Tree :=
  ⟨idx.trees.set key tree⟩

/-- `self._trees.setdefault(ip, IntervalTree())`. -/
def Index.opened (idx : Index Key Tree) (key : Key) : Index Key Tree :=
  ⟨idx.trees.setdefault key pkg.new⟩

/-- The loop of `_invalidate` over the intervals of a user. -/
def removeUser (tree : Tree) (user : Json) : Tree :=
  (pkg.list tree).foldl (fun tree iv =>
    if py.eq iv.data.userUpn user then pkg.remove tree iv else tree) tree

/-- `_invalidate` behind the hash of the address. -/
def invalidateKey (idx : Index Key Tree) (key : Key) (user : Option Json) : Index Key Tree :=
  match idx.trees.get? key with
  | none => idx
  | some tree =>
    if pkg.len tree = 0 then idx
    else
      match user with
      | none => idx.set key (pkg.clear tree)
      | some user => idx.set key (removeUser py pkg tree user)

/-- `_invalidate`, and whether it raises. -/
def invalidate (idx : Index Key Tree) (ip : Json) (user : Option Json) : Index Key Tree × Bool :=
  match py.hashKey ip with
  | none => (idx, true)
  | some key => (invalidateKey py pkg idx key user, false)

/-- `insert` from `self._trees.setdefault` on. -/
def addBinding (idx : Index Key Tree) (key : Key) (members : List (PyStr × Json)) (t stop : Time) :
    Index Key Tree × Bool :=
  let opened := idx.opened pkg key
  match intervalOf py members t stop with
  | none => (opened, true)
  | some iv =>
    match pkg.add ((idx.trees.get? key).getD pkg.new) iv with
    | none => (opened, true)
    | some tree => (opened.set key tree, false)

/-- `insert`, and whether it raises. A document that is not an object has no
`ev["src_ip"]`. -/
def insert (idx : Index Key Tree) (ev : Event Time) : Index Key Tree × Bool :=
  match ev.document with
  | .obj members =>
    match Json.member members "src_ip", tsOf py members ev.ts with
    | some ip, some t =>
      match isStop py members with
      | none => (idx, true)
      | some true => invalidate py pkg idx ip (userOf members)
      | some false =>
        match endOf py members t, py.hashKey ip with
        | some (t, stop), some key => addBinding py pkg idx key members t stop
        | _, _ => (idx, true)
    | _, _ => (idx, true)
  | _ => (idx, true)

/-- The lazy eviction of a lookup. -/
def evict [LinearOrder Stamp] (tree : Tree) (now : Stamp) : Tree :=
  (pkg.list tree).foldl (fun tree iv => if iv.endTs ≤ now then pkg.remove tree iv else tree) tree

/-- Highest confidence first, then the latest start, which is where the interval begins. -/
def sortKey (iv : Interval Time Stamp) : ℤᵒᵈ ×ₗ Stampᵒᵈ :=
  toLex (OrderDual.toDual iv.data.confidence, OrderDual.toDual iv.beginTs)

def answer (now : Stamp) (iv : Interval Time Stamp) : Resolved Time where
  userUpn := iv.data.userUpn
  confidence := iv.data.confidence
  source := iv.data.source
  tStart := iv.data.tStart
  ttlRemaining := py.wholeSeconds iv.endTs now

/-- `resolve`: its answer, `none` where it raises, and the index after the eviction. -/
def resolve [LinearOrder Stamp] (idx : Index Key Tree) (ip : Json) (probe : Time) :
    Option (Option (Resolved Time)) × Index Key Tree :=
  match py.hashKey ip with
  | none => (none, idx)
  | some key =>
    match idx.trees.get? key with
    | none => (some none, idx)
    | some tree =>
      if pkg.len tree = 0 then (some none, idx)
      else
        match py.timestamp probe with
        | none => (none, idx)
        | some now =>
          let kept := evict pkg tree now
          if pkg.len kept = 0 then (some none, ⟨idx.trees.erase key⟩)
          else
            (some (((sortedBy sortKey (pkg.query kept now)).head?).map (answer py now)),
              idx.set key kept)

def size (idx : Index Key Tree) : ℕ := idx.trees.sumBy fun _ tree => pkg.len tree

/-! ## Empty trees -/

/-- The first index is the second one with some new trees that hold nothing. -/
def Shadows (idx idx' : Index Key Tree) : Prop :=
  ∀ key, idx.trees.get? key = idx'.trees.get? key ∨
    idx.trees.get? key = some pkg.new ∧ idx'.trees.get? key = none

omit [DecidableEq Key] in
lemma Shadows.refl [DecidableEq Key] (idx : Index Key Tree) : Shadows pkg idx idx :=
  fun _ => .inl rfl

variable {pkg}

/-- The trees under a key are the same, or one is new and the other is missing. -/
lemma Shadows.cases {idx idx' : Index Key Tree} (h : Shadows pkg idx idx') (key : Key) :
    (∃ tree, idx.trees.get? key = tree ∧ idx'.trees.get? key = tree) ∨
      idx.trees.get? key = some pkg.new ∧ idx'.trees.get? key = none :=
  (h key).imp_left fun he => ⟨_, he, rfl⟩

lemma Shadows.set {idx idx' : Index Key Tree} (h : Shadows pkg idx idx') (key : Key)
    (tree : Tree) : Shadows pkg (idx.set key tree) (idx'.set key tree) := by
  intro k
  simp only [Index.set, Dict.get?_set]
  split_ifs
  · exact .inl rfl
  · exact h k

lemma Shadows.erase {idx idx' : Index Key Tree} (h : Shadows pkg idx idx') (key : Key) :
    Shadows pkg ⟨idx.trees.erase key⟩ ⟨idx'.trees.erase key⟩ := by
  intro k
  simp only [Dict.get?_erase]
  split_ifs
  · exact .inl rfl
  · exact h k

lemma get?_opened (idx : Index Key Tree) (key k : Key) :
    (idx.opened pkg key).trees.get? k =
      if key = k then some ((idx.trees.get? key).getD pkg.new) else idx.trees.get? k := by
  rw [Index.opened, Dict.setdefault, Dict.get?_update]
  rfl

lemma Shadows.getD_eq {idx idx' : Index Key Tree} (h : Shadows pkg idx idx') (key : Key) :
    (idx.trees.get? key).getD pkg.new = (idx'.trees.get? key).getD pkg.new := by
  obtain he | ⟨hnew, hnone⟩ := h key
  · rw [he]
  · rw [hnew, hnone]
    rfl

/-- Creating the tree of an address is not noticed. -/
lemma opened_shadows (idx : Index Key Tree) (key : Key) :
    Shadows pkg (idx.opened pkg key) idx := by
  intro k
  rw [get?_opened]
  split_ifs with hk
  · subst hk
    cases idx.trees.get? key with
    | none => exact .inr ⟨rfl, rfl⟩
    | some tree => exact .inl rfl
  · exact .inl rfl

lemma Shadows.opened {idx idx' : Index Key Tree} (h : Shadows pkg idx idx') (key : Key) :
    Shadows pkg (idx.opened pkg key) (idx'.opened pkg key) := by
  intro k
  rw [get?_opened, get?_opened]
  split_ifs
  · exact .inl (by rw [h.getD_eq])
  · exact h k

/-! ## What raises leaves a new tree at most -/

variable {py}

theorem addBinding_raised {idx : Index Key Tree} {key : Key} {members : List (PyStr × Json)}
    {t stop : Time} (h : (addBinding py pkg idx key members t stop).2 = true) :
    (addBinding py pkg idx key members t stop).1 = idx.opened pkg key := by
  unfold addBinding at h ⊢
  cases hiv : intervalOf py members t stop with
  | none => rfl
  | some iv =>
    cases hadd : pkg.add ((idx.trees.get? key).getD pkg.new) iv with
    | none => simp [hadd]
    | some tree => simp [hiv, hadd] at h

theorem invalidate_raised {idx : Index Key Tree} {ip : Json} {user : Option Json}
    (h : (invalidate py pkg idx ip user).2 = true) :
    (invalidate py pkg idx ip user).1 = idx := by
  unfold invalidate at h ⊢
  cases hkey : py.hashKey ip with
  | none => rfl
  | some key => simp [hkey] at h

/-- What `insert` can do: raise at once, invalidate, or go on to the tree. -/
theorem insert_cases (py : Builtins Time Stamp Key) (pkg : TreePackage Time Stamp Tree)
    (ev : Event Time) :
    (∀ idx : Index Key Tree, insert py pkg idx ev = (idx, true)) ∨
    (∃ ip user, ∀ idx : Index Key Tree, insert py pkg idx ev = invalidate py pkg idx ip user) ∨
    ∃ key members t stop, ∀ idx : Index Key Tree,
      insert py pkg idx ev = addBinding py pkg idx key members t stop := by
  unfold insert
  cases ev.document with
  | obj members =>
    dsimp only
    split
    · next ip t _ _ =>
      cases isStop py members with
      | none => exact .inl fun _ => rfl
      | some stop =>
        cases stop with
        | true => exact .inr (.inl ⟨ip, userOf members, fun _ => rfl⟩)
        | false =>
          dsimp only
          split
          · next t stop key _ _ => exact .inr (.inr ⟨key, members, t, stop, fun _ => rfl⟩)
          · exact .inl fun _ => rfl
    · exact .inl fun _ => rfl
  | _ => exact .inl fun _ => rfl

theorem insert_raised {idx : Index Key Tree} {ev : Event Time}
    (h : (insert py pkg idx ev).2 = true) : Shadows pkg (insert py pkg idx ev).1 idx := by
  obtain he | ⟨ip, user, he⟩ | ⟨key, members, t, stop, he⟩ := insert_cases py pkg ev
  · rw [he]
    exact .refl pkg idx
  · rw [he] at h ⊢
    rw [invalidate_raised h]
    exact .refl pkg idx
  · rw [he] at h ⊢
    rw [addBinding_raised h]
    exact opened_shadows idx key

/-! ## Nothing tells the two apart -/

lemma invalidateKey_shadows {idx idx' : Index Key Tree} (h : Shadows pkg idx idx') (key : Key)
    (user : Option Json) :
    Shadows pkg (invalidateKey py pkg idx key user) (invalidateKey py pkg idx' key user) := by
  unfold invalidateKey
  obtain ⟨tree, hl, hr⟩ | ⟨hl, hr⟩ := h.cases key
  · rw [hl, hr]
    cases tree with
    | none => exact h
    | some tree =>
      dsimp only
      split_ifs
      · exact h
      · cases user with
        | none => exact h.set key _
        | some user => exact h.set key _
  · rw [hl, hr]
    simpa only [pkg.len_new, if_true] using h

lemma addBinding_shadows {idx idx' : Index Key Tree} (h : Shadows pkg idx idx') (key : Key)
    (members : List (PyStr × Json)) (t stop : Time) :
    (addBinding py pkg idx key members t stop).2 = (addBinding py pkg idx' key members t stop).2 ∧
      Shadows pkg (addBinding py pkg idx key members t stop).1
        (addBinding py pkg idx' key members t stop).1 := by
  have hopened := h.opened key
  unfold addBinding
  rw [h.getD_eq key]
  dsimp only
  cases intervalOf py members t stop with
  | none => exact ⟨rfl, hopened⟩
  | some iv =>
    dsimp only
    cases pkg.add ((idx'.trees.get? key).getD pkg.new) iv with
    | none => exact ⟨rfl, hopened⟩
    | some tree => exact ⟨rfl, hopened.set key tree⟩

theorem insert_shadows {idx idx' : Index Key Tree} (h : Shadows pkg idx idx') (ev : Event Time) :
    (insert py pkg idx ev).2 = (insert py pkg idx' ev).2 ∧
      Shadows pkg (insert py pkg idx ev).1 (insert py pkg idx' ev).1 := by
  obtain he | ⟨ip, user, he⟩ | ⟨key, members, t, stop, he⟩ := insert_cases py pkg ev
  · rw [he, he]
    exact ⟨rfl, h⟩
  · rw [he, he, invalidate, invalidate]
    cases py.hashKey ip with
    | none => exact ⟨rfl, h⟩
    | some key => exact ⟨rfl, invalidateKey_shadows h key user⟩
  · rw [he, he]
    exact addBinding_shadows h key members t stop

theorem resolve_shadows [LinearOrder Stamp] {idx idx' : Index Key Tree} (h : Shadows pkg idx idx')
    (ip : Json) (probe : Time) :
    (resolve py pkg idx ip probe).1 = (resolve py pkg idx' ip probe).1 ∧
      Shadows pkg (resolve py pkg idx ip probe).2 (resolve py pkg idx' ip probe).2 := by
  unfold resolve
  cases py.hashKey ip with
  | none => exact ⟨rfl, h⟩
  | some key =>
    dsimp only
    obtain ⟨tree, hl, hr⟩ | ⟨hl, hr⟩ := h.cases key
    · rw [hl, hr]
      cases tree with
      | none => exact ⟨rfl, h⟩
      | some tree =>
        dsimp only
        split_ifs
        · exact ⟨rfl, h⟩
        · cases py.timestamp probe with
          | none => exact ⟨rfl, h⟩
          | some now =>
            dsimp only
            split_ifs
            · exact ⟨rfl, h.erase key⟩
            · exact ⟨rfl, h.set key _⟩
    · rw [hl, hr]
      simpa only [pkg.len_new, if_true, true_and] using h

theorem size_shadows {idx idx' : Index Key Tree} (h : Shadows pkg idx idx') :
    size pkg idx = size pkg idx' := by
  apply Dict.sumBy_congr
  intro key
  obtain he | ⟨hl, hr⟩ := h key
  · rw [he]
  · rw [hl, hr]
    exact pkg.len_new

/-! ## Streams -/

/-- The body of `_identity_consumer` up to the insert; `none` where it raises. -/
def parse (py : Builtins Time Stamp Key) (fields : StreamConsumer.Fields) : Option (Event Time) := do
  let text ← fields
  match loads py.float text with
  | some (.obj members) =>
    match Json.member members "ts" with
    | some (.str s) => return ⟨.obj members, ← py.fromisoformat s⟩
    | _ => some ⟨.obj members, none⟩
  | _ => none

/-- One entry of the stream, and whether it raises. -/
def consume (py : Builtins Time Stamp Key) (pkg : TreePackage Time Stamp Tree)
    (idx : Index Key Tree) (fields : StreamConsumer.Fields) : Index Key Tree × Bool :=
  match parse py fields with
  | none => (idx, true)
  | some ev => insert py pkg idx ev

/-- The consumer handles an entry, a flow is looked up, or the gauge is set. -/
inductive Op (Time : Type) where
  | entry (fields : StreamConsumer.Fields)
  | resolve (ip : Json) (probe : Time)
  | size

/-- What is seen of the index from outside. -/
inductive Output (Time : Type) where
  | resolved (answer : Option (Option (Resolved Time)))
  | size (n : ℕ)

section

variable (py pkg) [LinearOrder Stamp]

def step (idx : Index Key Tree) : Op Time → Index Key Tree
  | .entry fields => (consume py pkg idx fields).1
  | .resolve ip probe => (resolve py pkg idx ip probe).2
  | .size => idx

/-- The answers of a run. -/
def outputs : Index Key Tree → List (Op Time) → List (Output Time)
  | _, [] => []
  | idx, .entry fields :: rest => outputs (step py pkg idx (.entry fields)) rest
  | idx, .resolve ip probe :: rest =>
    .resolved (resolve py pkg idx ip probe).1 :: outputs (step py pkg idx (.resolve ip probe)) rest
  | idx, .size :: rest => .size (size pkg idx) :: outputs idx rest

/-- The operations of a run without the entries that raise in it. -/
def withoutRaising : Index Key Tree → List (Op Time) → List (Op Time)
  | _, [] => []
  | idx, .entry fields :: rest =>
    let kept := withoutRaising (step py pkg idx (.entry fields)) rest
    if (consume py pkg idx fields).2 then kept else .entry fields :: kept
  | idx, .resolve ip probe :: rest =>
    .resolve ip probe :: withoutRaising (step py pkg idx (.resolve ip probe)) rest
  | idx, .size :: rest => .size :: withoutRaising idx rest

end

theorem consume_raised {idx : Index Key Tree} {fields : StreamConsumer.Fields}
    (h : (consume py pkg idx fields).2 = true) : Shadows pkg (consume py pkg idx fields).1 idx := by
  unfold consume at h ⊢
  cases hev : parse py fields with
  | none => exact .refl pkg idx
  | some ev =>
    rw [hev] at h
    exact insert_raised h

theorem consume_shadows {idx idx' : Index Key Tree} (h : Shadows pkg idx idx')
    (fields : StreamConsumer.Fields) :
    Shadows pkg (consume py pkg idx fields).1 (consume py pkg idx' fields).1 := by
  unfold consume
  cases parse py fields with
  | none => exact h
  | some ev => exact (insert_shadows h ev).2

lemma Shadows.trans {idx idx' idx'' : Index Key Tree} (h : Shadows pkg idx idx')
    (h' : Shadows pkg idx' idx'') : Shadows pkg idx idx'' := by
  intro key
  obtain he | ⟨hl, hr⟩ := h key
  · rw [he]
    exact h' key
  · obtain he' | ⟨hl', _⟩ := h' key
    · exact .inr ⟨hl, he' ▸ hr⟩
    · rw [hr] at hl'
      cases hl'

/-- An entry that raises can be left out of the second run. -/
lemma outputs_withoutRaising [LinearOrder Stamp] {idx idx' : Index Key Tree}
    (h : Shadows pkg idx idx') (ops : List (Op Time)) :
    outputs py pkg idx ops = outputs py pkg idx' (withoutRaising py pkg idx ops) := by
  induction ops generalizing idx idx' with
  | nil => rfl
  | cons op rest ih =>
    cases op with
    | entry fields =>
      rw [outputs, withoutRaising]
      cases hraised : (consume py pkg idx fields).2 with
      | true => exact ih ((consume_raised hraised).trans h)
      | false => exact ih (consume_shadows h fields)
    | resolve ip probe =>
      obtain ⟨hanswer, hafter⟩ := resolve_shadows h ip probe
      rw [outputs, withoutRaising, outputs, hanswer]
      exact congrArg _ (ih hafter)
    | size =>
      rw [outputs, withoutRaising, outputs, size_shadows h]
      exact congrArg _ (ih h)

/-- In every state an event that raises changes neither the size nor any lookup, and in
every run all later answers are those of the run without the entries that raised. -/
theorem rejected_event_unnoticed [LinearOrder Stamp] (py : Builtins Time Stamp Key)
    (pkg : TreePackage Time Stamp Tree) (idx : Index Key Tree) :
    (∀ ev : Event Time, (insert py pkg idx ev).2 = true →
      size pkg (insert py pkg idx ev).1 = size pkg idx ∧
      ∀ (ip : Json) (probe : Time), (resolve py pkg (insert py pkg idx ev).1 ip probe).1 =
        (resolve py pkg idx ip probe).1) ∧
    ∀ ops : List (Op Time), outputs py pkg idx ops =
      outputs py pkg idx (withoutRaising py pkg idx ops) := by
  constructor
  · intro ev hraised
    have hshadows := insert_raised hraised
    exact ⟨size_shadows hshadows, fun ip probe => (resolve_shadows hshadows ip probe).1⟩
  · intro ops
    exact outputs_withoutRaising (.refl pkg idx) ops

end

/-- Instants in microseconds, and addresses that are strings. -/
def microBuiltins : Builtins ℤ ℤ PyStr where
  fromisoformat := StreamConsumer.fromisoformatNoon
  plusSeconds := PyTime.addSeconds?
  timestamp := some
  intOfFloat _ := none
  wholeSeconds stop now := (stop - now).tdiv PyTime.microsPerSecond
  hashKey
    | .str s => some s
    | _ => none
  eq a b := a == b
  float := id

/-- Trees as lists without repetitions of an interval and its user. -/
def listPackage : TreePackage ℤ ℤ (List (Interval ℤ ℤ)) where
  new := []
  len := List.length
  add tree iv := if iv.beginTs < iv.endTs then some (tree ++ [iv]) else none
  clear _ := []
  list := id
  remove tree iv := tree.eraseP fun iv' =>
    iv'.beginTs = iv.beginTs && iv'.endTs = iv.endTs && iv'.data.userUpn == iv.data.userUpn
  query tree now := tree.filter fun iv => iv.beginTs ≤ now && now < iv.endTs
  len_new := rfl

/-- A session without a user. -/
def namelessEvent : Event ℤ where
  document := .obj [(ofString "src_ip", .str (ofString "10.0.0.1")),
    (ofString "ttl_seconds", .int 60), (ofString "confidence", .int 70)]
  ts := some 0

/-- It raises and leaves a tree behind, and the address still has no user. -/
theorem rejected_event_unnoticed_nameless :
    let idx : Index PyStr (List (Interval ℤ ℤ)) := ⟨.empty⟩
    let after := insert microBuiltins listPackage idx namelessEvent
    after.2 = true ∧ after.1.trees.keys = [ofString "10.0.0.1"] ∧
      size listPackage after.1 = 0 ∧
      (resolve microBuiltins listPackage after.1 (.str (ofString "10.0.0.1")) 5).1 =
        (resolve microBuiltins listPackage idx (.str (ofString "10.0.0.1")) 5).1 := by
  have hraised : (insert microBuiltins listPackage ⟨.empty⟩ namelessEvent).2 = true := by decide
  obtain ⟨hsize, hresolve⟩ :=
    (rejected_event_unnoticed microBuiltins listPackage ⟨.empty⟩).1 namelessEvent hraised
  exact ⟨hraised, by decide, hsize, hresolve _ 5⟩

end FlowDiscovery.RejectedEvents
