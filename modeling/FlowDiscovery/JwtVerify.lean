import FlowDiscovery.Applications

/-!
# Exceptions of the token check

`current_user` catches `InvalidToken` only. `verify_jwt` turns the `KeyError` of the key
lookup and the `JWTError` of the decoder into it. Whatever else the two fetches of a
refresh, the lookup of a key id or the decoder raise goes past it.
-/
namespace FlowDiscovery.JwtVerify
open PyText PyJson

abbrev Members := List (PyStr × Json)

inductive Raised where
  | invalidToken
  | keyError
  | typeError
  | http
  | notJson
  | jose
  deriving DecidableEq, Repr

/-- Passes both handlers, the one around the key lookup and the one of `current_user`. -/
def Unhandled (e : Raised) : Prop := e ≠ .keyError ∧ e ≠ .invalidToken

instance (e : Raised) : Decidable (Unhandled e) := inferInstanceAs (Decidable (_ ∧ _))

/-! ## The key cache -/

/-- A value as a key of a dictionary. -/
inductive Key where
  | null
  | whole (n : ℤ)
  | fraction (repr : Text)
  | str (s : PyStr)
  deriving DecidableEq, Repr

/-- What `client.get(..)` and `.json()` come to. -/
inductive Fetched where
  | unreachable
  | notJson
  | document (d : Json)

/-- The identity provider during one refresh, and the clock at its end. -/
structure Provider where
  discovery : Fetched
  jwks : PyStr → Fetched
  now : ℚ

structure JwksCache where
  ttl : ℚ
  keys : Dict Key Json
  fetchedAt : ℚ

/-- A step that may raise; what it has assigned before stays assigned. -/
abbrev Step := ExceptT Raised (StateM JwksCache)

/-- The outcome of a step and the cache behind it. -/
def exec {α : Type} (x : Step α) (s : JwksCache) : Except Raised α × JwksCache :=
  (x.run.run s).run

def ofExcept {α : Type} (x : Except Raised α) : Step α := ExceptT.mk (pure x)

def Fetched.json : Fetched → Except Raised Json
  | .unreachable => .error .http
  | .notJson => .error .notJson
  | .document d => .ok d

/-- `client.get(uri)`; anything but a text is no URL. -/
def Provider.get (p : Provider) : Json → Except Raised Json
  | .str uri => (p.jwks uri).json
  | _ => .error .typeError

/-- `d[name]`; only an object takes a text between the brackets. -/
def item (name : String) : Json → Except Raised Json
  | .obj members =>
    match Json.member members name with
    | some value => .ok value
    | none => .error .keyError
  | _ => .error .typeError

/-- The elements of a value in a loop: of an object its keys, of a text its characters. -/
def iterate : Json → Except Raised (List Json)
  | .arr items => .ok items
  | .obj members => .ok (members.map fun m => .str m.1)
  | .str s => .ok (s.map fun c => .str [c])
  | .null | .bool _ | .int _ | .float _ => .error .typeError

def JwksCache.isStale (s : JwksCache) (now : ℚ) : Bool :=
  s.keys.entries.isEmpty || s.ttl < now - s.fetchedAt

section

/- The integer that a float of this `repr` is equal to. -/
variable (whole : Text → Option ℤ)

/-- `none` is the `TypeError` of a value without a hash. Equal numbers are one key. -/
def hashKey : Json → Option Key
  | .null => some .null
  | .bool b => some (.whole (if b then 1 else 0))
  | .int n => some (.whole n)
  | .float repr =>
    match whole repr with
    | some n => some (.whole n)
    | none => some (.fraction repr)
  | .str s => some (.str s)
  | .arr _ | .obj _ => none

/-- An entry of `{k["kid"]: k for k in jwks["keys"]}`. -/
def addKey (table : Dict Key Json) (k : Json) : Except Raised (Dict Key Json) := do
  let kid ← item "kid" k
  match hashKey whole kid with
  | none => throw .typeError
  | some key => return table.set key k

/-- What `_refresh` assigns to `_keys`. -/
def keyTable (p : Provider) : Except Raised (Dict Key Json) := do
  let disc ← p.discovery.json
  let uri ← item "jwks_uri" disc
  let jwks ← p.get uri
  let keys ← item "keys" jwks
  let items ← iterate keys
  items.foldlM (addKey whole) Dict.empty

def refresh (p : Provider) : Step Unit := do
  let table ← ofExcept (keyTable whole p)
  modify fun s => { s with keys := table }
  modify fun s => { s with fetchedAt := p.now }

/-- What a call of `get_key` finds around it: the clock, and the provider during the
refresh of a stale cache and during the one after a miss. -/
structure Call where
  now : ℚ
  onStale : Provider
  onMiss : Provider

/-- `self._keys[kid]` if `kid in self._keys`. -/
def find (kid : Json) : Step (Option Json) := do
  match hashKey whole kid with
  | none => throw .typeError
  | some key => return (← get).keys.get? key

/-- `get_key` behind the refresh of a stale cache: a miss forces one more refresh. -/
def findOrRefresh (call : Call) (kid : Json) : Step Json := do
  match ← find whole kid with
  | some key => return key
  | none =>
    refresh whole call.onMiss
    match ← find whole kid with
    | some key => return key
    | none => throw .keyError

def getKey (call : Call) (kid : Json) : Step Json := do
  if (← get).isStale call.now then refresh whole call.onStale
  findOrRefresh whole call kid

/-! ## The verification -/

/-- `other` is an exception of `jwt.decode` that is no `JWTError`. -/
inductive Decoded where
  | claims (c : Members)
  | expired
  | jwtError
  | other
  deriving BEq

/-- python-jose. It raises `JWTError` for a header that is no JSON object. -/
structure Jose where
  unverifiedHeader : Text → Option Members
  decode : (token : Text) → (key : Json) → (algorithms : List String) →
    (audience issuer : String) → Decoded

/-- A key id that counts as true. -/
def kidOf (header : Members) : Option Json := (Json.member header "kid").filter Json.truthy

structure Settings where
  jose : Jose
  audience : String
  issuer : String

def Settings.decode (cfg : Settings) (token : Text) (key : Json) : Decoded :=
  cfg.jose.decode token key ["RS256"] cfg.audience cfg.issuer

def verifyJwt (cfg : Settings) (call : Call) (token : Text) : Step Members :=
  match cfg.jose.unverifiedHeader token with
  | none => throw .invalidToken
  | some header =>
    match kidOf header with
    | none => throw .invalidToken
    | some kid => do
      let key ← tryCatch (getKey whole call kid) fun
        | .keyError => throw .invalidToken
        | e => throw e
      match cfg.decode token key with
      | .claims c => return c
      | .expired | .jwtError => throw .invalidToken
      | .other => throw .jose

/-! ## The property -/

/-- A call returns claims that python-jose has accepted or raises `InvalidToken`, and a
refresh of it that fails leaves the cache as it was. -/
structure FailsSafely (cfg : Settings) (call : Call) (token : Text) (s : JwksCache) : Prop where
  accepted : ∀ c, (exec (verifyJwt whole cfg call token) s).1 = .ok c →
    ∃ key, cfg.decode token key = .claims c
  invalid : ∀ e, (exec (verifyJwt whole cfg call token) s).1 = .error e → e = .invalidToken
  kept : ∀ p ∈ [call.onStale, call.onMiss], ∀ s' e,
    (exec (refresh whole p) s').1 = .error e → (exec (refresh whole p) s').2 = s'

/-- The key id of an entry. -/
def keyId : Json → Option Key
  | .obj members => (Json.member members "kid").bind (hashKey whole)
  | _ => none

/-- The last of the entries with a key id. -/
def keyOf (items : List Json) (key : Key) : Option Json :=
  items.reverse.find? fun k => keyId whole k = some key

/-- The documents up to the one under `jwks_uri`. -/
def Answers (p : Provider) (jwks : Members) : Prop :=
  ∃ disc uri, p.discovery = .document (.obj disc) ∧
    Json.member disc "jwks_uri" = some (.str uri) ∧ p.jwks uri = .document (.obj jwks)

/-- Two documents with the entries, each of which has a key id. -/
structure Serves (p : Provider) (items : List Json) : Prop where
  entries : ∃ jwks keys, Answers p jwks ∧ Json.member jwks "keys" = some keys ∧
    iterate keys = .ok items
  kids : ∀ k ∈ items, (keyId whole k).isSome

/-- One of `jwks_uri`, `keys` and `kid` is missing, and nothing is wrong before it. -/
inductive Lacks (p : Provider) : Prop where
  | jwksUri {disc : Members} (hdisc : p.discovery = .document (.obj disc))
      (huri : Json.member disc "jwks_uri" = none) : Lacks p
  | keys {jwks : Members} (hjwks : Answers p jwks) (hkeys : Json.member jwks "keys" = none) :
      Lacks p
  | kid {jwks members : Members} {keys : Json} {before after : List Json}
      (hjwks : Answers p jwks) (hkeys : Json.member jwks "keys" = some keys)
      (hitems : iterate keys = .ok (before ++ .obj members :: after))
      (hbefore : ∀ k ∈ before, (keyId whole k).isSome)
      (hkid : Json.member members "kid" = none) : Lacks p

/-- Anything else: no answer, no JSON, a document or an entry that is no object, a
`jwks_uri` that is no text, `keys` that cannot be looped over, a `kid` without a hash. -/
def Broken (p : Provider) : Prop := (∀ items, ¬ Serves whole p items) ∧ ¬ Lacks whole p

/-- The keys in which a key id is looked up first. -/
inductive FirstTable (call : Call) (s : JwksCache) : (Key → Option Json) → Prop where
  | cached (h : s.isStale call.now = false) : FirstTable call s s.keys.get?
  | fetched {items : List Json} (h : s.isStale call.now = true)
      (hitems : Serves whole call.onStale items) : FirstTable call s (keyOf whole items)

/-- The ways past the handler for a token with this key id. -/
inductive Escapes (cfg : Settings) (call : Call) (token : Text) (s : JwksCache) (kid : Json) :
    Prop where
  | stale (h : s.isStale call.now = true) (hbroken : Broken whole call.onStale) :
      Escapes cfg call token s kid
  | unhashable {table : Key → Option Json} (htable : FirstTable whole call s table)
      (hkid : hashKey whole kid = none) : Escapes cfg call token s kid
  | hit {table : Key → Option Json} {id : Key} {key : Json}
      (htable : FirstTable whole call s table) (hkid : hashKey whole kid = some id)
      (hkey : table id = some key) (hdecode : cfg.decode token key = .other) :
      Escapes cfg call token s kid
  | miss {table : Key → Option Json} {id : Key} (htable : FirstTable whole call s table)
      (hkid : hashKey whole kid = some id) (hkey : table id = none)
      (hbroken : Broken whole call.onMiss) : Escapes cfg call token s kid
  | rotated {table : Key → Option Json} {id : Key} {items : List Json} {key : Json}
      (htable : FirstTable whole call s table) (hkid : hashKey whole kid = some id)
      (hkey : table id = none) (hitems : Serves whole call.onMiss items)
      (hrotated : keyOf whole items id = some key)
      (hdecode : cfg.decode token key = .other) : Escapes cfg call token s kid

/-! ## Refreshes -/

variable {whole}

lemma bind_of_ok {α β : Type} {x : Except Raised α} {a : α} (h : x = .ok a)
    (f : α → Except Raised β) : x >>= f = f a := by
  rw [h]
  rfl

lemma bind_of_error {α β : Type} {x : Except Raised α} {e : Raised} (h : x = .error e)
    (f : α → Except Raised β) : x >>= f = .error e := by
  rw [h]
  rfl

lemma item_of_member {members : Members} {name : String} {value : Json}
    (h : Json.member members name = some value) : item name (.obj members) = .ok value := by
  rw [item, h]

lemma item_of_missing {members : Members} {name : String}
    (h : Json.member members name = none) : item name (.obj members) = .error .keyError := by
  rw [item, h]

lemma item_eq_ok {name : String} {d value : Json} (h : item name d = .ok value) :
    ∃ members, d = .obj members ∧ Json.member members name = some value := by
  cases d with
  | obj members =>
    cases hmember : Json.member members name with
    | none =>
      rw [item_of_missing hmember] at h
      cases h
    | some v =>
      rw [item_of_member hmember] at h
      cases h
      exact ⟨members, rfl, hmember⟩
  | _ => cases h

/-- A missing member is the only source of a `KeyError`. -/
lemma item_eq_error {name : String} {d : Json} {e : Raised} (h : item name d = .error e) :
    (e = .keyError ∧ ∃ members, d = .obj members ∧ Json.member members name = none) ∨
      e = .typeError := by
  cases d with
  | obj members =>
    cases hmember : Json.member members name with
    | none =>
      rw [item_of_missing hmember] at h
      cases h
      exact .inl ⟨rfl, members, rfl, hmember⟩
    | some v =>
      rw [item_of_member hmember] at h
      cases h
  | _ =>
    cases h
    exact .inr rfl

lemma addKey_of_keyId {k : Json} {key : Key} (h : keyId whole k = some key)
    (table : Dict Key Json) : addKey whole table k = .ok (table.set key k) := by
  cases k with
  | obj members =>
    obtain ⟨kid, hkid, hkey⟩ := Option.bind_eq_some_iff.mp h
    rw [addKey, bind_of_ok (item_of_member hkid), hkey]
    rfl
  | _ => cases h

/-- An entry without a key id ends the loop, with a `KeyError` if it has no `kid`. -/
lemma addKey_of_no_keyId {k : Json} (h : keyId whole k = none) :
    ∃ e, (∀ table, addKey whole table k = .error e) ∧
      ((e = .keyError ∧ ∃ members, k = .obj members ∧ Json.member members "kid" = none) ∨
        e = .typeError) := by
  cases k with
  | obj members =>
    cases hkid : Json.member members "kid" with
    | none =>
      refine ⟨.keyError, fun table => ?_, .inl ⟨rfl, members, rfl, hkid⟩⟩
      rw [addKey, bind_of_error (item_of_missing hkid)]
    | some kid =>
      have hkey : hashKey whole kid = none := by
        rwa [keyId, hkid, Option.bind_some] at h
      refine ⟨.typeError, fun table => ?_, .inr rfl⟩
      rw [addKey, bind_of_ok (item_of_member hkid), hkey]
      rfl
  | _ => exact ⟨.typeError, fun table => rfl, .inr rfl⟩

lemma foldlM_addKey_of_keyIds {items : List Json} (h : ∀ k ∈ items, (keyId whole k).isSome)
    (table : Dict Key Json) :
    ∃ t, items.foldlM (addKey whole) table = .ok t ∧
      ∀ key, t.get? key = (keyOf whole items key).or (table.get? key) := by
  induction items generalizing table with
  | nil => exact ⟨table, rfl, fun key => rfl⟩
  | cons k rest ih =>
    obtain ⟨key, hkey⟩ := Option.isSome_iff_exists.mp (h k List.mem_cons_self)
    obtain ⟨t, ht, hget⟩ := ih (fun k' hk' => h k' (List.mem_cons_of_mem _ hk')) (table.set key k)
    refine ⟨t, ?_, fun key' => ?_⟩
    · rw [List.foldlM_cons, addKey_of_keyId hkey]
      exact ht
    · rw [hget, Dict.get?_set, keyOf, keyOf, List.reverse_cons, List.find?_append, Option.or_assoc]
      by_cases hsame : key = key' <;> simp [hkey, hsame]

lemma exists_first_without {items : List Json} (h : ¬ ∀ k ∈ items, (keyId whole k).isSome) :
    ∃ before k after, items = before ++ k :: after ∧
      (∀ k' ∈ before, (keyId whole k').isSome) ∧ keyId whole k = none := by
  induction items with
  | nil => exact absurd (by simp) h
  | cons k rest ih =>
    cases hk : keyId whole k with
    | none => exact ⟨[], k, rest, rfl, by simp, hk⟩
    | some key =>
      have hrest : ¬ ∀ k' ∈ rest, (keyId whole k').isSome := fun hrest =>
        h (List.forall_mem_cons.mpr ⟨by simp [hk], hrest⟩)
      obtain ⟨before, k', after, rfl, hbefore, hk'⟩ := ih hrest
      exact ⟨k :: before, k', after, rfl, List.forall_mem_cons.mpr ⟨by simp [hk], hbefore⟩, hk'⟩

/-- The loop ends at the first entry without a key id. -/
lemma foldlM_addKey_append {before : List Json} (h : ∀ k ∈ before, (keyId whole k).isSome)
    {k : Json} {e : Raised} (hk : ∀ table, addKey whole table k = .error e) (after : List Json)
    (table : Dict Key Json) :
    (before ++ k :: after).foldlM (addKey whole) table = .error e := by
  obtain ⟨t, ht, _⟩ := foldlM_addKey_of_keyIds h table
  rw [List.foldlM_append, bind_of_ok ht, List.foldlM_cons, bind_of_error (hk t)]

lemma iterate_eq_error {value : Json} {e : Raised} (h : iterate value = .error e) :
    e = .typeError := by
  cases value <;> cases h <;> rfl

lemma json_eq_ok {f : Fetched} {d : Json} (h : f.json = .ok d) : f = .document d := by
  cases f <;> cases h
  rfl

lemma json_eq_error {f : Fetched} {e : Raised} (h : f.json = .error e) : Unhandled e := by
  cases f <;> cases h <;> decide

lemma get_eq_ok {p : Provider} {value d : Json} (h : p.get value = .ok d) :
    ∃ uri, value = .str uri ∧ p.jwks uri = .document d := by
  cases value with
  | str uri => exact ⟨uri, rfl, json_eq_ok h⟩
  | _ => cases h

lemma get_eq_error {p : Provider} {value : Json} {e : Raised} (h : p.get value = .error e) :
    Unhandled e := by
  cases value with
  | str uri => exact json_eq_error h
  | _ =>
    cases h
    decide

lemma keyTable_of_answers {p : Provider} {jwks : Members} (h : Answers p jwks) :
    keyTable whole p = item "keys" (.obj jwks) >>= fun keys => iterate keys >>= fun items =>
      items.foldlM (addKey whole) Dict.empty := by
  obtain ⟨disc, uri, hdisc, huri, hjwks⟩ := h
  have hdisc' : p.discovery.json = .ok (.obj disc) := by
    rw [hdisc]
    rfl
  have hjwks' : p.get (.str uri) = .ok (.obj jwks) := by
    rw [Provider.get, hjwks]
    rfl
  rw [keyTable, bind_of_ok hdisc', bind_of_ok (item_of_member huri), bind_of_ok hjwks']

lemma keyTable_of_entries {p : Provider} {jwks : Members} {keys : Json} {items : List Json}
    (h : Answers p jwks) (hkeys : Json.member jwks "keys" = some keys)
    (hitems : iterate keys = .ok items) :
    keyTable whole p = items.foldlM (addKey whole) Dict.empty := by
  rw [keyTable_of_answers h, bind_of_ok (item_of_member hkeys), bind_of_ok hitems]

theorem keyTable_of_serves {p : Provider} {items : List Json} (h : Serves whole p items) :
    ∃ t, keyTable whole p = .ok t ∧ ∀ key, t.get? key = keyOf whole items key := by
  obtain ⟨jwks, keys, hjwks, hkeys, hitems⟩ := h.entries
  obtain ⟨t, ht, hget⟩ := foldlM_addKey_of_keyIds h.kids Dict.empty
  refine ⟨t, ?_, fun key => ?_⟩
  · rw [keyTable_of_entries hjwks hkeys hitems, ht]
  · rw [hget, Dict.get?_empty, Option.or_none]

theorem keyTable_of_lacks {p : Provider} (h : Lacks whole p) :
    keyTable whole p = .error .keyError := by
  cases h with
  | @jwksUri disc hdisc huri =>
    have hdisc' : p.discovery.json = .ok (.obj disc) := by
      rw [hdisc]
      rfl
    rw [keyTable, bind_of_ok hdisc', bind_of_error (item_of_missing huri)]
  | keys hjwks hkeys => rw [keyTable_of_answers hjwks, bind_of_error (item_of_missing hkeys)]
  | kid hjwks hkeys hitems hbefore hkid =>
    rw [keyTable_of_entries hjwks hkeys hitems]
    refine foldlM_addKey_append hbefore (fun table => ?_) _ _
    rw [addKey, bind_of_error (item_of_missing hkid)]

/-- Without two documents the refresh raises, and not a `KeyError` unless a member is
missing. -/
lemma keyTable_of_no_answers {p : Provider} (h : ∀ jwks, ¬ Answers p jwks)
    (hlacks : ¬ Lacks whole p) :
    ∃ e, keyTable whole p = .error e ∧ Unhandled e := by
  cases hdisc : p.discovery.json with
  | error e => exact ⟨e, by rw [keyTable, bind_of_error hdisc], json_eq_error hdisc⟩
  | ok d =>
    cases huri : item "jwks_uri" d with
    | error e =>
      refine ⟨e, by rw [keyTable, bind_of_ok hdisc, bind_of_error huri], ?_⟩
      obtain ⟨rfl, disc, rfl, hmissing⟩ | rfl := item_eq_error huri
      · exact absurd (.jwksUri (json_eq_ok hdisc) hmissing) hlacks
      · decide
    | ok uri =>
      cases hjwks : p.get uri with
      | error e =>
        refine ⟨e, ?_, get_eq_error hjwks⟩
        rw [keyTable, bind_of_ok hdisc, bind_of_ok huri, bind_of_error hjwks]
      | ok j =>
        cases hkeys : item "keys" j with
        | error e =>
          refine ⟨e, ?_, ?_⟩
          · rw [keyTable, bind_of_ok hdisc, bind_of_ok huri, bind_of_ok hjwks, bind_of_error hkeys]
          · obtain ⟨disc, rfl, hmember⟩ := item_eq_ok huri
            obtain ⟨uri, rfl, hget⟩ := get_eq_ok hjwks
            obtain ⟨rfl, jwks, rfl, _⟩ | rfl := item_eq_error hkeys
            · exact absurd ⟨disc, uri, json_eq_ok hdisc, hmember, hget⟩ (h jwks)
            · decide
        | ok keys =>
          obtain ⟨disc, rfl, hmember⟩ := item_eq_ok huri
          obtain ⟨uri, rfl, hget⟩ := get_eq_ok hjwks
          obtain ⟨jwks, rfl, _⟩ := item_eq_ok hkeys
          exact absurd ⟨disc, uri, json_eq_ok hdisc, hmember, hget⟩ (h jwks)

/-- What is neither served nor lacking raises something that is not handled. -/
theorem keyTable_of_broken {p : Provider} (h : Broken whole p) :
    ∃ e, keyTable whole p = .error e ∧ Unhandled e := by
  obtain ⟨hserves, hlacks⟩ := h
  by_cases hanswers : ∃ jwks, Answers p jwks
  · obtain ⟨jwks, hjwks⟩ := hanswers
    cases hkeys : Json.member jwks "keys" with
    | none => exact absurd (.keys hjwks hkeys) hlacks
    | some keys =>
      cases hitems : iterate keys with
      | error e =>
        obtain rfl := iterate_eq_error hitems
        refine ⟨.typeError, ?_, by decide⟩
        rw [keyTable_of_answers hjwks, bind_of_ok (item_of_member hkeys), bind_of_error hitems]
      | ok items =>
        have hnot : ¬ ∀ k ∈ items, (keyId whole k).isSome := fun hkids =>
          hserves items ⟨⟨jwks, keys, hjwks, hkeys, hitems⟩, hkids⟩
        obtain ⟨before, k, after, rfl, hbefore, hk⟩ := exists_first_without hnot
        obtain ⟨e, he, ⟨rfl, members, rfl, hkid⟩ | rfl⟩ := addKey_of_no_keyId hk
        · exact absurd (.kid hjwks hkeys hitems hbefore hkid) hlacks
        · refine ⟨.typeError, ?_, by decide⟩
          rw [keyTable_of_entries hjwks hkeys hitems]
          exact foldlM_addKey_append hbefore he after Dict.empty
  · exact keyTable_of_no_answers (not_exists.mp hanswers) hlacks

/-! ## Runs -/

section

variable {α β : Type} {x : Step α} {s s' : JwksCache}

lemma exec_bind_of_ok {a : α} (h : exec x s = (.ok a, s')) (f : α → Step β) :
    exec (x >>= f) s = exec (f a) s' := by
  simp only [exec] at h ⊢
  rw [ExceptT.run_bind, StateT.run_bind, Id.run_bind, h]

lemma exec_bind_of_error {e : Raised} (h : exec x s = (.error e, s')) (f : α → Step β) :
    exec (x >>= f) s = (.error e, s') := by
  simp only [exec] at h ⊢
  rw [ExceptT.run_bind, StateT.run_bind, Id.run_bind, h]
  rfl

lemma exec_tryCatch_of_ok {a : α} (h : exec x s = (.ok a, s')) (f : Raised → Step α) :
    exec (tryCatch x f) s = (.ok a, s') := by
  change exec (ExceptT.tryCatch x f) s = _
  simp only [exec, ExceptT.tryCatch, ExceptT.run_mk, StateT.run_bind, Id.run_bind] at h ⊢
  have hx : (StateT.run x s).run = (.ok a, s') := h
  rw [hx]
  rfl

lemma exec_tryCatch_of_error {e : Raised} {f : Raised → Step α} {r : Except Raised α × JwksCache}
    (h : exec x s = (.error e, s')) (hf : exec (f e) s' = r) : exec (tryCatch x f) s = r := by
  change exec (ExceptT.tryCatch x f) s = _
  simp only [exec, ExceptT.tryCatch, ExceptT.run_mk, StateT.run_bind, Id.run_bind] at h hf ⊢
  have hx : (StateT.run x s).run = (.error e, s') := h
  rw [hx]
  exact hf

end

lemma exec_get (s : JwksCache) : exec (get : Step JwksCache) s = (.ok s, s) := rfl

lemma refresh_of_ok {p : Provider} {t : Dict Key Json} (h : keyTable whole p = .ok t)
    (s : JwksCache) :
    exec (refresh whole p) s = (.ok (), { s with keys := t, fetchedAt := p.now }) := by
  rw [refresh, h]
  rfl

/-- A failed refresh leaves keys and time as they were. -/
lemma refresh_of_error {p : Provider} {e : Raised} (h : keyTable whole p = .error e)
    (s : JwksCache) : exec (refresh whole p) s = (.error e, s) := by
  rw [refresh, h]
  rfl

theorem refresh_keeps {p : Provider} {s : JwksCache} {e : Raised}
    (h : (exec (refresh whole p) s).1 = .error e) : (exec (refresh whole p) s).2 = s := by
  cases htable : keyTable whole p with
  | ok t =>
    rw [refresh_of_ok htable] at h
    cases h
  | error e => rw [refresh_of_error htable]

lemma find_of_hash {kid : Json} {id : Key} (h : hashKey whole kid = some id) (s : JwksCache) :
    exec (find whole kid) s = (.ok (s.keys.get? id), s) := by
  rw [find, h]
  rfl

lemma find_of_unhashable {kid : Json} (h : hashKey whole kid = none) (s : JwksCache) :
    exec (find whole kid) s = (.error .typeError, s) := by
  rw [find, h]
  rfl

section

variable {call : Call} {kid : Json}

lemma findOrRefresh_of_unhashable (h : hashKey whole kid = none) (s : JwksCache) :
    (exec (findOrRefresh whole call kid) s).1 = .error .typeError := by
  rw [findOrRefresh, exec_bind_of_error (find_of_unhashable h s)]

lemma findOrRefresh_of_hit {id : Key} {key : Json} {s : JwksCache}
    (hkid : hashKey whole kid = some id) (hkey : s.keys.get? id = some key) :
    (exec (findOrRefresh whole call kid) s).1 = .ok key := by
  rw [findOrRefresh, exec_bind_of_ok (find_of_hash hkid s), hkey]
  rfl

lemma findOrRefresh_of_error {id : Key} {e : Raised} {s : JwksCache}
    (hkid : hashKey whole kid = some id) (hkey : s.keys.get? id = none)
    (h : keyTable whole call.onMiss = .error e) :
    (exec (findOrRefresh whole call kid) s).1 = .error e := by
  rw [findOrRefresh, exec_bind_of_ok (find_of_hash hkid s), hkey]
  dsimp only
  rw [exec_bind_of_error (refresh_of_error h s)]

lemma findOrRefresh_of_serves {id : Key} {items : List Json} {s : JwksCache}
    (hkid : hashKey whole kid = some id) (hkey : s.keys.get? id = none)
    (h : Serves whole call.onMiss items) :
    (exec (findOrRefresh whole call kid) s).1 =
      match keyOf whole items id with
      | some key => .ok key
      | none => .error .keyError := by
  obtain ⟨t, ht, hget⟩ := keyTable_of_serves h
  rw [findOrRefresh, exec_bind_of_ok (find_of_hash hkid s), hkey]
  dsimp only
  rw [exec_bind_of_ok (refresh_of_ok ht s), exec_bind_of_ok (find_of_hash hkid _), hget]
  cases keyOf whole items id <;> rfl

lemma getKey_of_fresh {s : JwksCache} (h : s.isStale call.now = false) :
    exec (getKey whole call kid) s = exec (findOrRefresh whole call kid) s := by
  rw [getKey, exec_bind_of_ok (exec_get s)]
  simp only [h]
  rfl

lemma getKey_of_stale {s : JwksCache} (h : s.isStale call.now = true) :
    exec (getKey whole call kid) s =
      exec (refresh whole call.onStale >>= fun _ => findOrRefresh whole call kid) s := by
  rw [getKey, exec_bind_of_ok (exec_get s)]
  simp only [h]
  rfl

/-- The key id is looked up in the first table. -/
lemma getKey_of_firstTable {s : JwksCache} {table : Key → Option Json}
    (h : FirstTable whole call s table) (kid : Json) :
    ∃ s', exec (getKey whole call kid) s = exec (findOrRefresh whole call kid) s' ∧
      ∀ id, s'.keys.get? id = table id := by
  cases h with
  | cached hstale => exact ⟨s, getKey_of_fresh hstale, fun id => rfl⟩
  | fetched hstale hitems =>
    obtain ⟨t, ht, hget⟩ := keyTable_of_serves hitems
    refine ⟨{ s with keys := t, fetchedAt := call.onStale.now }, ?_, hget⟩
    rw [getKey_of_stale hstale, exec_bind_of_ok (refresh_of_ok ht s)]

lemma getKey_of_error {s : JwksCache} {e : Raised} (hstale : s.isStale call.now = true)
    (h : keyTable whole call.onStale = .error e) :
    (exec (getKey whole call kid) s).1 = .error e := by
  rw [getKey_of_stale hstale, exec_bind_of_error (refresh_of_error h s)]

/-- An exception of `get_key` or of the decoder that is not turned into `InvalidToken`. -/
def Escaping (cfg : Settings) (token : Text) : Except Raised Json → Prop
  | .ok key => cfg.decode token key = .other
  | .error e => Unhandled e

variable {cfg : Settings} {token : Text} {s : JwksCache}

lemma escaping_of_escapes (h : Escapes whole cfg call token s kid) :
    Escaping cfg token (exec (getKey whole call kid) s).1 := by
  cases h with
  | stale hstale hbroken =>
    obtain ⟨e, he, hunhandled⟩ := keyTable_of_broken hbroken
    rw [getKey_of_error hstale he]
    exact hunhandled
  | unhashable htable hkid =>
    obtain ⟨s', hs', _⟩ := getKey_of_firstTable htable kid
    rw [hs', findOrRefresh_of_unhashable hkid]
    exact ⟨nofun, nofun⟩
  | hit htable hkid hkey hdecode =>
    obtain ⟨s', hs', hget⟩ := getKey_of_firstTable htable kid
    rw [hs', findOrRefresh_of_hit hkid ((hget _).trans hkey)]
    exact hdecode
  | miss htable hkid hkey hbroken =>
    obtain ⟨s', hs', hget⟩ := getKey_of_firstTable htable kid
    obtain ⟨e, he, hunhandled⟩ := keyTable_of_broken hbroken
    rw [hs', findOrRefresh_of_error hkid ((hget _).trans hkey) he]
    exact hunhandled
  | rotated htable hkid hkey hitems hrotated hdecode =>
    obtain ⟨s', hs', hget⟩ := getKey_of_firstTable htable kid
    rw [hs', findOrRefresh_of_serves hkid ((hget _).trans hkey) hitems, hrotated]
    exact hdecode

/-- A provider serves the keys, lacks a member or is broken. -/
lemma provider_cases (whole : Text → Option ℤ) (p : Provider) :
    (∃ items, Serves whole p items) ∨ Lacks whole p ∨ Broken whole p := by
  by_cases hserves : ∃ items, Serves whole p items
  · exact .inl hserves
  · by_cases hlacks : Lacks whole p
    · exact .inr (.inl hlacks)
    · exact .inr (.inr ⟨not_exists.mp hserves, hlacks⟩)

lemma escapes_of_firstTable {table : Key → Option Json} (htable : FirstTable whole call s table)
    (h : Escaping cfg token (exec (getKey whole call kid) s).1) :
    Escapes whole cfg call token s kid := by
  obtain ⟨s', hs', hget⟩ := getKey_of_firstTable htable kid
  rw [hs'] at h
  cases hkid : hashKey whole kid with
  | none => exact .unhashable htable hkid
  | some id =>
    cases hkey : table id with
    | some key =>
      rw [findOrRefresh_of_hit hkid ((hget id).trans hkey)] at h
      exact .hit htable hkid hkey h
    | none =>
      rcases provider_cases whole call.onMiss with ⟨items, hitems⟩ | hlacks | hbroken
      · rw [findOrRefresh_of_serves hkid ((hget id).trans hkey) hitems] at h
        cases hrotated : keyOf whole items id with
        | some key =>
          rw [hrotated] at h
          exact .rotated htable hkid hkey hitems hrotated h
        | none =>
          rw [hrotated] at h
          exact absurd rfl h.1
      · rw [findOrRefresh_of_error hkid ((hget id).trans hkey) (keyTable_of_lacks hlacks)] at h
        exact absurd rfl h.1
      · exact .miss htable hkid hkey hbroken

lemma escapes_of_escaping (h : Escaping cfg token (exec (getKey whole call kid) s).1) :
    Escapes whole cfg call token s kid := by
  cases hstale : s.isStale call.now with
  | false => exact escapes_of_firstTable (.cached hstale) h
  | true =>
    rcases provider_cases whole call.onStale with ⟨items, hitems⟩ | hlacks | hbroken
    · exact escapes_of_firstTable (.fetched hstale hitems) h
    · rw [getKey_of_error hstale (keyTable_of_lacks hlacks)] at h
      exact absurd rfl h.1
    · exact .stale hstale hbroken

/-- The handlers of `verify_jwt` on what the key lookup ends with. -/
def settle (cfg : Settings) (token : Text) : Except Raised Json → Except Raised Members
  | .error .keyError => .error .invalidToken
  | .error e => .error e
  | .ok key =>
    match cfg.decode token key with
    | .claims c => .ok c
    | .expired | .jwtError => .error .invalidToken
    | .other => .error .jose

lemma verifyJwt_of_no_kid
    (h : ∀ header, cfg.jose.unverifiedHeader token = some header → kidOf header = none) :
    (exec (verifyJwt whole cfg call token) s).1 = .error .invalidToken := by
  cases hheader : cfg.jose.unverifiedHeader token with
  | none =>
    simp only [verifyJwt, hheader]
    rfl
  | some header =>
    simp only [verifyJwt, hheader, h header hheader]
    rfl

lemma verifyJwt_of_kid {header : Members} (hheader : cfg.jose.unverifiedHeader token = some header)
    (hkid : kidOf header = some kid) :
    (exec (verifyJwt whole cfg call token) s).1 =
      settle cfg token (exec (getKey whole call kid) s).1 := by
  simp only [verifyJwt, hheader, hkid]
  rcases hkey : exec (getKey whole call kid) s with ⟨e | key, s'⟩
  · cases e with
    | keyError => rw [exec_bind_of_error (exec_tryCatch_of_error hkey rfl)]; rfl
    | _ => rw [exec_bind_of_error (exec_tryCatch_of_error hkey rfl)]; rfl
  · rw [exec_bind_of_ok (exec_tryCatch_of_ok hkey _)]
    simp only [settle]
    cases cfg.decode token key <;> rfl

/-- Nothing but `InvalidToken` is left exactly if nothing escapes. -/
lemma settle_invalid_iff (r : Except Raised Json) :
    (∀ e, settle cfg token r = .error e → e = .invalidToken) ↔ ¬ Escaping cfg token r := by
  cases r with
  | error e => cases e <;> simp [settle, Escaping, Unhandled]
  | ok key => cases h : cfg.decode token key <;> simp [settle, Escaping, h]

lemma settle_eq_ok {r : Except Raised Json} {c : Members} (h : settle cfg token r = .ok c) :
    ∃ key, cfg.decode token key = .claims c := by
  cases r with
  | error e => cases e <;> cases h
  | ok key =>
    refine ⟨key, ?_⟩
    cases hdecode : cfg.decode token key with
    | claims c' =>
      rw [settle, hdecode] at h
      rw [Except.ok.inj h]
    | _ =>
      rw [settle, hdecode] at h
      cases h

end

/-- For every provider, cache and token: the check fails safely exactly if no key id in
the token's header leads past the handlers. -/
theorem verifyJwt_failsSafely_iff (whole : Text → Option ℤ) (cfg : Settings) (call : Call)
    (token : Text) (s : JwksCache) :
    FailsSafely whole cfg call token s ↔
      ∀ header kid, cfg.jose.unverifiedHeader token = some header → kidOf header = some kid →
        ¬ Escapes whole cfg call token s kid := by
  constructor
  · intro h header kid hheader hkid hescapes
    have hinvalid := h.invalid
    rw [verifyJwt_of_kid hheader hkid, settle_invalid_iff] at hinvalid
    exact hinvalid (escaping_of_escapes hescapes)
  · intro h
    have hkept : ∀ p ∈ [call.onStale, call.onMiss], ∀ s' e,
        (exec (refresh whole p) s').1 = .error e → (exec (refresh whole p) s').2 = s' := by
      intro p _ s' e he
      exact refresh_keeps he
    by_cases hkid : ∃ header kid,
        cfg.jose.unverifiedHeader token = some header ∧ kidOf header = some kid
    · obtain ⟨header, kid, hheader, hkid⟩ := hkid
      refine ⟨fun c hc => ?_, ?_, hkept⟩
      · rw [verifyJwt_of_kid hheader hkid] at hc
        exact settle_eq_ok hc
      · rw [verifyJwt_of_kid hheader hkid, settle_invalid_iff]
        exact fun hescaping => h header kid hheader hkid (escapes_of_escaping hescaping)
    · have hrejected : (exec (verifyJwt whole cfg call token) s).1 = .error .invalidToken :=
        verifyJwt_of_no_kid fun header hheader => Option.eq_none_iff_forall_ne_some.mpr
          fun kid hkid' => hkid ⟨header, kid, hheader, hkid'⟩
      refine ⟨fun c hc => ?_, fun e he => ?_, hkept⟩
      · rw [hrejected] at hc
        cases hc
      · rw [hrejected] at he
        exact (Except.error.inj he).symm

/-- The handshake of `current_user` over this check. -/
def authOf (whole : Text → Option ℤ) (cfg : Settings) (call : Call) (s : JwksCache)
    (decodeSession : Text → Option WsSankey.SessionData) (roleMap : Applications.RoleMap) :
    Applications.Auth where
  verifyJwt token := (exec (verifyJwt whole cfg call token) s).1.toOption
  decodeSession := decodeSession
  roleMap := roleMap

/-- Where the check fails safely, a caller is unauthenticated exactly if the check raises
`InvalidToken`. -/
theorem currentUser_unauthenticated_iff {decodeSession : Text → Option WsSankey.SessionData}
    {roleMap : Applications.RoleMap} {request : Applications.Request} {token : Text}
    (hbearer : "bearer ".toList.isPrefixOf (lowerAscii request.authorization) = true)
    (htoken : Applications.bearerToken request.authorization = some token)
    (h : FailsSafely whole cfg call token s) :
    Applications.currentUser (authOf whole cfg call s decodeSession roleMap) request =
        .error .unauthenticated ↔
      (exec (verifyJwt whole cfg call token) s).1 = .error .invalidToken := by
  have hinvalid := h.invalid
  simp only [Applications.currentUser, hbearer, htoken, authOf, if_true]
  cases hresult : (exec (verifyJwt whole cfg call token) s).1 with
  | error e =>
    obtain rfl := hinvalid e hresult
    exact iff_of_true rfl rfl
  | ok claims =>
    refine iff_of_false (fun hunauthenticated => ?_) fun herror => ?_
    · dsimp only [Except.toOption] at hunauthenticated
      split at hunauthenticated
      · cases hunauthenticated
      · cases hunauthenticated
    · cases herror

end

/-! A provider with one key, a provider that does not answer, and two tokens. -/

def textKid : Text := "eyJraWQiOiJrMSJ9..".toList

def listKid : Text := "eyJraWQiOlsiazEiXX0..".toList

/-- The headers of the two tokens; neither has a signature. -/
def unsigned : Settings where
  jose :=
    { unverifiedHeader := fun token =>
        if token = textKid then some [(ofString "kid", .str (ofString "k1"))]
        else if token = listKid then some [(ofString "kid", .arr [.str (ofString "k1")])]
        else none
      decode := fun _ _ _ _ _ => .jwtError }
  audience := "ztna"
  issuer := "https://idp"

def oneKey : Provider where
  discovery := .document (.obj [(ofString "jwks_uri", .str (ofString "https://idp/jwks"))])
  jwks _ := .document (.obj
    [(ofString "keys", .arr [.obj [(ofString "kid", .str (ofString "k1"))]])])
  now := 0

def silent : Provider := ⟨.unreachable, fun _ => .unreachable, 0⟩

def emptyCache : JwksCache := ⟨3600, Dict.empty, 0⟩

/-- A key id that is a list raises `TypeError`, and a provider that cannot be reached raises
the exception of the client. -/
theorem listKid_and_silent_escape :
    (exec (verifyJwt (fun _ => none) unsigned ⟨0, oneKey, oneKey⟩ listKid) emptyCache).1 =
        .error .typeError ∧
      (exec (verifyJwt (fun _ => none) unsigned ⟨0, silent, silent⟩ textKid) emptyCache).1 =
        .error .http ∧
      ¬ FailsSafely (fun _ => none) unsigned ⟨0, oneKey, oneKey⟩ listKid emptyCache ∧
      ¬ FailsSafely (fun _ => none) unsigned ⟨0, silent, silent⟩ textKid emptyCache := by
  have hlist : (exec (verifyJwt (fun _ => none) unsigned ⟨0, oneKey, oneKey⟩ listKid)
      emptyCache).1 = .error .typeError := by rfl
  have hsilent : (exec (verifyJwt (fun _ => none) unsigned ⟨0, silent, silent⟩ textKid)
      emptyCache).1 = .error .http := by rfl
  refine ⟨hlist, hsilent, fun h => ?_, fun h => ?_⟩
  · cases h.invalid _ hlist
  · cases h.invalid _ hsilent

end FlowDiscovery.JwtVerify
