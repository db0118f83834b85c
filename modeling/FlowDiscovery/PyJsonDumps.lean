import FlowDiscovery.PyJsonRoundTrip

/-!
# `dumps` of nested values

The writer for any value, with the compact separators or with the default ones,
and its round trip. A value without floats whose strings the reader gives back one by
one is read back whole, at any depth.
-/
namespace FlowDiscovery.PyJson
open PyText PyBytes

/-! ## The writer -/

/-- What stands behind a comma or a colon: a space under the default separators,
nothing under `(",", ":")`. -/
def gap (spaced : Bool) : PyStr := if spaced then [0x20] else []

/-- `float.__repr__`, with the three values that have none in JSON. -/
def dumpsFloat (repr : Text) : PyStr :=
  if repr = "nan".toList then ofString "NaN"
  else if repr = "inf".toList then ofString "Infinity"
  else if repr = "-inf".toList then ofString "-Infinity"
  else ofText repr

section

variable (spaced : Bool)

mutual

/-- `json.dumps(v)`; `none` is the `ValueError` of an integer with too many digits. -/
def dumps : Json → Option PyStr
  | .null => some (ofString "null")
  | .bool b => some (ofString (if b then "true" else "false"))
  | .int n => dumpsInt n
  | .float repr => some (dumpsFloat repr)
  | .str s => some (dumpsString s)
  | .arr items => (dumpsItems items).map fun body => 0x5B :: body ++ [0x5D]
  | .obj fields => (dumpsFields fields).map fun body => 0x7B :: body ++ [0x7D]

def dumpsItems : List Json → Option PyStr
  | [] => some []
  | v :: rest => do
    let text ← dumps v
    let more ← dumpsItems rest
    return if rest.isEmpty then text else text ++ 0x2C :: gap spaced ++ more

def dumpsFields : List (PyStr × Json) → Option PyStr
  | [] => some []
  | (key, v) :: rest => do
    let text ← dumps v
    let more ← dumpsFields rest
    let member := dumpsString key ++ 0x3A :: gap spaced ++ text
    return if rest.isEmpty then member else member ++ 0x2C :: gap spaced ++ more

end

end

example : (dumps true (.obj [(ofString "a", .arr [.int 1, .null]), (ofString "b", .bool true)])) =
    some (ofString "\x7b\"a\": [1, null], \"b\": true\x7d") := by decide

/-! ## What is read back -/

/-- No float in it, and no string in which a high surrogate stands before a low one. -/
inductive Plain : Json → Prop
  | null : Plain .null
  | bool (b : Bool) : Plain (.bool b)
  | int (n : ℤ) : Plain (.int n)
  | str {s : PyStr} (hstr : IsStr s) (hunpaired : Unpaired s) : Plain (.str s)
  | arr {items : List Json} (hitems : ∀ v ∈ items, Plain v) : Plain (.arr items)
  | obj {fields : List (PyStr × Json)}
      (hkeys : ∀ field ∈ fields, IsStr field.1 ∧ Unpaired field.1)
      (hvalues : ∀ field ∈ fields, Plain field.2) : Plain (.obj fields)

lemma plain_ofText (s : Text) : Plain (.str (ofText s)) :=
  .str (fun c hc => (isScalar_ofText s c hc).lt) (unpaired_of_isScalar (isScalar_ofText s))

lemma plain_ofString (s : String) : Plain (.str (ofString s)) := plain_ofText s.toList

lemma plain_empty : Plain (.obj []) := .obj (by simp) (by simp)

/-- A member under a name written out. -/
lemma Plain.member {v : Json} (hv : Plain v) (name : String) {fields : List (PyStr × Json)}
    (h : Plain (.obj fields)) : Plain (.obj ((ofString name, v) :: fields)) := by
  cases h with
  | obj hkeys hvalues =>
    refine .obj (List.forall_mem_cons.mpr ⟨?_, hkeys⟩) (List.forall_mem_cons.mpr ⟨hv, hvalues⟩)
    exact ⟨fun c hc => (isScalar_ofText name.toList c hc).lt,
      unpaired_of_isScalar (isScalar_ofText name.toList)⟩

/-- What follows a value: the end, a comma or a closing bracket. -/
def Follows (rest : PyStr) : Prop :=
  ∀ c tail, rest = c :: tail → c = 0x2C ∨ c = 0x5D ∨ c = 0x7D

lemma Follows.endsNumber {rest : PyStr} (h : Follows rest) : EndsNumber rest := by
  rintro c tail rfl
  rcases h c tail rfl with rfl | rfl | rfl <;> decide

lemma follows_cons {c : ℕ} (hc : c = 0x2C ∨ c = 0x5D ∨ c = 0x7D) (tail : PyStr) :
    Follows (c :: tail) := by
  rintro _ _ ⟨rfl, rfl⟩
  exact hc

/-- No value begins with a blank or with a closing bracket. -/
def Opens (text : PyStr) : Prop :=
  ∃ c tail, text = c :: tail ∧ isBlank c = false ∧ c ≠ 0x5D ∧ c ≠ 0x7D

lemma Opens.skipBlanks_append {text : PyStr} (h : Opens text) (rest : PyStr) :
    skipBlanks (text ++ rest) = text ++ rest := by
  obtain ⟨c, tail, rfl, hc, _⟩ := h
  exact skipBlanks_cons hc _

lemma Opens.append {text : PyStr} (h : Opens text) (rest : PyStr) : Opens (text ++ rest) := by
  obtain ⟨c, tail, rfl, hc⟩ := h
  exact ⟨c, tail ++ rest, rfl, hc⟩

lemma skipBlanks_gap_append (spaced : Bool) {text : PyStr} (h : Opens text) (rest : PyStr) :
    skipBlanks (gap spaced ++ (text ++ rest)) = text ++ rest := by
  cases spaced with
  | false => exact h.skipBlanks_append rest
  | true => exact h.skipBlanks_append rest

section

variable (float : Text → Text) (spaced : Bool)

/-- A text is read back as the value. The reader recurses at most twice for each
character. -/
structure ReadBack (text : PyStr) (v : Json) : Prop where
  opens : Opens text
  reads : ∀ fuel rest, 2 * text.length ≤ fuel → Follows rest →
    scanValue float fuel (text ++ rest) = some (v, rest)

lemma readBack_of_atom {text : PyStr} {v : Json} (hopens : Opens text)
    (hreads : ∀ fuel rest, Follows rest → scanValue float (fuel + 1) (text ++ rest) = some (v, rest)) :
    ReadBack float text v where
  opens := hopens
  reads fuel rest hfuel hrest := by
    obtain ⟨c, tail, rfl, _⟩ := hopens
    obtain ⟨fuel, rfl⟩ : ∃ f, fuel = f + 1 := ⟨fuel - 1, by simp at hfuel; omega⟩
    exact hreads fuel rest hrest

lemma readBack_null : ReadBack float (ofString "null") .null :=
  readBack_of_atom float ⟨_, _, rfl, by decide⟩ fun _ _ _ => rfl

lemma readBack_bool (b : Bool) :
    ReadBack float (ofString (if b then "true" else "false")) (.bool b) := by
  cases b with
  | false => exact readBack_of_atom float ⟨_, _, rfl, by decide⟩ fun _ _ _ => rfl
  | true => exact readBack_of_atom float ⟨_, _, rfl, by decide⟩ fun _ _ _ => rfl

lemma readBack_int {n : ℤ} {text : PyStr} (h : dumpsInt n = some text) :
    ReadBack float text (.int n) := by
  obtain ⟨⟨c, tail, htext, hc⟩, hreads⟩ := scanValue_dumpsInt float h
  refine readBack_of_atom float ⟨c, tail, htext, ?_⟩ fun fuel rest hrest =>
    hreads fuel rest hrest.endsNumber
  rcases hc with rfl | hc
  · decide
  · refine ⟨isBlank_of_isDigit hc, ?_⟩
    simp only [isDigit, Bool.and_eq_true, decide_eq_true_eq] at hc
    omega

lemma scanString_plain {s : PyStr} (hstr : IsStr s) (hunpaired : Unpaired s) (rest : PyStr) :
    scanString (s.flatMap escape ++ 0x22 :: rest) = some (s, rest) := by
  have hjoin := scanString_flatMap_escape hstr rest
  rwa [(joinSurrogates_eq_self_iff s).mpr hunpaired] at hjoin

lemma opens_dumpsString (s : PyStr) : Opens (dumpsString s) := ⟨0x22, _, rfl, by decide⟩

lemma readBack_str {s : PyStr} (hstr : IsStr s) (hunpaired : Unpaired s) :
    ReadBack float (dumpsString s) (.str s) :=
  readBack_of_atom float (opens_dumpsString s) fun fuel rest _ => by
    have hstring := scanString_plain hstr hunpaired rest
    simp only [dumpsString, List.cons_append, List.append_assoc, List.nil_append, scanValue,
      hstring, Option.map_some]

/-! ## Containers -/

lemma dumpsItems_cons_some {v : Json} {rest : List Json} {body : PyStr}
    (h : dumpsItems spaced (v :: rest) = some body) :
    ∃ text, dumps spaced v = some text ∧
      (rest = [] ∧ body = text ∨
      ∃ more, rest ≠ [] ∧ dumpsItems spaced rest = some more ∧
        body = text ++ 0x2C :: (gap spaced ++ more)) := by
  simp only [dumpsItems, Option.bind_eq_bind, Option.bind_eq_some_iff, Option.pure_def,
    Option.some.injEq] at h
  obtain ⟨text, htext, more, hmore, rfl⟩ := h
  refine ⟨text, htext, ?_⟩
  cases rest with
  | nil => exact .inl ⟨rfl, rfl⟩
  | cons w ws => exact .inr ⟨more, by simp, hmore, by simp⟩

lemma dumpsFields_cons_some {key : PyStr} {v : Json} {rest : List (PyStr × Json)} {body : PyStr}
    (h : dumpsFields spaced ((key, v) :: rest) = some body) :
    ∃ text, dumps spaced v = some text ∧
      (rest = [] ∧ body = dumpsString key ++ 0x3A :: (gap spaced ++ text) ∨
      ∃ more, rest ≠ [] ∧ dumpsFields spaced rest = some more ∧
        body = dumpsString key ++ 0x3A :: (gap spaced ++ (text ++ 0x2C :: (gap spaced ++ more)))) := by
  simp only [dumpsFields, Option.bind_eq_bind, Option.bind_eq_some_iff, Option.pure_def,
    Option.some.injEq] at h
  obtain ⟨text, htext, more, hmore, rfl⟩ := h
  refine ⟨text, htext, ?_⟩
  cases rest with
  | nil => exact .inl ⟨rfl, by simp⟩
  | cons w ws => exact .inr ⟨more, by simp, hmore, by simp⟩

lemma dumpsInt_isSome_iff (n : ℤ) : (dumpsInt n).isSome ↔ n.natAbs < 10 ^ intMaxStrDigits := by
  rw [dumpsInt, Option.isSome_map, str?, ← length_natText_le_iff]
  by_cases hlong : intMaxStrDigits < (natText n.natAbs).length
  · rw [if_pos hlong]
    exact iff_of_false (by simp) (not_le.mpr hlong)
  · rw [if_neg hlong]
    exact iff_of_true rfl (not_lt.mp hlong)

lemma dumpsItems_isSome_iff (items : List Json) :
    (dumpsItems spaced items).isSome ↔ ∀ v ∈ items, (dumps spaced v).isSome := by
  induction items with
  | nil => simp [dumpsItems]
  | cons v vs ih =>
    rw [List.forall_mem_cons, ← ih, dumpsItems]
    cases dumps spaced v <;> cases dumpsItems spaced vs <;> simp

lemma dumpsFields_isSome_iff (fields : List (PyStr × Json)) :
    (dumpsFields spaced fields).isSome ↔ ∀ field ∈ fields, (dumps spaced field.2).isSome := by
  induction fields with
  | nil => simp [dumpsFields]
  | cons field rest ih =>
    rw [List.forall_mem_cons, ← ih, dumpsFields]
    cases dumps spaced field.2 <;> cases dumpsFields spaced rest <;> simp

/-- Every way of writing `v` is read back as `v`. -/
def RoundTrips (v : Json) : Prop := ∀ text, dumps spaced v = some text → ReadBack float text v

lemma opens_dumpsItems {items : List Json} (hne : items ≠ [])
    (hitems : ∀ v ∈ items, RoundTrips float spaced v) {body : PyStr}
    (h : dumpsItems spaced items = some body) : Opens body := by
  obtain ⟨v, rest, rfl⟩ := List.exists_cons_of_ne_nil hne
  obtain ⟨text, htext, ⟨_, rfl⟩ | ⟨more, _, _, rfl⟩⟩ := dumpsItems_cons_some spaced h
  · exact (hitems v List.mem_cons_self _ htext).opens
  · exact (hitems v List.mem_cons_self _ htext).opens.append _

lemma opens_dumpsFields {fields : List (PyStr × Json)} (hne : fields ≠ []) {body : PyStr}
    (h : dumpsFields spaced fields = some body) : ∃ tail, body = 0x22 :: tail := by
  obtain ⟨⟨key, v⟩, rest, rfl⟩ := List.exists_cons_of_ne_nil hne
  obtain ⟨text, _, ⟨_, rfl⟩ | ⟨more, _, _, rfl⟩⟩ := dumpsFields_cons_some spaced h
  · exact ⟨_, rfl⟩
  · exact ⟨_, rfl⟩

lemma scanElements_dumpsItems {items : List Json} (hne : items ≠ [])
    (hitems : ∀ v ∈ items, RoundTrips float spaced v) {body : PyStr}
    (h : dumpsItems spaced items = some body) {fuel : ℕ} (hfuel : 2 * body.length + 1 ≤ fuel)
    (rest : PyStr) :
    scanElements float fuel (body ++ 0x5D :: rest) = some (items, rest) := by
  induction items generalizing body fuel with
  | nil => exact absurd rfl hne
  | cons v vs ih =>
    obtain ⟨fuel, rfl⟩ : ∃ f, fuel = f + 1 := ⟨fuel - 1, by omega⟩
    obtain ⟨text, htext, ⟨rfl, rfl⟩ | ⟨more, hvs, hmore, rfl⟩⟩ := dumpsItems_cons_some spaced h
    · have hback := hitems v List.mem_cons_self _ htext
      have hvalue := hback.reads fuel (0x5D :: rest) (by omega)
        (follows_cons (.inr (.inl rfl)) rest)
      simp only [scanElements, hvalue, Option.bind_eq_bind, Option.bind_some,
        skipBlanks_cons (show isBlank 0x5D = false from rfl)]
    · have hback := hitems v List.mem_cons_self _ htext
      have htail := fun w hw => hitems w (List.mem_cons_of_mem v hw)
      simp only [List.length_append, List.length_cons] at hfuel
      have hroom : 2 * more.length + 1 ≤ fuel := by omega
      have hrec := ih hvs htail hmore hroom
      have hsplit : text ++ 0x2C :: (gap spaced ++ more) ++ 0x5D :: rest =
          text ++ 0x2C :: (gap spaced ++ (more ++ 0x5D :: rest)) := by simp
      have hvalue := hback.reads fuel (0x2C :: (gap spaced ++ (more ++ 0x5D :: rest))) (by omega)
        (follows_cons (.inl rfl) _)
      rw [hsplit]
      simp only [scanElements, hvalue, Option.bind_eq_bind, Option.bind_some,
        skipBlanks_cons (show isBlank 0x2C = false from rfl),
        skipBlanks_gap_append spaced (opens_dumpsItems float spaced hvs htail hmore), hrec]
      rfl

lemma scanMembers_dumpsFields {fields : List (PyStr × Json)} (hne : fields ≠ [])
    (hkeys : ∀ field ∈ fields, IsStr field.1 ∧ Unpaired field.1)
    (hvalues : ∀ field ∈ fields, RoundTrips float spaced field.2) {body : PyStr}
    (h : dumpsFields spaced fields = some body) {fuel : ℕ} (hfuel : 2 * body.length + 1 ≤ fuel)
    (rest : PyStr) :
    scanMembers float fuel (body ++ 0x7D :: rest) = some (fields, rest) := by
  induction fields generalizing body fuel with
  | nil => exact absurd rfl hne
  | cons field more ih =>
    obtain ⟨key, v⟩ := field
    obtain ⟨fuel, rfl⟩ : ∃ f, fuel = f + 1 := ⟨fuel - 1, by omega⟩
    obtain ⟨hstr, hunpaired⟩ := hkeys (key, v) List.mem_cons_self
    -- a member up to its value
    have hkey : ∀ (s tail : PyStr), Opens s →
        scanString (key.flatMap escape ++ 0x22 :: 0x3A :: (gap spaced ++ (s ++ tail))) =
          some (key, 0x3A :: (gap spaced ++ (s ++ tail))) := fun s tail _ =>
      scanString_plain hstr hunpaired _
    obtain ⟨text, htext, ⟨rfl, rfl⟩ | ⟨others, hmore, hothers, rfl⟩⟩ :=
      dumpsFields_cons_some spaced h
    · have hback := hvalues (key, v) List.mem_cons_self _ htext
      simp only [List.length_append, List.length_cons] at hfuel
      have hvalue := hback.reads fuel (0x7D :: rest) (by omega)
        (follows_cons (.inr (.inr rfl)) rest)
      have hsplit : dumpsString key ++ 0x3A :: (gap spaced ++ text) ++ 0x7D :: rest =
          0x22 :: (key.flatMap escape ++ 0x22 :: 0x3A :: (gap spaced ++ (text ++ 0x7D :: rest))) := by
        simp [dumpsString]
      rw [hsplit]
      simp only [scanMembers, hkey text _ hback.opens, Option.bind_eq_bind, Option.bind_some,
        skipBlanks_cons (show isBlank 0x3A = false from rfl),
        skipBlanks_gap_append spaced hback.opens, hvalue,
        skipBlanks_cons (show isBlank 0x7D = false from rfl)]
    · have hback := hvalues (key, v) List.mem_cons_self _ htext
      simp only [List.length_append, List.length_cons] at hfuel
      have hroom : 2 * others.length + 1 ≤ fuel := by omega
      have hrec := ih hmore (fun f hf => hkeys f (List.mem_cons_of_mem _ hf))
        (fun f hf => hvalues f (List.mem_cons_of_mem _ hf)) hothers hroom
      obtain ⟨tail, htail⟩ := opens_dumpsFields spaced hmore hothers
      have hopens : Opens others := ⟨0x22, tail, htail, by decide⟩
      have hvalue := hback.reads fuel (0x2C :: (gap spaced ++ (others ++ 0x7D :: rest))) (by omega)
        (follows_cons (.inl rfl) _)
      have hsplit : dumpsString key ++ 0x3A :: (gap spaced ++ (text ++ 0x2C ::
          (gap spaced ++ others))) ++ 0x7D :: rest =
          0x22 :: (key.flatMap escape ++ 0x22 :: 0x3A :: (gap spaced ++ (text ++ 0x2C ::
            (gap spaced ++ (others ++ 0x7D :: rest))))) := by
        simp [dumpsString]
      rw [hsplit]
      simp only [scanMembers, hkey text _ hback.opens, Option.bind_eq_bind, Option.bind_some,
        skipBlanks_cons (show isBlank 0x3A = false from rfl),
        skipBlanks_gap_append spaced hback.opens, hvalue,
        skipBlanks_cons (show isBlank 0x2C = false from rfl),
        skipBlanks_gap_append spaced hopens, hrec]
      rfl

lemma roundTrips_arr {items : List Json} (hitems : ∀ v ∈ items, RoundTrips float spaced v) :
    RoundTrips float spaced (.arr items) := by
  intro text htext
  rw [dumps] at htext
  obtain ⟨body, hbody, rfl⟩ := Option.map_eq_some_iff.mp htext
  refine ⟨⟨0x5B, _, rfl, by decide⟩, fun fuel rest hfuel _ => ?_⟩
  simp only [List.length_cons, List.length_append] at hfuel
  obtain ⟨fuel, rfl⟩ : ∃ f, fuel = f + 1 := ⟨fuel - 1, by omega⟩
  by_cases hne : items = []
  · subst hne
    cases hbody
    rfl
  · have hroom : 2 * body.length + 1 ≤ fuel := by omega
    have hscan := scanElements_dumpsItems float spaced hne hitems hbody hroom rest
    have hblanks := (opens_dumpsItems float spaced hne hitems hbody).skipBlanks_append (0x5D :: rest)
    obtain ⟨c, tail, hc, _, hclose, _⟩ := opens_dumpsItems float spaced hne hitems hbody
    rw [show (0x5B :: body ++ [0x5D]) ++ rest = 0x5B :: (body ++ 0x5D :: rest) by simp]
    simp only [hc, List.cons_append] at hscan hblanks ⊢
    rw [scanValue]
    simp only [hblanks]
    split
    · next heq => exact absurd (List.cons.inj heq).1 hclose
    · rw [hscan]
      rfl

lemma roundTrips_obj {fields : List (PyStr × Json)}
    (hkeys : ∀ field ∈ fields, IsStr field.1 ∧ Unpaired field.1)
    (hvalues : ∀ field ∈ fields, RoundTrips float spaced field.2) :
    RoundTrips float spaced (.obj fields) := by
  intro text htext
  rw [dumps] at htext
  obtain ⟨body, hbody, rfl⟩ := Option.map_eq_some_iff.mp htext
  refine ⟨⟨0x7B, _, rfl, by decide⟩, fun fuel rest hfuel _ => ?_⟩
  simp only [List.length_cons, List.length_append] at hfuel
  obtain ⟨fuel, rfl⟩ : ∃ f, fuel = f + 1 := ⟨fuel - 1, by omega⟩
  by_cases hne : fields = []
  · subst hne
    cases hbody
    rfl
  · have hroom : 2 * body.length + 1 ≤ fuel := by omega
    have hscan := scanMembers_dumpsFields float spaced hne hkeys hvalues hbody hroom rest
    obtain ⟨tail, rfl⟩ := opens_dumpsFields spaced hne hbody
    rw [show (0x7B :: (0x22 :: tail) ++ [0x7D]) ++ rest = 0x7B :: 0x22 :: (tail ++ 0x7D :: rest) by
      simp]
    rw [List.cons_append] at hscan
    simp only [scanValue, skipBlanks_cons (show isBlank 0x22 = false from rfl), hscan,
      Option.map_some]

/-- By induction on the value; the brackets of a container pay for the two calls that
enter it. -/
theorem Plain.roundTrips {v : Json} (h : Plain v) : RoundTrips float spaced v := by
  induction h with
  | null =>
    rintro _ ⟨rfl⟩
    exact readBack_null float
  | bool b =>
    rintro _ ⟨rfl⟩
    exact readBack_bool float b
  | int n =>
    intro text htext
    exact readBack_int float htext
  | str hstr hunpaired =>
    rintro _ ⟨rfl⟩
    exact readBack_str float hstr hunpaired
  | arr _ ih => exact roundTrips_arr float spaced ih
  | obj hkeys _ ih => exact roundTrips_obj float spaced hkeys ih

end

/-! ## ASCII -/

/-- No null character either. -/
def Ascii (text : PyStr) : Prop := ∀ x ∈ text, 0 < x ∧ x < 0x80

lemma Ascii.append {s t : PyStr} (hs : Ascii s) (ht : Ascii t) : Ascii (s ++ t) := by
  intro x hx
  rcases List.mem_append.mp hx with hx | hx
  · exact hs x hx
  · exact ht x hx

lemma Ascii.cons {c : ℕ} (hc : 0 < c ∧ c < 0x80) {s : PyStr} (hs : Ascii s) : Ascii (c :: s) := by
  intro x hx
  rcases List.mem_cons.mp hx with rfl | hx
  · exact hc
  · exact hs x hx

lemma ascii_gap (spaced : Bool) : Ascii (gap spaced) := by
  unfold Ascii
  cases spaced <;> decide

section

variable (spaced : Bool)

lemma dumpsItems_ascii {items : List Json}
    (hitems : ∀ v ∈ items, ∀ text, dumps spaced v = some text → Ascii text) {body : PyStr}
    (h : dumpsItems spaced items = some body) : Ascii body := by
  induction items generalizing body with
  | nil =>
    cases h
    simp [Ascii]
  | cons v vs ih =>
    have htail := fun w hw => hitems w (List.mem_cons_of_mem v hw)
    obtain ⟨text, htext, ⟨_, rfl⟩ | ⟨more, _, hmore, rfl⟩⟩ := dumpsItems_cons_some spaced h
    · exact hitems v List.mem_cons_self _ htext
    · have hmore := (ascii_gap spaced).append (ih htail hmore)
      exact (hitems v List.mem_cons_self _ htext).append (hmore.cons (by decide))

lemma dumpsFields_ascii {fields : List (PyStr × Json)} (hkeys : ∀ field ∈ fields, IsStr field.1)
    (hvalues : ∀ field ∈ fields, ∀ text, dumps spaced field.2 = some text → Ascii text)
    {body : PyStr} (h : dumpsFields spaced fields = some body) : Ascii body := by
  induction fields generalizing body with
  | nil =>
    cases h
    simp [Ascii]
  | cons field more ih =>
    obtain ⟨key, v⟩ := field
    have hkey : Ascii (dumpsString key) := dumpsString_ascii (hkeys (key, v) List.mem_cons_self)
    have hrest : ∀ b, dumpsFields spaced more = some b → Ascii b := fun b =>
      ih (fun f hf => hkeys f (List.mem_cons_of_mem _ hf))
        (fun f hf => hvalues f (List.mem_cons_of_mem _ hf))
    obtain ⟨text, htext, ⟨_, rfl⟩ | ⟨others, _, hothers, rfl⟩⟩ := dumpsFields_cons_some spaced h
    · have hvalue := (ascii_gap spaced).append (hvalues (key, v) List.mem_cons_self _ htext)
      exact hkey.append (hvalue.cons (by decide))
    · have hothers : Ascii (0x2C :: (gap spaced ++ others)) :=
        ((ascii_gap spaced).append (hrest _ hothers)).cons (by decide)
      have hvalue := (ascii_gap spaced).append
        ((hvalues (key, v) List.mem_cons_self _ htext).append hothers)
      exact hkey.append (hvalue.cons (by decide))

/-- The output of `dumps` is ASCII. -/
theorem Plain.dumps_ascii {v : Json} (h : Plain v) :
    ∀ text, dumps spaced v = some text → Ascii text := by
  induction h with
  | null =>
    rintro _ ⟨rfl⟩
    unfold Ascii
    decide
  | bool b =>
    rintro _ ⟨rfl⟩
    unfold Ascii
    cases b <;> decide
  | int n =>
    intro text htext
    exact dumpsInt_ascii htext
  | str hstr _ =>
    rintro _ ⟨rfl⟩
    exact dumpsString_ascii hstr
  | @arr items _ ih =>
    intro text htext
    rw [dumps] at htext
    obtain ⟨body, hbody, rfl⟩ := Option.map_eq_some_iff.mp htext
    exact ((dumpsItems_ascii spaced ih hbody).append (by simp [Ascii])).cons (by decide)
  | @obj fields hkeys _ ih =>
    intro text htext
    rw [dumps] at htext
    obtain ⟨body, hbody, rfl⟩ := Option.map_eq_some_iff.mp htext
    exact ((dumpsFields_ascii spaced (fun f hf => (hkeys f hf).1) ih hbody).append
      (by simp [Ascii])).cons (by decide)

end

/-! ## Round trip -/

/-- What is written of a plain value is read back. -/
theorem loads_dumps (float : Text → Text) (spaced : Bool) {v : Json} (hv : Plain v) {text : PyStr}
    (h : dumps spaced v = some text) : loads float text = some v := by
  have hback := hv.roundTrips float spaced text h
  have hblanks := hback.opens.skipBlanks_append []
  have hvalue := hback.reads (2 * text.length + 2) [] (by omega) fun c tail heq => by cases heq
  have hmark : text.head? ≠ some 0xFEFF := by
    intro hhead
    have hascii := (hv.dumps_ascii spaced text h _ (List.mem_of_mem_head? hhead)).2
    omega
  rw [List.append_nil] at hblanks hvalue
  rw [loads, if_neg hmark, hblanks, hvalue]
  rfl

end FlowDiscovery.PyJson
