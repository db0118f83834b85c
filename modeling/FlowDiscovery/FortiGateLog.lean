import FlowDiscovery.FlowAdapters
import FlowDiscovery.ShellWords

/-!
# Log lines of FortiGate

A line is a priority and fields with a blank between them, the value of each as it is or
between double quotes. The adapter reads the fields back, whatever they are, and takes
nothing from a line without an equals sign.
-/
namespace FlowDiscovery.FortiGateLog
open PyText PyTime PyLexers FlowAdapters ShellWords

structure LogField where
  key : String
  value : Text
  quoted : Bool
  deriving DecidableEq, Repr

namespace LogField

/-- The token that the lexer makes of the field. -/
def token (f : LogField) : Text := f.key.toList ++ '=' :: f.value

def render (f : LogField) : Text :=
  if f.quoted then f.key.toList ++ '=' :: '"' :: (f.value ++ ['"']) else f.token

/-- Neither the lexer nor `strip` takes anything away outside the quotes. -/
structure Plain (f : LogField) : Prop where
  key : ∀ c ∈ f.key.toList, isBare c ∧ isSpace c = false ∧ c ≠ '='
  bare : f.quoted = false → ∀ c ∈ f.value, isBare c ∧ isSpace c = false
  quoted : f.quoted = true → ∀ c ∈ f.value, isQuotable c

/-- The key with its sign and the value are one piece, or two. -/
def pieces (f : LogField) : List Piece :=
  if f.quoted then [.bare (f.key.toList ++ ['=']), .quoted f.value] else [.bare f.token]

variable {f : LogField}

lemma pieces_ne_nil (f : LogField) : f.pieces ≠ [] := by
  unfold pieces
  split_ifs <;> simp

lemma plain_pieces (h : f.Plain) : ∀ p ∈ f.pieces, p.Plain := by
  have hkey : ∀ c ∈ f.key.toList, isBare c := fun c hc => (h.key c hc).1
  have hsign : isBare '=' := rfl
  unfold pieces
  split_ifs with hquoted
  · simp only [List.forall_mem_cons, List.not_mem_nil, false_imp_iff, implies_true, and_true]
    refine ⟨⟨by simp, ?_⟩, h.quoted hquoted⟩
    simpa [or_imp, forall_and] using ⟨hkey, hsign⟩
  · have hvalue : ∀ c ∈ f.value, isBare c := fun c hc => (h.bare (Bool.eq_false_iff.mpr hquoted) c hc).1
    simp only [List.forall_mem_cons, List.not_mem_nil, false_imp_iff, implies_true, and_true]
    refine ⟨by simp [token], ?_⟩
    simpa [token, or_imp, forall_and] using ⟨hkey, hsign, hvalue⟩

def word (f : LogField) (h : f.Plain) : Word := ⟨f.pieces, f.pieces_ne_nil, plain_pieces h⟩

lemma render_word (h : f.Plain) : (f.word h).render = f.render := by
  unfold word Word.render pieces render
  split_ifs <;> simp [Piece.render]

lemma text_word (h : f.Plain) : (f.word h).text = f.token := by
  unfold word Word.text pieces
  split_ifs <;> simp [Piece.text, token]

lemma keyValue_token (h : f.Plain) : keyValue f.token = some (f.key.toList, f.value) :=
  splitOnce_singleton (fun hc => (h.key '=' hc).2.2 rfl) f.value

end LogField

/-- The fields with a blank between them. -/
def body (fields : List LogField) : Text := List.intercalate [' '] (fields.map LogField.render)

/-- The line with its priority. -/
def logLine (pri : Text) (fields : List LogField) : Text := '<' :: (pri ++ '>' :: body fields)

/-- The dictionary of the fields; the last one of a key counts. -/
def dictOf (fields : List LogField) : Dict String String :=
  fields.foldl (fun d f => d.set f.key (String.ofList f.value)) Dict.empty

/-! ## Reading a line -/

section

variable {fields : List LogField}

lemma body_eq_lineText (h : ∀ f ∈ fields, f.Plain) :
    body fields = lineText (fields.pmap LogField.word h) := by
  rw [body, lineText, List.map_pmap]
  simp only [LogField.render_word, List.pmap_eq_map]

lemma shlexSplit_body (h : ∀ f ∈ fields, f.Plain) :
    shlexSplit (body fields) = some (fields.map LogField.token) := by
  rw [body_eq_lineText h, shlexSplit_lineText, List.map_pmap]
  simp only [LogField.text_word, List.pmap_eq_map]

/-- A field starts and ends with a character that is no blank. -/
lemma trimmed_render {f : LogField} (h : f.Plain) : f.render ≠ [] ∧ Trimmed isSpace f.render := by
  have hsign : isSpace '=' = false := rfl
  have hhead : ∀ rest : Text, ∀ c ∈ (f.key.toList ++ '=' :: rest).head?, isSpace c = false := by
    intro rest c hc
    cases hkey : f.key.toList with
    | nil =>
      rw [hkey] at hc
      obtain rfl := Option.some.inj hc
      exact hsign
    | cons d ds =>
      rw [hkey] at hc
      obtain rfl := Option.some.inj hc
      exact (h.key d (hkey ▸ List.mem_cons_self)).2.1
  unfold LogField.render
  split_ifs with hquoted
  · refine ⟨by simp, hhead _, fun c hc => ?_⟩
    rw [← List.cons_append, ← List.cons_append, ← List.append_assoc, List.getLast?_concat] at hc
    obtain rfl := Option.some.inj hc
    rfl
  · refine ⟨by simp [LogField.token], hhead _, fun c hc => ?_⟩
    have hmem := List.mem_of_getLast? hc
    rw [LogField.token, List.getLast?_append_cons] at hc
    rcases List.mem_cons.mp (List.mem_of_getLast? hc) with rfl | hmem
    · exact hsign
    · exact (h.bare (Bool.eq_false_iff.mpr hquoted) c hmem).2

lemma trimmed_append {p : Char → Bool} {s s' : Text} (h : Trimmed p s) (hne : s ≠ [])
    (h' : Trimmed p s') (hne' : s' ≠ []) (c : Char) : Trimmed p (s ++ c :: s') := by
  constructor
  · rw [List.head?_append_of_ne_nil _ hne]
    exact h.1
  · rw [List.getLast?_append_cons, List.getLast?_cons_of_ne_nil hne']
    exact h'.2

lemma body_cons_cons (f g : LogField) (rest : List LogField) :
    body (f :: g :: rest) = f.render ++ ' ' :: body (g :: rest) := by
  simp [body, List.intercalate_cons_cons]

lemma body_ne_nil {f : LogField} (h : f.Plain) (rest : List LogField) : body (f :: rest) ≠ [] := by
  cases rest with
  | nil => simpa [body] using (trimmed_render h).1
  | cons g gs => simp [body_cons_cons]

lemma trimmed_body (h : ∀ f ∈ fields, f.Plain) : Trimmed isSpace (body fields) := by
  induction fields with
  | nil => exact ⟨nofun, nofun⟩
  | cons f rest ih =>
    obtain ⟨hne, htrimmed⟩ := trimmed_render (h f List.mem_cons_self)
    have hrest := ih fun g hg => h g (List.mem_cons_of_mem f hg)
    cases rest with
    | nil => simpa [body] using htrimmed
    | cons g gs =>
      rw [body_cons_cons]
      exact trimmed_append htrimmed hne hrest (body_ne_nil (h g (by simp)) gs) ' '

lemma dropPri_logLine {pri : Text} (hne : pri ≠ []) (hpri : ∀ c ∈ pri, c.isDigit)
    (fields : List LogField) : FortiGate.dropPri (logLine pri fields) = body fields := by
  have hdigits : ∀ c ∈ pri, (decimal? c).isSome = true := fun c hc => by
    rw [decimal?_of_isDigit (hpri c hc)]
    rfl
  rw [logLine, FortiGate.dropPri]
  simp only [List.takeWhile_append_of_pos hdigits, List.dropWhile_append_of_pos hdigits]
  obtain ⟨c, cs, rfl⟩ := List.exists_cons_of_ne_nil hne
  rfl

/-- `_kv` gives the fields of a line. -/
theorem kv_logLine {pri : Text} (hne : pri ≠ []) (hpri : ∀ c ∈ pri, c.isDigit)
    (h : ∀ f ∈ fields, f.Plain) : FortiGate.kv (logLine pri fields) = some (dictOf fields) := by
  rw [FortiGate.kv, dropPri_logLine hne hpri, strip, stripBy_of_trimmed (trimmed_body h),
    shlexSplit_body h, Option.map_some, dictOf, List.foldl_map]
  congr 1
  refine List.foldl_ext _ _ _ fun d f hf => ?_
  simp only [LogField.keyValue_token (h f hf), String.ofList_toList]

end

/-- A field that no later one has the key of. -/
lemma get?_dictOf {fields : List LogField} (h : (fields.map LogField.key).Nodup) {f : LogField}
    (hf : f ∈ fields) : (dictOf fields).get? f.key = some (String.ofList f.value) := by
  rw [dictOf, Dict.get?_foldl_set_map]
  cases hfind : fields.reverse.find? fun g => g.key = f.key with
  | none => exact absurd (List.find?_eq_none.mp hfind f (List.mem_reverse.mpr hf)) (by simp)
  | some g =>
    have hkey : g.key = f.key := by simpa using List.find?_some hfind
    have hg : g ∈ fields := List.mem_reverse.mp (List.mem_of_find?_eq_some hfind)
    rw [List.inj_on_of_nodup_map h hg hf hkey]
    rfl

/-! ## Lines without fields -/

lemma mem_of_mem_dropPri {line : Text} {c : Char} (h : c ∈ FortiGate.dropPri line) : c ∈ line := by
  unfold FortiGate.dropPri at h
  split at h
  · next rest =>
    dsimp only at h
    split at h
    · next body hbody =>
      have hmem : c ∈ rest.dropWhile fun c => (decimal? c).isSome := hbody ▸ List.mem_cons_of_mem _ h
      exact List.mem_cons_of_mem _ ((List.dropWhile_sublist _).mem hmem)
    · exact h
  · exact h

lemma mem_of_mem_strip {s : Text} {c : Char} (h : c ∈ strip s) : c ∈ s := by
  obtain ⟨before, after, hs, _, _⟩ := exists_append_stripBy isSpace s
  rw [hs]
  exact List.mem_append_left _ (List.mem_append_right _ h)

lemma keyValue_of_no_sign {token : Text} (h : '=' ∉ token) : keyValue token = none := by
  cases hpair : keyValue token with
  | none => rfl
  | some pair =>
    have hparts := splitOnce_eq_some hpair
    exact absurd (by rw [hparts]; simp) h

lemma kv_of_no_sign {line : Text} (h : '=' ∉ line) :
    FortiGate.kv line = none ∨ FortiGate.kv line = some Dict.empty := by
  have hstrip : '=' ∉ strip (FortiGate.dropPri line) := fun hmem =>
    h (mem_of_mem_dropPri (mem_of_mem_strip hmem))
  unfold FortiGate.kv
  cases hsplit : shlexSplit (strip (FortiGate.dropPri line)) with
  | none => exact .inl rfl
  | some tokens =>
    have htokens := notMem_shlexSplit (by decide) hstrip hsplit
    refine .inr (congrArg some ?_)
    refine List.foldlRecOn tokens _ (motive := fun d => d = Dict.empty) rfl ?_
    rintro d rfl token htoken
    simp only [keyValue_of_no_sign (htokens token htoken)]

/-- Without an equals sign there is no type. -/
theorem parseLine_of_no_sign (now : Instant) {line : Text} (h : '=' ∉ line) :
    FortiGate.parseLine now line = none := by
  rw [FortiGate.parseLine]
  rcases kv_of_no_sign h with hkv | hkv
  · rw [hkv]
    rfl
  · rw [hkv]
    rfl

end FlowDiscovery.FortiGateLog
