import FlowDiscovery.PyLexers

/-!
# Words for a shell lexer

A word is written as pieces, each as it is or between double quotes. The lexer gives back
the words of a line with the quotes taken away, blanks between quotes included.
-/
namespace FlowDiscovery.ShellWords
open PyText PyLexers

/-- A character that means itself outside quotes. -/
def isBare (c : Char) : Bool := !isShlexBlank c && c ≠ '\\' && c ≠ '\'' && c ≠ '"'

/-- A character that means itself between double quotes. -/
def isQuotable (c : Char) : Bool := c ≠ '"' && c ≠ '\\'

inductive Piece where
  | bare (t : Text)
  | quoted (t : Text)

namespace Piece

def text : Piece → Text
  | bare t | quoted t => t

def render : Piece → Text
  | bare t => t
  | quoted t => '"' :: (t ++ ['"'])

def Plain : Piece → Prop
  | bare t => t ≠ [] ∧ ∀ c ∈ t, isBare c
  | quoted t => ∀ c ∈ t, isQuotable c

end Piece

/-- A word of at least one piece. -/
structure Word where
  pieces : List Piece
  nonempty : pieces ≠ []
  plain : ∀ p ∈ pieces, p.Plain

namespace Word

def text (w : Word) : Text := w.pieces.flatMap Piece.text

def render (w : Word) : Text := w.pieces.flatMap Piece.render

end Word

/-- The words with a blank between them. -/
def lineText (ws : List Word) : Text := List.intercalate [' '] (ws.map Word.render)

lemma lineText_cons (w w' : Word) (ws : List Word) :
    lineText (w :: w' :: ws) = w.render ++ ' ' :: lineText (w' :: ws) := by
  simp [lineText, List.intercalate_cons_cons]

/-! ## One word -/

/-- The next character goes on with the token, or starts one. -/
def Open (l : Shlex) : Prop := l.state = .word ∨ l.state = .between ∧ l.token = []

lemma step_bare {l : Shlex} (hopen : Open l) {c : Char} (hc : isBare c) :
    l.step c = ⟨.word, l.token ++ [c], l.quoted, l.tokens⟩ := by
  obtain ⟨state, token, quoted, tokens⟩ := l
  simp only [isBare, Bool.and_eq_true, Bool.not_eq_true', decide_eq_true_eq] at hc
  obtain ⟨⟨⟨hblank, hback⟩, hsingle⟩, hdouble⟩ := hc
  rcases hopen with rfl | ⟨rfl, rfl⟩
  · simp [Shlex.step, hblank, hback, hsingle, hdouble]
  · simp [Shlex.step, hblank, hback, hsingle, hdouble]

lemma foldl_bare {l : Shlex} (hopen : Open l) {t : Text} (hne : t ≠ []) (ht : ∀ c ∈ t, isBare c) :
    t.foldl Shlex.step l = ⟨.word, l.token ++ t, l.quoted, l.tokens⟩ := by
  induction t generalizing l with
  | nil => exact absurd rfl hne
  | cons c cs ih =>
    rw [List.foldl_cons, step_bare hopen (ht c List.mem_cons_self)]
    by_cases hcs : cs = []
    · rw [hcs]
      rfl
    · rw [ih (.inl rfl) hcs fun d hd => ht d (List.mem_cons_of_mem c hd)]
      simp

/-- Up to the closing quote. -/
lemma foldl_quote {t : Text} (ht : ∀ c ∈ t, isQuotable c) (token : Text) (quoted : Bool)
    (tokens : List Text) : (t ++ ['"']).foldl Shlex.step ⟨.quote '"', token, quoted, tokens⟩ =
      ⟨.word, token ++ t, true, tokens⟩ := by
  induction t generalizing token quoted with
  | nil => simp [Shlex.step]
  | cons c cs ih =>
    have hc := ht c List.mem_cons_self
    simp only [isQuotable, Bool.and_eq_true, decide_eq_true_eq] at hc
    have hstep : Shlex.step ⟨.quote '"', token, quoted, tokens⟩ c =
        ⟨.quote '"', token ++ [c], true, tokens⟩ := by
      simp [Shlex.step, hc.1, hc.2]
    rw [List.cons_append, List.foldl_cons, hstep,
      ih (fun d hd => ht d (List.mem_cons_of_mem c hd))]
    simp

lemma foldl_quoted {l : Shlex} (hopen : Open l) {t : Text} (ht : ∀ c ∈ t, isQuotable c) :
    ('"' :: (t ++ ['"'])).foldl Shlex.step l = ⟨.word, l.token ++ t, true, l.tokens⟩ := by
  have hstep : l.step '"' = ⟨.quote '"', l.token, l.quoted, l.tokens⟩ := by
    obtain ⟨state, token, quoted, tokens⟩ := l
    rcases hopen with rfl | ⟨rfl, rfl⟩
    · simp [Shlex.step, isShlexBlank]
    · simp [Shlex.step, isShlexBlank]
  rw [List.foldl_cons, hstep, foldl_quote ht]

/-- A token that is not lost when it ends: it has a character or a quoted part. -/
def Kept (l : Shlex) : Prop := l.state = .word ∧ (l.token ≠ [] ∨ l.quoted = true)

lemma foldl_piece {l : Shlex} (hopen : Open l) {p : Piece} (hp : p.Plain) :
    Kept (p.render.foldl Shlex.step l) ∧
      (p.render.foldl Shlex.step l).token = l.token ++ p.text ∧
      (p.render.foldl Shlex.step l).tokens = l.tokens := by
  cases p with
  | bare t =>
    rw [Piece.render, foldl_bare hopen hp.1 hp.2]
    exact ⟨⟨rfl, .inl (by simp [hp.1])⟩, rfl, rfl⟩
  | quoted t =>
    rw [Piece.render, foldl_quoted hopen hp]
    exact ⟨⟨rfl, .inr rfl⟩, rfl, rfl⟩

lemma foldl_pieces {l : Shlex} (hopen : Open l) {ps : List Piece} (hne : ps ≠ [])
    (hps : ∀ p ∈ ps, p.Plain) :
    Kept ((ps.flatMap Piece.render).foldl Shlex.step l) ∧
      ((ps.flatMap Piece.render).foldl Shlex.step l).token = l.token ++ ps.flatMap Piece.text ∧
      ((ps.flatMap Piece.render).foldl Shlex.step l).tokens = l.tokens := by
  induction ps generalizing l with
  | nil => exact absurd rfl hne
  | cons p ps ih =>
    obtain ⟨hkept, htoken, htokens⟩ := foldl_piece hopen (hps p List.mem_cons_self)
    simp only [List.flatMap_cons, List.foldl_append]
    by_cases hrest : ps = []
    · subst hrest
      simpa [htoken, htokens] using hkept
    · have hmore := ih (.inl hkept.1) hrest fun q hq => hps q (List.mem_cons_of_mem p hq)
      rwa [htoken, htokens, List.append_assoc] at hmore

/-! ## A line -/

lemma emit_of_kept {l : Shlex} (h : Kept l) :
    l.emit = ⟨.between, [], false, l.tokens ++ [l.token]⟩ := if_pos h.2

/-- The lexer is not inside quotes, and has the words so far once the token has ended. -/
lemma foldl_lineText (ws : List Word) (before : List Text) :
    let l := (lineText ws).foldl Shlex.step ⟨.between, [], false, before⟩
    (l.state = .between ∨ l.state = .word) ∧ l.emit.tokens = before ++ ws.map Word.text := by
  induction ws generalizing before with
  | nil => exact ⟨.inl rfl, (List.append_nil before).symm⟩
  | cons w ws ih =>
    have hopen : Open ⟨.between, [], false, before⟩ := .inr ⟨rfl, rfl⟩
    obtain ⟨hkept, htoken, htokens⟩ := foldl_pieces hopen w.nonempty w.plain
    cases ws with
    | nil =>
      have hline : lineText [w] = w.pieces.flatMap Piece.render := by
        simp [lineText, Word.render]
      rw [hline]
      refine ⟨.inr hkept.1, ?_⟩
      rw [emit_of_kept hkept, htoken, htokens]
      rfl
    | cons w' ws =>
      rw [lineText_cons, List.foldl_append, List.foldl_cons]
      have hblank : Shlex.step (w.render.foldl Shlex.step ⟨.between, [], false, before⟩) ' ' =
          ⟨.between, [], false, before ++ [w.text]⟩ := by
        have hemit := emit_of_kept hkept
        rw [htoken, htokens] at hemit
        rw [Shlex.step, Word.render, hkept.1]
        exact hemit
      rw [hblank]
      simpa using ih (before ++ [w.text])

theorem shlexSplit_lineText (ws : List Word) :
    shlexSplit (lineText ws) = some (ws.map Word.text) := by
  obtain ⟨hstate, htokens⟩ := foldl_lineText ws []
  unfold shlexSplit
  rw [Shlex.initial]
  rcases hstate with hstate | hstate
  · simp only [hstate, htokens, List.nil_append]
  · simp only [hstate, htokens, List.nil_append]

/-! ## What tokens are made of -/

/-- The character is in no token. -/
def Lacks (x : Char) (l : Shlex) : Prop := x ∉ l.token ∧ ∀ t ∈ l.tokens, x ∉ t

lemma lacks_emit {x : Char} {l : Shlex} (h : Lacks x l) : Lacks x l.emit := by
  unfold Shlex.emit
  split_ifs
  · refine ⟨List.not_mem_nil, fun t ht => ?_⟩
    rcases List.mem_append.mp ht with ht | ht
    · exact h.2 t ht
    · rw [List.mem_singleton.mp ht]
      exact h.1
  · exact h

/-- Other than the character read, only a backslash is added. -/
lemma lacks_step {x : Char} (hback : x ≠ '\\') {l : Shlex} (h : Lacks x l) {c : Char} (hc : x ≠ c) :
    Lacks x (l.step c) := by
  have hadded : x ∉ l.token ++ [c] := by simp [h.1, hc]
  obtain ⟨state, token, quoted, tokens⟩ := l
  unfold Shlex.step
  cases state with
  | between =>
    dsimp only
    split_ifs
    · exact lacks_emit h
    · exact h
    · exact h
    · exact ⟨by simpa using hc, h.2⟩
  | word =>
    dsimp only
    split_ifs
    · exact lacks_emit h
    · exact h
    · exact h
    · exact ⟨hadded, h.2⟩
  | quote mark =>
    dsimp only
    split_ifs
    · exact h
    · exact h
    · exact ⟨hadded, h.2⟩
  | escape back =>
    cases back with
    | none => exact ⟨hadded, h.2⟩
    | some mark =>
      refine ⟨?_, h.2⟩
      dsimp only
      split_ifs
      · exact hadded
      · simpa [hback, hc] using h.1

theorem notMem_shlexSplit {x : Char} (hback : x ≠ '\\') {s : Text} (hs : x ∉ s) {tokens : List Text}
    (h : shlexSplit s = some tokens) : ∀ t ∈ tokens, x ∉ t := by
  have hlacks : Lacks x (s.foldl Shlex.step .initial) := by
    refine List.foldlRecOn s Shlex.step (motive := Lacks x) ?_ fun l hl c hc => ?_
    · exact ⟨List.not_mem_nil, by simp [Shlex.initial]⟩
    · exact lacks_step hback hl fun heq => hs (heq ▸ hc)
  unfold shlexSplit at h
  dsimp only at h
  split at h
  · cases h
  · cases h
  all_goals
    obtain rfl := Option.some.inj h
    exact (lacks_emit hlacks).2

end FlowDiscovery.ShellWords
