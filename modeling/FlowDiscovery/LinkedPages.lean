import Mathlib.Tactic

/-!
# Collections served in linked pages

A page has items and, unless it is the last one, a link to the next page. A reader follows
the links and collects what it makes of the items one by one. It may not come to an end,
and it gives nothing when a page or an item raises; otherwise it gives the parts of all
items of all pages, in order.
-/
namespace FlowDiscovery.LinkedPages

variable {κ ι α : Type*}

inductive Next (κ : Type*) where
  | last
  | more (link : κ)
  | broken

structure Page (κ ι : Type*) where
  items : List ι
  next : Next κ

/-- The outer `none` is a run cut short for lack of fuel, the inner one an exception. -/
abbrev Outcome (α : Type*) := Option (Option (List α))

/-- The loop over the items of a page. -/
def readItems (read : ι → Outcome α) : List ι → List α → Outcome α
  | [], out => some (some out)
  | item :: rest, out =>
    match read item with
    | some (some part) => readItems read rest (out ++ part)
    | stopped => stopped

/-- The loop over the pages; a page that cannot be got raises. -/
def readPages (get : κ → Option (Page κ ι)) (read : ℕ → ι → Outcome α) :
    ℕ → κ → List α → Outcome α
  | 0, _, _ => none
  | fuel + 1, link, out =>
    match get link with
    | none => some none
    | some page =>
      match readItems (read fuel) page.items out with
      | some (some out) =>
        match page.next with
        | .last => some (some out)
        | .more link => readPages get read fuel link out
        | .broken => some none
      | stopped => stopped

/-- The items of the pages from a link on. -/
inductive Serves (get : κ → Option (Page κ ι)) : κ → List (List ι) → Prop
  | last {link : κ} {items : List ι} (h : get link = some ⟨items, .last⟩) : Serves get link [items]
  | next {link link' : κ} {items : List ι} {rest : List (List ι)}
      (h : get link = some ⟨items, .more link'⟩) (hrest : Serves get link' rest) :
      Serves get link (items :: rest)

/-- What is read with some fuel is read with more. -/
def Steady (run : ℕ → Outcome α) : Prop := ∀ n m, n ≤ m → ∀ r, run n = some r → run m = some r

/-- Some fuel is enough to read the part. -/
def Reads (run : ℕ → Outcome α) (part : List α) : Prop := ∃ fuel, run fuel = some (some part)

lemma steady_const (r : Outcome α) : Steady fun _ => r := fun _ _ _ _ h => h

lemma reads_const_iff {r : Outcome α} {part : List α} :
    Reads (fun _ => r) part ↔ r = some (some part) := exists_const ℕ

section

variable {get : κ → Option (Page κ ι)} {read : ℕ → ι → Outcome α}

lemma readItems_eq_some_iff {read : ι → Outcome α} {items : List ι} {out rows : List α} :
    readItems read items out = some (some rows) ↔
      ∃ parts, List.Forall₂ (fun item part => read item = some (some part)) items parts ∧
        rows = out ++ parts.flatten := by
  induction items generalizing out with
  | nil => simp [readItems, eq_comm]
  | cons item rest ih =>
    rw [readItems]
    constructor
    · intro h
      split at h
      · next part hpart =>
        obtain ⟨parts, hparts, hrows⟩ := ih.mp h
        exact ⟨part :: parts, .cons hpart hparts, by simp [hrows]⟩
      · next hstop => exact absurd h (hstop rows)
    · rintro ⟨_, hparts, hrows⟩
      cases hparts with
      | cons hpart hparts =>
        simp only [hpart]
        exact ih.mpr ⟨_, hparts, by simp [hrows]⟩

lemma readItems_mono {read read' : ι → Outcome α} (h : ∀ item r, read item = some r →
    read' item = some r) {items : List ι} {out : List α} {r : Option (List α)}
    (hread : readItems read items out = some r) : readItems read' items out = some r := by
  induction items generalizing out with
  | nil => exact hread
  | cons item rest ih =>
    rw [readItems] at hread ⊢
    cases hitem : read item with
    | none =>
      rw [hitem] at hread
      cases hread
    | some part =>
      rw [hitem] at hread
      rw [h item part hitem]
      cases part with
      | none => exact hread
      | some part => exact ih hread

theorem readPages_steady (hread : ∀ item, Steady fun n => read n item) (link : κ) (out : List α) :
    Steady fun n => readPages get read n link out := by
  intro n m hle r h
  induction n generalizing m link out with
  | zero => cases h
  | succ n ih =>
    obtain ⟨m, rfl⟩ : ∃ k, m = k + 1 := ⟨m - 1, by omega⟩
    dsimp only at h ⊢
    rw [readPages] at h ⊢
    cases hget : get link with
    | none => rwa [hget] at h
    | some page =>
      rw [hget] at h
      dsimp only at h ⊢
      cases hitems : readItems (read n) page.items out with
      | none =>
        rw [hitems] at h
        cases h
      | some part =>
        rw [hitems] at h
        rw [readItems_mono (fun item r => hread item n m (by omega) r) hitems]
        cases part with
        | none => exact h
        | some part =>
          dsimp only at h ⊢
          cases hnext : page.next with
          | last => rwa [hnext] at h
          | broken => rwa [hnext] at h
          | more link' =>
            rw [hnext] at h
            exact ih link' part m (by omega) h

lemma serves_of_readPages {fuel : ℕ} {link : κ} {out rows : List α}
    (h : readPages get read fuel link out = some (some rows)) :
    ∃ pages parts, Serves get link pages ∧
      List.Forall₂ (fun item part => Reads (fun n => read n item) part) pages.flatten parts ∧
      rows = out ++ parts.flatten := by
  induction fuel generalizing link out with
  | zero => cases h
  | succ fuel ih =>
    rw [readPages] at h
    cases hget : get link with
    | none =>
      rw [hget] at h
      cases h
    | some page =>
      rw [hget] at h
      dsimp only at h
      split at h
      · next out' hitems =>
        obtain ⟨parts, hparts, rfl⟩ := readItems_eq_some_iff.mp hitems
        have hreads : List.Forall₂ (fun item part => Reads (fun n => read n item) part) page.items
            parts := hparts.imp fun _ _ hitem => ⟨fuel, hitem⟩
        obtain ⟨items, next⟩ := page
        cases next with
        | last =>
          refine ⟨[items], parts, .last hget, by simpa using hreads, ?_⟩
          exact (Option.some.inj (Option.some.inj h)).symm
        | broken => cases h
        | more link' =>
          obtain ⟨pages, parts', hpages, hreads', rfl⟩ := ih h
          exact ⟨items :: pages, parts ++ parts', .next hget hpages, List.rel_append hreads hreads',
            by simp⟩
      · next hstop => exact absurd h (hstop rows)

/-- Enough fuel for each item is enough for all of them. -/
lemma exists_fuel (hread : ∀ item, Steady fun n => read n item) {items : List ι}
    {parts : List (List α)}
    (h : List.Forall₂ (fun item part => Reads (fun n => read n item) part) items parts) :
    ∃ fuel, ∀ n, fuel ≤ n →
      List.Forall₂ (fun item part => read n item = some (some part)) items parts := by
  induction h with
  | nil => exact ⟨0, fun n _ => .nil⟩
  | cons hitem _ ih =>
    obtain ⟨fuel, hfuel⟩ := hitem
    obtain ⟨fuel', hfuel'⟩ := ih
    refine ⟨max fuel fuel', fun n hn => .cons ?_ (hfuel' n (by omega))⟩
    exact hread _ fuel n (by omega) _ hfuel

lemma readPages_of_serves (hread : ∀ item, Steady fun n => read n item) {link : κ}
    {pages : List (List ι)} (hpages : Serves get link pages) {parts : List (List α)}
    (hparts : List.Forall₂ (fun item part => Reads (fun n => read n item) part) pages.flatten
      parts) (out : List α) :
    Reads (fun n => readPages get read n link out) (out ++ parts.flatten) := by
  induction hpages generalizing parts out with
  | @last link items hget =>
    rw [List.flatten_singleton] at hparts
    obtain ⟨fuel, hfuel⟩ := exists_fuel hread hparts
    have hitems : readItems (read fuel) items out = some (some (out ++ parts.flatten)) :=
      readItems_eq_some_iff.mpr ⟨parts, hfuel fuel (le_refl _), rfl⟩
    exact ⟨fuel + 1, by simp only [readPages, hget, hitems]⟩
  | @next link link' items rest hget _ ih =>
    rw [List.flatten_cons] at hparts
    have hfirst := (List.forall₂_take_append _ _ _ hparts.flip).flip
    have hrest := (List.forall₂_drop_append _ _ _ hparts.flip).flip
    obtain ⟨fuel, hfuel⟩ := exists_fuel hread hfirst
    have hitems : ∀ n, fuel ≤ n → readItems (read n) items out =
        some (some (out ++ (parts.take items.length).flatten)) := fun n hn =>
      readItems_eq_some_iff.mpr ⟨_, hfuel n hn, rfl⟩
    obtain ⟨fuel', hfuel'⟩ := ih hrest (out ++ (parts.take items.length).flatten)
    refine ⟨max fuel fuel' + 1, ?_⟩
    simp only [readPages, hget, hitems (max fuel fuel') (by omega)]
    have hmore := readPages_steady hread link' _ fuel' (max fuel fuel') (by omega) _ hfuel'
    dsimp only at hmore
    rw [hmore, List.append_assoc, ← List.flatten_append, List.take_append_drop]

/-- A reading ends with rows exactly if there are pages up to a last one and every item on
them gives its part; the rows are the parts in order. -/
theorem reads_pages_iff (hread : ∀ item, Steady fun n => read n item) (link : κ) (rows : List α) :
    Reads (fun n => readPages get read n link []) rows ↔
      ∃ pages parts, Serves get link pages ∧
        List.Forall₂ (fun item part => Reads (fun n => read n item) part) pages.flatten parts ∧
        rows = parts.flatten := by
  constructor
  · rintro ⟨fuel, h⟩
    exact serves_of_readPages h
  · rintro ⟨pages, parts, hpages, hparts, rfl⟩
    exact readPages_of_serves hread hpages hparts []

end

end FlowDiscovery.LinkedPages
