import Mathlib.Tactic

/-!
# Runs of a deterministic step function

Every choice of a scheduler, a clock or an environment is part of the action,
so the list of actions is the interleaving and a run is a left fold. The rules
below are the only inductions over runs that the rest of the development uses.
-/
namespace FlowDiscovery.Machine

variable {σ α : Type*}

/-- The state reached after the actions have been taken in order. -/
def run (step : σ → α → σ) (s : σ) (actions : List α) : σ := actions.foldl step s

@[simp] theorem run_nil (step : σ → α → σ) (s : σ) : run step s [] = s := rfl

@[simp] theorem run_cons (step : σ → α → σ) (s : σ) (a : α) (rest : List α) :
    run step s (a :: rest) = run step (step s a) rest := rfl

theorem run_append (step : σ → α → σ) (s : σ) (first rest : List α) :
    run step s (first ++ rest) = run step (run step s first) rest := by
  simp [run]

/-- `P` holds in the start state and after every action of the run. -/
def Throughout (step : σ → α → σ) (P : σ → Prop) : σ → List α → Prop
  | s, [] => P s
  | s, a :: rest => P s ∧ Throughout step P (step s a) rest

/-- Every action of the run meets `C` in the state in which it is taken. -/
def Along (step : σ → α → σ) (C : σ → α → Prop) : σ → List α → Prop
  | _, [] => True
  | s, a :: rest => C s a ∧ Along step C (step s a) rest

theorem Throughout.start {step : σ → α → σ} {P : σ → Prop} {s : σ} {actions : List α}
    (h : Throughout step P s actions) : P s := by
  cases actions with
  | nil => exact h
  | cons a rest => exact h.1

theorem Throughout.last {step : σ → α → σ} {P : σ → Prop} {s : σ} {actions : List α}
    (h : Throughout step P s actions) : P (run step s actions) := by
  induction actions generalizing s with
  | nil => exact h
  | cons a rest ih => exact ih h.2

theorem Throughout.mono {step : σ → α → σ} {P Q : σ → Prop} (hPQ : ∀ s, P s → Q s)
    {s : σ} {actions : List α} (h : Throughout step P s actions) :
    Throughout step Q s actions := by
  induction actions generalizing s with
  | nil => exact hPQ s h
  | cons a rest ih => exact ⟨hPQ s h.1, ih h.2⟩

/-- Invariant rule for runs whose actions all meet a condition. -/
theorem throughout_of_along {step : σ → α → σ} {C : σ → α → Prop} {I : σ → Prop}
    (hstep : ∀ s a, I s → C s a → I (step s a)) {s : σ} {actions : List α}
    (h0 : I s) (h : Along step C s actions) : Throughout step I s actions := by
  induction actions generalizing s with
  | nil => exact h0
  | cons a rest ih => exact ⟨h0, ih (hstep s a h0 h.1) h.2⟩

/-- What an invariant and the condition give for each action, a run whose actions
all meet the condition gives for all of its actions. -/
theorem along_of_invariant {step : σ → α → σ} {C Q : σ → α → Prop} {I : σ → Prop}
    (hstep : ∀ s a, I s → C s a → I (step s a)) (hQ : ∀ s a, I s → C s a → Q s a) {s : σ}
    {actions : List α} (h0 : I s) (h : Along step C s actions) : Along step Q s actions := by
  induction actions generalizing s with
  | nil => trivial
  | cons a rest ih => exact ⟨hQ s a h0 h.1, ih (hstep s a h0 h.1) h.2⟩

/-- A condition on the actions alone. -/
theorem along_of_forall_mem {step : σ → α → σ} {C : σ → α → Prop} {actions : List α}
    (h : ∀ a ∈ actions, ∀ s, C s a) (s : σ) : Along step C s actions := by
  induction actions generalizing s with
  | nil => trivial
  | cons a rest ih =>
    exact ⟨h a List.mem_cons_self s, ih (fun a' ha' => h a' (List.mem_cons_of_mem a ha')) _⟩

instance Along.decidable (step : σ → α → σ) (C : σ → α → Prop) [∀ s a, Decidable (C s a)] :
    ∀ s actions, Decidable (Along step C s actions)
  | _, [] => isTrue trivial
  | s, a :: rest =>
    have := Along.decidable step C (step s a) rest
    inferInstanceAs (Decidable (C s a ∧ Along step C (step s a) rest))

/-- Invariant rule for arbitrary runs. -/
theorem run_invariant {step : σ → α → σ} {I : σ → Prop}
    (hstep : ∀ s a, I s → I (step s a)) {s : σ} (h0 : I s) (actions : List α) :
    I (run step s actions) := by
  induction actions generalizing s with
  | nil => exact h0
  | cons a rest ih => exact ih (hstep s a h0)

theorem throughout_of_invariant {step : σ → α → σ} {I : σ → Prop}
    (hstep : ∀ s a, I s → I (step s a)) {s : σ} (h0 : I s) (actions : List α) :
    Throughout step I s actions := by
  induction actions generalizing s with
  | nil => exact h0
  | cons a rest ih => exact ⟨h0, ih (hstep s a h0)⟩

/-- Two systems that take the same actions stay related. -/
theorem run_related {τ : Type*} {step : σ → α → σ} {step' : τ → α → τ} {R : σ → τ → Prop}
    (hstep : ∀ s t a, R s t → R (step s a) (step' t a)) {s : σ} {t : τ} (h0 : R s t)
    (actions : List α) : R (run step s actions) (run step' t actions) := by
  induction actions generalizing s t with
  | nil => exact h0
  | cons a rest ih => exact ih (hstep s t a h0)

/-- What every step does to its own start, a run does to its own start. -/
theorem run_relation {step : σ → α → σ} {R : σ → σ → Prop} (hrefl : ∀ s, R s s)
    (htrans : ∀ s t u, R s t → R t u → R s u) (hstep : ∀ s a, R s (step s a)) (s : σ)
    (actions : List α) : R s (run step s actions) := by
  induction actions generalizing s with
  | nil => exact hrefl s
  | cons a rest ih => exact htrans s _ _ (hstep s a) (ih (step s a))

theorem Throughout.at_split {step : σ → α → σ} {P : σ → Prop} {s : σ} {before after : List α}
    (h : Throughout step P s (before ++ after)) : P (run step s before) := by
  induction before generalizing s with
  | nil => exact h.start
  | cons a rest ih => exact ih h.2

theorem Throughout.after_split {step : σ → α → σ} {P : σ → Prop} {s : σ} {before after : List α}
    (h : Throughout step P s (before ++ after)) : Throughout step P (run step s before) after := by
  induction before generalizing s with
  | nil => exact h
  | cons a rest ih => exact ih h.2

/-- Seen through `f`, each step of one system is a block of steps of the other. -/
def Simulates {β τ : Type*} (f : σ → τ) (step : σ → α → σ) (step' : τ → β → τ) :
    σ → List α → List (List β) → Prop
  | _, [], blocks => blocks = []
  | _, _ :: _, [] => False
  | s, a :: rest, block :: blocks =>
    f (step s a) = run step' (f s) block ∧ Simulates f step step' (step s a) rest blocks

section Simulates

variable {β τ : Type*} {f : σ → τ} {step : σ → α → σ} {step' : τ → β → τ}

theorem exists_simulates (hstep : ∀ s a, ∃ block, f (step s a) = run step' (f s) block) (s : σ)
    (actions : List α) : ∃ blocks, Simulates f step step' s actions blocks := by
  induction actions generalizing s with
  | nil => exact ⟨[], rfl⟩
  | cons a rest ih =>
    obtain ⟨block, hblock⟩ := hstep s a
    obtain ⟨blocks, hblocks⟩ := ih (step s a)
    exact ⟨block :: blocks, hblock, hblocks⟩

theorem Simulates.run_eq {s : σ} {actions : List α} {blocks : List (List β)}
    (h : Simulates f step step' s actions blocks) :
    f (run step s actions) = run step' (f s) blocks.flatten := by
  induction actions generalizing s blocks with
  | nil =>
    obtain rfl : blocks = [] := h
    rfl
  | cons a rest ih =>
    cases blocks with
    | nil => exact h.elim
    | cons block blocks =>
      rw [run_cons, List.flatten_cons, run_append, ← h.1]
      exact ih h.2

/-- What holds throughout the blocks, the first system has in all of its states. -/
theorem Simulates.throughout {P : τ → Prop} {s : σ} {actions : List α} {blocks : List (List β)}
    (h : Simulates f step step' s actions blocks)
    (hP : Throughout step' P (f s) blocks.flatten) : Throughout step (fun s => P (f s)) s actions := by
  induction actions generalizing s blocks with
  | nil => exact hP.start
  | cons a rest ih =>
    cases blocks with
    | nil => exact h.elim
    | cons block blocks =>
      refine ⟨hP.start, ih h.2 ?_⟩
      rw [h.1]
      exact hP.after_split

end Simulates

/-- Converse rule: where a bad action breaks `P` at once, a run on which `P`
holds throughout has no bad action. The invariant `I` is what the step needs. -/
theorem along_of_throughout {step : σ → α → σ} {C : σ → α → Prop} {P I : σ → Prop}
    (hI : ∀ s a, I s → P s → C s a → I (step s a))
    (hbad : ∀ s a, I s → P s → ¬ C s a → ¬ P (step s a)) {s : σ} {actions : List α}
    (h0 : I s) (h : Throughout step P s actions) : Along step C s actions := by
  induction actions generalizing s with
  | nil => trivial
  | cons a rest ih =>
    have hc : C s a := by
      by_contra hc
      exact hbad s a h0 h.1 hc h.2.start
    exact ⟨hc, ih (hI s a h0 h.1 hc) h.2⟩

/-- Where an invariant makes a step keep `P` under a condition and under no other, a
run keeps `P` iff all its actions meet the condition. -/
theorem throughout_iff_along {step : σ → α → σ} {C : σ → α → Prop} {P I : σ → Prop}
    (hI : ∀ s a, I s → I (step s a)) (hiff : ∀ s a, I s → P s → (P (step s a) ↔ C s a)) {s : σ}
    (h0 : I s) (hP : P s) (actions : List α) :
    Throughout step P s actions ↔ Along step C s actions := by
  constructor
  · intro h
    exact along_of_throughout (fun s a hs _ _ => hI s a hs)
      (fun s a hs hPs hbad => mt (hiff s a hs hPs).mp hbad) h0 h
  · intro h
    have hboth := throughout_of_along (I := fun s => I s ∧ P s)
      (fun s a hs hok => ⟨hI s a hs.1, (hiff s a hs.1 hs.2).mpr hok⟩) ⟨h0, hP⟩ h
    exact hboth.mono fun s hs => hs.2

/-- How a call to a store ends. A call whose answer is lost has taken effect and raises,
as one that is refused does. -/
inductive Reply where
  | stored
  | refused
  | lost
  deriving DecidableEq

/-! ## Tables of tasks

The states of concurrent tasks are kept in a list, and a task moves by setting
its own entry. -/

theorem getElem?_set_of_some {tasks : List α} {i : ℕ} {t : α} (h : tasks[i]? = some t) (t' : α)
    (j : ℕ) : (tasks.set i t')[j]? = if i = j then some t' else tasks[j]? := by
  have hlt : i < tasks.length := (List.getElem?_eq_some_iff.mp h).1
  by_cases hij : i = j
  · subst hij
    simp [hlt]
  · simp [hij]

/-- In a table that got one more task. -/
theorem getElem?_concat_cases {tasks : List α} {t u : α} {j : ℕ}
    (h : (tasks ++ [t])[j]? = some u) : tasks[j]? = some u ∨ j = tasks.length ∧ u = t := by
  rcases Nat.lt_or_ge j tasks.length with hlt | hge
  · rw [List.getElem?_append_left hlt] at h
    exact .inl h
  · have hj : j < (tasks ++ [t]).length := (List.getElem?_eq_some_iff.mp h).1
    rw [List.length_append, List.length_singleton] at hj
    obtain rfl : j = tasks.length := by omega
    rw [List.getElem?_concat_length] at h
    exact .inr ⟨rfl, (Option.some.inj h).symm⟩

theorem mem_set_of_some {tasks : List α} {i : ℕ} {t : α} (h : tasks[i]? = some t) (t' : α) :
    t' ∈ tasks.set i t' :=
  List.mem_set (List.getElem?_eq_some_iff.mp h).1 t'

/-- What holds of all tasks still does when one of them moves to such a state. -/
theorem forall_mem_set {P : α → Prop} {tasks : List α} (h : ∀ t ∈ tasks, P t) {t' : α}
    (ht' : P t') (i : ℕ) : ∀ t ∈ tasks.set i t', P t := by
  intro t ht
  rcases List.mem_or_eq_of_mem_set ht with ht | rfl
  · exact h t ht
  · exact ht'

/-- The entries of a tagged history that carry one tag, in order. -/
def entriesOf {κ β : Type*} [DecidableEq κ] (key : κ) (log : List (κ × β)) : List β :=
  log.filterMap fun e => if e.1 = key then some e.2 else none

section EntriesOf

variable {κ β : Type*} [DecidableEq κ]

@[simp] theorem entriesOf_nil (key : κ) : entriesOf key ([] : List (κ × β)) = [] := rfl

@[simp] theorem entriesOf_append (key : κ) (log log' : List (κ × β)) :
    entriesOf key (log ++ log') = entriesOf key log ++ entriesOf key log' := by
  simp [entriesOf]

theorem entriesOf_singleton (key k : κ) (x : β) :
    entriesOf key [(k, x)] = if k = key then [x] else [] := by
  by_cases h : k = key <;> simp [entriesOf, h]

theorem entriesOf_sublist (key : κ) {log log' : List (κ × β)} (h : log.Sublist log') :
    (entriesOf key log).Sublist (entriesOf key log') :=
  h.filterMap _

end EntriesOf

end FlowDiscovery.Machine
