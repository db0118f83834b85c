import FlowDiscovery.BoundedQueue
import FlowDiscovery.Machine

/-!
# Histories of a bounded queue

A queue with everything that was ever pushed to it, got from it and evicted from
it. Items are pushed drop-oldest and got by consumers of any speed, in any
interleaving. What was got followed by what is queued stays in the order of the
pushes, and every item is in exactly one of the three places.
-/
namespace FlowDiscovery
open Machine

structure QueueHistory (α : Type*) (maxsize : ℕ) where
  queue : BoundedQueue α maxsize
  pushed : List α
  got : List α
  evicted : List α

namespace QueueHistory

variable {α : Type*} {maxsize : ℕ}

def fresh : QueueHistory α maxsize := ⟨.empty, [], [], []⟩

def push (h : QueueHistory α maxsize) (x : α) : QueueHistory α maxsize :=
  let p := h.queue.putDropOldest x
  { h with queue := p.queue, pushed := h.pushed ++ [x], evicted := h.evicted ++ p.evicted.toList }

/-- A consumer that finds the queue empty waits. -/
def get (h : QueueHistory α maxsize) : QueueHistory α maxsize :=
  match h.queue.getNowait with
  | none => h
  | some (x, q) => { h with queue := q, got := h.got ++ [x] }

inductive Action (α : Type*) where
  | push (x : α)
  | get

def step (h : QueueHistory α maxsize) : Action α → QueueHistory α maxsize
  | .push x => h.push x
  | .get => h.get

/-- The newest items are kept in order and all others are accounted for. -/
structure Balanced (h : QueueHistory α maxsize) : Prop where
  bounded : h.queue.items.length ≤ maxsize
  in_order : (h.got ++ h.queue.items).Sublist h.pushed
  balance : h.pushed.Perm (h.got ++ h.queue.items ++ h.evicted)

/-- From the first history to the second nothing was evicted, or the oldest item of a
full queue. -/
def EvictsOldest {maxsize' : ℕ} (h : QueueHistory α maxsize) (h' : QueueHistory α maxsize') :
    Prop :=
  h'.evicted = h.evicted ∨
    h.queue.items.length = maxsize ∧
      ∃ old rest, h.queue.items = old :: rest ∧ h'.evicted = h.evicted ++ [old]

theorem fresh_balanced : (fresh : QueueHistory α maxsize).Balanced where
  bounded := Nat.zero_le _
  in_order := .refl _
  balance := .refl _

/-- What one get can do. -/
theorem get_cases (h : QueueHistory α maxsize) :
    h.get = h ∨ ∃ x q, h.queue.items = x :: q.items ∧
      h.get = { h with queue := q, got := h.got ++ [x] } := by
  unfold get
  cases hg : h.queue.getNowait with
  | none => exact .inl rfl
  | some p =>
    obtain ⟨x, q⟩ := p
    exact .inr ⟨x, q, (h.queue.getNowait_eq_some_iff q x).mp hg, rfl⟩

theorem push_balanced (hpos : 1 ≤ maxsize) {h : QueueHistory α maxsize} (hb : h.Balanced) (x : α) :
    (h.push x).Balanced where
  bounded := (h.push x).queue.bounded.resolve_left (by omega)
  in_order := by
    have hkept := (h.queue.putDropOldest_sublist x).append_left h.got
    rw [← List.append_assoc] at hkept
    exact hkept.trans (hb.in_order.append (.refl [x]))
  balance := by
    have hmoved := h.queue.putDropOldest_conserves x
    calc (h.pushed ++ [x]).Perm (h.got ++ h.queue.items ++ h.evicted ++ [x]) :=
        hb.balance.append_right [x]
      _ = h.got ++ (h.queue.items ++ (h.evicted ++ [x])) := by simp
      _ |>.Perm (h.got ++ (h.queue.items ++ ([x] ++ h.evicted))) :=
        (List.perm_append_comm.append_left _).append_left _
      _ = h.got ++ (((h.queue.putDropOldest x).evicted.toList ++
            (h.queue.putDropOldest x).queue.items) ++ h.evicted) := by simp [hmoved]
      _ |>.Perm (h.got ++ (((h.queue.putDropOldest x).queue.items ++
            h.evicted) ++ (h.queue.putDropOldest x).evicted.toList)) := by
        rw [List.append_assoc]
        exact List.perm_append_comm.append_left _
      _ = (h.push x).got ++ (h.push x).queue.items ++ (h.push x).evicted := by simp [push]

theorem get_balanced {h : QueueHistory α maxsize} (hb : h.Balanced) : h.get.Balanced := by
  obtain he | ⟨x, q, hi, he⟩ := h.get_cases
  · rwa [he]
  · have hlen := hb.bounded
    have horder := hb.in_order
    have hbalance := hb.balance
    rw [hi] at hlen horder hbalance
    rw [he]
    refine ⟨?_, ?_, ?_⟩
    · exact (Nat.le_succ _).trans hlen
    · simpa using horder
    · simpa using hbalance

theorem step_balanced (hpos : 1 ≤ maxsize) {h : QueueHistory α maxsize} (hb : h.Balanced)
    (a : Action α) : (step h a).Balanced := by
  cases a with
  | push x => exact push_balanced hpos hb x
  | get => exact get_balanced hb

theorem push_evictsOldest (hpos : 1 ≤ maxsize) (h : QueueHistory α maxsize) (x : α) :
    EvictsOldest h (h.push x) := by
  by_cases hfull : h.queue.Full
  · obtain ⟨old, rest, hi, _, he, _⟩ := h.queue.putDropOldest_of_full x hfull
    have hlen : h.queue.items.length = maxsize :=
      le_antisymm (h.queue.bounded.resolve_left (by omega)) hfull.2
    exact .inr ⟨hlen, old, rest, hi, by simp [push, he]⟩
  · obtain ⟨_, he, _⟩ := h.queue.putDropOldest_of_not_full x hfull
    exact .inl (by simp [push, he])

theorem get_evictsOldest (h : QueueHistory α maxsize) : EvictsOldest h h.get := by
  obtain he | ⟨x, q, _, he⟩ := h.get_cases
  · exact .inl (by rw [he])
  · exact .inl (by rw [he])

/-- The queue was left alone, or one push or get happened to it. -/
def Advances (h h' : QueueHistory α maxsize) : Prop := h' = h ∨ ∃ a, h' = h.step a

theorem Advances.balanced (hpos : 1 ≤ maxsize) {h h' : QueueHistory α maxsize}
    (hadv : h.Advances h') (hb : h.Balanced) : h'.Balanced := by
  obtain rfl | ⟨a, rfl⟩ := hadv
  · exact hb
  · exact step_balanced hpos hb a

theorem Advances.evictsOldest (hpos : 1 ≤ maxsize) {h h' : QueueHistory α maxsize}
    (hadv : h.Advances h') : h.EvictsOldest h' := by
  obtain rfl | ⟨a, rfl⟩ := hadv
  · exact .inl rfl
  · cases a with
    | push x => exact push_evictsOldest hpos h x
    | get => exact get_evictsOldest h

/-- In every run of a system each of whose steps advances the queue, the queue is
balanced and gives up its oldest item only when it is full. -/
theorem run_balanced {σ ι : Type*} {step : σ → ι → σ} {history : σ → QueueHistory α maxsize}
    (hpos : 1 ≤ maxsize) (hstep : ∀ s a, (history s).Advances (history (step s a))) {s : σ}
    (hstart : (history s).Balanced) (actions : List ι) :
    (history (run step s actions)).Balanced ∧
      ∀ a, (history (run step s actions)).EvictsOldest
        (history (step (run step s actions) a)) := by
  constructor
  · exact run_invariant (I := fun s => (history s).Balanced)
      (fun s a hb => (hstep s a).balanced hpos hb) hstart actions
  · intro a
    exact (hstep _ a).evictsOldest hpos

end QueueHistory
end FlowDiscovery
