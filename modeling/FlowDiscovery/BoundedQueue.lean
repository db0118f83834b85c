import Mathlib.Tactic

/-!
# Bounded FIFO queues with drop-oldest pushes

The queue carries its capacity bound. A capacity of zero means unbounded, as it
does for an event-loop queue created with `maxsize=0`. `putNowait` and
`getNowait` are the two primitive operations and fail instead of blocking;
`putDropOldest` is the retry pattern built from them: on a full queue take the
oldest item out, then put again.
-/
namespace FlowDiscovery

structure BoundedQueue (α : Type*) (maxsize : ℕ) where
  items : List α
  bounded : maxsize = 0 ∨ items.length ≤ maxsize
  deriving DecidableEq

namespace BoundedQueue

variable {α : Type*} {maxsize : ℕ}

def empty : BoundedQueue α maxsize := ⟨[], Or.inr (Nat.zero_le _)⟩

instance : Inhabited (BoundedQueue α maxsize) := ⟨empty⟩

@[simp] theorem items_empty : (empty : BoundedQueue α maxsize).items = [] := rfl

/-- An unbounded queue is never full. -/
def Full (q : BoundedQueue α maxsize) : Prop := maxsize ≠ 0 ∧ maxsize ≤ q.items.length

instance (q : BoundedQueue α maxsize) : Decidable q.Full := inferInstanceAs (Decidable (_ ∧ _))

/-- `none` stands for the exception raised on a full queue. -/
def putNowait (q : BoundedQueue α maxsize) (x : α) : Option (BoundedQueue α maxsize) :=
  if h : q.Full then none
  else some ⟨q.items ++ [x], by
    simp only [Full, not_and_or, not_not, Nat.not_le] at h
    exact h.imp id fun hl => by simp; omega⟩

/-- `none` stands for the exception raised on an empty queue. -/
def getNowait (q : BoundedQueue α maxsize) : Option (α × BoundedQueue α maxsize) :=
  match h : q.items with
  | [] => none
  | x :: rest => some (x, ⟨rest, q.bounded.imp id fun hl => by rw [h] at hl; simp at hl; omega⟩)

/-- Result of a drop-oldest push: the queue, the item taken out to make room,
whether the first put found the queue full, and whether the item itself was
given up because the second put failed as well. -/
structure Push (α : Type*) (maxsize : ℕ) where
  queue : BoundedQueue α maxsize
  evicted : Option α
  wasFull : Bool
  refused : Bool

def putDropOldest (q : BoundedQueue α maxsize) (x : α) : Push α maxsize :=
  match q.putNowait x with
  | some q' => ⟨q', none, false, false⟩
  | none =>
    match q.getNowait with
    | none =>
      match q.putNowait x with
      | some q' => ⟨q', none, true, false⟩
      | none => ⟨q, none, true, true⟩
    | some (old, q1) =>
      match q1.putNowait x with
      | some q' => ⟨q', some old, true, false⟩
      | none => ⟨q1, some old, true, true⟩

theorem putNowait_eq_none_iff (q : BoundedQueue α maxsize) (x : α) :
    q.putNowait x = none ↔ q.Full := by
  unfold putNowait
  split_ifs with h <;> simp [h]

theorem putNowait_items {q q' : BoundedQueue α maxsize} {x : α} (h : q.putNowait x = some q') :
    q'.items = q.items ++ [x] := by
  unfold putNowait at h
  split_ifs at h
  cases h
  rfl

theorem getNowait_eq_some_iff (q q' : BoundedQueue α maxsize) (x : α) :
    q.getNowait = some (x, q') ↔ q.items = x :: q'.items := by
  unfold getNowait
  obtain ⟨items, hb⟩ := q
  obtain ⟨items', hb'⟩ := q'
  cases items with
  | nil => simp
  | cons a rest => simp

theorem getNowait_eq_none_iff (q : BoundedQueue α maxsize) :
    q.getNowait = none ↔ q.items = [] := by
  unfold getNowait
  obtain ⟨items, hb⟩ := q
  cases items <;> simp

/-- Below capacity the push appends and nothing else happens. -/
theorem putDropOldest_of_not_full (q : BoundedQueue α maxsize) (x : α) (h : ¬ q.Full) :
    (q.putDropOldest x).queue.items = q.items ++ [x] ∧ (q.putDropOldest x).evicted = none ∧
      (q.putDropOldest x).wasFull = false := by
  unfold putDropOldest
  cases hp : q.putNowait x with
  | none => exact absurd ((putNowait_eq_none_iff q x).mp hp) h
  | some q' => exact ⟨putNowait_items hp, rfl, rfl⟩

/-- At capacity the oldest item makes room, so the second put never fails. -/
theorem putDropOldest_of_full (q : BoundedQueue α maxsize) (x : α) (h : q.Full) :
    ∃ old rest, q.items = old :: rest ∧ (q.putDropOldest x).queue.items = rest ++ [x] ∧
      (q.putDropOldest x).evicted = some old ∧ (q.putDropOldest x).wasFull = true := by
  have hlen := h.2
  have hb : q.items.length ≤ maxsize := q.bounded.resolve_left h.1
  unfold putDropOldest
  rw [(putNowait_eq_none_iff q x).mpr h]
  cases hg : q.getNowait with
  | none =>
    rw [(getNowait_eq_none_iff q).mp hg] at hlen
    exact absurd (Nat.le_zero.mp hlen) h.1
  | some p =>
    obtain ⟨old, q1⟩ := p
    have hi := (getNowait_eq_some_iff q q1 old).mp hg
    have hnot : ¬ q1.Full := by
      rintro ⟨_, hl⟩
      rw [hi, List.length_cons] at hb
      omega
    cases hp : q1.putNowait x with
    | none => exact absurd ((putNowait_eq_none_iff q1 x).mp hp) hnot
    | some q2 =>
      exact ⟨old, q1.items, hi, by simp [hp, putNowait_items hp], by simp [hp], by simp [hp]⟩

/-- Conservation of one push: what was queued and the new item are what was
evicted followed by what is queued now. -/
theorem putDropOldest_conserves (q : BoundedQueue α maxsize) (x : α) :
    (q.putDropOldest x).evicted.toList ++ (q.putDropOldest x).queue.items = q.items ++ [x] := by
  by_cases h : q.Full
  · obtain ⟨old, rest, hi, hq, he, _⟩ := putDropOldest_of_full q x h
    simp [hi, hq, he]
  · obtain ⟨hq, he, _⟩ := putDropOldest_of_not_full q x h
    simp [hq, he]

/-- A drop-oldest push keeps the order of what it does not evict. -/
theorem putDropOldest_sublist (q : BoundedQueue α maxsize) (x : α) :
    (q.putDropOldest x).queue.items.Sublist (q.items ++ [x]) := by
  rw [← q.putDropOldest_conserves x]
  exact List.sublist_append_right _ _

end BoundedQueue
end FlowDiscovery
