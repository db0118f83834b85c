import Mathlib.Tactic

/-!
# Framing of a byte stream

A framer takes one frame off the front of a buffer, or nothing while the frame
is incomplete. Draining repeats this until nothing more can be taken. If bytes
that arrive later never change a frame that was already complete, then draining
after every chunk gives what draining the whole stream at once gives.
-/
namespace FlowDiscovery

/-- `next` returns the messages of the first frame and the buffer after it. A
frame is not empty, and more bytes behind it leave it as it is. -/
structure Framer (β ε : Type*) where
  next : List β → Option (List ε × List β)
  shrinks : ∀ {buf out rest}, next buf = some (out, rest) → rest.length < buf.length
  stable : ∀ {buf out rest} (more : List β), next buf = some (out, rest) →
    next (buf ++ more) = some (out, rest ++ more)

namespace Framer

variable {β ε : Type*} (F : Framer β ε)

def drainLoop : ℕ → List β → List ε × List β
  | 0, buf => ([], buf)
  | fuel + 1, buf =>
    match F.next buf with
    | none => ([], buf)
    | some (out, rest) => (out ++ (drainLoop fuel rest).1, (drainLoop fuel rest).2)

/-- All complete frames of a buffer and what is left. Every frame has at least
one byte, so the length of the buffer bounds the number of rounds. -/
def drain (buf : List β) : List ε × List β := F.drainLoop buf.length buf

lemma next_nil : F.next [] = none := by
  cases h : F.next [] with
  | none => rfl
  | some p =>
    obtain ⟨out, rest⟩ := p
    have hlen := F.shrinks h
    simp at hlen

lemma drainLoop_of_none {buf : List β} (h : F.next buf = none) (fuel : ℕ) :
    F.drainLoop fuel buf = ([], buf) := by
  cases fuel with
  | zero => rfl
  | succ fuel => simp only [drainLoop, h]

/-- Fuel beyond the length of the buffer changes nothing. -/
lemma drainLoop_enough (fuel fuel' : ℕ) (buf : List β) (h : buf.length ≤ fuel)
    (h' : buf.length ≤ fuel') : F.drainLoop fuel buf = F.drainLoop fuel' buf := by
  induction fuel generalizing fuel' buf with
  | zero =>
    have hnil : buf = [] := List.length_eq_zero_iff.mp (by omega)
    rw [hnil, F.drainLoop_of_none F.next_nil, F.drainLoop_of_none F.next_nil]
  | succ fuel ih =>
    cases hn : F.next buf with
    | none => rw [F.drainLoop_of_none hn, F.drainLoop_of_none hn]
    | some p =>
      obtain ⟨out, rest⟩ := p
      have hlen := F.shrinks hn
      obtain ⟨k, rfl⟩ : ∃ k, fuel' = k + 1 := ⟨fuel' - 1, by omega⟩
      simp only [drainLoop, hn, ih k rest (by omega) (by omega)]

theorem drain_of_none {buf : List β} (h : F.next buf = none) : F.drain buf = ([], buf) :=
  F.drainLoop_of_none h _

theorem drain_of_some {buf rest : List β} {out : List ε} (h : F.next buf = some (out, rest)) :
    F.drain buf = (out ++ (F.drain rest).1, (F.drain rest).2) := by
  have hlen := F.shrinks h
  obtain ⟨k, hk⟩ : ∃ k, buf.length = k + 1 := ⟨buf.length - 1, by omega⟩
  have hrest : F.drainLoop k rest = F.drain rest :=
    F.drainLoop_enough k rest.length rest (by omega) le_rfl
  rw [drain, hk]
  simp only [drainLoop, h, hrest]

/-- Induction along the frames that are drained. -/
theorem drain_induction {motive : List β → Prop}
    (wait : ∀ buf, F.next buf = none → motive buf)
    (frame : ∀ buf out rest, F.next buf = some (out, rest) → motive rest → motive buf)
    (buf : List β) : motive buf := by
  induction hn : buf.length using Nat.strongRecOn generalizing buf with
  | _ n ih =>
    cases h : F.next buf with
    | none => exact wait buf h
    | some p =>
      obtain ⟨out, rest⟩ := p
      have hlen := F.shrinks h
      exact frame buf out rest h (ih rest.length (by omega) rest rfl)

@[simp] theorem drain_nil : F.drain [] = ([], []) := F.drain_of_none F.next_nil

/-- What is left holds no complete frame. -/
theorem next_drain (buf : List β) : F.next (F.drain buf).2 = none := by
  induction buf using F.drain_induction with
  | wait buf h => rw [F.drain_of_none h, h]
  | frame buf out rest h ih => rwa [F.drain_of_some h]

/-- Draining a concatenation continues from what the first part leaves. -/
theorem drain_append (buf more : List β) :
    F.drain (buf ++ more) =
      ((F.drain buf).1 ++ (F.drain ((F.drain buf).2 ++ more)).1,
        (F.drain ((F.drain buf).2 ++ more)).2) := by
  induction buf using F.drain_induction with
  | wait buf h => rw [F.drain_of_none h, List.nil_append]
  | frame buf out rest h ih =>
    rw [F.drain_of_some h, F.drain_of_some (F.stable more h), ih, List.append_assoc]

/-- One read: the chunk is appended to the buffer and the buffer is drained. -/
def feed (s : List ε × List β) (chunk : List β) : List ε × List β :=
  (s.1 ++ (F.drain (s.2 ++ chunk)).1, (F.drain (s.2 ++ chunk)).2)

/-- However a stream is cut, feeding the pieces is draining the stream. -/
theorem foldl_feed (chunks : List (List β)) :
    chunks.foldl F.feed ([], []) = F.drain chunks.flatten := by
  have h : ∀ (out : List ε) (buf : List β), F.next buf = none →
      chunks.foldl F.feed (out, buf) =
        (out ++ (F.drain (buf ++ chunks.flatten)).1, (F.drain (buf ++ chunks.flatten)).2) := by
    induction chunks with
    | nil =>
      intro out buf hbuf
      simp [F.drain_of_none hbuf]
    | cons chunk rest ih =>
      intro out buf _
      have hnone : F.next (F.feed (out, buf) chunk).2 = none := F.next_drain _
      rw [List.foldl_cons, ← Prod.mk.eta (p := F.feed (out, buf) chunk), ih _ _ hnone,
        List.flatten_cons, ← List.append_assoc, F.drain_append (buf ++ chunk)]
      simp only [feed, List.append_assoc]
  simpa using h [] [] F.next_nil

end Framer
end FlowDiscovery
