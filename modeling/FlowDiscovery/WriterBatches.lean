import FlowDiscovery.QueueHistory
import FlowDiscovery.Writer

/-!
# Batches of the writer

`Writer.run` is suspended in one of two places: in `wait_for`, which takes a flow from
the queue or times out, and in the flush of its buffer. Flows arrive in both. A batch that
is full and a wait that has timed out go through the same flush, which swallows its
exception, so the loop goes on in the same way whether the flush has failed or not.
-/
namespace FlowDiscovery.WriterBatches
open Machine Writer

structure Config where
  batchSize : ℕ
  batchSize_pos : 1 ≤ batchSize
  flushMs : ℤ

inductive Point where
  | waiting (timeout : ℚ)
  | flushing
  deriving DecidableEq, Repr

/-- `passed` records the batches passed to `_flush`, from the moment of the call on; the
flows taken are those got from the queue. `buf` is replaced when the flush has ended. -/
structure Loop (maxsize : ℕ) where
  inp : QueueHistory LabelledFlow maxsize
  buf : List FlowRow
  deadline : ℚ
  point : Point
  passed : List (List FlowRow)
  table : List FlowRow

variable {maxsize : ℕ}

/-- `wait_for` with what is left until the deadline. -/
def wait (s : Loop maxsize) (now : ℚ) : Loop maxsize :=
  { s with point := .waiting (max 0 (s.deadline - now)) }

/-- A new deadline, and the next wait. -/
def rearm (cfg : Config) (s : Loop maxsize) (set now : ℚ) : Loop maxsize :=
  wait { s with deadline := set + cfg.flushMs / 1000 } now

def append (s : Loop maxsize) (lf : LabelledFlow) : Loop maxsize :=
  { s with inp := s.inp.get, buf := s.buf ++ [rowOf lf] }

def startFlush (s : Loop maxsize) : Loop maxsize :=
  { s with passed := s.passed ++ [s.buf], point := .flushing }

/-- The flush of the batch passed last has ended; one that fails stores nothing. -/
def endFlush (succeeds : ℕ → Bool) (s : Loop maxsize) : Loop maxsize :=
  { s with
    buf := []
    table := if succeeds (s.passed.length - 1) then s.table ++ s.buf else s.table }

/-- A flow arrives in the queue, `wait_for` returns one, `wait_for` times out, or a flush
ends. The clock is read for a new deadline and for the next timeout. -/
inductive Action where
  | arrive (lf : LabelledFlow)
  | got (now : ℚ)
  | expired (set now : ℚ)
  | flushed (set now : ℚ)

/-- With no time left `wait_for` never starts the `get`, so it takes no flow then. -/
def step (cfg : Config) (succeeds : ℕ → Bool) (s : Loop maxsize) : Action → Loop maxsize
  | .arrive lf => { s with inp := s.inp.push lf }
  | .got now =>
    match s.point, s.inp.queue.getNowait with
    | .waiting timeout, some (lf, _) =>
      if timeout ≤ 0 then s
      else if cfg.batchSize ≤ (append s lf).buf.length then startFlush (append s lf)
      else wait (append s lf) now
    | _, _ => s
  | .expired set now =>
    match s.point with
    | .waiting _ => if s.buf = [] then rearm cfg s set now else startFlush s
    | .flushing => s
  | .flushed set now =>
    match s.point with
    | .waiting _ => s
    | .flushing => rearm cfg (endFlush succeeds s) set now

/-- `run` at its first wait, before anything has arrived. -/
def initial (cfg : Config) (set now : ℚ) : Loop maxsize :=
  rearm cfg ⟨.fresh, [], 0, .flushing, [], []⟩ set now

/-! ## The property -/

/-- The rows of the buffer that have not been passed to `_flush`. -/
def unpassed (s : Loop maxsize) : List FlowRow :=
  match s.point with
  | .waiting _ => s.buf
  | .flushing => []

/-- The batches whose flush has ended. -/
def ended (s : Loop maxsize) : List (List FlowRow) :=
  match s.point with
  | .waiting _ => s.passed
  | .flushing => s.passed.dropLast

/-- The rows of the batches whose flush succeeds, by their number. -/
def copiedOf (succeeds : ℕ → Bool) (batches : List (List FlowRow)) : List FlowRow :=
  (batches.zipIdx.filter fun b => succeeds b.2).flatMap Prod.fst

/-- Every row taken is passed on once, and the rows missing in the table are those of the
batches whose flush has failed. -/
structure ExactlyOnce (cfg : Config) (succeeds : ℕ → Bool) (s : Loop maxsize) : Prop where
  rows : s.passed.flatten ++ unpassed s = s.inp.got.map rowOf
  buffered : (ended s).flatten ++ s.buf = s.inp.got.map rowOf
  sizes : ∀ batch ∈ s.passed, 1 ≤ batch.length ∧ batch.length ≤ cfg.batchSize
  inFlight : s.point = .flushing → s.passed.getLast? = some s.buf
  table : s.table = copiedOf succeeds (ended s)

/-- The loop without the table. -/
def forget (s : Loop maxsize) : Loop maxsize := { s with table := [] }

/-! ## The invariant -/

lemma copiedOf_concat (succeeds : ℕ → Bool) (batches : List (List FlowRow))
    (batch : List FlowRow) :
    copiedOf succeeds (batches ++ [batch]) =
      if succeeds batches.length then copiedOf succeeds batches ++ batch
      else copiedOf succeeds batches := by
  unfold copiedOf
  rw [List.zipIdx_append, List.filter_append, List.flatMap_append]
  by_cases h : succeeds batches.length <;> simp [h]

/-- In the wait the buffer has room for a row. -/
structure Collecting (cfg : Config) (succeeds : ℕ → Bool) (s : Loop maxsize) : Prop where
  rows : s.passed.flatten ++ s.buf = s.inp.got.map rowOf
  sizes : ∀ batch ∈ s.passed, 1 ≤ batch.length ∧ batch.length ≤ cfg.batchSize
  room : s.buf.length < cfg.batchSize
  table : s.table = copiedOf succeeds s.passed

/-- In the flush the buffer is the batch passed last. -/
structure Flushing (cfg : Config) (succeeds : ℕ → Bool) (s : Loop maxsize) : Prop where
  rows : s.passed.flatten = s.inp.got.map rowOf
  sizes : ∀ batch ∈ s.passed, 1 ≤ batch.length ∧ batch.length ≤ cfg.batchSize
  last : s.passed = s.passed.dropLast ++ [s.buf]
  table : s.table = copiedOf succeeds s.passed.dropLast

def Inv (cfg : Config) (succeeds : ℕ → Bool) (s : Loop maxsize) : Prop :=
  match s.point with
  | .waiting _ => Collecting cfg succeeds s
  | .flushing => Flushing cfg succeeds s

section

variable {cfg : Config} {succeeds : ℕ → Bool} {s : Loop maxsize} {timeout : ℚ}

lemma step_got (hpoint : s.point = .waiting timeout) (htimeout : 0 < timeout) {lf : LabelledFlow}
    {q : BoundedQueue LabelledFlow maxsize} (hget : s.inp.queue.getNowait = some (lf, q))
    (now : ℚ) :
    step cfg succeeds s (.got now) =
      if cfg.batchSize ≤ (append s lf).buf.length then startFlush (append s lf)
      else wait (append s lf) now := by
  simp only [step, hpoint, hget, if_neg htimeout.not_ge]

lemma step_expired (hpoint : s.point = .waiting timeout) (set now : ℚ) :
    step cfg succeeds s (.expired set now) =
      if s.buf = [] then rearm cfg s set now else startFlush s := by
  simp only [step, hpoint]

lemma inv_waiting (hpoint : s.point = .waiting timeout) :
    Inv cfg succeeds s ↔ Collecting cfg succeeds s := by
  rw [Inv, hpoint]

lemma inv_flushing (hpoint : s.point = .flushing) :
    Inv cfg succeeds s ↔ Flushing cfg succeeds s := by
  rw [Inv, hpoint]

theorem Inv.exactlyOnce (h : Inv cfg succeeds s) : ExactlyOnce cfg succeeds s := by
  cases hpoint : s.point with
  | waiting timeout =>
    obtain ⟨hrows, hsizes, -, htable⟩ := (inv_waiting hpoint).mp h
    constructor
    case rows =>
      rw [unpassed, hpoint]
      exact hrows
    case buffered =>
      rw [ended, hpoint]
      exact hrows
    case sizes => exact hsizes
    case inFlight =>
      intro hflushing
      rw [hpoint] at hflushing
      cases hflushing
    case table =>
      rw [ended, hpoint]
      exact htable
  | flushing =>
    obtain ⟨hrows, hsizes, hlast, htable⟩ := (inv_flushing hpoint).mp h
    constructor
    case rows =>
      rw [unpassed, hpoint, List.append_nil]
      exact hrows
    case buffered =>
      rw [ended, hpoint, ← hrows]
      -- the batch in the flush is the last one
      calc s.passed.dropLast.flatten ++ s.buf = (s.passed.dropLast ++ [s.buf]).flatten := by simp
        _ = s.passed.flatten := by rw [← hlast]
    case sizes => exact hsizes
    case inFlight =>
      intro _
      rw [hlast, List.getLast?_concat]
    case table =>
      rw [ended, hpoint]
      exact htable

/-- A buffer with rows in it becomes the last batch. -/
lemma flushing_startFlush (hrows : s.passed.flatten ++ s.buf = s.inp.got.map rowOf)
    (hsizes : ∀ batch ∈ s.passed, 1 ≤ batch.length ∧ batch.length ≤ cfg.batchSize)
    (hbuf : 1 ≤ s.buf.length ∧ s.buf.length ≤ cfg.batchSize)
    (htable : s.table = copiedOf succeeds s.passed) :
    Flushing cfg succeeds (startFlush s) where
  rows := by simpa [startFlush] using hrows
  sizes := by
    intro batch hbatch
    rcases List.mem_append.mp hbatch with hbatch | hbatch
    · exact hsizes batch hbatch
    · rw [List.mem_singleton.mp hbatch]
      exact hbuf
  last := by simp [startFlush]
  table := by simpa [startFlush] using htable

lemma Collecting.wait (h : Collecting cfg succeeds s) (now : ℚ) :
    Inv cfg succeeds (wait s now) := ⟨h.rows, h.sizes, h.room, h.table⟩

lemma Collecting.rearm (h : Collecting cfg succeeds s) (set now : ℚ) :
    Inv cfg succeeds (rearm cfg s set now) := ⟨h.rows, h.sizes, h.room, h.table⟩

lemma append_rows (h : Collecting cfg succeeds s) {lf : LabelledFlow}
    {q : BoundedQueue LabelledFlow maxsize} (hget : s.inp.queue.getNowait = some (lf, q)) :
    s.passed.flatten ++ (append s lf).buf = (append s lf).inp.got.map rowOf := by
  have hgot : s.inp.get.got = s.inp.got ++ [lf] := by rw [QueueHistory.get, hget]
  rw [append, hgot, List.map_append, ← h.rows, List.append_assoc]
  rfl

/-- A flow is taken: the batch is full, or there is room for another row. -/
lemma Collecting.got (h : Collecting cfg succeeds s) {lf : LabelledFlow}
    {q : BoundedQueue LabelledFlow maxsize} (hget : s.inp.queue.getNowait = some (lf, q))
    (now : ℚ) :
    Inv cfg succeeds (if cfg.batchSize ≤ (append s lf).buf.length then startFlush (append s lf)
      else WriterBatches.wait (append s lf) now) := by
  have hlength : (append s lf).buf.length = s.buf.length + 1 := by simp [append]
  have hroom := h.room
  split_ifs with hfull
  · exact flushing_startFlush (append_rows h hget) h.sizes (by omega) h.table
  · have happend : Collecting cfg succeeds (append s lf) :=
      ⟨append_rows h hget, h.sizes, by omega, h.table⟩
    exact happend.wait now

/-- Whether it has failed or not, the flush leaves an empty buffer. -/
lemma Flushing.collecting (h : Flushing cfg succeeds s) :
    Collecting cfg succeeds (endFlush succeeds s) where
  rows := by simpa [endFlush] using h.rows
  sizes := h.sizes
  room := cfg.batchSize_pos
  table := by
    have hlength : s.passed.length - 1 = s.passed.dropLast.length := List.length_dropLast.symm
    change (if _ then _ else _) = copiedOf succeeds s.passed
    rw [h.last, copiedOf_concat, ← h.last, hlength, h.table]

/-- An arrival changes neither the flows taken nor the buffer. -/
lemma Inv.arrive (h : Inv cfg succeeds s) (lf : LabelledFlow) :
    Inv cfg succeeds { s with inp := s.inp.push lf } := by
  unfold Inv at h ⊢
  cases hpoint : s.point with
  | waiting timeout =>
    rw [hpoint] at h
    exact ⟨h.rows, h.sizes, h.room, h.table⟩
  | flushing =>
    rw [hpoint] at h
    exact ⟨h.rows, h.sizes, h.last, h.table⟩

theorem step_inv (h : Inv cfg succeeds s) (a : Action) : Inv cfg succeeds (step cfg succeeds s a) := by
  cases a with
  | arrive lf => exact h.arrive lf
  | got now =>
    cases hpoint : s.point with
    | waiting timeout =>
      cases hget : s.inp.queue.getNowait with
      | none => simpa only [step, hpoint, hget] using h
      | some taken =>
        by_cases htimeout : timeout ≤ 0
        · simpa only [step, hpoint, hget, if_pos htimeout] using h
        · rw [step_got hpoint (not_le.mp htimeout) hget]
          exact ((inv_waiting hpoint).mp h).got hget now
    | flushing => simpa only [step, hpoint] using h
  | expired set now =>
    cases hpoint : s.point with
    | waiting timeout =>
      have hcollecting := (inv_waiting hpoint).mp h
      rw [step_expired hpoint]
      split_ifs with hbuf
      · exact hcollecting.rearm set now
      · have hlength := List.length_pos_iff.mpr hbuf
        have hroom := hcollecting.room
        exact flushing_startFlush hcollecting.rows hcollecting.sizes (by omega) hcollecting.table
    | flushing => simpa only [step, hpoint] using h
  | flushed set now =>
    rw [step]
    cases hpoint : s.point with
    | waiting timeout => exact h
    | flushing => exact ((inv_flushing hpoint).mp h).collecting.rearm set now

end

lemma initial_inv (cfg : Config) (succeeds : ℕ → Bool) (set now : ℚ) :
    Inv cfg succeeds (initial cfg set now : Loop maxsize) := by
  have hempty : Collecting cfg succeeds (⟨.fresh, [], 0, .flushing, [], []⟩ : Loop maxsize) :=
    ⟨rfl, by simp, cfg.batchSize_pos, rfl⟩
  exact hempty.rearm set now

/-! ## Runs -/

/-- Whether flushes fail makes no difference to the loop but for the table. -/
lemma forget_step (cfg : Config) (succeeds succeeds' : ℕ → Bool) {s t : Loop maxsize}
    (h : forget s = forget t) (a : Action) :
    forget (step cfg succeeds s a) = forget (step cfg succeeds' t a) := by
  obtain ⟨inp, buf, deadline, point, passed, table⟩ := s
  obtain ⟨inp', buf', deadline', point', passed', table'⟩ := t
  simp only [forget, Loop.mk.injEq, and_true] at h
  obtain ⟨rfl, rfl, rfl, rfl, rfl⟩ := h
  cases a with
  | arrive lf => rfl
  | got now =>
    cases point with
    | waiting timeout =>
      cases hget : inp.queue.getNowait with
      | none => simp only [step, hget, forget]
      | some taken =>
        simp only [step, hget]
        by_cases htimeout : timeout ≤ 0
        · simp only [if_pos htimeout, forget]
        · rw [if_neg htimeout, if_neg htimeout]
          by_cases hfull : cfg.batchSize ≤ (buf ++ [rowOf taken.1]).length
          · simp only [append, hfull, if_true, startFlush, forget]
          · simp only [append, hfull, if_false, wait, forget]
    | flushing => rfl
  | expired set now =>
    cases point with
    | waiting timeout =>
      simp only [step]
      split_ifs <;> rfl
    | flushing => rfl
  | flushed set now => cases point <;> rfl

/-- Whatever the order of arrivals and timeouts, and whichever flushes fail, at every
point the batches and the buffer are the rows taken. Other failures would have changed
nothing but the table. -/
theorem batches_exactly_once (cfg : Config) (succeeds : ℕ → Bool) (set now : ℚ)
    (actions : List Action) :
    Throughout (step cfg succeeds) (ExactlyOnce cfg succeeds)
        (initial cfg set now : Loop maxsize) actions ∧
      ∀ succeeds', forget (run (step cfg succeeds') (initial cfg set now : Loop maxsize) actions) =
        forget (run (step cfg succeeds) (initial cfg set now) actions) := by
  constructor
  · have hstart : Inv cfg succeeds (initial cfg set now : Loop maxsize) :=
      initial_inv cfg succeeds set now
    have hinv := throughout_of_invariant (I := Inv cfg succeeds) (fun _ a hs => step_inv hs a)
      hstart actions
    exact hinv.mono fun _ hs => hs.exactlyOnce
  · intro succeeds'
    exact run_related (R := fun s t => forget s = forget t)
      (fun _ _ a h => forget_step cfg succeeds' succeeds h a) rfl actions

/-! ## The loop without suspension points -/

/-- The loop as `Writer` has it, with the flows taken. -/
def bufferOf (s : Loop maxsize) : Buffer := ⟨s.buf, s.table, s.inp.got.map rowOf⟩

section

variable {cfg : Config} {succeeds : ℕ → Bool} {s : Loop maxsize} {timeout : ℚ}

/-- Where a flush fails iff `COPY` refuses the batch, its start and end are one
`flushSafe`. -/
lemma bufferOf_flush (inet : String → Bool)
    (hsucceeds : succeeds s.passed.length = s.buf.all (FlowRow.fits inet)) (set now : ℚ) :
    bufferOf (step cfg succeeds (startFlush s) (.flushed set now)) =
      flushSafe inet (bufferOf s) := by
  have hlength : (startFlush s).passed.length - 1 = s.passed.length := by simp [startFlush]
  change bufferOf (endFlush succeeds (startFlush s)) = _
  rw [endFlush, hlength, hsucceeds, flushSafe, copyRecords]
  cases hfits : s.buf.all (FlowRow.fits inet) <;> simp [bufferOf, startFlush, hfits]

theorem bufferOf_take (inet : String → Bool) (hpoint : s.point = .waiting timeout)
    (htimeout : 0 < timeout) {lf : LabelledFlow} {q : BoundedQueue LabelledFlow maxsize}
    (hget : s.inp.queue.getNowait = some (lf, q))
    (hsucceeds : succeeds s.passed.length = (s.buf ++ [rowOf lf]).all (FlowRow.fits inet))
    (now set now' : ℚ) :
    bufferOf (run (step cfg succeeds) s [.got now, .flushed set now']) =
      take inet cfg.batchSize (bufferOf s) lf := by
  have happend : bufferOf (append s lf) = Writer.append (bufferOf s) lf := by
    simp [bufferOf, append, Writer.append, QueueHistory.get, hget]
  rw [run_cons, run_cons, run_nil, step_got hpoint htimeout hget, take, ← happend]
  by_cases hfull : cfg.batchSize ≤ (append s lf).buf.length
  · rw [if_pos hfull, bufferOf_flush inet hsucceeds]
    exact (if_pos hfull).symm
  · rw [if_neg hfull]
    exact (if_neg hfull).symm

theorem bufferOf_timeout (inet : String → Bool) (hpoint : s.point = .waiting timeout)
    (hsucceeds : succeeds s.passed.length = s.buf.all (FlowRow.fits inet))
    (set now set' now' : ℚ) :
    bufferOf (run (step cfg succeeds) s [.expired set now, .flushed set' now']) =
      Writer.timeout inet (bufferOf s) := by
  rw [run_cons, run_cons, run_nil, step_expired hpoint, Writer.timeout]
  by_cases hbuf : s.buf = []
  · rw [if_pos hbuf]
    exact (if_pos hbuf).symm
  · rw [if_neg hbuf, bufferOf_flush inet hsucceeds]
    exact (if_neg hbuf).symm

end

end FlowDiscovery.WriterBatches
