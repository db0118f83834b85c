import FlowDiscovery.FlowIngest
import FlowDiscovery.PyIpaddress
import FlowDiscovery.RaisingTasks

/-!
# Rows of the table `flows`

The writer collects the flows of its queue and copies them to the table when the
batch is full or the deadline has passed. Nothing between a log line and the table
checks the values, `COPY` takes all rows of a batch or none, and a batch that was
refused is dropped. A line with a time that the windower cannot go back one window from
ends the windower, what is open then is never emitted, and later lines are never read. So
every row that fits is stored exactly when no batch mixes rows that fit with others and no
row that fits is open when the windower ends or comes of the lines after it.
-/
namespace FlowDiscovery.Writer
open Machine PyTime EventJson
open Correlator (Config fiveSecondGroups defaultAggregator)
open FlowWindower (Buckets)

/-! ## The table -/

structure FlowRow where
  time : Instant
  srcIp : String
  dstIp : String
  dstPort : ℤ
  proto : ℤ
  bytes : ℤ
  packets : ℤ
  flowCount : ℤ
  source : String
  deriving DecidableEq, Repr

/-- The values of a signed column of that many bits. -/
def inRange (bits : ℕ) (n : ℤ) : Bool := -2 ^ (bits - 1) ≤ n ∧ n < 2 ^ (bits - 1)

section

/- The texts that are values of type `INET`. -/
variable (inet : String → Bool)

/-- The values lie in the types of their columns; an instant and the constant
source always do. -/
def FlowRow.fits (row : FlowRow) : Bool :=
  inet row.srcIp && inet row.dstIp && inRange 32 row.dstPort && inRange 16 row.proto &&
    inRange 64 row.bytes && inRange 64 row.packets && inRange 32 row.flowCount

/-- `copy_records_to_table`; `none` is its error. -/
def copyRecords (table rows : List FlowRow) : Option (List FlowRow) :=
  if rows.all (FlowRow.fits inet) then some (table ++ rows) else none

/-! ## The writer -/

/-- `taken` records the rows in the order in which their flows were taken. -/
structure Buffer where
  buf : List FlowRow
  table : List FlowRow
  taken : List FlowRow
  deriving DecidableEq

def rowOf (lf : LabelledFlow) : FlowRow where
  time := lf.bucketStart
  srcIp := lf.srcIp
  dstIp := lf.dstIp
  dstPort := lf.dstPort
  proto := lf.proto
  bytes := lf.bytes
  packets := lf.packets
  flowCount := lf.flowCount
  source := "correlator"

/-- `_flush_safe` on the buffer, and the empty buffer after it. -/
def flushSafe (w : Buffer) : Buffer :=
  match copyRecords inet w.table w.buf with
  | some table => { w with buf := [], table }
  | none => { w with buf := [] }

def append (w : Buffer) (lf : LabelledFlow) : Buffer :=
  { w with buf := w.buf ++ [rowOf lf], taken := w.taken ++ [rowOf lf] }

/-- The loop with a flow from the queue. -/
def take (batchSize : ℕ) (w : Buffer) (lf : LabelledFlow) : Buffer :=
  let w := append w lf
  if batchSize ≤ w.buf.length then flushSafe inet w else w

/-- The loop after a timeout. -/
def timeout (w : Buffer) : Buffer := if w.buf = [] then w else flushSafe inet w

/-! ## From a log line to the table -/

/-- A pipeline, the writer at its end, and the events that have come since the windower
ended. -/
structure State (queueMax : ℕ) where
  pipeline : RaisingTasks.State queueMax
  writer : Buffer
  unread : List FlowEvent

/-- An adapter of one of the two classes is given a line, a stage of the pipeline
moves, the writer takes a flow, or its wait for one times out. -/
inductive Action where
  | line (cls : FlowIngest.AdapterClass) (now : Instant) (text : String)
  | stage (action : Correlator.Action)
  | take
  | timeout

variable {queueMax : ℕ}

def initial (aggregator : Option GroupAggregator) : State queueMax :=
  ⟨RaisingTasks.initial aggregator, ⟨[], [], []⟩, []⟩

/-- `parse_line`; a line that is refused or raises gives no event. -/
def parseLine (cls : FlowIngest.AdapterClass) (now : Instant) (text : String) : Option FlowEvent :=
  match FlowIngest.FlowAdapter.parseLine ⟨cls, none⟩ now text with
  | .ok ev => ev
  | .error _ => none

/-- What the action is for the stages before the writer. The windower gets its events
from lines only. -/
def stageOf : Action → Option Correlator.Action
  | .line cls now text => (parseLine cls now text).map .event
  | .stage (.event _) | .stage .writerGet => none
  | .stage action => some action
  | .take => some .writerGet
  | .timeout => none

def lineEvent : Action → List FlowEvent
  | .line cls now text => (parseLine cls now text).toList
  | .stage _ | .take | .timeout => []

def writerStep (batchSize : ℕ) (s : State queueMax) : Action → Buffer
  | .take =>
    match s.pipeline.pipeline.writerQueue.items with
    | [] => s.writer
    | lf :: _ => take inet batchSize s.writer lf
  | .timeout => timeout inet s.writer
  | _ => s.writer

def step (iso : IsoText) (cfg : Config) (batchSize : ℕ) (s : State queueMax) (a : Action) :
    State queueMax where
  pipeline :=
    match stageOf a with
    | some action => RaisingTasks.step iso cfg s.pipeline (.stage action)
    | none => s.pipeline
  writer := writerStep inet batchSize s a
  unread := if s.pipeline.windowerEnded then s.unread ++ lineEvent a else []

/-! ## The property and its condition -/

/-- The rows of the open accumulators as they are. -/
def openRows (buckets : Buckets) : List FlowRow :=
  buckets.entries.flatMap fun (b, slot) => slot.entries.map fun (key, acc) =>
    ⟨b, key.srcIp, key.dstIp, key.dstPort, key.proto, acc.bytes, acc.packets, acc.flowCount,
      "correlator"⟩

/-- The events that have a bucket are accumulated. -/
def accumulated (windowS : ℕ) (buckets : Buckets) (events : List FlowEvent) : Buckets :=
  (events.filter fun ev => (RaisingTasks.bucketStart? windowS ev.ts).isSome).foldl
    (fun buckets ev => FlowWindower.accumulate windowS buckets (RaisingTasks.clocked ev)) buckets

/-- The rows that a windower which has ended has left open, with the events that it does
not read. -/
def leftOpen (cfg : Config) (s : State queueMax) : List FlowRow :=
  if s.pipeline.windowerEnded then
    openRows (accumulated cfg.windowS s.pipeline.pipeline.buckets s.unread)
  else []

/-- Of the rows taken, those that fit are in the table or still in the buffer. -/
def Stored (w : Buffer) : Prop :=
  w.taken.filter (FlowRow.fits inet) = w.table ++ w.buf.filter (FlowRow.fits inet)

/-- No row that fits is dropped with a batch or left open for good. -/
structure Kept (cfg : Config) (s : State queueMax) : Prop where
  stored : Stored inet s.writer
  emitted : ∀ row ∈ leftOpen cfg s, row.fits inet = false

/-- All rows fit or none does. -/
def Uniform (rows : List FlowRow) : Prop :=
  rows.all (FlowRow.fits inet) ∨ rows.all fun row => !row.fits inet

/-- The rows that an action hands to `COPY`. -/
def copied (batchSize : ℕ) (s : State queueMax) : Action → List FlowRow
  | .take =>
    match s.pipeline.pipeline.writerQueue.items with
    | [] => []
    | lf :: _ => if batchSize ≤ s.writer.buf.length + 1 then s.writer.buf ++ [rowOf lf] else []
  | .timeout => s.writer.buf
  | _ => []

/-- The rows open when the windower raises on an instant. An event whose bucket exists is
accumulated first. -/
def openAtRaise (cfg : Config) (s : RaisingTasks.State queueMax) : Correlator.Action → List FlowRow
  | .event ev =>
    if RaisingTasks.bucketStart? cfg.windowS ev.ts = none then openRows s.pipeline.buckets
    else if RaisingTasks.threshold? cfg.windowS ev.ts = none then
      openRows (FlowWindower.accumulate cfg.windowS s.pipeline.buckets (RaisingTasks.clocked ev))
    else []
  | .tick now =>
    if RaisingTasks.threshold? cfg.windowS now = none then openRows s.pipeline.buckets else []
  | _ => []

/-- The rows open for good after an action: those open when it ends the windower, or what
an ended windower has left open together with the event of the action. -/
def abandoned (cfg : Config) (s : State queueMax) (a : Action) : List FlowRow :=
  if s.pipeline.windowerEnded then
    openRows (accumulated cfg.windowS s.pipeline.pipeline.buckets (s.unread ++ lineEvent a))
  else (stageOf a).elim [] (openAtRaise cfg s.pipeline)

/-- No batch is mixed, and the windower does not end while a row that fits is open, nor
does an ended one miss a line of which such a row would come. -/
structure Harmless (cfg : Config) (batchSize : ℕ) (s : State queueMax) (a : Action) : Prop where
  uniform : Uniform inet (copied batchSize s a)
  unfit : ∀ row ∈ abandoned cfg s a, row.fits inet = false

/-! ## Step lemmas -/

/-- A flush keeps the rows that fit iff they are all or none. -/
theorem stored_flushSafe_iff {w : Buffer} (h : Stored inet w) :
    Stored inet (flushSafe inet w) ↔ Uniform inet w.buf := by
  unfold flushSafe copyRecords Uniform
  unfold Stored at h ⊢
  by_cases hall : w.buf.all (FlowRow.fits inet)
  · have hfilter := List.filter_eq_self.mpr (List.all_eq_true.mp hall)
    simp [hall, h, hfilter]
  · -- nothing of the batch is stored, so nothing of it may fit
    have hnone : w.buf.filter (FlowRow.fits inet) = [] ↔ w.buf.all fun row => !row.fits inet := by
      simp
    simp only [hall, h, Bool.false_eq_true, if_false, List.filter_nil, false_or, ← hnone]
    simp

lemma Stored.append {w : Buffer} (h : Stored inet w) (lf : LabelledFlow) :
    Stored inet (append w lf) := by
  unfold Stored at h ⊢
  simp only [Writer.append, List.filter_append, h, List.append_assoc]

lemma uniform_nil : Uniform inet [] := .inl rfl

theorem stored_step_iff {batchSize : ℕ} {s : State queueMax} (h : Stored inet s.writer)
    (a : Action) :
    Stored inet (writerStep inet batchSize s a) ↔ Uniform inet (copied batchSize s a) := by
  cases a with
  | line cls now text => exact iff_of_true h (uniform_nil inet)
  | stage action => exact iff_of_true h (uniform_nil inet)
  | take =>
    simp only [writerStep, copied]
    cases s.pipeline.pipeline.writerQueue.items with
    | nil => exact iff_of_true h (uniform_nil inet)
    | cons lf rest =>
      have happend := h.append inet lf
      simp only [take, Writer.append, List.length_append, List.length_singleton] at happend ⊢
      split_ifs
      · exact stored_flushSafe_iff inet happend
      · exact iff_of_true happend (uniform_nil inet)
  | timeout =>
    simp only [writerStep, copied, timeout]
    split_ifs with hbuf
    · rw [hbuf]
      exact iff_of_true h (uniform_nil inet)
    · exact stored_flushSafe_iff inet h

/-- A windower that has ended stays so and touches no bucket. -/
lemma ended_step (iso : IsoText) (cfg : Config) {s : RaisingTasks.State queueMax}
    (hended : s.windowerEnded = true) (action : Correlator.Action) :
    (RaisingTasks.step iso cfg s (.stage action)).windowerEnded = true ∧
      (RaisingTasks.step iso cfg s (.stage action)).pipeline.buckets = s.pipeline.buckets := by
  have hother : (∀ ev, action ≠ .event ev) → (∀ now, action ≠ .tick now) →
      (RaisingTasks.step iso cfg s (.stage action)).windowerEnded = true ∧
        (RaisingTasks.step iso cfg s (.stage action)).pipeline.buckets = s.pipeline.buckets := by
    intro hevent htick
    have hframe := RaisingTasks.step_windower_frame iso cfg s (.stage action)
      (fun ev he => hevent ev (by injection he)) fun now he => htick now (by injection he)
    exact ⟨hframe.1.trans hended, hframe.2⟩
  cases action with
  | event ev =>
    simp only [RaisingTasks.step, if_pos hended]
    exact ⟨hended, trivial⟩
  | tick now =>
    simp only [RaisingTasks.step, if_pos hended]
    exact ⟨hended, trivial⟩
  | _ => exact hother (by simp) (by simp)

/-- An action of a windower that has not ended leaves open what it raises on. -/
lemma openRows_step (iso : IsoText) (cfg : Config) {s : RaisingTasks.State queueMax}
    (hrunning : ¬ s.windowerEnded = true) (action : Correlator.Action) :
    (if (RaisingTasks.step iso cfg s (.stage action)).windowerEnded then
      openRows (RaisingTasks.step iso cfg s (.stage action)).pipeline.buckets else []) =
        openAtRaise cfg s action := by
  have hother : (∀ ev, action ≠ .event ev) → (∀ now, action ≠ .tick now) →
      (RaisingTasks.step iso cfg s (.stage action)).windowerEnded = s.windowerEnded := by
    intro hevent htick
    exact (RaisingTasks.step_windower_frame iso cfg s (.stage action)
      (fun ev he => hevent ev (by injection he)) fun now he => htick now (by injection he)).1
  cases action with
  | event ev =>
    simp only [RaisingTasks.step, RaisingTasks.windowerEvent, RaisingTasks.windowerTick,
      openAtRaise, if_neg hrunning]
    cases hbucket : RaisingTasks.bucketStart? cfg.windowS ev.ts with
    | none => simp
    | some b =>
      cases hthreshold : RaisingTasks.threshold? cfg.windowS ev.ts with
      | none => simp
      | some t => simp [hrunning]
  | tick now =>
    simp only [RaisingTasks.step, RaisingTasks.windowerTick, openAtRaise, if_neg hrunning]
    cases hthreshold : RaisingTasks.threshold? cfg.windowS now with
    | none => simp
    | some t => simp [hrunning]
  | _ => rw [hother (by simp) (by simp), if_neg hrunning]; rfl

theorem leftOpen_step (iso : IsoText) (cfg : Config) (batchSize : ℕ) (s : State queueMax)
    (a : Action) : leftOpen cfg (step inet iso cfg batchSize s a) = abandoned cfg s a := by
  obtain hstage | ⟨action, hstage⟩ := Option.eq_none_or_eq_some (stageOf a)
  · simp only [leftOpen, step, abandoned, hstage]
    by_cases hended : s.pipeline.windowerEnded <;> simp [hended]
  · simp only [leftOpen, step, abandoned, hstage]
    by_cases hended : s.pipeline.windowerEnded
    · obtain ⟨hstill, hbuckets⟩ := ended_step iso cfg hended action
      simp only [hended, hstill, hbuckets, if_true]
    · have hopen := openRows_step iso cfg hended action
      simpa [hended, accumulated] using hopen

theorem kept_step_iff {iso : IsoText} {cfg : Config} {batchSize : ℕ} {s : State queueMax}
    (h : Kept inet cfg s) (a : Action) :
    Kept inet cfg (step inet iso cfg batchSize s a) ↔ Harmless inet cfg batchSize s a := by
  have hstored : Stored inet (writerStep inet batchSize s a) ↔
      Uniform inet (copied batchSize s a) := stored_step_iff inet h.stored a
  have hopen := leftOpen_step inet iso cfg batchSize s a
  constructor
  · intro hkept
    exact ⟨hstored.mp hkept.stored, hopen ▸ hkept.emitted⟩
  · intro hharmless
    refine ⟨hstored.mpr hharmless.uniform, ?_⟩
    rw [hopen]
    exact hharmless.unfit

/-- Over a whole run every row that fits is stored or about to be iff no batch that is
copied mixes rows that fit with rows that do not, and no row that fits is open when the
windower ends or comes of the lines after it. -/
theorem rowsStored_iff_harmless (iso : IsoText) (cfg : Config) (batchSize : ℕ)
    (aggregator : Option GroupAggregator) (actions : List Action) :
    Throughout (step inet iso cfg batchSize) (Kept inet cfg) (initial aggregator : State queueMax)
        actions ↔
      Along (step inet iso cfg batchSize) (Harmless inet cfg batchSize)
        (initial aggregator : State queueMax) actions := by
  have hstart : Kept inet cfg (initial aggregator : State queueMax) :=
    ⟨rfl, by simp [leftOpen, initial, RaisingTasks.initial]⟩
  exact throughout_iff_along (I := fun _ => True) (P := fun s : State queueMax => Kept inet cfg s)
    (fun _ _ _ => trivial) (fun _ a _ hkept => kept_step_iff inet hkept a) trivial hstart actions

end

/-! ## A line with a protocol number that no column holds -/

/-- Two sessions of one window, the second with a protocol beyond `SMALLINT`. -/
def badLineRun : List Action :=
  let session := "type=traffic subtype=forward status=close srcip=10.0.0.1 dstip=10.0.0.2 " ++
    "dstport=443"
  let toWriter : List Action := [.stage .labelTake,
    .stage (.labelResolved ⟨.raw, "10.0.0.2", none⟩ none), .stage .labelPut, .stage .demux, .take]
  [.line .fortigate (seconds 100) (session ++ " proto=6"),
    .line .fortigate (seconds 101) (session ++ " proto=40000"), .stage (.tick (seconds 110))] ++
    toWriter ++ toWriter ++ [.timeout]

theorem badLineRun_drops_good_row :
    ¬ Throughout (step (fun s => (PyIpaddress.ipAddress s.toList).isSome) epochIso fiveSecondGroups
        10000)
      (Kept (fun s => (PyIpaddress.ipAddress s.toList).isSome) fiveSecondGroups)
      (initial (some defaultAggregator) : State 10000) badLineRun := by
  intro h
  exact absurd h.last.stored (by unfold Stored; decide +kernel)

/-- A line with a time in the first second of year 1 ends the windower while the row of
another session is open, and the next line is not read. -/
example :
    let good := "type=traffic subtype=forward status=close srcip=10.0.0.1 dstip=10.0.0.2 " ++
      "dstport=443"
    let bad := "1,2026/04/22 14:12:00,1,TRAFFIC,end,1,0001/01/01 00:00:00,10.0.0.3,10.0.0.4" ++
      ",,,,,,web,,,,,,,,,,51000,80,,,,tcp,allow,10,1"
    let s := run (step (fun s => (PyIpaddress.ipAddress s.toList).isSome) epochIso fiveSecondGroups
      10000) (initial (some defaultAggregator) : State 10000)
      [.line .fortigate (seconds 100) good, .line .paloAlto (seconds 101) bad,
        .line .fortigate (seconds 102) good]
    (leftOpen fiveSecondGroups s).map (fun row => (row.dstPort, row.flowCount)) =
      [(443, 2), (80, 1)] := by decide +kernel

end FlowDiscovery.Writer
