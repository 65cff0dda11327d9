import AieOs.Loop.Producers
import AieOs.Daemon.Ipc
import Mathlib.Data.List.Chain

namespace AieOs

open Lib

/-!
# Two ring buffers of one name

The scheduler's object and the telemetry object each have a map `telemetry_ringbuf`, and
the daemon polls that of the telemetry object, which its `TelemetryReader` has loaded.  The
records of `emit_telemetry` go to a ring buffer that nobody reads, until it is full.
-/

/-! ### Room in a ring buffer -/

/-- What a record takes: a header of 8 bytes, and the 72 of `struct ai_task_telemetry`. -/
def recordBytes : ℕ := 8 + 72

/-- `max_entries` of the scheduler's `telemetry_ringbuf`. -/
def schedRingBytes : ℕ := 256 * 1024

/-- `max_entries` of the `telemetry_ringbuf` of the telemetry object. -/
def telemetryRingBytes : ℕ := 1 <<< 24

/-- Whether a ring buffer of `bytes` bytes that holds `ring` has room for a record. -/
def hasRoom (bytes : ℕ) (ring : List AiTaskTelemetry) : Bool :=
  (ring.length + 1) * recordBytes ≤ bytes - 1

/-! ### The producers and the reader -/

/-- One event of the telemetry path; `leftover` is what the memory of a record holds. -/
inductive RingEvent
  /-- `handle_sched_fork`. -/
  | fork (args : SchedProcessForkArgs) (leftover : AiTaskTelemetry)
  /-- `ai_sched_enqueue`. -/
  | enqueue (current : CurrentTask) (ktime : UInt64) (ptr : TaskPtr) (p : TaskStruct)
      (enqFlags : UInt64) (leftover : AiTaskTelemetry)
  /-- `TelemetryReader::read_sample` with the caller's buffer `sample`. -/
  | poll (sample : AiTaskTelemetry)
  deriving DecidableEq

namespace RingEvent

/-- A poll. -/
def isPoll : RingEvent → Bool
  | .poll _ => true
  | _       => false

/-- A call of `ai_sched_enqueue`. -/
def isEnqueue : RingEvent → Bool
  | .enqueue .. => true
  | _           => false

end RingEvent

/-- A poll reports every record of the ring buffer. -/
def drain : List AiTaskTelemetry → PollOutcome
  | []            => .timeout
  | first :: rest => .consumed first rest

/-- What is reported is what the ring buffer held. -/
@[simp] theorem records_drain (ring : List AiTaskTelemetry) : (drain ring).records = ring := by
  cases ring <;> rfl

/-- The two objects and the reader of the second one. -/
structure RingState where
  producers : Producers
  reader : TelemetryReader
  /-- All records submitted so far, in order. -/
  submitted : List AiTaskTelemetry

namespace RingState

/-- The ring buffer that nobody reads. -/
def schedRing (s : RingState) : List AiTaskTelemetry := s.producers.sched.maps.telemetryRingbuf

/-- The ring buffer that the reader polls. -/
def polledRing (s : RingState) : List AiTaskTelemetry := s.producers.telemetry.telemetryRingbuf

/-- Both objects are loaded, and the reader is connected. -/
def initial : RingState := ⟨⟨.attached .fresh, .fresh⟩, .connected, []⟩

/-- A producer is called. -/
def call (s : RingState) (e : ProducerCall × AiTaskTelemetry) : RingState :=
  { s with
    producers := s.producers.step e
    submitted := s.submitted ++ s.producers.submitted e }

/-- The effect of one event.  A reserve fails if the ring buffer lacks the room. -/
def step (s : RingState) : RingEvent → RingState
  | .fork args leftover =>
    s.call (.fork args (hasRoom telemetryRingBytes s.polledRing), leftover)
  | .enqueue current ktime ptr p enqFlags leftover =>
    s.call (.enqueue current ktime ptr p enqFlags (hasRoom schedRingBytes s.schedRing), leftover)
  | .poll sample =>
    let (_, _, reader) := s.reader.readSample (drain s.polledRing) sample
    -- a reader without ring buffer context polls nothing
    let ring := if s.reader.ringbufCtx then [] else s.polledRing
    { s with
      reader
      producers.telemetry.telemetryRingbuf := ring }

/-- The records reported and those still in the polled ring buffer are those submitted. -/
def Conserved (s : RingState) : Prop := s.reader.printed ++ s.polledRing = s.submitted

/-- The event is not a reserve that fails for lack of space. -/
def reserveOk (s : RingState) : RingEvent → Prop
  | .fork ..    => hasRoom telemetryRingBytes s.polledRing = true
  | .enqueue .. => hasRoom schedRingBytes s.schedRing = true
  | .poll _     => True

/-- Both producers feed the ring buffer that the daemon reads. -/
structure FeedsReader (es : List RingEvent) : Prop where
  /-- No record submitted is missing, doubled or out of order. -/
  conserved : Always step Conserved initial es
  /-- With a poll after every submission no reserve fails. -/
  noDrop : es.IsChain (fun e e' => e.isPoll ∨ e'.isPoll) → Throughout step reserveOk initial es

/-! ### One event at a time -/

/-- While no task is enqueued all records go through the polled ring buffer. -/
structure OneRing (s : RingState) : Prop where
  conserved : s.Conserved
  schedRing : s.schedRing = []
  connected : s.reader.ringbufCtx = true

section
variable (s : RingState)

/-- A fork event submits at most one record, to the polled ring buffer. -/
theorem step_fork (args : SchedProcessForkArgs) (leftover : AiTaskTelemetry) :
    ∃ records : List AiTaskTelemetry, records.length ≤ 1 ∧
      (s.step (.fork args leftover)).polledRing = s.polledRing ++ records ∧
      (s.step (.fork args leftover)).submitted = s.submitted ++ records ∧
      (s.step (.fork args leftover)).schedRing = s.schedRing := by
  obtain ⟨hring, hsched⟩ :=
    s.producers.step_fork args (hasRoom telemetryRingBytes s.polledRing) leftover
  refine ⟨_, ?_, hring, ?_, congrArg (fun x => x.maps.telemetryRingbuf) hsched⟩
  · cases hasRoom telemetryRingBytes s.polledRing <;> simp [Producers.emitted, bpfRingbufReserve]
  · exact congrArg (s.submitted ++ ·) (Producers.submitted_eq_emitted _ _)

/-- An enqueue submits one record, if there is room, to the other ring buffer. -/
theorem step_enqueue (current : CurrentTask) (ktime : UInt64) (ptr : TaskPtr) (p : TaskStruct)
    (enqFlags : UInt64) (leftover : AiTaskTelemetry) :
    ∃ records : List AiTaskTelemetry,
      records.length = (if hasRoom schedRingBytes s.schedRing then 1 else 0) ∧
      (s.step (.enqueue current ktime ptr p enqFlags leftover)).polledRing = s.polledRing ∧
      (s.step (.enqueue current ktime ptr p enqFlags leftover)).submitted
        = s.submitted ++ records ∧
      (s.step (.enqueue current ktime ptr p enqFlags leftover)).schedRing
        = s.schedRing ++ records := by
  obtain ⟨hring, htelemetry⟩ := s.producers.step_enqueue current ktime ptr p enqFlags
    (hasRoom schedRingBytes s.schedRing) leftover
  refine ⟨_, ?_, congrArg TelemetryMaps.telemetryRingbuf htelemetry, ?_, hring⟩
  · cases hasRoom schedRingBytes s.schedRing <;>
      simp [Producers.emitted, emittedRecord, bpfRingbufReserve]
  · exact congrArg (s.submitted ++ ·) (Producers.submitted_eq_emitted _ _)

variable {s}

/-- A poll of a connected reader empties the ring buffer and reports what was in it. -/
theorem step_poll (h : s.reader.ringbufCtx = true) (sample : AiTaskTelemetry) :
    (s.step (.poll sample)).polledRing = [] ∧
      (s.step (.poll sample)).reader.printed = s.reader.printed ++ s.polledRing ∧
      (s.step (.poll sample)).reader.ringbufCtx = true := by
  simp [step, TelemetryReader.readSample, h, polledRing]

/-- Without enqueues the polled ring buffer stays the only one in use. -/
theorem OneRing.step {e : RingEvent} (h : OneRing s) (he : e.isEnqueue = false) :
    OneRing (s.step e) := by
  cases e with
  | fork args leftover =>
    obtain ⟨records, -, hpolled, hsubmitted, hsched⟩ := s.step_fork args leftover
    refine ⟨?_, hsched.trans h.schedRing, h.connected⟩
    show s.reader.printed ++ _ = _
    rw [hpolled, hsubmitted, ← List.append_assoc, h.conserved]
  | enqueue current ktime ptr p enqFlags leftover => cases he
  | poll sample =>
    obtain ⟨hempty, hprinted, hctx⟩ := step_poll h.connected sample
    refine ⟨?_, h.schedRing, hctx⟩
    show _ ++ _ = s.submitted
    rw [hempty, hprinted, List.append_nil]
    exact h.conserved

/-- The record of the first enqueue is never seen by the reader. -/
theorem OneRing.not_conserved {e : RingEvent} (h : OneRing s) (he : ¬ e.isEnqueue = false) :
    ¬ (s.step e).Conserved := by
  cases e with
  | enqueue current ktime ptr p enqFlags leftover =>
    obtain ⟨records, hlength, hpolled, hsubmitted, -⟩ :=
      s.step_enqueue current ktime ptr p enqFlags leftover
    intro hconserved
    -- the ring buffer is still empty, so the reserve succeeds
    rw [h.schedRing, if_pos (by decide)] at hlength
    have hsame : s.reader.printed ++ s.polledRing = s.submitted ++ records := by
      rw [← hpolled, ← hsubmitted]
      exact hconserved
    rw [h.conserved, List.self_eq_append_right] at hsame
    simp [hsame] at hlength
  | _ => exact absurd rfl he

end

/-- At the start both ring buffers are empty. -/
theorem oneRing_initial : OneRing initial := ⟨rfl, rfl, rfl⟩

/-! ### Whole runs -/

/-- All records are reported exactly in the runs without an enqueue. -/
theorem conserved_iff (es : List RingEvent) :
    Always step Conserved initial es ↔ ∀ e ∈ es, e.isEnqueue = false := by
  rw [← throughout_iff_forall_mem step (fun e => e.isEnqueue = false) initial]
  exact always_iff_throughout_of_any oneRing_initial (fun _ h => h.conserved)
    (fun _ _ h => h.step) (fun _ _ h => h.not_conserved)

/-- With a poll after every record the polled ring buffer never holds two. -/
theorem reserveOk_of_polled {es : List RingEvent} (hno : ∀ e ∈ es, e.isEnqueue = false)
    (hpolled : es.IsChain fun e e' => e.isPoll ∨ e'.isPoll) {s : RingState} (h : OneRing s)
    (hready : s.polledRing = [] ∨ ∀ e ∈ es.head?, e.isPoll = true) :
    Throughout step reserveOk s es := by
  induction es generalizing s with
  | nil => trivial
  | cons e es ih =>
    rw [List.forall_mem_cons] at hno
    have hnext := h.step hno.1
    cases e with
    | fork args leftover =>
      -- the last event was a poll, or this is the first one
      have hempty : s.polledRing = [] := by simpa [RingEvent.isPoll] using hready
      refine ⟨?_, ih hno.2 hpolled.tail hnext (.inr fun e' he' => ?_)⟩
      · show hasRoom telemetryRingBytes s.polledRing = true
        rw [hempty]
        decide
      · -- the next event is a poll
        simpa [RingEvent.isPoll] using hpolled.rel_head? he'
    | enqueue current ktime ptr p enqFlags leftover => cases hno.1
    | poll sample =>
      exact ⟨trivial, ih hno.2 hpolled.tail hnext (.inl (step_poll h.connected sample).1)⟩

/-- **Rings.** Both producers feed the ring buffer that the daemon reads exactly in the runs
    in which no task is enqueued. -/
theorem feeds_reader_iff (es : List RingEvent) :
    FeedsReader es ↔ ∀ e ∈ es, e.isEnqueue = false := by
  rw [← conserved_iff]
  refine ⟨fun h => h.conserved, fun h => ⟨h, fun hpolled => ?_⟩⟩
  exact reserveOk_of_polled ((conserved_iff es).mp h) hpolled oneRing_initial (.inl rfl)

/-- The scheduler's ring buffer keeps the first 3276 records, and the others are dropped. -/
theorem schedRing_length_run (es : List RingEvent) :
    (run step initial es).schedRing.length = min (es.countP RingEvent.isEnqueue) 3276 := by
  induction es using List.reverseRecOn with
  | nil => rfl
  | append_singleton es e ih =>
    rw [run_concat, List.countP_append]
    cases e with
    | fork args leftover =>
      obtain ⟨-, -, -, -, hsched⟩ := (run step initial es).step_fork args leftover
      rw [hsched, ih]
      rfl
    | enqueue current ktime ptr p enqFlags leftover =>
      obtain ⟨records, hlength, -, -, hring⟩ :=
        (run step initial es).step_enqueue current ktime ptr p enqFlags leftover
      rw [hring, List.length_append, hlength, ih]
      -- 3276 records and no more fit into the 262143 bytes that may be in use
      simp only [hasRoom, ih, recordBytes, schedRingBytes, decide_eq_true_eq]
      show _ = min (_ + 1) 3276
      split <;> omega
    | poll sample => exact ih

/-- A single enqueue with an empty ring buffer: its record is not reported by any poll. -/
theorem feeds_reader_not_enqueue : ¬ ∀ es : List RingEvent, FeedsReader es := by
  intro hall
  have hconserved := (hall [.enqueue (.leader 7) 0 7 (.ordinary 7) 0 .zero, .poll .zero]).conserved
    _ (List.prefix_refl _)
  exact absurd hconserved (by simp only [Conserved]; decide)

end RingState

end AieOs
