import AieOs.Kernel.Hooks
import AieOs.Kernel.Telemetry

namespace AieOs

open Lib

/-!
# The producers of telemetry records

`handle_sched_fork` of the telemetry object and `emit_telemetry` of the scheduler's object
submit records, each to the `telemetry_ringbuf` of its own object.  The memory that
`bpf_ringbuf_reserve` returns holds what its last user left there.
-/

/-- A call of one of the two producers; `room` tells whether `bpf_ringbuf_reserve` finds
    room in the ring buffer. -/
inductive ProducerCall
  /-- `handle_sched_fork`. -/
  | fork (args : SchedProcessForkArgs) (room : Bool)
  /-- `ai_sched_enqueue`. -/
  | enqueue (current : CurrentTask) (ktime : UInt64) (ptr : TaskPtr) (p : TaskStruct)
      (enqFlags : UInt64) (room : Bool)
  deriving DecidableEq

/-- The two BPF objects. -/
structure Producers where
  sched : SchedState
  telemetry : TelemetryMaps

/-- What `bpf_ringbuf_reserve` returns where the memory holds `leftover`. -/
def bpfRingbufReserve (room : Bool) (leftover : AiTaskTelemetry) : Option AiTaskTelemetry :=
  if room then some leftover else none

namespace Producers

/-- A call and the contents of the memory it may get. -/
def step (s : Producers) : ProducerCall × AiTaskTelemetry → Producers
  | (.fork args room, leftover) =>
    { s with telemetry := handleSchedFork args (bpfRingbufReserve room leftover) s.telemetry }
  | (.enqueue current ktime ptr p enqFlags room, leftover) =>
    let ctx := ⟨current, ktime, bpfRingbufReserve room leftover⟩
    { s with sched := aiSchedEnqueue ctx ptr p enqFlags s.sched }

/-- The records that a call adds to the ring buffers. -/
def submitted (s : Producers) (e : ProducerCall × AiTaskTelemetry) : List AiTaskTelemetry :=
  (s.step e).telemetry.telemetryRingbuf.drop s.telemetry.telemetryRingbuf.length ++
    (s.step e).sched.maps.telemetryRingbuf.drop s.sched.maps.telemetryRingbuf.length

/-! ### What a call adds to the ring buffers -/

/-- The record of a call, which does not depend on the state. -/
def emitted : ProducerCall × AiTaskTelemetry → List AiTaskTelemetry
  | (.fork args room, leftover) =>
    ((bpfRingbufReserve room leftover).map (forkRecord args)).toList
  | (.enqueue current ktime _ p _ room, leftover) =>
    (emittedRecord ⟨current, ktime, bpfRingbufReserve room leftover⟩ p).toList

/-- A fork event reaches the ring buffer of the telemetry object only. -/
theorem step_fork (s : Producers) (args : SchedProcessForkArgs) (room : Bool)
    (leftover : AiTaskTelemetry) :
    (s.step (.fork args room, leftover)).telemetry.telemetryRingbuf
        = s.telemetry.telemetryRingbuf ++ emitted (.fork args room, leftover) ∧
      (s.step (.fork args room, leftover)).sched = s.sched := by
  cases room <;> simp [step, emitted, handleSchedFork, bpfRingbufReserve]

/-- An enqueue reaches the ring buffer of the scheduler's object only. -/
theorem step_enqueue (s : Producers) (current : CurrentTask) (ktime : UInt64) (ptr : TaskPtr)
    (p : TaskStruct) (enqFlags : UInt64) (room : Bool) (leftover : AiTaskTelemetry) :
    (s.step (.enqueue current ktime ptr p enqFlags room, leftover)).sched.maps.telemetryRingbuf
        = s.sched.maps.telemetryRingbuf ++
          emitted (.enqueue current ktime ptr p enqFlags room, leftover) ∧
      (s.step (.enqueue current ktime ptr p enqFlags room, leftover)).telemetry = s.telemetry := by
  simp [step, emitted]

/-- What a call adds to the ring buffers is its record. -/
theorem submitted_eq_emitted (s : Producers) (e : ProducerCall × AiTaskTelemetry) :
    s.submitted e = emitted e := by
  obtain ⟨call, leftover⟩ := e
  cases call with
  | fork args room =>
    obtain ⟨hring, hsched⟩ := s.step_fork args room leftover
    simp [submitted, hring, hsched]
  | enqueue current ktime ptr p enqFlags room =>
    obtain ⟨hring, htelemetry⟩ := s.step_enqueue current ktime ptr p enqFlags room leftover
    simp [submitted, hring, htelemetry]

end Producers

end AieOs
