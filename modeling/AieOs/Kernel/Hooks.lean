import AieOs.Kernel.Sched
import AieOs.Lib.Runs

namespace AieOs

open Lib

/-!
# The scheduler as an event-driven system

Everything that can happen to an attached scheduler: its hooks, called by the kernel in
any order on any CPU, the writes of userspace to its maps, and the CPUs running what
was moved to their local queues.  `SchedEvent.kernelOk` is what the kernel promises.
-/

/-- One event of an attached scheduler. -/
inductive SchedEvent
  /-- `ai_sched_enqueue` of the task at `ptr`, whose fields are then `p`. -/
  | enqueue (ctx : HookCtx) (ptr : TaskPtr) (p : TaskStruct) (enqFlags : UInt64)
  /-- `ai_sched_dispatch` on `cpu`, on which the tasks `allowed` may then run. -/
  | dispatch (cpu : Int32) (allowed : TaskPtr → Bool)
  /-- `cpu` runs the first task of its local queue. -/
  | runLocal (cpu : Int32)
  /-- Userspace writes an element of `sched_decisions`. -/
  | writeDecision (pid : UInt32) (decision : AiSchedDecision)
  /-- Userspace deletes an element of `sched_decisions`. -/
  | deleteDecision (pid : UInt32)
  /-- Userspace writes `energy_mode`. -/
  | writeEnergyMode (mode : UInt32)
  /-- Userspace writes an element of `time_slices`. -/
  | writeTimeSlice (key : UInt32) (slice : UInt64)
  /-- Userspace consumes the records in the ring buffer. -/
  | consumeTelemetry

namespace SchedState

/-- The effect of one event. -/
def step (s : SchedState) : SchedEvent → SchedState
  | .enqueue ctx ptr p enqFlags  => aiSchedEnqueue ctx ptr p enqFlags s
  | .dispatch cpu allowed        => aiSchedDispatch allowed cpu s
  | .runLocal cpu                => { s with scx := s.scx.runLocal cpu }
  | .writeDecision pid decision  =>
    { s with maps :=
      { s.maps with schedDecisions := s.maps.schedDecisions.insert pid decision } }
  | .deleteDecision pid          =>
    { s with maps := { s.maps with schedDecisions := s.maps.schedDecisions.erase pid } }
  -- a key that the array map does not have is refused
  | .writeEnergyMode mode        =>
    { s with maps := { s.maps with energyMode := s.maps.energyMode.setIfInBounds 0 mode } }
  | .writeTimeSlice key slice    =>
    { s with maps :=
      { s.maps with timeSlices := s.maps.timeSlices.setIfInBounds key.toNat slice } }
  | .consumeTelemetry            => { s with maps := { s.maps with telemetryRingbuf := [] } }

/-- The scheduler right after `ai_sched_init`, all of whose `scx_bpf_create_dsq` calls
    succeeded, on the maps `m`. -/
def attached (m : SchedMaps) : SchedState :=
  (aiSchedInit (fun _ => 0) { maps := m, scx := Scx.empty }).2

end SchedState

/-- The task at `ptr` waits in some DSQ. -/
def Scx.Queued (s : Scx) (ptr : TaskPtr) : Prop :=
  ∃ id q, s.dsqs id = some q ∧ ∃ e ∈ q, e.task = ptr

/-- What the kernel promises: a task still queued is not enqueued again. -/
def SchedEvent.kernelOk (s : SchedState) : SchedEvent → Prop
  | .enqueue _ ptr _ _ => ¬ s.scx.Queued ptr
  | _                  => True

/-! ### Which event touches what -/

namespace SchedState

/-- `ai_sched_dispatch` leaves the maps alone. -/
@[simp] theorem aiSchedDispatch_maps (allowed : TaskPtr → Bool) (cpu : Int32) (s : SchedState) :
    (aiSchedDispatch allowed cpu s).maps = s.maps := by
  unfold aiSchedDispatch
  -- whichever of the five queues the task comes from
  repeat' split
  all_goals rfl

end SchedState

/-! ### The maps after `ai_sched_enqueue` -/

section
variable (ctx : HookCtx) (p : TaskStruct) (m : SchedMaps) (taskClass targetDsq : UInt32)

/-- `emit_telemetry` writes to the ring buffer only: the decisions stay. -/
@[simp] theorem emitTelemetry_schedDecisions :
    (emitTelemetry ctx p m).schedDecisions = m.schedDecisions := by
  unfold emitTelemetry; split <;> rfl

/-- So does the energy mode. -/
@[simp] theorem emitTelemetry_energyMode : (emitTelemetry ctx p m).energyMode = m.energyMode := by
  unfold emitTelemetry; split <;> rfl

/-- And the configured slices. -/
@[simp] theorem emitTelemetry_timeSlices : (emitTelemetry ctx p m).timeSlices = m.timeSlices := by
  unfold emitTelemetry; split <;> rfl

/-- And the counters. -/
@[simp] theorem emitTelemetry_schedStats : (emitTelemetry ctx p m).schedStats = m.schedStats := by
  unfold emitTelemetry; split <;> rfl

/-- The record is submitted, if there was room for it. -/
@[simp] theorem emitTelemetry_telemetryRingbuf :
    (emitTelemetry ctx p m).telemetryRingbuf
      = m.telemetryRingbuf ++ (emittedRecord ctx p).toList := by
  -- without room nothing is submitted
  unfold emitTelemetry; split <;> simp_all

/-- `update_stats` writes to the counters only: the decisions stay. -/
@[simp] theorem updateStats_schedDecisions :
    (updateStats taskClass targetDsq m).schedDecisions = m.schedDecisions := by
  unfold updateStats; split <;> rfl

/-- So does the energy mode. -/
@[simp] theorem updateStats_energyMode :
    (updateStats taskClass targetDsq m).energyMode = m.energyMode := by
  unfold updateStats; split <;> rfl

/-- And the configured slices. -/
@[simp] theorem updateStats_timeSlices :
    (updateStats taskClass targetDsq m).timeSlices = m.timeSlices := by
  unfold updateStats; split <;> rfl

/-- And the ring buffer. -/
@[simp] theorem updateStats_telemetryRingbuf :
    (updateStats taskClass targetDsq m).telemetryRingbuf = m.telemetryRingbuf := by
  unfold updateStats; split <;> rfl

/-- The routing decision does not depend on the ring buffer. -/
@[simp] theorem selectDsq_emitTelemetry (preferredDevice : UInt32) :
    selectDsq (emitTelemetry ctx p m) taskClass preferredDevice
      = selectDsq m taskClass preferredDevice := by
  simp [selectDsq, getEnergyMode]

end

/-! ### `ai_sched_enqueue` as a whole -/

section
variable (ctx : HookCtx) (ptr : TaskPtr) (p : TaskStruct) (enqFlags : UInt64) (s : SchedState)

/-- `ai_sched_enqueue` reads the decisions and does not change them. -/
@[simp] theorem aiSchedEnqueue_schedDecisions :
    (aiSchedEnqueue ctx ptr p enqFlags s).maps.schedDecisions = s.maps.schedDecisions := by
  simp [aiSchedEnqueue]

/-- Nor the energy mode. -/
@[simp] theorem aiSchedEnqueue_energyMode :
    (aiSchedEnqueue ctx ptr p enqFlags s).maps.energyMode = s.maps.energyMode := by
  simp [aiSchedEnqueue]

/-- Nor the configured slices. -/
@[simp] theorem aiSchedEnqueue_timeSlices :
    (aiSchedEnqueue ctx ptr p enqFlags s).maps.timeSlices = s.maps.timeSlices := by
  simp [aiSchedEnqueue]

/-- Each enqueue submits the record of `emit_telemetry`, if there is room for it. -/
@[simp] theorem aiSchedEnqueue_telemetryRingbuf :
    (aiSchedEnqueue ctx ptr p enqFlags s).maps.telemetryRingbuf
      = s.maps.telemetryRingbuf ++ (emittedRecord ctx p).toList := by
  simp [aiSchedEnqueue]

end

/-- Where `ai_sched_enqueue` sends a task: by its decision, or by its fallback class. -/
def enqueueDsq (m : SchedMaps) (p : TaskStruct) : Dsq :=
  selectDsq m (enqueueChoice m p).taskClass (enqueueChoice m p).preferredDevice

/-- The one insertion that `ai_sched_enqueue` makes. -/
theorem aiSchedEnqueue_scx (ctx : HookCtx) (ptr : TaskPtr) (p : TaskStruct) (enqFlags : UInt64)
    (s : SchedState) :
    (aiSchedEnqueue ctx ptr p enqFlags s).scx
      = s.scx.scxBpfDsqInsert ptr (enqueueDsq s.maps p).id (enqueueChoice s.maps p).timeSliceNs
          enqFlags := by
  -- the choice is made before the record and the counters, which do not affect it
  simp [aiSchedEnqueue, enqueueDsq]

end AieOs
