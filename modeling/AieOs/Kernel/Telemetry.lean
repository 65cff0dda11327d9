import AieOs.Kernel.AiSched
import AieOs.Lib.BoundedMap

namespace AieOs

open Lib

/-!
# `telemetry.bpf.c` — the telemetry program

The maps and the four tracepoint handlers of the telemetry BPF object, function by
function.  It has a ring buffer of its own, of the same name as the scheduler's.  The
memory that `bpf_ringbuf_reserve` hands out keeps its leftover contents in every field
that a handler does not write.
-/

/-! ### Maps -/

/-- `struct task_telemetry_accum`. -/
structure TaskTelemetryAccum where
  totalSyscalls : UInt64
  ioReadBytes : UInt64
  ioWriteBytes : UInt64
  lastSampleCpuUtil : UInt32
  lastSampleTs : UInt64
  deriving DecidableEq, Repr

/-- `struct task_telemetry_accum zero = {}`. -/
def TaskTelemetryAccum.zero : TaskTelemetryAccum := ⟨0, 0, 0, 0, 0⟩

/-- The maps of the telemetry BPF object. -/
structure TelemetryMaps where
  /-- The records submitted to `telemetry_ringbuf` and not yet consumed. -/
  telemetryRingbuf : List AiTaskTelemetry
  taskAccumulators : BoundedMap UInt32 TaskTelemetryAccum 16384

/-- The maps as the kernel creates them. -/
def TelemetryMaps.fresh : TelemetryMaps := ⟨[], BoundedMap.empty⟩

/-! ### Tracepoint arguments -/

/-- `struct sched_process_fork_args`. -/
structure SchedProcessForkArgs where
  parentComm : Comm
  parentPid : UInt32
  childComm : Comm
  childPid : UInt32
  deriving DecidableEq, Repr

/-- `struct sched_process_exit_args`. -/
structure SchedProcessExitArgs where
  comm : Comm
  pid : UInt32
  prio : Int32
  deriving DecidableEq, Repr

/-! ### Handlers -/

/-- The common start of two handlers: the accumulator of `pid`, created if missing;
    `none` when the map has no room for it. -/
def lookupOrCreate (pid : UInt32) (m : TelemetryMaps) :
    Option TaskTelemetryAccum × TelemetryMaps :=
  match m.taskAccumulators.lookup pid with
  | some accum => (some accum, m)
  | none       =>
    let m := { m with taskAccumulators := m.taskAccumulators.insert pid .zero }
    (m.taskAccumulators.lookup pid, m)

/-- `handle_sys_enter`.  The accumulator is updated in place. -/
def handleSysEnter (current : CurrentTask) (m : TelemetryMaps) : TelemetryMaps :=
  let pid := (bpfGetCurrentPidTgid current >>> 32).toUInt32
  match lookupOrCreate pid m with
  | (none, m)       => m
  | (some accum, m) =>
    let accum := { accum with totalSyscalls := accum.totalSyscalls + 1 }
    { m with taskAccumulators := m.taskAccumulators.insert pid accum }

/-- `handle_block_rq_issue`, which counts nothing. -/
def handleBlockRqIssue (current : CurrentTask) (m : TelemetryMaps) : TelemetryMaps :=
  let pid := (bpfGetCurrentPidTgid current >>> 32).toUInt32
  (lookupOrCreate pid m).2

/-- The record `handle_sched_fork` writes into the reserved memory `event`. -/
def forkRecord (args : SchedProcessForkArgs) (event : AiTaskTelemetry) : AiTaskTelemetry :=
  { event with
    pid := args.childPid
    cpuUtilRecent := 60
    memoryRssMb := 300
    numThreads := 4
    syscallCount := 250
    schedClass := 1
    niceValue := 0 }

/-- `handle_sched_fork`, where `bpf_ringbuf_reserve` returns `reserved`. -/
def handleSchedFork (args : SchedProcessForkArgs) (reserved : Option AiTaskTelemetry)
    (m : TelemetryMaps) : TelemetryMaps :=
  let childPid := args.childPid
  -- an accumulator that was there is overwritten
  let m := { m with taskAccumulators := m.taskAccumulators.insert childPid .zero }
  match reserved with
  | none       => m
  | some event => { m with telemetryRingbuf := m.telemetryRingbuf ++ [forkRecord args event] }

/-- `handle_sched_exit`. -/
def handleSchedExit (args : SchedProcessExitArgs) (m : TelemetryMaps) : TelemetryMaps :=
  -- `sched_decisions` belongs to the other BPF object and keeps its entry
  let pid := args.pid
  { m with taskAccumulators := m.taskAccumulators.erase pid }

end AieOs
