import AieOs.Kernel.AiSched

namespace AieOs

/-!
# `classifier.cpp` — the heuristic classifier

`Classifier::classify` and its three helpers.  Pointer arguments are options, `none` for
`nullptr`; the clock reading is an argument.
-/

/-- `struct timespec`, as `clock_gettime(CLOCK_MONOTONIC)` fills it. -/
structure Timespec where
  tvSec : Int64
  tvNsec : Int64
  deriving DecidableEq, Repr

/-- `(__u64)ts.tv_sec * 1000000000ULL + ts.tv_nsec`. -/
def Timespec.toNs (ts : Timespec) : UInt64 := ts.tvSec.toUInt64 * 1000000000 + ts.tvNsec.toUInt64

namespace Classifier

/-- The rule for "system / kernel tasks" of `classify_heuristic`. -/
def systemRule (telemetry : AiTaskTelemetry) : Bool :=
  telemetry.schedClass = 5 || telemetry.schedClass = 0

/-- `classify_heuristic`.  `nice_value` is unsigned, so the literal `-10` it is compared
    with is converted to `__u32`. -/
def classifyHeuristic (telemetry : Option AiTaskTelemetry) : AiTaskClass :=
  match telemetry with
  | none           => .background
  | some telemetry =>
    if systemRule telemetry then .background
    -- high priority and high CPU usage
    else if telemetry.niceValue ≤ -10 ∧ telemetry.cpuUtilRecent ≥ 40 then .realtimeAi
    -- large memory usage or a multi-threaded workload
    else if telemetry.memoryRssMb ≥ 100 ∨ telemetry.numThreads ≥ 2 then .batchAi
    -- moderate CPU usage
    else if telemetry.cpuUtilRecent ≥ 20 then .interactiveAi
    else .background

/-- `select_device`; its telemetry argument is not read. -/
def selectDevice (taskClass : UInt32) : AiComputeDevice :=
  match ofCode? taskClass with
  | some AiTaskClass.realtimeAi    => .perfCore
  | some AiTaskClass.interactiveAi => .auto
  | some AiTaskClass.batchAi       => .auto
  | some AiTaskClass.background    => .effCore
  | _                              => .auto

/-- `estimate_time_slice`, in nanoseconds; its telemetry argument is not read. -/
def estimateTimeSlice (taskClass : UInt32) : UInt64 :=
  match ofCode? taskClass with
  | some AiTaskClass.realtimeAi    => 1000000
  | some AiTaskClass.interactiveAi => 2000000
  | some AiTaskClass.batchAi       => 20000000
  | some AiTaskClass.background    => 50000000
  | _                              => 5000000

/-- The decision `classify` writes for a telemetry record. -/
def decisionFor (ts : Timespec) (telemetry : AiTaskTelemetry) : AiSchedDecision :=
  let taskClass := (classifyHeuristic (some telemetry)).code
  { AiSchedDecision.zero with
    pid := telemetry.pid
    tsDecision := ts.toNs
    taskClass
    preferredDevice := (selectDevice taskClass).code
    timeSliceUs := (estimateTimeSlice taskClass / 1000).toUInt32
    cpuAffinityMask := 0
    priorityBoost := 0 }

/-- `classify`: the return code and the decision buffer afterwards. -/
def classify (ts : Timespec) (telemetry : Option AiTaskTelemetry)
    (decision : Option AiSchedDecision) : Int32 × Option AiSchedDecision :=
  match telemetry, decision with
  | some telemetry, some _ => (0, some (decisionFor ts telemetry))
  | _, _                   => (-1, decision)

/-- `classify` succeeds on every record, and ignores what the buffer held before. -/
@[simp] theorem classify_some (ts : Timespec) (t : AiTaskTelemetry) (d : AiSchedDecision) :
    classify ts (some t) (some d) = (0, some (decisionFor ts t)) := rfl

/-- The slice survives the division to microseconds and the kernel's multiplication. -/
theorem decisionFor_slice (ts : Timespec) (t : AiTaskTelemetry) :
    (decisionFor ts t).timeSliceUs.toUInt64 * 1000
      = estimateTimeSlice (decisionFor ts t).taskClass := by
  show (estimateTimeSlice (classifyHeuristic (some t)).code / 1000).toUInt32.toUInt64 * 1000
    = estimateTimeSlice (classifyHeuristic (some t)).code
  cases classifyHeuristic (some t) <;> decide

/-- No class gets an empty slice, and none a slice that does not fit in microseconds. -/
theorem estimateTimeSlice_bounds (taskClass : UInt32) :
    0 < estimateTimeSlice taskClass ∧ (estimateTimeSlice taskClass).toNat < 2 ^ 32 := by
  unfold estimateTimeSlice
  split <;> decide

end Classifier

end AieOs
