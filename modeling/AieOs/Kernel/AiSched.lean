import Mathlib.Algebra.Group.Nat.Defs
import Mathlib.Tactic.Common

namespace AieOs

/-!
# `ai_sched.h` — the kernel–userspace interface

The enumerations and records shared by the scheduler, the telemetry program and the
daemon.  The records keep the enumerations in plain 32-bit fields, which may hold any
value; `ofCode?` is how a `switch` on such a field sees it (`none` is the `default`
branch).
-/

/-! ### Enumerations in 32-bit fields -/

/-- A C enumeration: its enumerators and their distinct 32-bit values. -/
class CEnum (E : Type) where
  code : E → UInt32
  all : List E
  mem_all : ∀ e, e ∈ all
  code_inj : ∀ e e', code e = code e' → e = e'

section
variable {E : Type} [CEnum E]

/-- The enumerator with value `c`, if there is one. -/
def ofCode? (c : UInt32) : Option E := CEnum.all.find? fun e => CEnum.code e = c

/-- Decoding finds the constructor with that code. -/
theorem ofCode?_eq_some_iff {c : UInt32} {e : E} : ofCode? c = some e ↔ CEnum.code e = c := by
  constructor
  · intro h
    simpa using List.find?_some h
  · rintro rfl
    -- the search finds some enumerator with that value, and values are distinct
    obtain ⟨e', he'⟩ : ∃ e' : E, ofCode? (CEnum.code e) = some e' := by
      rw [← Option.isSome_iff_exists, ofCode?, List.find?_isSome]
      exact ⟨e, CEnum.mem_all e, by simp⟩
    have hcode : CEnum.code e' = CEnum.code e := by simpa using List.find?_some he'
    rw [he', CEnum.code_inj e' e hcode]

/-- What was encoded is decoded. -/
@[simp] theorem ofCode?_code (e : E) : ofCode? (CEnum.code e) = some e :=
  ofCode?_eq_some_iff.mpr rfl

/-- Two constructors do not share a code. -/
@[simp] theorem code_inj_iff {e e' : E} : CEnum.code e = CEnum.code e' ↔ e = e' :=
  ⟨CEnum.code_inj e e', congrArg _⟩

/-- Decoding fails for the numbers that are no code. -/
theorem ofCode?_eq_none_iff {c : UInt32} :
    (ofCode? c : Option E) = none ↔ ∀ e : E, CEnum.code e ≠ c := by
  rw [← not_iff_not, ← ne_eq, Option.ne_none_iff_exists', not_forall_not]
  exact exists_congr fun e => ofCode?_eq_some_iff

end

/-- `enum ai_task_class`. -/
inductive AiTaskClass
  | realtimeAi | interactiveAi | batchAi | background | unknown
  deriving DecidableEq, Repr

instance : CEnum AiTaskClass where
  code
    | .realtimeAi    => 0
    | .interactiveAi => 1
    | .batchAi       => 2
    | .background    => 3
    | .unknown       => 4
  all := [.realtimeAi, .interactiveAi, .batchAi, .background, .unknown]
  mem_all e := by cases e <;> decide
  code_inj e e' h := by cases e <;> cases e' <;> first | rfl | exact absurd h (by decide)

/-- `enum ai_compute_device`. -/
inductive AiComputeDevice
  | perfCore | effCore | gpu | npu | auto
  deriving DecidableEq, Repr

instance : CEnum AiComputeDevice where
  code
    | .perfCore => 0
    | .effCore  => 1
    | .gpu      => 2
    | .npu      => 3
    | .auto     => 4
  all := [.perfCore, .effCore, .gpu, .npu, .auto]
  mem_all e := by cases e <;> decide
  code_inj e e' h := by cases e <;> cases e' <;> first | rfl | exact absurd h (by decide)

/-- `enum ai_energy_mode`. -/
inductive AiEnergyMode
  | performance | balanced | efficient | powerSaver
  deriving DecidableEq, Repr

instance : CEnum AiEnergyMode where
  code
    | .performance => 0
    | .balanced    => 1
    | .efficient   => 2
    | .powerSaver  => 3
  all := [.performance, .balanced, .efficient, .powerSaver]
  mem_all e := by cases e <;> decide
  code_inj e e' h := by cases e <;> cases e' <;> first | rfl | exact absurd h (by decide)

/-- The value of an enumerator, as it is stored in a 32-bit field. -/
abbrev AiTaskClass.code (k : AiTaskClass) : UInt32 := CEnum.code k

@[inherit_doc AiTaskClass.code]
abbrev AiComputeDevice.code (d : AiComputeDevice) : UInt32 := CEnum.code d

@[inherit_doc AiTaskClass.code]
abbrev AiEnergyMode.code (m : AiEnergyMode) : UInt32 := CEnum.code m

/-! ### Records -/

/-- `char comm[16]`. -/
abbrev Comm := Vector UInt8 16

/-- `struct ai_task_telemetry`. -/
structure AiTaskTelemetry where
  pid : UInt32
  uid : UInt32
  tsEnqueue : UInt64
  cpuUtilRecent : UInt32
  memoryRssMb : UInt32
  syscallCount : UInt64
  ioReadBytes : UInt32
  ioWriteBytes : UInt32
  numThreads : UInt32
  niceValue : UInt32
  schedClass : UInt32
  comm : Comm
  deriving DecidableEq, Repr

/-- A zeroed record, as unused ring-buffer memory holds it. -/
def AiTaskTelemetry.zero : AiTaskTelemetry :=
  ⟨0, 0, 0, 0, 0, 0, 0, 0, 0, 0, 0, Vector.replicate 16 0⟩

/-- `struct ai_sched_decision`. -/
structure AiSchedDecision where
  pid : UInt32
  taskClass : UInt32
  preferredDevice : UInt32
  cpuAffinityMask : UInt32
  timeSliceUs : UInt32
  priorityBoost : UInt32
  tsDecision : UInt64
  deriving DecidableEq, Repr

/-- A zeroed decision (`memset`). -/
def AiSchedDecision.zero : AiSchedDecision := ⟨0, 0, 0, 0, 0, 0, 0⟩

/-- `struct ai_sched_stats`. -/
structure AiSchedStats where
  tasksEnqueued : UInt64
  tasksDispatched : UInt64
  tasksAiRoutedCpu : UInt64
  tasksAiRoutedNpu : UInt64
  tasksBgRoutedEff : UInt64
  avgEnqueueLatencyUs : UInt64
  totalEnergyEstimateMj : UInt64
  deriving DecidableEq, Repr

/-- `struct ai_sched_stats empty_stats = {}`. -/
def AiSchedStats.empty : AiSchedStats := ⟨0, 0, 0, 0, 0, 0, 0⟩

/-! ### What the kernel hands to the programs -/

/-- `struct task_struct`, as far as the programs read it.  `mm` and `signal` are the
    pointers, `none` for `NULL`, with the one field read through them. -/
structure TaskStruct where
  pid : UInt32
  tgid : UInt32
  /-- `flags`, the `PF_*` bits. -/
  flags : UInt32
  /-- `__state`. -/
  state : UInt32
  prio : Int32
  staticPrio : Int32
  policy : UInt32
  /-- `signal->nr_threads`. -/
  signal : Option Int32
  /-- `mm->total_vm`, in pages. -/
  mm : Option UInt64
  /-- `se.avg.util_avg`. -/
  utilAvg : UInt64
  comm : Comm
  deriving DecidableEq, Repr

/-- An ordinary single-threaded user task of process `tgid`: nice 0, no memory to speak
    of, never run. -/
def TaskStruct.ordinary (tgid : UInt32) : TaskStruct where
  pid := tgid
  tgid := tgid
  flags := 0
  state := 0
  prio := 120
  staticPrio := 120
  policy := 0
  signal := some 1
  mm := some 0
  utilAvg := 0
  comm := Vector.replicate 16 0

/-- The task running on the CPU, as the `bpf_get_current_*` helpers see it. -/
structure CurrentTask where
  pid : UInt32
  tgid : UInt32
  uid : UInt32
  gid : UInt32
  deriving DecidableEq, Repr

/-- The main thread of process `tgid`, run by root. -/
def CurrentTask.leader (tgid : UInt32) : CurrentTask := ⟨tgid, tgid, 0, 0⟩

/-- `bpf_get_current_pid_tgid()`: the thread-group id above the thread id. -/
def bpfGetCurrentPidTgid (c : CurrentTask) : UInt64 :=
  c.tgid.toUInt64 <<< 32 ||| c.pid.toUInt64

/-- `bpf_get_current_uid_gid()`: the group id above the user id. -/
def bpfGetCurrentUidGid (c : CurrentTask) : UInt64 :=
  c.gid.toUInt64 <<< 32 ||| c.uid.toUInt64

/-- The upper half of `bpf_get_current_pid_tgid()` is the thread-group id. -/
@[simp] theorem bpfGetCurrentPidTgid_shiftRight (c : CurrentTask) :
    (bpfGetCurrentPidTgid c >>> 32).toUInt32 = c.tgid := by
  have hpid := c.pid.toNat_lt
  have htgid := c.tgid.toNat_lt
  -- the two halves do not overlap, so `|||` is an addition
  have hor : (c.tgid.toNat <<< 32 % 2 ^ 64 ||| c.pid.toNat)
      = c.tgid.toNat * 2 ^ 32 + c.pid.toNat := by
    have hlt : c.tgid.toNat <<< 32 < 2 ^ 64 := by rw [Nat.shiftLeft_eq]; omega
    rw [Nat.mod_eq_of_lt hlt, ← Nat.shiftLeft_add_eq_or_of_lt hpid, Nat.shiftLeft_eq]
  apply UInt32.toNat_inj.mp
  simp only [bpfGetCurrentPidTgid, UInt64.toNat_toUInt32, UInt64.toNat_shiftRight,
    UInt64.toNat_or, UInt64.toNat_shiftLeft, UInt32.toNat_toUInt64,
    show UInt64.toNat 32 % 64 = 32 from rfl]
  rw [hor, Nat.shiftRight_eq_div_pow]
  omega

end AieOs
