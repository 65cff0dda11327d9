import AieOs.Kernel.Scx
import AieOs.Lib.BoundedMap

namespace AieOs

open Lib

/-!
# `ai_sched.bpf.c` — the scheduler

The maps of the scheduler's BPF object, its helper functions and its three hooks,
function by function.  Array maps have all their elements from the start, zeroed; a
lookup is `[·]?`, whose `none` is the `NULL` the code tests for.  The map
`task_energy_estimate`, which no function uses, is left out.

What a hook is given by the kernel besides its arguments — the task running on the CPU,
the clock, the reserved ring-buffer memory — is a `HookCtx`.
-/

/-! ### Dispatch queue ids and maps -/

/-- The dispatch queues `DSQ_PERF` … `DSQ_FALLBACK`. -/
inductive Dsq
  | perf | eff | gpu | npu | fallback
  deriving DecidableEq, Repr

namespace Dsq

/-- The DSQ number. -/
def id : Dsq → UInt64
  | .perf     => 0
  | .eff      => 1
  | .gpu      => 2
  | .npu      => 3
  | .fallback => 4

/-- The queues in the order of their numbers. -/
def all : List Dsq := [.perf, .eff, .gpu, .npu, .fallback]

/-- The list is complete. -/
theorem mem_all (d : Dsq) : d ∈ all := by cases d <;> decide

/-- No two DSQs have one id. -/
theorem id_injective : Function.Injective id := by
  intro d d' h
  cases d <;> cases d' <;> first | rfl | exact absurd h (by decide)

/-- So a DSQ may be named by its id. -/
@[simp] theorem id_inj {d d' : Dsq} : d.id = d'.id ↔ d = d' := id_injective.eq_iff

/-- `update_stats` takes the queue number as a `__u32`, which holds all of them. -/
@[simp] theorem id_toUInt32_inj {d d' : Dsq} : d.id.toUInt32 = d'.id.toUInt32 ↔ d = d' := by
  cases d <;> cases d' <;> decide

end Dsq

/-- The map `sched_decisions`, from a pid to the daemon's decision. -/
abbrev SchedDecisions := BoundedMap UInt32 AiSchedDecision 16384

/-- The maps of the scheduler's BPF object. -/
structure SchedMaps where
  /-- The records submitted to `telemetry_ringbuf` and not yet consumed. -/
  telemetryRingbuf : List AiTaskTelemetry
  schedDecisions : SchedDecisions
  energyMode : Vector UInt32 1
  timeSlices : Vector UInt64 5
  schedStats : Vector AiSchedStats 1

/-- The maps as the kernel creates them. -/
def SchedMaps.fresh : SchedMaps where
  telemetryRingbuf := []
  schedDecisions := BoundedMap.empty
  energyMode := Vector.replicate 1 0
  timeSlices := Vector.replicate 5 0
  schedStats := Vector.replicate 1 AiSchedStats.empty

/-- What the kernel provides to one run of a hook. -/
structure HookCtx where
  /-- The task running on this CPU. -/
  current : CurrentTask
  /-- `bpf_ktime_get_ns()`. -/
  ktime : UInt64
  /-- `bpf_ringbuf_reserve()`: the reserved memory with its leftover contents, `none` for
      `NULL`. -/
  reserved : Option AiTaskTelemetry
  deriving DecidableEq, Repr

/-- An idle CPU, the clock at zero, the ring buffer full. -/
def HookCtx.quiet : HookCtx := ⟨.leader 0, 0, none⟩

/-! ### Helper functions -/

/-- `get_energy_mode`. -/
def getEnergyMode (m : SchedMaps) : UInt32 :=
  match m.energyMode[0]? with
  | some mode => mode
  | none      => AiEnergyMode.balanced.code

/-- The default slices of `get_time_slice_ns`, "if not configured". -/
def defaultTimeSliceNs (taskClass : UInt32) : UInt64 :=
  match ofCode? taskClass with
  | some AiTaskClass.realtimeAi    => 1000000
  | some AiTaskClass.interactiveAi => 2000000
  | some AiTaskClass.batchAi       => 10000000
  | some AiTaskClass.background    => 20000000
  | _                              => 5000000

/-- `get_time_slice_ns`. -/
def getTimeSliceNs (m : SchedMaps) (taskClass : UInt32) : UInt64 :=
  let key := taskClass % 5
  match m.timeSlices[key.toNat]? with
  | some slice => slice
  -- never reached: an array map has all its elements
  | none       => defaultTimeSliceNs taskClass

/-- `(__u32)((vm * 4096) >> 20)`: pages as megabytes. -/
def pagesToMb (vm : UInt64) : UInt32 := ((vm * 4096) >>> 20).toUInt32

/-- `classify_task_fallback`; its telemetry argument is not read. -/
def classifyTaskFallback (p : TaskStruct) : AiTaskClass :=
  -- kernel threads and system tasks
  if p.flags &&& (0x00200000 ||| 0x00000002) ≠ 0 then .background
  else
    let numThreads : UInt32 :=
      match p.signal with
      | some nrThreads => nrThreads.toUInt32
      | none           => 1
    let memoryMb : UInt32 :=
      match p.mm with
      | some totalVm => pagesToMb totalVm
      | none         => 0
    -- runnable with a realtime priority
    if p.state = 0 ∧ p.prio < 100 then .realtimeAi
    -- several threads and significant memory
    else if numThreads > 4 ∧ memoryMb > 50 then .batchAi
    -- one large process
    else if memoryMb > 200 then .interactiveAi
    -- low priority
    else if p.prio > 130 then .background
    else .unknown

/-- The second switch of `select_dsq`: by class, and for batch work by energy mode. -/
def dsqForClass (energy taskClass : UInt32) : Dsq :=
  match ofCode? taskClass with
  | some AiTaskClass.realtimeAi    => .perf
  | some AiTaskClass.interactiveAi => .perf
  | some AiTaskClass.batchAi       =>
    if energy = AiEnergyMode.efficient.code ∨ energy = AiEnergyMode.powerSaver.code then .eff
    else .perf
  | some AiTaskClass.background    => .eff
  | _                              => .fallback

/-- `select_dsq`. -/
def selectDsq (m : SchedMaps) (taskClass preferredDevice : UInt32) : Dsq :=
  let energy := getEnergyMode m
  if preferredDevice ≠ AiComputeDevice.auto.code then
    -- an explicit preference of the daemon is respected, unless it is out of range
    match ofCode? preferredDevice with
    | some AiComputeDevice.perfCore => .perf
    | some AiComputeDevice.effCore  => .eff
    | some AiComputeDevice.gpu      => .gpu
    | some AiComputeDevice.npu      => .npu
    | _                             => dsqForClass energy taskClass
  else dsqForClass energy taskClass

/-- The record `emit_telemetry` writes into the reserved memory `telem`. -/
def telemetryRecord (ctx : HookCtx) (p : TaskStruct) (telem : AiTaskTelemetry) :
    AiTaskTelemetry :=
  { telem with
    -- of the task running on the CPU, not of `p`
    pid := (bpfGetCurrentPidTgid ctx.current >>> 32).toUInt32
    uid := (bpfGetCurrentUidGid ctx.current &&& 0xFFFFFFFF).toUInt32
    tsEnqueue := ctx.ktime
    memoryRssMb :=
      match p.mm with
      | some totalVm => pagesToMb totalVm
      | none         => 0
    numThreads :=
      match p.signal with
      | some nrThreads => nrThreads.toUInt32
      | none           => 1
    cpuUtilRecent := (p.utilAvg >>> 2).toUInt32
    syscallCount := 0
    ioReadBytes := 0
    ioWriteBytes := 0
    niceValue := (p.staticPrio - 120).toUInt32
    schedClass := p.policy
    comm := p.comm }

/-- What `emit_telemetry` submits: nothing when the ring buffer is full. -/
def emittedRecord (ctx : HookCtx) (p : TaskStruct) : Option AiTaskTelemetry :=
  ctx.reserved.map (telemetryRecord ctx p)

/-- `emit_telemetry`; its argument `enqueue_ts` is not read. -/
def emitTelemetry (ctx : HookCtx) (p : TaskStruct) (m : SchedMaps) : SchedMaps :=
  match emittedRecord ctx p with
  -- the ring buffer is full: the sample is dropped
  | none       => m
  | some telem => { m with telemetryRingbuf := m.telemetryRingbuf ++ [telem] }

/-- A preference is one of the four devices, or leaves the choice to the scheduler. -/
theorem preferredDevice_cases (d : UInt32) :
    d = AiComputeDevice.perfCore.code ∨ d = AiComputeDevice.effCore.code ∨
      d = AiComputeDevice.gpu.code ∨ d = AiComputeDevice.npu.code ∨
      AiComputeDevice.auto.code ≤ d := by
  simp only [AiComputeDevice.code, CEnum.code]
  grind

section
variable (m : SchedMaps) (taskClass : UInt32)

/-- A device other than `AUTO` is taken as it is: a performance core, -/
@[simp] theorem selectDsq_perfCore :
    selectDsq m taskClass AiComputeDevice.perfCore.code = .perf := rfl

/-- an efficiency core, -/
@[simp] theorem selectDsq_effCore :
    selectDsq m taskClass AiComputeDevice.effCore.code = .eff := rfl

/-- the GPU, -/
@[simp] theorem selectDsq_gpu : selectDsq m taskClass AiComputeDevice.gpu.code = .gpu := rfl

/-- and the NPU. -/
@[simp] theorem selectDsq_npu : selectDsq m taskClass AiComputeDevice.npu.code = .npu := rfl

/-- Without a usable preference the class decides. -/
theorem selectDsq_of_auto_le {d : UInt32} (h : AiComputeDevice.auto.code ≤ d) :
    selectDsq m taskClass d = dsqForClass (getEnergyMode m) taskClass := by
  unfold selectDsq
  split
  · cases hd : (ofCode? d : Option AiComputeDevice) with
    | none => rfl
    | some k =>
      -- the four devices have smaller codes
      have hk : k.code = d := ofCode?_eq_some_iff.mp hd
      subst hk
      cases k with
      | auto => rfl
      | _ => exact absurd h (by decide)
  · rfl

end

/-- The counters after `update_stats` has found them. -/
def countRoute (taskClass targetDsq : UInt32) (stats : AiSchedStats) : AiSchedStats :=
  let stats := { stats with tasksEnqueued := stats.tasksEnqueued + 1 }
  -- only the counter of the performance queue looks at the class
  if targetDsq = Dsq.perf.id.toUInt32 ∧ taskClass < AiTaskClass.background.code then
    { stats with tasksAiRoutedCpu := stats.tasksAiRoutedCpu + 1 }
  else if targetDsq = Dsq.npu.id.toUInt32 then
    { stats with tasksAiRoutedNpu := stats.tasksAiRoutedNpu + 1 }
  else if targetDsq = Dsq.eff.id.toUInt32 then
    { stats with tasksBgRoutedEff := stats.tasksBgRoutedEff + 1 }
  else stats

/-- `update_stats`. -/
def updateStats (taskClass targetDsq : UInt32) (m : SchedMaps) : SchedMaps :=
  match m.schedStats[0]? with
  | none       => m
  | some stats =>
    { m with schedStats := m.schedStats.setIfInBounds 0 (countRoute taskClass targetDsq stats) }

/-! ### The hooks -/

/-- The scheduler: its maps and the kernel's queues. -/
structure SchedState where
  maps : SchedMaps
  scx : Scx

/-- `ai_sched_init`, where `scx_bpf_create_dsq(id, -1)` returns `createRet id`. -/
def aiSchedInit (createRet : UInt64 → Int32) (s : SchedState) : Int32 × SchedState :=
  let create (d : Dsq) (scx : Scx) : Scx := scx.scxBpfCreateDsq (createRet d.id) d.id
  let scx := create .perf s.scx
  let scx := create .eff scx
  let scx := create .gpu scx
  let scx := create .npu scx
  let scx := create .fallback scx
  -- the results of the five calls are not looked at, and `time_slices` is left alone
  (0,
    { scx
      maps :=
        { s.maps with
          energyMode := s.maps.energyMode.setIfInBounds 0 AiEnergyMode.balanced.code
          schedStats := s.maps.schedStats.setIfInBounds 0 AiSchedStats.empty } })

/-- The class, device preference and slice of a task being enqueued. -/
structure EnqueueChoice where
  taskClass : UInt32
  preferredDevice : UInt32
  timeSliceNs : UInt64
  deriving DecidableEq, Repr

/-- The first part of `ai_sched_enqueue`: the daemon's decision for the process if there
    is one, else the fallback classification. -/
def enqueueChoice (m : SchedMaps) (p : TaskStruct) : EnqueueChoice :=
  let pid := p.tgid
  match m.schedDecisions.lookup pid with
  -- the fast path: the daemon's decision, with its slice in microseconds
  | some decision =>
    { taskClass := decision.taskClass
      preferredDevice := decision.preferredDevice
      timeSliceNs := decision.timeSliceUs.toUInt64 * 1000 }
  | none =>
    let taskClass := (classifyTaskFallback p).code
    { taskClass
      preferredDevice := AiComputeDevice.auto.code
      timeSliceNs := getTimeSliceNs m taskClass }

/-- `ai_sched_enqueue`, which returns 0. -/
def aiSchedEnqueue (ctx : HookCtx) (ptr : TaskPtr) (p : TaskStruct) (enqFlags : UInt64)
    (s : SchedState) : SchedState :=
  let choice := enqueueChoice s.maps p
  -- telemetry is emitted for every task, decided or not
  let maps := emitTelemetry ctx p s.maps
  let targetDsq := (selectDsq maps choice.taskClass choice.preferredDevice).id
  let maps := updateStats choice.taskClass targetDsq.toUInt32 maps
  { maps, scx := s.scx.scxBpfDsqInsert ptr targetDsq choice.timeSliceNs enqFlags }

/-- `ai_sched_dispatch` on CPU `cpu`, where the tasks `allowed` may run; returns 0. -/
def aiSchedDispatch (allowed : TaskPtr → Bool) (cpu : Int32) (s : SchedState) : SchedState :=
  match s.scx.scxBpfDsqMoveToLocal allowed cpu Dsq.perf.id with
  | (true, scx)  => { s with scx }
  | (false, scx) =>
  match scx.scxBpfDsqMoveToLocal allowed cpu Dsq.eff.id with
  | (true, scx)  => { s with scx }
  | (false, scx) =>
  match scx.scxBpfDsqMoveToLocal allowed cpu Dsq.gpu.id with
  | (true, scx)  => { s with scx }
  | (false, scx) =>
  match scx.scxBpfDsqMoveToLocal allowed cpu Dsq.npu.id with
  | (true, scx)  => { s with scx }
  | (false, scx) =>
  match scx.scxBpfDsqMoveToLocal allowed cpu Dsq.fallback.id with
  | (true, scx)  => { s with scx }
  | (false, scx) => { s with scx }

end AieOs
