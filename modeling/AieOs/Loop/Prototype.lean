import AieOs.Daemon.Startup
import AieOs.Kernel.ServiceOrder
import AieOs.Loop.Rings

namespace AieOs

open Lib

/-!
# The feedback loop is open

The scheduler, the telemetry program and the daemon together, as they are: `write_decisions` is
in "prototype mode", returns 0 and stores nothing, and the daemon polls the ring buffer of the
telemetry program.  So nothing that the daemon does reaches the scheduler, which inserts each
task by what it knows about the task alone, with the slice 0.

* `System.step` — one call of a hook or a handler, or one iteration of a worker;
* `System.loop_open` — what the scheduler does in any run.
-/

/-- `DecisionWriter::write_decisions`: the return value, and `sched_decisions` afterwards. -/
def DecisionWriter.writeDecisions (_ : List AiSchedDecision) (m : SchedDecisions) :
    Int32 × SchedDecisions := (0, m)

/-- The two BPF objects and the daemon, if it runs. -/
structure System where
  producers : Producers
  daemon : Option ConfiguredDaemon

/-- One event of the system. -/
inductive SystemEvent
  /-- `ai_sched_enqueue`, with the memory that its record may get. -/
  | enqueue (current : CurrentTask) (ktime : UInt64) (ptr : TaskPtr) (p : TaskStruct)
      (enqFlags : UInt64) (leftover : AiTaskTelemetry)
  /-- `ai_sched_dispatch` on `cpu`, on which the tasks `allowed` may then run. -/
  | dispatch (cpu : Int32) (allowed : TaskPtr → Bool)
  /-- `cpu` runs the first task of its local queue. -/
  | runLocal (cpu : Int32)
  /-- `handle_sched_fork`, with the memory that its record may get. -/
  | fork (args : SchedProcessForkArgs) (leftover : AiTaskTelemetry)
  | exit (args : SchedProcessExitArgs)
  | sysEnter (current : CurrentTask)
  | blockRqIssue (current : CurrentTask)
  /-- An iteration of `telemetry_worker`, the poll of which may fail. -/
  | telemetryWorker (failure : Option { c : Int32 // c < 0 }) (calls : ℕ → ClassifyCall)
  /-- An iteration of `decision_worker`. -/
  | decisionWorker

namespace System

/-- Both objects are loaded and the scheduler is attached. -/
def start (daemon : Option ConfiguredDaemon) : System := ⟨⟨.attached .fresh, .fresh⟩, daemon⟩

/-- What an iteration of `telemetry_worker` polls. -/
def poll (ring : List AiTaskTelemetry) : Option { c : Int32 // c < 0 } → PollOutcome
  | some code => .error code
  | none      => drain ring

/-- The effect of one event.  An iteration may end the daemon; the kernel goes on. -/
def step (s : System) : SystemEvent → System
  | .enqueue current ktime ptr p enqFlags leftover =>
    let room := hasRoom schedRingBytes s.producers.sched.maps.telemetryRingbuf
    { s with producers := s.producers.step (.enqueue current ktime ptr p enqFlags room, leftover) }
  | .dispatch cpu allowed =>
    { s with producers.sched := aiSchedDispatch allowed cpu s.producers.sched }
  | .runLocal cpu =>
    { s with producers.sched.scx := s.producers.sched.scx.runLocal cpu }
  | .fork args leftover =>
    let room := hasRoom telemetryRingBytes s.producers.telemetry.telemetryRingbuf
    { s with producers := s.producers.step (.fork args room, leftover) }
  | .exit args =>
    { s with producers.telemetry := handleSchedExit args s.producers.telemetry }
  | .sysEnter current =>
    { s with producers.telemetry := handleSysEnter current s.producers.telemetry }
  | .blockRqIssue current =>
    { s with producers.telemetry := handleBlockRqIssue current s.producers.telemetry }
  | .telemetryWorker failure calls =>
    match s.daemon with
    | none        => s
    | some daemon =>
      let ring := s.producers.telemetry.telemetryRingbuf
      let kept := if daemon.daemon.telemetryReader.ringbufCtx ∧ failure = none then [] else ring
      { producers.sched := s.producers.sched
        producers.telemetry := { s.producers.telemetry with telemetryRingbuf := kept }
        daemon := daemon.step (.telemetry (poll ring failure) calls) }
  | .decisionWorker =>
    match s.daemon with
    | none        => s
    | some daemon =>
      let decisions := daemon.daemon.pendingDecisions
      let m := s.producers.sched.maps.schedDecisions
      -- `push_decisions` has nothing to write if there are no decisions
      let (ret, m) :=
        if decisions.isEmpty then (0, m) else DecisionWriter.writeDecisions decisions m
      { producers.sched :=
          { s.producers.sched with maps := { s.producers.sched.maps with schedDecisions := m } }
        producers.telemetry := s.producers.telemetry
        daemon := daemon.step (.push ret) }

/-- The tasks that a run enqueues, each with its flags. -/
def enqueued (es : List SystemEvent) : List (TaskPtr × TaskStruct × UInt64) :=
  es.filterMap fun
    | .enqueue _ _ ptr p enqFlags _ => some (ptr, p, enqFlags)
    | _                             => none

/-- The queue of a task: that of its fallback class, in the balanced mode. -/
def fallbackDsq (p : TaskStruct) : Dsq :=
  dsqForClass AiEnergyMode.balanced.code (classifyTaskFallback p).code

/-- The insertions of these tasks, the slice of each being 0. -/
def insertions (tasks : List (TaskPtr × TaskStruct × UInt64)) : List (UInt64 × DsqEntry) :=
  tasks.mapIdx fun i x => ((fallbackDsq x.2.1).id, ⟨i, x.1, 0, x.2.2⟩)

/-! ### The scheduler alone -/

/-- The event of the scheduler, if it is one. -/
def hook (s : SchedState) : SystemEvent → Option SchedEvent
  | .enqueue current ktime ptr p enqFlags leftover =>
    let room := hasRoom schedRingBytes s.maps.telemetryRingbuf
    some (.enqueue ⟨current, ktime, bpfRingbufReserve room leftover⟩ ptr p enqFlags)
  | .dispatch cpu allowed => some (.dispatch cpu allowed)
  | .runLocal cpu         => some (.runLocal cpu)
  | _                     => none

/-- The scheduler's part in an event. -/
def schedStep (s : SchedState) (e : SystemEvent) : SchedState :=
  match hook s e with
  | some e => s.step e
  | none   => s

/-- The scheduler takes no notice of the daemon. -/
theorem step_sched (s : System) (e : SystemEvent) :
    (s.step e).producers.sched = schedStep s.producers.sched e := by
  cases e with
  | telemetryWorker failure calls =>
    cases hdaemon : s.daemon <;> simp [step, hdaemon, schedStep, hook]
  | decisionWorker =>
    cases hdaemon : s.daemon with
    | none => simp [step, hdaemon, schedStep, hook]
    | some daemon =>
      -- `write_decisions` stores nothing, so the map stays in either case
      cases hempty : daemon.daemon.pendingDecisions.isEmpty <;>
        simp [step, hdaemon, hempty, schedStep, hook, DecisionWriter.writeDecisions]
  | _ => rfl

/-- The scheduler's part of a run. -/
theorem run_sched (s : System) (es : List SystemEvent) :
    (run step s es).producers.sched = run schedStep s.producers.sched es := by
  induction es generalizing s with
  | nil => rfl
  | cons e es ih => rw [run_cons, run_cons, ih, step_sched]

/-! ### What it inserts -/

/-- The maps are as `ai_sched_init` left them. -/
structure Unconfigured (s : SchedState) : Prop where
  schedDecisions : s.maps.schedDecisions = BoundedMap.empty
  energyMode : s.maps.energyMode = Vector.replicate 1 AiEnergyMode.balanced.code
  timeSlices : s.maps.timeSlices = Vector.replicate 5 0

/-- Fresh maps are unconfigured. -/
theorem unconfigured_attached : Unconfigured (.attached .fresh) := ⟨rfl, rfl, rfl⟩

section
variable {s : SchedState}

/-- Without decisions an enqueue uses the fallback class and a slice of zero. -/
theorem Unconfigured.enqueueChoice (h : Unconfigured s) (p : TaskStruct) :
    enqueueChoice s.maps p
      = ⟨(classifyTaskFallback p).code, AiComputeDevice.auto.code, 0⟩ := by
  have hslice : getTimeSliceNs s.maps (classifyTaskFallback p).code = 0 := by
    rw [getTimeSliceNs, h.timeSlices]
    cases classifyTaskFallback p <;> rfl
  simp only [AieOs.enqueueChoice, h.schedDecisions, BoundedMap.lookup_empty, hslice]

/-- Without energy mode the class decides alone. -/
theorem Unconfigured.enqueueDsq (h : Unconfigured s) (p : TaskStruct) :
    enqueueDsq s.maps p = fallbackDsq p := by
  have henergy : getEnergyMode s.maps = AiEnergyMode.balanced.code := by
    rw [getEnergyMode, h.energyMode]
    rfl
  rw [AieOs.enqueueDsq, h.enqueueChoice, selectDsq_of_auto_le _ _ (UInt32.le_refl _), henergy]
  rfl

/-- No hook writes a map that the choice depends on. -/
theorem Unconfigured.schedStep (h : Unconfigured s) (e : SystemEvent) :
    Unconfigured (schedStep s e) := by
  cases e with
  | enqueue current ktime ptr p enqFlags leftover =>
    exact ⟨by simpa [System.schedStep, hook, SchedState.step] using h.schedDecisions,
      by simpa [System.schedStep, hook, SchedState.step] using h.energyMode,
      by simpa [System.schedStep, hook, SchedState.step] using h.timeSlices⟩
  | dispatch cpu allowed =>
    have hmaps : (System.schedStep s (.dispatch cpu allowed)).maps = s.maps :=
      SchedState.aiSchedDispatch_maps allowed cpu s
    exact ⟨hmaps ▸ h.schedDecisions, hmaps ▸ h.energyMode, hmaps ▸ h.timeSlices⟩
  | _ => exact ⟨h.schedDecisions, h.energyMode, h.timeSlices⟩

/-- Only an enqueue inserts. -/
theorem Unconfigured.inserted_schedStep (h : Unconfigured s) (e : SystemEvent) :
    (System.schedStep s e).scx.inserted
      = s.scx.inserted ++ (enqueued [e]).map fun x =>
          ((fallbackDsq x.2.1).id, ⟨s.scx.inserted.length, x.1, 0, x.2.2⟩) := by
  cases e with
  | enqueue current ktime ptr p enqFlags leftover =>
    show (aiSchedEnqueue _ ptr p enqFlags s).scx.inserted = _
    rw [aiSchedEnqueue_scx, h.enqueueDsq, h.enqueueChoice]
    rfl
  | dispatch cpu allowed =>
    exact AieOs.step_inserted s (.dispatch cpu allowed)
  | _ => exact (List.append_nil _).symm

end

/-- **Open loop.** In every run, whatever the daemon is and does, the scheduler is as it would be
    without it, and has inserted each task into the queue of its fallback class, slice 0. -/
theorem loop_open (daemon : Option ConfiguredDaemon) (es : List SystemEvent) :
    (run step (start daemon) es).producers.sched = (run step (start none) es).producers.sched ∧
      (run step (start daemon) es).producers.sched.scx.inserted = insertions (enqueued es) := by
  rw [run_sched, run_sched]
  refine ⟨rfl, ?_⟩
  -- the scheduler reads no map that anyone has written to
  suffices hrun : Unconfigured (run schedStep (.attached .fresh) es) ∧
      (run schedStep (.attached .fresh) es).scx.inserted = insertions (enqueued es) from hrun.2
  induction es using List.reverseRecOn with
  | nil => exact ⟨unconfigured_attached, rfl⟩
  | append_singleton es e ih =>
    rw [run_concat, ih.1.inserted_schedStep, ih.2]
    refine ⟨ih.1.schedStep e, ?_⟩
    have hconcat : enqueued (es ++ [e]) = enqueued es ++ enqueued [e] := List.filterMap_append
    rw [hconcat]
    cases e <;> simp [insertions, enqueued]

end System

end AieOs
