import AieOs.Kernel.Telemetry
import AieOs.Loop.DecisionStore

namespace AieOs

open Lib

/-!
# Decisions and the lifetime of processes

A pid is free for a new process once its process has exited.  `handle_sched_exit` removes
the accumulator of the exiting process; nothing removes its entry in `sched_decisions`,
which belongs to the other BPF object.  So a decision outlives its process whenever the
process exits with a decision stored, or a decision is stored after the exit.
-/

/-- A process: its pid, and how many processes were created before it. -/
structure Process where
  pid : UInt32
  birth : ℕ
  deriving DecidableEq

/-- The scheduler, the telemetry program and the kernel's processes. -/
structure LifetimeState where
  /-- The scheduler; the origin of a stored decision is the process it was computed for. -/
  traced : TracedSched Process
  telemetry : TelemetryMaps
  /-- The live process with a pid. -/
  live : UInt32 → Option Process
  /-- All processes created so far. -/
  created : List Process

/-- One event in the lifetime of processes. -/
inductive LifetimeEvent
  /-- A process is created: `handle_sched_fork`. -/
  | create (args : SchedProcessForkArgs) (reserved : Option AiTaskTelemetry)
  /-- A process exits: `handle_sched_exit`. -/
  | exit (args : SchedProcessExitArgs)
  /-- A task of a process is enqueued. -/
  | enqueue (ctx : HookCtx) (ptr : TaskPtr) (p : TaskStruct) (enqFlags : UInt64)
  /-- The decision writer stores a decision computed for `proc`. -/
  | writeDecision (decision : AiSchedDecision) (proc : Process)

namespace LifetimeState

/-- No process, no decision. -/
def start : LifetimeState := ⟨TracedSched.attached, .fresh, fun _ => none, []⟩

/-- The effect of one event. -/
def step (s : LifetimeState) : LifetimeEvent → LifetimeState
  | .create args reserved         =>
    -- no two processes have the same birth
    let proc : Process := ⟨args.childPid, s.created.length⟩
    { s with
      telemetry := handleSchedFork args reserved s.telemetry
      live := Function.update s.live args.childPid (some proc)
      created := s.created ++ [proc] }
  | .exit args                    =>
    { s with
      -- `sched_decisions` is another object's map, so nothing is deleted from it
      telemetry := handleSchedExit args s.telemetry
      live := Function.update s.live args.pid none }
  | .enqueue ctx ptr p enqFlags   => { s with traced := s.traced.enqueue ctx ptr p enqFlags }
  | .writeDecision decision proc  => { s with traced := s.traced.writeDecision decision proc }

/-- The pids that a decision is stored under. -/
def decided (s : LifetimeState) : List UInt32 := s.traced.sched.maps.schedDecisions.keys

/-- The decision stored under `pid` was not computed for the live process with that pid. -/
def DeadEntry (s : LifetimeState) (pid : UInt32) : Prop :=
  s.live pid = none ∨ s.traced.origin pid ≠ s.live pid

/-- Whether an entry is dead is seen at its origin. -/
instance (s : LifetimeState) (pid : UInt32) : Decidable (s.DeadEntry pid) :=
  inferInstanceAs (Decidable (_ ∨ _))

/-- No decision has outlived its process. -/
structure DecisionsLive (s : LifetimeState) : Prop where
  /-- Each key belongs to a live process, the one the decision was computed for. -/
  owned : ∀ pid ∈ s.decided, ∃ proc, s.live pid = some proc ∧ s.traced.origin pid = some proc
  /-- What is applied to a task was computed for its process. -/
  applied : ∀ p proc decision, s.live p.tgid = some proc →
    s.traced.decisionOf p = some decision → s.traced.origin p.tgid = some proc
  /-- Dead entries use up no slots. -/
  slots : s.decided.countP (fun pid => decide (s.DeadEntry pid)) = 0

end LifetimeState

/-- What the kernel and the daemon promise: a pid in use is not given out again, only live
    processes exit and run, and decisions are computed for processes that there were. -/
def LifetimeEvent.kernelOk (s : LifetimeState) : LifetimeEvent → Prop
  | .create args _               => s.live args.childPid = none
  | .exit args                   => s.live args.pid ≠ none
  | .enqueue _ _ p _             => s.live p.tgid ≠ none
  | .writeDecision decision proc => proc ∈ s.created ∧ decision.pid = proc.pid

/-- No process exits with a decision stored, and no decision is stored for a process that
    is no longer live. -/
def LifetimeEvent.leavesNoDecision (s : LifetimeState) : LifetimeEvent → Prop
  | .exit args                   => args.pid ∉ s.decided
  | .writeDecision decision proc => s.traced.Takes decision → s.live decision.pid = some proc
  | _                            => True

/-- What the environment promises can be checked. -/
instance (s : LifetimeState) : ∀ e : LifetimeEvent, Decidable (e.kernelOk s)
  | .create _ _        => inferInstanceAs (Decidable (_ = _))
  | .exit _            => inferInstanceAs (Decidable (_ ≠ _))
  | .enqueue _ _ _ _   => inferInstanceAs (Decidable (_ ≠ _))
  | .writeDecision _ _ => inferInstanceAs (Decidable (_ ∧ _))

/-- Whether an event leaves a decision behind can be checked. -/
instance (s : LifetimeState) : ∀ e : LifetimeEvent, Decidable (e.leavesNoDecision s)
  | .create _ _        => .isTrue trivial
  | .exit _            => inferInstanceAs (Decidable (_ ∉ _))
  | .enqueue _ _ _ _   => .isTrue trivial
  | .writeDecision _ _ => inferInstanceAs (Decidable (_ → _))

/-! ### One step -/

namespace LifetimeState

/-- Each stored decision was computed for the live process with its pid. -/
def Owned (s : LifetimeState) : Prop :=
  s.traced.Backed fun pid _ proc => s.live pid = some proc

variable {s : LifetimeState}

/-- A pid is decided iff a decision is found under it. -/
theorem mem_decided {pid : UInt32} :
    pid ∈ s.decided ↔
      ∃ decision, s.traced.sched.maps.schedDecisions.lookup pid = some decision := by
  rw [decided, BoundedMap.mem_keys_iff, Option.isSome_iff_exists]

/-- Decisions computed for live processes have not outlived them. -/
theorem Owned.decisionsLive (h : s.Owned) : s.DecisionsLive := by
  have howned : ∀ pid ∈ s.decided, ∃ proc, s.live pid = some proc ∧
      s.traced.origin pid = some proc := by
    intro pid hpid
    obtain ⟨decision, hd⟩ := mem_decided.mp hpid
    obtain ⟨proc, horigin, hlive⟩ := h pid decision hd
    exact ⟨proc, hlive, horigin⟩
  refine ⟨howned, ?_, ?_⟩
  · intro p proc decision hlive hd
    obtain ⟨proc', hlive', horigin⟩ := howned p.tgid (mem_decided.mpr ⟨decision, hd⟩)
    rw [horigin, ← hlive', hlive]
  · -- so no entry is dead
    rw [List.countP_eq_zero]
    intro pid hpid
    obtain ⟨proc, hlive, horigin⟩ := howned pid hpid
    simp [DeadEntry, hlive, horigin]

/-- An event that leaves no decision behind keeps all of them owned. -/
theorem Owned.step (h : s.Owned) {e : LifetimeEvent} (hk : e.kernelOk s)
    (he : e.leavesNoDecision s) : (s.step e).Owned := by
  cases e with
  | create args reserved =>
    -- the pid given out was free, so no decision is stored under it
    intro pid decision hd
    -- what is stored is about the process that was live before the event
    obtain ⟨proc, horigin, hlive⟩ := h pid decision hd
    have hne : pid ≠ args.childPid := by
      rintro rfl
      rw [show s.live args.childPid = none from hk] at hlive
      cases hlive
    exact ⟨proc, horigin, (Function.update_of_ne hne ..).trans hlive⟩
  | exit args =>
    intro pid decision hd
    obtain ⟨proc, horigin, hlive⟩ := h pid decision hd
    have hne : pid ≠ args.pid := by
      rintro rfl
      exact he (mem_decided.mpr ⟨decision, hd⟩)
    exact ⟨proc, horigin, (Function.update_of_ne hne ..).trans hlive⟩
  | enqueue ctx ptr p enqFlags => exact TracedSched.Backed.enqueue h ctx ptr p enqFlags
  | writeDecision decision proc => exact TracedSched.Backed.writeDecision h he

/-- An event that leaves a decision behind breaks the property at once. -/
theorem not_decisionsLive_step {e : LifetimeEvent} (he : ¬ e.leavesNoDecision s) :
    ¬ (s.step e).DecisionsLive := by
  intro hdecisions
  cases e with
  | exit args =>
    -- the decision of the process that exits is still stored, and nobody is live
    have hmem : args.pid ∈ s.decided := not_not.mp he
    obtain ⟨proc, hlive, -⟩ := hdecisions.owned args.pid hmem
    rw [show (s.step (.exit args)).live args.pid = none from Function.update_self ..] at hlive
    cases hlive
  | writeDecision decision proc =>
    obtain ⟨htakes, hdead⟩ := Classical.not_imp.mp he
    have hmem : decision.pid ∈ (s.step (.writeDecision decision proc)).decided :=
      mem_decided.mpr ⟨decision, TracedSched.writeDecision_lookup htakes proc⟩
    obtain ⟨proc', hlive, horigin⟩ := hdecisions.owned decision.pid hmem
    -- the decision is traced to a process that is not the live one
    have hstored : (s.traced.writeDecision decision proc).origin decision.pid = some proc := by
      rw [TracedSched.writeDecision_origin htakes, Function.update_self]
    have hsame : some proc' = some proc := horigin.symm.trans hstored
    exact hdead (hlive.trans hsame)
  | create args reserved => exact he trivial
  | enqueue ctx ptr p enqFlags => exact he trivial

end LifetimeState

/-! ### Results -/

/-- **Lifetime.** In every state of a run all stored decisions belong to live processes
    exactly if no process of the run exits with a decision stored and none is stored for a
    process that has exited. -/
theorem decisions_live_iff (es : List LifetimeEvent)
    (h : Throughout LifetimeState.step LifetimeEvent.kernelOk LifetimeState.start es) :
    Always LifetimeState.step LifetimeState.DecisionsLive LifetimeState.start es ↔
      Throughout LifetimeState.step LifetimeEvent.leavesNoDecision LifetimeState.start es := by
  apply always_iff_throughout (I := LifetimeState.Owned) _ _ _ _ h
  · exact TracedSched.backed_attached
  · exact fun s howned => howned.decisionsLive
  · exact fun s e howned hk he => howned.step hk he
  · exact fun s e _ _ he => LifetimeState.not_decisionsLive_step he

/-- The creation and the exit of process `pid`. -/
private def createOf (pid : UInt32) : LifetimeEvent :=
  .create ⟨Vector.replicate 16 0, 1, Vector.replicate 16 0, pid⟩ none

/-- Process `pid` exits. -/
private def exitOf (pid : UInt32) : LifetimeEvent := .exit ⟨Vector.replicate 16 0, pid, 120⟩

/-- Pid 7 is given to a second process while the decision for the first is stored. -/
private def reuseRun : List LifetimeEvent :=
  [createOf 7, .writeDecision { AiSchedDecision.zero with pid := 7 } ⟨7, 0⟩, exitOf 7, createOf 7,
    .enqueue .quiet 7 (.ordinary 7) 0]

/-- The second process is scheduled by the decision for the first. -/
theorem decisions_live_not_reuse :
    ¬ ∀ es, Throughout LifetimeState.step LifetimeEvent.kernelOk LifetimeState.start es →
      Always LifetimeState.step LifetimeState.DecisionsLive LifetimeState.start es := by
  intro hall
  have happlied := (hall reuseRun (by decide) reuseRun (List.prefix_refl _)).applied
    (.ordinary 7) ⟨7, 1⟩ { AiSchedDecision.zero with pid := 7 } (by decide) (by decide)
  exact absurd happlied (by decide)

/-- Process 8 exits; the decision is for process 7. -/
private def exitOtherRun : List LifetimeEvent :=
  [createOf 7, createOf 8, .writeDecision { AiSchedDecision.zero with pid := 7 } ⟨7, 0⟩, exitOf 8,
    .enqueue .quiet 7 (.ordinary 7) 0]

/-- A process without decision may exit. -/
theorem decisions_live_iff_exitOther :
    Always LifetimeState.step LifetimeState.DecisionsLive LifetimeState.start exitOtherRun :=
  (decisions_live_iff exitOtherRun (by decide)).mpr (by decide)

end AieOs
