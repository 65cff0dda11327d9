import AieOs.Daemon.Shutdown
import AieOs.Lib.Fairness

namespace AieOs

open Lib

/-!
# The end of the daemon

`run` joins both workers before it returns, and `main` returns without them only if they were
never started.  So no worker outlives the daemon object, and once `running_` is cleared after
`init`, the process ends on every fair schedule of its threads.

* `DaemonProcess.Joined` — what the main thread knows about the workers;
* `DaemonProcess.shutdown_terminates` — the end of the process.
-/

/-- The threads of the process. -/
inductive DaemonThread
  | main | telemetryWorker | decisionWorker
  deriving DecidableEq

/-- The thread that takes a step; a signal is nobody's turn. -/
def ProcessEvent.turn : ProcessEvent → DaemonThread → Prop
  | .main _, thread          => thread = .main
  | .telemetryWorker, thread => thread = .telemetryWorker
  | .decisionWorker, thread  => thread = .decisionWorker
  | _, _                     => False

namespace MainPc

/-- `init` has set `running_`. -/
def pastInit : MainPc → Bool
  | .testInitialised | .spawnTelemetry | .spawnDecision | .testRunning | .logStats
  | .joinTelemetry | .joinDecision | .destroy _ | .returned _ => true
  | _ => false

/-- Whether a worker that the main thread spawns at `spawn` and joins at `join` is spawned,
    and whether it is joined. -/
def telemetryWorker : MainPc → Bool × Bool
  | .spawnDecision | .testRunning | .logStats | .joinTelemetry => (true, false)
  | .joinDecision                                               => (true, true)
  | .destroy ret | .returned ret                                => (ret = 0, ret = 0)
  | _                                                           => (false, false)

@[inherit_doc telemetryWorker]
def decisionWorker : MainPc → Bool × Bool
  | .testRunning | .logStats | .joinTelemetry | .joinDecision => (true, false)
  | .destroy ret | .returned ret                              => (ret = 0, ret = 0)
  | _                                                         => (false, false)

/-- How many steps are left at most, once `running_` is cleared. -/
def stepsLeft : MainPc → ℕ
  | .spawnTelemetry  => 8
  | .spawnDecision   => 7
  | .testInitialised => 9
  | .logStats        => 6
  | .testRunning     => 5
  | .joinTelemetry   => 4
  | .joinDecision    => 3
  | .destroy _       => 2
  | _                => 0

end MainPc

/-- How many steps a worker has left at most. -/
def WorkerPc.stepsLeft : WorkerPc → ℕ
  | .notStarted  => 3
  | .body        => 2
  | .testRunning => 1
  | .finished    => 0

/-- A worker is where it is known to be. -/
def WorkerPc.Known (known : Bool × Bool) (pc : WorkerPc) : Prop :=
  (known.1 = false ↔ pc = .notStarted) ∧ (known.2 = true → pc = .finished)

namespace DaemonProcess

/-- What the main thread knows about the workers. -/
structure Joined (s : DaemonProcess) : Prop where
  telemetryWorker : s.telemetryWorker.Known s.main.telemetryWorker
  decisionWorker : s.decisionWorker.Known s.main.decisionWorker

variable {s : DaemonProcess}

/-! ### One step -/

/-- Before `main` no worker is spawned. -/
theorem joined_initial : Joined initial := by
  constructor <;> simp [initial, WorkerPc.Known, MainPc.telemetryWorker, MainPc.decisionWorker]

/-- A step of a worker does not change what is known about it. -/
theorem known_workerStep {known : Bool × Bool} {pc : WorkerPc} (h : pc.Known known)
    (running : Bool) : (workerStep running pc).1.Known known := by
  obtain ⟨hspawned, hjoined⟩ := h
  cases pc with
  | notStarted => exact ⟨hspawned, hjoined⟩
  | testRunning =>
    refine ⟨?_, fun hknown => absurd (hjoined hknown) (by simp)⟩
    cases running <;> simpa [workerStep] using hspawned
  | body =>
    refine ⟨?_, fun hknown => absurd (hjoined hknown) (by simp)⟩
    simpa [workerStep] using hspawned
  | finished => exact ⟨hspawned, hjoined⟩

/-- A spawn or a join makes known what it does to its worker. -/
theorem Joined.mainStep (h : Joined s) (ok : Bool) : Joined (s.mainStep ok) := by
  have htelemetry := h.telemetryWorker
  have hdecision := h.decisionWorker
  unfold DaemonProcess.mainStep
  cases hpc : s.main with
  | spawnTelemetry =>
    rw [hpc] at hdecision
    exact ⟨⟨by simp [MainPc.telemetryWorker], by simp [MainPc.telemetryWorker]⟩, hdecision⟩
  | spawnDecision =>
    rw [hpc] at htelemetry
    exact ⟨htelemetry, ⟨by simp [MainPc.decisionWorker], by simp [MainPc.decisionWorker]⟩⟩
  | joinTelemetry =>
    rw [hpc] at htelemetry hdecision
    dsimp only
    split
    · rename_i hfinished
      exact ⟨⟨htelemetry.1, fun _ => hfinished⟩, hdecision⟩
    · exact h
  | joinDecision =>
    rw [hpc] at htelemetry hdecision
    dsimp only
    split
    · rename_i hfinished
      exact ⟨htelemetry, ⟨hdecision.1, fun _ => hfinished⟩⟩
    · exact h
  | returned ret => exact h
  | _ =>
    -- the workers are known as before, whichever way `init` and the tests go
    rw [hpc] at htelemetry hdecision
    first
      | exact ⟨htelemetry, hdecision⟩
      | dsimp only; split <;> exact ⟨htelemetry, hdecision⟩

/-- No step contradicts what is known. -/
theorem Joined.step (h : Joined s) (e : ProcessEvent) : Joined (s.step e) := by
  cases e with
  | main ok => exact h.mainStep ok
  | telemetryWorker =>
    refine ⟨?_, ?_⟩
    · have hknown := known_workerStep h.telemetryWorker s.running
      simp only [DaemonProcess.step]
      split <;> exact hknown
    · simp only [DaemonProcess.step]
      split <;> exact h.decisionWorker
  | decisionWorker =>
    refine ⟨?_, ?_⟩
    · simp only [DaemonProcess.step]
      split <;> exact h.telemetryWorker
    · have hknown := known_workerStep h.decisionWorker s.running
      simp only [DaemonProcess.step]
      split <;> exact hknown
  | sigint =>
    simp only [DaemonProcess.step, signalHandler]
    split_ifs <;> exact ⟨h.telemetryWorker, h.decisionWorker⟩
  | sigterm =>
    simp only [DaemonProcess.step, signalHandler]
    split_ifs <;> exact ⟨h.telemetryWorker, h.decisionWorker⟩

/-- What is known is so in every run. -/
theorem joined_run (es : List ProcessEvent) : Joined (run step initial es) :=
  run_induction (C := fun _ _ => True) joined_initial (fun _ e h _ => h.step e)
    (throughout_of_forall fun _ _ => trivial)

/-! ### After a shutdown -/

/-- `init` is over, and `running_` is cleared. -/
structure Stopping (s : DaemonProcess) : Prop where
  joined : Joined s
  pastInit : s.main.pastInit = true
  notRunning : s.running = false

/-- `main` has returned. -/
def Returned (s : DaemonProcess) : Prop := ∃ ret, s.main = .returned ret

/-- How many steps the threads have left at most. -/
def stepsLeft (s : DaemonProcess) : ℕ :=
  s.main.stepsLeft + s.telemetryWorker.stepsLeft + s.decisionWorker.stepsLeft

/-- The thread that the process waits for. -/
def awaited (s : DaemonProcess) : DaemonThread :=
  match s.main with
  | .joinTelemetry => if s.telemetryWorker = .finished then .main else .telemetryWorker
  | .joinDecision  => if s.decisionWorker = .finished then .main else .decisionWorker
  | _              => .main

/-- A signal changes nothing any more. -/
theorem Stopping.signalHandler (h : Stopping s) :
    Stopping s.signalHandler ∧ s.signalHandler.stepsLeft = s.stepsLeft ∧
      s.signalHandler.awaited = s.awaited := by
  unfold DaemonProcess.signalHandler
  split
  · exact ⟨⟨⟨h.joined.telemetryWorker, h.joined.decisionWorker⟩, h.pastInit, rfl⟩, rfl, rfl⟩
  · exact ⟨h, rfl, rfl⟩

/-- The main thread goes on, or waits for a worker. -/
theorem Stopping.mainStep (h : Stopping s) (hret : ¬ Returned s) (ok : Bool) :
    Stopping (s.mainStep ok) ∧
      ((s.mainStep ok).stepsLeft < s.stepsLeft ∨ s.mainStep ok = s ∧ s.awaited ≠ .main) := by
  have hjoined := h.joined.mainStep ok
  have hpast := h.pastInit
  have hrun := h.notRunning
  cases hpc : s.main with
  -- a worker that is spawned now has one step left, less than `notStarted` counts
  | spawnTelemetry =>
    have hnew : s.telemetryWorker = .notStarted := by
      simpa [WorkerPc.Known, hpc, MainPc.telemetryWorker] using h.joined.telemetryWorker
    refine ⟨⟨hjoined, ?_, ?_⟩, .inl ?_⟩ <;>
      simp [DaemonProcess.mainStep, hpc, hrun, hnew, MainPc.pastInit, stepsLeft, MainPc.stepsLeft,
        WorkerPc.stepsLeft]
  | spawnDecision =>
    have hnew : s.decisionWorker = .notStarted := by
      simpa [WorkerPc.Known, hpc, MainPc.decisionWorker] using h.joined.decisionWorker
    have hlt : 5 + s.telemetryWorker.stepsLeft + WorkerPc.testRunning.stepsLeft
        < 7 + s.telemetryWorker.stepsLeft + WorkerPc.notStarted.stepsLeft := by
      simp only [WorkerPc.stepsLeft]
      omega
    refine ⟨⟨hjoined, ?_, ?_⟩, .inl ?_⟩
    · simp [DaemonProcess.mainStep, hpc, MainPc.pastInit]
    · simp [DaemonProcess.mainStep, hpc, hrun]
    · simpa [DaemonProcess.mainStep, hpc, hnew, stepsLeft, MainPc.stepsLeft] using hlt
  | joinTelemetry =>
    by_cases hfinished : s.telemetryWorker = .finished
    · refine ⟨⟨hjoined, ?_, ?_⟩, .inl ?_⟩ <;>
        simp [DaemonProcess.mainStep, hpc, hrun, hfinished, MainPc.pastInit, stepsLeft,
          MainPc.stepsLeft]
    · have hsame : s.mainStep ok = s := by simp [DaemonProcess.mainStep, hpc, hfinished]
      rw [hsame]
      exact ⟨h, .inr ⟨rfl, by simp [awaited, hpc, hfinished]⟩⟩
  | joinDecision =>
    by_cases hfinished : s.decisionWorker = .finished
    · refine ⟨⟨hjoined, ?_, ?_⟩, .inl ?_⟩ <;>
        simp [DaemonProcess.mainStep, hpc, hrun, hfinished, MainPc.pastInit, stepsLeft,
          MainPc.stepsLeft]
    · have hsame : s.mainStep ok = s := by simp [DaemonProcess.mainStep, hpc, hfinished]
      rw [hsame]
      exact ⟨h, .inr ⟨rfl, by simp [awaited, hpc, hfinished]⟩⟩
  | returned ret => exact absurd ⟨ret, hpc⟩ hret
  -- `init` is over, and the loop test fails
  | _ =>
    rw [hpc] at hpast
    first
      | exact absurd hpast Bool.false_ne_true
      | refine ⟨⟨hjoined, ?_, ?_⟩, .inl ?_⟩ <;>
          simp [DaemonProcess.mainStep, hpc, hrun, shutdown, MainPc.pastInit, stepsLeft,
            MainPc.stepsLeft]

/-- A step of a worker that has one left. -/
theorem stepsLeft_workerStep (pc : WorkerPc) :
    (workerStep false pc).1.stepsLeft < pc.stepsLeft ∨
      (workerStep false pc).1 = pc ∧ (pc = .notStarted ∨ pc = .finished) := by
  cases pc <;> simp [workerStep, WorkerPc.stepsLeft]

/-- No thread starts an iteration. -/
theorem Stopping.workerStep (h : Stopping s) (pc : WorkerPc) :
    (DaemonProcess.workerStep s.running pc).2 = false := by
  rw [h.notRunning]
  cases pc <;> rfl

/-- A worker that is waited for has a step left. -/
theorem Joined.awaited_telemetryWorker (h : Joined s) (hawaited : s.awaited = .telemetryWorker) :
    s.telemetryWorker ≠ .notStarted ∧ s.telemetryWorker ≠ .finished := by
  have hknown := h.telemetryWorker.1
  unfold awaited at hawaited
  split at hawaited
  · rename_i hpc
    rw [hpc] at hknown
    exact ⟨fun hnew => absurd (hknown.mpr hnew) (by decide),
      fun hfinished => by simp [hfinished] at hawaited⟩
  · split at hawaited <;> cases hawaited
  · cases hawaited

@[inherit_doc Joined.awaited_telemetryWorker]
theorem Joined.awaited_decisionWorker (h : Joined s) (hawaited : s.awaited = .decisionWorker) :
    s.decisionWorker ≠ .notStarted ∧ s.decisionWorker ≠ .finished := by
  have hknown := h.decisionWorker.1
  unfold awaited at hawaited
  split at hawaited
  · split at hawaited <;> cases hawaited
  · rename_i hpc
    rw [hpc] at hknown
    exact ⟨fun hnew => absurd (hknown.mpr hnew) (by decide),
      fun hfinished => by simp [hfinished] at hawaited⟩
  · cases hawaited

/-- **One step** of a process that is stopping. -/
theorem Stopping.step (h : Stopping s) (hret : ¬ Returned s) (e : ProcessEvent) :
    Stopping (s.step e) ∧ ((s.step e).stepsLeft < s.stepsLeft ∨
      (s.step e).stepsLeft = s.stepsLeft ∧ (s.step e).awaited = s.awaited ∧
        ¬ e.turn s.awaited) := by
  have hjoined := h.joined.step e
  cases e with
  | main ok =>
    obtain ⟨hstopping, hlt | ⟨hsame, hwaits⟩⟩ := h.mainStep hret ok
    · exact ⟨hstopping, .inl hlt⟩
    · refine ⟨hstopping, .inr ?_⟩
      simp only [DaemonProcess.step, hsame]
      exact ⟨trivial, trivial, hwaits⟩
  | telemetryWorker =>
    have hstep : s.step .telemetryWorker =
        { s with
          telemetryWorker := (DaemonProcess.workerStep s.running s.telemetryWorker).1 } := by
      simp [DaemonProcess.step, h.workerStep]
    rw [hstep] at hjoined ⊢
    refine ⟨⟨hjoined, h.pastInit, h.notRunning⟩, ?_⟩
    rw [h.notRunning]
    obtain hlt | ⟨hsame, hpc⟩ := stepsLeft_workerStep s.telemetryWorker
    · left
      simp only [stepsLeft]
      omega
    · rw [hsame]
      refine .inr ⟨rfl, rfl, fun hturn => ?_⟩
      -- a worker that has no step left is not waited for
      have hawaited := h.joined.awaited_telemetryWorker hturn
      exact hpc.elim hawaited.1 hawaited.2
  | decisionWorker =>
    have hstep : s.step .decisionWorker
        = { s with decisionWorker := (DaemonProcess.workerStep s.running s.decisionWorker).1 } := by
      simp [DaemonProcess.step, h.workerStep]
    rw [hstep] at hjoined ⊢
    refine ⟨⟨hjoined, h.pastInit, h.notRunning⟩, ?_⟩
    rw [h.notRunning]
    obtain hlt | ⟨hsame, hpc⟩ := stepsLeft_workerStep s.decisionWorker
    · left
      simp only [stepsLeft]
      omega
    · rw [hsame]
      refine .inr ⟨rfl, rfl, fun hturn => ?_⟩
      have hawaited := h.joined.awaited_decisionWorker hturn
      exact hpc.elim hawaited.1 hawaited.2
  | sigint =>
    obtain ⟨hstopping, hleft, hawaited⟩ := h.signalHandler
    simp only [DaemonProcess.step]
    split
    · exact ⟨hstopping, .inr ⟨hleft, hawaited, id⟩⟩
    · exact ⟨h, .inr ⟨rfl, rfl, id⟩⟩
  | sigterm =>
    obtain ⟨hstopping, hleft, hawaited⟩ := h.signalHandler
    simp only [DaemonProcess.step]
    split
    · exact ⟨hstopping, .inr ⟨hleft, hawaited, id⟩⟩
    · exact ⟨h, .inr ⟨rfl, rfl, id⟩⟩

/-! ### Results -/

/-- **No worker is left.** When `main` returns, after any steps and signals, both workers have
    finished, or, where it does not return 0, were never started. -/
theorem workers_joined (es : List ProcessEvent) {ret : Int32}
    (h : (run step initial es).main = .returned ret) :
    let pc : WorkerPc := if ret = 0 then .finished else .notStarted
    (run step initial es).telemetryWorker = pc ∧ (run step initial es).decisionWorker = pc := by
  obtain ⟨⟨hnew, hfinished⟩, ⟨hnew', hfinished'⟩⟩ := joined_run es
  rw [h] at hnew hfinished hnew' hfinished'
  -- `main` returns 0 only by way of both joins
  by_cases hret : ret = 0
  · simp only [MainPc.telemetryWorker, MainPc.decisionWorker, hret, decide_true]
      at hfinished hfinished'
    rw [if_pos hret]
    exact ⟨hfinished trivial, hfinished' trivial⟩
  · simp only [MainPc.telemetryWorker, MainPc.decisionWorker, hret, decide_false, true_iff]
      at hnew hnew'
    rw [if_neg hret]
    exact ⟨hnew, hnew'⟩

/-- **Termination.** If `running_` is cleared at some moment after `init` has set it, then on
    every fair schedule from there `main` returns. -/
theorem shutdown_terminates (es : List ProcessEvent)
    (hpast : (run step initial es).main.pastInit = true)
    (hstop : (run step initial es).running = false) {f : ℕ → ProcessEvent}
    (hf : Fair ProcessEvent.turn f) :
    ∃ n, Returned (stateAt step (run step initial es) f n) :=
  @exists_stateAt_of_helpful _ _ _ step ProcessEvent.turn f _ Stopping Returned stepsLeft awaited
    (fun _ e h hret => h.step hret e) ⟨joined_run es, hpast, hstop⟩ hf

/-- Both workers are started, and `SIGINT` arrives. -/
private def interruptedRun : List ProcessEvent := List.replicate 16 (.main true) ++ [.sigint]

/-- After an interrupt both workers are joined. -/
theorem workers_joined_interrupted :
    (run step initial (interruptedRun ++ [.main true, .telemetryWorker, .decisionWorker,
        .main true, .main true, .main true])).telemetryWorker = .finished ∧
      (run step initial (interruptedRun ++ [.main true, .telemetryWorker, .decisionWorker,
        .main true, .main true, .main true])).decisionWorker = .finished :=
  workers_joined (interruptedRun ++ [.main true, .telemetryWorker, .decisionWorker, .main true,
    .main true, .main true]) (by decide : _ = MainPc.returned 0)

/-- The threads take turns. -/
private def roundRobin (n : ℕ) : ProcessEvent :=
  if n % 3 = 0 then .main true else if n % 3 = 1 then .telemetryWorker else .decisionWorker

/-- Taking turns is fair. -/
private theorem fair_roundRobin : Fair ProcessEvent.turn roundRobin := by
  intro thread n
  cases thread with
  | main =>
    refine ⟨3 - n % 3, ?_⟩
    rw [roundRobin, if_pos (by omega)]
    rfl
  | telemetryWorker =>
    refine ⟨4 - n % 3, ?_⟩
    rw [roundRobin, if_neg (by omega), if_pos (by omega)]
    rfl
  | decisionWorker =>
    refine ⟨5 - n % 3, ?_⟩
    rw [roundRobin, if_neg (by omega), if_neg (by omega)]
    rfl

/-- After an interrupt, threads that take turns come to the end. -/
theorem shutdown_terminates_round_robin :
    ∃ n, Returned (stateAt step (run step initial interruptedRun) roundRobin n) :=
  shutdown_terminates interruptedRun (by decide) (by decide) fair_roundRobin

end DaemonProcess

end AieOs
