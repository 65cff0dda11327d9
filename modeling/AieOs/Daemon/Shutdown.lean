import AieOs.Lib.Runs

namespace AieOs

open Lib

/-!
# Shutting the daemon down

`main` registers its signal handlers before it calls `init`, and the last step of `init`
sets the flag that the handler clears.  The main thread, the two workers and the handler
are run here step by step, in any interleaving; a step of `init` that may fail has an
outcome.
-/

/-- The next step of the main thread. -/
inductive MainPc
  -- `main`
  | construct | publish | registerSigint | registerSigterm
  -- `init`
  | connectTelemetry | connectDecisions | connectConfig | connectStats | loadConfig
  | createClassifier | initClassifier | initDevices | setRunning
  -- `run`
  | testInitialised | spawnTelemetry | spawnDecision | testRunning | logStats
  | joinTelemetry | joinDecision
  -- the end of `main`, which returns `ret`
  | destroy (ret : Int32) | returned (ret : Int32)
  deriving DecidableEq, Repr

/-- The next step of a worker thread: its loop test, or the body of its loop. -/
inductive WorkerPc
  | notStarted | testRunning | body | finished
  deriving DecidableEq, Repr

/-- The process. -/
structure DaemonProcess where
  /-- `running_`. -/
  running : Bool
  /-- `daemon_instance` is set. -/
  daemonInstance : Bool
  /-- `signal_handler` is registered for `SIGINT`, and for `SIGTERM`. -/
  sigint : Bool
  sigterm : Bool
  main : MainPc
  telemetryWorker : WorkerPc
  decisionWorker : WorkerPc
  /-- `shutdown` has been called. -/
  shutdownCalled : Bool
  /-- How many loop iterations were started after that. -/
  lateIterations : ℕ
  deriving DecidableEq, Repr

/-- A step of a thread, or a signal. -/
inductive ProcessEvent
  /-- The main thread; `ok` is the outcome of a step of `init` that may fail. -/
  | main (ok : Bool)
  | telemetryWorker
  | decisionWorker
  | sigint
  | sigterm
  deriving DecidableEq, Repr

namespace DaemonProcess

/-- The process before `main`. -/
def initial : DaemonProcess :=
  ⟨false, false, false, false, .construct, .notStarted, .notStarted, false, 0⟩

/-- `AieDaemon::shutdown`. -/
def shutdown (s : DaemonProcess) : DaemonProcess :=
  { s with running := false, shutdownCalled := true }

/-- `signal_handler`. -/
def signalHandler (s : DaemonProcess) : DaemonProcess :=
  if s.daemonInstance then s.shutdown else s

/-- A loop iteration starts. -/
def startIteration (s : DaemonProcess) : DaemonProcess :=
  { s with lateIterations := s.lateIterations + if s.shutdownCalled then 1 else 0 }

/-- A step of the main thread.  A failed step of `init` makes `main` return 1; the results
    of `cfg.load` and of the device manager are not looked at. -/
def mainStep (ok : Bool) (s : DaemonProcess) : DaemonProcess :=
  match s.main with
  | .construct        => { s with running := false, main := .publish }
  | .publish          => { s with daemonInstance := true, main := .registerSigint }
  | .registerSigint   => { s with sigint := true, main := .registerSigterm }
  | .registerSigterm  => { s with sigterm := true, main := .connectTelemetry }
  | .connectTelemetry => { s with main := if ok then .connectDecisions else .destroy 1 }
  | .connectDecisions => { s with main := if ok then .connectConfig else .destroy 1 }
  | .connectConfig    => { s with main := if ok then .connectStats else .destroy 1 }
  | .connectStats     => { s with main := if ok then .loadConfig else .destroy 1 }
  | .loadConfig       => { s with main := .createClassifier }
  | .createClassifier => { s with main := .initClassifier }
  | .initClassifier   => { s with main := if ok then .initDevices else .destroy 1 }
  | .initDevices      => { s with main := .setRunning }
  | .setRunning       => { s with running := true, main := .testInitialised }
  | .testInitialised  => { s with main := if s.running then .spawnTelemetry else .destroy (-1) }
  | .spawnTelemetry   => { s with telemetryWorker := .testRunning, main := .spawnDecision }
  | .spawnDecision    => { s with decisionWorker := .testRunning, main := .testRunning }
  | .testRunning      =>
    if s.running then { s.startIteration with main := .logStats }
    else { s with main := .joinTelemetry }
  | .logStats         => { s with main := .testRunning }
  -- a join blocks until the thread has finished
  | .joinTelemetry    =>
    if s.telemetryWorker = .finished then { s with main := .joinDecision } else s
  | .joinDecision     =>
    if s.decisionWorker = .finished then { s with main := .destroy 0 } else s
  -- the destructor calls `shutdown`
  | .destroy ret      => { s.shutdown with main := .returned ret }
  | .returned _       => s

/-- A step of a worker thread at `pc`: where it is then, and whether it started an
    iteration. -/
def workerStep (running : Bool) : WorkerPc → WorkerPc × Bool
  | .notStarted  => (.notStarted, false)
  | .testRunning => if running then (.body, true) else (.finished, false)
  | .body        => (.testRunning, false)
  | .finished    => (.finished, false)

/-- The effect of one event. -/
def step (s : DaemonProcess) : ProcessEvent → DaemonProcess
  | .main ok         => s.mainStep ok
  | .telemetryWorker =>
    let (telemetryWorker, started) := workerStep s.running s.telemetryWorker
    { (if started then s.startIteration else s) with telemetryWorker }
  | .decisionWorker  =>
    let (decisionWorker, started) := workerStep s.running s.decisionWorker
    { (if started then s.startIteration else s) with decisionWorker }
  | .sigint          => if s.sigint then s.signalHandler else s
  | .sigterm         => if s.sigterm then s.signalHandler else s

/-- A shutdown request is not forgotten. -/
structure ShutdownKept (s : DaemonProcess) : Prop where
  /-- Once `shutdown` was called, `running_` is false. -/
  notRunning : s.shutdownCalled = true → s.running = false
  /-- No worker and no main loop starts an iteration after that. -/
  noLateIteration : s.lateIterations = 0

end DaemonProcess

/-- `init` does not set the flag when `shutdown` was called before. -/
def ProcessEvent.notAfterShutdown (s : DaemonProcess) : ProcessEvent → Prop
  | .main _ => s.main = .setRunning → s.shutdownCalled = false
  | _       => True

namespace DaemonProcess

variable {s : DaemonProcess}

/-! ### One step at a time -/

/-- A loop whose test finds `running_` set has not been shut down. -/
theorem ShutdownKept.startIteration (h : ShutdownKept s) (hrun : s.running = true) :
    s.startIteration = s := by
  have hnot : s.shutdownCalled = false := by
    by_contra hcalled
    have hstop := h.notRunning (by simpa using hcalled)
    rw [hrun] at hstop
    cases hstop
  have hsame : s.lateIterations + (if s.shutdownCalled then 1 else 0) = s.lateIterations := by
    rw [hnot]
    rfl
  rw [DaemonProcess.startIteration, hsame]

/-- A step of the main thread, unless it sets `running_` after a request. -/
theorem ShutdownKept.mainStep (h : ShutdownKept s)
    (hset : s.main = .setRunning → s.shutdownCalled = false) (ok : Bool) :
    ShutdownKept (s.mainStep ok) := by
  unfold DaemonProcess.mainStep
  cases hpc : s.main with
  | construct => exact ⟨fun _ => rfl, h.noLateIteration⟩
  | setRunning =>
    refine ⟨fun hcalled => ?_, h.noLateIteration⟩
    have hnot := hset hpc
    rw [show s.shutdownCalled = true from hcalled] at hnot
    cases hnot
  | testRunning =>
    dsimp only
    by_cases hrun : s.running = true
    · rw [if_pos hrun, h.startIteration hrun]
      exact ⟨h.notRunning, h.noLateIteration⟩
    · rw [if_neg hrun]
      exact ⟨h.notRunning, h.noLateIteration⟩
  | joinTelemetry => dsimp only; split <;> exact ⟨h.notRunning, h.noLateIteration⟩
  | joinDecision => dsimp only; split <;> exact ⟨h.notRunning, h.noLateIteration⟩
  | destroy ret => exact ⟨fun _ => rfl, h.noLateIteration⟩
  | _ => exact ⟨h.notRunning, h.noLateIteration⟩

/-- A worker starts an iteration only while the flag is set. -/
theorem workerStep_started {running : Bool} {pc : WorkerPc}
    (h : (workerStep running pc).2 = true) : running = true := by
  cases pc <;> cases running <;> simp_all [workerStep]

/-- A worker starts no iteration once a shutdown was requested. -/
theorem ShutdownKept.workerStep (h : ShutdownKept s) {pc : WorkerPc} :
    (if (DaemonProcess.workerStep s.running pc).2 then s.startIteration else s) = s := by
  split
  · exact h.startIteration (workerStep_started ‹_›)
  · rfl

/-- A signal may be a request. -/
theorem ShutdownKept.signalHandler (h : ShutdownKept s) : ShutdownKept s.signalHandler := by
  unfold DaemonProcess.signalHandler
  split
  · exact ⟨fun _ => rfl, h.noLateIteration⟩
  · exact h

/-- Every step keeps a request, unless it sets `running_` again. -/
theorem ShutdownKept.step {e : ProcessEvent} (h : ShutdownKept s) (he : e.notAfterShutdown s) :
    ShutdownKept (s.step e) := by
  cases e with
  | main ok => exact h.mainStep he ok
  | telemetryWorker =>
    simp only [DaemonProcess.step, h.workerStep]
    exact ⟨h.notRunning, h.noLateIteration⟩
  | decisionWorker =>
    simp only [DaemonProcess.step, h.workerStep]
    exact ⟨h.notRunning, h.noLateIteration⟩
  | sigint =>
    simp only [DaemonProcess.step]
    split
    · exact h.signalHandler
    · exact h
  | sigterm =>
    simp only [DaemonProcess.step]
    split
    · exact h.signalHandler
    · exact h

/-- The last step of `init` overwrites an earlier `shutdown`. -/
theorem not_shutdownKept_of_set {e : ProcessEvent} (he : ¬ e.notAfterShutdown s) :
    ¬ ShutdownKept (s.step e) := by
  cases e with
  | main ok =>
    simp only [ProcessEvent.notAfterShutdown, Bool.not_eq_false, Classical.not_imp] at he
    obtain ⟨hpc, hcalled⟩ := he
    intro hkept
    have hstop := hkept.notRunning
    simp [DaemonProcess.step, DaemonProcess.mainStep, hpc, hcalled] at hstop
  | _ => exact absurd trivial he

/-! ### Result -/

/-- **Shutdown.** In every state of a run a shutdown request is kept, exactly if none had been
    made when `init` sets `running_`. -/
theorem shutdown_kept_iff (es : List ProcessEvent) :
    Always step ShutdownKept initial es ↔
      Throughout step ProcessEvent.notAfterShutdown initial es :=
  always_iff_throughout_of_any ⟨fun h => absurd h (by decide), rfl⟩ (fun _ h => h)
    (fun _ _ h => h.step) (fun _ _ _ => not_shutdownKept_of_set)

/-- `SIGINT` arrives before `init` connects anything; then `init` runs to its end. -/
private def forgottenRun : List ProcessEvent :=
  List.replicate 4 (.main true) ++ [.sigint] ++ List.replicate 9 (.main true)

/-- A signal during `init` is forgotten. -/
theorem shutdown_kept_not_during_init :
    ¬ ∀ es : List ProcessEvent, Always step ShutdownKept initial es := by
  intro hall
  have hstop := (hall forgottenRun forgottenRun (List.prefix_refl _)).notRunning
  exact absurd hstop (by decide)

end DaemonProcess

end AieOs
