import AieOs.Daemon.AieDaemon
import AieOs.Lib.Runs

namespace AieOs

open Lib

/-!
# What the telemetry worker ingests

`telemetry_worker` takes a return value of 0 for a sample read, but `read_sample` returns
the number of records consumed and fills in no sample: a timeout appends the worker's
uninitialised variable to `pending_telemetry_`, and what was consumed is dropped.  The
samples appended are the records consumed exactly as long as every poll fails.
-/

/-- The telemetry worker: its local variable and the daemon. -/
structure TelemetryWorker where
  sample : AiTaskTelemetry
  daemon : AieDaemon

/-- One iteration: the outcome of the poll, and what the classification calls. -/
structure WorkerIteration where
  poll : PollOutcome
  env : ℕ → SampleEnv

namespace TelemetryWorker

/-- The worker before its first iteration; `sample` is not initialised. -/
def start (nodes : DeviceNodes) (sample : AiTaskTelemetry) : TelemetryWorker :=
  ⟨sample, AieDaemon.initialised nodes⟩

/-- One iteration of the worker's loop. -/
def step (w : TelemetryWorker) (e : WorkerIteration) : TelemetryWorker :=
  let (sample, daemon) := w.daemon.telemetryWorker e.poll e.env w.sample
  { sample, daemon }

/-- The samples appended to `pending_telemetry_` are the records consumed from the ring. -/
def IngestsConsumed (w : TelemetryWorker) : Prop :=
  w.daemon.history.ingested = w.daemon.telemetryReader.printed

end TelemetryWorker

namespace AieDaemon

/-! ### One iteration -/

/-- A connected reader keeps what the poll consumed, and stays connected. -/
theorem telemetryWorker_reader (poll : PollOutcome) (env : ℕ → SampleEnv)
    (sample : AiTaskTelemetry) {d : AieDaemon} (h : d.telemetryReader.ringbufCtx = true) :
    (d.telemetryWorker poll env sample).2.telemetryReader
      = { d.telemetryReader with printed := d.telemetryReader.printed ++ poll.records } := by
  simp only [telemetryWorker, TelemetryReader.readSample, h, if_true]
  split
  · split
    · exact (classifyPendingTasks_frame ..).1
    · rfl
  · split <;> rfl

/-- Only a timeout appends a sample, and it appends the worker's variable. -/
theorem telemetryWorker_ingested (poll : PollOutcome) (env : ℕ → SampleEnv)
    (sample : AiTaskTelemetry) {d : AieDaemon} (h : d.telemetryReader.ringbufCtx = true) :
    (d.telemetryWorker poll env sample).2.history.ingested
      = d.history.ingested ++ if poll.ret = 0 then [sample] else [] := by
  simp only [telemetryWorker, TelemetryReader.readSample, h, if_true]
  split
  · split
    · exact (classifyPendingTasks_frame ..).2.1
    · rfl
  · rw [List.append_nil]
    split <;> rfl

end AieDaemon

namespace TelemetryWorker

variable {w : TelemetryWorker}

/-- A connected reader stays connected. -/
theorem step_connected (h : w.daemon.telemetryReader.ringbufCtx = true) (e : WorkerIteration) :
    (w.step e).daemon.telemetryReader.ringbufCtx = true := by
  show (w.daemon.telemetryWorker e.poll e.env w.sample).2.telemetryReader.ringbufCtx = true
  rw [AieDaemon.telemetryWorker_reader e.poll e.env w.sample h]
  exact h

/-- An iteration appends what it consumed iff its poll is an error: a timeout appends a
    sample and consumes none, any other poll consumes records and appends none. -/
theorem ingestsConsumed_step_iff (h : w.daemon.telemetryReader.ringbufCtx = true)
    (hw : w.IngestsConsumed) (e : WorkerIteration) :
    (w.step e).IngestsConsumed ↔ e.poll.IsError := by
  show (w.daemon.telemetryWorker e.poll e.env w.sample).2.history.ingested
    = (w.daemon.telemetryWorker e.poll e.env w.sample).2.telemetryReader.printed ↔ _
  rw [AieDaemon.telemetryWorker_ingested e.poll e.env w.sample h,
    AieDaemon.telemetryWorker_reader e.poll e.env w.sample h,
    show w.daemon.history.ingested = w.daemon.telemetryReader.printed from hw,
    List.append_cancel_left_eq]
  have hret := e.poll.ret_eq_zero_iff
  cases hpoll : e.poll with
  -- a sample is appended, and no record consumed
  | timeout =>
    refine iff_of_false ?_ ?_
    · simp [PollOutcome.ret, PollOutcome.records]
    · simp [PollOutcome.IsError]
  -- records are consumed, and none appended
  | consumed first rest =>
    rw [hpoll] at hret
    rw [if_neg (by rw [hret]; simp)]
    refine iff_of_false ?_ ?_
    · simp [PollOutcome.records]
    · simp [PollOutcome.IsError]
  | error code =>
    rw [hpoll] at hret
    rw [if_neg (by rw [hret]; simp)]
    exact iff_of_true rfl ⟨code, rfl⟩

end TelemetryWorker

/-! ### Results -/

/-- **Ingestion.** At every moment the samples appended are the records consumed, exactly if
    every poll of the run is an error. -/
theorem ingests_consumed_iff (nodes : DeviceNodes) (sample : AiTaskTelemetry)
    (es : List WorkerIteration) :
    Always TelemetryWorker.step TelemetryWorker.IngestsConsumed
        (TelemetryWorker.start nodes sample) es ↔
      ∀ e ∈ es, e.poll.IsError := by
  rw [← throughout_iff_forall_mem TelemetryWorker.step (fun e => e.poll.IsError)]
  apply always_iff_throughout_of_any
    (I := fun w => w.daemon.telemetryReader.ringbufCtx = true ∧ w.IngestsConsumed)
  · exact ⟨rfl, rfl⟩
  · exact fun w hw => hw.2
  · rintro w e ⟨hconnected, hw⟩ herror
    exact ⟨TelemetryWorker.step_connected hconnected e,
      (TelemetryWorker.ingestsConsumed_step_iff hconnected hw e).mpr herror⟩
  · rintro w e ⟨hconnected, hw⟩ hok hstep
    exact hok ((TelemetryWorker.ingestsConsumed_step_iff hconnected hw e).mp hstep)

/-- The classification calls of the heuristic classifier, the clock at zero. -/
private def idleEnv : ℕ → SampleEnv := fun _ => .heuristic ⟨0, 0⟩ ⟨0, 0⟩

/-- Nothing arrives for a second, and a sample is ingested. -/
theorem ingests_consumed_not_timeout :
    ¬ ∀ (nodes : DeviceNodes) (sample : AiTaskTelemetry) (es : List WorkerIteration),
      Always TelemetryWorker.step TelemetryWorker.IngestsConsumed
        (TelemetryWorker.start nodes sample) es := by
  intro hall
  have hingests : [AiTaskTelemetry.zero] = [] :=
    hall ⟨false, false, false, []⟩ .zero [⟨.timeout, idleEnv⟩] [⟨.timeout, idleEnv⟩]
      (List.prefix_refl _)
  exact absurd hingests (by decide)

end AieOs
