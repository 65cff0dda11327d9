import AieOs.Daemon.Classifier
import AieOs.Daemon.DeviceManager
import AieOs.Daemon.Ipc

namespace AieOs

/-!
# `aie_daemon.cpp` — the daemon

The two worker threads of `AieDaemon` and what they call: `telemetry_worker` reads samples
and classifies them in batches, `decision_worker` pushes the decisions.  Log messages are
left out, except for the read errors that one branch reports.  The daemon's history, which
the code does not keep, records what passed through its vectors.
-/

/-- The calls out of `classify_pending_tasks` for one sample: the clock, and the virtual
    method `classify`, from the decision buffer to the return code and the buffer after. -/
structure SampleEnv where
  clock : Timespec
  classify : AiTaskTelemetry → AiSchedDecision → Int32 × AiSchedDecision

/-- The heuristic classifier, its clock reading `ts`. -/
def SampleEnv.heuristic (clock ts : Timespec) : SampleEnv where
  clock := clock
  classify telemetry _ := (0, Classifier.decisionFor ts telemetry)

/-- `SampleEnv.heuristic` calls `Classifier::classify`. -/
theorem SampleEnv.heuristic_classify (clock ts : Timespec) (t : AiTaskTelemetry)
    (d : AiSchedDecision) :
    Classifier.classify ts (some t) (some d)
      = (((heuristic clock ts).classify t d).1, some ((heuristic clock ts).classify t d).2) :=
  rfl

/-- What passed through the daemon. -/
structure DaemonHistory where
  /-- Samples appended to `pending_telemetry_`. -/
  ingested : List AiTaskTelemetry
  /-- Samples passed to `classify`. -/
  classified : List AiTaskTelemetry
  /-- Decisions dispatched to a backend. -/
  dispatched : List (DeviceBackend × AiSchedDecision)
  /-- Decisions appended to `pending_decisions_`. -/
  appended : List AiSchedDecision
  /-- The calls of `write_decisions`: batch and return code. -/
  writes : List (List AiSchedDecision × Int32)
  /-- Return codes reported as telemetry read errors. -/
  readErrors : List Int32

/-- `class AieDaemon`. -/
structure AieDaemon where
  telemetryReader : TelemetryReader
  deviceManager : DeviceManager
  pendingTelemetry : List AiTaskTelemetry
  pendingDecisions : List AiSchedDecision
  history : DaemonHistory

namespace AieDaemon

/-- The daemon after a successful `init`. -/
def initialised (nodes : DeviceNodes) : AieDaemon where
  telemetryReader := .connected
  deviceManager := DeviceManager.new.init nodes
  pendingTelemetry := []
  pendingDecisions := []
  history := ⟨[], [], [], [], [], []⟩

/-- `pending_telemetry_.push_back(sample)`. -/
def pushBackTelemetry (sample : AiTaskTelemetry) (d : AieDaemon) : AieDaemon :=
  { d with
    pendingTelemetry := d.pendingTelemetry ++ [sample]
    history := { d.history with ingested := d.history.ingested ++ [sample] } }

/-- `pending_decisions_.push_back(decision)`. -/
def pushBackDecision (decision : AiSchedDecision) (d : AieDaemon) : AieDaemon :=
  { d with
    pendingDecisions := d.pendingDecisions ++ [decision]
    history := { d.history with appended := d.history.appended ++ [decision] } }

/-- `backend->dispatch(decision)`. -/
def dispatch (backend : DeviceBackend) (decision : AiSchedDecision) (d : AieDaemon) : AieDaemon :=
  { d with
    history := { d.history with dispatched := d.history.dispatched ++ [(backend, decision)] } }

/-- The body of the loop in `classify_pending_tasks`. -/
def classifySample (env : SampleEnv) (telem : AiTaskTelemetry) (d : AieDaemon) : AieDaemon :=
  let decision := { AiSchedDecision.zero with pid := telem.pid, tsDecision := env.clock.toNs }
  let d := { d with history := { d.history with classified := d.history.classified ++ [telem] } }
  let (ret, decision) := env.classify telem decision
  if ret = 0 then
    -- the device manager routes the decision before it is queued for the kernel
    let d :=
      match d.deviceManager.selectBackend decision.preferredDevice with
      | some backend => d.dispatch backend decision
      | none         => d
    d.pushBackDecision decision
  else d

/-- The loop in `classify_pending_tasks`; `env i` is for the `i`-th sample. -/
def classifySamples (env : ℕ → SampleEnv) : List AiTaskTelemetry → AieDaemon → AieDaemon
  | [], d            => d
  | telem :: rest, d => classifySamples (fun i => env (i + 1)) rest (d.classifySample (env 0) telem)

/-- `classify_pending_tasks`. -/
def classifyPendingTasks (env : ℕ → SampleEnv) (d : AieDaemon) : AieDaemon :=
  if d.pendingTelemetry.isEmpty then d
  else { classifySamples env d.pendingTelemetry d with pendingTelemetry := [] }

/-- `write_decisions` on the current contents of `pending_decisions_`, returning `ret`. -/
def writeDecisions (ret : Int32) (d : AieDaemon) : AieDaemon :=
  { d with
    history := { d.history with writes := d.history.writes ++ [(d.pendingDecisions, ret)] } }

/-- `push_decisions`, when `write_decisions` returns `ret`.  Success and failure differ only
    in the log message. -/
def pushDecisions (ret : Int32) (d : AieDaemon) : AieDaemon :=
  if d.pendingDecisions.isEmpty then d
  -- cleared whatever `ret` is
  else { d.writeDecisions ret with pendingDecisions := [] }

/-- `ETIMEDOUT`. -/
def etimedout : Int32 := 110

/-- One iteration of `telemetry_worker`, whose local variable `sample` is an argument and
    part of the result. -/
def telemetryWorker (poll : PollOutcome) (env : ℕ → SampleEnv) (sample : AiTaskTelemetry)
    (d : AieDaemon) : AiTaskTelemetry × AieDaemon :=
  let (ret, sample, telemetryReader) := d.telemetryReader.readSample poll sample
  let d := { d with telemetryReader }
  if ret = 0 then
    -- taken for a sample read, though a timeout returns 0
    let d := d.pushBackTelemetry sample
    (sample, if d.pendingTelemetry.length ≥ 10 then d.classifyPendingTasks env else d)
  else if ret < 0 ∧ ret ≠ -etimedout then
    (sample, { d with history := { d.history with readErrors := d.history.readErrors ++ [ret] } })
  -- a positive count of records falls through
  else (sample, d)

/-! ### What classifying changes -/

section
variable (env : SampleEnv) (telem : AiTaskTelemetry) (d : AieDaemon)

/-- The decision that a sample adds, if `classify` succeeds. -/
def decided (env : SampleEnv) (telem : AiTaskTelemetry) : List AiSchedDecision :=
  let decision := { AiSchedDecision.zero with pid := telem.pid, tsDecision := env.clock.toNs }
  let (ret, decision) := env.classify telem decision
  if ret = 0 then [decision] else []

variable {env telem} in
/-- It is what a successful call made of a buffer with the pid of the sample. -/
theorem exists_of_mem_decided {decision : AiSchedDecision} (h : decision ∈ decided env telem) :
    ∃ buffer, buffer.pid = telem.pid ∧ env.classify telem buffer = (0, decision) := by
  refine ⟨{ AiSchedDecision.zero with pid := telem.pid, tsDecision := env.clock.toNs }, rfl, ?_⟩
  unfold decided at h
  dsimp only at h
  split at h
  · rename_i hzero
    exact Prod.ext hzero (List.mem_singleton.mp h).symm
  · -- a failed call decides nothing
    cases h

/-- A sample adds its decision to both the vector and the history. -/
theorem classifySample_decisions :
    (d.classifySample env telem).pendingDecisions = d.pendingDecisions ++ decided env telem ∧
      (d.classifySample env telem).history.appended = d.history.appended ++ decided env telem := by
  unfold classifySample decided
  dsimp only
  split
  · split <;> exact ⟨rfl, rfl⟩
  · simp

/-- A call of `classify` touches neither the reader nor the buffer of samples. -/
theorem classifySample_frame :
    (d.classifySample env telem).telemetryReader = d.telemetryReader ∧
      (d.classifySample env telem).pendingTelemetry = d.pendingTelemetry ∧
      (d.classifySample env telem).history.ingested = d.history.ingested ∧
      (d.classifySample env telem).history.writes = d.history.writes := by
  unfold classifySample
  dsimp only
  split
  · split <;> exact ⟨rfl, rfl, rfl, rfl⟩
  · exact ⟨rfl, rfl, rfl, rfl⟩

end

section
variable (env : ℕ → SampleEnv)

/-- Nor does the loop over a batch. -/
theorem classifySamples_frame (samples : List AiTaskTelemetry) (d : AieDaemon) :
    (classifySamples env samples d).telemetryReader = d.telemetryReader ∧
      (classifySamples env samples d).history.ingested = d.history.ingested ∧
      (classifySamples env samples d).history.writes = d.history.writes := by
  induction samples generalizing env d with
  | nil => exact ⟨rfl, rfl, rfl⟩
  | cons telem rest ih =>
    obtain ⟨hreader, -, hingested, hwrites⟩ := classifySample_frame (env 0) telem d
    obtain ⟨h1, h2, h3⟩ := ih (fun i => env (i + 1)) (d.classifySample (env 0) telem)
    exact ⟨h1.trans hreader, h2.trans hingested, h3.trans hwrites⟩

/-- The loop adds the same decisions to the vector and the history. -/
theorem classifySamples_decisions (samples : List AiTaskTelemetry) (d : AieDaemon) :
    ∃ added, (classifySamples env samples d).pendingDecisions = d.pendingDecisions ++ added ∧
      (classifySamples env samples d).history.appended = d.history.appended ++ added := by
  induction samples generalizing env d with
  | nil => exact ⟨[], by simp [classifySamples]⟩
  | cons telem rest ih =>
    obtain ⟨hpending, happended⟩ := classifySample_decisions (env 0) telem d
    obtain ⟨added, h1, h2⟩ := ih (fun i => env (i + 1)) (d.classifySample (env 0) telem)
    -- the decisions of the first sample come before those of the rest
    refine ⟨decided (env 0) telem ++ added, ?_, ?_⟩
    · rw [classifySamples, h1, hpending, List.append_assoc]
    · rw [classifySamples, h2, happended, List.append_assoc]

variable (d : AieDaemon)

/-- `classify_pending_tasks` does not touch the reader. -/
theorem classifyPendingTasks_frame :
    (d.classifyPendingTasks env).telemetryReader = d.telemetryReader ∧
      (d.classifyPendingTasks env).history.ingested = d.history.ingested ∧
      (d.classifyPendingTasks env).history.writes = d.history.writes := by
  unfold classifyPendingTasks
  split
  · exact ⟨rfl, rfl, rfl⟩
  · exact classifySamples_frame env d.pendingTelemetry d

/-- It adds the same decisions to the vector and the history. -/
theorem classifyPendingTasks_decisions :
    ∃ added, (d.classifyPendingTasks env).pendingDecisions = d.pendingDecisions ++ added ∧
      (d.classifyPendingTasks env).history.appended = d.history.appended ++ added := by
  unfold classifyPendingTasks
  split
  · exact ⟨[], by simp⟩
  · exact classifySamples_decisions env d.pendingTelemetry d

end

end AieDaemon

end AieOs
