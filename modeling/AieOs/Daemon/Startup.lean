import AieOs.Common.Config
import AieOs.Daemon.Ingestion
import AieOs.Daemon.OnnxCalls

namespace AieOs

open Lib

/-!
# `AieDaemon::init` — the configured daemon

`init` connects to the kernel, reads `/etc/aie-os/aie.conf` and makes the classifier that the
file asks for; the two workers then share this object behind the virtual `classify`.  An
exception that leaves a call, or an access out of bounds, is the end of the daemon.

* `ConfiguredDaemon.step` — one iteration of a worker, through the classifier object;
* `configured_fallback` — as long as no model can be loaded, what the file says makes no
  difference to the daemon.
-/

/-! ### The classifier object -/

/-- `classifier_`: the class of the object, and its data. -/
inductive ClassifierObject
  | heuristic
  | onnx (modelPath : Bytes) (object : OnnxClassifier)
  deriving DecidableEq

/-- One call of `classify` in `classify_pending_tasks`: the clock readings of the daemon and of
    the decision, and what an `OnnxClassifier` meets if its model is the file of a path. -/
structure ClassifyCall where
  clock : Timespec
  decisionClock : Timespec
  onnx : Bytes → OnnxEnv

namespace ClassifierObject

/-- The virtual `classify`. -/
def classify (call : ClassifyCall) (telem : AiTaskTelemetry) (decision : AiSchedDecision) :
    ClassifierObject → OnnxOutcome × ClassifierObject
  | .heuristic =>
    let (ret, decision) := Classifier.classify call.decisionClock (some telem) (some decision)
    (.returned ret decision, .heuristic)
  | .onnx modelPath object =>
    let env := { call.onnx modelPath with decisionClock := call.decisionClock }
    let (outcome, object) := object.classify env (some telem) (some decision)
    (outcome, .onnx modelPath object)

/-- The virtual `init`: neither class does anything yet. -/
def init (_ : ClassifierObject) : Int32 := 0

end ClassifierObject

/-! ### `init` -/

/-- What `init` meets. -/
structure Startup where
  /-- The return values of the four `connect` calls. -/
  telemetryReader : Int32
  decisionWriter : Int32
  config : Int32
  stats : Int32
  /-- `/etc/aie-os/aie.conf`, if it can be opened. -/
  conf : Option Bytes
  nodes : DeviceNodes

/-- The classifier that a configuration asks for. -/
def configuredClassifier (conf : Option Bytes) : ClassifierObject :=
  let cfg := (Config.empty.load conf).2
  let classifierType := cfg.get (ascii "classifier") (ascii "heuristic")
  let modelPath := cfg.get (ascii "model_path") []
  if classifierType = ascii "onnx" then .onnx modelPath .new else .heuristic

/-- The model that the daemon is to load, if any. -/
def configuredModel (conf : Option Bytes) : Option Bytes :=
  match configuredClassifier conf with
  | .heuristic        => none
  | .onnx modelPath _ => some modelPath

/-- The daemon, with its classifier and the local variable of `telemetry_worker`. -/
@[ext] structure ConfiguredDaemon where
  classifier : ClassifierObject
  sample : AiTaskTelemetry
  daemon : AieDaemon

namespace ConfiguredDaemon

/-- `AieDaemon::init`, and what `telemetry_worker` starts with. -/
def init (e : Startup) (sample : AiTaskTelemetry) : Int32 × Option ConfiguredDaemon :=
  if e.telemetryReader ≠ 0 then (-1, none)
  else if e.decisionWriter ≠ 0 then (-1, none)
  else if e.config ≠ 0 then (-1, none)
  else if e.stats ≠ 0 then (-1, none)
  else
    let classifier := configuredClassifier e.conf
    if classifier.init ≠ 0 then (-1, none)
    else (0, some ⟨classifier, sample, AieDaemon.initialised e.nodes⟩)

/-! ### The workers -/

/-- The loop in `classify_pending_tasks`, unless a call ends the daemon. -/
def classifySamples (calls : ℕ → ClassifyCall) :
    List AiTaskTelemetry → ClassifierObject → AieDaemon → Option (ClassifierObject × AieDaemon)
  | [], classifier, d            => some (classifier, d)
  | telem :: rest, classifier, d =>
    let decision :=
      { AiSchedDecision.zero with pid := telem.pid, tsDecision := (calls 0).clock.toNs }
    match classifier.classify (calls 0) telem decision with
    | (.returned ret (some decision), classifier) =>
      let env : SampleEnv := ⟨(calls 0).clock, fun _ _ => (ret, decision)⟩
      classifySamples (fun i => calls (i + 1)) rest classifier (d.classifySample env telem)
    | _ => none

/-- One iteration of a worker. -/
inductive Event
  /-- `telemetry_worker`: the outcome of the poll, and the calls of `classify`. -/
  | telemetry (poll : PollOutcome) (calls : ℕ → ClassifyCall)
  /-- `decision_worker`: what `write_decisions` returns. -/
  | push (ret : Int32)

/-- `telemetry_worker` after the return of `read_sample`. -/
def handleReturn (ret : Int32) (calls : ℕ → ClassifyCall) (s : ConfiguredDaemon) :
    Option ConfiguredDaemon :=
  if ret = 0 then
    let d := s.daemon.pushBackTelemetry s.sample
    if d.pendingTelemetry.length ≥ 10 then
      (classifySamples calls d.pendingTelemetry s.classifier d).map fun (classifier, d) =>
        ⟨classifier, s.sample, { d with pendingTelemetry := [] }⟩
    else some { s with daemon := d }
  else if ret < 0 ∧ ret ≠ -AieDaemon.etimedout then
    let history := { s.daemon.history with readErrors := s.daemon.history.readErrors ++ [ret] }
    some { s with daemon := { s.daemon with history } }
  else some s

/-- The effect of one iteration, unless it ends the daemon. -/
def step (s : ConfiguredDaemon) : Event → Option ConfiguredDaemon
  | .telemetry poll calls =>
    let (ret, sample, telemetryReader) := s.daemon.telemetryReader.readSample poll s.sample
    handleReturn ret calls { s with sample, daemon := { s.daemon with telemetryReader } }
  | .push ret => some { s with daemon := s.daemon.pushDecisions ret }

/-- The daemon after some iterations of its workers, one after the other. -/
def runAll (s : ConfiguredDaemon) (es : List Event) : Option ConfiguredDaemon := es.foldlM step s

/-! ### Without a model -/

/-- No call of the iteration could load the model. -/
def Event.NoModel (model : Option Bytes) : Event → Prop
  | .telemetry _ calls => ∀ modelPath ∈ model, ∀ i, ¬ ((calls i).onnx modelPath).Loads
  | .push _            => True

/-- The object has not loaded the model. -/
def Unloaded (model : Option Bytes) : ClassifierObject → Prop
  | .heuristic             => True
  | .onnx modelPath object =>
    modelPath ∈ model ∧ OnnxClassifier.Reached object ∧ object.loaded = false

/-- The calls of the heuristic classifier. -/
def heuristicEnv (calls : ℕ → ClassifyCall) (i : ℕ) : SampleEnv :=
  .heuristic (calls i).clock (calls i).decisionClock

/-- An iteration of a worker of the daemon that has the heuristic classifier. -/
def heuristicStep (w : TelemetryWorker) : Event → TelemetryWorker
  | .telemetry poll calls => w.step ⟨poll, heuristicEnv calls⟩
  | .push ret             => { w with daemon := w.daemon.pushDecisions ret }

section
variable {model : Option Bytes} {classifier : ClassifierObject}

/-- One call: the load fails, or has failed before. -/
theorem Unloaded.classify (h : Unloaded model classifier) {call : ClassifyCall}
    (hcall : ∀ modelPath ∈ model, ¬ (call.onnx modelPath).Loads) (telem : AiTaskTelemetry)
    (decision : AiSchedDecision) :
    ∃ classifier', Unloaded model classifier' ∧
      classifier.classify call telem decision
        = (.returned 0 (some (Classifier.decisionFor call.decisionClock telem)), classifier') := by
  cases classifier with
  | heuristic => exact ⟨.heuristic, trivial, rfl⟩
  | onnx path object =>
    obtain ⟨hpath, hreached, hloaded⟩ := h
    let e : OnnxCall :=
      ⟨{ call.onnx path with decisionClock := call.decisionClock }, telem, decision⟩
    -- neither is the model loaded, nor does this call load it
    have huse : ¬ OnnxClassifier.UsesModel object e.env := by
      rintro (hl | ⟨-, hloads⟩)
      · rw [hloaded] at hl
        cases hl
      · exact hcall path hpath hloads
    refine ⟨.onnx path (OnnxClassifier.step object e),
      ⟨hpath, hreached.step e, (OnnxClassifier.step_of_not_usesModel hreached huse).1⟩, ?_⟩
    exact congrArg (·, ClassifierObject.onnx path (OnnxClassifier.step object e))
      (OnnxClassifier.outcome_of_not_usesModel hreached huse)

/-- A batch is classified as by the heuristic classifier. -/
theorem Unloaded.classifySamples (h : Unloaded model classifier) {calls : ℕ → ClassifyCall}
    (hcalls : ∀ modelPath ∈ model, ∀ i, ¬ ((calls i).onnx modelPath).Loads)
    (samples : List AiTaskTelemetry) (d : AieDaemon) :
    ∃ classifier', Unloaded model classifier' ∧
      ConfiguredDaemon.classifySamples calls samples classifier d
        = some (classifier', AieDaemon.classifySamples (heuristicEnv calls) samples d) := by
  induction samples generalizing classifier calls d with
  | nil => exact ⟨classifier, h, rfl⟩
  | cons telem rest ih =>
    obtain ⟨classifier₁, h₁, hcall⟩ := h.classify (fun path hpath => hcalls path hpath 0) telem
      { AiSchedDecision.zero with pid := telem.pid, tsDecision := (calls 0).clock.toNs }
    obtain ⟨classifier₂, h₂, hrest⟩ := ih h₁ (fun path hpath i => hcalls path hpath (i + 1))
      (d.classifySample (heuristicEnv calls 0) telem)
    refine ⟨classifier₂, h₂, ?_⟩
    rw [ConfiguredDaemon.classifySamples, hcall]
    exact hrest

/-- **One iteration** of a daemon whose model cannot be loaded. -/
theorem Unloaded.step {s : ConfiguredDaemon} (h : Unloaded model s.classifier) {e : Event}
    (he : e.NoModel model) :
    ∃ classifier', Unloaded model classifier' ∧
      s.step e = some ⟨classifier', (heuristicStep ⟨s.sample, s.daemon⟩ e).sample,
        (heuristicStep ⟨s.sample, s.daemon⟩ e).daemon⟩ := by
  cases e with
  | push ret => exact ⟨s.classifier, h, rfl⟩
  | telemetry poll calls =>
    simp only [ConfiguredDaemon.step, handleReturn, heuristicStep, TelemetryWorker.step,
      AieDaemon.telemetryWorker]
    obtain ⟨ret, sample, reader⟩ := s.daemon.telemetryReader.readSample poll s.sample
    dsimp only
    split
    · split
      · -- the batch is full
        next hfull =>
        obtain ⟨classifier', h', hbatch⟩ := h.classifySamples he
          (({ s.daemon with telemetryReader := reader }.pushBackTelemetry sample).pendingTelemetry)
          ({ s.daemon with telemetryReader := reader }.pushBackTelemetry sample)
        refine ⟨classifier', h', ?_⟩
        rw [hbatch, AieDaemon.classifyPendingTasks, if_neg (by simp [AieDaemon.pushBackTelemetry])]
        rfl
      · exact ⟨s.classifier, h, rfl⟩
    · split <;> exact ⟨s.classifier, h, rfl⟩

/-- A run of a daemon whose model cannot be loaded. -/
theorem Unloaded.runAll {s : ConfiguredDaemon} (h : Unloaded model s.classifier)
    {es : List Event} (hes : ∀ e ∈ es, e.NoModel model) :
    ∃ classifier', s.runAll es
      = some ⟨classifier', (run heuristicStep ⟨s.sample, s.daemon⟩ es).sample,
          (run heuristicStep ⟨s.sample, s.daemon⟩ es).daemon⟩ := by
  induction es generalizing s with
  | nil => exact ⟨s.classifier, rfl⟩
  | cons e es ih =>
    rw [List.forall_mem_cons] at hes
    obtain ⟨classifier₁, h₁, hstep⟩ := h.step hes.1
    obtain ⟨classifier', hrun⟩ := @ih ⟨classifier₁, _, _⟩ h₁ hes.2
    refine ⟨classifier', ?_⟩
    rw [ConfiguredDaemon.runAll, List.foldlM_cons, hstep, Option.bind_eq_bind, Option.bind_some]
    exact hrun

end

/-- The classifier is new. -/
theorem configuredClassifier_new (conf : Option Bytes) :
    configuredClassifier conf = .heuristic ∨
      ∃ modelPath, configuredClassifier conf = .onnx modelPath .new := by
  unfold configuredClassifier
  dsimp only
  split_ifs
  · exact .inr ⟨_, rfl⟩
  · exact .inl rfl

/-- The classifier that `init` makes has loaded nothing yet. -/
theorem unloaded_configuredClassifier (conf : Option Bytes) :
    Unloaded (configuredModel conf) (configuredClassifier conf) := by
  unfold configuredModel
  obtain hconf | ⟨modelPath, hconf⟩ := configuredClassifier_new conf
  · rw [hconf]
    trivial
  · rw [hconf]
    exact ⟨rfl, OnnxClassifier.reached_new, rfl⟩

/-- A daemon that has started. -/
theorem eq_of_init {e : Startup} {sample : AiTaskTelemetry} {s : ConfiguredDaemon}
    (hs : init e sample = (0, some s)) :
    s = ⟨configuredClassifier e.conf, sample, AieDaemon.initialised e.nodes⟩ := by
  unfold init at hs
  dsimp only at hs
  split_ifs at hs
  -- every other branch returns -1
  all_goals simp only [Prod.mk.injEq, reduceCtorEq, and_false] at hs
  exact (Option.some.inj hs.2).symm

/-- **Fallback.** Whatever the configuration file says, a daemon that has started and finds no
    model to load behaves in every run as the daemon with the heuristic classifier. -/
theorem configured_fallback {e : Startup} {sample : AiTaskTelemetry} {s : ConfiguredDaemon}
    (hs : init e sample = (0, some s)) {es : List Event}
    (hes : ∀ ev ∈ es, ev.NoModel (configuredModel e.conf)) :
    ∃ classifier, s.runAll es
      = some ⟨classifier, (run heuristicStep (.start e.nodes sample) es).sample,
          (run heuristicStep (.start e.nodes sample) es).daemon⟩ := by
  rw [eq_of_init hs]
  exact @Unloaded.runAll _ ⟨_, _, _⟩ (unloaded_configuredClassifier e.conf) es hes

/-- A machine whose configuration names a model. -/
def namedModel : Startup where
  telemetryReader := 0
  decisionWriter := 0
  config := 0
  stats := 0
  conf := some (ascii "classifier=onnx\nmodel_path=/m.onnx\n")
  nodes := ⟨false, false, false, []⟩

/-- The daemon there. -/
def namedDaemon : ConfiguredDaemon :=
  ⟨.onnx (ascii "/m.onnx") .new, .zero, AieDaemon.initialised namedModel.nodes⟩

/-- `init` makes an `OnnxClassifier` for it. -/
theorem init_namedModel : init namedModel .zero = (0, some namedDaemon) := by
  have hconf : configuredClassifier namedModel.conf = .onnx (ascii "/m.onnx") .new := by decide
  simp [init, namedModel, namedDaemon, ClassifierObject.init, ← hconf]

/-- A call that finds no file under any path. -/
private def noFile : ClassifyCall :=
  ⟨⟨0, 0⟩, ⟨0, 0⟩, fun _ => ⟨false, ⟨[], [], []⟩, fun _ => false, fun _ => false, fun _ => [],
    ⟨0, 0⟩, ⟨0, 0⟩⟩⟩

/-- Ten timeouts, the last of which fills the batch, and a push. -/
private def tenTimeouts : List Event :=
  List.replicate 10 (.telemetry .timeout fun _ => noFile) ++ [.push 0]

/-- Without the file, a batch of ten is decided by the heuristics. -/
theorem configured_fallback_no_file :
    ∃ classifier, namedDaemon.runAll tenTimeouts = some ⟨classifier,
      (run heuristicStep (.start namedModel.nodes .zero) tenTimeouts).sample,
      (run heuristicStep (.start namedModel.nodes .zero) tenTimeouts).daemon⟩ := by
  refine configured_fallback init_namedModel ?_
  intro ev hev
  obtain rfl | rfl : ev = .telemetry .timeout (fun _ => noFile) ∨ ev = .push 0 := by
    simpa [tenTimeouts] using hev
  · exact fun _ _ _ hloads => Bool.noConfusion hloads.1
  · trivial

end ConfiguredDaemon

end AieOs
