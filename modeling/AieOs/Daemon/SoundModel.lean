import AieOs.Daemon.Batches
import AieOs.Daemon.OnnxLifecycle
import AieOs.Daemon.Startup

namespace AieOs

open Lib

/-!
# A daemon with a sound model

A call of `classify` ends the daemon if an exception leaves it or an access is out of bounds.
With a model of the documented shape neither happens: the daemon goes on whatever else ONNX
Runtime does, and each sample passes through it in order, with one decision.

* `ConfiguredDaemon.Flow` — where the samples are, and what became of them;
* `ConfiguredDaemon.sound_model_flow` — that holds after every run.
-/

/-- A model with an input and an output, the result of which has the five elements that are
    read, and no failure before the `try` block of the inference. -/
structure OnnxEnv.Sound (env : OnnxEnv) : Prop where
  inputs : env.model.inputs ≠ []
  outputs : env.model.outputs ≠ []
  memoryInfo : env.inferThrows .memoryInfo = false
  createTensor : env.inferThrows .createTensor = false
  run : ∀ features, 5 ≤ (env.run features).length

/-- The decision is for the process of the sample, its device and its slice are those of its
    class, and the fields that nobody decides are zero. -/
structure DecisionFor (telem : AiTaskTelemetry) (decision : AiSchedDecision) : Prop where
  pid : decision.pid = telem.pid
  taskClass : decision.taskClass < 5
  preferredDevice :
    decision.preferredDevice = (Classifier.selectDevice decision.taskClass).code
  timeSlice :
    decision.timeSliceUs.toUInt64 * 1000 = Classifier.estimateTimeSlice decision.taskClass
  cpuAffinityMask : decision.cpuAffinityMask = 0
  priorityBoost : decision.priorityBoost = 0

namespace ConfiguredDaemon

/-- If a call of the iteration loads the model, it is a sound one. -/
def Event.Sound (model : Option Bytes) : Event → Prop
  | .telemetry _ calls => ∀ modelPath ∈ model, ∀ i, ((calls i).onnx modelPath).Sound
  | .push _            => True

/-- The names of a loaded model are there. -/
def SoundObject (model : Option Bytes) : ClassifierObject → Prop
  | .heuristic             => True
  | .onnx modelPath object =>
    modelPath ∈ model ∧ OnnxClassifier.Reached object ∧
      (object.loaded = true → object.inputNames ≠ [] ∧ object.outputNames ≠ [])

/-- Every sample classified has its decision, and every decision went to the backend for its
    device and waits for the writer or was handed to it, all in order. -/
structure Decided (d : AieDaemon) : Prop where
  backend : ∀ device, (d.deviceManager.selectBackend device).isSome
  decided : List.Forall₂ DecisionFor d.history.classified d.history.appended
  dispatched : d.history.dispatched.map (fun x => (some x.1, x.2))
    = d.history.appended.map fun decision =>
        (d.deviceManager.selectBackend decision.preferredDevice, decision)
  handed : d.history.writes.flatMap Prod.fst ++ d.pendingDecisions = d.history.appended

/-- The samples taken in were classified, or wait for a batch of ten. -/
structure Flow (d : AieDaemon) : Prop extends Decided d where
  ingested : d.history.ingested = d.history.classified ++ d.pendingTelemetry
  batch : d.pendingTelemetry.length < 10

/-! ### One call of `classify` -/

/-- A decision of the heuristics has the proper form. -/
theorem decisionFor_classifier (ts : Timespec) (telem : AiTaskTelemetry) :
    DecisionFor telem (Classifier.decisionFor ts telem) where
  pid := rfl
  taskClass := OnnxClassifier.heuristic_taskClass_lt telem
  preferredDevice := rfl
  timeSlice := Classifier.decisionFor_slice ts telem
  cpuAffinityMask := rfl
  priorityBoost := rfl

/-- A decision of a sound model has the proper form. -/
theorem decisionFor_model {e : OnnxCall} (hsound : e.env.Sound) :
    DecisionFor e.telemetry (OnnxClassifier.modelDecision e) where
  pid := rfl
  taskClass := OnnxClassifier.modelDecision_taskClass_lt e (hsound.run _)
  preferredDevice := rfl
  timeSlice := OnnxClassifier.decisionFor_slice _ _ _
  cpuAffinityMask := rfl
  priorityBoost := rfl

section
variable {model : Option Bytes} {classifier : ClassifierObject}

/-- The names that a call uses are those of a sound model. -/
theorem inBounds_of_sound {object : OnnxClassifier} {e : OnnxCall} (hsound : e.env.Sound)
    (hnames : object.loaded = true → object.inputNames ≠ [] ∧ object.outputNames ≠ []) :
    OnnxClassifier.InBounds object e := by
  refine ⟨?_, ?_, fun _ => hsound.run _⟩
  · unfold OnnxClassifier.inputsAt
    split
    · next hloaded => exact (hnames hloaded).1
    · exact hsound.inputs
  · unfold OnnxClassifier.outputsAt
    split
    · next hloaded => exact (hnames hloaded).2
    · exact hsound.outputs

/-- One call returns 0 with a decision of the proper form. -/
theorem SoundObject.classify (h : SoundObject model classifier) {call : ClassifyCall}
    (hcall : ∀ modelPath ∈ model, (call.onnx modelPath).Sound) (telem : AiTaskTelemetry)
    (buffer : AiSchedDecision) :
    ∃ classifier' decision, SoundObject model classifier' ∧ DecisionFor telem decision ∧
      classifier.classify call telem buffer = (.returned 0 (some decision), classifier') := by
  cases classifier with
  | heuristic =>
    exact ⟨.heuristic, _, trivial, decisionFor_classifier call.decisionClock telem, rfl⟩
  | onnx path object =>
    obtain ⟨hpath, hreached, hnames⟩ := h
    -- the call as `OnnxClassifier` sees it
    let e : OnnxCall :=
      ⟨{ call.onnx path with decisionClock := call.decisionClock }, telem, buffer⟩
    have hsound : e.env.Sound := { hcall path hpath with }
    have hbounds := inBounds_of_sound hsound hnames
    by_cases huse : OnnxClassifier.UsesModel object e.env
    · -- the model decides, or the heuristics after an exception
      obtain ⟨-, hinputs, houtputs⟩ := OnnxClassifier.step_of_usesModel hreached huse
      refine ⟨.onnx path (OnnxClassifier.step object e), _,
        ⟨hpath, hreached.step e, fun _ => ⟨hinputs ▸ hbounds.1, houtputs ▸ hbounds.2.1⟩⟩, ?_,
        congrArg (·, ClassifierObject.onnx path (OnnxClassifier.step object e))
          (OnnxClassifier.outcome_of_inBounds hreached huse hsound.memoryInfo
            hsound.createTensor hbounds)⟩
      split
      · exact decisionFor_classifier _ telem
      · exact decisionFor_model hsound
    · -- the model could not be loaded, and the heuristics decide
      have hnotLoaded := (OnnxClassifier.step_of_not_usesModel hreached huse).1
      refine ⟨.onnx path (OnnxClassifier.step object e), _,
        ⟨hpath, hreached.step e, fun hloaded => ?_⟩,
        decisionFor_classifier call.decisionClock telem,
        congrArg (·, ClassifierObject.onnx path (OnnxClassifier.step object e))
          (OnnxClassifier.outcome_of_not_usesModel hreached huse)⟩
      rw [hnotLoaded] at hloaded
      cases hloaded

/-! ### One batch -/

variable {d : AieDaemon}

/-- The decision goes to the backend for its device, and waits for the writer. -/
theorem Decided.classifySample (h : Decided d) {telem : AiTaskTelemetry}
    {decision : AiSchedDecision} (hdecision : DecisionFor telem decision) (clock : Timespec) :
    Decided (d.classifySample ⟨clock, fun _ _ => (0, decision)⟩ telem) := by
  obtain ⟨backend, hbackend⟩ := Option.isSome_iff_exists.mp (h.backend decision.preferredDevice)
  -- the backend is there, so the decision is dispatched before it is appended
  have hsample : d.classifySample ⟨clock, fun _ _ => (0, decision)⟩ telem
      = ({ d with history := { d.history with classified := d.history.classified ++ [telem] } }
          |>.dispatch backend decision).pushBackDecision decision := by
    simp [AieDaemon.classifySample, hbackend]
  rw [hsample]
  refine ⟨h.backend, List.rel_append h.decided (.cons hdecision .nil), ?_, ?_⟩
  · simp only [AieDaemon.pushBackDecision, AieDaemon.dispatch, List.map_append, List.map_cons,
      List.map_nil, hbackend, h.dispatched]
  · simp only [AieDaemon.pushBackDecision, AieDaemon.dispatch, ← List.append_assoc, h.handed]

/-- A batch is classified to its end. -/
theorem SoundObject.classifySamples (hobject : SoundObject model classifier)
    {calls : ℕ → ClassifyCall}
    (hcalls : ∀ modelPath ∈ model, ∀ i, ((calls i).onnx modelPath).Sound)
    (samples : List AiTaskTelemetry) (h : Decided d) :
    ∃ classifier' d', SoundObject model classifier' ∧ Decided d' ∧
      ConfiguredDaemon.classifySamples calls samples classifier d = some (classifier', d') ∧
      d'.history.classified = d.history.classified ++ samples ∧
      d'.history.ingested = d.history.ingested := by
  induction samples generalizing calls classifier d with
  | nil => exact ⟨classifier, d, hobject, h, rfl, (List.append_nil _).symm, rfl⟩
  | cons telem rest ih =>
    -- the first sample, then the rest with the classifier that the call leaves
    obtain ⟨classifier₁, decision, hobject₁, hdecision, hcall⟩ :=
      hobject.classify (fun path hpath => hcalls path hpath 0) telem
        { AiSchedDecision.zero with pid := telem.pid, tsDecision := (calls 0).clock.toNs }
    obtain ⟨classifier₂, d', hobject₂, hd', hrest, hclassified, hingested⟩ :=
      ih hobject₁ (fun path hpath i => hcalls path hpath (i + 1))
        (h.classifySample hdecision (calls 0).clock)
    refine ⟨classifier₂, d', hobject₂, hd', ?_, ?_, ?_⟩
    · rw [ConfiguredDaemon.classifySamples, hcall]
      exact hrest
    · rw [hclassified, AieDaemon.classifySample_classified, List.append_assoc,
        List.singleton_append]
    · rw [hingested]
      exact (AieDaemon.classifySample_frame _ _ _).2.2.1

end

/-! ### One iteration -/

/-- A sample that is taken in waits behind the others. -/
theorem Flow.ingested_pushBackTelemetry {d : AieDaemon} (h : Flow d) (sample : AiTaskTelemetry) :
    (d.pushBackTelemetry sample).history.ingested
      = (d.pushBackTelemetry sample).history.classified
        ++ (d.pushBackTelemetry sample).pendingTelemetry := by
  show d.history.ingested ++ [sample]
    = d.history.classified ++ (d.pendingTelemetry ++ [sample])
  rw [h.ingested, List.append_assoc]

/-- A push hands over what is pending. -/
theorem Flow.pushDecisions {d : AieDaemon} (h : Flow d) (ret : Int32) :
    Flow (d.pushDecisions ret) := by
  unfold AieDaemon.pushDecisions
  split
  · exact h
  · refine { h with handed := ?_ }
    simpa [AieDaemon.writeDecisions] using h.handed

/-- What the worker does with the return of a poll. -/
theorem Flow.handleReturn {model : Option Bytes} {s : ConfiguredDaemon} (h : Flow s.daemon)
    (hobject : SoundObject model s.classifier) {calls : ℕ → ClassifyCall}
    (hcalls : ∀ modelPath ∈ model, ∀ i, ((calls i).onnx modelPath).Sound) (ret : Int32) :
    ∃ s', handleReturn ret calls s = some s' ∧ SoundObject model s'.classifier ∧
      Flow s'.daemon := by
  simp only [ConfiguredDaemon.handleReturn]
  split_ifs with hret hfull herror
  · -- the batch is full
    let d := s.daemon.pushBackTelemetry s.sample
    have hd : Decided d := { h.toDecided with }
    obtain ⟨classifier', d', hobject', hd', hbatch, hclassified, hingested⟩ :=
      hobject.classifySamples hcalls d.pendingTelemetry hd
    refine ⟨_, by rw [hbatch]; rfl, hobject', { hd' with ingested := ?_, batch := by simp }⟩
    show d'.history.ingested = d'.history.classified ++ []
    rw [hingested, hclassified, List.append_nil]
    exact h.ingested_pushBackTelemetry s.sample
  · -- the sample waits for others
    exact ⟨_, rfl, hobject, { h.toDecided with
      ingested := h.ingested_pushBackTelemetry s.sample
      batch := Nat.lt_of_not_le hfull }⟩
  · -- an error is only reported
    exact ⟨_, rfl, hobject, { h with }⟩
  · exact ⟨s, rfl, hobject, h⟩

/-- **One iteration** with a sound model does not end the daemon. -/
theorem Flow.step {model : Option Bytes} {s : ConfiguredDaemon} (h : Flow s.daemon)
    (hobject : SoundObject model s.classifier) {e : Event} (he : e.Sound model) :
    ∃ s', s.step e = some s' ∧ SoundObject model s'.classifier ∧ Flow s'.daemon := by
  cases e with
  | push ret => exact ⟨_, rfl, hobject, h.pushDecisions ret⟩
  | telemetry poll calls =>
    simp only [ConfiguredDaemon.step]
    obtain ⟨ret, sample, telemetryReader⟩ :=
      s.daemon.telemetryReader.readSample poll s.sample
    exact @Flow.handleReturn model
      { s with sample, daemon := { s.daemon with telemetryReader } } { h with } hobject calls he ret

/-- The classifier that `init` makes has loaded nothing yet. -/
theorem soundObject_configuredClassifier (conf : Option Bytes) :
    SoundObject (configuredModel conf) (configuredClassifier conf) := by
  unfold configuredModel
  obtain hconf | ⟨modelPath, hconf⟩ := configuredClassifier_new conf
  · rw [hconf]
    trivial
  · rw [hconf]
    exact ⟨rfl, OnnxClassifier.reached_new, fun hloaded => by cases hloaded⟩

/-- At the start nothing has come in. -/
theorem flow_initialised (nodes : DeviceNodes) : Flow (AieDaemon.initialised nodes) where
  backend := DeviceManager.selectBackend_init_isSome nodes _
  decided := .nil
  dispatched := rfl
  handed := rfl
  ingested := rfl
  batch := Nat.zero_lt_succ 9

/-- **Flow.** A daemon that has started and finds no model but sound ones never ends: in every
    run of whole iterations its samples pass through in order, ten at a time, each with one
    decision of a proper form, which goes to one backend and is handed to the writer once, or
    is still pending. -/
theorem sound_model_flow {e : Startup} {sample : AiTaskTelemetry} {s : ConfiguredDaemon}
    (hs : init e sample = (0, some s)) {es : List Event}
    (hes : ∀ ev ∈ es, ev.Sound (configuredModel e.conf)) :
    ∃ s', s.runAll es = some s' ∧ Flow s'.daemon := by
  have hobject : SoundObject (configuredModel e.conf) s.classifier := by
    rw [eq_of_init hs]
    exact soundObject_configuredClassifier e.conf
  have hflow : Flow s.daemon := by
    rw [eq_of_init hs]
    exact flow_initialised e.nodes
  -- the induction is over the states that a run passes, not over where it started
  clear hs
  induction es generalizing s with
  | nil => exact ⟨s, rfl, hflow⟩
  | cons ev es ih =>
    rw [List.forall_mem_cons] at hes
    obtain ⟨t, hstep, hobject', hflow'⟩ := hflow.step hobject hes.1
    obtain ⟨s', hrun, hfinal⟩ := ih hes.2 hobject' hflow'
    refine ⟨s', ?_, hfinal⟩
    rw [runAll, List.foldlM_cons, hstep]
    exact hrun

/-- A call that can load the model, and run it. -/
private def soundCall : ClassifyCall :=
  ⟨⟨0, 0⟩, ⟨0, 0⟩, fun _ => ⟨true, ⟨["input"], ["output"], [1, 10]⟩, fun _ => false,
    fun _ => false, fun _ => [0, 0, 0, 0, 0], ⟨0, 0⟩, ⟨0, 0⟩⟩⟩

/-- The model there is sound. -/
private theorem sound_soundCall (modelPath : Bytes) : (soundCall.onnx modelPath).Sound where
  inputs := List.cons_ne_nil _ _
  outputs := List.cons_ne_nil _ _
  memoryInfo := rfl
  createTensor := rfl
  run := fun _ => le_rfl

/-- Ten timeouts, the last of which fills the batch, and a push. -/
private def batchAndPush : List Event :=
  List.replicate 10 (.telemetry .timeout fun _ => soundCall) ++ [.push 0]

/-- A batch of ten is classified and handed over. -/
theorem sound_model_flow_batch :
    ∃ s', namedDaemon.runAll batchAndPush = some s' ∧ Flow s'.daemon := by
  refine sound_model_flow init_namedModel ?_
  intro ev hev
  obtain rfl | rfl : ev = .telemetry .timeout (fun _ => soundCall) ∨ ev = .push 0 := by
    simpa [batchAndPush] using hev
  · exact fun modelPath _ _ => sound_soundCall modelPath
  · trivial

end ConfiguredDaemon

end AieOs
