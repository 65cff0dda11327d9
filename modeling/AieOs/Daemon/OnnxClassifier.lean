import AieOs.Daemon.Classifier

namespace AieOs

/-!
# `onnx_classifier.cpp` — the model-based classifier

`OnnxClassifier` loads its model at the first `classify` and falls back to the heuristics
of the base class.  A call into ONNX Runtime either succeeds or throws `Ort::Exception`;
which of them throw, and what a loaded model is and computes, is given by the environment.
The object keeps what was done before a throw.
-/

/-! ### The environment -/

/-- The ONNX Runtime calls in the `try` block of `load_model`. -/
inductive LoadCall
  | env | allocator | sessionOptions | setIntraOpNumThreads | setGraphOptimizationLevel
  | session | getInputCount | getInputName (i : ℕ) | getOutputCount | getOutputName (i : ℕ)
  | getInputTypeInfo | getTensorTypeAndShapeInfo | getShape
  deriving DecidableEq, Repr

/-- The ONNX Runtime calls of `classify` itself. -/
inductive InferCall
  | memoryInfo | createTensor | runOptions | run | getTensorMutableData
  deriving DecidableEq, Repr

/-- What a model file describes. -/
structure OnnxModel where
  inputs : List String
  outputs : List String
  inputShape : List Int64

/-- `float features[6]`. -/
abbrev Features := Vector Float32 6

/-- What one call of `classify` meets. -/
structure OnnxEnv where
  /-- `std::ifstream f(model_path_); f.good()`. -/
  fileGood : Bool
  model : OnnxModel
  loadThrows : LoadCall → Bool
  inferThrows : InferCall → Bool
  /-- The elements of the one tensor that `Run` returns. -/
  run : Features → List Float32
  /-- The clock reading of feature 4. -/
  featuresClock : Timespec
  /-- The clock reading of the decision. -/
  decisionClock : Timespec

/-! ### Loading -/

/-- `class OnnxClassifier`.  A pointer is whether it is set. -/
structure OnnxClassifier where
  loaded : Bool
  loadFailed : Bool
  env : Bool
  session : Bool
  allocator : Bool
  inputNames : List String
  outputNames : List String
  inputShape : List Int64
  deriving DecidableEq, Repr

/-- How a call ends. -/
inductive OnnxOutcome
  /-- It returns, with the decision buffer as it is then. -/
  | returned (ret : Int32) (decision : Option AiSchedDecision)
  /-- `Ort::Exception` leaves it. -/
  | threw
  /-- It reads past the end of an array; anything may happen. -/
  | outOfBounds
  deriving DecidableEq, Repr

namespace OnnxClassifier

/-- `OnnxClassifier::OnnxClassifier`. -/
def new : OnnxClassifier := ⟨false, false, false, false, false, [], [], []⟩

/-- A sequence of calls, each with its effect, up to the first that throws: whether none
    did, and the object then. -/
def tryCalls (throws : LoadCall → Bool) :
    List (LoadCall × (OnnxClassifier → OnnxClassifier)) → OnnxClassifier → Bool × OnnxClassifier
  | [], c                     => (true, c)
  | (call, effect) :: rest, c =>
    if throws call then (false, c) else tryCalls throws rest (effect c)

/-- The calls in the `try` block of `load_model`. -/
def loadCalls (model : OnnxModel) : List (LoadCall × (OnnxClassifier → OnnxClassifier)) :=
  [(.env, fun c => { c with env := true }),
    (.allocator, fun c => { c with allocator := true }),
    (.sessionOptions, id),
    (.setIntraOpNumThreads, id),
    (.setGraphOptimizationLevel, id),
    -- if one of the next throws, the session stays, but is not used
    (.session, fun c => { c with session := true }),
    (.getInputCount, id)] ++
  model.inputs.mapIdx (fun i name =>
    (.getInputName i, fun c => { c with inputNames := c.inputNames ++ [name] })) ++
  [(.getOutputCount, id)] ++
  model.outputs.mapIdx (fun i name =>
    (.getOutputName i, fun c => { c with outputNames := c.outputNames ++ [name] })) ++
  -- the shape of the first input, if there is one
  if model.inputs.length > 0 then
    [(.getInputTypeInfo, id), (.getTensorTypeAndShapeInfo, id),
      (.getShape, fun c => { c with inputShape := model.inputShape })]
  else []

/-- `load_model`. -/
def loadModel (env : OnnxEnv) (c : OnnxClassifier) : Bool × OnnxClassifier :=
  if c.loaded || c.loadFailed then (c.loaded, c)
  else if !env.fileGood then (false, { c with loadFailed := true })
  else
    match tryCalls env.loadThrows (loadCalls env.model) c with
    | (true, c)  => (true, { c with loaded := true })
    | (false, c) => (false, { c with loadFailed := true, loaded := false })

/-! ### Classifying -/

/-- The features of a record.  The sum of the two I/O counts is a 32-bit one, and the age
    is a difference of unsigned 64-bit numbers. -/
def features (clock : Timespec) (telemetry : AiTaskTelemetry) : Features :=
  #v[telemetry.cpuUtilRecent.toFloat32,
    telemetry.memoryRssMb.toFloat32 * 1024 * 1024,
    (telemetry.ioReadBytes + telemetry.ioWriteBytes).toFloat32,
    telemetry.syscallCount.toFloat32,
    ((clock.toNs - telemetry.tsEnqueue) / 1000000).toFloat32,
    telemetry.numThreads.toFloat32]

/-- `std::max_element`: the index of the first element that no later one exceeds, where the
    best so far is `best` at `bestIdx`, and the next element has index `i`. -/
def maxElementFrom (best : Float32) (bestIdx i : ℕ) : List Float32 → ℕ
  | []      => bestIdx
  | x :: xs =>
    -- a comparison with a NaN is false, so it is never better, and nothing is better than it
    if best < x then maxElementFrom x i (i + 1) xs else maxElementFrom best bestIdx (i + 1) xs

/-- `std::distance(prob, std::max_element(prob, prob + n))` for the elements `prob[0..n)`. -/
def maxElement : List Float32 → ℕ
  | []      => 0
  | x :: xs => maxElementFrom x 0 1 xs

/-- The decision for a record that the model puts into `taskClass`. -/
def decisionFor (ts : Timespec) (telemetry : AiTaskTelemetry) (taskClass : UInt32) :
    AiSchedDecision where
  pid := telemetry.pid
  tsDecision := ts.toNs
  taskClass
  preferredDevice := (Classifier.selectDevice taskClass).code
  timeSliceUs := (Classifier.estimateTimeSlice taskClass / 1000).toUInt32
  cpuAffinityMask := 0
  priorityBoost := 0

/-- The part of `classify` for a loaded model. -/
def infer (env : OnnxEnv) (telemetry : AiTaskTelemetry) (decision : AiSchedDecision)
    (c : OnnxClassifier) : OnnxOutcome :=
  let features := features env.featuresClock telemetry
  -- these two calls and the two names come before the `try` block
  if env.inferThrows .memoryInfo || env.inferThrows .createTensor then .threw
  else if c.inputNames.isEmpty || c.outputNames.isEmpty then .outOfBounds
  else if env.inferThrows .runOptions || env.inferThrows .run ||
      env.inferThrows .getTensorMutableData then
    let (ret, decision) :=
      Classifier.classify env.decisionClock (some telemetry) (some decision)
    .returned ret decision
  else
    let prob := env.run features
    if prob.length < 5 then .outOfBounds
    else
      let maxIdx := maxElement (prob.take 5)
      .returned 0 (some (decisionFor env.decisionClock telemetry (UInt32.ofNat maxIdx)))

/-- `classify`. -/
def classify (env : OnnxEnv) (telemetry : Option AiTaskTelemetry)
    (decision : Option AiSchedDecision) (c : OnnxClassifier) : OnnxOutcome × OnnxClassifier :=
  match telemetry, decision with
  | some telemetry, some decision =>
    let c := if !c.loaded && !c.loadFailed then (c.loadModel env).2 else c
    if !c.loaded then
      let (ret, decision) :=
        Classifier.classify env.decisionClock (some telemetry) (some decision)
      (.returned ret decision, c)
    else (c.infer env telemetry decision, c)
  | _, _ => (.returned (-1) decision, c)

/-! ### What `classify` returns -/

/-- The base class decides like the model would, for its own class. -/
theorem classifier_decisionFor (ts : Timespec) (t : AiTaskTelemetry) :
    Classifier.decisionFor ts t
      = decisionFor ts t (Classifier.classifyHeuristic (some t)).code := rfl

section
variable {env : OnnxEnv} {t : AiTaskTelemetry} {d decision : AiSchedDecision}
  {c : OnnxClassifier} {ret : Int32}

/-- An inference that returns a decision returns one for some class. -/
theorem infer_returned (h : c.infer env t d = .returned ret (some decision)) :
    ret = 0 ∧ ∃ taskClass, decision = decisionFor env.decisionClock t taskClass := by
  unfold infer at h
  dsimp only at h
  split at h
  · cases h
  split at h
  · cases h
  split at h
  · -- an exception inside the `try` block
    cases h
    exact ⟨rfl, _, classifier_decisionFor _ _⟩
  split at h
  · cases h
  · cases h
    exact ⟨rfl, _, rfl⟩

/-- Whatever the model does, a decision is the one for some class. -/
theorem classify_returned
    (h : (classify env (some t) (some d) c).1 = .returned ret (some decision)) :
    ret = 0 ∧ ∃ taskClass, decision = decisionFor env.decisionClock t taskClass := by
  unfold classify at h
  dsimp only at h
  generalize (if !c.loaded && !c.loadFailed then (c.loadModel env).2 else c) = c' at h
  split at h
  · cases h
    exact ⟨rfl, _, classifier_decisionFor _ _⟩
  · exact infer_returned (d := d) h

end

end OnnxClassifier

end AieOs
