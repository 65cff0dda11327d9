import AieOs.Daemon.OnnxClassifier
import AieOs.Lib.Runs

namespace AieOs

open Lib

/-!
# Sequences of `OnnxClassifier::classify` calls

The model is loaded by the first call, and every later call uses it or falls back.  The
code guards neither the two names it takes from the model nor the size of the tensor that
`Run` returns, and two ONNX calls come before the `try` block of the inference.

* `Reached` — what holds of the object after any calls;
* `outcome_of_usesModel`, `outcome_of_not_usesModel` — what a call does, in one of the two
  situations;
* `accesses_in_bounds_iff`, `onnx_failures_handled_iff` — which models are safe to run,
  and which failures are handled.
-/

/-- A call of `classify`, its pointer arguments not null. -/
structure OnnxCall where
  env : OnnxEnv
  telemetry : AiTaskTelemetry
  /-- The decision buffer before the call. -/
  decision : AiSchedDecision

/-- `load_model` gets to the end of its `try` block. -/
def OnnxEnv.Loads (env : OnnxEnv) : Prop :=
  env.fileGood = true ∧ ∀ call ∈ OnnxClassifier.loadCalls env.model, env.loadThrows call.1 = false

/-- An ONNX call in the `try` block of `classify` throws. -/
def OnnxEnv.tryThrows (env : OnnxEnv) : Bool :=
  env.inferThrows .runOptions || env.inferThrows .run || env.inferThrows .getTensorMutableData

/-- A throw that does not come before the `try` block comes inside it. -/
theorem OnnxEnv.tryThrows_of_throws {env : OnnxEnv}
    (hmem : env.inferThrows .memoryInfo = false) (htensor : env.inferThrows .createTensor = false)
    (hthrow : ∃ call, env.inferThrows call = true) : env.tryThrows = true := by
  obtain ⟨call, hcall⟩ := hthrow
  cases call with
  | memoryInfo => simp [hmem] at hcall
  | createTensor => simp [htensor] at hcall
  | runOptions => simp [OnnxEnv.tryThrows, hcall]
  | run => simp [OnnxEnv.tryThrows, hcall]
  | getTensorMutableData => simp [OnnxEnv.tryThrows, hcall]

namespace OnnxClassifier

/-- How a call ends. -/
def outcome (c : OnnxClassifier) (e : OnnxCall) : OnnxOutcome :=
  (classify e.env (some e.telemetry) (some e.decision) c).1

/-- The object after a call. -/
def step (c : OnnxClassifier) (e : OnnxCall) : OnnxClassifier :=
  (classify e.env (some e.telemetry) (some e.decision) c).2

/-- A call goes on to the inference: a model is loaded, or this call loads it. -/
def UsesModel (c : OnnxClassifier) (env : OnnxEnv) : Prop :=
  c.loaded = true ∨ c.loadFailed = false ∧ env.Loads

/-- The inputs of the model that a call uses. -/
def inputsAt (c : OnnxClassifier) (env : OnnxEnv) : List String :=
  if c.loaded then c.inputNames else env.model.inputs

@[inherit_doc inputsAt]
def outputsAt (c : OnnxClassifier) (env : OnnxEnv) : List String :=
  if c.loaded then c.outputNames else env.model.outputs

/-- The object after any calls. -/
structure Reached (c : OnnxClassifier) : Prop where
  /-- At most one of the flags is set. -/
  flags : ¬ (c.loaded = true ∧ c.loadFailed = true)
  /-- Until one of them is, nothing has happened. -/
  fresh : c.loaded = false → c.loadFailed = false → c = new
  session : c.loaded = true → c.session = true

/-! ### What `load_model` does -/

/-- A sequence of calls gets to its end iff none of them throws. -/
theorem tryCalls_eq_true_iff (throws : LoadCall → Bool)
    (calls : List (LoadCall × (OnnxClassifier → OnnxClassifier))) (c : OnnxClassifier) :
    (tryCalls throws calls c).1 = true ↔ ∀ call ∈ calls, throws call.1 = false := by
  induction calls generalizing c with
  | nil => simp [tryCalls]
  | cons call rest ih =>
    by_cases hthrow : throws call.1 = true
    · simp [tryCalls, hthrow]
    · simp [tryCalls, hthrow, ih]

/-- Without a throw all the calls take effect. -/
theorem tryCalls_of_forall {throws : LoadCall → Bool}
    {calls : List (LoadCall × (OnnxClassifier → OnnxClassifier))}
    (h : ∀ call ∈ calls, throws call.1 = false) (c : OnnxClassifier) :
    (tryCalls throws calls c).2 = calls.foldl (fun c call => call.2 c) c := by
  induction calls generalizing c with
  | nil => rfl
  | cons call rest ih =>
    rw [List.forall_mem_cons] at h
    simp [tryCalls, h.1, ih h.2]

/-- Names are cached one after the other; `cached` is the object with some of them. -/
theorem foldl_names {effect : String → OnnxClassifier → OnnxClassifier}
    {cached : List String → OnnxClassifier}
    (heffect : ∀ before name, effect name (cached before) = cached (before ++ [name]))
    (call : ℕ → LoadCall) (names before : List String) :
    (names.mapIdx fun i name => (call i, effect name)).foldl (fun c call => call.2 c)
        (cached before)
      = cached (before ++ names) := by
  induction names generalizing call before with
  | nil => rw [List.mapIdx_nil, List.foldl_nil, List.append_nil]
  | cons name names ih =>
    -- the first name is appended to those that are cached already
    have hfirst : (call 0, effect name).2 (cached before) = cached (before ++ [name]) :=
      heffect before name
    rw [List.mapIdx_cons, List.foldl_cons, hfirst, ih fun i => call (i + 1),
      List.append_assoc, List.singleton_append]

/-- The input names of the model are cached in order. -/
theorem foldl_inputNames (call : ℕ → LoadCall) (names : List String) (c : OnnxClassifier) :
    (names.mapIdx fun i name =>
        (call i, fun c : OnnxClassifier => { c with inputNames := c.inputNames ++ [name] })).foldl
        (fun c call => call.2 c) c
      = { c with inputNames := c.inputNames ++ names } :=
  @foldl_names (fun name c => { c with inputNames := c.inputNames ++ [name] })
    (fun inputNames => { c with inputNames }) (fun _ _ => rfl) call names c.inputNames

/-- The output names of the model are cached in order. -/
theorem foldl_outputNames (call : ℕ → LoadCall) (names : List String) (c : OnnxClassifier) :
    (names.mapIdx fun i name =>
        (call i, fun c : OnnxClassifier => { c with outputNames := c.outputNames ++ [name] })).foldl
        (fun c call => call.2 c) c
      = { c with outputNames := c.outputNames ++ names } :=
  @foldl_names (fun name c => { c with outputNames := c.outputNames ++ [name] })
    (fun outputNames => { c with outputNames }) (fun _ _ => rfl) call names c.outputNames

/-- The object with the model of `env`. -/
def loadedFrom (env : OnnxEnv) : OnnxClassifier where
  loaded := true
  loadFailed := false
  env := true
  session := true
  allocator := true
  inputNames := env.model.inputs
  outputNames := env.model.outputs
  inputShape := if env.model.inputs.length > 0 then env.model.inputShape else []

/-- A load that gets to its end. -/
theorem loadModel_of_loads {env : OnnxEnv} (h : env.Loads) :
    new.loadModel env = (true, loadedFrom env) := by
  have hok := (tryCalls_eq_true_iff env.loadThrows (loadCalls env.model) new).mpr h.2
  have heffect : (tryCalls env.loadThrows (loadCalls env.model) new).2
      = { loadedFrom env with loaded := false } := by
    rw [tryCalls_of_forall h.2, loadCalls]
    simp only [List.foldl_append, foldl_inputNames, foldl_outputNames]
    by_cases hlen : env.model.inputs.length > 0 <;> simp [hlen, loadedFrom, new]
  unfold loadModel
  generalize tryCalls env.loadThrows (loadCalls env.model) new = result at hok heffect
  obtain ⟨ok, c⟩ := result
  subst hok heffect
  simp [new, h.1, loadedFrom]

/-- A load that does not: the file is missing, or an ONNX call throws. -/
theorem loadModel_of_not_loads {env : OnnxEnv} (h : ¬ env.Loads) :
    (new.loadModel env).2.loaded = false ∧ (new.loadModel env).2.loadFailed = true := by
  by_cases hgood : env.fileGood = true
  · have hthrow : (tryCalls env.loadThrows (loadCalls env.model) new).1 = false := by
      rw [← Bool.not_eq_true, tryCalls_eq_true_iff]
      exact fun hcalls => h ⟨hgood, hcalls⟩
    unfold loadModel
    generalize tryCalls env.loadThrows (loadCalls env.model) new = result at hthrow
    obtain ⟨ok, c⟩ := result
    subst hthrow
    simp [new, hgood]
  · simp [loadModel, new, hgood]

/-! ### What a call does -/

section
variable {c : OnnxClassifier} {e : OnnxCall}

/-- The object that was just constructed. -/
theorem reached_new : Reached new := ⟨by decide, fun _ _ => rfl, by decide⟩

/-- The object that a call works with, once it has tried to load the model. -/
def afterLoad (env : OnnxEnv) (c : OnnxClassifier) : OnnxClassifier :=
  if !c.loaded && !c.loadFailed then (c.loadModel env).2 else c

/-- What a call leaves is the object it works with. -/
theorem step_eq (c : OnnxClassifier) (e : OnnxCall) : step c e = afterLoad e.env c := by
  unfold step classify
  dsimp only
  rw [← afterLoad]
  generalize afterLoad e.env c = c'
  cases c'.loaded <;> rfl

/-- A call goes on with the model if there is one then, else with the heuristics. -/
theorem outcome_eq (c : OnnxClassifier) (e : OnnxCall) :
    outcome c e =
      if (step c e).loaded then (step c e).infer e.env e.telemetry e.decision
      else .returned 0 (some (Classifier.decisionFor e.env.decisionClock e.telemetry)) := by
  rw [step_eq]
  unfold outcome classify
  dsimp only
  rw [← afterLoad]
  generalize afterLoad e.env c = c'
  cases c'.loaded <;> rfl

/-- What a call leaves: the object as it was, with a model, or without. -/
theorem afterLoad_cases (h : Reached c) (env : OnnxEnv) :
    c.loaded = true ∧ afterLoad env c = c ∨
    c.loadFailed = true ∧ c.loaded = false ∧ afterLoad env c = c ∨
    c = new ∧ env.Loads ∧ afterLoad env c = loadedFrom env ∨
    c = new ∧ ¬ env.Loads ∧ (afterLoad env c).loaded = false ∧
      (afterLoad env c).loadFailed = true := by
  cases hloaded : c.loaded with
  | true => exact .inl ⟨rfl, by simp [afterLoad, hloaded]⟩
  | false =>
    cases hfailed : c.loadFailed with
    | true => exact .inr (.inl ⟨rfl, rfl, by simp [afterLoad, hfailed]⟩)
    | false =>
      -- neither flag is set: nothing has happened yet, and the model is loaded now
      obtain rfl := h.fresh hloaded hfailed
      have hafter : afterLoad env new = (new.loadModel env).2 := rfl
      by_cases hloads : env.Loads
      · exact .inr (.inr (.inl ⟨rfl, hloads, by rw [hafter, loadModel_of_loads hloads]⟩))
      · exact .inr (.inr (.inr ⟨rfl, hloads, by rw [hafter]; exact loadModel_of_not_loads hloads⟩))

/-- One call keeps the invariant. -/
theorem Reached.step (h : Reached c) (e : OnnxCall) : Reached (step c e) := by
  rw [step_eq]
  rcases afterLoad_cases h e.env with ⟨-, hsame⟩ | ⟨-, -, hsame⟩ | ⟨-, -, hload⟩ | ⟨-, -, hl, hf⟩
  · rwa [hsame]
  · rwa [hsame]
  · rw [hload]
    exact ⟨by simp [loadedFrom], by simp [loadedFrom], fun _ => rfl⟩
  · exact ⟨by simp [hl], by simp [hf], by simp [hl]⟩

/-- A call that goes on to the inference does so with the names of `inputsAt` and
    `outputsAt`. -/
theorem step_of_usesModel (h : Reached c) (huse : UsesModel c e.env) :
    (step c e).loaded = true ∧ (step c e).inputNames = inputsAt c e.env ∧
      (step c e).outputNames = outputsAt c e.env := by
  rw [step_eq]
  rcases afterLoad_cases h e.env with
    ⟨hl, hsame⟩ | ⟨hf, hl, -⟩ | ⟨rfl, -, hload⟩ | ⟨rfl, hnot, -, -⟩
  · simp [hsame, hl, inputsAt, outputsAt]
  · simp [UsesModel, hf, hl] at huse
  · rw [hload]
    exact ⟨rfl, rfl, rfl⟩
  · simp [UsesModel, new, hnot] at huse

/-- A call without a model leaves the object without one for good. -/
theorem step_of_not_usesModel (h : Reached c) (huse : ¬ UsesModel c e.env) :
    (step c e).loaded = false ∧ (step c e).loadFailed = true := by
  rw [step_eq]
  rcases afterLoad_cases h e.env with
    ⟨hl, -⟩ | ⟨hf, hl, hsame⟩ | ⟨rfl, hloads, -⟩ | ⟨-, -, hl, hf⟩
  · exact absurd (.inl hl) huse
  · exact ⟨by rw [hsame, hl], by rw [hsame, hf]⟩
  · exact absurd (.inr ⟨rfl, hloads⟩) huse
  · exact ⟨hl, hf⟩

/-- Without a model a call decides by the heuristics. -/
theorem outcome_of_not_usesModel (h : Reached c) (huse : ¬ UsesModel c e.env) :
    outcome c e = .returned 0 (some (Classifier.decisionFor e.env.decisionClock e.telemetry)) := by
  simp [outcome_eq, (step_of_not_usesModel h huse).1]

/-- With a model a call ends as the inference does. -/
theorem outcome_of_usesModel (h : Reached c) (huse : UsesModel c e.env) :
    outcome c e = (step c e).infer e.env e.telemetry e.decision := by
  simp [outcome_eq, (step_of_usesModel h huse).1]

/-- The array accesses of the inference, where they are reached, are in bounds. -/
def InBounds (c : OnnxClassifier) (e : OnnxCall) : Prop :=
  inputsAt c e.env ≠ [] ∧ outputsAt c e.env ≠ [] ∧
    (e.env.tryThrows = false →
      5 ≤ (e.env.run (features e.env.featuresClock e.telemetry)).length)

/-- The decision of the model. -/
def modelDecision (e : OnnxCall) : AiSchedDecision :=
  let prob := e.env.run (features e.env.featuresClock e.telemetry)
  decisionFor e.env.decisionClock e.telemetry (UInt32.ofNat (maxElement (prob.take 5)))

/-- An exception before the `try` block leaves the call. -/
theorem outcome_of_throws (h : Reached c) (huse : UsesModel c e.env)
    (hthrow : e.env.inferThrows .memoryInfo = true ∨ e.env.inferThrows .createTensor = true) :
    outcome c e = .threw := by
  rw [outcome_of_usesModel h huse]
  simp [infer, hthrow]

/-- A call that gets to the names of the model. -/
theorem outcome_of_created (h : Reached c) (huse : UsesModel c e.env)
    (hmem : e.env.inferThrows .memoryInfo = false)
    (htensor : e.env.inferThrows .createTensor = false) :
    outcome c e =
      if (inputsAt c e.env).isEmpty || (outputsAt c e.env).isEmpty then .outOfBounds
      else if e.env.tryThrows then
        .returned 0 (some (Classifier.decisionFor e.env.decisionClock e.telemetry))
      else if (e.env.run (features e.env.featuresClock e.telemetry)).length < 5 then .outOfBounds
      else .returned 0 (some (modelDecision e)) := by
  obtain ⟨-, hin, hout⟩ := step_of_usesModel h huse
  rw [outcome_of_usesModel h huse]
  unfold infer
  dsimp only
  rw [if_neg (by simp [hmem, htensor]), hin, hout, ← OnnxEnv.tryThrows]
  rfl

/-- A model that does not fit is read past an end. -/
theorem outcome_of_not_inBounds (h : Reached c) (huse : UsesModel c e.env)
    (hmem : e.env.inferThrows .memoryInfo = false)
    (htensor : e.env.inferThrows .createTensor = false) (hbounds : ¬ InBounds c e) :
    outcome c e = .outOfBounds := by
  rw [outcome_of_created h huse hmem htensor]
  by_cases hnames : ((inputsAt c e.env).isEmpty || (outputsAt c e.env).isEmpty) = true
  · rw [if_pos hnames]
  · -- the names are there, so it is the tensor that is short
    rw [if_neg hnames]
    simp only [Bool.or_eq_true, List.isEmpty_iff, not_or] at hnames
    simp only [InBounds, ne_eq, hnames, not_false_eq_true, true_and, Classical.not_imp,
      not_le] at hbounds
    simp [hbounds.1, hbounds.2]

/-- A call whose accesses are in bounds and that nothing leaves. -/
theorem outcome_of_inBounds (h : Reached c) (huse : UsesModel c e.env)
    (hmem : e.env.inferThrows .memoryInfo = false)
    (htensor : e.env.inferThrows .createTensor = false) (hbounds : InBounds c e) :
    outcome c e = .returned 0 (some (
      if e.env.tryThrows then Classifier.decisionFor e.env.decisionClock e.telemetry
      else modelDecision e)) := by
  rw [outcome_of_created h huse hmem htensor, if_neg (by simp [hbounds.1, hbounds.2.1])]
  cases htry : e.env.tryThrows with
  | true => rw [if_pos rfl, if_pos rfl]
  | false =>
    have hlen := hbounds.2.2 htry
    rw [if_neg Bool.false_ne_true, if_neg (by omega), if_neg Bool.false_ne_true]

end

/-! ### Which models are safe to run -/

section
variable {env : OnnxEnv} {e : OnnxCall}

/-- The object with a model is one that calls can reach. -/
theorem reached_loadedFrom (env : OnnxEnv) : Reached (loadedFrom env) :=
  ⟨by simp [loadedFrom], by simp [loadedFrom], fun _ => rfl⟩

/-- It uses its model in every call. -/
theorem usesModel_loadedFrom (env env' : OnnxEnv) : UsesModel (loadedFrom env) env' := .inl rfl

/-- No call changes it. -/
@[simp] theorem step_loadedFrom (env : OnnxEnv) (e : OnnxCall) :
    step (loadedFrom env) e = loadedFrom env := by
  rw [step_eq]; rfl

/-- A load that succeeds gives that object. -/
theorem loadModel_eq_loadedFrom (hload : (new.loadModel env).2.loaded = true) :
    (new.loadModel env).2 = loadedFrom env := by
  by_cases hloads : env.Loads
  · rw [loadModel_of_loads hloads]
  · simp [(loadModel_of_not_loads hloads).1] at hload

/-- Where the model fits, no access is out of bounds. -/
theorem outcome_loadedFrom (hin : env.model.inputs ≠ []) (hout : env.model.outputs ≠ [])
    (hlen : 5 ≤ (e.env.run (features e.env.featuresClock e.telemetry)).length) :
    outcome (loadedFrom env) e ≠ .outOfBounds := by
  have hreached := reached_loadedFrom env
  have huse := usesModel_loadedFrom env e.env
  by_cases hthrow : e.env.inferThrows .memoryInfo = true ∨ e.env.inferThrows .createTensor = true
  · simp [outcome_of_throws hreached huse hthrow]
  · simp only [not_or, Bool.not_eq_true] at hthrow
    rw [outcome_of_inBounds hreached huse hthrow.1 hthrow.2 ⟨hin, hout, fun _ => hlen⟩]
    simp

/-- A call in which no ONNX call throws and `Run` returns the given number of elements. -/
def plainCall (env : OnnxEnv) (elements : ℕ) : OnnxCall where
  env := { env with inferThrows := fun _ => false, run := fun _ => List.replicate elements 0 }
  telemetry := AiTaskTelemetry.zero
  decision := AiSchedDecision.zero

/-- The accesses of `classify` are in bounds for exactly the models with an input, an output
    and five classes: `load_model` accepts all the others as well. -/
theorem accesses_in_bounds_iff (env : OnnxEnv) (hload : (new.loadModel env).2.loaded = true)
    (elements : ℕ) :
    (∀ es : List OnnxCall, (∀ e ∈ es, ∀ features, (e.env.run features).length = elements) →
        Throughout step (fun c e => outcome c e ≠ .outOfBounds) (new.loadModel env).2 es) ↔
      env.model.inputs ≠ [] ∧ env.model.outputs ≠ [] ∧ 5 ≤ elements := by
  rw [loadModel_eq_loadedFrom hload]
  constructor
  · intro hsafe
    by_contra hmodel
    -- one call in which nothing throws reaches all the accesses
    have hcall := hsafe [plainCall env elements] (by simp [plainCall])
    refine hcall.1 (outcome_of_not_inBounds (reached_loadedFrom env)
      (usesModel_loadedFrom env _) rfl rfl fun hbounds => hmodel ?_)
    obtain ⟨hin, hout, hlen⟩ := hbounds
    exact ⟨hin, hout, by simpa [plainCall] using hlen rfl⟩
  · rintro ⟨hin, hout, hfive⟩ es hes
    induction es with
    | nil => trivial
    | cons e es ih =>
      rw [List.forall_mem_cons] at hes
      refine ⟨outcome_loadedFrom hin hout (by rw [hes.1]; exact hfive), ?_⟩
      rw [step_loadedFrom]
      exact ih hes.2

end

/-- An environment in which nothing throws, with a model of one input and one output. -/
def smallModel (elements : ℕ) : OnnxEnv where
  fileGood := true
  model := ⟨["input"], ["probabilities"], [1, 6]⟩
  loadThrows := fun _ => false
  inferThrows := fun _ => false
  run := fun _ => List.replicate elements 0
  featuresClock := ⟨0, 0⟩
  decisionClock := ⟨0, 0⟩

/-- Two calls of a model with five classes. -/
theorem accesses_in_bounds_five_classes :
    (new.loadModel (smallModel 5)).2.loaded = true ∧
      Throughout step (fun c e => outcome c e ≠ .outOfBounds) (new.loadModel (smallModel 5)).2
        [plainCall (smallModel 5) 5, plainCall (smallModel 5) 5] := by
  have hload : (new.loadModel (smallModel 5)).2.loaded = true := by decide
  have hsafe := (accesses_in_bounds_iff (smallModel 5) hload 5).mpr (by decide)
  exact ⟨hload, hsafe _ (by simp [plainCall])⟩

/-- A model with two classes is loaded, and the first decision reads past its output. -/
theorem two_classes_out_of_bounds :
    (new.loadModel (smallModel 2)).2.loaded = true ∧
      outcome (new.loadModel (smallModel 2)).2 (plainCall (smallModel 2) 2) = .outOfBounds := by
  decide

/-! ### Which failures are handled -/

/-- An ONNX call fails during a call of `classify`, or loading failed before. -/
def OnnxFailed (c : OnnxClassifier) (e : OnnxCall) : Prop :=
  c.loadFailed = true ∨ c.loaded = false ∧ ¬ e.env.Loads ∨
    UsesModel c e.env ∧ ∃ call, e.env.inferThrows call = true

/-- A call returns 0 with a decision, after a failure with that of the heuristics. -/
def FailureHandled (c : OnnxClassifier) (e : OnnxCall) : Prop :=
  ∃ decision, outcome c e = .returned 0 (some decision) ∧
    (OnnxFailed c e →
      Classifier.classify e.env.decisionClock (some e.telemetry) (some e.decision)
        = (0, some decision))

/-- A call that uses the model meets no failure before the `try` block, and no output that
    does not fit. -/
def Handled (c : OnnxClassifier) (e : OnnxCall) : Prop :=
  UsesModel c e.env →
    e.env.inferThrows .memoryInfo = false ∧ e.env.inferThrows .createTensor = false ∧
      InBounds c e

/-- Once a model is there, only the calls of the inference can fail. -/
theorem throws_of_onnxFailed {c : OnnxClassifier} {e : OnnxCall} (h : Reached c)
    (huse : UsesModel c e.env) (hfailed : OnnxFailed c e) :
    ∃ call, e.env.inferThrows call = true := by
  rcases hfailed with hfailed | ⟨hunloaded, hnot⟩ | ⟨-, hthrow⟩
  · rcases huse with hloaded | ⟨hok, -⟩
    · -- a loaded object has not failed to load
      exact absurd ⟨hloaded, hfailed⟩ h.flags
    · rw [hok] at hfailed
      cases hfailed
  · rcases huse with hloaded | ⟨-, hloads⟩
    · rw [hloaded] at hunloaded
      cases hunloaded
    · exact absurd hloads hnot
  · exact hthrow

/-- A call handles its failures iff it meets none before the `try` block and every array
    access fits. -/
theorem failureHandled_iff {c : OnnxClassifier} (h : Reached c) (e : OnnxCall) :
    FailureHandled c e ↔ Handled c e := by
  by_cases huse : UsesModel c e.env
  · constructor
    · rintro ⟨decision, hout, -⟩ -
      by_cases hthrow :
          e.env.inferThrows .memoryInfo = true ∨ e.env.inferThrows .createTensor = true
      · rw [outcome_of_throws h huse hthrow] at hout
        cases hout
      · simp only [not_or, Bool.not_eq_true] at hthrow
        refine ⟨hthrow.1, hthrow.2, ?_⟩
        by_contra hbounds
        rw [outcome_of_not_inBounds h huse hthrow.1 hthrow.2 hbounds] at hout
        cases hout
    · intro hhandled
      obtain ⟨hmem, htensor, hbounds⟩ := hhandled huse
      refine ⟨_, outcome_of_inBounds h huse hmem htensor hbounds, fun hfailed => ?_⟩
      -- the failure is caught, and the heuristics decide
      have hthrow := throws_of_onnxFailed h huse hfailed
      rw [OnnxEnv.tryThrows_of_throws hmem htensor hthrow]
      rfl
  · exact iff_of_true ⟨_, outcome_of_not_usesModel h huse, fun _ => rfl⟩ fun h => absurd h huse

/-- The failures of all calls are handled iff no call that uses the model fails before the
    `try` block or reads past an array. -/
theorem onnx_failures_handled_iff (es : List OnnxCall) :
    Throughout step FailureHandled new es ↔ Throughout step Handled new es :=
  throughout_congr_of_invariant reached_new (fun _ e h _ => h.step e)
    fun _ e h => failureHandled_iff h e

/-- The first call loads a good model, and creating the input tensor throws. -/
private def tensorFails : OnnxCall where
  env := { smallModel 5 with inferThrows := fun call => call == .createTensor }
  telemetry := AiTaskTelemetry.zero
  decision := AiSchedDecision.zero

/-- An exception of the input tensor leaves `classify`. -/
theorem tensor_exception_leaves_classify :
    outcome new tensorFails = .threw ∧ ¬ Throughout step FailureHandled new [tensorFails] := by
  have hthrew : outcome new tensorFails = .threw := by decide
  refine ⟨hthrew, fun h => ?_⟩
  obtain ⟨decision, hout, -⟩ := h.1
  rw [hthrew] at hout
  cases hout

end OnnxClassifier

end AieOs
