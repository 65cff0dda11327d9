import AieOs.Daemon.OnnxCalls

namespace AieOs

open Lib

/-!
# The life of an `OnnxClassifier`

`load_model` is a one-shot: after its first run one of the two flags is set, and neither
changes again, so every later call takes the same way.  Whichever way that is, the decision
has the same shape.

* `Settled.step_eq`, `Settled.run_eq` — once a flag is set, no call changes the object;
* `loads_at_most_once` — the body of `load_model` along a run;
* `outcome_wellFormed` — the decision of one call;
* `one_shot_and_well_formed` — all of it, over any calls.
-/

namespace OnnxClassifier

/-- Of the ONNX calls in `classify` only `Run` may throw, and the accesses are in bounds. -/
def OnlyRunFails (c : OnnxClassifier) (e : OnnxCall) : Prop :=
  UsesModel c e.env → (∀ call, call ≠ .run → e.env.inferThrows call = false) ∧ InBounds c e

/-- A call of `classify` gets past the guard of `load_model`. -/
def entersLoad (c : OnnxClassifier) (_ : OnnxCall) : List Unit :=
  -- the test in `classify`, then the one in `load_model`
  if !c.loaded && !c.loadFailed then
    if c.loaded || c.loadFailed then [] else [()]
  else []

/-- A call returns 0 with a decision in which every field is the right one; what the
    decision buffer held before has no influence. -/
def WellFormed (c : OnnxClassifier) (e : OnnxCall) : Prop :=
  ∃ decision,
    (∀ buffer, outcome c { e with decision := buffer } = .returned 0 (some decision)) ∧
    decision.pid = e.telemetry.pid ∧
    decision.taskClass < 5 ∧
    decision.preferredDevice = (Classifier.selectDevice decision.taskClass).code ∧
    decision.timeSliceUs.toUInt64 * 1000 = Classifier.estimateTimeSlice decision.taskClass ∧
    decision.cpuAffinityMask = 0 ∧ decision.priorityBoost = 0

/-! ### The flags -/

section
variable {c : OnnxClassifier}

/-- The outcome of loading is known. -/
def Settled (c : OnnxClassifier) : Prop := c.loaded = true ∨ c.loadFailed = true

/-- After a call the outcome of loading is known. -/
theorem settled_step (h : Reached c) (e : OnnxCall) : (step c e).Settled := by
  by_cases huse : UsesModel c e.env
  · exact .inl (step_of_usesModel h huse).1
  · exact .inr (step_of_not_usesModel h huse).2

/-- A settled object stays as it is. -/
theorem Settled.step_eq (h : c.Settled) (e : OnnxCall) : step c e = c := by
  rw [OnnxClassifier.step_eq, afterLoad]
  rcases h with hloaded | hfailed
  · simp [hloaded]
  · simp [hfailed]

/-- Nor does any number of calls change it. -/
theorem Settled.run_eq (h : c.Settled) (es : List OnnxCall) : run step c es = c := by
  induction es with
  | nil => rfl
  | cons e es ih => rw [run_cons, h.step_eq e, ih]

/-- A settled object does not load again. -/
theorem Settled.entersLoad_eq (h : c.Settled) (e : OnnxCall) : entersLoad c e = [] := by
  rcases h with hloaded | hfailed
  · simp [entersLoad, hloaded]
  · simp [entersLoad, hfailed]

/-- Nor does it in any later call. -/
theorem Settled.outputs_eq (h : c.Settled) (es : List OnnxCall) :
    outputs step entersLoad c es = [] := by
  induction es with
  | nil => rfl
  | cons e es ih => rw [outputs, h.entersLoad_eq e, h.step_eq e, ih, List.nil_append]

/-- Only the first call may load. -/
theorem loads_at_most_once (h : Reached c) (es : List OnnxCall) :
    (outputs step entersLoad c es).length ≤ 1 := by
  cases es with
  | nil => exact Nat.zero_le 1
  | cons e es =>
    rw [outputs, (settled_step h e).outputs_eq, List.append_nil]
    unfold entersLoad
    split_ifs <;> decide

/-- The invariant after any calls. -/
theorem reached_run (es : List OnnxCall) : Reached (run step new es) :=
  run_induction (C := fun _ _ => True) reached_new (fun _ e h _ => h.step e)
    (throughout_of_forall fun _ _ => trivial)

end

/-! ### The decision -/

section
variable {c : OnnxClassifier} {e : OnnxCall}

/-- However the elements compare, the index is that of one of them. -/
theorem maxElementFrom_lt (best : Float32) {bestIdx i : ℕ} (hbest : bestIdx < i)
    (prob : List Float32) : maxElementFrom best bestIdx i prob < i + prob.length := by
  induction prob generalizing best bestIdx i with
  | nil => exact hbest
  | cons x prob ih =>
    unfold maxElementFrom
    rw [List.length_cons]
    -- the index is that of the new element, or stays what it was
    split_ifs
    · have hrest := ih x (show i < i + 1 by omega)
      omega
    · have hrest := ih best (show bestIdx < i + 1 by omega)
      omega

/-- The index is that of an element, if there is one. -/
theorem maxElement_lt {prob : List Float32} (h : prob ≠ []) : maxElement prob < prob.length := by
  cases prob with
  | nil => exact absurd rfl h
  | cons x prob =>
    have hrest := maxElementFrom_lt x Nat.zero_lt_one prob
    rw [maxElement, List.length_cons]
    omega

/-- The slice of any class survives the division to microseconds. -/
theorem decisionFor_slice (ts : Timespec) (t : AiTaskTelemetry) (taskClass : UInt32) :
    (decisionFor ts t taskClass).timeSliceUs.toUInt64 * 1000
      = Classifier.estimateTimeSlice taskClass := by
  show (Classifier.estimateTimeSlice taskClass / 1000).toUInt32.toUInt64 * 1000
    = Classifier.estimateTimeSlice taskClass
  unfold Classifier.estimateTimeSlice
  split <;> decide

/-- A model with five outputs chooses one of five classes. -/
theorem modelDecision_taskClass_lt (e : OnnxCall)
    (hlen : 5 ≤ (e.env.run (features e.env.featuresClock e.telemetry)).length) :
    (modelDecision e).taskClass < 5 := by
  have hfive : ((e.env.run (features e.env.featuresClock e.telemetry)).take 5).length = 5 := by
    rw [List.length_take]
    omega
  have hlt := maxElement_lt (List.ne_nil_of_length_pos (by rw [hfive]; omega))
  rw [hfive] at hlt
  show UInt32.ofNat _ < 5
  -- an index below five survives the conversion to 32 bits
  rw [UInt32.lt_iff_toNat_lt, UInt32.toNat_ofNat_of_lt' (Nat.lt_trans hlt (by decide))]
  exact hlt

/-- So do the heuristics. -/
theorem heuristic_taskClass_lt (t : AiTaskTelemetry) :
    (Classifier.classifyHeuristic (some t)).code < 5 := by
  cases Classifier.classifyHeuristic (some t) <;> decide

/-- A call decides for some class below 5, whatever it finds in its decision buffer. -/
theorem outcome_decisionFor (h : Reached c) (hrun : OnlyRunFails c e) :
    ∃ taskClass < 5, ∀ buffer, outcome c { e with decision := buffer }
      = .returned 0 (some (decisionFor e.env.decisionClock e.telemetry taskClass)) := by
  by_cases huse : UsesModel c e.env
  · obtain ⟨hthrows, hbounds⟩ := hrun huse
    have hout : ∀ buffer, outcome c { e with decision := buffer } = .returned 0 (some (
        if e.env.tryThrows then Classifier.decisionFor e.env.decisionClock e.telemetry
        else modelDecision e)) := fun buffer =>
      outcome_of_inBounds (e := { e with decision := buffer }) h huse
        (hthrows _ (by decide)) (hthrows _ (by decide)) hbounds
    -- inside the `try` block, an exception hands over to the heuristics
    cases htry : e.env.tryThrows with
    | true =>
      refine ⟨_, heuristic_taskClass_lt e.telemetry, fun buffer => ?_⟩
      rw [hout, htry, if_pos rfl, classifier_decisionFor]
    | false =>
      refine ⟨_, modelDecision_taskClass_lt e (hbounds.2.2 htry), fun buffer => ?_⟩
      rw [hout, htry, if_neg Bool.false_ne_true]
      rfl
  · refine ⟨_, heuristic_taskClass_lt e.telemetry, fun buffer => ?_⟩
    exact outcome_of_not_usesModel (e := { e with decision := buffer }) h huse

/-- A call returns a well-formed decision. -/
theorem outcome_wellFormed (h : Reached c) (hrun : OnlyRunFails c e) : WellFormed c e := by
  obtain ⟨taskClass, hlt, hout⟩ := outcome_decisionFor h hrun
  exact ⟨_, hout, rfl, hlt, rfl, decisionFor_slice _ _ taskClass, rfl, rfl⟩

end

/-- Loading is tried at most once, its outcome never changes, and every call returns a
    well-formed decision. -/
theorem one_shot_and_well_formed (es : List OnnxCall) (h : Throughout step OnlyRunFails new es) :
    (outputs step entersLoad new es).length ≤ 1 ∧
    Always step (fun c => ¬ (c.loaded = true ∧ c.loadFailed = true)) new es ∧
    (∀ pre mid, pre <+: mid → mid <+: es →
      (run step new pre).loaded = true ∨ (run step new pre).loadFailed = true →
      (run step new mid).loaded = (run step new pre).loaded ∧
        (run step new mid).loadFailed = (run step new pre).loadFailed) ∧
    Always step (fun c => c.loaded = true → c.session = true) new es ∧
    Throughout step WellFormed new es := by
  refine ⟨loads_at_most_once reached_new es, fun pre _ => (reached_run pre).flags, ?_,
    fun pre _ => (reached_run pre).session, ?_⟩
  · -- the flag that is set at `pre` settles everything after it
    rintro pre - ⟨rest, rfl⟩ - hset
    rw [run_append, Settled.run_eq hset]
    exact ⟨rfl, rfl⟩
  · exact h.mono_of_invariant reached_new (fun _ e h _ => h.step e)
      fun _ e h => outcome_wellFormed h

/-- Two calls: the first loads the model and decides with it, in the second `Run` throws. -/
private def runThenThrow : List OnnxCall :=
  [plainCall (smallModel 5) 5,
    { plainCall (smallModel 5) 5 with
      env := { smallModel 5 with inferThrows := fun call => call == .run } }]

/-- A call that the model decides, and one that falls back to the heuristics. -/
theorem one_shot_run_then_throw :
    Throughout step OnlyRunFails new runThenThrow ∧
      Throughout step WellFormed new runThenThrow := by
  have hruns : Throughout step OnlyRunFails new runThenThrow := by
    refine ⟨fun _ => ⟨fun _ _ => rfl, by decide, by decide, fun _ => by decide⟩,
      fun _ => ⟨fun call hcall => ?_, by decide, by decide, fun _ => by decide⟩, trivial⟩
    exact beq_false_of_ne hcall
  exact ⟨hruns, (one_shot_and_well_formed _ hruns).2.2.2.2⟩

end OnnxClassifier

end AieOs
