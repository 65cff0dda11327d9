import AieOs.Daemon.Batches
import AieOs.Loop.DeviceTables

namespace AieOs

open Lib

/-!
# Which backend a decision reaches

`select_backend` has a case for the NPU and one for the GPU, but no classifier asks for
either: for batch work both say `AI_DEVICE_AUTO`, which is the default case.  So every decision
is dispatched to the CPU backend, and batch work gets an accelerator only where there is none.

* `dispatched_classifyPendingTasks` — what a call dispatches;
* `batch_reaches_accelerator_iff` — when that is what the documentation says.
-/

/-- The calls of `classify` are those of one of the two classifiers. -/
def SampleEnv.IsClassifier (env : SampleEnv) : Prop :=
  ∀ telem decision,
    (∃ ts, Classifier.classify ts (some telem) (some decision)
      = ((env.classify telem decision).1, some (env.classify telem decision).2)) ∨
    ∃ c onnxEnv, (OnnxClassifier.classify onnxEnv (some telem) (some decision) c).1
      = .returned (env.classify telem decision).1 (some (env.classify telem decision).2)

/-- The documented backend of a class: batch work goes to the best accelerator there is. -/
def documentedBackend (nodes : DeviceNodes) (taskClass : UInt32) : Option DeviceBackend :=
  match ofCode? taskClass with
  | some AiTaskClass.batchAi    =>
    some (if DeviceManager.detectNpu nodes then .npu
      else if DeviceManager.detectGpu nodes then .gpu else .cpu)
  | some AiTaskClass.realtimeAi => some .cpu
  | some AiTaskClass.background => some .cpu
  | _                           => none

/-- A dispatch is the documented one, where there is one. -/
def DispatchedAsDocumented (nodes : DeviceNodes) (x : DeviceBackend × AiSchedDecision) : Prop :=
  ∀ backend ∈ documentedBackend nodes x.2.taskClass, x.1 = backend

/-! ### The decisions of the classifiers -/

/-- A decision that is kept is one of a classifier. -/
theorem SampleEnv.IsClassifier.produced {env : SampleEnv} (h : env.IsClassifier)
    {telem : AiTaskTelemetry} {decision : AiSchedDecision}
    (hdecision : decision ∈ AieDaemon.decided env telem) : decision.Produced := by
  obtain ⟨buffer, -, hclassify⟩ := AieDaemon.exists_of_mem_decided hdecision
  rcases h telem buffer with ⟨ts, hheuristic⟩ | ⟨c, onnxEnv, honnx⟩
  · rw [hclassify] at hheuristic
    exact .inl ⟨ts, telem, buffer, hheuristic⟩
  · rw [hclassify] at honnx
    exact .inr ⟨c, onnxEnv, telem, buffer, honnx⟩

/-- No device of the table has a case of its own. -/
theorem selectBackend_selectDevice (nodes : DeviceNodes) (taskClass : UInt32) :
    (DeviceManager.new.init nodes).selectBackend (Classifier.selectDevice taskClass).code
      = some .cpu := by
  -- the default device falls into the default case of `select_backend`
  unfold Classifier.selectDevice
  split <;> rfl

/-! ### What is dispatched -/

section
variable {nodes : DeviceNodes} {d : AieDaemon}

/-- The backends stay as `init` left them. -/
theorem classifySample_deviceManager (env : SampleEnv) (telem : AiTaskTelemetry)
    (d : AieDaemon) : (d.classifySample env telem).deviceManager = d.deviceManager := by
  unfold AieDaemon.classifySample
  dsimp only
  split
  · split <;> rfl
  · rfl

/-- A sample's decision is dispatched to the CPU. -/
theorem dispatched_classifySample {env : SampleEnv} (henv : env.IsClassifier)
    (hd : d.deviceManager = DeviceManager.new.init nodes) (telem : AiTaskTelemetry) :
    (d.classifySample env telem).history.dispatched
      = d.history.dispatched ++ (AieDaemon.decided env telem).map (DeviceBackend.cpu, ·) := by
  have hproduced : ∀ decision ∈ AieDaemon.decided env telem, decision.Produced :=
    fun _ => henv.produced
  unfold AieDaemon.decided at hproduced
  unfold AieDaemon.classifySample AieDaemon.decided
  dsimp only at hproduced ⊢
  split
  · rename_i hzero
    rw [if_pos hzero] at hproduced
    rw [(hproduced _ (List.mem_singleton_self _)).preferredDevice, hd, selectBackend_selectDevice]
    rfl
  · simp

/-- Nor does the loop over a batch dispatch to another one. -/
theorem dispatched_classifySamples (env : ℕ → SampleEnv) (henv : ∀ i, (env i).IsClassifier)
    (hd : d.deviceManager = DeviceManager.new.init nodes) (samples : List AiTaskTelemetry) :
    (AieDaemon.classifySamples env samples d).history.dispatched
      = d.history.dispatched ++ ((AieDaemon.batchCalls env samples).flatMap
          fun c => AieDaemon.decided c.2 c.1).map (DeviceBackend.cpu, ·) := by
  induction samples generalizing env d with
  | nil => simp [AieDaemon.classifySamples, AieDaemon.batchCalls]
  | cons telem rest ih =>
    have hd' : (d.classifySample (env 0) telem).deviceManager = DeviceManager.new.init nodes := by
      rw [classifySample_deviceManager, hd]
    rw [AieDaemon.classifySamples, ih (fun i => env (i + 1)) (fun i => henv (i + 1)) hd',
      dispatched_classifySample (henv 0) hd, AieDaemon.batchCalls_cons, List.flatMap_cons,
      List.map_append, List.append_assoc]

/-- The decisions that a call of `classify_pending_tasks` makes. -/
def AieDaemon.decisionsOf (env : ℕ → SampleEnv) (d : AieDaemon) : List AiSchedDecision :=
  (AieDaemon.batchCalls env d.pendingTelemetry).flatMap fun c => AieDaemon.decided c.2 c.1

/-- Nor does `classify_pending_tasks`. -/
theorem dispatched_classifyPendingTasks (env : ℕ → SampleEnv) (henv : ∀ i, (env i).IsClassifier)
    (hd : d.deviceManager = DeviceManager.new.init nodes) :
    (d.classifyPendingTasks env).history.dispatched
      = d.history.dispatched ++ (d.decisionsOf env).map (DeviceBackend.cpu, ·) := by
  unfold AieDaemon.classifyPendingTasks
  split
  · rename_i hempty
    simp [AieDaemon.decisionsOf, List.isEmpty_iff.mp hempty, AieDaemon.batchCalls]
  · exact dispatched_classifySamples env henv hd d.pendingTelemetry

/-- The dispatches of a call of `classify_pending_tasks`. -/
def AieDaemon.newDispatches (env : ℕ → SampleEnv) (d : AieDaemon) :
    List (DeviceBackend × AiSchedDecision) :=
  (d.classifyPendingTasks env).history.dispatched.drop d.history.dispatched.length

/-- What it dispatches: the decisions it makes, to the CPU. -/
theorem newDispatches_eq (env : ℕ → SampleEnv) (henv : ∀ i, (env i).IsClassifier)
    (hd : d.deviceManager = DeviceManager.new.init nodes) :
    d.newDispatches env = (d.decisionsOf env).map (DeviceBackend.cpu, ·) := by
  rw [AieDaemon.newDispatches, dispatched_classifyPendingTasks env henv hd, List.drop_left]

end

/-! ### Results -/

/-- The CPU is the documented backend, except for batch work where there is an accelerator. -/
theorem dispatchedAsDocumented_cpu_iff (nodes : DeviceNodes) (decision : AiSchedDecision) :
    DispatchedAsDocumented nodes (.cpu, decision) ↔
      (decision.taskClass = AiTaskClass.batchAi.code →
        DeviceManager.detectNpu nodes = false ∧ DeviceManager.detectGpu nodes = false) := by
  unfold DispatchedAsDocumented documentedBackend
  cases hclass : (ofCode? decision.taskClass : Option AiTaskClass) with
  | none =>
    have hne := ofCode?_eq_none_iff.mp hclass .batchAi
    exact iff_of_true (by simp) fun h => absurd h.symm hne
  | some k =>
    rw [← ofCode?_eq_some_iff.mp hclass]
    cases k with
    | batchAi =>
      rw [forall_prop_of_true rfl]
      cases DeviceManager.detectNpu nodes <;> cases DeviceManager.detectGpu nodes <;> simp
    | realtimeAi => exact iff_of_true (by simp) fun h => absurd h (by decide)
    | interactiveAi => exact iff_of_true (by simp) fun h => absurd h (by decide)
    | background => exact iff_of_true (by simp) fun h => absurd h (by decide)
    | unknown => exact iff_of_true (by simp) fun h => absurd h (by decide)

/-- **Accelerators.** A call of `classify_pending_tasks` dispatches as documented iff there is
    no accelerator, or none of its samples is batch work. -/
theorem batch_reaches_accelerator_iff (nodes : DeviceNodes) (env : ℕ → SampleEnv)
    (henv : ∀ i, (env i).IsClassifier) (d : AieDaemon)
    (hd : d.deviceManager = DeviceManager.new.init nodes) :
    (∀ x ∈ d.newDispatches env, DispatchedAsDocumented nodes x) ↔
      (DeviceManager.detectNpu nodes = false ∧ DeviceManager.detectGpu nodes = false) ∨
        ∀ decision ∈ d.decisionsOf env, decision.taskClass ≠ AiTaskClass.batchAi.code := by
  rw [newDispatches_eq env henv hd, List.forall_mem_map]
  simp only [dispatchedAsDocumented_cpu_iff]
  by_cases hnone : DeviceManager.detectNpu nodes = false ∧ DeviceManager.detectGpu nodes = false
  · exact iff_of_true (fun _ _ _ => hnone) (.inl hnone)
  · -- there is an accelerator, so batch work on the CPU is not as documented
    rw [or_iff_right hnone]
    exact forall₂_congr fun _ _ => imp_iff_not hnone

/-- A daemon with one sample of batch work, on a machine with or without accelerators. -/
private def batchPending (nodes : DeviceNodes) : AieDaemon :=
  (AieDaemon.initialised nodes).pushBackTelemetry
    { AiTaskTelemetry.zero with memoryRssMb := 100, schedClass := 1 }

/-- The heuristic classifier, the clock at zero. -/
private def heuristicEnv : ℕ → SampleEnv := fun _ => .heuristic ⟨0, 0⟩ ⟨0, 0⟩

/-- It is one of the classifiers. -/
private theorem heuristicEnv_isClassifier (i : ℕ) : (heuristicEnv i).IsClassifier :=
  fun telem decision => .inl ⟨⟨0, 0⟩, SampleEnv.heuristic_classify ⟨0, 0⟩ ⟨0, 0⟩ telem decision⟩

/-- Without accelerators batch work belongs on the CPU. -/
theorem batch_reaches_accelerator_no_accelerator :
    ((batchPending ⟨false, false, false, []⟩).newDispatches heuristicEnv).map
        (fun x => (x.1, x.2.taskClass)) = [(.cpu, AiTaskClass.batchAi.code)] ∧
      ∀ x ∈ (batchPending ⟨false, false, false, []⟩).newDispatches heuristicEnv,
        DispatchedAsDocumented ⟨false, false, false, []⟩ x :=
  ⟨by decide, (batch_reaches_accelerator_iff ⟨false, false, false, []⟩ heuristicEnv
    heuristicEnv_isClassifier (batchPending ⟨false, false, false, []⟩) rfl).mpr
    (.inl ⟨rfl, rfl⟩)⟩

/-- With a GPU and an NPU, batch work is dispatched to the CPU. -/
theorem batch_reaches_cpu :
    ((batchPending ⟨true, false, true, []⟩).newDispatches heuristicEnv).map
        (fun x => (x.1, x.2.taskClass)) = [(.cpu, AiTaskClass.batchAi.code)] ∧
      documentedBackend ⟨true, false, true, []⟩ AiTaskClass.batchAi.code = some .npu ∧
      ¬ ∀ x ∈ (batchPending ⟨true, false, true, []⟩).newDispatches heuristicEnv,
        DispatchedAsDocumented ⟨true, false, true, []⟩ x := by
  refine ⟨by decide, by decide, fun h => ?_⟩
  have hcpu := h _ (List.mem_singleton_self _) .npu (by decide)
  cases hcpu

end AieOs
