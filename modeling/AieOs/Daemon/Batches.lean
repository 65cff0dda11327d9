import AieOs.Daemon.AieDaemon
import AieOs.Daemon.OnnxClassifier
import AieOs.Lib.Runs

namespace AieOs

open Lib

/-!
# The batches of the telemetry worker

Whatever `read_sample` returns, a sample accepted with return code 0 waits in
`pending_telemetry_` until ten of them are there, and is then classified once.

* `handleSample` — an iteration of the loop, after `read_sample`;
* `handleSample_cases` — all that it can do;
* `telemetry_batching` — what holds after any iterations.
-/

/-- An iteration of the worker's loop: what `read_sample` returned, the sample then, and what
    the classification calls. -/
structure SampleRead where
  ret : Int32
  sample : AiTaskTelemetry
  env : ℕ → SampleEnv

/-- The samples that `read_sample` returned 0 for, in order. -/
def accepted (es : List SampleRead) : List AiTaskTelemetry :=
  (es.filter (·.ret = 0)).map (·.sample)

/-- A classifier that succeeds does not change the pid in the decision buffer: it is the one
    of the sample. -/
def SampleEnv.KeepsPid (env : SampleEnv) : Prop :=
  ∀ telem decision, decision.pid = telem.pid → (env.classify telem decision).1 = 0 →
    (env.classify telem decision).2.pid = telem.pid

namespace AieDaemon

/-- The loop body of `telemetry_worker` after `read_sample`. -/
def handleSample (d : AieDaemon) (e : SampleRead) : AieDaemon :=
  if e.ret = 0 then
    let d := d.pushBackTelemetry e.sample
    if d.pendingTelemetry.length ≥ 10 then d.classifyPendingTasks e.env else d
  else if e.ret < 0 ∧ e.ret ≠ -etimedout then
    { d with history := { d.history with readErrors := d.history.readErrors ++ [e.ret] } }
  else d

/-- The worker's loop is `read_sample` and this body. -/
theorem telemetryWorker_eq_handleSample (poll : PollOutcome) (env : ℕ → SampleEnv)
    (sample : AiTaskTelemetry) (d : AieDaemon) :
    (d.telemetryWorker poll env sample).2 =
      let (ret, sample, telemetryReader) := d.telemetryReader.readSample poll sample
      handleSample { d with telemetryReader } ⟨ret, sample, env⟩ := by
  simp only [telemetryWorker, handleSample]
  split
  · rfl
  · split <;> rfl

/-- The samples of a batch, each with its call of `classify`. -/
def batchCalls (env : ℕ → SampleEnv) (samples : List AiTaskTelemetry) :
    List (AiTaskTelemetry × SampleEnv) :=
  samples.mapIdx fun i telem => (telem, env i)

/-- The batch that an iteration classifies, if it does. -/
def batch (d : AieDaemon) (e : SampleRead) : List (List (AiTaskTelemetry × SampleEnv)) :=
  if e.ret = 0 ∧ d.pendingTelemetry.length + 1 ≥ 10 then
    [batchCalls e.env (d.pendingTelemetry ++ [e.sample])]
  else []

/-! ### Classifying a batch -/

/-- The calls of a batch, by its first sample. -/
theorem batchCalls_cons (env : ℕ → SampleEnv) (telem : AiTaskTelemetry)
    (rest : List AiTaskTelemetry) :
    batchCalls env (telem :: rest) = (telem, env 0) :: batchCalls (fun i => env (i + 1)) rest :=
  List.mapIdx_cons

/-- One call for each sample. -/
theorem batchCalls_length (env : ℕ → SampleEnv) (samples : List AiTaskTelemetry) :
    (batchCalls env samples).length = samples.length := List.length_mapIdx

/-- The calls are made for the samples in their order. -/
theorem map_fst_batchCalls (env : ℕ → SampleEnv) (samples : List AiTaskTelemetry) :
    (batchCalls env samples).map Prod.fst = samples := by
  induction samples generalizing env with
  | nil => rfl
  | cons telem rest ih => rw [batchCalls_cons, List.map_cons, ih]

/-- A call is recorded, however it ends. -/
theorem classifySample_classified (env : SampleEnv) (telem : AiTaskTelemetry) (d : AieDaemon) :
    (d.classifySample env telem).history.classified = d.history.classified ++ [telem] := by
  unfold classifySample
  dsimp only
  split
  · split <;> rfl
  · rfl

/-- The loop classifies the samples in order, and keeps the decisions of the successful
    calls. -/
theorem classifySamples_batch (env : ℕ → SampleEnv) (samples : List AiTaskTelemetry)
    (d : AieDaemon) :
    (classifySamples env samples d).history.classified = d.history.classified ++ samples ∧
      (classifySamples env samples d).history.appended
        = d.history.appended ++ (batchCalls env samples).flatMap fun c => decided c.2 c.1 := by
  induction samples generalizing env d with
  | nil => simp [classifySamples, batchCalls]
  | cons telem rest ih =>
    obtain ⟨hclassified, happended⟩ := ih (fun i => env (i + 1)) (d.classifySample (env 0) telem)
    rw [classifySamples, hclassified, happended, classifySample_classified,
      (classifySample_decisions (env 0) telem d).2, batchCalls_cons, List.flatMap_cons]
    exact ⟨List.append_cons .. |>.symm, List.append_assoc ..⟩

/-- An iteration without sample leaves the buffers alone. -/
theorem handleSample_of_ret_ne_zero {e : SampleRead} (hret : e.ret ≠ 0) (d : AieDaemon) :
    (d.handleSample e).pendingTelemetry = d.pendingTelemetry ∧
      (d.handleSample e).history.classified = d.history.classified ∧
      (d.handleSample e).history.appended = d.history.appended := by
  rw [handleSample, if_neg hret]
  split <;> exact ⟨rfl, rfl, rfl⟩

/-- A sample waits for others. -/
theorem handleSample_of_lt {d : AieDaemon} {e : SampleRead} (hret : e.ret = 0)
    (hlen : d.pendingTelemetry.length + 1 < 10) :
    d.handleSample e = d.pushBackTelemetry e.sample := by
  have hpushed : (d.pushBackTelemetry e.sample).pendingTelemetry.length
      = d.pendingTelemetry.length + 1 := List.length_append
  rw [handleSample, if_pos hret, if_neg (by omega)]

/-- The sample that completes the batch. -/
theorem handleSample_of_ge {d : AieDaemon} {e : SampleRead} (hret : e.ret = 0)
    (hlen : 10 ≤ d.pendingTelemetry.length + 1) :
    d.handleSample e = { classifySamples e.env (d.pendingTelemetry ++ [e.sample])
      (d.pushBackTelemetry e.sample) with pendingTelemetry := [] } := by
  have hpushed : (d.pushBackTelemetry e.sample).pendingTelemetry.length
      = d.pendingTelemetry.length + 1 := List.length_append
  -- the batch is not empty, so `classify_pending_tasks` does not return at once
  have hne : ¬ (d.pushBackTelemetry e.sample).pendingTelemetry.isEmpty = true := by
    simp [pushBackTelemetry]
  rw [handleSample, if_pos hret, if_pos (by omega), classifyPendingTasks, if_neg hne]
  rfl

/-- All that an iteration can do: skip the sample, keep it for later, or classify the ten. -/
theorem handleSample_cases {d : AieDaemon} (h : d.pendingTelemetry.length < 10)
    (e : SampleRead) :
    (e.ret ≠ 0 ∧ d.batch e = [] ∧
      (d.handleSample e).pendingTelemetry = d.pendingTelemetry ∧
      (d.handleSample e).history.classified = d.history.classified ∧
      (d.handleSample e).history.appended = d.history.appended) ∨
    (e.ret = 0 ∧ d.pendingTelemetry.length + 1 < 10 ∧ d.batch e = [] ∧
      (d.handleSample e).pendingTelemetry = d.pendingTelemetry ++ [e.sample] ∧
      (d.handleSample e).history.classified = d.history.classified ∧
      (d.handleSample e).history.appended = d.history.appended) ∨
    ∃ calls, e.ret = 0 ∧ d.batch e = [calls] ∧ calls.length = 10 ∧
      calls.map Prod.fst = d.pendingTelemetry ++ [e.sample] ∧
      (d.handleSample e).pendingTelemetry = [] ∧
      (d.handleSample e).history.classified
        = d.history.classified ++ (d.pendingTelemetry ++ [e.sample]) ∧
      (d.handleSample e).history.appended
        = d.history.appended ++ calls.flatMap fun c => decided c.2 c.1 := by
  by_cases hret : e.ret = 0
  · by_cases hlen : d.pendingTelemetry.length + 1 < 10
    · refine .inr (.inl ⟨hret, hlen, ?_⟩)
      rw [handleSample_of_lt hret hlen, batch, if_neg (by omega)]
      exact ⟨rfl, rfl, rfl, rfl⟩
    · rw [not_lt] at hlen
      obtain ⟨hclassified, happended⟩ := classifySamples_batch e.env
        (d.pendingTelemetry ++ [e.sample]) (d.pushBackTelemetry e.sample)
      refine .inr (.inr ⟨batchCalls e.env (d.pendingTelemetry ++ [e.sample]), hret, ?_, ?_,
        map_fst_batchCalls _ _, ?_⟩)
      · rw [batch, if_pos ⟨hret, hlen⟩]
      · rw [batchCalls_length, List.length_append, List.length_singleton]
        omega
      · rw [handleSample_of_ge hret hlen]
        exact ⟨rfl, hclassified, happended⟩
  · refine .inl ⟨hret, ?_, handleSample_of_ret_ne_zero hret d⟩
    rw [batch, if_neg fun h => hret h.1]

/-! ### The invariant -/

/-- The daemon after the batches, the samples accepted so far given. -/
structure Batched (samples : List AiTaskTelemetry)
    (batches : List (List (AiTaskTelemetry × SampleEnv))) (d : AieDaemon) : Prop where
  short : d.pendingTelemetry.length < 10
  inOrder : d.history.classified ++ d.pendingTelemetry = samples
  ten : ∀ calls ∈ batches, calls.length = 10
  classified : batches.flatten.map Prod.fst = d.history.classified
  decisions : d.history.appended = batches.flatten.flatMap fun c => decided c.2 c.1

/-- At the start there are no samples and no batches. -/
theorem batched_initialised (nodes : DeviceNodes) : Batched [] [] (initialised nodes) :=
  ⟨Nat.zero_lt_succ 9, rfl, by simp, rfl, rfl⟩

/-- An iteration keeps the invariant. -/
theorem Batched.step {samples : List AiTaskTelemetry}
    {batches : List (List (AiTaskTelemetry × SampleEnv))} {d : AieDaemon}
    (h : Batched samples batches d) (e : SampleRead) :
    Batched (samples ++ accepted [e]) (batches ++ d.batch e) (d.handleSample e) := by
  rcases handleSample_cases h.short e with
    ⟨hret, hbatch, hpending, hclassified, happended⟩ |
    ⟨hret, hlen, hbatch, hpending, hclassified, happended⟩ |
    ⟨calls, hret, hbatch, hten, hcalls, hpending, hclassified, happended⟩
  · -- the sample is skipped
    have hnone : accepted [e] = [] := by simp [accepted, hret]
    rw [hnone, hbatch, List.append_nil, List.append_nil]
    exact
      { short := by rw [hpending]; exact h.short
        inOrder := by rw [hclassified, hpending, h.inOrder]
        ten := h.ten
        classified := by rw [hclassified, h.classified]
        decisions := by rw [happended, h.decisions] }
  · -- it waits for others
    have hone : accepted [e] = [e.sample] := by simp [accepted, hret]
    rw [hone, hbatch, List.append_nil]
    exact
      { short := by rw [hpending, List.length_append, List.length_singleton]; exact hlen
        inOrder := by rw [hclassified, hpending, ← List.append_assoc, h.inOrder]
        ten := h.ten
        classified := by rw [hclassified, h.classified]
        decisions := by rw [happended, h.decisions] }
  · have hone : accepted [e] = [e.sample] := by simp [accepted, hret]
    rw [hone, hbatch]
    exact
      { short := by rw [hpending]; exact Nat.zero_lt_succ 9
        inOrder := by
          rw [hclassified, hpending, List.append_nil, ← List.append_assoc, h.inOrder]
        ten := by
          rw [List.forall_mem_append, List.forall_mem_singleton]
          exact ⟨h.ten, hten⟩
        classified := by
          rw [List.flatten_append, List.map_append, h.classified, hclassified, ← hcalls]
          simp
        decisions := by
          rw [List.flatten_append, List.flatMap_append, happended, h.decisions]
          simp }

/-- Every call of a batch is one of the iteration. -/
theorem mem_batch {d : AieDaemon} {e : SampleRead} {calls : List (AiTaskTelemetry × SampleEnv)}
    (hcalls : calls ∈ d.batch e) {c : AiTaskTelemetry × SampleEnv} (hc : c ∈ calls) :
    ∃ i, c.2 = e.env i := by
  unfold batch at hcalls
  split at hcalls
  · rw [List.mem_singleton] at hcalls
    subst hcalls
    obtain ⟨i, hi, rfl⟩ := List.mem_mapIdx.mp hc
    exact ⟨i, rfl⟩
  · cases hcalls

end AieDaemon

/-! ### The pid of a decision -/

/-- The heuristic classifier keeps the pid. -/
theorem SampleEnv.keepsPid_heuristic (clock ts : Timespec) :
    (SampleEnv.heuristic clock ts).KeepsPid := fun _ _ _ _ => rfl

/-- A classifier that does what `OnnxClassifier::classify` does, in whatever state. -/
theorem SampleEnv.keepsPid_onnx {env : SampleEnv}
    (h : ∀ telem decision, ∃ onnxEnv c,
      (OnnxClassifier.classify onnxEnv (some telem) (some decision) c).1
        = .returned (env.classify telem decision).1 (some (env.classify telem decision).2)) :
    env.KeepsPid := by
  intro telem decision _ _
  obtain ⟨onnxEnv, c, hreturned⟩ := h telem decision
  -- the model chooses the class only
  obtain ⟨-, taskClass, hdecision⟩ := OnnxClassifier.classify_returned hreturned
  rw [hdecision]
  rfl

/-- A decision made by a classifier that keeps the pid has that of its sample. -/
theorem SampleEnv.KeepsPid.decided {env : SampleEnv} (h : env.KeepsPid)
    {telem : AiTaskTelemetry} {decision : AiSchedDecision}
    (hdecision : decision ∈ AieDaemon.decided env telem) : decision.pid = telem.pid := by
  obtain ⟨buffer, hpid, hclassify⟩ := AieDaemon.exists_of_mem_decided hdecision
  have hkeeps := h telem buffer hpid
  rw [hclassify] at hkeeps
  exact hkeeps rfl

/-! ### Results -/

/-- The invariant after any iterations. -/
theorem batched_run (nodes : DeviceNodes) (es : List SampleRead) :
    AieDaemon.Batched (accepted es)
      (outputs AieDaemon.handleSample AieDaemon.batch (AieDaemon.initialised nodes) es)
      (run AieDaemon.handleSample (AieDaemon.initialised nodes) es) := by
  induction es using List.reverseRecOn with
  | nil => exact AieDaemon.batched_initialised nodes
  | append_singleton es e ih =>
    have haccepted : accepted (es ++ [e]) = accepted es ++ accepted [e] := by simp [accepted]
    rw [haccepted, outputs_concat, run_concat]
    exact ih.step e

/-- **Batching.** Fewer than ten samples wait; those classified, in batches of ten, and those
    that wait are the accepted ones in their order; the decisions appended are those of the
    successful calls in their order, each with the pid of its sample. -/
theorem telemetry_batching (nodes : DeviceNodes) (es : List SampleRead) :
    let d := run AieDaemon.handleSample (AieDaemon.initialised nodes) es
    let batches := outputs AieDaemon.handleSample AieDaemon.batch (AieDaemon.initialised nodes) es
    d.pendingTelemetry.length < 10 ∧
      d.history.classified ++ d.pendingTelemetry = accepted es ∧
      (∀ calls ∈ batches, calls.length = 10) ∧
      batches.flatten.map Prod.fst = d.history.classified ∧
      d.history.appended = batches.flatten.flatMap (fun c => AieDaemon.decided c.2 c.1) ∧
      ((∀ e ∈ es, ∀ i, (e.env i).KeepsPid) →
        ∀ c ∈ batches.flatten, ∀ decision ∈ AieDaemon.decided c.2 c.1,
          decision.pid = c.1.pid) := by
  intro d batches
  have hinv : AieDaemon.Batched (accepted es) batches d := batched_run nodes es
  refine ⟨hinv.short, hinv.inOrder, hinv.ten, hinv.classified, hinv.decisions, ?_⟩
  intro hkeeps c hc decision hdecision
  -- the calls of a batch are calls of the iteration that classified it
  have hall : ∀ calls ∈ batches, ∀ c ∈ calls, c.2.KeepsPid := by
    refine (forall_mem_outputs AieDaemon.handleSample AieDaemon.batch
      (fun calls => ∀ c ∈ calls, c.2.KeepsPid) _ es).mpr ?_
    apply ((throughout_iff_forall_mem ..).mpr hkeeps).mono
    intro d e hkeeps calls hcalls c hc
    obtain ⟨i, hi⟩ := AieDaemon.mem_batch hcalls hc
    rw [hi]
    exact hkeeps i
  obtain ⟨calls, hcalls, hc⟩ := List.mem_flatten.mp hc
  exact (hall calls hcalls c hc).decided hdecision

/-- Ten samples of a zeroed record, classified by the heuristics. -/
private def tenReads : List SampleRead :=
  List.replicate 10 ⟨0, AiTaskTelemetry.zero, fun _ => .heuristic ⟨0, 0⟩ ⟨0, 0⟩⟩

/-- Ten samples make one batch of ten. -/
theorem telemetry_batching_ten_reads :
    (outputs AieDaemon.handleSample AieDaemon.batch
        (AieDaemon.initialised ⟨false, false, false, []⟩) tenReads).map List.length = [10] ∧
      ∀ c ∈ (outputs AieDaemon.handleSample AieDaemon.batch
          (AieDaemon.initialised ⟨false, false, false, []⟩) tenReads).flatten,
        ∀ decision ∈ AieDaemon.decided c.2 c.1, decision.pid = c.1.pid := by
  refine ⟨by decide,
    (telemetry_batching ⟨false, false, false, []⟩ tenReads).2.2.2.2.2 fun e he i => ?_⟩
  rw [List.eq_of_mem_replicate he]
  exact SampleEnv.keepsPid_heuristic ⟨0, 0⟩ ⟨0, 0⟩

end AieOs
