import AieOs.Daemon.Batches
import AieOs.Daemon.Startup

namespace AieOs

open Lib

/-!
# What the records have to do with the decisions

The callback of `ring_buffer__poll` prints the records, and `read_sample` fills in nothing.  So
the daemon learns no more from a poll than its return value, and classifies its uninitialised
variable over and over.

* `ConfiguredDaemon.records_unread` — two runs whose polls return the same values;
* `ConfiguredDaemon.decisions_of_sample` — the one process that all decisions are about.
-/

/-! ### Two runs -/

namespace AieDaemon

/-- The daemon with something else printed by the callback. -/
def setPrinted (printed : List AiTaskTelemetry) (d : AieDaemon) : AieDaemon :=
  { d with telemetryReader := { d.telemetryReader with printed } }

/-- The buffer of samples does not depend on what was printed. -/
@[simp] theorem setPrinted_pendingTelemetry (printed : List AiTaskTelemetry) (d : AieDaemon) :
    (d.setPrinted printed).pendingTelemetry = d.pendingTelemetry := rfl

/-- An append does not look at what was printed. -/
@[simp] theorem pushBackTelemetry_setPrinted (sample : AiTaskTelemetry)
    (printed : List AiTaskTelemetry) (d : AieDaemon) :
    (d.setPrinted printed).pushBackTelemetry sample
      = (d.pushBackTelemetry sample).setPrinted printed := rfl

/-- A push does not look at what was printed. -/
theorem pushDecisions_setPrinted (ret : Int32) (printed : List AiTaskTelemetry) (d : AieDaemon) :
    (d.setPrinted printed).pushDecisions ret = (d.pushDecisions ret).setPrinted printed := by
  unfold pushDecisions
  by_cases h : d.pendingDecisions.isEmpty
  · rw [if_pos h, if_pos (show (d.setPrinted printed).pendingDecisions.isEmpty from h)]
  · rw [if_neg h, if_neg (show ¬ (d.setPrinted printed).pendingDecisions.isEmpty from h)]
    rfl

/-- A call of `classify` does not look at what was printed. -/
theorem classifySample_setPrinted (env : SampleEnv) (telem : AiTaskTelemetry)
    (printed : List AiTaskTelemetry) (d : AieDaemon) :
    (d.setPrinted printed).classifySample env telem
      = (d.classifySample env telem).setPrinted printed := by
  unfold classifySample
  dsimp only [setPrinted]
  split
  · split <;> rfl
  · rfl

end AieDaemon

namespace ConfiguredDaemon

/-- The daemon but for what the callback has printed. -/
def forgetPrinted (s : ConfiguredDaemon) : ConfiguredDaemon :=
  { s with daemon := s.daemon.setPrinted [] }

/-- The events are of the same kind and give the daemon the same values: of the outcome of a
    poll, the return value. -/
def SameReturn : Event → Event → Prop
  | .telemetry poll calls, .telemetry poll' calls' => poll.ret = poll'.ret ∧ calls = calls'
  | .push ret, .push ret'                          => ret = ret'
  | _, _                                           => False

/-- The classification of a batch does not look at what was printed. -/
theorem classifySamples_setPrinted (calls : ℕ → ClassifyCall) (samples : List AiTaskTelemetry)
    (classifier : ClassifierObject) (printed : List AiTaskTelemetry) (d : AieDaemon) :
    classifySamples calls samples classifier (d.setPrinted printed)
      = (classifySamples calls samples classifier d).map fun x =>
          (x.1, x.2.setPrinted printed) := by
  induction samples generalizing calls classifier d with
  | nil => rfl
  | cons telem rest ih =>
    simp only [classifySamples]
    split
    · rw [AieDaemon.classifySample_setPrinted]
      exact ih _ _ _
    · rfl

/-- Nor does the rest of an iteration. -/
theorem handleReturn_setPrinted (ret : Int32) (calls : ℕ → ClassifyCall)
    (classifier : ClassifierObject) (sample : AiTaskTelemetry) (printed : List AiTaskTelemetry)
    (d : AieDaemon) :
    (handleReturn ret calls ⟨classifier, sample, d.setPrinted printed⟩).map forgetPrinted
      = (handleReturn ret calls ⟨classifier, sample, d⟩).map forgetPrinted := by
  simp only [handleReturn, AieDaemon.pushBackTelemetry_setPrinted,
    AieDaemon.setPrinted_pendingTelemetry, classifySamples_setPrinted]
  split_ifs
  · rw [Option.map_map, Option.map_map, Option.map_map]
    rfl
  all_goals rfl

/-- **One iteration.** -/
theorem forgetPrinted_step {s s' : ConfiguredDaemon} (h : s.forgetPrinted = s'.forgetPrinted)
    {e e' : Event} (he : SameReturn e e') :
    (s.step e).map forgetPrinted = (s'.step e').map forgetPrinted := by
  -- the two daemons differ in what was printed
  obtain ⟨printed, rfl⟩ : ∃ printed, s = { s' with daemon := s'.daemon.setPrinted printed } :=
    ⟨s.daemon.telemetryReader.printed, by
      have hdaemon := congrArg (·.daemon.setPrinted s.daemon.telemetryReader.printed) h
      ext1
      · exact congrArg (·.classifier) h
      · exact congrArg (·.sample) h
      · exact hdaemon⟩
  cases e with
  | telemetry poll calls =>
    cases e' with
    | push ret' => cases he
    | telemetry poll' calls' =>
      obtain ⟨hret, rfl⟩ := he
      simp only [step, TelemetryReader.readSample, AieDaemon.setPrinted, hret]
      split
      · trans (handleReturn poll'.ret calls s').map forgetPrinted
        · exact handleReturn_setPrinted _ _ _ _ _ _
        · exact (handleReturn_setPrinted _ _ _ _ _ _).symm
      · exact handleReturn_setPrinted _ _ _ _ _ _
  | push ret =>
    cases e' with
    | telemetry poll' calls' => cases he
    | push ret' =>
      obtain rfl := he
      simp only [step, AieDaemon.pushDecisions_setPrinted]
      rfl

/-- **Records unread.** Runs whose polls return the same values end with the same decisions,
    the same writes and the same classifier, or both end the daemon. -/
theorem records_unread (s : ConfiguredDaemon) {es es' : List Event}
    (h : List.Forall₂ SameReturn es es') :
    (s.runAll es).map forgetPrinted = (s.runAll es').map forgetPrinted := by
  -- two daemons that differ in what was printed stay so
  suffices hall : ∀ s' : ConfiguredDaemon, s.forgetPrinted = s'.forgetPrinted →
      (s.runAll es).map forgetPrinted = (s'.runAll es').map forgetPrinted from hall s rfl
  induction h generalizing s with
  | nil =>
    intro s' hs
    exact congrArg some hs
  | @cons e e' es es' he _ ih =>
    intro s' hs
    have hstep := forgetPrinted_step hs he
    simp only [runAll, List.foldlM_cons]
    cases hnext : s.step e with
    | none =>
      rw [hnext] at hstep
      rw [Option.map_eq_none_iff.mp hstep.symm]
      rfl
    | some t =>
      rw [hnext] at hstep
      obtain ⟨t', ht', hforget⟩ := Option.map_eq_some_iff.mp hstep.symm
      rw [ht']
      exact ih t t' hforget.symm

/-- A daemon without a configuration file. -/
private def unconfigured : Startup := ⟨0, 0, 0, 0, none, ⟨false, false, false, []⟩⟩

/-- The daemon there. -/
private def unconfiguredDaemon : ConfiguredDaemon :=
  ⟨.heuristic, .zero, AieDaemon.initialised unconfigured.nodes⟩

/-- The daemon runs the heuristic classifier, the clock at zero. -/
private def idleCalls : ℕ → ClassifyCall :=
  fun _ => ⟨⟨0, 0⟩, ⟨0, 0⟩, fun _ => ⟨false, ⟨[], [], []⟩, fun _ => false, fun _ => false,
    fun _ => [], ⟨0, 0⟩, ⟨0, 0⟩⟩⟩

/-- A record of process 7 or one of process 8. -/
theorem records_unread_of_two :
    (unconfiguredDaemon.runAll
        [.telemetry (.consumed { AiTaskTelemetry.zero with pid := 7 } []) idleCalls]).map
        forgetPrinted
      = (unconfiguredDaemon.runAll
        [.telemetry (.consumed { AiTaskTelemetry.zero with pid := 8 } []) idleCalls]).map
        forgetPrinted :=
  records_unread unconfiguredDaemon (.cons ⟨rfl, rfl⟩ .nil)

/-! ### One process -/

/-- What waits in the daemon, and what it has done, is about its variable. -/
structure OfSample (sample : AiTaskTelemetry) (d : AieDaemon) : Prop where
  waiting : ∀ telem ∈ d.pendingTelemetry, telem = sample
  classified : ∀ telem ∈ d.history.classified, telem = sample
  decided : ∀ decision ∈ d.pendingDecisions, decision.pid = sample.pid
  written : ∀ w ∈ d.history.writes, ∀ decision ∈ w.1, decision.pid = sample.pid

section
variable {sample : AiTaskTelemetry} {d d' : AieDaemon}

/-- Both classifiers make decisions about the process of the record. -/
theorem classify_pid {call : ClassifyCall} {telem : AiTaskTelemetry}
    {buffer decision : AiSchedDecision} {ret : Int32} {classifier classifier' : ClassifierObject}
    (h : classifier.classify call telem buffer = (.returned ret (some decision), classifier')) :
    decision.pid = telem.pid := by
  cases classifier with
  | heuristic =>
    obtain ⟨-, hdecision⟩ := OnnxOutcome.returned.inj (Prod.mk.inj h).1
    rw [← Option.some.inj hdecision]
    rfl
  | onnx modelPath object =>
    obtain ⟨-, taskClass, rfl⟩ := OnnxClassifier.classify_returned (Prod.mk.inj h).1
    rfl

/-- A call about the variable decides about its process. -/
theorem OfSample.classifySample (h : OfSample sample d) {env : SampleEnv}
    (hpid : ∀ decision ∈ AieDaemon.decided env sample, decision.pid = sample.pid) :
    OfSample sample (d.classifySample env sample) := by
  obtain ⟨-, hwaiting, -, hwrites⟩ := AieDaemon.classifySample_frame env sample d
  constructor
  · rw [hwaiting]
    exact h.waiting
  · rw [AieDaemon.classifySample_classified, List.forall_mem_append]
    exact ⟨h.classified, fun telem htelem => List.mem_singleton.mp htelem⟩
  · rw [(AieDaemon.classifySample_decisions env sample d).1, List.forall_mem_append]
    exact ⟨h.decided, hpid⟩
  · rw [hwrites]
    exact h.written

/-- A batch of copies of the variable. -/
theorem OfSample.classifySamples (h : OfSample sample d) {samples : List AiTaskTelemetry}
    (hsamples : ∀ telem ∈ samples, telem = sample) {calls : ℕ → ClassifyCall}
    {classifier classifier' : ClassifierObject}
    (hbatch : classifySamples calls samples classifier d = some (classifier', d')) :
    OfSample sample d' := by
  induction samples generalizing calls classifier d with
  | nil =>
    obtain ⟨-, rfl⟩ := Prod.mk.inj (Option.some.inj hbatch)
    exact h
  | cons telem rest ih =>
    obtain ⟨rfl, hrest⟩ := List.forall_mem_cons.mp hsamples
    simp only [ConfiguredDaemon.classifySamples] at hbatch
    split at hbatch
    · rename_i ret decision classifier₁ hcall
      refine ih (h.classifySample ?_) hrest hbatch
      intro x hx
      -- the decision is what the call returned
      obtain ⟨buffer, -, hclassify⟩ := AieDaemon.exists_of_mem_decided hx
      rw [← (Prod.mk.inj hclassify).2]
      exact classify_pid hcall
    · cases hbatch

/-- A timeout appends the variable. -/
theorem OfSample.pushBackTelemetry (h : OfSample sample d) :
    OfSample sample (d.pushBackTelemetry sample) :=
  { h with
    waiting := List.forall_mem_append.mpr
      ⟨h.waiting, fun _ htelem => List.mem_singleton.mp htelem⟩ }

/-- A push hands over decisions about its process. -/
theorem OfSample.pushDecisions (h : OfSample sample d) (ret : Int32) :
    OfSample sample (d.pushDecisions ret) := by
  unfold AieDaemon.pushDecisions
  split
  · exact h
  · refine { h with decided := by simp, written := ?_ }
    refine List.forall_mem_append.mpr ⟨h.written, fun w hw => ?_⟩
    rw [List.mem_singleton.mp hw]
    exact h.decided

end

/-- What the worker does with the return of a poll. -/
theorem OfSample.handleReturn {s s' : ConfiguredDaemon} (h : OfSample s.sample s.daemon)
    {ret : Int32} {calls : ℕ → ClassifyCall} (hs' : handleReturn ret calls s = some s') :
    s'.sample = s.sample ∧ OfSample s.sample s'.daemon := by
  simp only [ConfiguredDaemon.handleReturn] at hs'
  split_ifs at hs'
  · -- the batch is full
    obtain ⟨⟨classifier, d⟩, hbatch, rfl⟩ := Option.map_eq_some_iff.mp hs'
    have hd := h.pushBackTelemetry.classifySamples h.pushBackTelemetry.waiting hbatch
    exact ⟨rfl, { hd with waiting := by simp }⟩
  · obtain rfl := Option.some.inj hs'
    exact ⟨rfl, h.pushBackTelemetry⟩
  · obtain rfl := Option.some.inj hs'
    exact ⟨rfl, { h with }⟩
  · obtain rfl := Option.some.inj hs'
    exact ⟨rfl, h⟩

/-- **One iteration.** -/
theorem OfSample.step {s s' : ConfiguredDaemon} (h : OfSample s.sample s.daemon) {e : Event}
    (he : s.step e = some s') : s'.sample = s.sample ∧ OfSample s.sample s'.daemon := by
  cases e with
  | push ret =>
    obtain rfl := Option.some.inj he
    exact ⟨rfl, h.pushDecisions ret⟩
  | telemetry poll calls =>
    -- `read_sample` leaves the variable alone
    obtain ⟨ret, telemetryReader, hread⟩ : ∃ ret telemetryReader,
        s.daemon.telemetryReader.readSample poll s.sample = (ret, s.sample, telemetryReader) := by
      unfold TelemetryReader.readSample
      split
      · exact ⟨_, _, rfl⟩
      · exact ⟨_, _, rfl⟩
    simp only [ConfiguredDaemon.step, hread] at he
    exact @OfSample.handleReturn { s with daemon := { s.daemon with telemetryReader } } s'
      { h with } _ _ he

/-- **One process.** In every run of a daemon that has started, whatever the polls report, the
    samples classified are copies of the uninitialised variable, and all decisions handed to
    the writer are about the process that its pid happens to name. -/
theorem decisions_of_sample {e : Startup} {sample : AiTaskTelemetry} {s s' : ConfiguredDaemon}
    (hs : init e sample = (0, some s)) {es : List Event} (hrun : s.runAll es = some s') :
    OfSample sample s'.daemon := by
  have hstart : s.sample = sample ∧ OfSample sample s.daemon := by
    rw [eq_of_init hs]
    exact ⟨rfl, by constructor <;> simp [AieDaemon.initialised]⟩
  -- the induction is over the states that a run passes, not over where it started
  clear hs
  induction es generalizing s with
  | nil =>
    obtain rfl := Option.some.inj hrun
    exact hstart.2
  | cons ev es ih =>
    obtain ⟨rfl, hdaemon⟩ := hstart
    rw [runAll, List.foldlM_cons] at hrun
    obtain ⟨t, hstep, hrest⟩ := Option.bind_eq_some_iff.mp hrun
    exact ih hrest (hdaemon.step hstep)

/-- Ten timeouts and a push. -/
private def timeoutsAndPush : List Event :=
  List.replicate 10 (.telemetry .timeout idleCalls) ++ [.push 0]

/-- Ten timeouts hand over ten decisions about the process 0. -/
theorem decisions_of_sample_ten_timeouts :
    ∃ s', unconfiguredDaemon.runAll timeoutsAndPush = some s' ∧
      s'.daemon.history.writes.map (fun w => w.1.length) = [10] ∧ OfSample .zero s'.daemon := by
  have hwrites : (unconfiguredDaemon.runAll timeoutsAndPush).map
      (fun s => s.daemon.history.writes.map fun w => w.1.length) = some [10] := rfl
  obtain ⟨s', hrun, hlengths⟩ := Option.map_eq_some_iff.mp hwrites
  exact ⟨s', hrun, hlengths,
    @decisions_of_sample unconfigured .zero unconfiguredDaemon s' rfl _ hrun⟩

end ConfiguredDaemon

end AieOs
