import AieOs.Kernel.Counters
import AieOs.Daemon.OnnxClassifier
import Mathlib.Data.List.Forall2

namespace AieOs

open Lib

/-!
# The daemon's device table and the kernel's routing

`Classifier::select_device` gives a device for a class, and `select_dsq` routes a class
without a device.  The two tables agree on every class: a decision of either classifier is
routed as if its device were left to the scheduler.  So a change of the energy mode still
reaches the tasks with a stored decision; it only moves batch work between two queues.
-/

/-- `d` is a decision of one of the two classifiers, for some telemetry. -/
def AiSchedDecision.Produced (d : AiSchedDecision) : Prop :=
  (∃ ts t d₀, Classifier.classify ts (some t) (some d₀) = (0, some d)) ∨
    ∃ c env t d₀, (OnnxClassifier.classify env (some t) (some d₀) c).1 = .returned 0 (some d)

/-- The stored decisions are the classifiers'. -/
def SchedMaps.DecisionsProduced (m : SchedMaps) : Prop :=
  ∀ pid d, m.schedDecisions.lookup pid = some d → d.Produced

/-- Userspace stores decisions of the classifiers. -/
def SchedEvent.Produced : SchedEvent → Prop
  | .writeDecision _ d => d.Produced
  | _                  => True

/-! ### Leaving the device to the scheduler -/

/-- The decision with `AI_DEVICE_AUTO`. -/
def AiSchedDecision.toAuto (d : AiSchedDecision) : AiSchedDecision :=
  { d with preferredDevice := AiComputeDevice.auto.code }

/-- All stored decisions with `AI_DEVICE_AUTO`. -/
def SchedMaps.toAuto (m : SchedMaps) : SchedMaps :=
  { m with schedDecisions := m.schedDecisions.mapValues AiSchedDecision.toAuto }

/-- `SchedMaps.toAuto` of a scheduler, whose queues stay as they are. -/
def SchedState.toAuto (s : SchedState) : SchedState := { s with maps := s.maps.toAuto }

/-- The same event, where a decision is stored with `AI_DEVICE_AUTO`. -/
def SchedEvent.toAuto : SchedEvent → SchedEvent
  | .writeDecision pid d => .writeDecision pid d.toAuto
  | e                    => e

/-! ### The two tables -/

/-- **Tables.** For every class and energy mode the daemon's device leads to the queue that
    the kernel chooses on its own. -/
theorem selectDsq_selectDevice (m : SchedMaps) (taskClass : UInt32) :
    selectDsq m taskClass (Classifier.selectDevice taskClass).code
      = selectDsq m taskClass AiComputeDevice.auto.code := by
  unfold Classifier.selectDevice
  cases hc : (ofCode? taskClass : Option AiTaskClass) with
  | none => rfl
  | some k =>
    have hauto : selectDsq m taskClass AiComputeDevice.auto.code
        = dsqForClass (getEnergyMode m) taskClass :=
      selectDsq_of_auto_le m taskClass (UInt32.le_refl _)
    cases k with
    -- a device for these two classes, which leads where the class leads
    | realtimeAi => simp [hauto, dsqForClass, hc]
    | background => simp [hauto, dsqForClass, hc]
    | _ => rfl

/-- The device of a decision is the one of the table. -/
theorem AiSchedDecision.Produced.preferredDevice {d : AiSchedDecision} (h : d.Produced) :
    d.preferredDevice = (Classifier.selectDevice d.taskClass).code := by
  rcases h with ⟨ts, t, d₀, h⟩ | ⟨c, env, t, d₀, h⟩
  · cases h
    rfl
  · obtain ⟨-, taskClass, rfl⟩ := OnnxClassifier.classify_returned h
    rfl

/-- A decision is routed as if its device were left to the scheduler. -/
theorem AiSchedDecision.Produced.selectDsq_eq {d : AiSchedDecision} (h : d.Produced)
    (m : SchedMaps) :
    selectDsq m d.taskClass d.preferredDevice
      = selectDsq m d.taskClass AiComputeDevice.auto.code := by
  rw [h.preferredDevice, selectDsq_selectDevice]

/-! ### One event, with and without the devices -/

section
variable {s : SchedState}

/-- What is chosen with the devices forgotten. -/
theorem enqueueChoice_toAuto (m : SchedMaps) (p : TaskStruct) :
    enqueueChoice m.toAuto p
      = { enqueueChoice m p with preferredDevice := AiComputeDevice.auto.code } := by
  have hlookup : m.toAuto.schedDecisions.lookup p.tgid
      = (m.schedDecisions.lookup p.tgid).map AiSchedDecision.toAuto :=
    BoundedMap.lookup_mapValues _ _ _
  simp only [enqueueChoice, hlookup]
  cases m.schedDecisions.lookup p.tgid <;> rfl

/-- An enqueue goes where its class goes on its own. -/
theorem SchedMaps.DecisionsProduced.enqueueDsq_eq {m : SchedMaps} (h : m.DecisionsProduced)
    (p : TaskStruct) :
    enqueueDsq m p
      = selectDsq m (enqueueChoice m p).taskClass AiComputeDevice.auto.code := by
  cases hd : m.schedDecisions.lookup p.tgid with
  | some d =>
    simp only [enqueueDsq, enqueueChoice, hd]
    exact (h _ _ hd).selectDsq_eq m
  | none => simp only [enqueueDsq, enqueueChoice, hd]

/-- Forgetting the devices changes no queue. -/
theorem enqueueDsq_toAuto {m : SchedMaps} (h : m.DecisionsProduced) (p : TaskStruct) :
    enqueueDsq m.toAuto p = enqueueDsq m p := by
  rw [h.enqueueDsq_eq, enqueueDsq, enqueueChoice_toAuto]
  rfl

/-- `ai_sched_enqueue` leaves the decisions alone. -/
theorem aiSchedEnqueue_toAuto (h : s.maps.DecisionsProduced) (ctx : HookCtx) (ptr : TaskPtr)
    (p : TaskStruct) (enqFlags : UInt64) :
    (aiSchedEnqueue ctx ptr p enqFlags s).toAuto = aiSchedEnqueue ctx ptr p enqFlags s.toAuto := by
  have hemit : emitTelemetry ctx p s.maps.toAuto = (emitTelemetry ctx p s.maps).toAuto := by
    unfold emitTelemetry
    cases emittedRecord ctx p <;> rfl
  have hstats : ∀ (taskClass targetDsq : UInt32) (m : SchedMaps),
      updateStats taskClass targetDsq m.toAuto = (updateStats taskClass targetDsq m).toAuto :=
    fun _ _ _ => rfl
  -- the record of `emit_telemetry` does not depend on the decisions
  have hdsq : selectDsq (emitTelemetry ctx p s.maps.toAuto)
      (enqueueChoice s.maps.toAuto p).taskClass (enqueueChoice s.maps.toAuto p).preferredDevice
        = selectDsq (emitTelemetry ctx p s.maps)
          (enqueueChoice s.maps p).taskClass (enqueueChoice s.maps p).preferredDevice := by
    rw [selectDsq_emitTelemetry, selectDsq_emitTelemetry]
    exact enqueueDsq_toAuto h p
  simp only [aiSchedEnqueue, SchedState.toAuto] at hdsq ⊢
  rw [hdsq, hemit, enqueueChoice_toAuto, hstats]

/-- **Simulation step.** Forgetting the devices commutes with every event. -/
theorem step_toAuto (h : s.maps.DecisionsProduced) (e : SchedEvent) :
    (s.step e).toAuto = s.toAuto.step e.toAuto := by
  cases e with
  | enqueue ctx ptr p enqFlags => exact aiSchedEnqueue_toAuto h ctx ptr p enqFlags
  | dispatch cpu allowed =>
    show (aiSchedDispatch allowed cpu s).toAuto = aiSchedDispatch allowed cpu s.toAuto
    rw [aiSchedDispatch_eq_pollDsqs, aiSchedDispatch_eq_pollDsqs]
    rfl
  | writeDecision pid d =>
    simp [SchedState.step, SchedEvent.toAuto, SchedState.toAuto, SchedMaps.toAuto]
  | deleteDecision pid =>
    simp [SchedState.step, SchedEvent.toAuto, SchedState.toAuto, SchedMaps.toAuto]
  | _ => rfl

end

/-! ### The stored decisions along a run -/

/-- What an event does to the stored decisions. -/
def decisionsAfter (ds : SchedDecisions) : SchedEvent → SchedDecisions
  | .writeDecision pid d => ds.insert pid d
  | .deleteDecision pid  => ds.erase pid
  | _                    => ds

/-- Only userspace changes the stored decisions. -/
theorem step_schedDecisions (s : SchedState) (e : SchedEvent) :
    (s.step e).maps.schedDecisions = decisionsAfter s.maps.schedDecisions e := by
  cases e with
  | enqueue ctx ptr p enqFlags => exact aiSchedEnqueue_schedDecisions ctx ptr p enqFlags s
  | dispatch cpu allowed =>
    show (aiSchedDispatch allowed cpu s).maps.schedDecisions = _
    rw [SchedState.aiSchedDispatch_maps]
    rfl
  | _ => rfl

section
variable {s s' : SchedState} {es : List SchedEvent}

/-- The stored decisions stay the classifiers'. -/
theorem decisionsProduced_step {e : SchedEvent} (h : s.maps.DecisionsProduced)
    (he : e.Produced) : (s.step e).maps.DecisionsProduced := by
  intro pid d hd
  rw [step_schedDecisions] at hd
  cases e with
  | writeDecision pid' d' =>
    rcases BoundedMap.lookup_insert_some hd with ⟨-, rfl⟩ | hold
    · exact he
    · exact h pid d hold
  | deleteDecision pid' => exact h pid d (BoundedMap.lookup_erase_some hd)
  | _ => exact h pid d hd

/-- **Simulation.** Forgetting the devices changes no queue in a whole run. -/
theorem run_toAuto (h : s.maps.DecisionsProduced) (hes : ∀ e ∈ es, e.Produced) :
    (run SchedState.step s es).toAuto
      = run SchedState.step s.toAuto (es.map SchedEvent.toAuto) := by
  induction es generalizing s with
  | nil => rfl
  | cons e es ih =>
    rw [List.forall_mem_cons] at hes
    rw [List.map_cons, run_cons, run_cons, ← step_toAuto h e]
    exact ih (decisionsProduced_step h hes.1) hes.2

end

/-! ### Two histories of the energy mode -/

/-- Every event but a change of the energy mode. -/
def SchedEvent.notEnergy : SchedEvent → Bool
  | .writeEnergyMode _ => false
  | _                  => true

/-- The class of an enqueue. -/
def classOf (s : SchedState) : SchedEvent → List UInt32
  | .enqueue _ _ p _ => [(enqueueChoice s.maps p).taskClass]
  | _                => []

/-- The class alone decides, under some energy mode. -/
def RoutedByClass (r : Route) (taskClass : UInt32) : Prop :=
  r.1 = taskClass ∧ ∃ energy, r.2 = dsqForClass energy taskClass

/-- Two routes differ at most in the queue of batch work. -/
structure SameButBatch (r r' : Route) : Prop where
  taskClass : r.1 = r'.1
  dsq : r.1 ≠ AiTaskClass.batchAi.code → r.2 = r'.2
  batch : r.1 = AiTaskClass.batchAi.code →
    (r.2 = .perf ∨ r.2 = .eff) ∧ (r'.2 = .perf ∨ r'.2 = .eff)

/-- The energy mode matters to batch work only. -/
theorem dsqForClass_congr {taskClass : UInt32} (h : taskClass ≠ AiTaskClass.batchAi.code)
    (energy energy' : UInt32) : dsqForClass energy taskClass = dsqForClass energy' taskClass := by
  unfold dsqForClass
  cases hc : (ofCode? taskClass : Option AiTaskClass) with
  | none => rfl
  | some k =>
    cases k with
    | batchAi => exact absurd (ofCode?_eq_some_iff.mp hc).symm h
    | _ => rfl

/-- Batch work goes to one of two queues. -/
theorem dsqForClass_batchAi (energy : UInt32) :
    dsqForClass energy AiTaskClass.batchAi.code = .perf ∨
      dsqForClass energy AiTaskClass.batchAi.code = .eff := by
  simp only [dsqForClass, ofCode?_code]
  split <;> simp

/-- Routes that the same class decides differ at most for batch work. -/
theorem RoutedByClass.sameButBatch {r r' : Route} {taskClass : UInt32}
    (h : RoutedByClass r taskClass) (h' : RoutedByClass r' taskClass) : SameButBatch r r' := by
  obtain ⟨rfl, energy, hdsq⟩ := h
  obtain ⟨hclass, energy', hdsq'⟩ := h'
  refine ⟨hclass.symm, fun hne => ?_, fun heq => ?_⟩
  · rw [hdsq, hdsq', dsqForClass_congr hne]
  · rw [hdsq, hdsq', heq]
    exact ⟨dsqForClass_batchAi _, dsqForClass_batchAi _⟩

/-- Lists related to a common third one are related entry by entry. -/
private theorem forall₂_of_common {α β γ : Type*} {R : α → γ → Prop} {R' : β → γ → Prop}
    {S : α → β → Prop} (hS : ∀ a b c, R a c → R' b c → S a b) {as : List α} {bs : List β}
    {cs : List γ} (h : List.Forall₂ R as cs) (h' : List.Forall₂ R' bs cs) :
    List.Forall₂ S as bs := by
  induction h generalizing bs with
  | nil => cases h'; exact .nil
  | cons hac _ ih =>
    cases h' with
    | cons hbc hrest => exact .cons (hS _ _ _ hac hbc) (ih hrest)

section
variable {s s' : SchedState} {es : List SchedEvent}

/-- One enqueue: what the class says, whatever the energy mode is. -/
theorem routeOf_routedByClass (h : s.maps.DecisionsProduced)
    (hs : s.maps.schedDecisions = s'.maps.schedDecisions) (e : SchedEvent) :
    List.Forall₂ RoutedByClass (routeOf s e) (classOf s' e) := by
  cases e with
  | enqueue ctx ptr p enqFlags =>
    have hclass : (enqueueChoice s.maps p).taskClass = (enqueueChoice s'.maps p).taskClass := by
      simp only [enqueueChoice, hs]
      cases s'.maps.schedDecisions.lookup p.tgid <;> rfl
    refine .cons ⟨hclass, getEnergyMode s.maps, ?_⟩ .nil
    rw [h.enqueueDsq_eq, hclass]
    exact selectDsq_of_auto_le _ _ (UInt32.le_refl _)
  | _ => exact .nil

/-- The routes of a run follow the classes of the run without changes of the energy mode. -/
theorem routes_routedByClass (h : s.maps.DecisionsProduced) (hes : ∀ e ∈ es, e.Produced)
    (hs : s.maps.schedDecisions = s'.maps.schedDecisions) :
    List.Forall₂ RoutedByClass (outputs SchedState.step routeOf s es)
      (outputs SchedState.step classOf s' (es.filter SchedEvent.notEnergy)) := by
  induction es generalizing s s' with
  | nil => exact .nil
  | cons e es ih =>
    rw [List.forall_mem_cons] at hes
    have hnext := decisionsProduced_step h hes.1
    by_cases hkept : e.notEnergy = true
    · rw [List.filter_cons_of_pos hkept]
      refine List.rel_append (routeOf_routedByClass h hs e) (ih hnext hes.2 ?_)
      rw [step_schedDecisions, step_schedDecisions, hs]
    · -- a change of the energy mode leaves the decisions alone
      rw [List.filter_cons_of_neg hkept]
      cases e with
      | writeEnergyMode mode => exact ih hnext hes.2 hs
      | _ => exact absurd rfl hkept

end

/-! ### Result -/

/-- **Devices.** The two tables agree on every class, under every energy mode; so a run with
    the classifiers' decisions fills the queues like the run with the devices left to the
    scheduler, and two runs that differ in the history of the energy mode only insert alike,
    but for batch work, which goes to the performance or the efficiency cores. -/
theorem device_tables_agree (m : SchedMaps) (es es' : List SchedEvent)
    (hm : m.DecisionsProduced) (hes : ∀ e ∈ es, e.Produced) (hes' : ∀ e ∈ es', e.Produced)
    (hsame : es.filter SchedEvent.notEnergy = es'.filter SchedEvent.notEnergy) :
    (∀ (m' : SchedMaps) (taskClass : UInt32),
      selectDsq m' taskClass (Classifier.selectDevice taskClass).code
        = selectDsq m' taskClass AiComputeDevice.auto.code) ∧
    (run SchedState.step (SchedState.attached m) es).scx
      = (run SchedState.step (SchedState.attached m.toAuto) (es.map SchedEvent.toAuto)).scx ∧
    (∀ es'', (run SchedState.step (SchedState.attached m) es'').scx.inserted.map Prod.fst
      = (routes m es'').map fun r => r.2.id) ∧
    List.Forall₂ SameButBatch (routes m es) (routes m es') := by
  refine ⟨selectDsq_selectDevice, ?_, run_inserted_routes m, ?_⟩
  · have hsim := congrArg SchedState.scx (run_toAuto (s := SchedState.attached m) hm hes)
    exact hsim
  · have hrun := routes_routedByClass (s := SchedState.attached m) hm hes rfl
    have hrun' := routes_routedByClass (s := SchedState.attached m) hm hes' rfl
    rw [← hsame] at hrun'
    exact forall₂_of_common (fun _ _ _ h h' => h.sameButBatch h') hrun hrun'

/-- A record that `classify_heuristic` takes for batch work. -/
private def batchRecord : AiTaskTelemetry :=
  { AiTaskTelemetry.zero with pid := 7, memoryRssMb := 300, schedClass := 1 }

/-- The decision for it. -/
private def batchDecision : AiSchedDecision := Classifier.decisionFor ⟨0, 0⟩ batchRecord

/-- It is one of the classifier. -/
private theorem batchDecision_produced : batchDecision.Produced :=
  .inl ⟨⟨0, 0⟩, batchRecord, .zero, rfl⟩

/-- Batch work with and without a change of the energy mode in between. -/
private def batchRun (change : List SchedEvent) : List SchedEvent :=
  [.writeDecision 7 batchDecision, .enqueue .quiet 7 (.ordinary 7) 0] ++ change ++
    [.enqueue .quiet 7 (.ordinary 7) 0]

/-- After a change of the energy mode batch work may go elsewhere. -/
theorem device_tables_agree_batch :
    List.Forall₂ SameButBatch
      (routes .fresh (batchRun [.writeEnergyMode AiEnergyMode.efficient.code]))
      (routes .fresh (batchRun [])) := by
  refine (device_tables_agree .fresh (batchRun [.writeEnergyMode AiEnergyMode.efficient.code])
    (batchRun []) (fun pid d hd => ?_) ?_ ?_ rfl).2.2.2
  · cases hd
  · simp [batchRun, SchedEvent.Produced, batchDecision_produced]
  · simp [batchRun, SchedEvent.Produced, batchDecision_produced]

end AieOs
