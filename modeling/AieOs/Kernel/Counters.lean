import AieOs.Kernel.ServiceOrder

namespace AieOs

open Lib

/-!
# The routing counters

`ai_sched.h` says what each counter of `struct ai_sched_stats` counts; `update_stats`
chooses the counter from the class and the target queue of an enqueue.  Over a run the
counters are the numbers of enqueues by queue, whatever the class; they mean what the
header says exactly if no class was sent to a queue of another kind.
-/

/-- The class and target queue of an enqueue. -/
abbrev Route := UInt32 × Dsq

/-- The route of an event, if it is an enqueue. -/
def routeOf (s : SchedState) : SchedEvent → List Route
  | .enqueue _ _ p _ => [((enqueueChoice s.maps p).taskClass, enqueueDsq s.maps p)]
  | _                => []

/-- The routes of a run from `ai_sched_init` on, in order. -/
def routes (m : SchedMaps) (es : List SchedEvent) : List Route :=
  outputs SchedState.step routeOf (SchedState.attached m) es

/-- `REALTIME_AI`, `INTERACTIVE_AI` or `BATCH_AI`. -/
def isAiClass (taskClass : UInt32) : Bool :=
  taskClass = AiTaskClass.realtimeAi.code || taskClass = AiTaskClass.interactiveAi.code ||
    taskClass = AiTaskClass.batchAi.code

/-- The counters mean what `ai_sched.h` says. -/
structure CountersMean (rs : List Route) (stats : AiSchedStats) : Prop where
  /-- "Total tasks enqueued". -/
  enqueued : stats.tasksEnqueued.toNat = rs.length
  /-- "AI tasks routed to performance cores". -/
  aiRoutedCpu : stats.tasksAiRoutedCpu.toNat
    = rs.countP fun r => isAiClass r.1 && decide (r.2 = .perf)
  /-- "AI tasks routed to NPU". -/
  aiRoutedNpu : stats.tasksAiRoutedNpu.toNat
    = rs.countP fun r => isAiClass r.1 && decide (r.2 = .npu)
  /-- "Background tasks on efficiency cores". -/
  bgRoutedEff : stats.tasksBgRoutedEff.toNat
    = rs.countP fun r => decide (r.1 = AiTaskClass.background.code) && decide (r.2 = .eff)

/-- The counters of the scheduler. -/
def SchedState.stats (s : SchedState) : AiSchedStats := s.maps.schedStats[0]

/-- The class, device preference and energy mode of an enqueue fit the counter it is
    counted in: only AI classes prefer the NPU, only background work prefers the
    efficiency cores, and no batch work is left to an energy-saving mode. -/
def SchedEvent.countedAsDocumented (s : SchedState) : SchedEvent → Prop
  | .enqueue _ _ p _ =>
    let choice := enqueueChoice s.maps p
    (choice.preferredDevice = AiComputeDevice.npu.code → isAiClass choice.taskClass) ∧
    (choice.preferredDevice = AiComputeDevice.effCore.code →
      choice.taskClass = AiTaskClass.background.code) ∧
    (AiComputeDevice.auto.code ≤ choice.preferredDevice →
      choice.taskClass = AiTaskClass.batchAi.code →
      getEnergyMode s.maps ≠ AiEnergyMode.efficient.code ∧
        getEnergyMode s.maps ≠ AiEnergyMode.powerSaver.code)
  | _                => True

/-! ### What `update_stats` counts -/

/-- The AI classes are those with numbers below that of `BACKGROUND`. -/
theorem isAiClass_iff (taskClass : UInt32) :
    isAiClass taskClass = true ↔ taskClass < AiTaskClass.background.code := by
  simp only [isAiClass, Bool.or_eq_true, decide_eq_true_eq, AiTaskClass.code, CEnum.code]
  grind

/-- The counters after the routes `rs`: by queue, whatever the class. -/
def countedByQueue (rs : List Route) : AiSchedStats where
  tasksEnqueued := UInt64.ofNat rs.length
  tasksDispatched := 0
  tasksAiRoutedCpu := UInt64.ofNat (rs.countP fun r => isAiClass r.1 && decide (r.2 = .perf))
  tasksAiRoutedNpu := UInt64.ofNat (rs.countP fun r => decide (r.2 = .npu))
  tasksBgRoutedEff := UInt64.ofNat (rs.countP fun r => decide (r.2 = .eff))
  avgEnqueueLatencyUs := 0
  totalEnergyEstimateMj := 0

/-- One route more, counted by its queue. -/
theorem countRoute_countedByQueue (rs : List Route) (taskClass : UInt32) (d : Dsq) :
    countRoute taskClass d.id.toUInt32 (countedByQueue rs)
      = countedByQueue (rs ++ [(taskClass, d)]) := by
  have hai := isAiClass_iff taskClass
  cases d <;> cases hc : isAiClass taskClass <;>
    simp_all [countRoute, countedByQueue, List.countP_append, UInt64.ofNat_add]

/-- `update_stats` counts in the one element of its map. -/
theorem updateStats_schedStats (taskClass targetDsq : UInt32) (m : SchedMaps) :
    (updateStats taskClass targetDsq m).schedStats[0]
      = countRoute taskClass targetDsq m.schedStats[0] := by
  simp [updateStats]

/-- One event, which counts the route of its enqueue, if it is one. -/
theorem stats_step (s : SchedState) (e : SchedEvent) {rs : List Route}
    (h : s.stats = countedByQueue rs) :
    (s.step e).stats = countedByQueue (rs ++ routeOf s e) := by
  cases e with
  | enqueue ctx ptr p enqFlags =>
    rw [routeOf, ← countRoute_countedByQueue, ← h]
    simp only [SchedState.step, SchedState.stats, aiSchedEnqueue, updateStats_schedStats,
      emitTelemetry_schedStats, selectDsq_emitTelemetry, enqueueDsq]
  | dispatch cpu allowed =>
    show (aiSchedDispatch allowed cpu s).maps.schedStats[0] = countedByQueue (rs ++ [])
    rw [List.append_nil, ← h, SchedState.stats]
    simp only [SchedState.aiSchedDispatch_maps]
  | _ =>
    show s.stats = countedByQueue (rs ++ [])
    rw [List.append_nil, h]

/-- Over a run, the counters count the routes by their queues. -/
theorem stats_run (m : SchedMaps) (es : List SchedEvent) :
    (run SchedState.step (SchedState.attached m) es).stats = countedByQueue (routes m es) := by
  induction es using List.reverseRecOn with
  | nil => simp [routes, countedByQueue, SchedState.attached, aiSchedInit, SchedState.stats,
      AiSchedStats.empty]
  | append_singleton es e ih =>
    rw [run_concat, routes, outputs_concat]
    exact stats_step _ e ih

/-- Each enqueue makes the insertion that its route names. -/
theorem run_inserted_routes (m : SchedMaps) (es : List SchedEvent) :
    (run SchedState.step (SchedState.attached m) es).scx.inserted.map Prod.fst
      = (routes m es).map fun r => r.2.id := by
  induction es using List.reverseRecOn with
  | nil => rfl
  | append_singleton es e ih =>
    rw [run_concat, step_inserted, List.map_append, ih, routes, routes, outputs_concat,
      List.map_append]
    cases e <;> rfl

/-! ### When the counters mean what they say -/

/-- A route whose queue is of the kind its counter is documented for. -/
def FitsCounter (r : Route) : Prop :=
  (r.2 = .npu → isAiClass r.1 = true) ∧ (r.2 = .eff → r.1 = AiTaskClass.background.code)

/-- Counting only some of the elements that satisfy `q` makes no difference iff these are
    all of them. -/
private theorem countP_and_eq_iff {α : Type*} (l : List α) (p q : α → Bool) :
    l.countP (fun x => p x && q x) = l.countP q ↔ ∀ x ∈ l, q x = true → p x = true := by
  rw [← List.countP_filter, List.countP_eq_length_filter (p := q), List.countP_eq_length]
  simp

/-- No counter wraps below 2^64 enqueues. -/
private theorem toNat_ofNat_countP {rs : List Route} (h : rs.length < 2 ^ 64) (q : Route → Bool) :
    (UInt64.ofNat (rs.countP q)).toNat = rs.countP q :=
  UInt64.toNat_ofNat_of_lt' (lt_of_le_of_lt List.countP_le_length h)

/-- Counting by queues is counting by classes exactly if each route fits its counter. -/
theorem countersMean_iff {rs : List Route} (h : rs.length < 2 ^ 64) :
    CountersMean rs (countedByQueue rs) ↔ ∀ r ∈ rs, FitsCounter r := by
  have hnpu := countP_and_eq_iff rs (fun r => isAiClass r.1) fun r => decide (r.2 = .npu)
  have heff := countP_and_eq_iff rs (fun r => decide (r.1 = AiTaskClass.background.code))
    fun r => decide (r.2 = .eff)
  -- the other two counters are as documented, whatever the routes
  simp only [decide_eq_true_eq] at hnpu heff
  constructor
  · intro hmean r hr
    have h1 := hmean.aiRoutedNpu
    have h2 := hmean.bgRoutedEff
    simp only [countedByQueue, toNat_ofNat_countP h] at h1 h2
    exact ⟨hnpu.mp h1.symm r hr, heff.mp h2.symm r hr⟩
  · intro hfits
    refine ⟨UInt64.toNat_ofNat_of_lt' h, toNat_ofNat_countP h _, ?_, ?_⟩
    · rw [countedByQueue, toNat_ofNat_countP h]
      exact (hnpu.mpr fun r hr => (hfits r hr).1).symm
    · rw [countedByQueue, toNat_ofNat_countP h]
      exact (heff.mpr fun r hr => (hfits r hr).2).symm

/-- By class alone a task goes to the efficiency cores, or to the others, never to the NPU. -/
theorem dsqForClass_fits (energy taskClass : UInt32) :
    FitsCounter (taskClass, dsqForClass energy taskClass) ↔
      (taskClass = AiTaskClass.batchAi.code →
        energy ≠ AiEnergyMode.efficient.code ∧ energy ≠ AiEnergyMode.powerSaver.code) := by
  cases hc : (ofCode? taskClass : Option AiTaskClass) with
  | none =>
    have hne := ofCode?_eq_none_iff.mp hc .batchAi
    simp [FitsCounter, dsqForClass, hc, Ne.symm hne]
  | some k =>
    have hk : k.code = taskClass := ofCode?_eq_some_iff.mp hc
    subst hk
    cases k with
    | batchAi =>
      -- only here the energy mode has a say
      simp only [FitsCounter, dsqForClass, ofCode?_code]
      split
      · rename_i hsaving
        simpa [or_iff_not_imp_left] using hsaving
      · rename_i hsaving
        simpa using hsaving
    | _ => simp [FitsCounter, dsqForClass, ofCode?_code]

/-- The condition on an enqueue says that its route fits its counter. -/
theorem countedAsDocumented_iff (s : SchedState) (e : SchedEvent) :
    e.countedAsDocumented s ↔ ∀ r ∈ routeOf s e, FitsCounter r := by
  cases e with
  | enqueue ctx ptr p enqFlags =>
    show _ ↔ ∀ r ∈ [((enqueueChoice s.maps p).taskClass, enqueueDsq s.maps p)], FitsCounter r
    rw [List.forall_mem_singleton]
    simp only [SchedEvent.countedAsDocumented, enqueueDsq]
    generalize (enqueueChoice s.maps p).taskClass = c
    have hauto : ∀ d : AiComputeDevice, d ≠ .auto → ¬ AiComputeDevice.auto.code ≤ d.code := by
      intro d hd
      cases d <;> first | exact absurd rfl hd | decide
    rcases preferredDevice_cases (enqueueChoice s.maps p).preferredDevice with h | h | h | h | h
    · rw [h]; simp [FitsCounter, hauto]
    · rw [h]; simp [FitsCounter, hauto]
    · rw [h]; simp [FitsCounter, hauto]
    · rw [h]; simp [FitsCounter, hauto]
    · rw [selectDsq_of_auto_le _ _ h, dsqForClass_fits]
      -- without a preference none of the other conditions applies
      have hnpu : (enqueueChoice s.maps p).preferredDevice ≠ AiComputeDevice.npu.code := fun hn =>
        hauto .npu (by decide) (hn ▸ h)
      have heff : (enqueueChoice s.maps p).preferredDevice ≠ AiComputeDevice.effCore.code :=
        fun he => hauto .effCore (by decide) (he ▸ h)
      simp [hnpu, heff, h]
  | _ => exact iff_of_true trivial (by simp [routeOf])

/-! ### Results -/

/-- **Counters.** After a run of fewer than 2^64 enqueues the counters mean what `ai_sched.h`
    says exactly if every enqueue of the run fits the counter it is counted in. -/
theorem counters_mean_iff (m : SchedMaps) (es : List SchedEvent)
    (h : (routes m es).length < 2 ^ 64) :
    CountersMean (routes m es) (run SchedState.step (SchedState.attached m) es).stats ↔
      Throughout SchedState.step SchedEvent.countedAsDocumented (SchedState.attached m) es := by
  rw [stats_run, countersMean_iff h, routes, forall_mem_outputs]
  exact (throughout_congr countedAsDocumented_iff).symm

/-- A decision that sends batch work to device `d`. -/
private def batchOn (d : AiComputeDevice) : AiSchedDecision :=
  { AiSchedDecision.zero with taskClass := AiTaskClass.batchAi.code, preferredDevice := d.code }

/-- Batch work under an energy-saving mode is counted as background work. -/
private def savingRun : List SchedEvent :=
  [.writeEnergyMode AiEnergyMode.efficient.code, .writeDecision 7 (batchOn .auto),
    .enqueue .quiet 7 (.ordinary 7) 0]

/-- A decision for `BATCH_AI` is counted as a background task. -/
private theorem savingRun_counts :
    (run SchedState.step (SchedState.attached .fresh) savingRun).stats.tasksBgRoutedEff.toNat = 1 ∧
      (routes .fresh savingRun).countP (fun r => decide (r.1 = AiTaskClass.background.code) &&
        decide (r.2 = .eff)) = 0 := by
  decide

/-- No background task was routed there. -/
theorem counters_mean_not_saving :
    ¬ ∀ (m : SchedMaps) (es : List SchedEvent), (routes m es).length < 2 ^ 64 →
      CountersMean (routes m es) (run SchedState.step (SchedState.attached m) es).stats := by
  intro hall
  have hmean := hall .fresh savingRun (by decide)
  have hcount := hmean.bgRoutedEff
  rw [savingRun_counts.1, savingRun_counts.2] at hcount
  exact absurd hcount (by decide)

/-- Batch work with a preference for the NPU. -/
theorem counters_mean_iff_npu :
    CountersMean
      (routes .fresh [.writeDecision 7 (batchOn .npu), .enqueue .quiet 7 (.ordinary 7) 0])
      (run SchedState.step (SchedState.attached .fresh)
        [.writeDecision 7 (batchOn .npu), .enqueue .quiet 7 (.ordinary 7) 0]).stats :=
  (counters_mean_iff .fresh _ (by decide)).mpr
    ⟨trivial, ⟨fun _ => by decide, by decide, by decide⟩, trivial⟩

end AieOs
