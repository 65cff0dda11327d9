import AieOs.Kernel.Counters
import AieOs.Lib.Interleaving

namespace AieOs

open Lib

/-!
# Enqueues on several CPUs at once

`ai_sched_enqueue` runs on many CPUs at the same time: its map operations, the two atomic
additions of `update_stats` and the insertion are interleaved with those of other calls, with
dispatches, and with what userspace does to the maps.

* `EnqueueCall.step` — one operation of a call; `run_alone` recovers the hook;
* `routed_le_enqueued` — what the counters show in between.
-/

/-! ### One call -/

/-- The next operation of a call, with what it has found out before. -/
inductive EnqueuePc
  /-- Look up `sched_decisions`. -/
  | decision
  /-- There is none: classify the task and look up `time_slices`. -/
  | slice
  /-- `emit_telemetry`. -/
  | emit (choice : EnqueueChoice)
  /-- `select_dsq`. -/
  | select (choice : EnqueueChoice)
  /-- `update_stats`, its first addition. -/
  | countEnqueued (choice : EnqueueChoice) (target : Dsq)
  /-- The second addition, if there is one. -/
  | countTarget (choice : EnqueueChoice) (target : Dsq)
  /-- `scx_bpf_dsq_insert`. -/
  | insert (choice : EnqueueChoice) (target : Dsq)
  | done
  deriving DecidableEq

/-- What a call of `ai_sched_enqueue` is given. -/
structure EnqueueArgs where
  ctx : HookCtx
  ptr : TaskPtr
  p : TaskStruct
  enqFlags : UInt64
  deriving DecidableEq

/-- A call of `ai_sched_enqueue`. -/
structure EnqueueCall where
  args : EnqueueArgs
  pc : EnqueuePc
  deriving DecidableEq

/-- An update of the element of `sched_stats`. -/
def SchedMaps.updateStat (f : AiSchedStats → AiSchedStats) (m : SchedMaps) : SchedMaps :=
  match m.schedStats[0]? with
  | none       => m
  | some stats => { m with schedStats := m.schedStats.setIfInBounds 0 (f stats) }

/-- `__sync_fetch_and_add(&stats->tasks_enqueued, 1)`. -/
def countEnqueued (stats : AiSchedStats) : AiSchedStats :=
  { stats with tasksEnqueued := stats.tasksEnqueued + 1 }

/-- The other addition of `update_stats`. -/
def countTarget (taskClass targetDsq : UInt32) (stats : AiSchedStats) : AiSchedStats :=
  if targetDsq = Dsq.perf.id.toUInt32 ∧ taskClass < AiTaskClass.background.code then
    { stats with tasksAiRoutedCpu := stats.tasksAiRoutedCpu + 1 }
  else if targetDsq = Dsq.npu.id.toUInt32 then
    { stats with tasksAiRoutedNpu := stats.tasksAiRoutedNpu + 1 }
  else if targetDsq = Dsq.eff.id.toUInt32 then
    { stats with tasksBgRoutedEff := stats.tasksBgRoutedEff + 1 }
  else stats

namespace EnqueueCall

/-- A call begins. -/
def start (args : EnqueueArgs) : EnqueueCall := ⟨args, .decision⟩

/-- The next operation. -/
def step (call : EnqueueCall) (s : SchedState) : EnqueueCall × SchedState :=
  let { args, pc } := call
  match pc with
  | .decision =>
    match s.maps.schedDecisions.lookup args.p.tgid with
    | some decision =>
      let timeSliceNs := decision.timeSliceUs.toUInt64 * 1000
      (⟨args, .emit ⟨decision.taskClass, decision.preferredDevice, timeSliceNs⟩⟩, s)
    | none => (⟨args, .slice⟩, s)
  | .slice =>
    let taskClass := (classifyTaskFallback args.p).code
    (⟨args, .emit ⟨taskClass, AiComputeDevice.auto.code, getTimeSliceNs s.maps taskClass⟩⟩, s)
  | .emit choice =>
    (⟨args, .select choice⟩, { s with maps := emitTelemetry args.ctx args.p s.maps })
  -- the energy mode is read now, whatever it was at the look-up
  | .select choice =>
    let target := selectDsq s.maps choice.taskClass choice.preferredDevice
    (⟨args, .countEnqueued choice target⟩, s)
  | .countEnqueued choice target =>
    (⟨args, .countTarget choice target⟩, { s with maps := s.maps.updateStat AieOs.countEnqueued })
  | .countTarget choice target =>
    let count := AieOs.countTarget choice.taskClass target.id.toUInt32
    (⟨args, .insert choice target⟩, { s with maps := s.maps.updateStat count })
  | .insert choice target =>
    (⟨args, .done⟩,
      { s with scx := s.scx.scxBpfDsqInsert args.ptr target.id choice.timeSliceNs args.enqFlags })
  | .done => (call, s)

end EnqueueCall

/-- The scheduler and the calls of `ai_sched_enqueue`. -/
abbrev ConcurrentSched := Interleaved SchedState EnqueueCall

/-- A call begins, one of them takes a step, or something else happens. -/
abbrev ConcurrentEvent := CallEvent EnqueueArgs SchedEvent

namespace ConcurrentSched

/-- The effect of one event. -/
def step : ConcurrentSched → ConcurrentEvent → ConcurrentSched :=
  Interleaved.step EnqueueCall.start EnqueueCall.step SchedState.step

/-- The attached scheduler, no call under way. -/
def attached (m : SchedMaps) : ConcurrentSched := ⟨.attached m, []⟩

/-! ### A call alone is the hook -/

/-- Eight steps bring a call to its end. -/
def alone (args : EnqueueArgs) : List ConcurrentEvent :=
  .enter args :: List.replicate 7 (.step 0)

/-- `update_stats` is two updates of the one element, one after the other. -/
theorem updateStats_eq (taskClass targetDsq : UInt32) (m : SchedMaps) :
    updateStats taskClass targetDsq m
      = (m.updateStat countEnqueued).updateStat (countTarget taskClass targetDsq) := by
  simp [updateStats, SchedMaps.updateStat]
  rfl

/-- A call whose steps follow each other directly is `ai_sched_enqueue`. -/
theorem run_alone (s : SchedState) (args : EnqueueArgs) :
    (run step ⟨s, []⟩ (alone args)).shared
      = aiSchedEnqueue args.ctx args.ptr args.p args.enqFlags s := by
  -- with a decision the look-up of the slice is skipped
  cases hlookup : s.maps.schedDecisions.lookup args.p.tgid with
  | some decision =>
    simp [alone, step, Interleaved.step, EnqueueCall.start, EnqueueCall.step, hlookup,
      aiSchedEnqueue, enqueueChoice, updateStats_eq]
  | none =>
    simp [alone, step, Interleaved.step, EnqueueCall.start, EnqueueCall.step, hlookup,
      aiSchedEnqueue, enqueueChoice, updateStats_eq]

end ConcurrentSched

/-! ### What has been counted -/

/-- The counters after `n` first additions, and the second ones of the routes `rs`. -/
def countedPartly (n : ℕ) (rs : List Route) : AiSchedStats :=
  { countedByQueue rs with tasksEnqueued := UInt64.ofNat n }

/-- The order of the routes makes no difference to the counters. -/
theorem countedPartly_perm (n : ℕ) {rs rs' : List Route} (h : rs.Perm rs') :
    countedPartly n rs = countedPartly n rs' := by
  simp only [countedPartly, countedByQueue, h.countP_eq]

/-- A route may be counted before others that were inserted earlier. -/
theorem countedPartly_moved (rs : List Route) (n : ℕ) (rs' : List Route) (r : Route) :
    countedPartly (rs.length + n + 1) (rs ++ rs' ++ [r])
      = countedPartly ((rs ++ [r]).length + n) (rs ++ [r] ++ rs') := by
  rw [show (rs ++ [r]).length + n = rs.length + n + 1 by simp; omega]
  -- only the order of the routes differs
  refine countedPartly_perm _ ?_
  rw [List.append_assoc, List.append_assoc]
  exact List.perm_append_comm.append_left _

/-- A call that begins counts as enqueued at once. -/
theorem countEnqueued_countedPartly (n : ℕ) (rs : List Route) :
    countEnqueued (countedPartly n rs) = countedPartly (n + 1) rs := by
  simp [countEnqueued, countedPartly, UInt64.ofNat_add]

/-- Its route is counted later. -/
theorem countTarget_countedPartly (n : ℕ) (rs : List Route) (taskClass : UInt32) (d : Dsq) :
    countTarget taskClass d.id.toUInt32 (countedPartly n rs)
      = countedPartly n (rs ++ [(taskClass, d)]) := by
  have hai := isAiClass_iff taskClass
  cases d <;> cases hc : isAiClass taskClass <;>
    simp_all [countTarget, countedPartly, countedByQueue, List.countP_append, UInt64.ofNat_add]

/-- A call that is not interrupted does both. -/
theorem countRoute_countedPartly (n : ℕ) (rs : List Route) (taskClass : UInt32) (d : Dsq) :
    countRoute taskClass d.id.toUInt32 (countedPartly n rs)
      = countedPartly (n + 1) (rs ++ [(taskClass, d)]) := by
  rw [← countTarget_countedPartly, ← countEnqueued_countedPartly]
  rfl

/-- What `ai_sched_enqueue` does to the counters: one route more. -/
theorem stats_aiSchedEnqueue (ctx : HookCtx) (ptr : TaskPtr) (p : TaskStruct) (enqFlags : UInt64)
    (s : SchedState) :
    (aiSchedEnqueue ctx ptr p enqFlags s).stats =
      countRoute (enqueueChoice s.maps p).taskClass (enqueueDsq s.maps p).id.toUInt32
        s.stats := by
  simp only [SchedState.stats, aiSchedEnqueue, updateStats_schedStats, emitTelemetry_schedStats,
    selectDsq_emitTelemetry, enqueueDsq]

namespace EnqueueCall

/-- The call has made its first addition, and not inserted the task yet. -/
def counted (call : EnqueueCall) : Bool :=
  match call.pc with
  | .countTarget _ _ => true
  | .insert _ _      => true
  | _                => false

/-- Its route, if it has made the second addition and not inserted the task yet. -/
def target? (call : EnqueueCall) : Option Route :=
  match call.pc with
  | .insert choice target => some (choice.taskClass, target)
  | _                     => none

end EnqueueCall

namespace ConcurrentSched

/-- The route of the insertion that an event makes, if any. -/
def routeOf (s : ConcurrentSched) : ConcurrentEvent → List Route
  | .enter _ => []
  | .step i  => (s.calls[i]?.bind EnqueueCall.target?).toList
  | .other e => AieOs.routeOf s.shared e

/-- The counters are those of the insertions made, with routes `rs`, and of the calls that
    have counted and not inserted. -/
def Counted (rs : List Route) (s : ConcurrentSched) : Prop :=
  s.shared.stats = countedPartly (rs.length + s.calls.countP EnqueueCall.counted)
    (rs ++ s.calls.filterMap EnqueueCall.target?)

/-- The counters after an update of the element. -/
theorem stats_updateStat (f : AiSchedStats → AiSchedStats) (s : SchedState) :
    SchedState.stats { s with maps := s.maps.updateStat f } = f s.stats := by
  simp [SchedState.stats, SchedMaps.updateStat]

/-- Sending a record leaves the counters alone. -/
theorem stats_emitTelemetry (ctx : HookCtx) (p : TaskStruct) (s : SchedState) :
    SchedState.stats { s with maps := emitTelemetry ctx p s.maps } = s.stats := by
  simp [SchedState.stats]

section
variable {rs : List Route} {s : ConcurrentSched} {pre post : List EnqueueCall}
  {call call' : EnqueueCall} {shared : SchedState}

/-- The counters in the middle of the list of calls. -/
theorem counted_append_cons :
    Counted rs ⟨shared, pre ++ call :: post⟩ ↔
      shared.stats = countedPartly
        (rs.length + (pre.countP EnqueueCall.counted + post.countP EnqueueCall.counted)
          + if call.counted then 1 else 0)
        (rs ++ (pre.filterMap EnqueueCall.target? ++ post.filterMap EnqueueCall.target?)
          ++ call.target?.toList) := by
  have hcount : (pre ++ call :: post).countP EnqueueCall.counted
      = pre.countP EnqueueCall.counted + post.countP EnqueueCall.counted
        + if call.counted then 1 else 0 := by
    rw [List.countP_append, List.countP_cons, Nat.add_assoc]
  have htargets : (pre ++ call :: post).filterMap EnqueueCall.target?
      = pre.filterMap EnqueueCall.target? ++
        (call.target?.toList ++ post.filterMap EnqueueCall.target?) := by
    rw [List.filterMap_append]
    cases htarget : call.target? <;> simp [htarget]
  rw [Counted, hcount, htargets, ← Nat.add_assoc, Nat.add_assoc rs.length]
  refine Eq.congr_right (countedPartly_perm _ ?_)
  rw [List.append_assoc]
  refine List.Perm.append_left _ ?_
  rw [List.append_assoc]
  exact List.perm_append_comm.append_left _

/-- **One operation** of a call. -/
theorem Counted.stepCall (h : s.Counted rs) (i : ℕ) :
    (s.step (.step i)).Counted (rs ++ s.routeOf (.step i)) := by
  cases hcall : s.calls[i]? with
  | none =>
    have hsame : s.step (.step i) = s := by simp [step, Interleaved.step, hcall]
    simpa [hsame, routeOf, hcall] using h
  | some call =>
    obtain ⟨pre, post, hcalls, hstep⟩ := @Interleaved.step_call _ _ _ _ EnqueueCall.start
      EnqueueCall.step SchedState.step s i call hcall
    have hroute : s.routeOf (.step i) = call.target?.toList := by simp [routeOf, hcall]
    obtain ⟨shared, calls⟩ := s
    obtain rfl : calls = _ := hcalls
    rw [counted_append_cons] at h
    rw [hroute, step, hstep, counted_append_cons]
    obtain ⟨args, pc⟩ := call
    cases pc with
    | decision =>
      cases hdecision : shared.maps.schedDecisions.lookup args.p.tgid <;>
        simpa [EnqueueCall.step, hdecision, EnqueueCall.counted, EnqueueCall.target?] using h
    | emit choice =>
      -- the record goes to the ring buffer
      simp only [EnqueueCall.step, stats_emitTelemetry]
      simpa [EnqueueCall.counted, EnqueueCall.target?] using h
    | countEnqueued choice target =>
      simp only [EnqueueCall.step, stats_updateStat, h, countEnqueued_countedPartly]
      simp [EnqueueCall.counted, EnqueueCall.target?]
    | countTarget choice target =>
      simp only [EnqueueCall.step, stats_updateStat, h, countTarget_countedPartly]
      simp [EnqueueCall.counted, EnqueueCall.target?]
    | insert choice target =>
      -- the route moves from the call to the insertions
      have hmoved := h.trans (countedPartly_moved rs _ _ _)
      show shared.stats = _
      simpa [EnqueueCall.step, EnqueueCall.counted, EnqueueCall.target?] using hmoved
    | _ => simpa [EnqueueCall.step, EnqueueCall.counted, EnqueueCall.target?] using h

/-- **One event**, in whatever state the calls are. -/
theorem Counted.step (h : s.Counted rs) (e : ConcurrentEvent) :
    (s.step e).Counted (rs ++ s.routeOf e) := by
  cases e with
  | enter args =>
    simpa [Counted, ConcurrentSched.step, Interleaved.step, EnqueueCall.start, routeOf,
      EnqueueCall.counted, EnqueueCall.target?, List.filterMap_cons] using h
  | step i => exact h.stepCall i
  | other e =>
    cases e with
    | enqueue ctx ptr p enqFlags =>
      show (aiSchedEnqueue ctx ptr p enqFlags s.shared).stats = _
      rw [stats_aiSchedEnqueue, show s.shared.stats = _ from h, countRoute_countedPartly,
        countedPartly_moved]
      rfl
    | dispatch cpu allowed =>
      rw [show rs ++ s.routeOf (.other (.dispatch cpu allowed)) = rs from List.append_nil rs]
      show (aiSchedDispatch allowed cpu s.shared).stats = _
      rw [SchedState.stats, SchedState.aiSchedDispatch_maps]
      exact h
    | _ =>
      simpa [Counted, ConcurrentSched.step, Interleaved.step, SchedState.step, SchedState.stats,
        routeOf, AieOs.routeOf] using h

end

/-- The routes of the insertions of a run. -/
def routesFrom (s : ConcurrentSched) (es : List ConcurrentEvent) : List Route :=
  outputs step routeOf s es

/-- The counters after a run. -/
theorem counted_run (m : SchedMaps) (es : List ConcurrentEvent) :
    (run step (attached m) es).Counted ((attached m).routesFrom es) := by
  induction es using List.reverseRecOn with
  | nil =>
    have hstats : (SchedState.attached m).stats = countedByQueue [] := stats_run m []
    exact hstats
  | append_singleton es e ih =>
    rw [run_concat, routesFrom, outputs_concat]
    exact ih.step e

/-- How many enqueues of a run have begun. -/
def begun (es : List ConcurrentEvent) : ℕ :=
  es.countP fun
    | .enter _                => true
    | .other (.enqueue _ _ _ _) => true
    | _                       => false

/-- All calls have returned. -/
def Finished (s : ConcurrentSched) : Prop := ∀ call ∈ s.calls, call.pc = .done

/-- A call that has not returned. -/
def underWay (call : EnqueueCall) : Bool := call.pc ≠ .done

/-- A step of a call inserts what its route names, and only the last one ends it. -/
theorem step_insertion (call : EnqueueCall) (s : SchedState) :
    (call.step s).2.scx.inserted.map Prod.fst
        = s.scx.inserted.map Prod.fst ++ call.target?.toList.map (fun r => r.2.id) ∧
      (if underWay (call.step s).1 then 1 else 0) + call.target?.toList.length
        = if underWay call then 1 else 0 := by
  obtain ⟨args, pc⟩ := call
  cases pc with
  | decision =>
    cases hdecision : s.maps.schedDecisions.lookup args.p.tgid <;>
      simp [EnqueueCall.step, hdecision, EnqueueCall.target?, underWay]
  | _ => simp [EnqueueCall.step, EnqueueCall.target?, underWay, Scx.scxBpfDsqInsert]

/-- An event makes the insertions that its routes name, by calls that were under way or begin
    with it. -/
theorem step_insertions (s : ConcurrentSched) (e : ConcurrentEvent) :
    (s.step e).shared.scx.inserted.map Prod.fst
        = s.shared.scx.inserted.map Prod.fst ++ (s.routeOf e).map (fun r => r.2.id) ∧
      (s.step e).calls.countP underWay + (s.routeOf e).length
        = s.calls.countP underWay + begun [e] := by
  cases e with
  | enter args =>
    simp [step, Interleaved.step, routeOf, begun, EnqueueCall.start, underWay]
  | step i =>
    cases hcall : s.calls[i]? with
    | none => simp [step, Interleaved.step, routeOf, hcall, begun]
    | some call =>
      obtain ⟨pre, post, hcalls, hstep⟩ := @Interleaved.step_call _ _ _ _ EnqueueCall.start
        EnqueueCall.step SchedState.step s i call hcall
      obtain ⟨hinserted, hcount⟩ := step_insertion call s.shared
      have hroute : s.routeOf (.step i) = call.target?.toList := by simp [routeOf, hcall]
      rw [hroute, step, hstep, hcalls]
      refine ⟨hinserted, ?_⟩
      simp only [List.countP_append, List.countP_cons, begun, List.countP_nil, Bool.false_eq_true,
        if_false]
      omega
  | other e =>
    constructor
    · show (s.shared.step e).scx.inserted.map Prod.fst = _
      rw [AieOs.step_inserted, List.map_append]
      cases e <;> rfl
    · cases e <;> rfl

/-- Over a run, each insertion is one of the routes, and the calls that have begun are those
    under way and those that were counted. -/
theorem begun_run (m : SchedMaps) (es : List ConcurrentEvent) :
    (run step (attached m) es).shared.scx.inserted.map Prod.fst
        = ((attached m).routesFrom es).map (fun r => r.2.id) ∧
      (run step (attached m) es).calls.countP underWay + ((attached m).routesFrom es).length
        = begun es := by
  induction es using List.reverseRecOn with
  | nil => exact ⟨rfl, rfl⟩
  | append_singleton es e ih =>
    obtain ⟨hinserted, hcount⟩ := step_insertions (run step (attached m) es) e
    rw [run_concat, routesFrom, outputs_concat, hinserted, ih.1, List.map_append,
      List.length_append]
    refine ⟨rfl, ?_⟩
    have hbegun : begun (es ++ [e]) = begun es + begun [e] := List.countP_append
    rw [hbegun, ← ih.2, routesFrom]
    omega

/-- The counters when all calls have returned. -/
theorem Counted.finished {rs : List Route} {s : ConcurrentSched} (h : s.Counted rs)
    (hs : s.Finished) : s.shared.stats = countedByQueue rs := by
  -- a call that has returned is neither counted nor about to insert
  have hcount : s.calls.countP EnqueueCall.counted = 0 := by
    rw [List.countP_eq_zero]
    intro call hcall
    simp [EnqueueCall.counted, hs call hcall]
  have htargets : s.calls.filterMap EnqueueCall.target? = [] := by
    rw [List.filterMap_eq_nil_iff]
    intro call hcall
    simp [EnqueueCall.target?, hs call hcall]
  rw [Counted, hcount, htargets, List.append_nil] at h
  exact h

/-- The tasks that the counters report as routed. -/
def routed (stats : AiSchedStats) : ℕ :=
  stats.tasksAiRoutedCpu.toNat + stats.tasksAiRoutedNpu.toNat + stats.tasksBgRoutedEff.toNat

/-- No task is counted as routed twice. -/
theorem countP_routes_le (rs : List Route) :
    rs.countP (fun r => isAiClass r.1 && decide (r.2 = .perf)) +
        rs.countP (fun r => decide (r.2 = .npu)) + rs.countP (fun r => decide (r.2 = .eff))
      ≤ rs.length := by
  induction rs with
  | nil => exact Nat.le_refl _
  | cons r rs ih =>
    obtain ⟨taskClass, d⟩ := r
    simp only [List.countP_cons, List.length_cons]
    cases d <;> cases isAiClass taskClass <;> simp <;> omega

/-- No more is counted as routed than there are routes. -/
theorem routed_countedPartly_le {n : ℕ} {rs : List Route} (hrs : rs.length < 2 ^ 64) :
    routed (countedPartly n rs) ≤ rs.length := by
  have htoNat : ∀ p : Route → Bool, (UInt64.ofNat (rs.countP p)).toNat = rs.countP p := fun p =>
    UInt64.toNat_ofNat_of_lt' (Nat.lt_of_le_of_lt List.countP_le_length hrs)
  simp only [routed, countedPartly, countedByQueue, htoNat]
  exact countP_routes_le rs

/-- A call counts its task as enqueued first, and as routed while it is under way. -/
theorem targets_le (calls : List EnqueueCall) :
    (calls.filterMap EnqueueCall.target?).length ≤ calls.countP EnqueueCall.counted ∧
      calls.countP EnqueueCall.counted ≤ calls.countP underWay := by
  rw [List.length_filterMap_eq_countP]
  constructor
  · refine List.countP_mono_left fun call _ htarget => ?_
    obtain ⟨args, pc⟩ := call
    cases pc <;> simp_all [EnqueueCall.target?, EnqueueCall.counted]
  · refine List.countP_mono_left fun call _ hcounted => ?_
    obtain ⟨args, pc⟩ := call
    cases pc <;> simp_all [EnqueueCall.counted, underWay]

/-- **In between.** In every state of a run of fewer than 2^64 enqueues, whatever userspace
    writes, the counters report no fewer tasks as enqueued than are inserted or routed, and no
    more than have begun to be. -/
theorem routed_le_enqueued (m : SchedMaps) (es : List ConcurrentEvent) (h : begun es < 2 ^ 64) :
    let s := (run step (attached m) es).shared
    s.scx.inserted.length ≤ s.stats.tasksEnqueued.toNat ∧
      routed s.stats ≤ s.stats.tasksEnqueued.toNat ∧ s.stats.tasksEnqueued.toNat ≤ begun es := by
  intro s
  obtain ⟨hinserted, hbegun⟩ := begun_run m es
  have hcounted : s.stats = _ := counted_run m es
  obtain ⟨htargets, hunderWay⟩ := targets_le (run step (attached m) es).calls
  have hlength : s.scx.inserted.length = ((attached m).routesFrom es).length := by
    simpa using congrArg List.length hinserted
  -- every route and every counted call is one of those that have begun
  have hlt : ((attached m).routesFrom es).length
      + (run step (attached m) es).calls.countP EnqueueCall.counted < 2 ^ 64 := by omega
  have henqueued : s.stats.tasksEnqueued.toNat = ((attached m).routesFrom es).length
      + (run step (attached m) es).calls.countP EnqueueCall.counted := by
    rw [hcounted]
    exact UInt64.toNat_ofNat_of_lt' hlt
  have hrouted : routed s.stats ≤ ((attached m).routesFrom es
      ++ (run step (attached m) es).calls.filterMap EnqueueCall.target?).length := by
    rw [hcounted]
    refine routed_countedPartly_le ?_
    rw [List.length_append]
    omega
  rw [List.length_append] at hrouted
  refine ⟨?_, ?_, ?_⟩
  all_goals omega

/-- The first of two calls is about to insert its task when the second one begins. -/
private def overlappingCalls : List ConcurrentEvent :=
  [.enter ⟨.quiet, 7, .ordinary 7, 0⟩, .step 0, .step 0, .step 0, .step 0, .step 0, .step 0,
    .enter ⟨.quiet, 8, .ordinary 8, 0⟩, .step 1, .step 1]

/-- Two calls that overlap. -/
theorem routed_le_enqueued_overlapping :
    let s := (run step (attached .fresh) overlappingCalls).shared
    s.scx.inserted.length ≤ s.stats.tasksEnqueued.toNat ∧
      routed s.stats ≤ s.stats.tasksEnqueued.toNat ∧
      s.stats.tasksEnqueued.toNat ≤ begun overlappingCalls :=
  routed_le_enqueued .fresh overlappingCalls (by decide)

end ConcurrentSched

end AieOs
