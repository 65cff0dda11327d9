import AieOs.Kernel.ConcurrentEnqueues

namespace AieOs

open Lib

/-!
# Enqueues one after the other

A call of `ai_sched_enqueue` reads the configuration in three places, and its one visible effect
is the insertion at its end.  If the configuration does not change while calls are under way,
they act as if each were executed at once, when it inserts its task.

* `ConcurrentSched.Simulates` — what ties the interleaved calls to the atomic ones;
* `ConcurrentSched.enqueues_linearizable` — the queues and counters of a whole run.
-/

/-! ### The configuration -/

/-- The maps that the choice of a queue and a slice depends on. -/
structure SameConfig (m m' : SchedMaps) : Prop where
  schedDecisions : m.schedDecisions = m'.schedDecisions
  energyMode : m.energyMode = m'.energyMode
  timeSlices : m.timeSlices = m'.timeSlices

section
variable {m m' : SchedMaps}

/-- Either of the maps may come first. -/
theorem SameConfig.symm (h : SameConfig m m') : SameConfig m' m :=
  ⟨h.schedDecisions.symm, h.energyMode.symm, h.timeSlices.symm⟩

/-- The configuration is the same throughout a chain of maps. -/
theorem SameConfig.trans {m'' : SchedMaps} (h : SameConfig m m') (h' : SameConfig m' m'') :
    SameConfig m m'' :=
  ⟨h.schedDecisions.trans h'.schedDecisions, h.energyMode.trans h'.energyMode,
    h.timeSlices.trans h'.timeSlices⟩

/-- `get_time_slice_ns` reads the configuration only. -/
theorem SameConfig.getTimeSliceNs (h : SameConfig m m') (taskClass : UInt32) :
    getTimeSliceNs m taskClass = getTimeSliceNs m' taskClass := by
  simp only [AieOs.getTimeSliceNs, h.timeSlices]

/-- So does the choice of class, device and slice for a task, -/
theorem SameConfig.enqueueChoice (h : SameConfig m m') (p : TaskStruct) :
    enqueueChoice m p = enqueueChoice m' p := by
  simp only [AieOs.enqueueChoice, h.schedDecisions, h.getTimeSliceNs]

/-- and `select_dsq`, -/
theorem SameConfig.selectDsq (h : SameConfig m m') (taskClass preferredDevice : UInt32) :
    selectDsq m taskClass preferredDevice = selectDsq m' taskClass preferredDevice := by
  simp only [AieOs.selectDsq, getEnergyMode, h.energyMode]

/-- and with them the choice of a DSQ. -/
theorem SameConfig.enqueueDsq (h : SameConfig m m') (p : TaskStruct) :
    enqueueDsq m p = enqueueDsq m' p := by
  rw [AieOs.enqueueDsq, h.selectDsq, h.enqueueChoice, ← AieOs.enqueueDsq]

/-- Counting does not change the configuration, -/
theorem sameConfig_updateStat (f : AiSchedStats → AiSchedStats) (m : SchedMaps) :
    SameConfig (m.updateStat f) m := by
  unfold SchedMaps.updateStat
  split <;> exact ⟨rfl, rfl, rfl⟩

/-- nor does sending a record, -/
theorem sameConfig_emitTelemetry (ctx : HookCtx) (p : TaskStruct) (m : SchedMaps) :
    SameConfig (emitTelemetry ctx p m) m := ⟨by simp, by simp, by simp⟩

/-- nor the whole of an enqueue. -/
theorem sameConfig_aiSchedEnqueue (ctx : HookCtx) (ptr : TaskPtr) (p : TaskStruct)
    (enqFlags : UInt64) (s : SchedState) :
    SameConfig (aiSchedEnqueue ctx ptr p enqFlags s).maps s.maps := ⟨by simp, by simp, by simp⟩

end

/-- Userspace writes a map that a choice depends on. -/
def SchedEvent.configures : SchedEvent → Bool
  | .writeDecision _ _  => true
  | .deleteDecision _   => true
  | .writeEnergyMode _  => true
  | .writeTimeSlice _ _ => true
  | _                   => false

/-- Schedulers with the same configuration and the same queues take an event alike. -/
theorem step_congr {s s' : SchedState} (hmaps : SameConfig s.maps s'.maps) (hscx : s.scx = s'.scx)
    (e : SchedEvent) :
    SameConfig (s.step e).maps (s'.step e).maps ∧ (s.step e).scx = (s'.step e).scx := by
  cases e with
  | enqueue ctx ptr p enqFlags =>
    constructor
    · exact (sameConfig_aiSchedEnqueue ..).trans (hmaps.trans (sameConfig_aiSchedEnqueue ..).symm)
    · show (aiSchedEnqueue ctx ptr p enqFlags s).scx = (aiSchedEnqueue ctx ptr p enqFlags s').scx
      rw [aiSchedEnqueue_scx, aiSchedEnqueue_scx, hmaps.enqueueDsq, hmaps.enqueueChoice, hscx]
  | dispatch cpu allowed =>
    constructor
    · simpa only [SchedState.step, SchedState.aiSchedDispatch_maps] using hmaps
    · show (aiSchedDispatch allowed cpu s).scx = (aiSchedDispatch allowed cpu s').scx
      -- a dispatch reads the queues only
      rw [aiSchedDispatch_eq_pollDsqs, aiSchedDispatch_eq_pollDsqs, hscx]
  | runLocal cpu => exact ⟨hmaps, congrArg (Scx.runLocal cpu) hscx⟩
  | writeDecision pid decision =>
    exact ⟨{ hmaps with
      schedDecisions := congrArg (·.insert pid decision) hmaps.schedDecisions }, hscx⟩
  | deleteDecision pid =>
    exact ⟨{ hmaps with schedDecisions := congrArg (·.erase pid) hmaps.schedDecisions }, hscx⟩
  | writeEnergyMode mode =>
    exact ⟨{ hmaps with energyMode := congrArg (·.setIfInBounds 0 mode) hmaps.energyMode }, hscx⟩
  | writeTimeSlice key slice =>
    exact ⟨{ hmaps with
      timeSlices := congrArg (·.setIfInBounds key.toNat slice) hmaps.timeSlices }, hscx⟩
  | consumeTelemetry => exact ⟨{ hmaps with }, hscx⟩

/-- The other events leave the configuration alone. -/
theorem sameConfig_step (s : SchedState) {e : SchedEvent} (he : e.configures = false) :
    SameConfig s.maps (s.step e).maps := by
  cases e with
  | enqueue ctx ptr p enqFlags => exact (sameConfig_aiSchedEnqueue ..).symm
  | dispatch cpu allowed =>
    rw [SchedState.step, SchedState.aiSchedDispatch_maps]
    exact ⟨rfl, rfl, rfl⟩
  | runLocal cpu => exact ⟨rfl, rfl, rfl⟩
  | consumeTelemetry => exact ⟨rfl, rfl, rfl⟩
  | _ => cases he

namespace EnqueueCall

/-- What the call has found out is what the maps still say. -/
def Chosen (m : SchedMaps) (call : EnqueueCall) : Prop :=
  match call.pc with
  | .decision                    => True
  | .slice                       => m.schedDecisions.lookup call.args.p.tgid = none
  | .emit choice                 => choice = enqueueChoice m call.args.p
  | .select choice               => choice = enqueueChoice m call.args.p
  | .countEnqueued choice target =>
    choice = enqueueChoice m call.args.p ∧ target = enqueueDsq m call.args.p
  | .countTarget choice target   =>
    choice = enqueueChoice m call.args.p ∧ target = enqueueDsq m call.args.p
  | .insert choice target        =>
    choice = enqueueChoice m call.args.p ∧ target = enqueueDsq m call.args.p
  | .done                        => True

/-- A call that has chosen would choose the same with other counters and records. -/
theorem Chosen.congr {m m' : SchedMaps} {call : EnqueueCall} (h : call.Chosen m)
    (hmaps : SameConfig m m') : call.Chosen m' := by
  unfold Chosen at h ⊢
  split <;> simp_all [hmaps.enqueueChoice, hmaps.enqueueDsq, hmaps.schedDecisions]

/-- A step of the call keeps to it, and leaves the configuration alone. -/
theorem Chosen.step {s : SchedState} {m : SchedMaps} {call : EnqueueCall} (h : call.Chosen m)
    (hmaps : SameConfig s.maps m) :
    (call.step s).1.Chosen m ∧ SameConfig (call.step s).2.maps m := by
  obtain ⟨args, pc⟩ := call
  cases pc with
  | decision =>
    have hchoice := hmaps.enqueueChoice args.p
    rw [AieOs.enqueueChoice] at hchoice
    -- with a decision the call has chosen; without one it will, from the same maps
    cases hdecision : s.maps.schedDecisions.lookup args.p.tgid with
    | some decision =>
      simp only [hdecision] at hchoice
      exact ⟨by simpa [EnqueueCall.step, hdecision, Chosen] using hchoice,
        by simpa [EnqueueCall.step, hdecision] using hmaps⟩
    | none =>
      rw [hmaps.schedDecisions] at hdecision
      exact ⟨by simp [EnqueueCall.step, hmaps.schedDecisions, hdecision, Chosen],
        by simpa [EnqueueCall.step, hmaps.schedDecisions, hdecision] using hmaps⟩
  | slice =>
    have hnone : m.schedDecisions.lookup args.p.tgid = none := h
    -- there was no decision when the call looked, and there is none now
    refine ⟨?_, hmaps⟩
    simp [EnqueueCall.step, Chosen, AieOs.enqueueChoice, hnone, hmaps.getTimeSliceNs]
  | emit choice => exact ⟨h, (sameConfig_emitTelemetry ..).trans hmaps⟩
  | select choice =>
    obtain rfl : choice = enqueueChoice m args.p := h
    exact ⟨⟨rfl, hmaps.selectDsq ..⟩, hmaps⟩
  | countEnqueued choice target => exact ⟨h, (sameConfig_updateStat ..).trans hmaps⟩
  | countTarget choice target => exact ⟨h, (sameConfig_updateStat ..).trans hmaps⟩
  | insert choice target => exact ⟨trivial, hmaps⟩
  | done => exact ⟨trivial, hmaps⟩

/-- The event that the call is, at the step that inserts the task. -/
def enqueue? (call : EnqueueCall) : Option SchedEvent :=
  match call.pc with
  | .insert _ _ => some (.enqueue call.args.ctx call.args.ptr call.args.p call.args.enqFlags)
  | _           => none

end EnqueueCall

namespace ConcurrentSched

/-- The events in whose order the run takes effect: an enqueue at its insertion. -/
def atomically (s : ConcurrentSched) : ConcurrentEvent → List SchedEvent
  | .enter _ => []
  | .step i  => (s.calls[i]?.bind EnqueueCall.enqueue?).toList
  | .other e => [e]

/-- Nobody configures the scheduler while a call is under way. -/
def undisturbed (s : ConcurrentSched) : ConcurrentEvent → Prop
  | .other e => e.configures → ∀ call ∈ s.calls, call.pc = .decision ∨ call.pc = .done
  | _        => True

/-- The interleaved calls simulate the scheduler `t`, which runs them one after the other. -/
structure Simulates (s : ConcurrentSched) (t : SchedState) : Prop where
  config : SameConfig s.shared.maps t.maps
  scx : s.shared.scx = t.scx
  chosen : ∀ call ∈ s.calls, call.Chosen t.maps
  counted : ∃ rs, s.Counted rs ∧ t.stats = countedByQueue rs

section
variable {s : ConcurrentSched} {t : SchedState}

/-- Only the insertion is the effect of a call. -/
theorem step_of_enqueue?_eq_none {call : EnqueueCall} (h : call.enqueue? = none)
    (s : SchedState) :
    (call.step s).2.scx = s.scx ∧ call.target? = none := by
  obtain ⟨args, pc⟩ := call
  cases pc with
  | decision =>
    cases hdecision : s.maps.schedDecisions.lookup args.p.tgid <;>
      simp [EnqueueCall.step, hdecision, EnqueueCall.target?]
  | insert choice target => cases h
  | _ => exact ⟨rfl, rfl⟩

/-- **A step of a call.** The insertion is matched by the whole call, the other steps by none. -/
theorem Simulates.stepCall (h : s.Simulates t) (i : ℕ) :
    (s.step (.step i)).Simulates (run SchedState.step t (s.atomically (.step i))) := by
  cases hcall : s.calls[i]? with
  | none =>
    -- there is no such call
    have hsame : s.step (.step i) = s := by simp [step, Interleaved.step, hcall]
    simpa [hsame, atomically, hcall] using h
  | some call =>
    obtain ⟨rs, hcounted, hstats⟩ := h.counted
    have hcounted' := hcounted.stepCall i
    have hroute : s.routeOf (.step i) = call.target?.toList := by simp [routeOf, hcall]
    obtain ⟨pre, post, hcalls, hstep⟩ := @Interleaved.step_call _ _ _ _ EnqueueCall.start
      EnqueueCall.step SchedState.step s i call hcall
    have hchosen := h.chosen
    rw [hcalls, List.forall_mem_append, List.forall_mem_cons] at hchosen
    obtain ⟨hpre, hthis, hpost⟩ := hchosen
    obtain ⟨hthis', hconfig⟩ := hthis.step h.config
    have hatomic : s.atomically (.step i) = call.enqueue?.toList := by simp [atomically, hcall]
    rw [hroute] at hcounted'
    rw [hatomic]
    rw [step, hstep] at hcounted' ⊢
    cases henqueue : call.enqueue? with
    | none =>
      -- before its insertion the call has no effect on the queues
      obtain ⟨hscx, htarget⟩ := step_of_enqueue?_eq_none henqueue s.shared
      rw [htarget] at hcounted'
      refine ⟨hconfig, hscx.trans h.scx, ?_, rs, by simpa using hcounted', hstats⟩
      exact List.forall_mem_append.mpr ⟨hpre, List.forall_mem_cons.mpr ⟨hthis', hpost⟩⟩
    | some e =>
      obtain ⟨args, pc⟩ := call
      cases pc with
      | insert choice target =>
        obtain rfl := Option.some.inj henqueue
        obtain ⟨rfl, rfl⟩ :
            choice = enqueueChoice t.maps args.p ∧ target = enqueueDsq t.maps args.p := hthis
        -- the atomic enqueue, made now, chooses what the call has chosen
        have hafter := (sameConfig_aiSchedEnqueue args.ctx args.ptr args.p args.enqFlags t).symm
        refine ⟨hconfig.trans hafter, ?_, ?_, rs ++ [_], hcounted', ?_⟩
        · show s.shared.scx.scxBpfDsqInsert _ _ _ _ = (aiSchedEnqueue _ _ _ _ t).scx
          rw [aiSchedEnqueue_scx, h.scx]
        · refine List.forall_mem_append.mpr ⟨fun x hx => (hpre x hx).congr hafter, ?_⟩
          exact List.forall_mem_cons.mpr ⟨trivial, fun x hx => (hpost x hx).congr hafter⟩
        · exact stats_step t (.enqueue args.ctx args.ptr args.p args.enqFlags) hstats
      | _ => cases henqueue

/-- An event that is no enqueue is matched by itself. -/
theorem Simulates.stepOther (h : s.Simulates t) {e : SchedEvent} (he : s.undisturbed (.other e)) :
    (s.step (.other e)).Simulates (t.step e) := by
  obtain ⟨rs, hcounted, hstats⟩ := h.counted
  obtain ⟨hconfig, hscx⟩ := step_congr h.config h.scx e
  -- an enqueue in one go is routed alike, as the configuration is the same
  have hroute : s.routeOf (.other e) = AieOs.routeOf t e := by
    cases e with
    | enqueue ctx ptr p enqFlags =>
      simp only [routeOf, AieOs.routeOf, h.config.enqueueChoice, h.config.enqueueDsq]
    | _ => rfl
  have hcounted' := hcounted.step (.other e)
  rw [hroute] at hcounted'
  refine ⟨hconfig, hscx, fun call hcall => ?_, _, hcounted', stats_step t e hstats⟩
  cases hconf : e.configures with
  | false => exact (h.chosen call hcall).congr (sameConfig_step t hconf)
  | true =>
    -- the call has not found out anything yet, or needs it no more
    obtain hpc | hpc := he hconf call hcall
    · simp [EnqueueCall.Chosen, hpc]
    · simp [EnqueueCall.Chosen, hpc]

/-- **One event** of the concurrent scheduler. -/
theorem Simulates.step {e : ConcurrentEvent} (h : s.Simulates t) (he : s.undisturbed e) :
    (s.step e).Simulates (run SchedState.step t (s.atomically e)) := by
  cases e with
  | enter args =>
    obtain ⟨rs, hcounted, hstats⟩ := h.counted
    refine ⟨h.config, h.scx, ?_, rs, ?_, hstats⟩
    · exact List.forall_mem_append.mpr ⟨h.chosen, List.forall_mem_singleton.mpr trivial⟩
    · simpa [routeOf] using hcounted.step (.enter args)
  | step i => exact h.stepCall i
  | other e => exact h.stepOther he

end

/-- **Linearizability.** As long as nobody configures the scheduler while a call is under way, the
    queues are in every state of a run those of a scheduler that runs the calls one after the
    other, in the order of their insertions; so are the counters once all calls have returned. -/
theorem enqueues_linearizable (m : SchedMaps) (es : List ConcurrentEvent)
    (h : Throughout step undisturbed (attached m) es) :
    let s := run step (attached m) es
    let t := run SchedState.step (.attached m) (outputs step atomically (attached m) es)
    s.shared.scx = t.scx ∧ SameConfig s.shared.maps t.maps ∧
      (s.Finished → s.shared.stats = t.stats) := by
  intro s t
  have hstart : (attached m).Simulates (.attached m) :=
    ⟨⟨rfl, rfl, rfl⟩, rfl, by simp [attached], [], stats_run m [], stats_run m []⟩
  have hrun : s.Simulates t := simulation_run hstart (fun s t e hs he => hs.step he) h
  obtain ⟨rs, hcounted, hstats⟩ := hrun.counted
  exact ⟨hrun.scx, hrun.config, fun hfinished => (hcounted.finished hfinished).trans hstats.symm⟩

/-- Two calls take turns, and a dispatch comes in between. -/
private def alternatingCalls : List ConcurrentEvent :=
  [.enter ⟨.quiet, 7, .ordinary 7, 0⟩, .enter ⟨.quiet, 8, .ordinary 8, 0⟩, .step 0, .step 1,
    .step 0, .step 1, .step 1, .step 1, .step 1, .step 1, .step 1,
    .other (.dispatch 0 fun _ => true), .step 0, .step 0, .step 0, .step 0, .step 0]

/-- The call that began last comes first. -/
theorem enqueues_linearizable_alternating :
    (run step (attached .fresh) alternatingCalls).shared.scx
      = (run SchedState.step (.attached .fresh) [.enqueue .quiet 8 (.ordinary 8) 0,
          .dispatch 0 fun _ => true, .enqueue .quiet 7 (.ordinary 7) 0]).scx :=
  (enqueues_linearizable .fresh alternatingCalls
    (by simp [alternatingCalls, undisturbed, SchedEvent.configures])).1

end ConcurrentSched

end AieOs
