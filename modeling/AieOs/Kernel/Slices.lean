import AieOs.Kernel.Hooks
import AieOs.Daemon.Classifier

namespace AieOs

open Lib

/-!
# The time slice of an enqueued task

`ai_sched_enqueue` takes the slice from the daemon's decision if there is one, and else
from the map `time_slices`.  An array map has all its elements from the start, so the
lookup in `get_time_slice_ns` never fails and its default slices are never used: until
userspace writes the element of a class, undecided tasks of that class get the slice 0.
-/

/-- Userspace configures non-zero slices, and stores decisions of the classifier. -/
def SchedEvent.configOk (_ : SchedState) : SchedEvent → Prop
  | .writeTimeSlice _ slice     => slice ≠ 0
  | .writeDecision _ decision   =>
    ∃ ts t d, Classifier.classify ts (some t) (some d) = (0, some decision)
  | _                           => True

/-- The value last written to the element `key` of `time_slices`. -/
def lastSlice (key : UInt32) (es : List SchedEvent) : Option UInt64 :=
  (es.filterMap fun
    | .writeTimeSlice k slice => if k = key then some slice else none
    | _                       => none).getLast?

/-- The slice that `ai_sched_enqueue` passes to `scx_bpf_dsq_insert`. -/
def passedSlice (ctx : HookCtx) (ptr : TaskPtr) (p : TaskStruct) (enqFlags : UInt64)
    (s : SchedState) : Option UInt64 :=
  (aiSchedEnqueue ctx ptr p enqFlags s).scx.inserted.getLast?.map fun x => x.2.slice

/-- The slice the task `p` should get in the state `s` reached by `es`: that of its
    decision, in nanoseconds, else the one configured for its class, else the default. -/
def IntendedSlice (es : List SchedEvent) (s : SchedState) (p : TaskStruct) (slice : UInt64) :
    Prop :=
  slice ≠ 0 ∧
    match s.maps.schedDecisions.lookup p.tgid with
    | some decision =>
      slice.toNat = 1000 * decision.timeSliceUs.toNat ∧
        slice = Classifier.estimateTimeSlice decision.taskClass
    | none          =>
      slice = (lastSlice (classifyTaskFallback p).code es).getD
        (defaultTimeSliceNs (classifyTaskFallback p).code)

/-! ### What the maps hold -/

/-- The maps after the events `es`. -/
structure Configured (es : List SchedEvent) (s : SchedState) : Prop where
  /-- An element of `time_slices` holds what was last written to it, or zero. -/
  timeSlices : ∀ key : UInt32, key.toNat < 5 →
    s.maps.timeSlices[key.toNat]? = some ((lastSlice key es).getD 0)
  /-- Only non-zero values were written. -/
  nonzero : ∀ key slice, lastSlice key es = some slice → slice ≠ 0
  /-- The decisions are those of the classifier. -/
  decisions : ∀ pid decision, s.maps.schedDecisions.lookup pid = some decision →
    ∃ ts t, decision = Classifier.decisionFor ts t

/-- A later write counts. -/
theorem lastSlice_concat (key : UInt32) (es : List SchedEvent) (e : SchedEvent) :
    lastSlice key (es ++ [e])
      = match e with
        | .writeTimeSlice k slice => if k = key then some slice else lastSlice key es
        | _                       => lastSlice key es := by
  cases e with
  | writeTimeSlice k slice =>
    by_cases hk : k = key <;> simp [lastSlice, hk]
  | _ => simp [lastSlice]

/-- An event that writes no slice and no decision keeps the maps configured. -/
theorem Configured.of_eq {es : List SchedEvent} {s s' : SchedState} (h : Configured es s)
    (e : SchedEvent) (he : ∀ k slice, e ≠ .writeTimeSlice k slice)
    (hslices : s'.maps.timeSlices = s.maps.timeSlices)
    (hdecisions : ∀ pid decision, s'.maps.schedDecisions.lookup pid = some decision →
      ∃ ts t, decision = Classifier.decisionFor ts t) : Configured (es ++ [e]) s' := by
  have hlast : ∀ key, lastSlice key (es ++ [e]) = lastSlice key es := fun key => by
    rw [lastSlice_concat]
    cases e with
    | writeTimeSlice k slice => exact absurd rfl (he k slice)
    | _ => rfl
  refine ⟨fun key hkey => ?_, fun key slice hs => ?_, hdecisions⟩
  · rw [hlast, hslices]
    exact h.timeSlices key hkey
  · rw [hlast] at hs
    exact h.nonzero key slice hs

/-- One event keeps the map at the last writes. -/
theorem Configured.step {es : List SchedEvent} {s : SchedState} (h : Configured es s)
    {e : SchedEvent} (he : e.configOk s) : Configured (es ++ [e]) (s.step e) := by
  cases e with
  | enqueue ctx ptr p enqFlags =>
    refine h.of_eq _ (by simp) (aiSchedEnqueue_timeSlices ..) fun pid decision hd => ?_
    rw [SchedState.step, aiSchedEnqueue_schedDecisions] at hd
    exact h.decisions pid decision hd
  | dispatch cpu allowed =>
    refine h.of_eq _ (by simp) ?_ fun pid decision hd => ?_
    · rw [SchedState.step, SchedState.aiSchedDispatch_maps]
    · rw [SchedState.step, SchedState.aiSchedDispatch_maps] at hd
      exact h.decisions pid decision hd
  | writeDecision pid decision =>
    refine h.of_eq _ (by simp) rfl fun pid' decision' hd => ?_
    rcases BoundedMap.lookup_insert_some hd with ⟨-, rfl⟩ | hd
    · obtain ⟨ts, t, d, hclassify⟩ := he
      exact ⟨ts, t, by simpa using hclassify.symm⟩
    · exact h.decisions pid' decision' hd
  | deleteDecision pid =>
    refine h.of_eq _ (by simp) rfl fun pid' decision' hd => ?_
    exact h.decisions pid' decision' (BoundedMap.lookup_erase_some hd)
  | writeTimeSlice k slice =>
    refine ⟨fun key hkey => ?_, fun key slice' hs => ?_, h.decisions⟩
    · show (s.maps.timeSlices.setIfInBounds k.toNat slice)[key.toNat]? = _
      rw [lastSlice_concat, Vector.getElem?_setIfInBounds]
      by_cases hk : k = key
      · subst hk
        simp [hkey]
      · have hne : k.toNat ≠ key.toNat := fun hn => hk (UInt32.toNat_inj.mp hn)
        simp [hk, hne, h.timeSlices key hkey]
    · rw [lastSlice_concat] at hs
      dsimp only at hs
      split at hs
      · cases hs
        exact he
      · exact h.nonzero key slice' hs
  | runLocal cpu => exact h.of_eq _ (by simp) rfl h.decisions
  | writeEnergyMode mode => exact h.of_eq _ (by simp) rfl h.decisions
  | consumeTelemetry => exact h.of_eq _ (by simp) rfl h.decisions

/-- So does a run. -/
theorem configured_run {es : List SchedEvent}
    (h : Throughout SchedState.step SchedEvent.configOk (SchedState.attached .fresh) es) :
    Configured es (run SchedState.step (SchedState.attached .fresh) es) := by
  have hinit : Configured [] (SchedState.attached .fresh) := by
    refine ⟨fun key hkey => ?_, fun key slice hs => ?_, fun pid decision hd => ?_⟩
    · show (Vector.replicate 5 (0 : UInt64))[key.toNat]? = some 0
      rw [Vector.getElem?_replicate, if_pos hkey]
    · cases hs
    · cases hd
  exact history_induction hinit (fun es e hc he => hc.step he) h

/-! ### The slice passed -/

/-- The slice passed to the kernel is the one chosen for the task. -/
theorem passedSlice_eq (ctx : HookCtx) (ptr : TaskPtr) (p : TaskStruct) (enqFlags : UInt64)
    (s : SchedState) :
    passedSlice ctx ptr p enqFlags s = some (enqueueChoice s.maps p).timeSliceNs := by
  rw [passedSlice, aiSchedEnqueue_scx]
  simp [Scx.scxBpfDsqInsert, Scx.nextEntry]

/-- The fallback classes have an element of their own in `time_slices`. -/
theorem AiTaskClass.code_mod (k : AiTaskClass) : k.code % 5 = k.code := by
  cases k <;> decide

/-- A class is an index of the map. -/
theorem AiTaskClass.code_lt (k : AiTaskClass) : k.code.toNat < 5 := by
  cases k <;> decide

/-- With a decision of the classifier, its slice comes back unchanged. -/
theorem Configured.intended_of_decision {es : List SchedEvent} {s : SchedState}
    (h : Configured es s) {p : TaskStruct} {decision : AiSchedDecision}
    (hd : s.maps.schedDecisions.lookup p.tgid = some decision) :
    IntendedSlice es s p (enqueueChoice s.maps p).timeSliceNs := by
  obtain ⟨ts, t, rfl⟩ := h.decisions _ _ hd
  have hslice : (enqueueChoice s.maps p).timeSliceNs
      = Classifier.estimateTimeSlice (Classifier.decisionFor ts t).taskClass := by
    simp only [enqueueChoice, hd]
    exact Classifier.decisionFor_slice ts t
  refine ⟨?_, ?_⟩
  · rw [hslice]
    intro hzero
    have hpos := (Classifier.estimateTimeSlice_bounds (Classifier.decisionFor ts t).taskClass).1
    rw [hzero] at hpos
    exact absurd hpos (by decide)
  · rw [hd]
    refine ⟨?_, hslice⟩
    -- a 32-bit number of microseconds, in nanoseconds, fits in 64 bits
    have hlt := (Classifier.decisionFor ts t).timeSliceUs.toNat_lt
    simp only [enqueueChoice, hd, UInt64.toNat_mul, UInt32.toNat_toUInt64]
    rw [show UInt64.toNat 1000 = 1000 from rfl]
    omega

/-- **Slices.** In every state reached, a task gets the intended slice exactly if a decision
    exists for its process or the slice of its fallback class was configured. -/
theorem intended_slice_iff (es : List SchedEvent)
    (h : Throughout SchedState.step SchedEvent.configOk (SchedState.attached .fresh) es)
    (ctx : HookCtx) (ptr : TaskPtr) (p : TaskStruct) (enqFlags : UInt64) :
    (∃ slice, passedSlice ctx ptr p enqFlags
        (run SchedState.step (SchedState.attached .fresh) es) = some slice ∧
      IntendedSlice es (run SchedState.step (SchedState.attached .fresh) es) p slice) ↔
    ((run SchedState.step (SchedState.attached .fresh) es).maps.schedDecisions.lookup
        p.tgid).isSome ∨
      (lastSlice (classifyTaskFallback p).code es).isSome := by
  have hconf := configured_run h
  generalize run SchedState.step (SchedState.attached .fresh) es = s at hconf ⊢
  have hpassed := passedSlice_eq ctx ptr p enqFlags s
  cases hd : s.maps.schedDecisions.lookup p.tgid with
  | some decision =>
    exact iff_of_true ⟨_, hpassed, hconf.intended_of_decision hd⟩ (.inl rfl)
  | none =>
    have hlookup := hconf.timeSlices (classifyTaskFallback p).code (AiTaskClass.code_lt _)
    have hchoice : (enqueueChoice s.maps p).timeSliceNs
        = (lastSlice (classifyTaskFallback p).code es).getD 0 := by
      simp only [enqueueChoice, hd, getTimeSliceNs, AiTaskClass.code_mod, hlookup]
    rw [hchoice] at hpassed
    cases hl : lastSlice (classifyTaskFallback p).code es with
    | some slice =>
      rw [hl] at hpassed
      refine iff_of_true ⟨slice, hpassed, hconf.nonzero _ _ hl, ?_⟩ (.inr rfl)
      rw [hd, hl]
      rfl
    | none =>
      -- the element still holds the zero it was created with
      rw [hl] at hpassed
      refine iff_of_false ?_ (by simp)
      rintro ⟨slice, hs, hne, -⟩
      rw [hpassed] at hs
      exact hne (Option.some.inj hs).symm

/-- Right after `ai_sched_init` an undecided task gets the slice 0, not its default. -/
theorem intended_slice_not_after_init :
    ¬ ∀ (es : List SchedEvent), Throughout SchedState.step SchedEvent.configOk
        (SchedState.attached .fresh) es → ∀ ctx ptr p enqFlags,
      ∃ slice, passedSlice ctx ptr p enqFlags
          (run SchedState.step (SchedState.attached .fresh) es) = some slice ∧
        IntendedSlice es (run SchedState.step (SchedState.attached .fresh) es) p slice := by
  intro hall
  obtain ⟨slice, hs, hne, -⟩ := hall [] trivial .quiet 7 (.ordinary 7) 0
  rw [show passedSlice .quiet 7 (.ordinary 7) 0
    (run SchedState.step (SchedState.attached .fresh) []) = some 0 by decide] at hs
  exact hne (Option.some.inj hs).symm

/-- A configured slice is passed on. -/
theorem intended_slice_iff_configured :
    ∃ slice, passedSlice .quiet 7 (.ordinary 7) 0 (run SchedState.step (SchedState.attached .fresh)
        [.writeTimeSlice 4 3000000]) = some slice ∧
      IntendedSlice [.writeTimeSlice 4 3000000] (run SchedState.step (SchedState.attached .fresh)
        [.writeTimeSlice 4 3000000]) (.ordinary 7) slice :=
  (intended_slice_iff [.writeTimeSlice 4 3000000]
    ⟨(by decide : (3000000 : UInt64) ≠ 0), trivial⟩ .quiet 7 (.ordinary 7) 0).mpr
    (.inr (by decide))

end AieOs
