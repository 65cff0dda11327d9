import AieOs.Kernel.Hooks
import Mathlib.Logic.Function.Basic

namespace AieOs

open Lib

/-!
# The decisions in `sched_decisions`, and where they come from

The decision writer stores each decision under its pid; `sched_decisions` has a bounded
number of slots, and a decision for a new pid is refused when they are all taken.  A
`TracedSched` remembers with the scheduler, for each pid, the origin of the decision
stored under it — the record it was computed from, the process it was computed for.  The
code does not know origins; they only let us say what a stored decision is about.
-/

/-- The scheduler and the origins of the decisions stored in `sched_decisions`. -/
structure TracedSched (τ : Type) where
  sched : SchedState
  origin : UInt32 → Option τ

namespace TracedSched

variable {τ : Type}

/-- The attached scheduler, on freshly created maps. -/
def attached : TracedSched τ := ⟨SchedState.attached .fresh, fun _ => none⟩

/-- The stored decision that `ai_sched_enqueue` applies to the task `p`. -/
def decisionOf (s : TracedSched τ) (p : TaskStruct) : Option AiSchedDecision :=
  s.sched.maps.schedDecisions.lookup p.tgid

/-- The map takes this decision: there is a slot for it. -/
def Takes (s : TracedSched τ) (decision : AiSchedDecision) : Prop :=
  (s.sched.maps.schedDecisions.insert? decision.pid decision).isSome

/-- Whether there is a slot is seen by trying. -/
instance (s : TracedSched τ) (decision : AiSchedDecision) : Decidable (s.Takes decision) :=
  inferInstanceAs (Decidable (Option.isSome _ = true))

/-- The decision writer stores a decision of origin `t` under its pid. -/
def writeDecision (s : TracedSched τ) (decision : AiSchedDecision) (t : τ) : TracedSched τ where
  sched := s.sched.step (.writeDecision decision.pid decision)
  origin := if s.Takes decision then Function.update s.origin decision.pid (some t) else s.origin

/-- `ai_sched_enqueue`. -/
def enqueue (s : TracedSched τ) (ctx : HookCtx) (ptr : TaskPtr) (p : TaskStruct)
    (enqFlags : UInt64) : TracedSched τ :=
  { s with sched := s.sched.step (.enqueue ctx ptr p enqFlags) }

/-- Every stored decision has an origin, related to it by `R`. -/
def Backed (R : UInt32 → AiSchedDecision → τ → Prop) (s : TracedSched τ) : Prop :=
  ∀ pid decision, s.sched.maps.schedDecisions.lookup pid = some decision →
    ∃ t, s.origin pid = some t ∧ R pid decision t

variable {R R' : UInt32 → AiSchedDecision → τ → Prop} {s : TracedSched τ}

/-- Nothing is stored at the start. -/
theorem backed_attached : Backed R attached := by
  intro pid decision h
  cases h

/-- A weaker relation holds as well. -/
theorem Backed.mono (h : Backed R s) (hR : ∀ pid decision t, R pid decision t → R' pid decision t) :
    Backed R' s := by
  intro pid decision hd
  obtain ⟨t, ht, hr⟩ := h pid decision hd
  exact ⟨t, ht, hR pid decision t hr⟩

/-- An enqueue stores nothing. -/
theorem Backed.enqueue (h : Backed R s) (ctx : HookCtx) (ptr : TaskPtr) (p : TaskStruct)
    (enqFlags : UInt64) : Backed R (s.enqueue ctx ptr p enqFlags) := by
  intro pid decision hd
  apply h pid decision
  rwa [TracedSched.enqueue, SchedState.step, aiSchedEnqueue_schedDecisions] at hd

/-- What is stored is traced to its origin. -/
theorem writeDecision_origin {decision : AiSchedDecision} (h : s.Takes decision) (t : τ) :
    (s.writeDecision decision t).origin = Function.update s.origin decision.pid (some t) :=
  if_pos h

/-- A refused write changes nothing. -/
theorem writeDecision_of_not_takes {decision : AiSchedDecision} (h : ¬ s.Takes decision) (t : τ) :
    s.writeDecision decision t = s := by
  have hmap : s.sched.maps.schedDecisions.insert decision.pid decision
      = s.sched.maps.schedDecisions := by
    rw [BoundedMap.insert, Option.not_isSome_iff_eq_none.mp h, Option.getD_none]
  rw [writeDecision, if_neg h, SchedState.step, hmap]

/-- What was stored is found again. -/
theorem writeDecision_lookup {decision : AiSchedDecision} (h : s.Takes decision) (t : τ) :
    (s.writeDecision decision t).sched.maps.schedDecisions.lookup decision.pid
      = some decision := by
  obtain ⟨m, hm⟩ := Option.isSome_iff_exists.mp h
  show (s.sched.maps.schedDecisions.insert decision.pid decision).lookup decision.pid = _
  rw [BoundedMap.insert, hm, Option.getD_some]
  exact BoundedMap.lookup_insert?_self hm

/-- A write keeps every decision backed if the one it stores is. -/
theorem Backed.writeDecision (h : Backed R s) {decision : AiSchedDecision} {t : τ}
    (hR : s.Takes decision → R decision.pid decision t) :
    Backed R (s.writeDecision decision t) := by
  by_cases htakes : s.Takes decision
  · intro pid d hd
    rw [writeDecision_origin htakes]
    by_cases hpid : pid = decision.pid
    · -- the new decision, with its new origin
      subst hpid
      rw [writeDecision_lookup htakes] at hd
      obtain rfl := Option.some.inj hd
      exact ⟨t, Function.update_self .., hR htakes⟩
    · -- the other entries and their origins are untouched
      rw [Function.update_of_ne hpid]
      apply h pid d
      rw [← hd]
      exact (BoundedMap.lookup_insert_of_ne hpid).symm
  · rw [writeDecision_of_not_takes htakes]
    exact h

end TracedSched

end AieOs
