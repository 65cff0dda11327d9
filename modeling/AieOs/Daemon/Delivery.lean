import AieOs.Daemon.AieDaemon
import AieOs.Lib.Runs

namespace AieOs

open Lib

/-!
# Delivering decisions batch by batch

Here `classify_pending_tasks` and `push_decisions` are steps of one system, and
`write_decisions` may return anything.  `push_decisions` clears `pending_decisions_` after
a failed write as after a successful one, so a failed push loses its whole batch.
-/

/-- One step of the daemon. -/
inductive DaemonEvent
  /-- A sample is appended to `pending_telemetry_`. -/
  | ingest (sample : AiTaskTelemetry)
  /-- `classify_pending_tasks`. -/
  | classify (env : ℕ → SampleEnv)
  /-- `push_decisions`, whose write returns `ret`. -/
  | push (ret : Int32)

namespace AieDaemon

/-- The effect of one step. -/
def step (d : AieDaemon) : DaemonEvent → AieDaemon
  | .ingest sample => d.pushBackTelemetry sample
  | .classify env  => d.classifyPendingTasks env
  | .push ret      => d.pushDecisions ret

/-- The decisions of the batches that were written successfully. -/
def delivered (d : AieDaemon) : List AiSchedDecision :=
  (d.history.writes.filter fun w => w.2 = 0).flatMap Prod.fst

/-- Nothing is lost: what was delivered and what is pending is all that was appended. -/
def NothingLost (d : AieDaemon) : Prop :=
  d.delivered ++ d.pendingDecisions = d.history.appended

end AieDaemon

/-- A push that has something to write succeeds. -/
def DaemonEvent.pushSucceeds (d : AieDaemon) : DaemonEvent → Prop
  | .push ret => d.pendingDecisions ≠ [] → ret = 0
  | _         => True

namespace AieDaemon

variable {d : AieDaemon}

/-! ### One step -/

/-- What a push delivers: its batch, if the write succeeds. -/
theorem delivered_pushDecisions (ret : Int32) (d : AieDaemon) :
    (d.pushDecisions ret).delivered
      = d.delivered ++ if ret = 0 then d.pendingDecisions else [] := by
  unfold pushDecisions
  split
  · rename_i hempty
    rw [List.isEmpty_iff.mp hempty, ite_self, List.append_nil]
  · show ((d.history.writes ++ [(d.pendingDecisions, ret)]).filter
      fun w => w.2 = 0).flatMap Prod.fst = _
    rw [List.filter_append, List.flatMap_append]
    by_cases hret : ret = 0 <;> simp [delivered, hret]

/-- A push leaves nothing pending, and appends nothing. -/
theorem pushDecisions_pending (ret : Int32) (d : AieDaemon) :
    (d.pushDecisions ret).pendingDecisions = [] ∧
      (d.pushDecisions ret).history.appended = d.history.appended := by
  unfold pushDecisions
  split
  · rename_i hempty
    exact ⟨List.isEmpty_iff.mp hempty, rfl⟩
  · exact ⟨rfl, rfl⟩

/-- Only a push that fails with a batch in hand loses something. -/
theorem nothingLost_step_iff (h : d.NothingLost) (e : DaemonEvent) :
    (d.step e).NothingLost ↔ e.pushSucceeds d := by
  cases e with
  | ingest sample => exact iff_of_true h trivial
  | classify env =>
    refine iff_of_true ?_ trivial
    -- what is appended becomes pending
    obtain ⟨added, hpending, happended⟩ := classifyPendingTasks_decisions env d
    show (d.classifyPendingTasks env).delivered ++ (d.classifyPendingTasks env).pendingDecisions
      = (d.classifyPendingTasks env).history.appended
    rw [delivered, (classifyPendingTasks_frame env d).2.2, hpending, happended, ← List.append_assoc]
    exact congrArg (· ++ added) h
  | push ret =>
    obtain ⟨hpending, happended⟩ := pushDecisions_pending ret d
    show (d.pushDecisions ret).delivered ++ (d.pushDecisions ret).pendingDecisions
      = (d.pushDecisions ret).history.appended ↔ _
    rw [delivered_pushDecisions, hpending, happended, List.append_nil,
      show d.history.appended = d.delivered ++ d.pendingDecisions from Eq.symm h,
      List.append_cancel_left_eq]
    -- nothing is pending after a push, so it must have delivered all that was
    by_cases hret : ret = 0
    · simp [DaemonEvent.pushSucceeds, hret]
    · simp [DaemonEvent.pushSucceeds, hret, eq_comm]

end AieDaemon

/-! ### Results -/

/-- **Delivery.** In every state of a run the delivered and the pending decisions are all
    that were appended, in order, exactly if every push with something to write succeeds. -/
theorem nothing_lost_iff (nodes : DeviceNodes) (es : List DaemonEvent) :
    Always AieDaemon.step AieDaemon.NothingLost (AieDaemon.initialised nodes) es ↔
      Throughout AieDaemon.step DaemonEvent.pushSucceeds (AieDaemon.initialised nodes) es := by
  apply always_iff_throughout_of_any (I := AieDaemon.NothingLost)
  · rfl
  · exact fun d hd => hd
  · exact fun d e hd he => (AieDaemon.nothingLost_step_iff hd e).mpr he
  · exact fun d e hd he hstep => he ((AieDaemon.nothingLost_step_iff hd e).mp hstep)

/-- One sample, classified; the write of its decision fails. -/
private def failedPush : List DaemonEvent :=
  [.ingest .zero, .classify fun _ => .heuristic ⟨0, 0⟩ ⟨0, 0⟩, .push (-1)]

/-- The decision of a write that failed is gone. -/
theorem nothing_lost_not_failedPush :
    ¬ ∀ (nodes : DeviceNodes) (es : List DaemonEvent),
      Always AieDaemon.step AieDaemon.NothingLost (AieDaemon.initialised nodes) es := by
  intro hall
  have hlost : [] = [Classifier.decisionFor ⟨0, 0⟩ .zero] :=
    hall ⟨false, false, false, []⟩ failedPush failedPush (List.prefix_refl _)
  exact absurd hlost (by simp)

end AieOs
