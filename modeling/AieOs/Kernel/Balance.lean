import AieOs.Kernel.Conservation
import AieOs.Kernel.Counters

namespace AieOs

open Lib

/-!
# The balance of enqueues and dispatches

Every enqueued task waits in a DSQ or was moved by a dispatch, and the statistics have a
counter for either.  `ai_sched_dispatch` does not count, so the counters balance only as
long as no dispatch moves a task.
-/

/-- The statistics account for the tasks: those enqueued were dispatched or wait. -/
structure SchedState.Balanced (s : SchedState) : Prop where
  enqueued : s.stats.tasksEnqueued.toNat
    = s.stats.tasksDispatched.toNat + s.scx.dsqEntries.length
  /-- "Total tasks dispatched to CPU". -/
  dispatched : s.stats.tasksDispatched.toNat = s.scx.moved.length

/-- A dispatch finds no task that may run on its CPU. -/
def SchedEvent.movesNothing (s : SchedState) : SchedEvent → Prop
  | .dispatch _ allowed => ¬ s.scx.HasRunnable allowed
  | _                   => True

section
variable {m : SchedMaps} {es : List SchedEvent}

/-- The tasks enqueued are those that wait and those that were moved. -/
theorem routes_length (m : SchedMaps) (es : List SchedEvent) :
    (routes m es).length
      = (run SchedState.step (SchedState.attached m) es).scx.dsqEntries.length
        + (run SchedState.step (SchedState.attached m) es).scx.moved.length := by
  have hserves := serves_run m es
  have hinserted := congrArg List.length (run_inserted_routes m es)
  rw [List.length_map, List.length_map] at hinserted
  have hperm := hserves.perm.length_eq
  rw [List.length_append, List.length_map, List.length_map, List.length_map,
    hinserted] at hperm
  have hwaiting := hserves.dsqEntries_perm.length_eq
  rw [List.length_map] at hwaiting
  rw [hperm, hwaiting]

/-- The counters balance exactly as long as no task was moved. -/
theorem balanced_run_iff (h : (routes m es).length < 2 ^ 64) :
    (run SchedState.step (SchedState.attached m) es).Balanced ↔
      (run SchedState.step (SchedState.attached m) es).scx.moved = [] := by
  have hlength := routes_length m es
  have henqueued : (run SchedState.step (SchedState.attached m) es).stats.tasksEnqueued.toNat
      = (routes m es).length := by
    rw [stats_run]
    exact UInt64.toNat_ofNat_of_lt' h
  -- the counter of dispatches still holds its first value
  have hdispatched : (run SchedState.step (SchedState.attached m) es).stats.tasksDispatched.toNat
      = 0 := by
    rw [stats_run]
    rfl
  rw [← List.length_eq_zero_iff]
  constructor
  · intro hbalanced
    rw [← hbalanced.dispatched, hdispatched]
  · intro hnone
    refine ⟨?_, ?_⟩
    · rw [henqueued, hdispatched, hlength, hnone, Nat.zero_add, Nat.add_zero]
    · rw [hdispatched, hnone]

end

/-! ### When a dispatch moves a task -/

section
variable {s : SchedState}

/-- A dispatch that finds no task leaves the list of moves as it is. -/
theorem moved_step_of_movesNothing {w : List (UInt64 × DsqEntry)} (h : Serves w s.scx)
    {e : SchedEvent} (he : e.movesNothing s) : (s.step e).scx.moved = s.scx.moved := by
  cases e with
  | enqueue ctx ptr p enqFlags =>
    show (aiSchedEnqueue ctx ptr p enqFlags s).scx.moved = _
    rw [aiSchedEnqueue_scx]
    rfl
  | dispatch cpu allowed => exact congrArg Scx.moved ((h.dispatch_movesOne allowed cpu).2 he)
  | _ => rfl

/-- Any other dispatch adds to it. -/
theorem moved_step_ne_nil {w : List (UInt64 × DsqEntry)} (h : Serves w s.scx)
    {e : SchedEvent} (he : ¬ e.movesNothing s) : (s.step e).scx.moved ≠ [] := by
  cases e with
  | dispatch cpu allowed =>
    obtain ⟨x, -, -, -, hmoved, -⟩ := (h.dispatch_movesOne allowed cpu).1 (not_not.mp he)
    show (aiSchedDispatch allowed cpu s).scx.moved ≠ []
    rw [hmoved]
    simp
  | _ => exact absurd trivial he

end

/-! ### Result -/

/-- **Balance.** In a run of fewer than 2^64 enqueues the statistics balance in every state
    exactly if no dispatch of the run finds a task to move. -/
theorem balanced_iff (m : SchedMaps) (es : List SchedEvent) (h : (routes m es).length < 2 ^ 64) :
    Always SchedState.step SchedState.Balanced (SchedState.attached m) es ↔
      Throughout SchedState.step SchedEvent.movesNothing (SchedState.attached m) es := by
  have hmoved : Always SchedState.step SchedState.Balanced (SchedState.attached m) es ↔
      Always SchedState.step (fun s => s.scx.moved = []) (SchedState.attached m) es := by
    refine forall₂_congr fun pre hpre => balanced_run_iff ?_
    obtain ⟨rest, rfl⟩ := hpre
    rw [routes, outputs_append, List.length_append] at h
    exact Nat.lt_of_le_of_lt (Nat.le_add_right _ _) h
  rw [hmoved]
  refine always_iff_throughout_of_any (I := fun s => (∃ w, Serves w s.scx) ∧ s.scx.moved = [])
    ⟨⟨[], serves_attached m⟩, rfl⟩ (fun _ hI => hI.2) ?_ ?_
  · rintro s e ⟨⟨w, hw⟩, hnone⟩ he
    exact ⟨⟨_, serves_step hw e⟩, (moved_step_of_movesNothing hw he).trans hnone⟩
  · rintro s e ⟨⟨w, hw⟩, -⟩ he
    exact moved_step_ne_nil hw he

/-- Two tasks wait. -/
theorem balanced_iff_enqueues :
    Always SchedState.step SchedState.Balanced (SchedState.attached .fresh)
      [.enqueue .quiet 7 (.ordinary 7) 0, .enqueue .quiet 8 (.ordinary 8) 0] :=
  (balanced_iff .fresh [.enqueue .quiet 7 (.ordinary 7) 0, .enqueue .quiet 8 (.ordinary 8) 0]
    (by decide)).mpr ⟨trivial, trivial, trivial⟩

/-- A task is enqueued and dispatched. -/
theorem balanced_not_dispatch :
    ¬ ∀ (m : SchedMaps) (es : List SchedEvent), (routes m es).length < 2 ^ 64 →
      Always SchedState.step SchedState.Balanced (SchedState.attached m) es := by
  intro hall
  have hbalanced := hall .fresh [.enqueue .quiet 7 (.ordinary 7) 0, .dispatch 0 fun _ => true]
    (by decide) _ (List.prefix_refl _)
  exact absurd hbalanced.dispatched (by decide)

end AieOs
