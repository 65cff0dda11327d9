import AieOs.Kernel.ServiceOrder

namespace AieOs

open Lib

/-!
# No task is lost, and no CPU idles while a task could run

Every enqueue makes one insertion; each insertion is at any time either in one of the
five DSQs, once, or was moved to one local queue, once.  A dispatch on a CPU moves one
task when some DSQ holds a task allowed there, and otherwise changes nothing.
-/

/-- The tasks enqueued in a run, once for each enqueue. -/
def enqueuedTasks (es : List SchedEvent) : List TaskPtr :=
  es.filterMap fun
    | .enqueue _ ptr _ _ => some ptr
    | _                  => none

namespace Scx

/-- What waits in the five DSQs, one after another. -/
def dsqEntries (s : Scx) : List DsqEntry := Dsq.all.flatMap fun d => (s.dsqs d.id).getD []

/-- What was moved to the local queues. -/
def movedEntries (s : Scx) : List DsqEntry := s.moved.map Prod.snd

/-- Some DSQ holds a task that is allowed. -/
def HasRunnable (allowed : TaskPtr → Bool) (s : Scx) : Prop :=
  ∃ d : Dsq, ∃ e ∈ (s.dsqs d.id).getD [], allowed e.task = true

end Scx

/-- The tasks enqueued by the run `es` and the queues of `s` account for each other. -/
structure TasksConserved (es : List SchedEvent) (s : Scx) : Prop where
  /-- The insertions are those of the enqueued tasks. -/
  inserted : s.inserted.map (fun x => x.2.task) = enqueuedTasks es
  /-- Each is in exactly one of the five DSQs, once, or was moved exactly once. -/
  once : ∀ x ∈ s.inserted, s.dsqEntries.count x.2 + s.movedEntries.count x.2 = 1
  /-- A task was enqueued as often as it was moved, and once more while it waits. -/
  balance : ∀ ptr, (enqueuedTasks es).count ptr
    = (s.dsqEntries.map DsqEntry.task).count ptr + (s.movedEntries.map DsqEntry.task).count ptr
  /-- No task waits twice. -/
  waitsOnce : ∀ ptr, (s.dsqEntries.map DsqEntry.task).count ptr ≤ 1
  /-- The five DSQs are all there is, and they hold inserted tasks only. -/
  dsq : ∀ id q, s.dsqs id = some q →
    (∃ d : Dsq, d.id = id) ∧ ∀ e ∈ q, (id, e) ∈ s.inserted
  /-- A local queue holds tasks that were moved to it only. -/
  localDsq : ∀ cpu, ∀ e ∈ s.localDsq cpu, (cpu, e) ∈ s.moved ∧ ∃ id, (id, e) ∈ s.inserted

/-- `s'` is `s` after one dispatch on `cpu`: one task moved if one could run, else none. -/
def MovesOne (allowed : TaskPtr → Bool) (cpu : Int32) (s s' : Scx) : Prop :=
  (s.HasRunnable allowed →
    ∃ e ∈ s.dsqEntries, allowed e.task = true ∧ s.dsqEntries.Perm (e :: s'.dsqEntries) ∧
      s'.moved = s.moved ++ [(cpu, e)] ∧ s'.localDsq cpu = s.localDsq cpu ++ [e]) ∧
  (¬ s.HasRunnable allowed → s' = s)

section
variable {w : List (UInt64 × DsqEntry)} {s : Scx}

/-- The five DSQs, one after another, list the waiting tasks in order of service. -/
theorem Serves.dsqEntries_eq (h : Serves w s) :
    s.dsqEntries = (stableSort dsqNumber w).map Prod.snd := by
  rw [stableSort_eq_flatMap_bucket dsqNumbers_sorted fun x hx => h.dsqNumber_mem hx]
  simp only [Scx.dsqEntries, dsqNumbers, List.flatMap_map, List.map_flatMap, h.dsq,
    Option.getD_some]

/-- The entries of the DSQs are those that wait. -/
theorem Serves.dsqEntries_perm (h : Serves w s) : s.dsqEntries.Perm (w.map Prod.snd) := by
  rw [h.dsqEntries_eq]
  exact (stableSort_perm w).map Prod.snd

/-- A CPU finds a task exactly if one of those that wait may run there. -/
theorem Serves.hasRunnable_iff (h : Serves w s) (allowed : TaskPtr → Bool) :
    s.HasRunnable allowed ↔ served dsqNumber (mayRun allowed) w ≠ none := by
  rw [ne_eq, served_eq_none]
  push Not
  constructor
  · rintro ⟨d, e, he, ha⟩
    exact ⟨(d.id, e), h.mem_dsq_iff.mp he, by simpa [mayRun] using ha⟩
  · rintro ⟨x, hx, ha⟩
    obtain ⟨d, hd⟩ := h.mem_dsq x hx
    refine ⟨d, x.2, h.mem_dsq_iff.mpr ?_, by simpa [mayRun] using ha⟩
    rw [← hd]
    exact hx

/-- A dispatch moves one task if some waiting task is allowed on the CPU. -/
theorem Serves.dispatch_movesOne {s : SchedState} (h : Serves w s.scx)
    (allowed : TaskPtr → Bool) (cpu : Int32) :
    MovesOne allowed cpu s.scx (aiSchedDispatch allowed cpu s).scx := by
  rw [MovesOne, h.hasRunnable_iff, serves_dispatch h]
  cases hx : served dsqNumber (mayRun allowed) w with
  | none => exact ⟨fun hne => absurd rfl hne, fun _ => rfl⟩
  | some x =>
    refine ⟨fun _ => ?_, fun hne => absurd (by simp) hne⟩
    have hperm := perm_unserved hx
    have hallowed : allowed x.2.task = true := by
      obtain ⟨as, bs, -, -, hp, -⟩ := served_split hx
      exact hp
    refine ⟨x.2, ?_, hallowed, ?_, rfl, ?_⟩
    · refine h.dsqEntries_perm.mem_iff.mpr (List.mem_map_of_mem (f := Prod.snd) ?_)
      exact hperm.mem_iff.mpr (by simp)
    · refine h.dsqEntries_perm.trans ((hperm.map Prod.snd).trans ?_)
      exact ((h.moveEntry hx cpu).dsqEntries_perm.symm).cons x.2
    · simp [Scx.moveEntry]

end

/-! ### The insertions of a run -/

/-- Over a run, each enqueue inserts its task once. -/
theorem run_inserted (m : SchedMaps) (es : List SchedEvent) :
    (run SchedState.step (SchedState.attached m) es).scx.inserted.map (fun x => x.2.task)
      = enqueuedTasks es := by
  induction es using List.reverseRecOn with
  | nil => rfl
  | append_singleton es e ih =>
    rw [run_concat, step_inserted, List.map_append, ih, enqueuedTasks,
      enqueuedTasks, List.filterMap_append]
    cases e <;> rfl

/-! ### A task waits at most once -/

/-- The kernel's promise keeps the waiting tasks distinct. -/
theorem waiting_tasks_nodup {m : SchedMaps} {es : List SchedEvent}
    (h : Throughout SchedState.step SchedEvent.kernelOk (SchedState.attached m) es) :
    ((run SchedState.step (SchedState.attached m) es).scx.waiting.map fun x => x.2.task).Nodup := by
  induction es using List.reverseRecOn with
  | nil => exact List.nodup_nil
  | append_singleton es e ih =>
    rw [throughout_concat] at h
    obtain ⟨hes, hok⟩ := h
    have hserves := serves_run m es
    rw [run_concat, waiting_step hserves]
    cases e with
    | enqueue ctx ptr p enqFlags =>
      show ((_ ++ [enqueueInsertion _ ptr p enqFlags]).map _).Nodup
      rw [List.map_append, List.map_singleton, ← List.concat_eq_append]
      refine (ih hes).concat fun hmem => hok ?_
      obtain ⟨x, hx, hptr⟩ := List.mem_map.mp hmem
      obtain ⟨d, hd⟩ := hserves.mem_dsq x hx
      refine ⟨d.id, _, hserves.dsq d, x.2, ?_, hptr⟩
      exact List.mem_map_of_mem (f := Prod.snd) (mem_bucket.mpr ⟨hx, by rw [dsqNumber, hd]⟩)
    | dispatch cpu allowed => exact (ih hes).sublist (unserved_sublist.map _)
    | _ => simpa [waitingAfter, insertions] using ih hes

/-! ### Conservation -/

/-- What was inserted waits, or was moved once. -/
theorem Serves.tasksConserved {w : List (UInt64 × DsqEntry)} {s : Scx} (h : Serves w s)
    {es : List SchedEvent} (hins : s.inserted.map (fun x => x.2.task) = enqueuedTasks es)
    (hnodup : (w.map fun x => x.2.task).Nodup) : TasksConserved es s := by
  have hperm : (s.inserted.map Prod.snd).Perm (s.dsqEntries ++ s.movedEntries) :=
    h.perm.trans (h.dsqEntries_perm.symm.append_right _)
  refine
    { inserted := hins
      once := fun x hx => ?_
      balance := fun ptr => ?_
      waitsOnce := fun ptr => ?_
      dsq := fun id q hq => ?_
      localDsq := fun cpu e he => ?_ }
  · rw [← List.count_append, ← hperm.count_eq]
    exact List.count_eq_one_of_mem h.entries_nodup (List.mem_map_of_mem (f := Prod.snd) hx)
  · rw [← hins, ← List.count_append, ← List.map_append, ← (hperm.map DsqEntry.task).count_eq,
      List.map_map]
    rfl
  · refine List.nodup_iff_count_le_one.mp ?_ ptr
    refine (h.dsqEntries_perm.map DsqEntry.task).nodup_iff.mpr ?_
    rwa [List.map_map]
  · refine ⟨by_contra fun hno => ?_, fun e he => h.sublist.subset (h.mem_dsq_iff.mp ?_)⟩
    · rw [h.noOther id fun d hd => hno ⟨d, hd⟩] at hq
      cases hq
    · rw [hq]
      exact he
  · have hmoved : (cpu, e) ∈ s.moved :=
      (h.localDsq cpu).subset (List.mem_map_of_mem (f := fun e => (cpu, e)) he)
    refine ⟨hmoved, ?_⟩
    have hmem : e ∈ s.inserted.map Prod.snd :=
      h.perm.mem_iff.mpr (List.mem_append_right _ (List.mem_map_of_mem (f := Prod.snd) hmoved))
    obtain ⟨x, hx, rfl⟩ := List.mem_map.mp hmem
    exact ⟨x.1, hx⟩

/-- **No task is lost or duplicated, and dispatch is work-conserving.**  After every run of
    the hooks on any CPUs and any writes of userspace, the enqueued tasks are accounted
    for, and a dispatch on any CPU moves one task if one could run there, else none. -/
theorem ai_sched_conserves_tasks (m : SchedMaps) (es : List SchedEvent)
    (h : Throughout SchedState.step SchedEvent.kernelOk (SchedState.attached m) es) :
    TasksConserved es (run SchedState.step (SchedState.attached m) es).scx ∧
      ∀ allowed cpu, MovesOne allowed cpu (run SchedState.step (SchedState.attached m) es).scx
        ((run SchedState.step (SchedState.attached m) es).step (.dispatch cpu allowed)).scx :=
  ⟨(serves_run m es).tasksConserved (run_inserted m es) (waiting_tasks_nodup h),
    fun allowed cpu => (serves_run m es).dispatch_movesOne allowed cpu⟩

/-- A task is enqueued, moved, and enqueued again. -/
def requeueRun : List SchedEvent :=
  [.enqueue .quiet 7 (.ordinary 7) 0, .dispatch 0 fun _ => true, .enqueue .quiet 7 (.ordinary 7) 0]

/-- A task that runs and is enqueued again. -/
theorem ai_sched_conserves_tasks_requeueRun :
    TasksConserved requeueRun
      (run SchedState.step (SchedState.attached .fresh) requeueRun).scx := by
  have hfirst : ¬ (SchedState.attached .fresh).scx.Queued 7 := by
    rintro ⟨id, q, hq, e, he, -⟩
    have hmem := (serves_attached .fresh).mem_dsq_iff.mp (show e ∈ _ by rw [hq]; exact he)
    exact absurd hmem (by simp)
  have hagain : ¬ (run SchedState.step (SchedState.attached .fresh)
      (requeueRun.take 2)).scx.Queued 7 := by
    -- after the dispatch nothing waits
    rintro ⟨id, q, hq, e, he, -⟩
    have hmem := (serves_run .fresh (requeueRun.take 2)).mem_dsq_iff.mp
      (show e ∈ _ by rw [hq]; exact he)
    have hnil : (run SchedState.step (SchedState.attached .fresh)
        (requeueRun.take 2)).scx.waiting = [] := by decide
    rw [hnil] at hmem
    exact absurd hmem (by simp)
  exact (ai_sched_conserves_tasks .fresh requeueRun ⟨hfirst, trivial, hagain, trivial⟩).1

end AieOs
