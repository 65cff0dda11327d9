import AieOs.Kernel.Scx
import AieOs.Lib.Runs
import AieOs.Lib.Serial

namespace AieOs

open Lib

/-!
# The minimal schedulers

Each scheduler of `minimal-scheduler` is a handful of hooks over one shared dispatch queue,
`SHARED_DSQ_ID`.  The kernel calls `sched_enqueue` with a task that is to wait and
`sched_dispatch` on a CPU that has nothing to run.  A scheduler whose hooks keep no data of
their own is a `MinimalOps`; its state is the queue, each task of it with the fields of its
`task_struct` that the hooks and the queue read.

* `Fifo`, `SchedExt`, `Fcfs` — the schedulers that insert at the tail and take from the head;
* `outputs_moved_fifo` — tasks that may run on the same CPUs leave them in order of arrival.
-/

/-- A task of the shared queue: its address and `scx.weight`, `scx.slice`, `scx.dsq_vtime`. -/
structure DsqTask where
  ptr : TaskPtr
  weight : UInt32
  slice : UInt64
  dsqVtime : UInt64
  deriving DecidableEq, Repr

/-- The slice an insertion leaves the task with: slice zero leaves it the one it has, but
    for at least one nanosecond. -/
def DsqTask.granted (p : DsqTask) (slice : UInt64) : DsqTask :=
  { p with slice := if slice ≠ 0 then slice else if p.slice = 0 then 1 else p.slice }

/-- An insertion does not change the address. -/
@[simp] theorem DsqTask.granted_ptr (p : DsqTask) (slice : UInt64) :
    (p.granted slice).ptr = p.ptr := rfl

/-! ### The kernel's queue -/

/-- `scx_bpf_dsq_nr_queued`, an `s32`, as the operand of a `u32` operation. -/
def scxBpfDsqNrQueued (dsq : List DsqTask) : UInt32 := .ofNat dsq.length

/-- `scx_bpf_dsq_insert`: append the task, or put it in front where `enq_flags` asks for the
    head of the queue. -/
def scxBpfDsqInsert (p : DsqTask) (slice : UInt64) (enqHead : Bool) (dsq : List DsqTask) :
    List DsqTask :=
  if enqHead then p.granted slice :: dsq else dsq ++ [p.granted slice]

/-- The kernel's `time_before64(a, b)`. -/
def timeBefore64 (a b : UInt64) : Bool := decide ((a - b).toInt64 < 0)

/-- `scx_bpf_dsq_insert_vtime` into a queue ordered by `vtime`: the task goes before the
    first one of a later virtual time. -/
def scxBpfDsqInsertVtime {α : Type} (vtime : α → UInt64) (p : α) (dsq : List α) : List α :=
  dsq.orderedInsert (fun a b => timeBefore64 (vtime a) (vtime b) = true) p

/-- `scx_bpf_dsq_move_to_local` on a CPU where the tasks `ok` may run: the position of the
    first of them. -/
def scxBpfDsqMoveToLocal (ok : TaskPtr → Bool) (dsq : List DsqTask) : Option ℕ :=
  dsq.findIdx? fun p => ok p.ptr

/-- How far virtual time `v` is after `base`, around the wrap. -/
def vtimeAfter (base v : UInt64) : ℕ := distance base.toBitVec v.toBitVec

/-- After zero, a virtual time is as far as its value. -/
@[simp] theorem vtimeAfter_zero (v : UInt64) : vtimeAfter 0 v = v.toNat :=
  distance_zero v.toBitVec

/-- The comparison of virtual times is that of serial numbers. -/
theorem timeBefore64_eq (a b : UInt64) :
    timeBefore64 a b = serialLt a.toBitVec b.toBitVec := by
  rw [timeBefore64, serialLt, BitVec.msb_eq_toInt, decide_eq_decide, Int64.lt_iff_toInt_lt,
    ← Int64.toInt_toBitVec, UInt64.toBitVec_toInt64, UInt64.toBitVec_sub]
  rfl

/-- Among virtual times within `2 ^ 63` of a common start, an insertion goes by time. -/
theorem scxBpfDsqInsertVtime_eq {α : Type} {vtime : α → UInt64} {base : UInt64} {p : α}
    {dsq : List α} (hp : vtimeAfter base (vtime p) < 2 ^ 63)
    (hdsq : ∀ q ∈ dsq, vtimeAfter base (vtime q) < 2 ^ 63) :
    scxBpfDsqInsertVtime vtime p dsq
      = dsq.orderedInsert
          (fun a b => vtimeAfter base (vtime a) < vtimeAfter base (vtime b)) p := by
  unfold scxBpfDsqInsertVtime
  simp only [timeBefore64_eq]
  exact @orderedInsert_serialLt 64 α (fun q => (vtime q).toBitVec) base.toBitVec p dsq hp hdsq

/-- An insertion adds the task and drops none. -/
@[simp] theorem mem_scxBpfDsqInsertVtime {α : Type} {vtime : α → UInt64} {p q : α}
    {dsq : List α} : q ∈ scxBpfDsqInsertVtime vtime p dsq ↔ q = p ∨ q ∈ dsq :=
  List.mem_orderedInsert _

/-- The queue is longer by one. -/
@[simp] theorem length_scxBpfDsqInsertVtime {α : Type} {vtime : α → UInt64} {p : α}
    {dsq : List α} : (scxBpfDsqInsertVtime vtime p dsq).length = dsq.length + 1 :=
  (List.perm_orderedInsert _ p dsq).length_eq

/-! ### Schedulers as operations on the queue -/

/-- The hooks of a scheduler.  `schedDispatch` sees what `bpf_get_prandom_u32` returns and
    for which tasks a move to the CPU succeeds; its result is the position of the task moved. -/
structure MinimalOps where
  schedEnqueue : Bool → DsqTask → List DsqTask → List DsqTask
  schedDispatch : UInt32 → (TaskPtr → Bool) → List DsqTask → Option ℕ

/-- The calls of the hooks. -/
inductive MinimalEvent where
  /-- The task with its fields, and whether `enq_flags` asks for the head of the queue. -/
  | enqueue (p : DsqTask) (enqHead : Bool)
  | dispatch (cpu : Int32) (random : UInt32) (ok : TaskPtr → Bool)

namespace MinimalOps

variable (ops : MinimalOps)

/-- The queue after a call. -/
def step (dsq : List DsqTask) : MinimalEvent → List DsqTask
  | .enqueue p enqHead      => ops.schedEnqueue enqHead p dsq
  | .dispatch _ random ok   =>
    match ops.schedDispatch random ok dsq with
    | none   => dsq
    | some i => dsq.eraseIdx i

/-- The task that a call moves to the local queue of a CPU. -/
def moved (dsq : List DsqTask) : MinimalEvent → List (Int32 × DsqTask)
  | .enqueue _ _            => []
  | .dispatch cpu random ok =>
    (((ops.schedDispatch random ok dsq).bind (dsq[·]?)).map (cpu, ·)).toList

variable {ops}

/-- The task that is moved leaves the queue. -/
theorem step_dispatch {random : UInt32} {ok : TaskPtr → Bool} {dsq : List DsqTask} {i : ℕ}
    (h : ops.schedDispatch random ok dsq = some i) (cpu : Int32) :
    ops.step dsq (.dispatch cpu random ok) = dsq.eraseIdx i := by
  rw [step, h]

end MinimalOps

/-- The tasks that arrive in the course of the calls. -/
def arrivals (es : List MinimalEvent) : List TaskPtr :=
  es.filterMap fun
    | .enqueue p _    => some p.ptr
    | .dispatch _ _ _ => none

/-- A queue splits around the task at the position that `scx_bpf_dsq_move_to_local` finds. -/
theorem split_of_moveToLocal {ok : TaskPtr → Bool} {dsq : List DsqTask} {i : ℕ}
    (h : scxBpfDsqMoveToLocal ok dsq = some i) :
    ∃ as p bs, dsq = as ++ p :: bs ∧ dsq[i]? = some p ∧ dsq.eraseIdx i = as ++ bs ∧
      ok p.ptr = true ∧ ∀ a ∈ as, ok a.ptr = false := by
  obtain ⟨hi, hok, hbefore⟩ := List.findIdx?_eq_some_iff_getElem.mp h
  refine ⟨dsq.take i, dsq[i], dsq.drop (i + 1), ?_, List.getElem?_eq_getElem hi,
    List.eraseIdx_eq_take_drop_succ dsq i, hok, fun a ha => ?_⟩
  · rw [List.getElem_cons_drop, List.take_append_drop]
  · -- what stands before the first task allowed is not allowed
    obtain ⟨j, hj, rfl⟩ := List.mem_take_iff_getElem.mp ha
    simpa using hbefore j (by omega)

/-! ### First come, first served -/

namespace Fifo

/-- The slice of `sched_enqueue`: a division by zero is zero. -/
def slice (dsq : List DsqTask) : UInt64 := (5000000 / scxBpfDsqNrQueued dsq).toUInt64

/-- `sched_enqueue` of fifo.bpf.c. -/
def schedEnqueue (enqHead : Bool) (p : DsqTask) (dsq : List DsqTask) : List DsqTask :=
  scxBpfDsqInsert p (slice dsq) enqHead dsq

/-- `sched_dispatch` of fifo.bpf.c. -/
def schedDispatch (_random : UInt32) (ok : TaskPtr → Bool) (dsq : List DsqTask) : Option ℕ :=
  scxBpfDsqMoveToLocal ok dsq

/-- fifo.bpf.c. -/
def schedOps : MinimalOps := ⟨schedEnqueue, schedDispatch⟩

end Fifo

namespace SchedExt

/-- `sched_enqueue` of sched_ext.bpf.c. -/
def schedEnqueue (enqHead : Bool) (p : DsqTask) (dsq : List DsqTask) : List DsqTask :=
  scxBpfDsqInsert p (5000000 / scxBpfDsqNrQueued dsq).toUInt64 enqHead dsq

/-- `sched_dispatch` of sched_ext.bpf.c. -/
def schedDispatch (_random : UInt32) (ok : TaskPtr → Bool) (dsq : List DsqTask) : Option ℕ :=
  scxBpfDsqMoveToLocal ok dsq

/-- sched_ext.bpf.c. -/
def schedOps : MinimalOps := ⟨schedEnqueue, schedDispatch⟩

end SchedExt

namespace Fcfs

/-- `sched_enqueue` of fcfs.bpf.c: the slice `-1` is infinite. -/
def schedEnqueue (enqHead : Bool) (p : DsqTask) (dsq : List DsqTask) : List DsqTask :=
  scxBpfDsqInsert p (-1) enqHead dsq

/-- `sched_dispatch` of fcfs.bpf.c. -/
def schedDispatch (_random : UInt32) (ok : TaskPtr → Bool) (dsq : List DsqTask) : Option ℕ :=
  scxBpfDsqMoveToLocal ok dsq

/-- fcfs.bpf.c. -/
def schedOps : MinimalOps := ⟨schedEnqueue, schedDispatch⟩

end Fcfs

/-- The schedulers that serve in order of arrival, by the slice that they grant. -/
def MinimalOps.IsFifo (ops : MinimalOps) : Prop :=
  (∃ slice : List DsqTask → UInt64, ops.schedEnqueue = fun enqHead p dsq =>
    scxBpfDsqInsert p (slice dsq) enqHead dsq) ∧
  ops.schedDispatch = fun _ => scxBpfDsqMoveToLocal

/-- fifo.bpf.c serves in order of arrival. -/
theorem Fifo.isFifo : Fifo.schedOps.IsFifo := ⟨⟨Fifo.slice, rfl⟩, rfl⟩

/-- So does sched_ext.bpf.c. -/
theorem SchedExt.isFifo : SchedExt.schedOps.IsFifo := ⟨⟨Fifo.slice, rfl⟩, rfl⟩

/-- And fcfs.bpf.c, without ever taking a CPU away. -/
theorem Fcfs.isFifo : Fcfs.schedOps.IsFifo := ⟨⟨fun _ => -1, rfl⟩, rfl⟩

/-- A task of `cls` is not inserted at the head, and a CPU that dispatches may run all tasks of
    `cls` or none. -/
def MinimalEvent.Uniform (cls : TaskPtr → Bool) : MinimalEvent → Prop
  | .enqueue p enqHead => cls p.ptr = true → enqHead = false
  | .dispatch _ _ ok   => ∃ may, ∀ p, cls p = true → ok p = may

section
variable {ops : MinimalOps} (cls : TaskPtr → Bool)

/-- The tasks of `cls` in a list of tasks, by address. -/
def ptrsOf (l : List DsqTask) : List TaskPtr := (l.map DsqTask.ptr).filter cls

/-- The tasks of a class in two lists. -/
@[simp] theorem ptrsOf_append (l l' : List DsqTask) :
    ptrsOf cls (l ++ l') = ptrsOf cls l ++ ptrsOf cls l' := by
  simp [ptrsOf]

/-- One call keeps the tasks of the class in line: what has left, then what waits. -/
theorem MinimalOps.IsFifo.ptrsOf_step (hops : ops.IsFifo) {e : MinimalEvent}
    (he : e.Uniform cls) (dsq : List DsqTask) :
    ptrsOf cls ((ops.moved dsq e).map Prod.snd) ++ ptrsOf cls (ops.step dsq e)
      = ptrsOf cls dsq ++ (arrivals [e]).filter cls := by
  obtain ⟨⟨slice, henq⟩, hdisp⟩ := hops
  cases e with
  | enqueue p enqHead =>
    by_cases hcls : cls p.ptr = true
    · obtain rfl : enqHead = false := he hcls
      simp [MinimalOps.moved, MinimalOps.step, henq, scxBpfDsqInsert, arrivals, ptrsOf]
    · -- a task of another class may be put anywhere
      cases enqHead <;>
        simp [MinimalOps.moved, MinimalOps.step, henq, scxBpfDsqInsert, arrivals, ptrsOf, hcls]
  | dispatch cpu random ok =>
    obtain ⟨may, hmay⟩ := he
    simp only [MinimalOps.moved, MinimalOps.step, hdisp]
    cases h : scxBpfDsqMoveToLocal ok dsq with
    | none => simp [arrivals, ptrsOf]
    | some i =>
      obtain ⟨as, p, bs, hsplit, hget, herase, hp, has⟩ := split_of_moveToLocal h
      -- if the task that leaves is of the class, none before it is
      have hskip : cls p.ptr = true → ptrsOf cls as = [] := fun hcls => by
        refine List.filter_eq_nil_iff.mpr fun a ha hacls => ?_
        obtain ⟨t, ht, rfl⟩ := List.mem_map.mp ha
        have hsame : ok t.ptr = ok p.ptr := (hmay _ hacls).trans (hmay _ hcls).symm
        simp [has t ht, hp] at hsame
      simp only [Option.bind_some, hget, herase]
      rw [hsplit]
      by_cases hcls : cls p.ptr = true
      · simp only [ptrsOf_append, hskip hcls]
        simp [ptrsOf, hcls, arrivals]
      · simp [ptrsOf, hcls, arrivals]

/-- **Order of arrival.** In a scheduler that inserts at the tail and takes from the head,
    tasks that the same CPUs may run, and that are not enqueued for the head of the queue, leave
    it in the order in which they arrived; the rest of them waits in that order.  Other tasks
    may even be put at the head. -/
theorem outputs_moved_fifo (hops : ops.IsFifo) {es : List MinimalEvent}
    (hes : ∀ e ∈ es, e.Uniform cls) :
    ptrsOf cls ((outputs ops.step ops.moved [] es).map Prod.snd)
        ++ ptrsOf cls (run ops.step [] es)
      = (arrivals es).filter cls := by
  induction es using List.reverseRecOn with
  | nil => rfl
  | append_singleton es e ih =>
    rw [List.forall_mem_append, List.forall_mem_singleton] at hes
    have hstep := hops.ptrsOf_step cls hes.2 (run ops.step [] es)
    rw [run_concat, outputs_concat, List.map_append, ptrsOf_append, List.append_assoc, hstep,
      ← List.append_assoc, ih hes.1, ← List.filter_append]
    simp [arrivals]

end

/-- CPU 0 may run the tasks 1 and 2, but not 3, which is put at the head. -/
theorem outputs_moved_fifo_of_two :
    ptrsOf (fun p => p < 3) ((outputs Fifo.schedOps.step Fifo.schedOps.moved []
          [.enqueue ⟨1, 100, 1, 0⟩ false, .enqueue ⟨3, 100, 1, 0⟩ true,
            .enqueue ⟨2, 100, 1, 0⟩ false, .dispatch 0 7 fun p => p < 3]).map Prod.snd)
        ++ ptrsOf (fun p => p < 3) (run Fifo.schedOps.step []
          [.enqueue ⟨1, 100, 1, 0⟩ false, .enqueue ⟨3, 100, 1, 0⟩ true,
            .enqueue ⟨2, 100, 1, 0⟩ false, .dispatch 0 7 fun p => p < 3])
      = [1, 2] :=
  outputs_moved_fifo _ Fifo.isFifo (List.forall_mem_cons.mpr ⟨fun _ => rfl,
    List.forall_mem_cons.mpr ⟨fun h => absurd h (by decide), List.forall_mem_cons.mpr
      ⟨fun _ => rfl, List.forall_mem_singleton.mpr ⟨true, fun _ h => h⟩⟩⟩⟩)

end AieOs
