import Mathlib.Logic.Function.Basic
import AieOs.Kernel.AiSched

namespace AieOs

/-!
# sched_ext dispatch queues

The kernel side that the scheduler's hooks call into: user-created dispatch queues
(DSQs), one local queue per CPU, and the three calls `scx_bpf_create_dsq`,
`scx_bpf_dsq_insert` and `scx_bpf_dsq_move_to_local`.  A task is named by the address of
its `task_struct`; the insertions are numbered, so that two insertions of one task are
told apart.  `inserted` and `moved` record the calls made so far.
-/

/-- The address of a `task_struct`. -/
abbrev TaskPtr := UInt64

/-- One insertion of a task into a DSQ: its number and the arguments of the call. -/
structure DsqEntry where
  seq : ℕ
  task : TaskPtr
  slice : UInt64
  enqFlags : UInt64
  deriving DecidableEq, Repr

/-- The queues of the kernel. -/
structure Scx where
  /-- The created DSQs, each from its first to its last task. -/
  dsqs : UInt64 → Option (List DsqEntry)
  /-- The local queue of each CPU. -/
  localDsq : Int32 → List DsqEntry
  /-- All calls of `scx_bpf_dsq_insert`: the DSQ named and the entry. -/
  inserted : List (UInt64 × DsqEntry)
  /-- All moves to a local queue: the CPU and the entry. -/
  moved : List (Int32 × DsqEntry)

namespace Scx

/-- Before any scheduler is attached. -/
def empty : Scx := ⟨fun _ => none, fun _ => [], [], []⟩

/-- `scx_bpf_create_dsq(id, node)` that returns `ret`: the DSQ exists iff `ret` is zero. -/
def scxBpfCreateDsq (ret : Int32) (id : UInt64) (s : Scx) : Scx :=
  if ret = 0 then { s with dsqs := Function.update s.dsqs id (some []) } else s

/-- The entry the next `scx_bpf_dsq_insert` makes. -/
def nextEntry (s : Scx) (p : TaskPtr) (slice enqFlags : UInt64) : DsqEntry :=
  ⟨s.inserted.length, p, slice, enqFlags⟩

/-- `scx_bpf_dsq_insert(p, dsq_id, slice, enq_flags)`: append the task to the named DSQ, also
    where the flags ask for its head, so that the DSQs are FIFO queues.  A DSQ that does not
    exist takes nothing. -/
def scxBpfDsqInsert (p : TaskPtr) (dsqId slice enqFlags : UInt64) (s : Scx) : Scx :=
  let e := s.nextEntry p slice enqFlags
  { s with
    dsqs := Function.update s.dsqs dsqId ((s.dsqs dsqId).map (· ++ [e]))
    inserted := s.inserted ++ [(dsqId, e)] }

/-- `scx_bpf_dsq_move_to_local(dsq_id)` on CPU `cpu`, where the tasks `allowed` may run:
    move the first of them in the DSQ to the local queue; whether there was one. -/
def scxBpfDsqMoveToLocal (allowed : TaskPtr → Bool) (cpu : Int32) (dsqId : UInt64) (s : Scx) :
    Bool × Scx :=
  match s.dsqs dsqId with
  | none   => (false, s)
  | some q =>
    -- a task that may not run on the CPU is passed over
    match q.find? fun e => allowed e.task with
    | none   => (false, s)
    | some e =>
      (true,
        { s with
          dsqs := Function.update s.dsqs dsqId (some (q.eraseP fun e => allowed e.task))
          localDsq := Function.update s.localDsq cpu (s.localDsq cpu ++ [e])
          moved := s.moved ++ [(cpu, e)] })

/-- The CPU runs the first task of its local queue. -/
def runLocal (cpu : Int32) (s : Scx) : Scx :=
  { s with localDsq := Function.update s.localDsq cpu (s.localDsq cpu).tail }

/-- The insertions whose task still waits in its DSQ, in order of insertion. -/
def waiting (s : Scx) : List (UInt64 × DsqEntry) :=
  s.inserted.filter fun x => x.2 ∈ (s.dsqs x.1).getD []

/-- A task that runs was inserted before, -/
@[simp] theorem runLocal_inserted (cpu : Int32) (s : Scx) :
    (s.runLocal cpu).inserted = s.inserted := rfl

/-- and moved before. -/
@[simp] theorem runLocal_moved (cpu : Int32) (s : Scx) : (s.runLocal cpu).moved = s.moved := rfl

end Scx

end AieOs
