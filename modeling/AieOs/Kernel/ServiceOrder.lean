import AieOs.Kernel.Hooks
import AieOs.Lib.StablePriority
import Mathlib.Data.List.Perm.Subperm

namespace AieOs

open Lib

/-!
# The DSQs serve the waiting tasks in stable priority order

The abstract view of the scheduler is a single list of waiting tasks in order of
enqueueing, each with its DSQ number as priority.  `Serves w s` relates it to the five
queues of the kernel: each DSQ is the bucket of its number.  Under this relation

* `Serves.insert` — the one insertion of `ai_sched_enqueue` appends a task to the list;
* `serves_dispatch` — `ai_sched_dispatch` moves the task that comes first in stable
  priority order among those allowed on the CPU, and none if there is none;
* `serves_run` — every run of hooks and userspace writes keeps the relation.
-/

/-- The priority of a waiting task: its DSQ number. -/
def dsqNumber (x : UInt64 × DsqEntry) : ℕ := x.1.toNat

/-- Which waiting tasks may run on a CPU that the tasks `allowed` may use. -/
def mayRun (allowed : TaskPtr → Bool) (x : UInt64 × DsqEntry) : Bool := allowed x.2.task

/-- The queues of `s` hold exactly the waiting tasks `w`. -/
structure Serves (w : List (UInt64 × DsqEntry)) (s : Scx) : Prop where
  /-- Each created DSQ is the bucket of its number. -/
  dsq : ∀ d : Dsq, s.dsqs d.id = some ((bucket dsqNumber d.id.toNat w).map Prod.snd)
  /-- No other DSQ exists. -/
  noOther : ∀ id, (∀ d : Dsq, d.id ≠ id) → s.dsqs id = none
  /-- Every waiting task waits in one of the five. -/
  mem_dsq : ∀ x ∈ w, ∃ d : Dsq, x.1 = d.id
  /-- The waiting tasks are listed in order of insertion. -/
  sublist : w.Sublist s.inserted
  /-- The insertions are numbered. -/
  seq : s.inserted.map (fun x => x.2.seq) = List.range s.inserted.length
  /-- Every insertion still waits or was moved to a local queue, once. -/
  perm : (s.inserted.map Prod.snd).Perm (w.map Prod.snd ++ s.moved.map Prod.snd)
  /-- A local queue holds tasks moved to it, in order. -/
  localDsq : ∀ cpu, ((s.localDsq cpu).map fun e => (cpu, e)).Sublist s.moved

/-- DSQs are told apart by their numbers. -/
theorem dsq_id_toNat_injective {d d' : Dsq} (h : d.id.toNat = d'.id.toNat) : d = d' :=
  Dsq.id_injective (UInt64.toNat_inj.mp h)

/-- The five DSQ numbers, smallest first. -/
def dsqNumbers : List ℕ := Dsq.all.map fun d => d.id.toNat

/-- The DSQs are polled in the order of their numbers. -/
theorem dsqNumbers_sorted : dsqNumbers.Pairwise (· < ·) := by decide

namespace Serves

variable {w : List (UInt64 × DsqEntry)} {s : Scx}

/-- Every insertion that waits is in one of the five DSQs. -/
theorem dsqNumber_mem (h : Serves w s) {x : UInt64 × DsqEntry} (hx : x ∈ w) :
    dsqNumber x ∈ dsqNumbers := by
  obtain ⟨d, hd⟩ := h.mem_dsq x hx
  exact List.mem_map.mpr ⟨d, Dsq.mem_all d, by rw [dsqNumber, hd]⟩

/-- The insertions are told apart by their numbers. -/
theorem entries_nodup (h : Serves w s) : (s.inserted.map Prod.snd).Nodup := by
  refine List.Nodup.of_map DsqEntry.seq ?_
  rw [List.map_map]
  exact h.seq ▸ List.nodup_range

/-- The members of a DSQ are the waiting tasks with its number. -/
theorem mem_dsq_iff (h : Serves w s) {id : UInt64} {e : DsqEntry} :
    e ∈ (s.dsqs id).getD [] ↔ (id, e) ∈ w := by
  by_cases hid : ∃ d : Dsq, d.id = id
  · obtain ⟨d, rfl⟩ := hid
    rw [h.dsq d, Option.getD_some]
    constructor
    · intro he
      obtain ⟨x, hx, rfl⟩ := List.mem_map.mp he
      rw [mem_bucket] at hx
      obtain ⟨hxw, hxn⟩ := hx
      have hx1 : x.1 = d.id := UInt64.toNat_inj.mp hxn
      rw [← hx1]
      exact hxw
    · intro he
      exact List.mem_map.mpr ⟨(d.id, e), mem_bucket.mpr ⟨he, rfl⟩, rfl⟩
  · rw [h.noOther id fun d hd => hid ⟨d, hd⟩, Option.getD_none]
    constructor
    · intro he
      exact absurd he (by simp)
    · intro he
      obtain ⟨d, hd⟩ := h.mem_dsq _ he
      exact absurd ⟨d, hd.symm⟩ hid

/-- The list of waiting tasks can be read off the state. -/
theorem waiting_eq (h : Serves w s) : s.waiting = w := by
  have hfilter : s.waiting = s.inserted.filter fun x => x ∈ w := by
    refine List.filter_congr fun x _ => ?_
    rw [decide_eq_decide]
    exact h.mem_dsq_iff
  rw [hfilter]
  have hsub : w.Sublist (s.inserted.filter fun x => x ∈ w) := by
    have := h.sublist.filter fun x => decide (x ∈ w)
    rwa [List.filter_eq_self.mpr fun x hx => by simpa using hx] at this
  have hnd := (List.Nodup.of_map Prod.snd h.entries_nodup).filter fun x => decide (x ∈ w)
  -- a sublist of a list that has no more elements is that list
  refine (hsub.eq_of_length_le ?_).symm
  exact (hnd.subperm fun x hx => by simpa using (List.mem_filter.mp hx).2).length_le

end Serves

/-! ### Polling the queues in turn -/

namespace Scx

/-- The first entry allowed on the CPU, and its DSQ, when the DSQs `ids` are polled in
    turn. -/
def firstAllowed (allowed : TaskPtr → Bool) (ids : List UInt64) (s : Scx) :
    Option (UInt64 × DsqEntry) :=
  ids.findSome? fun id =>
    (((s.dsqs id).getD []).find? fun e => allowed e.task).map fun e => (id, e)

/-- The state after the first allowed entry `x` of its DSQ was moved to `cpu`. -/
def moveEntry (allowed : TaskPtr → Bool) (cpu : Int32) (x : UInt64 × DsqEntry) (s : Scx) : Scx :=
  { s with
    dsqs := Function.update s.dsqs x.1
      ((s.dsqs x.1).map fun q => q.eraseP fun e => allowed e.task)
    localDsq := Function.update s.localDsq cpu (s.localDsq cpu ++ [x.2])
    moved := s.moved ++ [(cpu, x.2)] }

/-- `scx_bpf_dsq_move_to_local` on one DSQ after another, until one has moved a task. -/
def pollDsqs (allowed : TaskPtr → Bool) (cpu : Int32) : List UInt64 → Scx → Scx
  | [], s        => s
  | id :: ids, s =>
    match s.scxBpfDsqMoveToLocal allowed cpu id with
    | (true, s')  => s'
    | (false, s') => pollDsqs allowed cpu ids s'

/-- What one `scx_bpf_dsq_move_to_local` does: a failed call changes nothing. -/
theorem scxBpfDsqMoveToLocal_eq (allowed : TaskPtr → Bool) (cpu : Int32) (id : UInt64) (s : Scx) :
    s.scxBpfDsqMoveToLocal allowed cpu id
      = match ((s.dsqs id).getD []).find? fun e => allowed e.task with
        | none   => (false, s)
        | some e => (true, s.moveEntry allowed cpu (id, e)) := by
  unfold scxBpfDsqMoveToLocal
  cases hq : s.dsqs id with
  | none => rfl
  | some q =>
    dsimp only [Option.getD_some]
    cases q.find? fun e => allowed e.task with
    | none => rfl
    | some e => simp [moveEntry, hq]

/-- The five calls move the first task that is allowed, if there is one, and stop there. -/
theorem pollDsqs_eq (allowed : TaskPtr → Bool) (cpu : Int32) (ids : List UInt64) (s : Scx) :
    pollDsqs allowed cpu ids s
      = match s.firstAllowed allowed ids with
        | none   => s
        | some x => s.moveEntry allowed cpu x := by
  induction ids with
  | nil => rfl
  | cons id ids ih =>
    rw [pollDsqs, scxBpfDsqMoveToLocal_eq]
    cases hf : ((s.dsqs id).getD []).find? fun e => allowed e.task with
    | none =>
      have hskip : s.firstAllowed allowed (id :: ids) = s.firstAllowed allowed ids := by
        simp [firstAllowed, hf]
      rw [hskip]
      exact ih
    | some e =>
      have hhead : s.firstAllowed allowed (id :: ids) = some (id, e) := by
        simp [firstAllowed, hf]
      rw [hhead]

end Scx

/-- `ai_sched_dispatch` polls the five DSQs in the order of their numbers. -/
theorem aiSchedDispatch_eq_pollDsqs (allowed : TaskPtr → Bool) (cpu : Int32) (s : SchedState) :
    aiSchedDispatch allowed cpu s
      = { s with scx := s.scx.pollDsqs allowed cpu (Dsq.all.map Dsq.id) } := by
  simp only [aiSchedDispatch, Scx.pollDsqs, Dsq.all, List.map_cons, List.map_nil]
  -- the calls are the same ones, each made if the one before found nothing
  repeat' split
  all_goals simp_all

/-! ### One hook at a time -/

section
variable {w : List (UInt64 × DsqEntry)} {s : Scx}

/-- The entry that polling finds is the one the stable priority order serves. -/
theorem Serves.firstAllowed_eq (h : Serves w s) (allowed : TaskPtr → Bool) :
    s.firstAllowed allowed (Dsq.all.map Dsq.id) = served dsqNumber (mayRun allowed) w := by
  rw [served_eq_findSome? dsqNumbers_sorted fun x hx => h.dsqNumber_mem hx, dsqNumbers,
    Scx.firstAllowed, List.findSome?_map, List.findSome?_map]
  refine congrArg (fun f => List.findSome? f Dsq.all) (funext fun d => ?_)
  -- the first allowed entry of one DSQ
  have hdsq : ((s.dsqs d.id).getD []).find? (fun e => allowed e.task)
      = ((bucket dsqNumber d.id.toNat w).find? (mayRun allowed)).map Prod.snd := by
    rw [h.dsq d, Option.getD_some, List.find?_map]
    rfl
  show (((s.dsqs d.id).getD []).find? fun e => allowed e.task).map (fun e => (d.id, e))
    = (bucket dsqNumber d.id.toNat w).find? (mayRun allowed)
  rw [hdsq]
  cases hf : (bucket dsqNumber d.id.toNat w).find? (mayRun allowed) with
  | none => rfl
  | some x =>
    have hx := List.mem_of_find?_eq_some hf
    have hx1 : x.1 = d.id := UInt64.toNat_inj.mp (mem_bucket.mp hx).2
    show some (d.id, x.2) = some x
    rw [← hx1]

/-- `scx_bpf_dsq_insert` into one of the five DSQs appends to the waiting tasks. -/
theorem Serves.insert (h : Serves w s) (d : Dsq) (ptr : TaskPtr) (slice enqFlags : UInt64) :
    Serves (w ++ [(d.id, s.nextEntry ptr slice enqFlags)])
      (s.scxBpfDsqInsert ptr d.id slice enqFlags) where
  dsq d' := by
    rw [bucket_concat]
    by_cases hd : d' = d
    · subst hd
      simp [Scx.scxBpfDsqInsert, h.dsq, dsqNumber]
    · have hne : ¬ d.id.toNat = d'.id.toNat := fun hn => hd (dsq_id_toNat_injective hn).symm
      simp [Scx.scxBpfDsqInsert, h.dsq, dsqNumber, hd, hne]
  noOther id hid := by
    have hne : id ≠ d.id := fun hn => hid d hn.symm
    simp [Scx.scxBpfDsqInsert, hne, h.noOther id hid]
  mem_dsq x hx := by
    rcases List.mem_append.mp hx with hx | hx
    · exact h.mem_dsq x hx
    · rw [List.mem_singleton.mp hx]
      exact ⟨d, rfl⟩
  sublist := h.sublist.append (List.Sublist.refl _)
  seq := by
    simp [Scx.scxBpfDsqInsert, h.seq, List.range_succ, Scx.nextEntry]
  perm := by
    have hp := h.perm.append_right [s.nextEntry ptr slice enqFlags]
    simp only [Scx.scxBpfDsqInsert, List.map_append, List.map_cons, List.map_nil]
    refine hp.trans ?_
    rw [List.append_assoc, List.append_assoc]
    exact List.perm_append_comm.append_left _
  localDsq := h.localDsq

/-- Moving the entry that the stable priority order serves leaves the unserved tasks. -/
theorem Serves.moveEntry (h : Serves w s) {allowed : TaskPtr → Bool} {x : UInt64 × DsqEntry}
    (hx : served dsqNumber (mayRun allowed) w = some x) (cpu : Int32) :
    Serves (unserved dsqNumber (mayRun allowed) w) (s.moveEntry allowed cpu x) := by
  have hperm := perm_unserved hx
  obtain ⟨d, hd⟩ := h.mem_dsq x (hperm.mem_iff.mpr (by simp))
  have hkey : dsqNumber x = d.id.toNat := by rw [dsqNumber, hd]
  have herase : ∀ q : List (UInt64 × DsqEntry),
      (q.map Prod.snd).eraseP (fun e => allowed e.task)
        = (q.eraseP (mayRun allowed)).map Prod.snd := fun q => List.eraseP_map
  refine
    { dsq := fun d' => ?_
      noOther := fun id hid => ?_
      mem_dsq := fun y hy => h.mem_dsq y (unserved_sublist.subset hy)
      sublist := unserved_sublist.trans h.sublist
      seq := h.seq
      perm := ?_
      localDsq := fun cpu' => ?_ }
  · rw [bucket_unserved hx]
    by_cases hdd : d' = d
    · subst hdd
      simp only [Scx.moveEntry, hd, Function.update_self, h.dsq, Option.map_some, hkey, if_true,
        herase]
    · have hne : ¬ d'.id.toNat = dsqNumber x := by
        rw [hkey]
        exact fun hn => hdd (dsq_id_toNat_injective hn)
      simp [Scx.moveEntry, hd, h.dsq, hdd, hne]
  · have hne : id ≠ x.1 := by
      rw [hd]
      exact fun hn => hid d hn.symm
    simp [Scx.moveEntry, hne, h.noOther id hid]
  · have hp := h.perm.trans ((hperm.map Prod.snd).append_right _)
    simp only [Scx.moveEntry, List.map_append, List.map_cons, List.map_nil]
    refine hp.trans ?_
    rw [List.map_cons, List.cons_append, ← List.append_assoc]
    exact List.perm_append_singleton _ _ |>.symm
  · by_cases hc : cpu' = cpu
    · subst hc
      simp only [Scx.moveEntry, Function.update_self, List.map_append, List.map_cons, List.map_nil]
      exact (h.localDsq cpu').append (List.Sublist.refl _)
    · simp only [Scx.moveEntry, Function.update_of_ne hc]
      exact (h.localDsq cpu').trans (List.sublist_append_left _ _)

end

/-! ### One event, and a whole run -/

/-- The insertion `ai_sched_enqueue` makes. -/
def enqueueInsertion (s : SchedState) (ptr : TaskPtr) (p : TaskStruct) (enqFlags : UInt64) :
    UInt64 × DsqEntry :=
  ((enqueueDsq s.maps p).id, s.scx.nextEntry ptr (enqueueChoice s.maps p).timeSliceNs enqFlags)

/-- The insertions an event makes. -/
def insertions (s : SchedState) : SchedEvent → List (UInt64 × DsqEntry)
  | .enqueue _ ptr p enqFlags => [enqueueInsertion s ptr p enqFlags]
  | _                         => []

/-- Insertions are only ever added. -/
theorem step_inserted (s : SchedState) (e : SchedEvent) :
    (s.step e).scx.inserted = s.scx.inserted ++ insertions s e := by
  cases e with
  | enqueue ctx ptr p enqFlags =>
    show (aiSchedEnqueue ctx ptr p enqFlags s).scx.inserted = _
    rw [aiSchedEnqueue_scx]
    rfl
  | dispatch cpu allowed =>
    show (aiSchedDispatch allowed cpu s).scx.inserted = _
    rw [aiSchedDispatch_eq_pollDsqs, Scx.pollDsqs_eq]
    split <;> simp [Scx.moveEntry, insertions]
  | _ => simp [SchedState.step, insertions]

/-- The waiting tasks after an event. -/
def waitingAfter (s : SchedState) (w : List (UInt64 × DsqEntry)) :
    SchedEvent → List (UInt64 × DsqEntry)
  | .dispatch _ allowed => unserved dsqNumber (mayRun allowed) w
  | e                   => w ++ insertions s e

section
variable {w : List (UInt64 × DsqEntry)} {s : SchedState}

/-- **Dispatch, abstractly.** The hook moves the task that comes first in stable priority
    order among those allowed on the CPU; without one it changes nothing. -/
theorem serves_dispatch (h : Serves w s.scx) (allowed : TaskPtr → Bool) (cpu : Int32) :
    (aiSchedDispatch allowed cpu s).scx
      = match served dsqNumber (mayRun allowed) w with
        | none   => s.scx
        | some x => s.scx.moveEntry allowed cpu x := by
  rw [aiSchedDispatch_eq_pollDsqs, Scx.pollDsqs_eq, h.firstAllowed_eq]

/-- Every event acts on the waiting tasks as `waitingAfter` says. -/
theorem serves_step (h : Serves w s.scx) (e : SchedEvent) :
    Serves (waitingAfter s w e) (s.step e).scx := by
  have hkeep : Serves (w ++ []) s.scx := by rwa [List.append_nil]
  cases e with
  | enqueue ctx ptr p enqFlags =>
    show Serves _ (aiSchedEnqueue ctx ptr p enqFlags s).scx
    rw [aiSchedEnqueue_scx]
    exact h.insert _ _ _ _
  | dispatch cpu allowed =>
    show Serves (unserved dsqNumber (mayRun allowed) w) (aiSchedDispatch allowed cpu s).scx
    rw [serves_dispatch h]
    cases hx : served dsqNumber (mayRun allowed) w with
    | none =>
      rw [unserved_of_none hx]
      exact h
    | some x => exact h.moveEntry hx cpu
  | runLocal cpu =>
    -- the local queue only gets shorter
    refine ⟨hkeep.dsq, h.noOther, hkeep.mem_dsq, hkeep.sublist, h.seq, hkeep.perm,
      fun cpu' => ?_⟩
    show ((Function.update s.scx.localDsq cpu (s.scx.localDsq cpu).tail cpu').map _).Sublist _
    by_cases hc : cpu' = cpu
    · subst hc
      rw [Function.update_self]
      exact ((List.tail_sublist _).map _).trans (h.localDsq cpu')
    · rw [Function.update_of_ne hc]
      exact h.localDsq cpu'
  | writeDecision pid decision => exact hkeep
  | deleteDecision pid => exact hkeep
  | writeEnergyMode mode => exact hkeep
  | writeTimeSlice key slice => exact hkeep
  | consumeTelemetry => exact hkeep

/-- No task waits when the scheduler has just been attached. -/
theorem serves_attached (m : SchedMaps) : Serves [] (SchedState.attached m).scx where
  dsq d := by cases d <;> rfl
  noOther id hid := by
    have h : ∀ d : Dsq, id ≠ d.id := fun d hd => hid d hd.symm
    simp only [SchedState.attached, aiSchedInit, Scx.scxBpfCreateDsq, if_true, Scx.empty,
      Function.update_of_ne (h _)]
  mem_dsq := by simp
  sublist := List.nil_sublist _
  seq := rfl
  perm := List.Perm.refl _
  localDsq _ := List.nil_sublist _

/-- **Simulation.** In every state reached, the DSQs serve the tasks that wait in them. -/
theorem serves_run (m : SchedMaps) (es : List SchedEvent) :
    Serves (run SchedState.step (SchedState.attached m) es).scx.waiting
      (run SchedState.step (SchedState.attached m) es).scx := by
  -- some list of waiting tasks goes along with the run; the state determines it
  have hex : ∃ w, Serves w (run SchedState.step (SchedState.attached m) es).scx := by
    induction es using List.reverseRecOn with
    | nil => exact ⟨[], serves_attached m⟩
    | append_singleton es e ih =>
      obtain ⟨w, hw⟩ := ih
      rw [run_concat]
      exact ⟨_, serves_step hw e⟩
  obtain ⟨w, hw⟩ := hex
  rw [hw.waiting_eq]
  exact hw

/-- What waits after an event, from what waited before it. -/
theorem waiting_step (h : Serves w s.scx) (e : SchedEvent) :
    (s.step e).scx.waiting = waitingAfter s w e :=
  (serves_step h e).waiting_eq

end

end AieOs
