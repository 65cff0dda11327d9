import AieOs.Lib.StablePriority
import AieOs.Minimal.SharedDsq

namespace AieOs

open Lib

/-!
# The virtual time scheduler

vtime.bpf.c orders the shared queue by virtual time: a task that stops is charged the part
of the slice it has used, scaled by the inverse of its weight.  Unlike the other schedulers it
has a hook at every step of a task's way: off any queue, in the shared queue, in the local
queue of a CPU, running, and off again.

`isSmaller` compares an unsigned difference with zero and is always false.  So `vtime_now`
never moves: a task that has slept keeps its whole budget, and a new one starts at virtual
time zero.

* `Vtime.Queued.run` — in every run the shared queue is ordered by virtual time;
* `Vtime.dispatch_takes_least` — so a CPU gets the task of the least virtual time that it may run;
* `Vtime.lag_bound` — while a task waits, every other one gets at most the weighted service by
  which it is behind, and one more charge;
* `Vtime.starved` — a task that has ever been charged waits as long as new tasks arrive.
-/

namespace Vtime

/-- Where the kernel has a task. -/
inductive Place where
  | off
  | shared
  | local (cpu : Int32)
  | running
  deriving DecidableEq, Repr

/-- The scheduler's variable, the tasks' `scx.dsq_vtime`, and the kernel's queues. -/
structure VtimeSched where
  vtimeNow : UInt64
  dsqVtime : TaskPtr → UInt64
  dsq : List TaskPtr
  place : TaskPtr → Place

/-- The calls of the hooks, and the kernel's own moves of a task. -/
inductive VtimeEvent where
  | enable (p : TaskPtr)
  /-- What `scx_bpf_select_cpu_dfl` finds: a CPU, and whether it is idle. -/
  | selectCpu (p : TaskPtr) (cpu : Int32) (isIdle : Bool)
  | enqueue (p : TaskPtr)
  /-- A CPU asks for work, with the tasks that it may run. -/
  | dispatch (cpu : Int32) (ok : TaskPtr → Bool)
  | running (p : TaskPtr)
  /-- `scx.slice` and `scx.weight` of the task that stops. -/
  | stopping (p : TaskPtr) (slice : UInt64) (weight : UInt32)
  /-- The kernel puts a task that lost its CPU to another scheduling class back in front. -/
  | putBack (p : TaskPtr) (cpu : Int32)
  /-- The kernel takes a task out of its queue, as for a change of its affinity or nice value;
      there is no hook for it. -/
  | dequeue (p : TaskPtr)

/-- `isSmaller`, on `u64`. -/
def isSmaller (a b : UInt64) : Bool := decide (a - b < 0)

/-- The queues when `sched_init` has run. -/
def VtimeSched.init : VtimeSched := ⟨0, fun _ => 0, [], fun _ => .off⟩

section
variable (sliceDfl : UInt64)

/-- `sched_select_cpu`: an idle CPU gets the task at once. -/
def schedSelectCpu (p : TaskPtr) (cpu : Int32) (isIdle : Bool) (s : VtimeSched) : VtimeSched :=
  if isIdle then { s with place := Function.update s.place p (.local cpu) } else s

/-- `sched_enqueue`; the insertion stores the virtual time in the task. -/
def schedEnqueue (p : TaskPtr) (s : VtimeSched) : VtimeSched :=
  let vtime := s.dsqVtime p
  let vtime := if isSmaller vtime (s.vtimeNow - sliceDfl) then s.vtimeNow - sliceDfl else vtime
  let dsqVtime := Function.update s.dsqVtime p vtime
  { s with
    dsqVtime
    dsq := scxBpfDsqInsertVtime dsqVtime p s.dsq
    place := Function.update s.place p .shared }

/-- `sched_dispatch`: move the first task that the CPU may run. -/
def schedDispatch (cpu : Int32) (ok : TaskPtr → Bool) (s : VtimeSched) : VtimeSched :=
  match s.dsq.find? ok with
  | none   => s
  | some p =>
    { s with dsq := s.dsq.eraseP ok, place := Function.update s.place p (.local cpu) }

/-- `sched_running`. -/
def schedRunning (p : TaskPtr) (s : VtimeSched) : VtimeSched :=
  { s with
    vtimeNow := if isSmaller s.vtimeNow (s.dsqVtime p) then s.dsqVtime p else s.vtimeNow
    place := Function.update s.place p .running }

/-- What `sched_stopping` charges. -/
def charge (slice : UInt64) (weight : UInt32) : UInt64 :=
  (sliceDfl - slice) * 100 / weight.toUInt64

/-- `sched_stopping`. -/
def schedStopping (p : TaskPtr) (slice : UInt64) (weight : UInt32) (s : VtimeSched) :
    VtimeSched :=
  { s with
    dsqVtime := Function.update s.dsqVtime p (s.dsqVtime p + charge sliceDfl slice weight)
    place := Function.update s.place p .off }

/-- `sched_enable`. -/
def schedEnable (p : TaskPtr) (s : VtimeSched) : VtimeSched :=
  { s with dsqVtime := Function.update s.dsqVtime p s.vtimeNow }

/-- The kernel's dequeue; where `p` is in a local queue, the shared one is as before. -/
def kernelDequeue (p : TaskPtr) (s : VtimeSched) : VtimeSched :=
  { s with dsq := s.dsq.erase p, place := Function.update s.place p .off }

/-- What a call does. -/
def step (s : VtimeSched) : VtimeEvent → VtimeSched
  | .enable p                => schedEnable p s
  | .selectCpu p cpu isIdle  => schedSelectCpu p cpu isIdle s
  | .enqueue p               => schedEnqueue sliceDfl p s
  | .dispatch cpu ok         => schedDispatch cpu ok s
  | .running p               => schedRunning p s
  | .stopping p slice weight => schedStopping sliceDfl p slice weight s
  | .putBack p cpu           => { s with place := Function.update s.place p (.local cpu) }
  | .dequeue p               => kernelDequeue p s

/-- The order in which the kernel makes the calls for one task; a task that runs has at most
    the slice it was granted. -/
def Promised (s : VtimeSched) : VtimeEvent → Prop
  | .enable p            => s.place p = .off
  | .selectCpu p _ _     => s.place p = .off
  | .enqueue p           => s.place p = .off
  | .dispatch _ _        => True
  | .running p           => ∃ cpu, s.place p = .local cpu
  | .stopping p slice _  => s.place p = .running ∧ slice ≤ sliceDfl
  | .putBack p _         => s.place p = .off
  | .dequeue p           => s.place p = .shared ∨ ∃ cpu, s.place p = .local cpu

/-- A task is enqueued at a virtual time less than `2 ^ 63` after `base`. -/
def InWindow (base : UInt64) (s : VtimeSched) : VtimeEvent → Prop
  | .enqueue p => vtimeAfter base (s.dsqVtime p) < 2 ^ 63
  | _          => True

end

/-- Whether an enqueue is in the window is seen at the virtual time. -/
instance InWindow.decidable (base : UInt64) (s : VtimeSched) : DecidablePred (InWindow base s)
  | .enqueue _ => Nat.decLt _ _
  | .enable _ | .selectCpu _ _ _ | .dispatch _ _ | .running _ | .stopping _ _ _
  | .putBack _ _ | .dequeue _ => .isTrue trivial

/-! ### `isSmaller` never holds -/

/-- The difference of two `u64` is not below zero. -/
@[simp] theorem isSmaller_eq_false (a b : UInt64) : isSmaller a b = false := by
  simp [isSmaller, UInt64.not_lt_zero]

variable {sliceDfl : UInt64}

/-- Enqueuing a task leaves its virtual time as it is, however long it has slept. -/
theorem schedEnqueue_eq (p : TaskPtr) (s : VtimeSched) :
    schedEnqueue sliceDfl p s
      = { s with
          dsq := scxBpfDsqInsertVtime s.dsqVtime p s.dsq
          place := Function.update s.place p .shared } := by
  simp [schedEnqueue]

/-- So `sched_running` leaves `vtime_now` alone. -/
theorem schedRunning_eq (p : TaskPtr) (s : VtimeSched) :
    schedRunning p s = { s with place := Function.update s.place p .running } := by
  simp [schedRunning]

/-- And so does every call. -/
@[simp] theorem step_vtimeNow (s : VtimeSched) (e : VtimeEvent) :
    (step sliceDfl s e).vtimeNow = s.vtimeNow := by
  cases e with
  | enable p => rfl
  | selectCpu p cpu isIdle => cases isIdle <;> rfl
  | enqueue p => rfl
  | dispatch cpu ok =>
    rw [step, schedDispatch]
    split <;> rfl
  | running p => rw [step, schedRunning_eq]
  | stopping p slice weight => rfl
  | putBack p cpu => rfl
  | dequeue p => rfl

/-- `vtime_now` never moves. -/
theorem run_vtimeNow (s : VtimeSched) (es : List VtimeEvent) :
    (run (step sliceDfl) s es).vtimeNow = s.vtimeNow :=
  run_induction (C := fun _ _ => True) (I := fun s' => s'.vtimeNow = s.vtimeNow) rfl
    (fun s' e h _ => (step_vtimeNow s' e).trans h) (throughout_of_forall fun _ _ => trivial)

/-! ### The shared queue of every run -/

variable {base : UInt64} {s : VtimeSched}

/-- The queue holds the tasks that wait, each once, ordered by virtual time. -/
structure Queued (base : UInt64) (s : VtimeSched) : Prop where
  mem_iff : ∀ p, p ∈ s.dsq ↔ s.place p = .shared
  nodup : s.dsq.Nodup
  sorted : s.dsq.Pairwise fun a b =>
    vtimeAfter base (s.dsqVtime a) ≤ vtimeAfter base (s.dsqVtime b)
  window : ∀ p ∈ s.dsq, vtimeAfter base (s.dsqVtime p) < 2 ^ 63

/-- At the start nobody waits. -/
theorem Queued.init (base : UInt64) : Queued base .init :=
  ⟨by simp [VtimeSched.init], List.nodup_nil, List.Pairwise.nil, by simp [VtimeSched.init]⟩

/-- A call that leaves the queue and the virtual times of its tasks alone. -/
theorem Queued.congr (h : Queued base s) {s' : VtimeSched} (hdsq : s'.dsq = s.dsq)
    (hv : ∀ p ∈ s.dsq, s'.dsqVtime p = s.dsqVtime p)
    (hplace : ∀ p, s'.place p = .shared ↔ s.place p = .shared) : Queued base s' where
  mem_iff p := by rw [hdsq, hplace, h.mem_iff]
  nodup := hdsq ▸ h.nodup
  -- the tasks in the queue have the same virtual times as before
  sorted := by
    rw [hdsq]
    exact h.sorted.imp_of_mem fun {a b} ha hb hab => by rwa [hv a ha, hv b hb]
  window p hp := by
    rw [hdsq] at hp
    rw [hv p hp]
    exact h.window p hp

/-- Moving a task between two places outside the shared queue. -/
theorem update_shared_iff {place : TaskPtr → Place} {p : TaskPtr} {l : Place}
    (hp : place p ≠ .shared) (hl : l ≠ .shared) (q : TaskPtr) :
    Function.update place p l q = .shared ↔ place q = .shared := by
  by_cases hq : q = p
  · subst hq
    simp [hp, hl]
  · rw [Function.update_of_ne hq]

/-- A task goes where its virtual time belongs. -/
theorem Queued.enqueue (h : Queued base s) {p : TaskPtr} (hp : s.place p = .off)
    (hw : vtimeAfter base (s.dsqVtime p) < 2 ^ 63) :
    Queued base (schedEnqueue sliceDfl p s) := by
  -- a task that is off the queues is not in this one
  have hmem : p ∉ s.dsq := by
    rw [h.mem_iff, hp]
    exact nofun
  rw [schedEnqueue_eq, scxBpfDsqInsertVtime_eq hw h.window]
  refine ⟨fun q => ?_, ?_, sorted_orderedInsert h.sorted p, fun q hq => ?_⟩
  · by_cases hq : q = p
    · simp [List.mem_orderedInsert, hq]
    · simp [List.mem_orderedInsert, hq, h.mem_iff]
  · exact (List.perm_orderedInsert _ p s.dsq).nodup_iff.mpr (List.nodup_cons.mpr ⟨hmem, h.nodup⟩)
  · rcases (List.mem_orderedInsert _).mp hq with rfl | hq
    · exact hw
    · exact h.window q hq

/-- A task that is taken leaves the others in order. -/
theorem Queued.dispatch (h : Queued base s) (cpu : Int32) (ok : TaskPtr → Bool) :
    Queued base (schedDispatch cpu ok s) := by
  rw [schedDispatch]
  split
  · exact h
  · next p hfind =>
    obtain ⟨hok, as, bs, hsplit, has⟩ := List.find?_eq_some_iff_append.mp hfind
    have herase : s.dsq.eraseP ok = as ++ bs := by
      rw [hsplit, List.eraseP_append_right _ (fun a ha => by simpa using has a ha),
        List.eraseP_cons_of_pos hok]
    have hsub : (as ++ bs).Sublist s.dsq := herase ▸ List.eraseP_sublist
    have hnodup := h.nodup
    rw [hsplit, List.nodup_middle, List.nodup_cons] at hnodup
    refine ⟨fun q => ?_, ?_, ?_, fun q hq => ?_⟩
    · simp only [herase]
      by_cases hq : q = p
      · subst hq
        simp only [Function.update_self, reduceCtorEq, iff_false]
        exact hnodup.1
      · rw [Function.update_of_ne hq, ← h.mem_iff, hsplit]
        simp [hq]
    · simp only [herase]
      exact hnodup.2
    · simp only [herase]
      exact h.sorted.sublist hsub
    · simp only [herase] at hq
      exact h.window q (hsub.subset hq)

/-- So does one that the kernel takes back. -/
theorem Queued.dequeue (h : Queued base s) (p : TaskPtr) : Queued base (kernelDequeue p s) where
  mem_iff q := by
    rw [kernelDequeue, h.nodup.mem_erase_iff]
    by_cases hq : q = p
    · simp [hq]
    · simp [hq, h.mem_iff]
  nodup := h.nodup.erase p
  sorted := h.sorted.sublist List.erase_sublist
  window q hq := h.window q (List.mem_of_mem_erase hq)

/-- A task that is off the queues gets another virtual time. -/
theorem Queued.enable (h : Queued base s) {p : TaskPtr} (hp : s.place p = .off) :
    Queued base (schedEnable p s) := by
  refine h.congr rfl (fun q hq => ?_) fun _ => Iff.rfl
  have hqp : q ≠ p := by
    rintro rfl
    rw [h.mem_iff, hp] at hq
    exact absurd hq nofun
  exact Function.update_of_ne hqp _ _

/-- Every call keeps the queue. -/
theorem Queued.step (h : Queued base s) {e : VtimeEvent} (he : Promised sliceDfl s e)
    (hw : InWindow base s e) : Queued base (step sliceDfl s e) := by
  cases e with
  | enable p => exact h.enable he
  | selectCpu p cpu isIdle =>
    cases isIdle with
    | false => exact h
    | true =>
      refine h.congr rfl (fun _ _ => rfl) (update_shared_iff ?_ nofun)
      rw [show s.place p = .off from he]
      exact nofun
  | enqueue p => exact h.enqueue he hw
  | dispatch cpu ok => exact h.dispatch cpu ok
  | running p =>
    obtain ⟨cpu, hcpu⟩ := he
    rw [Vtime.step, schedRunning_eq]
    refine h.congr rfl (fun _ _ => rfl) (update_shared_iff ?_ nofun)
    rw [hcpu]
    exact nofun
  | stopping p slice weight =>
    refine h.congr rfl (fun q hq => ?_) (update_shared_iff ?_ nofun)
    · have hqp : q ≠ p := by
        rintro rfl
        rw [h.mem_iff, he.1] at hq
        exact absurd hq nofun
      exact Function.update_of_ne hqp _ _
    · rw [he.1]
      exact nofun
  | putBack p cpu =>
    refine h.congr rfl (fun _ _ => rfl) (update_shared_iff ?_ nofun)
    rw [show s.place p = .off from he]
    exact nofun
  | dequeue p => exact h.dequeue p

/-- **Order of virtual time.** In every run that stays in the window, the shared queue is ordered
    by virtual time. -/
theorem Queued.run {es : List VtimeEvent} (h : Queued base s)
    (hes : Throughout (Vtime.step sliceDfl)
      (fun s e => Promised sliceDfl s e ∧ InWindow base s e) s es) :
    Queued base (run (Vtime.step sliceDfl) s es) :=
  run_induction h (fun _ _ h he => h.step he.1 he.2) hes

/-- The task that a CPU takes has the smallest virtual time of those that it may run. -/
theorem Queued.least (h : Queued base s) {ok : TaskPtr → Bool} {p q : TaskPtr}
    (hp : s.dsq.find? ok = some p) (hq : q ∈ s.dsq) (hok : ok q = true) :
    vtimeAfter base (s.dsqVtime p) ≤ vtimeAfter base (s.dsqVtime q) := by
  obtain ⟨-, as, bs, hsplit, has⟩ := List.find?_eq_some_iff_append.mp hp
  have hsorted := h.sorted
  rw [hsplit, List.pairwise_append, List.pairwise_cons] at hsorted
  rw [hsplit, List.mem_append, List.mem_cons] at hq
  rcases hq with hq | rfl | hq
  · exact absurd hok (by simpa using has q hq)
  · exact le_rfl
  · exact hsorted.2.1.1 q hq

/-- **Least virtual time first.** In every state of a run that stays in the window, a CPU that asks
    for work gets the waiting task of the least virtual time among those that it may run, and
    goes without only if there is none. -/
theorem dispatch_takes_least {es : List VtimeEvent}
    (hes : Throughout (Vtime.step sliceDfl)
      (fun s e => Promised sliceDfl s e ∧ InWindow base s e) .init es)
    (cpu : Int32) (ok : TaskPtr → Bool) :
    let s := run (Vtime.step sliceDfl) .init es
    (∃ p, s.place p = .shared ∧ ok p = true ∧
      (Vtime.step sliceDfl s (.dispatch cpu ok)).place = Function.update s.place p (.local cpu) ∧
      ∀ q, s.place q = .shared → ok q = true →
        vtimeAfter base (s.dsqVtime p) ≤ vtimeAfter base (s.dsqVtime q)) ∨
    (∀ q, s.place q = .shared → ok q = false) ∧
      Vtime.step sliceDfl s (.dispatch cpu ok) = s := by
  intro s
  have hqueued : Queued base s := (Queued.init base).run hes
  cases hfind : s.dsq.find? ok with
  | some p =>
    refine .inl ⟨p, (hqueued.mem_iff p).mp (List.mem_of_find?_eq_some hfind),
      List.find?_some hfind, by simp [Vtime.step, schedDispatch, hfind], ?_⟩
    intro q hq hok
    exact hqueued.least hfind ((hqueued.mem_iff q).mpr hq) hok
  | none =>
    refine .inr ⟨fun q hq => ?_, by simp [Vtime.step, schedDispatch, hfind]⟩
    have hnone := List.find?_eq_none.mp hfind q ((hqueued.mem_iff q).mpr hq)
    simpa using hnone

/-- Task 1 has run for a whole slice and waits again, in front of it the new task 2. -/
theorem dispatch_takes_least_of_charged :
    let s := run (Vtime.step 20000000) .init [.enable 1, .enqueue 1, .dispatch 0 fun _ => true,
      .running 1, .stopping 1 0 100, .enqueue 1, .enable 2, .enqueue 2]
    (∃ p, s.place p = .shared ∧ true = true ∧
      (Vtime.step 20000000 s (.dispatch 0 fun _ => true)).place
        = Function.update s.place p (.local 0) ∧
      ∀ q, s.place q = .shared → true = true →
        vtimeAfter 0 (s.dsqVtime p) ≤ vtimeAfter 0 (s.dsqVtime q)) ∨
    (∀ q, s.place q = .shared → true = false) ∧
      Vtime.step 20000000 s (.dispatch 0 fun _ => true) = s :=
  @dispatch_takes_least 20000000 0 [.enable 1, .enqueue 1, .dispatch 0 fun _ => true,
      .running 1, .stopping 1 0 100, .enqueue 1, .enable 2, .enqueue 2]
    ⟨⟨rfl, trivial⟩, ⟨rfl, by decide⟩, ⟨trivial, trivial⟩, ⟨⟨0, rfl⟩, trivial⟩,
      ⟨⟨rfl, by decide⟩, trivial⟩, ⟨rfl, by decide⟩, ⟨rfl, trivial⟩, ⟨rfl, by decide⟩, trivial⟩
    0 fun _ => true

/-! ### How far a waiting task falls behind -/

/-- The call gives `x` a CPU other than through the shared queue. -/
def bypass (x : TaskPtr) : VtimeEvent → Bool
  | .selectCpu p _ isIdle => isIdle && p == x
  | .putBack p _          => p == x
  | _                     => false

/-- While `y` waits: it stays in the shared queue though any CPU that asks for work may run it,
    and `x` is not enabled anew and weighs at least `w` when it stops. -/
def Outwaits (sliceDfl : UInt64) (x y : TaskPtr) (w : ℕ) (s : VtimeSched) (e : VtimeEvent) :
    Prop :=
  y ∈ (step sliceDfl s e).dsq ∧
    match e with
    | .dispatch _ ok       => ok y = true
    | .enable p            => p ≠ x
    | .stopping p _ weight => p = x → w ≤ weight.toNat
    | _                    => True

/-- A charge is at most that of a whole slice at the least weight. -/
theorem toNat_charge_le {slice : UInt64} {weight : UInt32} {w : ℕ}
    (hslice : slice ≤ sliceDfl) (hw : 0 < w) (hweight : w ≤ weight.toNat) :
    (charge sliceDfl slice weight).toNat ≤ sliceDfl.toNat * 100 / w := by
  have hsub : (sliceDfl - slice).toNat ≤ sliceDfl.toNat := by
    rw [UInt64.toNat_sub_of_le _ _ hslice]
    exact Nat.sub_le _ _
  have hmul : ((sliceDfl - slice) * 100).toNat ≤ sliceDfl.toNat * 100 := by
    rw [UInt64.toNat_mul]
    exact (Nat.mod_le _ _).trans (Nat.mul_le_mul_right _ hsub)
  rw [charge, UInt64.toNat_div, UInt32.toNat_toUInt64]
  exact Nat.div_le_div hmul hweight hw.ne'

/-- Nothing that the kernel does to a waiting task moves its virtual time. -/
theorem Queued.step_dsqVtime (h : Queued base s) {e : VtimeEvent} (he : Promised sliceDfl s e)
    {y : TaskPtr} (hy : y ∈ s.dsq) : (Vtime.step sliceDfl s e).dsqVtime y = s.dsqVtime y := by
  have hplace := (h.mem_iff y).mp hy
  cases e with
  | enable p =>
    refine Function.update_of_ne ?_ _ _
    rintro rfl
    exact absurd (hplace.symm.trans he) nofun
  | selectCpu p cpu isIdle => cases isIdle <;> rfl
  | enqueue p => rw [Vtime.step, schedEnqueue_eq]
  | dispatch cpu ok =>
    rw [Vtime.step, schedDispatch]
    split <;> rfl
  | running p => rw [Vtime.step, schedRunning_eq]
  | stopping p slice weight =>
    refine Function.update_of_ne ?_ _ _
    rintro rfl
    exact absurd (hplace.symm.trans he.1) nofun
  | putBack p cpu => rfl
  | dequeue p => rfl

/-- Whether `x` is off the CPUs, so that it may have been charged since it was last given one. -/
def settled (x : TaskPtr) (s : VtimeSched) : ℕ :=
  if s.place x = .off ∨ s.place x = .shared then 1 else 0

/-- It counts for one charge at most. -/
theorem settled_le_one (x : TaskPtr) (s : VtimeSched) : settled x s ≤ 1 := by
  rw [settled]
  split <;> omega

/-- `x` is at most `b` charges of a whole slice at weight `w` beyond `m`, and one more once it
    has stopped. -/
def Lags (sliceDfl base : UInt64) (w m b : ℕ) (x : TaskPtr) (s : VtimeSched) : Prop :=
  vtimeAfter base (s.dsqVtime x) ≤ m + (b + settled x s) * (sliceDfl.toNat * 100 / w)

section
variable {s' : VtimeSched} {x y : TaskPtr} {w m b k : ℕ}

/-- A call that does not charge `x`. -/
theorem Lags.move (h : Lags sliceDfl base w m b x s) (hv : s'.dsqVtime x = s.dsqVtime x)
    (hsettled : settled x s ≤ k + settled x s') : Lags sliceDfl base w m (b + k) x s' := by
  rw [Lags, hv]
  exact h.trans (Nat.add_le_add_left (Nat.mul_le_mul_right _ (by omega)) _)

/-- A call that leaves `x` where it is. -/
theorem Lags.stay (h : Lags sliceDfl base w m b x s) (hv : s'.dsqVtime x = s.dsqVtime x)
    (hplace : s'.place x = s.place x) : Lags sliceDfl base w m (b + k) x s' := by
  refine h.move hv ?_
  rw [settled, settled, hplace]
  exact Nat.le_add_left _ _

/-- A call that takes `x` off the CPUs, where it has settled. -/
theorem Lags.settle (h : Lags sliceDfl base w m b x s) (hv : s'.dsqVtime x = s.dsqVtime x)
    (hplace : s'.place x = .off ∨ s'.place x = .shared) :
    Lags sliceDfl base w m (b + k) x s' := by
  refine h.move hv ?_
  rw [settled, settled, if_pos hplace]
  split <;> omega

/-- A call that gives `x` a CPU around the queue counts for one. -/
theorem Lags.bypass (h : Lags sliceDfl base w m b x s) (hv : s'.dsqVtime x = s.dsqVtime x) :
    Lags sliceDfl base w m (b + 1) x s' :=
  h.move hv ((settled_le_one x s).trans (Nat.le_add_right _ _))

/-- A dispatch to a CPU that may run `y`: if `x` is taken, it is not behind `y`. -/
theorem Lags.dispatch (h : Lags sliceDfl base w m b x s) (hq : Queued base s) (hy : y ∈ s.dsq)
    (hym : vtimeAfter base (s.dsqVtime y) ≤ m) {cpu : Int32} {ok : TaskPtr → Bool}
    (hok : ok y = true) : Lags sliceDfl base w m (b + k) x (schedDispatch cpu ok s) := by
  rw [schedDispatch]
  split
  · exact h.stay rfl rfl
  · next p hfind =>
    -- the task taken is no later than `y`, which may run there as well
    by_cases hxp : x = p
    · subst hxp
      exact ((hq.least hfind hy hok).trans hym).trans (Nat.le_add_right _ _)
    · exact h.stay rfl (Function.update_of_ne hxp _ _)

/-- `x` stops, and is charged. -/
theorem Lags.stopping (h : Lags sliceDfl base w m b x s) (hrunning : s.place x = .running)
    {slice : UInt64} {weight : UInt32} (hslice : slice ≤ sliceDfl) (hw : 0 < w)
    (hweight : w ≤ weight.toNat) (hroom : m + (b + 1) * (sliceDfl.toNat * 100 / w) < 2 ^ 64) :
    Lags sliceDfl base w m b x (schedStopping sliceDfl x slice weight s) := by
  have hcharge := toNat_charge_le hslice hw hweight
  have hbefore : vtimeAfter base (s.dsqVtime x) ≤ m + b * (sliceDfl.toNat * 100 / w) := by
    simpa [Lags, settled, hrunning] using h
  rw [Nat.add_mul, Nat.one_mul] at hroom
  -- the sum does not wrap around
  have hadd : vtimeAfter base (s.dsqVtime x + charge sliceDfl slice weight)
      = vtimeAfter base (s.dsqVtime x) + (charge sliceDfl slice weight).toNat :=
    distance_add (by
      change vtimeAfter base (s.dsqVtime x) + (charge sliceDfl slice weight).toNat < 2 ^ 64
      omega)
  have hafter : settled x (schedStopping sliceDfl x slice weight s) = 1 := by
    simp [schedStopping, settled]
  have hv : (schedStopping sliceDfl x slice weight s).dsqVtime x
      = s.dsqVtime x + charge sliceDfl slice weight := Function.update_self _ _ _
  rw [Lags, hafter, hv, hadd, Nat.add_mul, Nat.one_mul]
  omega

/-- **One call.** Let `x` be at most `b` charges beyond `m`, and one more once it has stopped.
    This stays so, where a way around the queue counts as a charge. -/
theorem Lags.step (h : Lags sliceDfl base w m b x s) (hq : Queued base s) {e : VtimeEvent}
    (he : Promised sliceDfl s e) (hwait : Outwaits sliceDfl x y w s e) (hy : y ∈ s.dsq)
    (hw : 0 < w) (hym : vtimeAfter base (s.dsqVtime y) ≤ m)
    (hroom : m + (b + 1) * (sliceDfl.toNat * 100 / w) < 2 ^ 64) :
    Lags sliceDfl base w m (b + if Vtime.bypass x e then 1 else 0) x
      (Vtime.step sliceDfl s e) := by
  cases e with
  | enable p => exact h.stay (Function.update_of_ne (Ne.symm hwait.2) _ _) rfl
  | selectCpu p cpu isIdle =>
    cases isIdle with
    | false => exact h.stay rfl rfl
    | true =>
      by_cases hxp : x = p
      · rw [if_pos (by simp [Vtime.bypass, hxp])]
        exact h.bypass rfl
      · exact h.stay rfl (Function.update_of_ne hxp _ _)
  | enqueue p =>
    rw [Vtime.step, schedEnqueue_eq]
    by_cases hxp : x = p
    · exact h.settle rfl (.inr (by rw [hxp]; exact Function.update_self _ _ _))
    · exact h.stay rfl (Function.update_of_ne hxp _ _)
  | dispatch cpu ok => exact h.dispatch hq hy hym hwait.2
  | running p =>
    rw [Vtime.step, schedRunning_eq]
    by_cases hxp : x = p
    · obtain ⟨cpu, hcpu⟩ := he
      -- a task in a local queue has not settled, nor has one that runs
      refine h.move rfl ?_
      simp [settled, hxp, hcpu]
    · exact h.stay rfl (Function.update_of_ne hxp _ _)
  | stopping p slice weight =>
    by_cases hxp : x = p
    · subst hxp
      exact h.stopping he.1 he.2 hw (hwait.2 rfl) hroom
    · exact h.stay (Function.update_of_ne hxp _ _) (Function.update_of_ne hxp _ _)
  | putBack p cpu =>
    by_cases hxp : x = p
    · rw [if_pos (by simp [Vtime.bypass, hxp])]
      exact h.bypass rfl
    · exact h.stay rfl (Function.update_of_ne hxp _ _)
  | dequeue p =>
    by_cases hxp : x = p
    · exact h.settle rfl (.inl (by rw [hxp]; exact Function.update_self _ _ _))
    · exact h.stay rfl (Function.update_of_ne hxp _ _)

end

/-- **Bounded lag.** While `y` waits, any other task `x` is charged at most up to the virtual
    time of `y`, and for one slice more; and for another one each time it gets a CPU around
    the queue. -/
theorem lag_bound (h : Queued base s) {x y : TaskPtr} {w : ℕ} {es : List VtimeEvent}
    (hw : 0 < w) (hy : y ∈ s.dsq)
    (hes : Throughout (step sliceDfl)
      (fun s e => (Promised sliceDfl s e ∧ InWindow base s e) ∧ Outwaits sliceDfl x y w s e) s es)
    (hroom : max (vtimeAfter base (s.dsqVtime x)) (vtimeAfter base (s.dsqVtime y))
        + (es.countP (bypass x) + 1) * (sliceDfl.toNat * 100 / w) < 2 ^ 64) :
    vtimeAfter base ((run (step sliceDfl) s es).dsqVtime x)
      ≤ max (vtimeAfter base (s.dsqVtime x)) (vtimeAfter base (s.dsqVtime y))
        + (es.countP (bypass x) + 1) * (sliceDfl.toNat * 100 / w) := by
  generalize hm : max (vtimeAfter base (s.dsqVtime x)) (vtimeAfter base (s.dsqVtime y)) = m
    at hroom ⊢
  -- the induction keeps the exact bound of `Lags`, and where `y` is
  have hinv : Queued base (run (step sliceDfl) s es) ∧ y ∈ (run (step sliceDfl) s es).dsq ∧
      (run (step sliceDfl) s es).dsqVtime y = s.dsqVtime y ∧
      Lags sliceDfl base w m (es.countP (bypass x)) x (run (step sliceDfl) s es) := by
    induction es using List.reverseRecOn with
    | nil => exact ⟨h, hy, rfl, (hm ▸ le_max_left _ _).trans (Nat.le_add_right _ _)⟩
    | append_singleton es e ih =>
      rw [throughout_concat] at hes
      rw [List.countP_append, List.countP_singleton] at hroom ⊢
      have hless : (es.countP (bypass x) + 1) * (sliceDfl.toNat * 100 / w)
          ≤ (es.countP (bypass x) + (if bypass x e then 1 else 0) + 1)
            * (sliceDfl.toNat * 100 / w) := Nat.mul_le_mul_right _ (by omega)
      obtain ⟨hq, hyq, hyv, hx⟩ := ih hes.1 (by omega)
      obtain ⟨⟨he, hwin⟩, hwait⟩ := hes.2
      rw [run_concat]
      refine ⟨hq.step he hwin, hwait.1, (hq.step_dsqVtime he hyq).trans hyv, ?_⟩
      exact hx.step hq he hwait hyq hw (by rw [hyv, ← hm]; exact le_max_right _ _) (by omega)
  have hle := settled_le_one x (run (step sliceDfl) s es)
  exact hinv.2.2.2.trans (Nat.add_le_add_left (Nat.mul_le_mul_right _ (by omega)) _)

/-- Two new tasks wait. -/
def twoWaiting : VtimeSched :=
  run (step 20000000) .init [.enable 1, .enqueue 1, .enable 2, .enqueue 2]

/-- They are in the order of their virtual times. -/
theorem queued_twoWaiting : Queued 0 twoWaiting :=
  @Queued.run 20000000 0 .init _ (Queued.init 0)
    ⟨⟨rfl, trivial⟩, ⟨rfl, by decide⟩, ⟨rfl, trivial⟩, ⟨rfl, by decide⟩, trivial⟩

/-- The first one runs for a whole slice and waits again, the second has not left. -/
theorem lag_bound_twoWaiting :
    vtimeAfter 0 ((run (step 20000000) twoWaiting
        [.dispatch 0 fun _ => true, .running 1, .stopping 1 0 100, .enqueue 1]).dsqVtime 1)
      ≤ max (vtimeAfter 0 (twoWaiting.dsqVtime 1)) (vtimeAfter 0 (twoWaiting.dsqVtime 2))
        + (0 + 1) * ((20000000 : UInt64).toNat * 100 / 100) :=
  lag_bound queued_twoWaiting (by decide) (by decide)
    ⟨⟨⟨trivial, trivial⟩, by decide, rfl⟩, ⟨⟨⟨0, rfl⟩, trivial⟩, by decide, trivial⟩,
      ⟨⟨⟨rfl, by decide⟩, trivial⟩, by decide, fun _ => by decide⟩,
      ⟨⟨rfl, by decide⟩, by decide, trivial⟩, trivial⟩
    (by decide)

/-! ### New tasks -/

/-- Tasks arrive one after the other, each with a CPU that asks for work. -/
def newcomers (cpu : Int32) (ok : TaskPtr → Bool) (ps : List TaskPtr) : List VtimeEvent :=
  ps.flatMap fun p => [.enable p, .enqueue p, .dispatch cpu ok]

/-- `x` waits and has been charged; `vtime_now` is where it was at the start. -/
structure Charged (x : TaskPtr) (s : VtimeSched) : Prop where
  queued : Queued 0 s
  vtimeNow_eq : s.vtimeNow = 0
  mem : x ∈ s.dsq
  pos : 0 < (s.dsqVtime x).toNat

section
variable {x p : TaskPtr}

/-- A task that is off the queues is another one. -/
theorem Charged.ne (h : Charged x s) (hp : s.place p = .off) : x ≠ p := by
  rintro rfl
  exact absurd (((h.queued.mem_iff x).mp h.mem).symm.trans hp) nofun

/-- A new task is enabled. -/
theorem Charged.enable (h : Charged x s) (hp : s.place p = .off) :
    Charged x (schedEnable p s) where
  queued := h.queued.enable hp
  vtimeNow_eq := h.vtimeNow_eq
  mem := h.mem
  pos := by
    change 0 < (Function.update s.dsqVtime p s.vtimeNow x).toNat
    rw [Function.update_of_ne (h.ne hp)]
    exact h.pos

/-- It starts at virtual time zero. -/
theorem Charged.enable_dsqVtime (h : Charged x s) (p : TaskPtr) :
    (schedEnable p s).dsqVtime p = 0 := by
  change Function.update s.dsqVtime p s.vtimeNow p = 0
  rw [Function.update_self, h.vtimeNow_eq]

/-- And it is enqueued. -/
theorem Charged.enqueue (h : Charged x s) (hp : s.place p = .off) (hv : s.dsqVtime p = 0) :
    Charged x (schedEnqueue sliceDfl p s) where
  queued := h.queued.enqueue hp (by
    rw [hv, vtimeAfter_zero]
    decide)
  vtimeNow_eq := h.vtimeNow_eq
  mem := by
    rw [schedEnqueue_eq]
    exact mem_scxBpfDsqInsertVtime.mpr (.inr h.mem)
  pos := by
    rw [schedEnqueue_eq]
    exact h.pos

/-- A CPU that may run a task of virtual time zero takes some task, but not `x`. -/
theorem Charged.dispatch (h : Charged x s) (hp : p ∈ s.dsq) (hv : s.dsqVtime p = 0)
    {ok : TaskPtr → Bool} (hok : ok p = true) (cpu : Int32) :
    ∃ q, s.place q = .shared ∧ Charged x (schedDispatch cpu ok s) ∧
      (schedDispatch cpu ok s).place = Function.update s.place q (.local cpu) ∧
      (schedDispatch cpu ok s).dsq.length + 1 = s.dsq.length := by
  obtain ⟨q, hq⟩ : ∃ q, s.dsq.find? ok = some q :=
    Option.isSome_iff_exists.mp (List.find?_isSome.mpr ⟨p, hp, hok⟩)
  have hmem := List.mem_of_find?_eq_some hq
  -- whoever is taken is no later than `p`
  have hxq : x ≠ q := by
    rintro rfl
    have hle := h.queued.least hq hp hok
    rw [hv, vtimeAfter_zero, vtimeAfter_zero] at hle
    exact absurd h.pos (Nat.not_lt_of_le hle)
  have hqueued := h.queued.dispatch cpu ok
  have hstep : schedDispatch cpu ok s = { s with
      dsq := s.dsq.eraseP ok, place := Function.update s.place q (.local cpu) } := by
    rw [schedDispatch, hq]
  refine ⟨q, (h.queued.mem_iff q).mp hmem, ⟨hqueued, ?_, ?_, ?_⟩, ?_, ?_⟩
  · rw [hstep]
    exact h.vtimeNow_eq
  · rw [hqueued.mem_iff, hstep]
    exact (Function.update_of_ne hxq _ _).trans ((h.queued.mem_iff x).mp h.mem)
  · rw [hstep]
    exact h.pos
  · rw [hstep]
  · rw [hstep]
    exact (congrArg (· + 1) (List.length_eraseP_of_mem hmem (List.find?_some hq))).trans
      (Nat.sub_add_cancel (List.length_pos_of_mem hmem))

/-- One new task and one dispatch: a task that has been charged is passed over. -/
theorem Charged.newcomer (h : Charged x s) {cpu : Int32} {ok : TaskPtr → Bool}
    (hp : s.place p = .off) (hok : ok p = true) :
    Throughout (step sliceDfl) (Promised sliceDfl) s [.enable p, .enqueue p, .dispatch cpu ok] ∧
      Charged x (run (step sliceDfl) s [.enable p, .enqueue p, .dispatch cpu ok]) ∧
      (run (step sliceDfl) s [.enable p, .enqueue p, .dispatch cpu ok]).dsq.length
        = s.dsq.length ∧
      ∀ q, s.place q = .off → q ≠ p →
        (run (step sliceDfl) s [.enable p, .enqueue p, .dispatch cpu ok]).place q = .off := by
  have henqueue : schedEnqueue sliceDfl p (schedEnable p s) = _ := schedEnqueue_eq p _
  have hwaits : Charged x (schedEnqueue sliceDfl p (schedEnable p s)) :=
    (h.enable hp).enqueue hp (h.enable_dsqVtime p)
  obtain ⟨q, hq, hcharged, hplace, hlen⟩ :
      ∃ q, (schedEnqueue sliceDfl p (schedEnable p s)).place q = .shared ∧
        Charged x (schedDispatch cpu ok _) ∧ (schedDispatch cpu ok _).place = _ ∧ _ = _ :=
    hwaits.dispatch (p := p) (by rw [henqueue]; exact mem_scxBpfDsqInsertVtime.mpr (.inl rfl))
      (by rw [henqueue]; exact h.enable_dsqVtime p) hok cpu
  have hplace' : ∀ r, r ≠ p →
      (schedEnqueue sliceDfl p (schedEnable p s)).place r = s.place r := fun r hrp => by
    rw [henqueue]
    exact Function.update_of_ne hrp _ _
  refine ⟨⟨hp, hp, trivial, trivial⟩, hcharged, ?_, fun r hr hrp => ?_⟩
  · -- one has come, one has gone
    have hcame : (schedEnqueue sliceDfl p (schedEnable p s)).dsq.length = s.dsq.length + 1 := by
      rw [henqueue]
      exact length_scxBpfDsqInsertVtime
    exact Nat.succ.inj (hlen.trans hcame)
  · have hrq : r ≠ q := by
      rintro rfl
      rw [hplace' r hrp, hr] at hq
      cases hq
    exact (congrFun hplace r).trans ((Function.update_of_ne hrq _ _).trans
      ((hplace' r hrp).trans hr))

end

/-- **Starvation.** A task that has ever been charged waits as long as new tasks arrive, however
    many: for each of them the CPU takes a task, but never this one. -/
theorem starved {x : TaskPtr} (h : Charged x s) {cpu : Int32} {ok : TaskPtr → Bool}
    {ps : List TaskPtr} (hps : ps.Nodup) (hoff : ∀ p ∈ ps, s.place p = .off ∧ ok p = true) :
    Throughout (step sliceDfl) (Promised sliceDfl) s (newcomers cpu ok ps) ∧
      x ∈ (run (step sliceDfl) s (newcomers cpu ok ps)).dsq ∧
      (run (step sliceDfl) s (newcomers cpu ok ps)).dsq.length = s.dsq.length := by
  induction ps generalizing s with
  | nil => exact ⟨trivial, h.mem, rfl⟩
  | cons p ps ih =>
    rw [List.nodup_cons] at hps
    rw [List.forall_mem_cons] at hoff
    obtain ⟨hprom, hcharged, hlen, hplace⟩ :=
      @Charged.newcomer sliceDfl s x p h cpu ok hoff.1.1 hoff.1.2
    have hrest : ∀ q ∈ ps,
        (run (step sliceDfl) s [.enable p, .enqueue p, .dispatch cpu ok]).place q = .off ∧
          ok q = true := fun q hq =>
      ⟨hplace q (hoff.2 q hq).1 fun hqp => hps.1 (hqp ▸ hq), (hoff.2 q hq).2⟩
    obtain ⟨hprom', hmem, hlen'⟩ := ih hcharged hps.2 hrest
    rw [newcomers, List.flatMap_cons, throughout_append, run_append]
    exact ⟨⟨hprom, hprom'⟩, hmem, hlen'.trans hlen⟩

/-- One task has run for a whole slice and waits again. -/
def chargedOnce : VtimeSched :=
  run (step 20000000) .init [.enable 1, .enqueue 1, .dispatch 0 fun _ => true, .running 1,
    .stopping 1 0 100, .enqueue 1]

/-- It has been charged. -/
theorem charged_chargedOnce : Charged 1 chargedOnce where
  queued := @Queued.run 20000000 0 .init _ (Queued.init 0)
    ⟨⟨rfl, trivial⟩, ⟨rfl, by decide⟩, ⟨trivial, trivial⟩, ⟨⟨0, rfl⟩, trivial⟩,
      ⟨⟨rfl, by decide⟩, trivial⟩, ⟨rfl, by decide⟩, trivial⟩
  vtimeNow_eq := rfl
  mem := by decide
  pos := by decide

/-- Two new tasks pass it. -/
theorem starved_by_two :
    Throughout (step 20000000) (Promised 20000000) chargedOnce
        (newcomers 0 (fun _ => true) [2, 3]) ∧
      1 ∈ (run (step 20000000) chargedOnce (newcomers 0 (fun _ => true) [2, 3])).dsq ∧
      (run (step 20000000) chargedOnce (newcomers 0 (fun _ => true) [2, 3])).dsq.length
        = chargedOnce.dsq.length :=
  starved charged_chargedOnce (by decide)
    (List.forall_mem_cons.mpr ⟨⟨rfl, rfl⟩, List.forall_mem_singleton.mpr ⟨rfl, rfl⟩⟩)

end Vtime

end AieOs
