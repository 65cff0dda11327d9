import AieOs.Lib.StablePriority
import AieOs.Minimal.SharedDsq

namespace AieOs

open Lib

/-!
# The priority scheduler

prio.bpf.c uses the shared queue as a priority queue: the virtual time of a task is
`100 - p->scx.weight`, the heaviest first.  The difference is taken in `u32`, so that it
wraps around for a weight above 100, the weight of nice 0: such a task comes after every
task of weight 100 or less.

* `Prio.Waiting.run` — in every run the queue is ordered by this key;
* `Prio.throughout_heaviest_iff` — the CPUs always take a task of the largest weight that
  they may run iff the tasks that one of them may run never lie on both sides of 100.
-/

namespace Prio

/-- `100 - p->scx.weight`, in `u32` and widened. -/
def vtimeOf (p : DsqTask) : UInt64 := (100 - p.weight).toUInt64

/-- `sched_enqueue` of prio.bpf.c: a queue ordered by virtual time has no head to insert at. -/
def schedEnqueue (_enqHead : Bool) (p : DsqTask) (dsq : List DsqTask) : List DsqTask :=
  scxBpfDsqInsertVtime DsqTask.dsqVtime
    { p.granted (5000000 / scxBpfDsqNrQueued dsq).toUInt64 with dsqVtime := vtimeOf p } dsq

/-- `sched_dispatch` of prio.bpf.c. -/
def schedDispatch (_random : UInt32) (ok : TaskPtr → Bool) (dsq : List DsqTask) : Option ℕ :=
  scxBpfDsqMoveToLocal ok dsq

/-- prio.bpf.c. -/
def schedOps : MinimalOps := ⟨schedEnqueue, schedDispatch⟩

/-! ### The key -/

/-- The comparison with 100, as numbers. -/
theorem le_hundred {weight : UInt32} : weight ≤ 100 ↔ weight.toNat ≤ 100 :=
  UInt32.le_iff_toNat_le

/-- The key as a number: above 100 the subtraction wraps around in 32 bits. -/
theorem toNat_vtimeOf (p : DsqTask) :
    (vtimeOf p).toNat
      = if p.weight ≤ 100 then 100 - p.weight.toNat else 2 ^ 32 + 100 - p.weight.toNat := by
  have hlt := p.weight.toNat_lt
  rw [vtimeOf, UInt32.toNat_toUInt64, UInt32.toNat_sub]
  change (2 ^ 32 - p.weight.toNat + 100) % 2 ^ 32 = _
  by_cases hp : p.weight ≤ 100
  · have hle := le_hundred.mp hp
    rw [if_pos hp, show 2 ^ 32 - p.weight.toNat + 100 = 100 - p.weight.toNat + 2 ^ 32 by omega,
      Nat.add_mod_right, Nat.mod_eq_of_lt (by omega)]
  · have hgt := mt le_hundred.mpr hp
    rw [if_neg hp, Nat.mod_eq_of_lt (by omega)]
    omega

/-- No key comes near to where a comparison of virtual times fails. -/
theorem vtimeOf_lt (p : DsqTask) : (vtimeOf p).toNat < 2 ^ 63 := by
  have hlt := (100 - p.weight).toNat_lt
  rw [vtimeOf, UInt32.toNat_toUInt64]
  omega

/-- On one side of 100, the smaller key is the larger weight. -/
theorem vtimeOf_le_iff {p q : DsqTask} (h : p.weight ≤ 100 ↔ q.weight ≤ 100) :
    (vtimeOf p).toNat ≤ (vtimeOf q).toNat ↔ q.weight ≤ p.weight := by
  have hp := p.weight.toNat_lt
  have hq := q.weight.toNat_lt
  rw [toNat_vtimeOf, toNat_vtimeOf]
  by_cases hpw : p.weight ≤ 100
  · have hpn := le_hundred.mp hpw
    have hqn := le_hundred.mp (h.mp hpw)
    rw [if_pos hpw, if_pos (h.mp hpw), UInt32.le_iff_toNat_le]
    omega
  · rw [if_neg hpw, if_neg (mt h.mpr hpw), UInt32.le_iff_toNat_le]
    omega

/-- A weight above 100 comes after all weights up to 100. -/
theorem vtimeOf_lt_of_straddle {p q : DsqTask} (hp : p.weight ≤ 100) (hq : ¬ q.weight ≤ 100) :
    (vtimeOf p).toNat < (vtimeOf q).toNat := by
  have hlt := q.weight.toNat_lt
  rw [toNat_vtimeOf, toNat_vtimeOf, if_pos hp, if_neg hq]
  omega

/-! ### The queue of every run -/

/-- The queue is ordered by virtual time, and each task has the virtual time of its weight. -/
structure Waiting (dsq : List DsqTask) : Prop where
  sorted : dsq.Pairwise fun a b => a.dsqVtime.toNat ≤ b.dsqVtime.toNat
  vtime_eq : ∀ p ∈ dsq, p.dsqVtime = vtimeOf p

/-- At the start nobody waits. -/
theorem Waiting.nil : Waiting [] := ⟨List.Pairwise.nil, by simp⟩

/-- A task that leaves disturbs no other. -/
theorem Waiting.eraseIdx {dsq : List DsqTask} (h : Waiting dsq) (i : ℕ) :
    Waiting (dsq.eraseIdx i) :=
  ⟨h.sorted.sublist (List.eraseIdx_sublist dsq i),
    fun p hp => h.vtime_eq p ((List.eraseIdx_sublist dsq i).subset hp)⟩

/-- A task is put where its key belongs. -/
theorem Waiting.schedEnqueue {dsq : List DsqTask} (h : Waiting dsq) (enqHead : Bool)
    (p : DsqTask) : Waiting (Prio.schedEnqueue enqHead p dsq) := by
  have hmem : ∀ q ∈ Prio.schedEnqueue enqHead p dsq, q.dsqVtime = vtimeOf q := by
    intro q hq
    rcases (List.mem_orderedInsert _).mp hq with rfl | hq
    · rfl
    · exact h.vtime_eq q hq
  refine ⟨?_, hmem⟩
  rw [Prio.schedEnqueue, @scxBpfDsqInsertVtime_eq DsqTask DsqTask.dsqVtime 0]
  · simp only [vtimeAfter_zero]
    exact @sorted_orderedInsert DsqTask ℕ _ (fun q => q.dsqVtime.toNat) dsq h.sorted _
  · rw [vtimeAfter_zero]
    exact vtimeOf_lt p
  · intro q hq
    rw [vtimeAfter_zero, h.vtime_eq q hq]
    exact vtimeOf_lt q

/-- Every call keeps the order. -/
theorem Waiting.step {dsq : List DsqTask} (h : Waiting dsq) (e : MinimalEvent) :
    Waiting (schedOps.step dsq e) := by
  cases e with
  | enqueue p enqHead => exact h.schedEnqueue enqHead p
  | dispatch cpu random ok =>
    rw [MinimalOps.step]
    split
    · exact h
    · exact h.eraseIdx _

/-- The queue of every run is ordered by key. -/
theorem Waiting.run (es : List MinimalEvent) : Waiting (run schedOps.step [] es) :=
  run_induction (C := fun _ _ => True) Waiting.nil (fun _ e h _ => h.step e)
    (throughout_of_forall fun _ _ => trivial)

/-! ### Which task a CPU takes -/

/-- The call takes no task, or one of the largest weight among those the CPU may run. -/
def TakesHeaviest (dsq : List DsqTask) : MinimalEvent → Prop
  | .enqueue _ _         => True
  | .dispatch _ random ok => ∀ i p, schedDispatch random ok dsq = some i → dsq[i]? = some p →
      ∀ q ∈ dsq, ok q.ptr = true → q.weight ≤ p.weight

/-- Tasks of weights on both sides of 100 wait for the CPU. -/
def Straddles (dsq : List DsqTask) : MinimalEvent → Prop
  | .enqueue _ _     => False
  | .dispatch _ _ ok => ∃ p ∈ dsq, ∃ q ∈ dsq, ok p.ptr = true ∧ ok q.ptr = true ∧
      p.weight ≤ 100 ∧ ¬ q.weight ≤ 100

/-- The task that is taken has the smallest key of those that the CPU may run. -/
theorem Waiting.least_of_dispatch {dsq : List DsqTask} (h : Waiting dsq)
    {ok : TaskPtr → Bool} {i : ℕ} (hi : scxBpfDsqMoveToLocal ok dsq = some i) :
    ∃ p ∈ dsq, dsq[i]? = some p ∧ ok p.ptr = true ∧
      ∀ q ∈ dsq, ok q.ptr = true → (vtimeOf p).toNat ≤ (vtimeOf q).toNat := by
  obtain ⟨as, p, bs, rfl, hget, -, hp, has⟩ := split_of_moveToLocal hi
  refine ⟨p, by simp, hget, hp, fun q hq hqok => ?_⟩
  have hsorted := h.sorted
  rw [List.pairwise_append, List.pairwise_cons] at hsorted
  rw [← h.vtime_eq p (by simp), ← h.vtime_eq q hq]
  -- what stands before the task that is taken may not run on the CPU
  rcases List.mem_append.mp hq with hq' | hq'
  · simp [has q hq'] at hqok
  · rcases List.mem_cons.mp hq' with rfl | hq'
    · exact le_rfl
    · exact hsorted.2.1.1 q hq'

/-- One call takes the heaviest task iff the weights it may choose from do not straddle 100. -/
theorem Waiting.takesHeaviest_iff {dsq : List DsqTask} (h : Waiting dsq) (e : MinimalEvent) :
    TakesHeaviest dsq e ↔ ¬ Straddles dsq e := by
  cases e with
  | enqueue p enqHead => simp [TakesHeaviest, Straddles]
  | dispatch cpu random ok =>
    constructor
    · rintro hheavy ⟨p, hp, q, hq, hpok, hqok, hpw, hqw⟩
      have hsome : (scxBpfDsqMoveToLocal ok dsq).isSome := by
        rw [scxBpfDsqMoveToLocal, List.findIdx?_isSome, List.any_eq_true]
        exact ⟨p, hp, hpok⟩
      obtain ⟨i, hi⟩ := Option.isSome_iff_exists.mp hsome
      obtain ⟨t, ht, hget, htok, hleast⟩ := h.least_of_dispatch hi
      have hqt := hheavy i t hi hget q hq hqok
      -- the task taken weighs more than 100, so the lighter `p` comes before it
      have htw : ¬ t.weight ≤ 100 := fun htw => hqw (UInt32.le_trans hqt htw)
      exact absurd (hleast p hp hpok) (Nat.not_le_of_lt (vtimeOf_lt_of_straddle hpw htw))
    · intro hstraddle i p hi hget q hq hqok
      obtain ⟨t, ht, hget', htok, hleast⟩ := h.least_of_dispatch hi
      obtain rfl : t = p := Option.some.inj (hget'.symm.trans hget)
      refine (vtimeOf_le_iff ?_).mp (hleast q hq hqok)
      constructor
      · intro htw
        by_contra hqw
        exact hstraddle ⟨t, ht, q, hq, htok, hqok, htw, hqw⟩
      · intro hqw
        by_contra htw
        exact hstraddle ⟨q, hq, t, ht, hqok, htok, hqw, htw⟩

/-- **Priority, exactly.** In every run, each CPU always takes a task of the largest weight that
    it may run iff the waiting tasks that it may run never lie on both sides of 100. -/
theorem throughout_heaviest_iff (es : List MinimalEvent) :
    Throughout schedOps.step TakesHeaviest [] es ↔
      Throughout schedOps.step (fun dsq e => ¬ Straddles dsq e) [] es :=
  throughout_congr_of_invariant Waiting.nil (fun _ e h _ => h.step e)
    fun _ e h => h.takesHeaviest_iff e

end Prio

end AieOs
