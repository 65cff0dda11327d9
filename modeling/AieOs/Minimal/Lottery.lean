import Mathlib.Algebra.Order.BigOperators.Group.List
import Mathlib.Algebra.Order.Ring.Nat
import AieOs.Lib.Tickets
import AieOs.Minimal.SharedDsq

namespace AieOs

open Lib

/-!
# The lottery schedulers

lottery.bpf.c and lottery_prio.bpf.c draw a random number below the number of tasks, or below
the sum of their weights, and walk down the queue: every task's tickets are taken off the
number, and the first task that brings it to zero or below and may run on the CPU is moved.

The draw counts from zero while the walk stops *at* zero, so that the head of the queue wins
with one ticket too many and the tail with one too few; a draw beyond the tickets of the
tasks that may run here leaves the CPU without work.

* `drawLoop_eq_drawn` — the walk in signed 32-bit numbers is the abstract draw;
* `LotteryPrio.card_draws_of_position`, `LotteryPrio.card_idle_draws` — who wins, how often;
* `Lottery.newest_leaves_last` — the task at the tail never wins while another waits.
-/

/-- The second loop of `sched_dispatch`: `random` after each task is reduced by `tickets`. -/
def drawLoop (tickets : DsqTask → Int32) (ok : TaskPtr → Bool) :
    Int32 → List DsqTask → Option ℕ
  | _, []            => none
  | random, p :: dsq =>
    let random := random - tickets p
    if random ≤ 0 ∧ ok p.ptr = true then some 0
    else (drawLoop tickets ok random dsq).map (· + 1)

namespace Lottery

/-- `sched_enqueue` of lottery.bpf.c. -/
def schedEnqueue (enqHead : Bool) (p : DsqTask) (dsq : List DsqTask) : List DsqTask :=
  scxBpfDsqInsert p (5000000 / scxBpfDsqNrQueued dsq).toUInt64 enqHead dsq

/-- `sched_dispatch` of lottery.bpf.c: a remainder by zero leaves the draw. -/
def schedDispatch (random : UInt32) (ok : TaskPtr → Bool) (dsq : List DsqTask) : Option ℕ :=
  drawLoop (fun _ => 1) ok (random % scxBpfDsqNrQueued dsq).toInt32 dsq

/-- lottery.bpf.c. -/
def schedOps : MinimalOps := ⟨schedEnqueue, schedDispatch⟩

end Lottery

namespace LotteryPrio

/-- `sched_enqueue` of lottery_prio.bpf.c. -/
def schedEnqueue (enqHead : Bool) (p : DsqTask) (dsq : List DsqTask) : List DsqTask :=
  scxBpfDsqInsert p (5000000 / scxBpfDsqNrQueued dsq).toUInt64 enqHead dsq

/-- The first loop of `sched_dispatch`, in `u32`. -/
def weightSum (dsq : List DsqTask) : UInt32 := dsq.foldl (fun sum p => sum + p.weight) 0

/-- `sched_dispatch` of lottery_prio.bpf.c. -/
def schedDispatch (random : UInt32) (ok : TaskPtr → Bool) (dsq : List DsqTask) : Option ℕ :=
  drawLoop (fun p => p.weight.toInt32) ok (random % weightSum dsq).toInt32 dsq

/-- lottery_prio.bpf.c. -/
def schedOps : MinimalOps := ⟨schedEnqueue, schedDispatch⟩

end LotteryPrio

/-! ### The walk in machine integers -/

/-- A number below `2 ^ 31` is the same as an `s32`. -/
theorem toInt_toInt32_of_lt {x : UInt32} (h : x.toNat < 2 ^ 31) :
    x.toInt32.toInt = x.toNat := by
  rw [← Int32.toInt_toBitVec, UInt32.toBitVec_toInt32]
  exact BitVec.toInt_eq_toNat_of_lt (by rw [UInt32.toNat_toBitVec]; omega)

/-- As long as the tickets do not take `random` below the smallest `s32`, the walk is the
    abstract one. -/
theorem drawLoop_eq_drawn {tickets : DsqTask → Int32} {t : DsqTask → ℕ} {ok : TaskPtr → Bool}
    {dsq : List DsqTask} (ht : ∀ p ∈ dsq, (tickets p).toInt = t p) (random : Int32)
    (hlow : -2 ^ 31 + ((dsq.map t).sum : ℤ) ≤ random.toInt) :
    drawLoop tickets ok random dsq = drawn t (fun p => ok p.ptr) random.toInt.toNat dsq := by
  induction dsq generalizing random with
  | nil => rfl
  | cons p dsq ih =>
    rw [List.forall_mem_cons] at ht
    rw [List.map_cons, List.sum_cons, Int.natCast_add] at hlow
    have hhigh := Int32.toInt_lt random
    -- this subtraction does not overflow
    have hsub : (random - tickets p).toInt = random.toInt - t p := by
      rw [Int32.toInt_sub, ht.1]
      exact Int.bmod_eq_of_le (by omega) (by omega)
    have hle : random - tickets p ≤ 0 ↔ random.toInt.toNat ≤ t p := by
      rw [Int32.le_iff_toInt_le, hsub, Int32.toInt_zero]
      omega
    have hrest : (random - tickets p).toInt.toNat = random.toInt.toNat - t p := by
      rw [hsub]
      omega
    rw [drawLoop, drawn, ih ht.2 _ (by rw [hsub]; omega), hrest]
    simp only [hle]

/-! ### Weighted lots -/

namespace LotteryPrio

/-- The tickets of all tasks, as a number. -/
def totalWeight (dsq : List DsqTask) : ℕ := (dsq.map fun p => p.weight.toNat).sum

/-- The sum of the weights, as long as it does not wrap around. -/
theorem toNat_weightSum {dsq : List DsqTask} (h : totalWeight dsq < 2 ^ 32) :
    (weightSum dsq).toNat = totalWeight dsq := by
  have hfold : ∀ (dsq : List DsqTask) (sum : UInt32), sum.toNat + totalWeight dsq < 2 ^ 32 →
      (dsq.foldl (fun sum p => sum + p.weight) sum).toNat = sum.toNat + totalWeight dsq := by
    intro dsq
    induction dsq with
    | nil => exact fun sum _ => rfl
    | cons p dsq ih =>
      intro sum hsum
      simp only [totalWeight, List.map_cons, List.sum_cons] at hsum ih ⊢
      have hadd : (sum + p.weight).toNat = sum.toNat + p.weight.toNat := by
        rw [UInt32.toNat_add]
        exact Nat.mod_eq_of_lt (by omega)
      rw [List.foldl_cons, ih _ (by omega), hadd, Nat.add_assoc]
  have hsum := hfold dsq 0 (by simpa using h)
  rwa [UInt32.toNat_zero, Nat.zero_add] at hsum

/-- Tasks of positive weight have a positive sum. -/
theorem totalWeight_pos {dsq : List DsqTask} (hpos : ∀ p ∈ dsq, 0 < p.weight.toNat)
    (hne : dsq ≠ []) : 0 < totalWeight dsq := by
  obtain ⟨p, rest, rfl⟩ := List.exists_cons_of_ne_nil hne
  have hp := hpos p List.mem_cons_self
  rw [totalWeight, List.map_cons, List.sum_cons]
  omega

/-- **`sched_dispatch` draws lots**, where the sum of the weights fits an `s32`. -/
theorem schedDispatch_eq_drawn {dsq : List DsqTask} (hsum : totalWeight dsq < 2 ^ 31)
    (hpos : ∀ p ∈ dsq, 0 < p.weight.toNat) (random : UInt32) (ok : TaskPtr → Bool) :
    schedDispatch random ok dsq
      = drawn (fun p => p.weight.toNat) (fun p => ok p.ptr)
          (random.toNat % totalWeight dsq) dsq := by
  rcases eq_or_ne dsq [] with rfl | hne
  · rfl
  have hW := totalWeight_pos hpos hne
  have hmod : (random % weightSum dsq).toNat = random.toNat % totalWeight dsq := by
    rw [UInt32.toNat_mod, toNat_weightSum (by omega)]
  have hlt := Nat.mod_lt random.toNat hW
  have hint : (random % weightSum dsq).toInt32.toInt = (random.toNat % totalWeight dsq : ℕ) := by
    rw [toInt_toInt32_of_lt (by omega), hmod]
  -- each weight is at most the sum, so it fits an `s32` as well
  have hweights : ∀ p ∈ dsq, p.weight.toInt32.toInt = p.weight.toNat := fun p hp => by
    have hle : p.weight.toNat ≤ totalWeight dsq :=
      List.single_le_sum (fun _ _ => Nat.zero_le _) _ (List.mem_map_of_mem hp)
    exact toInt_toInt32_of_lt (by omega)
  rw [schedDispatch, drawLoop_eq_drawn (t := fun p => p.weight.toNat) hweights _ ?_, hint,
    Int.toNat_natCast]
  rw [hint]
  change -2 ^ 31 + (totalWeight dsq : ℤ) ≤ _
  omega

/-- A draw below the sum of the weights, as a number. -/
theorem schedDispatch_ofNat {dsq : List DsqTask} (hsum : totalWeight dsq < 2 ^ 31)
    (hpos : ∀ p ∈ dsq, 0 < p.weight.toNat) (ok : TaskPtr → Bool) {r : ℕ}
    (hr : r < totalWeight dsq) :
    schedDispatch (.ofNat r) ok dsq
      = drawn (fun p => p.weight.toNat) (fun p => ok p.ptr) r dsq := by
  have hr' : (UInt32.ofNat r).toNat = r := by
    rw [UInt32.toNat_ofNat']
    exact Nat.mod_eq_of_lt (by omega)
  rw [schedDispatch_eq_drawn hsum hpos, hr', Nat.mod_eq_of_lt hr]

/-- **Chances by weight.** Where every waiting task may run on the CPU, each of them is moved by
    as many draws below the sum of the weights as its weight says; but the head of the queue
    is moved by one more, the tail by one fewer. -/
theorem card_draws_of_position {dsq : List DsqTask} (hsum : totalWeight dsq < 2 ^ 31)
    (hpos : ∀ p ∈ dsq, 0 < p.weight.toNat) {ok : TaskPtr → Bool}
    (hok : ∀ p ∈ dsq, ok p.ptr = true) {i : ℕ} (hi : i < dsq.length) :
    ((Finset.range (totalWeight dsq)).filter
        fun r => schedDispatch (.ofNat r) ok dsq = some i).card
      + (if i + 1 = dsq.length then 1 else 0)
    = dsq[i].weight.toNat + (if i = 0 then 1 else 0) := by
  have hfilter : (Finset.range (totalWeight dsq)).filter
        (fun r => schedDispatch (.ofNat r) ok dsq = some i)
      = (Finset.range (totalWeight dsq)).filter fun r =>
        drawn (fun p : DsqTask => p.weight.toNat) (fun p => ok p.ptr) r dsq = some i :=
    Finset.filter_congr fun r hr => by
      rw [schedDispatch_ofNat hsum hpos ok (Finset.mem_range.mp hr)]
  rw [hfilter]
  exact card_winning_draws hok hpos hi

/-- Three waiting tasks of weights 3, 1 and 2. -/
def threeWaiting : List DsqTask := [⟨1, 3, 1, 0⟩, ⟨2, 1, 1, 0⟩, ⟨3, 2, 1, 0⟩]

/-- The task at the tail is moved by one draw of six. -/
theorem card_draws_of_threeWaiting :
    ((Finset.range (totalWeight threeWaiting)).filter
        fun r => schedDispatch (.ofNat r) (fun _ => true) threeWaiting = some 2).card + 1
      = 2 + 0 :=
  card_draws_of_position (by decide) (List.forall_mem_cons.mpr ⟨by decide,
    List.forall_mem_cons.mpr ⟨by decide, List.forall_mem_singleton.mpr (by decide)⟩⟩)
    (fun _ _ => rfl) (by decide : 2 < threeWaiting.length)

/-- **Idle draws.** A CPU is left without work by the draws that the weights up to the last task
    that may run there do not cover, though this task waits. -/
theorem card_idle_draws {dsq : List DsqTask} (hsum : totalWeight dsq < 2 ^ 31)
    (hpos : ∀ p ∈ dsq, 0 < p.weight.toNat) {ok : TaskPtr → Bool} {i : ℕ} (hi : i < dsq.length)
    (hok : ok dsq[i].ptr = true) (hlast : ∀ p ∈ dsq.drop (i + 1), ok p.ptr = false) :
    ((Finset.range (totalWeight dsq)).filter
        fun r => schedDispatch (.ofNat r) ok dsq = none).card
      = totalWeight (dsq.drop (i + 1)) - 1 := by
  have hfilter : (Finset.range (totalWeight dsq)).filter
        (fun r => schedDispatch (.ofNat r) ok dsq = none)
      = (Finset.range (totalWeight dsq)).filter fun r =>
        drawn (fun p : DsqTask => p.weight.toNat) (fun p => ok p.ptr) r dsq = none :=
    Finset.filter_congr fun r hr => by
      rw [schedDispatch_ofNat hsum hpos ok (Finset.mem_range.mp hr)]
  have hdrop : ∀ j x, i < j → dsq[j]? = some x → ok x.ptr = false := fun j x hij hx => by
    refine hlast x (List.mem_of_getElem? (i := j - (i + 1)) ?_)
    rw [List.getElem?_drop, Nat.add_sub_cancel' hij, hx]
  -- the weights up to the last task that may run there, and those after it
  have hsplit : totalWeight dsq
      = ticketsUpTo (fun p => p.weight.toNat) dsq (i + 1) + totalWeight (dsq.drop (i + 1)) := by
    rw [ticketsUpTo, totalWeight, totalWeight, ← List.sum_append, ← List.map_append,
      List.take_append_drop]
  have hcard := @card_losing_draws DsqTask (fun p => p.weight.toNat) (fun p => ok p.ptr) dsq i
    hi hok hdrop
  change _ = totalWeight dsq - 1 - _ at hcard
  rw [hfilter]
  change ((Finset.range (totalWeight dsq)).filter _).card = _ at hcard
  rw [hcard, hsplit]
  omega

/-- A CPU that may run the first two only. -/
theorem card_idle_draws_threeWaiting :
    ((Finset.range (totalWeight threeWaiting)).filter
        fun r => schedDispatch (.ofNat r) (fun p => p != 3) threeWaiting = none).card
      = totalWeight (threeWaiting.drop (1 + 1)) - 1 :=
  card_idle_draws (by decide) (List.forall_mem_cons.mpr ⟨by decide,
    List.forall_mem_cons.mpr ⟨by decide, List.forall_mem_singleton.mpr (by decide)⟩⟩)
    (by decide : 1 < threeWaiting.length) (by decide)
    (List.forall_mem_singleton.mpr (by decide))

end LotteryPrio

/-! ### Equal lots -/

namespace Lottery

/-- **`sched_dispatch` draws lots** of one ticket each. -/
theorem schedDispatch_eq_drawn {dsq : List DsqTask} (hlen : dsq.length < 2 ^ 31)
    (random : UInt32) (ok : TaskPtr → Bool) :
    schedDispatch random ok dsq
      = drawn (fun _ => 1) (fun p => ok p.ptr) (random.toNat % dsq.length) dsq := by
  rcases eq_or_ne dsq [] with rfl | hne
  · rfl
  have hn := List.length_pos_iff.mpr hne
  have hmod : (random % scxBpfDsqNrQueued dsq).toNat = random.toNat % dsq.length := by
    rw [UInt32.toNat_mod, scxBpfDsqNrQueued, UInt32.toNat_ofNat',
      Nat.mod_eq_of_lt (show dsq.length < 2 ^ 32 by omega)]
  have hlt := Nat.mod_lt random.toNat hn
  have hint : (random % scxBpfDsqNrQueued dsq).toInt32.toInt
      = (random.toNat % dsq.length : ℕ) := by
    rw [toInt_toInt32_of_lt (by omega), hmod]
  rw [schedDispatch, drawLoop_eq_drawn (t := fun _ => 1) (fun _ _ => rfl) _ ?_, hint,
    Int.toNat_natCast]
  have htotal : (dsq.map fun _ => 1).sum = dsq.length := by
    rw [← ticketsUpTo_length, ticketsUpTo_one le_rfl]
  rw [hint, htotal]
  omega

/-- Where every waiting task may run on the CPU, some task is moved, and the one at the tail only
    if it is alone. -/
theorem schedDispatch_not_tail {dsq : List DsqTask} (hlen : dsq.length < 2 ^ 31)
    {ok : TaskPtr → Bool} (hok : ∀ p ∈ dsq, ok p.ptr = true) (hn : 2 ≤ dsq.length)
    (random : UInt32) :
    ∃ i, schedDispatch random ok dsq = some i ∧ i + 1 < dsq.length := by
  have hr := Nat.mod_lt random.toNat (by omega : 0 < dsq.length)
  rw [schedDispatch_eq_drawn hlen]
  -- a draw of zero or one takes the head, any other the position before it
  refine ⟨random.toNat % dsq.length - 1, ?_, by omega⟩
  rw [drawn_all_iff hok (by omega), ticketsUpTo_one (by omega), ticketsUpTo_one (by omega)]
  omega

/-- **The newest task leaves last.** As long as every CPU may run every task and none arrives,
    whatever is drawn, each call takes a task from before the one at the tail, until that is
    alone. -/
theorem newest_leaves_last {dsq : List DsqTask} {x : DsqTask} {es : List MinimalEvent}
    (hlen : dsq.length + 1 < 2 ^ 31)
    (hes : ∀ e ∈ es, ∃ cpu random ok, e = .dispatch cpu random ok ∧
      ∀ p ∈ dsq ++ [x], ok p.ptr = true)
    (hshort : es.length ≤ dsq.length) :
    ∃ rest, run schedOps.step (dsq ++ [x]) es = rest ++ [x] ∧ rest.Sublist dsq ∧
      rest.length + es.length = dsq.length := by
  induction es using List.reverseRecOn with
  | nil => exact ⟨dsq, rfl, List.Sublist.refl _, rfl⟩
  | append_singleton es e ih =>
    rw [List.forall_mem_append, List.forall_mem_singleton] at hes
    rw [List.length_append, List.length_singleton] at hshort ⊢
    obtain ⟨rest, hrun, hsub, hcount⟩ := ih hes.1 (by omega)
    obtain ⟨cpu, random, ok, rfl, hok⟩ := hes.2
    have hok' : ∀ p ∈ rest ++ [x], ok p.ptr = true := fun p hp =>
      hok p ((hsub.append_right [x]).subset hp)
    have hrest : (rest ++ [x]).length = rest.length + 1 := by simp
    obtain ⟨i, hpick, hi⟩ := schedDispatch_not_tail (by omega) hok' (by omega) random
    -- the position is not that of `x`
    have hi' : i < rest.length := by omega
    refine ⟨rest.eraseIdx i, ?_, (List.eraseIdx_sublist _ _).trans hsub, ?_⟩
    · rw [run_concat, hrun, MinimalOps.step_dispatch hpick]
      exact List.eraseIdx_append_of_lt_length hi' _
    · rw [List.length_eraseIdx_of_lt hi']
      omega

/-- Of three tasks, the third is not moved by the first call. -/
theorem newest_leaves_last_of_three :
    ∃ rest, run schedOps.step ([⟨1, 100, 1, 0⟩, ⟨2, 100, 1, 0⟩] ++ [⟨3, 100, 1, 0⟩])
        [.dispatch 0 4294967295 fun _ => true] = rest ++ [⟨3, 100, 1, 0⟩] ∧
      rest.Sublist [⟨1, 100, 1, 0⟩, ⟨2, 100, 1, 0⟩] ∧ rest.length + 1 = 2 :=
  newest_leaves_last (by decide)
    (List.forall_mem_singleton.mpr ⟨0, 4294967295, fun _ => true, rfl, fun _ _ => rfl⟩)
    (by decide)

end Lottery

end AieOs
