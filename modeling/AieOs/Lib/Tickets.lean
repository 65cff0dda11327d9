import Mathlib.Algebra.BigOperators.Group.List.Basic
import Mathlib.Algebra.Group.Action.Defs
import Mathlib.Algebra.Order.Ring.Nat
import Mathlib.Order.Interval.Finset.Nat

namespace Lib

/-!
# Drawing lots from a list of ticket holders

Each entry `x` of a list holds `t x` tickets.  A draw `r` is walked down the list: the
tickets of each entry are taken off it, and the first eligible entry (`ok`) that brings it
down to zero or below is `drawn`.

* `drawn_eq_some_iff`, `drawn_eq_none_iff` — which position wins, by prefix sums of the tickets;
* `card_winning_draws` — among the draws below the total, the first entry wins with one
  ticket too many and the last with one too few.
-/

variable {α : Type*} (t : α → ℕ) (ok : α → Bool)

/-- The tickets of the first `k` entries. -/
def ticketsUpTo (l : List α) (k : ℕ) : ℕ := ((l.take k).map t).sum

/-- The position that draw `r` picks. -/
def drawn : ℕ → List α → Option ℕ
  | _, []     => none
  -- a draw never falls below zero, so what is left of it may be a zero
  | r, x :: l => if r ≤ t x ∧ ok x = true then some 0 else (drawn (r - t x) l).map (· + 1)

variable {t ok}

/-! ### Prefix sums -/

/-- No entries hold no tickets. -/
@[simp] theorem ticketsUpTo_zero (l : List α) : ticketsUpTo t l 0 = 0 := rfl

/-- The first entries, by the very first one. -/
@[simp] theorem ticketsUpTo_cons (x : α) (l : List α) (k : ℕ) :
    ticketsUpTo t (x :: l) (k + 1) = t x + ticketsUpTo t l k := by
  simp [ticketsUpTo]

/-- All entries together hold all tickets. -/
theorem ticketsUpTo_length (l : List α) : ticketsUpTo t l l.length = (l.map t).sum := by
  rw [ticketsUpTo, List.take_length]

/-- One entry more. -/
theorem ticketsUpTo_succ {l : List α} {k : ℕ} (hk : k < l.length) :
    ticketsUpTo t l (k + 1) = ticketsUpTo t l k + t l[k] := by
  rw [ticketsUpTo, List.take_add_one, List.getElem?_eq_getElem hk, List.map_append,
    List.sum_append]
  simp [ticketsUpTo]

/-- More entries hold no fewer tickets. -/
theorem ticketsUpTo_mono (l : List α) {j k : ℕ} (hjk : j ≤ k) :
    ticketsUpTo t l j ≤ ticketsUpTo t l k := by
  induction l generalizing j k with
  | nil => simp [ticketsUpTo]
  | cons x l ih =>
    cases j with
    | zero => exact Nat.zero_le _
    | succ j =>
      obtain ⟨k, rfl⟩ := Nat.exists_eq_succ_of_ne_zero (Nat.ne_zero_of_lt hjk)
      rw [Nat.succ_eq_add_one, ticketsUpTo_cons, ticketsUpTo_cons]
      exact Nat.add_le_add_left (ih (Nat.le_of_succ_le_succ hjk)) _

/-- With one ticket each, prefix sums count entries. -/
theorem ticketsUpTo_one {l : List α} {k : ℕ} (hk : k ≤ l.length) :
    ticketsUpTo (fun _ => 1) l k = k := by
  rw [ticketsUpTo, List.map_const', List.length_take, Nat.min_eq_left hk, List.sum_replicate,
    smul_eq_mul, Nat.mul_one]

/-! ### Who wins -/

/-- The entry at position `i` wins iff it is eligible, its tickets cover the draw, and no
    eligible entry before it covers the draw. -/
theorem drawn_eq_some_iff {r i : ℕ} {l : List α} :
    drawn t ok r l = some i ↔
      (∃ h : i < l.length, ok l[i] = true) ∧ r ≤ ticketsUpTo t l (i + 1) ∧
        ∀ j x, j < i → l[j]? = some x → ok x = true → ticketsUpTo t l (j + 1) < r := by
  induction l generalizing r i with
  | nil => simp [drawn]
  | cons y l ih =>
    rw [drawn]
    -- the first entry takes the draw, or its tickets are taken off
    by_cases hy : r ≤ t y ∧ ok y = true
    · rw [if_pos hy]
      cases i with
      | zero => simp [hy]
      | succ i =>
        refine ⟨fun h => by simp at h, fun ⟨_, _, hbefore⟩ => ?_⟩
        have hlt := hbefore 0 y i.succ_pos rfl hy.2
        rw [ticketsUpTo_cons, ticketsUpTo_zero] at hlt
        omega
    · rw [if_neg hy]
      cases i with
      | zero =>
        refine ⟨fun h => by simp at h, fun ⟨⟨_, hok⟩, hle, _⟩ => absurd ⟨?_, hok⟩ hy⟩
        simpa using hle
      | succ i =>
        have hpred : (drawn t ok (r - t y) l).map (· + 1) = some (i + 1) ↔
            drawn t ok (r - t y) l = some i := by simp
        rw [hpred, ih]
        constructor
        · rintro ⟨⟨hi, hok⟩, hle, hbefore⟩
          refine ⟨⟨Nat.succ_lt_succ hi, hok⟩, ?_, fun j x hj hx hxok => ?_⟩
          · rw [ticketsUpTo_cons]
            omega
          · cases j with
            | zero =>
              obtain rfl : y = x := by simpa using hx
              rw [ticketsUpTo_cons, ticketsUpTo_zero]
              by_contra hge
              exact hy ⟨by omega, hxok⟩
            | succ j =>
              have hlt := hbefore j x (Nat.lt_of_succ_lt_succ hj) (by simpa using hx) hxok
              rw [ticketsUpTo_cons]
              omega
        · rintro ⟨⟨hi, hok⟩, hle, hbefore⟩
          rw [ticketsUpTo_cons] at hle
          refine ⟨⟨Nat.lt_of_succ_lt_succ hi, hok⟩, by omega, fun j x hj hx hxok => ?_⟩
          have hlt := hbefore (j + 1) x (Nat.succ_lt_succ hj) (by simpa using hx) hxok
          rw [ticketsUpTo_cons] at hlt
          omega

/-- Nobody wins iff no eligible entry covers the draw. -/
theorem drawn_eq_none_iff {r : ℕ} {l : List α} :
    drawn t ok r l = none ↔
      ∀ j x, l[j]? = some x → ok x = true → ticketsUpTo t l (j + 1) < r := by
  induction l generalizing r with
  | nil => simp [drawn]
  | cons y l ih =>
    rw [drawn]
    by_cases hy : r ≤ t y ∧ ok y = true
    · rw [if_pos hy]
      refine ⟨fun h => by simp at h, fun h => ?_⟩
      have hlt := h 0 y rfl hy.2
      rw [ticketsUpTo_cons, ticketsUpTo_zero] at hlt
      omega
    · rw [if_neg hy, Option.map_eq_none_iff, ih]
      constructor
      · intro h j x hx hxok
        cases j with
        | zero =>
          obtain rfl : y = x := by simpa using hx
          rw [ticketsUpTo_cons, ticketsUpTo_zero]
          by_contra hge
          exact hy ⟨by omega, hxok⟩
        | succ j =>
          have hlt := h j x (by simpa using hx) hxok
          rw [ticketsUpTo_cons]
          omega
      · intro h j x hx hxok
        have hlt := h (j + 1) x (by simpa using hx) hxok
        rw [ticketsUpTo_cons] at hlt
        omega

/-- Where every entry is eligible, position `i` wins the draws between its prefix sums. -/
theorem drawn_all_iff {r i : ℕ} {l : List α} (hall : ∀ x ∈ l, ok x = true) (hi : i < l.length) :
    drawn t ok r l = some i ↔
      r ≤ ticketsUpTo t l (i + 1) ∧ (i = 0 ∨ ticketsUpTo t l i < r) := by
  rw [drawn_eq_some_iff]
  constructor
  · rintro ⟨-, hle, hbefore⟩
    refine ⟨hle, i.eq_zero_or_pos.imp id fun hpos => ?_⟩
    -- the entry right before it does not cover the draw
    obtain ⟨j, rfl⟩ := Nat.exists_eq_succ_of_ne_zero hpos.ne'
    have hj : j < l.length := by omega
    exact hbefore j l[j] j.lt_succ_self (List.getElem?_eq_getElem hj)
      (hall _ (List.getElem_mem hj))
  · rintro ⟨hle, hlow⟩
    refine ⟨⟨hi, hall _ (List.getElem_mem hi)⟩, hle, fun j x hj _ _ => ?_⟩
    rcases hlow with rfl | hlow
    · omega
    · exact (ticketsUpTo_mono l hj).trans_lt hlow

/-- **Winning draws.** Of the draws below the total number of tickets, each entry wins as
    many as it has tickets, but the first wins one more and the last one fewer. -/
theorem card_winning_draws {l : List α} (hall : ∀ x ∈ l, ok x = true)
    (hpos : ∀ x ∈ l, 0 < t x) {i : ℕ} (hi : i < l.length) :
    ((Finset.range (l.map t).sum).filter fun r => drawn t ok r l = some i).card
        + (if i + 1 = l.length then 1 else 0)
      = t l[i] + (if i = 0 then 1 else 0) := by
  have hti := hpos _ (List.getElem_mem hi)
  have hsucc := ticketsUpTo_succ (t := t) hi
  have htotal := ticketsUpTo_length (t := t) l
  -- the total lies beyond the prefix sum of every entry but the last
  have hend : ticketsUpTo t l (i + 1) + (if i + 1 = l.length then 0 else 1)
      ≤ (l.map t).sum := by
    rw [← htotal]
    split
    · next h => rw [h, Nat.add_zero]
    · next h =>
      have hi' : i + 1 < l.length := by omega
      have hstep := ticketsUpTo_succ (t := t) hi'
      have hnext := hpos _ (List.getElem_mem hi')
      have hmono := ticketsUpTo_mono (t := t) l (Nat.succ_le_of_lt hi')
      rw [Nat.succ_eq_add_one] at hmono
      omega
  have hlast : i + 1 = l.length → ticketsUpTo t l (i + 1) = (l.map t).sum := fun h => by
    rw [h, htotal]
  -- the draws that it wins are an interval
  have hset : ((Finset.range (l.map t).sum).filter fun r => drawn t ok r l = some i)
      = Finset.Ico (if i = 0 then 0 else ticketsUpTo t l i + 1)
          (min (l.map t).sum (ticketsUpTo t l (i + 1) + 1)) := by
    ext r
    rw [Finset.mem_filter, Finset.mem_range, drawn_all_iff hall hi, Finset.mem_Ico]
    split <;> omega
  have hfirst : i = 0 → ticketsUpTo t l i = 0 := fun h => by rw [h, ticketsUpTo_zero]
  rw [hset, Nat.card_Ico]
  split at hend <;> split_ifs <;> omega

/-- **Losing draws.** The tickets of the entries after the last eligible one are lost. -/
theorem card_losing_draws {l : List α} {i : ℕ} (hi : i < l.length) (hok : ok l[i] = true)
    (hlast : ∀ j x, i < j → l[j]? = some x → ok x = false) :
    ((Finset.range (l.map t).sum).filter fun r => drawn t ok r l = none).card
      = (l.map t).sum - 1 - ticketsUpTo t l (i + 1) := by
  have hset : ((Finset.range (l.map t).sum).filter fun r => drawn t ok r l = none)
      = Finset.Ico (ticketsUpTo t l (i + 1) + 1) (l.map t).sum := by
    ext r
    rw [Finset.mem_filter, Finset.mem_range, drawn_eq_none_iff, Finset.mem_Ico]
    constructor
    · rintro ⟨hr, hnone⟩
      exact ⟨hnone i l[i] (List.getElem?_eq_getElem hi) hok, hr⟩
    · rintro ⟨hlow, hr⟩
      refine ⟨hr, fun j x hx hxok => ?_⟩
      -- no entry after the `i`-th is eligible
      have hji : j ≤ i := by
        by_contra hij
        simp [hlast j x (by omega) hx] at hxok
      exact lt_of_le_of_lt (ticketsUpTo_mono l (Nat.succ_le_succ hji)) hlow
  rw [hset, Nat.card_Ico]
  omega

end Lib
