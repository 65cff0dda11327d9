import Mathlib.Data.BitVec
import Mathlib.Data.List.Sort
import Mathlib.Tactic.Ring

namespace Lib

/-!
# Serial numbers

Stamps of `n` bits that may wrap around are compared by the sign of their difference.  The
comparison is no order on all stamps, but on those within half the range after a common
`base` it is the order of their distances from it: `serialLt_iff`.  A list ordered by
serial comparison within such a window is ordered by distance (`orderedInsert_serialLt`).
-/

variable {n : ℕ}

/-- Stamp `a` comes before stamp `b`: the difference `a - b`, read as signed, is negative. -/
def serialLt (a b : BitVec n) : Bool := (a - b).msb

/-- How far stamp `a` is after `base`, around the wrap. -/
def distance (base a : BitVec n) : ℕ := (a - base).toNat

/-- Within half the range after `base`, stamps are compared by their distance from it. -/
theorem serialLt_iff {base a b : BitVec n} (ha : distance base a < 2 ^ (n - 1))
    (hb : distance base b < 2 ^ (n - 1)) :
    serialLt a b = true ↔ distance base a < distance base b := by
  -- stamps of no bits are all equal
  rcases Nat.eq_zero_or_pos n with rfl | hn
  · simp [serialLt, distance, BitVec.of_length_zero]
  have hpow : 2 ^ n = 2 ^ (n - 1) + 2 ^ (n - 1) := by
    obtain ⟨m, rfl⟩ := Nat.exists_eq_succ_of_ne_zero hn.ne'
    rw [Nat.succ_sub_one, Nat.pow_succ]
    ring
  have hsub : a - b = (a - base) - (b - base) := by
    rw [sub_sub_sub_cancel_right]
  rw [serialLt, BitVec.msb_eq_decide, decide_eq_true_eq, hsub, BitVec.toNat_sub]
  change 2 ^ (n - 1) ≤ (2 ^ n - distance base b + distance base a) % 2 ^ n ↔ _
  -- the difference wraps around iff `a` is nearer to the base than `b`
  rcases Nat.lt_or_ge (distance base a) (distance base b) with hlt | hge
  · rw [Nat.mod_eq_of_lt (by omega)]
    omega
  · have hwrap : 2 ^ n - distance base b + distance base a
        = distance base a - distance base b + 2 ^ n := by omega
    rw [hwrap, Nat.add_mod_right, Nat.mod_eq_of_lt (by omega)]
    omega

/-- A stamp that moves on by `d` without leaving the range is `d` further away. -/
theorem distance_add {base a d : BitVec n} (h : distance base a + d.toNat < 2 ^ n) :
    distance base (a + d) = distance base a + d.toNat := by
  have hadd : a + d - base = (a - base) + d := by ring
  rw [distance, hadd, BitVec.toNat_add]
  exact Nat.mod_eq_of_lt h

/-- The distance from zero is the stamp itself. -/
theorem distance_zero (a : BitVec n) : distance 0#n a = a.toNat := by
  simp [distance]

/-- Inserting by serial comparison among stamps within a window inserts by distance. -/
theorem orderedInsert_serialLt {α : Type*} {stamp : α → BitVec n} {base : BitVec n} {x : α}
    {l : List α} (hx : distance base (stamp x) < 2 ^ (n - 1))
    (hl : ∀ y ∈ l, distance base (stamp y) < 2 ^ (n - 1)) :
    l.orderedInsert (fun a b => serialLt (stamp a) (stamp b) = true) x
      = l.orderedInsert (fun a b => distance base (stamp a) < distance base (stamp b)) x := by
  induction l with
  | nil => rfl
  | cons y l ih =>
    rw [List.forall_mem_cons] at hl
    have hiff := serialLt_iff hx hl.1
    simp only [List.orderedInsert_cons, hiff, ih hl.2]

end Lib
