import Mathlib.Algebra.Group.Nat.Defs
import Mathlib.Tactic.ByContra

namespace Lib

/-!
# Counters that wrap around

The remainder of a growing number by `M` grows with it up to the next multiple of `M`, where
it starts again at zero.

* `forall_mod_le_iff` — up to where the remainder has grown;
* `forall_add_mod_le_iff` — the same for a sum in its first summand.
-/

variable {M : ℕ}

/-- The remainder at the end of an interval is the largest one iff the interval meets no
    multiple of `M` after its start, or the remainder is the largest there is. -/
theorem forall_mod_le_iff (hM : 0 < M) {k n : ℕ} (hkn : k ≤ n) :
    (∀ m, k ≤ m → m ≤ n → m % M ≤ n % M) ↔ n / M = k / M ∨ n % M = M - 1 := by
  constructor
  · intro hle
    by_contra hnot
    rw [not_or] at hnot
    have hdiv : k / M < n / M := Nat.lt_of_le_of_ne (Nat.div_le_div_right hkn) (Ne.symm hnot.1)
    -- the number before the last multiple of `M`
    have hk : k < M * (n / M) := by
      rw [Nat.mul_comm]
      exact (Nat.div_lt_iff_lt_mul hM).mp hdiv
    have hn : M * (n / M) ≤ n := Nat.mul_div_le n M
    have hbefore : (M * (n / M) - 1) % M = M - 1 := by
      obtain ⟨q, hq⟩ := Nat.exists_eq_succ_of_ne_zero (Nat.ne_zero_of_lt hdiv)
      have hsplit : M * (q + 1) - 1 = M * q + (M - 1) := by
        rw [Nat.mul_succ]
        omega
      rw [hq, Nat.succ_eq_add_one, hsplit, Nat.mul_add_mod, Nat.mod_eq_of_lt (by omega)]
    have hlast := hle (M * (n / M) - 1) (by omega) (by omega)
    have hmax := Nat.mod_lt n hM
    omega
  · rintro (hdiv | hmax) m hkm hmn
    · -- no multiple of `M` in between: the quotients are equal and the remainders grow
      have hm : m / M = n / M :=
        Nat.le_antisymm (Nat.div_le_div_right hmn) (hdiv ▸ Nat.div_le_div_right hkm)
      have hm' := Nat.div_add_mod m M
      have hn' := Nat.div_add_mod n M
      rw [hm] at hm'
      omega
    · have hm := Nat.mod_lt m hM
      omega

/-- A sum of two numbers below `M` has grown with its first summand iff it has not reached
    `M`. -/
theorem forall_add_mod_le_iff {x y : ℕ} (hx : x < M) (hy : y < M) :
    (∀ x' ≤ x, (x' + y) % M ≤ (x + y) % M) ↔ x + y < M := by
  have hM : 0 < M := by omega
  have hshift : (∀ x' ≤ x, (x' + y) % M ≤ (x + y) % M) ↔
      ∀ m, y ≤ m → m ≤ x + y → m % M ≤ (x + y) % M := by
    constructor
    · intro h m hm hle
      have hle' := h (m - y) (by omega)
      rwa [Nat.sub_add_cancel hm] at hle'
    · intro h x' hx'
      exact h (x' + y) (by omega) (by omega)
  rw [hshift, forall_mod_le_iff hM (Nat.le_add_left y x), Nat.div_eq_of_lt hy,
    Nat.div_eq_zero_iff_lt hM]
  -- two numbers below `M` do not add up to `2 * M - 1`
  refine or_iff_left_of_imp fun hmax => ?_
  by_contra hge
  rw [Nat.mod_eq_sub_mod (by omega), Nat.mod_eq_of_lt (by omega)] at hmax
  omega

end Lib
