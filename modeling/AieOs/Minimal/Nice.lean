import Mathlib.Algebra.Order.Ring.Int
import Mathlib.Data.List.Range
import Mathlib.Tactic.Linarith

namespace AieOs

/-!
# Nice values and weights

n2w.sh computes the weight that the kernel gives a task of a nice value, w2n.sh searches for
the nice value whose weight is closest to a given one.  The numbers are bash integers of 64
bits; for a weight that is one and not negative, none of the operations below leaves them.

`Nice.w2n_closest`: the search finds the closest weight, and the smallest nice value that has
it; it starts from a difference of 100000000, which only weights beyond all those of the table
exceed.
-/

namespace Nice

/-- Nice value to weight, from nice -20 on. -/
def weights : List ℤ :=
  [88761, 71755, 56483, 46273, 36291,
    29154, 23254, 18705, 14949, 11916,
    9548, 7620, 6100, 4904, 3906,
    3121, 2501, 1991, 1586, 1277,
    1024, 820, 655, 526, 423,
    335, 272, 215, 172, 137,
    110, 87, 70, 56, 45,
    36, 29, 23, 18, 15]

/-- `CGROUP_WEIGHT_MIN`. -/
def cgroupWeightMin : ℤ := 1
/-- `CGROUP_WEIGHT_DFL`. -/
def cgroupWeightDfl : ℤ := 100
/-- `CGROUP_WEIGHT_MAX`. -/
def cgroupWeightMax : ℤ := 10000

/-- `compute_cgroup_weight`. -/
def computeCgroupWeight (weight : ℤ) : ℤ :=
  let result := (weight * cgroupWeightDfl + 512) / 1024
  if result < cgroupWeightMin then cgroupWeightMin
  else if result > cgroupWeightMax then cgroupWeightMax
  else result

/-- n2w.sh: the weight that it prints.  For a nice value out of range it prints an error, on
    its standard output as well, and exits with 1. -/
def n2w (niceVal : ℤ) : Option ℤ :=
  if niceVal < -20 ∨ niceVal > 19 then none
  else weights[(niceVal + 20).toNat]?.map computeCgroupWeight

/-- The nice values of the loop. -/
def niceValues : List ℤ := (List.range 40).map fun k : ℕ => (k : ℤ) - 20

/-- One turn of the loop: the difference and the nice value found so far. -/
def closer (inputWeight : ℤ) (found : ℤ × ℤ) (nice : ℤ) : ℤ × ℤ :=
  let diff := inputWeight - (n2w nice).getD 0
  let diff := if diff < 0 then -diff else diff
  if diff < found.1 then (diff, nice) else found

/-- `compute_nice_value` of w2n.sh. -/
def w2n (inputWeight : ℤ) : ℤ := (niceValues.foldl (closer inputWeight) (100000000, -20)).2

/-! ### The table -/

/-- The loop goes through the whole range. -/
theorem mem_niceValues {nice : ℤ} : nice ∈ niceValues ↔ -20 ≤ nice ∧ nice ≤ 19 := by
  rw [niceValues, List.mem_map]
  constructor
  · rintro ⟨k, hk, rfl⟩
    rw [List.mem_range] at hk
    omega
  · intro h
    exact ⟨(nice + 20).toNat, List.mem_range.mpr (by omega), by omega⟩

/-- It goes from -20 upwards. -/
theorem niceValues_sorted : niceValues.Pairwise (· < ·) :=
  List.pairwise_lt_range.map _ fun _ _ h => by omega

/-- A nice value of the range has a weight from 1 to that of nice -20. -/
theorem n2w_of_mem {nice : ℤ} (h : nice ∈ niceValues) :
    ∃ weight, n2w nice = some weight ∧ 1 ≤ weight ∧ weight ≤ 8668 := by
  have hall : (niceValues.all fun nice =>
      (n2w nice).any fun weight => decide (1 ≤ weight ∧ weight ≤ 8668)) = true := by decide
  obtain ⟨weight, hweight, hbounds⟩ :=
    (Option.any_eq_true _ _).mp (List.all_eq_true.mp hall nice h)
  exact ⟨weight, hweight, of_decide_eq_true hbounds⟩

/-- Only a nice value of the range has a weight. -/
theorem mem_of_n2w {nice weight : ℤ} (h : n2w nice = some weight) : nice ∈ niceValues := by
  rw [mem_niceValues]
  by_contra hrange
  rw [n2w, if_pos (by omega)] at h
  exact absurd h nofun

/-! ### The search -/

/-- The difference that the loop compares. -/
def difference (inputWeight nice : ℤ) : ℤ := |inputWeight - (n2w nice).getD 0|

/-- One turn keeps the smaller difference, the earlier one if they are equal. -/
theorem closer_eq (inputWeight : ℤ) (found : ℤ × ℤ) (nice : ℤ) :
    closer inputWeight found nice
      = if difference inputWeight nice < found.1 then (difference inputWeight nice, nice)
        else found := by
  have habs : (if inputWeight - (n2w nice).getD 0 < 0 then -(inputWeight - (n2w nice).getD 0)
      else inputWeight - (n2w nice).getD 0) = difference inputWeight nice := by
    split
    · next h => exact (abs_of_neg h).symm
    · next h => exact (abs_of_nonneg (not_lt.mp h)).symm
  simp only [closer, habs]

/-- The loop keeps what it starts with, or finds the first nice value of least difference. -/
theorem foldl_closer (inputWeight : ℤ) {nices : List ℤ} (hsorted : nices.Pairwise (· < ·))
    (found : ℤ × ℤ) :
    (nices.foldl (closer inputWeight) found = found ∧
      ∀ nice ∈ nices, found.1 ≤ difference inputWeight nice) ∨
    ∃ best ∈ nices, nices.foldl (closer inputWeight) found = (difference inputWeight best, best) ∧
      difference inputWeight best < found.1 ∧ ∀ nice ∈ nices,
        difference inputWeight best ≤ difference inputWeight nice ∧
        (difference inputWeight nice = difference inputWeight best → best ≤ nice) := by
  induction nices generalizing found with
  | nil => exact Or.inl ⟨rfl, by simp⟩
  | cons n nices ih =>
    rw [List.pairwise_cons] at hsorted
    rw [List.foldl_cons, closer_eq]
    by_cases hn : difference inputWeight n < found.1
    · rw [if_pos hn]
      right
      -- the new one is the best so far; a later one may be better still
      rcases ih hsorted.2 (difference inputWeight n, n) with
        ⟨hfold, hall⟩ | ⟨best, hbest, hfold, hlt, hall⟩
      · refine ⟨n, List.mem_cons_self, hfold, hn, List.forall_mem_cons.mpr ⟨?_, ?_⟩⟩
        · exact ⟨le_rfl, fun _ => le_rfl⟩
        · exact fun nice hnice => ⟨hall nice hnice, fun _ => (hsorted.1 nice hnice).le⟩
      · refine ⟨best, List.mem_cons_of_mem _ hbest, hfold, hlt.trans hn,
          List.forall_mem_cons.mpr ⟨⟨hlt.le, fun heq => ?_⟩, hall⟩⟩
        exact absurd heq (ne_of_gt hlt)
    · rw [if_neg hn]
      rcases ih hsorted.2 found with ⟨hfold, hall⟩ | ⟨best, hbest, hfold, hlt, hall⟩
      · exact Or.inl ⟨hfold, List.forall_mem_cons.mpr ⟨not_lt.mp hn, hall⟩⟩
      · have hgt : difference inputWeight best < difference inputWeight n :=
          hlt.trans_le (not_lt.mp hn)
        exact Or.inr ⟨best, List.mem_cons_of_mem _ hbest, hfold, hlt, List.forall_mem_cons.mpr
          ⟨⟨hgt.le, fun heq => absurd heq (ne_of_gt hgt)⟩, hall⟩⟩

/-- The search for a weight from zero on ends at a nice value of the range, the first one of
    the least difference. -/
theorem w2n_least {inputWeight : ℤ} (h : 0 ≤ inputWeight) :
    w2n inputWeight ∈ niceValues ∧ ∀ nice ∈ niceValues,
      difference inputWeight (w2n inputWeight) ≤ difference inputWeight nice ∧
      (difference inputWeight nice = difference inputWeight (w2n inputWeight) →
        w2n inputWeight ≤ nice) := by
  rcases foldl_closer inputWeight niceValues_sorted (100000000, -20) with
    ⟨hfold, hall⟩ | ⟨best, hbest, hfold, -, hall⟩
  · -- the weight is beyond all of the table, the one of nice -20 is the largest
    have hw2n : w2n inputWeight = -20 := by rw [w2n, hfold]
    have hbound : ∀ nice ∈ niceValues, ∃ weight,
        difference inputWeight nice = inputWeight - weight ∧ weight ≤ 8668 := by
      intro nice hnice
      obtain ⟨weight, hweight, hlow, hhigh⟩ := n2w_of_mem hnice
      have hfar := hall nice hnice
      rw [difference, hweight, Option.getD_some] at hfar ⊢
      refine ⟨weight, abs_of_nonneg ?_, hhigh⟩
      by_contra hneg
      rw [abs_of_neg (not_le.mp hneg)] at hfar
      linarith
    have hfirst : difference inputWeight (-20) = inputWeight - 8668 := by
      obtain ⟨weight, hdiff, -⟩ := hbound (-20) (by decide)
      have hweight : n2w (-20) = some 8668 := by decide
      have hfar := hall (-20) (by decide)
      rw [difference, hweight, Option.getD_some] at hfar ⊢
      refine abs_of_nonneg ?_
      by_contra hneg
      rw [abs_of_neg (not_le.mp hneg)] at hfar
      linarith
    rw [hw2n]
    refine ⟨by decide, fun nice hnice => ⟨?_, fun _ => (mem_niceValues.mp hnice).1⟩⟩
    obtain ⟨weight, hdiff, hle⟩ := hbound nice hnice
    rw [hfirst, hdiff]
    linarith
  · have hw2n : w2n inputWeight = best := by rw [w2n, hfold]
    rw [hw2n]
    exact ⟨hbest, hall⟩

/-- **The closest nice value.** For a weight from zero on, w2n.sh prints a nice value whose weight
    is as close to it as that of any other, and the smallest of these. -/
theorem w2n_closest {inputWeight : ℤ} (h : 0 ≤ inputWeight) :
    ∃ weight, n2w (w2n inputWeight) = some weight ∧ ∀ nice weight', n2w nice = some weight' →
      |inputWeight - weight| ≤ |inputWeight - weight'| ∧
      (|inputWeight - weight'| = |inputWeight - weight| → w2n inputWeight ≤ nice) := by
  obtain ⟨hmem, hleast⟩ := w2n_least h
  obtain ⟨weight, hweight, -⟩ := n2w_of_mem hmem
  refine ⟨weight, hweight, fun nice weight' hweight' => ?_⟩
  have hnice := hleast nice (mem_of_n2w hweight')
  rwa [difference, difference, hweight, hweight'] at hnice

/-- The weight 120 lies between those of two nice values. -/
theorem w2n_closest_of_120 :
    ∃ weight, n2w (w2n 120) = some weight ∧ ∀ nice weight', n2w nice = some weight' →
      |120 - weight| ≤ |120 - weight'| ∧
      (|120 - weight'| = |120 - weight| → w2n 120 ≤ nice) :=
  w2n_closest (by decide)

/-- The weight of a nice value survives the way back and forth. -/
theorem n2w_w2n {nice weight : ℤ} (h : n2w nice = some weight) :
    n2w (w2n weight) = some weight := by
  obtain ⟨weight', hweight', hlow, -⟩ := n2w_of_mem (mem_of_n2w h)
  obtain rfl : weight' = weight := Option.some.inj (hweight'.symm.trans h)
  obtain ⟨hmem, hleast⟩ := w2n_least (by omega : 0 ≤ weight')
  obtain ⟨found, hfound, -⟩ := n2w_of_mem hmem
  have hzero := (hleast nice (mem_of_n2w h)).1
  rw [difference, difference, hfound, h, Option.getD_some, Option.getD_some, sub_self, abs_zero,
    abs_nonpos_iff, sub_eq_zero] at hzero
  rw [hfound, hzero]

end Nice

end AieOs
