import Mathlib.Data.List.Forall2
import Mathlib.Data.List.Nodup
import Mathlib.Data.List.Range

namespace Lib

/-!
# Places in a log

A log grows at its end, so an element that was appended keeps its place, and places tell
equal elements apart.  `Places l is xs` says that the elements `xs` are those of the log
`l` at the places `is`.  Places `done` and `todo` that together are all places of the log
account for every element: each is in one of the two, once.
-/

variable {α : Type*}

/-- The elements `xs` are those of the log `l` at the places `is`. -/
def Places (l : List α) (is : List ℕ) (xs : List α) : Prop :=
  List.Forall₂ (fun i x => l[i]? = some x) is xs

namespace Places

variable {l xs ys : List α} {is js : List ℕ}

/-- No elements at no places. -/
theorem nil : Places l [] [] := List.Forall₂.nil

/-- There are as many places as elements. -/
theorem length_eq (h : Places l is xs) : is.length = xs.length := List.Forall₂.length_eq h

/-- Elements of two lists of places. -/
theorem append (h : Places l is xs) (h' : Places l js ys) : Places l (is ++ js) (xs ++ ys) :=
  List.rel_append h h'

/-- Places stay when the log grows. -/
theorem of_grow (h : Places l is xs) (new : List α) : Places (l ++ new) is xs := by
  apply List.Forall₂.imp _ h
  intro i x hx
  obtain ⟨hi, -⟩ := List.getElem?_eq_some_iff.mp hx
  rwa [List.getElem?_append_left hi]

/-- The new elements have the places after the old ones. -/
theorem new (l new : List α) :
    Places (l ++ new) (List.range' l.length new.length) new := by
  induction new generalizing l with
  | nil => exact nil
  | cons x new ih =>
    rw [List.length_cons, List.range'_succ]
    apply List.Forall₂.cons
    · simp
    · -- the first new element makes the log longer by one, and the others follow it
      have htail := ih (l ++ [x])
      rwa [List.length_append, List.length_singleton, List.append_assoc,
        List.singleton_append] at htail

/-- Elements at some places, followed by all new ones. -/
theorem grow (h : Places l is xs) (new : List α) :
    Places (l ++ new) (is ++ List.range' l.length new.length) (xs ++ new) :=
  (h.of_grow new).append (Places.new l new)

end Places

/-- The places of a grown log. -/
theorem range_length_append (l new : List α) :
    List.range (l ++ new).length
      = List.range l.length ++ List.range' l.length new.length := by
  rw [List.length_append, List.range_eq_range', List.range_eq_range', ← List.range'_append_1,
    Nat.zero_add]

/-- Places that together are `0, …, n - 1` are each among exactly one of the two, once. -/
theorem count_of_append_eq_range {isDone todo : List ℕ} {n : ℕ}
    (h : isDone ++ todo = List.range n) {i : ℕ} (hi : i < n) :
    isDone.count i ≤ 1 ∧ (isDone.count i = 1 ↔ i ∉ todo) := by
  -- each place is once among `0, …, n - 1`
  have hone : isDone.count i + todo.count i = 1 := by
    rw [← List.count_append, h]
    exact List.count_eq_one_of_mem List.nodup_range (List.mem_range.mpr hi)
  refine ⟨by omega, ?_⟩
  rw [← List.count_eq_zero (a := i) (l := todo)]
  omega

end Lib
