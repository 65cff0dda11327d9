import AieOs.Lib.Runs
import Mathlib.Data.Multiset.OrderedMonoid

namespace Lib

/-!
# Resources acquired and released

A handle acquires resources and releases them.  Its uses are in order if it releases only
what it holds, and holds nothing at the end.

* `holdings` — what is held after some uses;
* `holdings_outputs` — the ledger of a run: what a handle still refers to, `owned`, and what
  it has lost track of, `lost`, is what it holds;
* `balanced_iff_throughout` — a handle that releases all it refers to at its end is balanced
  exactly if no step loses anything.
-/

/-- A use of a resource. -/
inductive Use (ρ : Type*)
  | acquire (r : ρ)
  | release (r : ρ)
  deriving DecidableEq

variable {σ ε ρ : Type*} [DecidableEq ρ]

/-- What is held after some uses; none if one of them releases what is not held. -/
def holdings (held : Multiset ρ) : List (Use ρ) → Option (Multiset ρ)
  | []               => some held
  | .acquire r :: us => holdings (r ::ₘ held) us
  -- releasing what is not held is a violation, whatever follows
  | .release r :: us => if r ∈ held then holdings (held.erase r) us else none

/-- Only what was acquired and not yet released is released, and in the end all of it is. -/
def Balanced (us : List (Use ρ)) : Prop := holdings 0 us = some 0

/-- Whether uses are balanced is found by going through them. -/
instance decidableBalanced (us : List (Use ρ)) : Decidable (Balanced us) :=
  inferInstanceAs (Decidable (holdings 0 us = some 0))

/-- Nothing has happened yet. -/
@[simp] theorem holdings_nil (held : Multiset ρ) : holdings held [] = some held := rfl

/-- Uses in two parts; a violation in the first one stays. -/
theorem holdings_append (held : Multiset ρ) (us us' : List (Use ρ)) :
    holdings held (us ++ us') = (holdings held us).bind (holdings · us') := by
  induction us generalizing held with
  | nil => rfl
  | cons u us ih =>
    cases u with
    | acquire r => exact ih (r ::ₘ held)
    | release r =>
      rw [List.cons_append, holdings, holdings]
      split
      · exact ih (held.erase r)
      · rfl

/-- Everything that is acquired is held. -/
theorem holdings_acquire (held : Multiset ρ) (rs : List ρ) :
    holdings held (rs.map .acquire) = some (held + (rs : Multiset ρ)) := by
  induction rs generalizing held with
  | nil => simp
  | cons r rs ih =>
    rw [List.map_cons, holdings, ih, ← Multiset.cons_coe, Multiset.cons_add, Multiset.add_cons]

/-- What is held can be released. -/
theorem holdings_release (held : Multiset ρ) (rs : List ρ) :
    holdings (held + (rs : Multiset ρ)) (rs.map .release) = some held := by
  induction rs with
  | nil => simp
  | cons r rs ih =>
    rw [← Multiset.cons_coe, Multiset.add_cons, List.map_cons, holdings,
      if_pos (Multiset.mem_cons_self r _), Multiset.erase_cons_head, ih]

/-- What is never acquired is not released by a balanced handle. -/
theorem Balanced.eq_nil {us : List (Use ρ)} (h : Balanced us) (hus : ∀ r, .acquire r ∉ us) :
    us = [] := by
  cases us with
  | nil => rfl
  | cons u us =>
    cases u with
    | acquire r => exact absurd List.mem_cons_self (hus r)
    | release r => simp [Balanced, holdings] at h

/-- What is never released stays held. -/
theorem mem_holdings {held held' : Multiset ρ} {us : List (Use ρ)} {r : ρ}
    (h : holdings held us = some held') (hr : r ∈ held ∨ .acquire r ∈ us)
    (hus : .release r ∉ us) : r ∈ held' := by
  induction us generalizing held with
  | nil =>
    rw [holdings, Option.some.injEq] at h
    rw [← h]
    exact hr.resolve_right List.not_mem_nil
  | cons u us ih =>
    rw [List.mem_cons, not_or] at hus
    cases u with
    | acquire r' =>
      refine ih h ?_ hus.2
      rw [List.mem_cons, Use.acquire.injEq] at hr
      rw [Multiset.mem_cons]
      tauto
    | release r' =>
      rw [holdings] at h
      split at h
      · refine ih h ?_ hus.2
        rcases hr with hr | hr
        · -- another resource is released, and `r` stays among the held ones
          have hne : r ≠ r' := fun heq => hus.1 (heq ▸ rfl)
          exact .inl ((Multiset.mem_erase_of_ne hne).mpr hr)
        · exact .inr ((List.mem_cons.mp hr).resolve_left (by simp))
      · cases h

/-- What is held was held before, or acquired since. -/
theorem acquire_mem_of_mem_holdings {held held' : Multiset ρ} {us : List (Use ρ)} {r : ρ}
    (h : holdings held us = some held') (hr : r ∈ held') : r ∈ held ∨ .acquire r ∈ us := by
  induction us generalizing held with
  | nil =>
    rw [holdings, Option.some.injEq] at h
    exact .inl (h ▸ hr)
  | cons u us ih =>
    cases u with
    | acquire r' =>
      rcases ih h with hheld | hus
      · rcases Multiset.mem_cons.mp hheld with rfl | hheld
        · exact .inr List.mem_cons_self
        · exact .inl hheld
      · exact .inr (List.mem_cons_of_mem _ hus)
    | release r' =>
      rw [holdings] at h
      split at h
      · rcases ih h with hheld | hus
        · exact .inl (Multiset.mem_of_mem_erase hheld)
        · exact .inr (List.mem_cons_of_mem _ hus)
      · cases h

/-! ### Handles -/

section
variable {step : σ → ε → σ} {uses : σ → ε → List (Use ρ)} {owned : σ → Multiset ρ}
  {lost : σ → ε → Multiset ρ}

/-- What the steps of a run lose. -/
def lostAlong (step : σ → ε → σ) (lost : σ → ε → Multiset ρ) : σ → List ε → Multiset ρ
  | _, []      => 0
  | s, e :: es => lost s e + lostAlong step lost (step s e) es

omit [DecidableEq ρ] in
/-- A run loses nothing iff no step of it does. -/
theorem lostAlong_eq_zero_iff (s : σ) (es : List ε) :
    lostAlong step lost s es = 0 ↔ Throughout step (fun s e => lost s e = 0) s es := by
  induction es generalizing s with
  | nil => exact iff_of_true rfl trivial
  | cons e es ih => rw [lostAlong, add_eq_zero, ih, throughout_cons]

/-- **Ledger.** If every step keeps account of what it holds, a run does. -/
theorem holdings_outputs
    (hstep : ∀ s e held, holdings (held + owned s) (uses s e)
      = some (held + lost s e + owned (step s e)))
    (s : σ) (es : List ε) (held : Multiset ρ) :
    holdings (held + owned s) (outputs step uses s es)
      = some (held + lostAlong step lost s es + owned (run step s es)) := by
  induction es generalizing s held with
  | nil => simp [lostAlong]
  | cons e es ih =>
    -- what the first step loses is held in addition, for the rest of the run
    rw [outputs, holdings_append, hstep, Option.bind_some, ih, lostAlong, run_cons, add_assoc held]

/-- A handle that starts with nothing and releases all it refers to at the end is balanced
    iff no step loses anything. -/
theorem balanced_iff_throughout {final : σ → List (Use ρ)} {s : σ} (h0 : owned s = 0)
    (hstep : ∀ s e held, holdings (held + owned s) (uses s e)
      = some (held + lost s e + owned (step s e)))
    (hfinal : ∀ s held, holdings (held + owned s) (final s) = some held) (es : List ε) :
    Balanced (outputs step uses s es ++ final (run step s es)) ↔
      Throughout step (fun s e => lost s e = 0) s es := by
  have hrun := holdings_outputs hstep s es 0
  rw [h0, zero_add] at hrun
  -- what is held at the very end is what was lost along the way
  rw [Balanced, holdings_append, hrun, Option.bind_some, hfinal, Option.some.injEq, zero_add,
    lostAlong_eq_zero_iff]

end

end Lib
