import Mathlib.Data.List.Induction
import Mathlib.Data.List.Infix
import Mathlib.Tactic.TypeStar

namespace Lib

/-!
# Runs of an event-driven system

A system is a total reaction `step : σ → ε → σ` to the events of its environment.  A
run is the list of events delivered to it.  What the environment promises, and any
other condition that speaks about an event and the state it is delivered in, is a
relation `C : σ → ε → Prop`, required of every event of the run by `Throughout`.

* `run_induction` — an inductive invariant holds after every run;
* `history_induction` — the same for a relation between the events delivered so far
  and the state they lead to;
* `always_iff_throughout` — the exact-condition rule: a property holds in every state
  of the run iff no event of it breaks the condition;
* `outputs` — what the steps of a run emit, in order.
-/

variable {σ ε ω : Type*}

/-- The state reached from `s` by the events `es`. -/
def run (step : σ → ε → σ) (s : σ) (es : List ε) : σ := es.foldl step s

/-- Every event of the run meets `C` in the state in which it is delivered. -/
def Throughout (step : σ → ε → σ) (C : σ → ε → Prop) : σ → List ε → Prop
  | _, []      => True
  | s, e :: es => C s e ∧ Throughout step C (step s e) es

/-- Whether a run meets a decidable condition can be decided by running it. -/
instance Throughout.decidable (step : σ → ε → σ) (C : σ → ε → Prop) [∀ s e, Decidable (C s e)] :
    ∀ s es, Decidable (Throughout step C s es)
  | _, []      => .isTrue trivial
  | s, e :: es =>
    have := Throughout.decidable step C (step s e) es
    inferInstanceAs (Decidable (C s e ∧ Throughout step C (step s e) es))

/-- `P` holds in every state of the run: after each of its prefixes. -/
def Always (step : σ → ε → σ) (P : σ → Prop) (s : σ) (es : List ε) : Prop :=
  ∀ pre, pre <+: es → P (run step s pre)

/-- What the steps of a run emit, in order. -/
def outputs (step : σ → ε → σ) (out : σ → ε → List ω) : σ → List ε → List ω
  | _, []      => []
  | s, e :: es => out s e ++ outputs step out (step s e) es

section
variable (step : σ → ε → σ)

/-! ### Extending a run by one event -/

/-- A run without events stays where it is. -/
@[simp] theorem run_nil (s : σ) : run step s [] = s := rfl

/-- A run takes its first event first. -/
@[simp] theorem run_cons (s : σ) (e : ε) (es : List ε) :
    run step s (e :: es) = run step (step s e) es := rfl

/-- A run in two parts. -/
theorem run_append (s : σ) (es es' : List ε) :
    run step s (es ++ es') = run step (run step s es) es' := by
  simp [run, List.foldl_append]

/-- A run takes its last event last. -/
@[simp] theorem run_concat (s : σ) (es : List ε) (e : ε) :
    run step s (es ++ [e]) = step (run step s es) e := by
  rw [run_append]; rfl

/-- Every condition holds throughout a run without events. -/
@[simp] theorem throughout_nil (C : σ → ε → Prop) (s : σ) : Throughout step C s [] := trivial

/-- A condition throughout a run, by its first event. -/
@[simp] theorem throughout_cons (C : σ → ε → Prop) (s : σ) (e : ε) (es : List ε) :
    Throughout step C s (e :: es) ↔ C s e ∧ Throughout step C (step s e) es := Iff.rfl

/-- A condition throughout a run in two parts. -/
theorem throughout_append (C : σ → ε → Prop) (s : σ) (es es' : List ε) :
    Throughout step C s (es ++ es') ↔
      Throughout step C s es ∧ Throughout step C (run step s es) es' := by
  induction es generalizing s with
  | nil => simp
  | cons e es ih => simp [ih, and_assoc]

/-- A condition throughout a run, by its last event. -/
@[simp] theorem throughout_concat (C : σ → ε → Prop) (s : σ) (es : List ε) (e : ε) :
    Throughout step C s (es ++ [e]) ↔
      Throughout step C s es ∧ C (run step s es) e := by
  rw [throughout_append]; simp

/-- A run without events emits nothing. -/
@[simp] theorem outputs_nil (out : σ → ε → List ω) (s : σ) : outputs step out s [] = [] := rfl

/-- The outputs of a run in two parts. -/
theorem outputs_append (out : σ → ε → List ω) (s : σ) (es es' : List ε) :
    outputs step out s (es ++ es')
      = outputs step out s es ++ outputs step out (run step s es) es' := by
  induction es generalizing s with
  | nil => rfl
  | cons e es ih => simp [outputs, ih]

/-- The outputs of a run, by its last event. -/
@[simp] theorem outputs_concat (out : σ → ε → List ω) (s : σ) (es : List ε) (e : ε) :
    outputs step out s (es ++ [e]) = outputs step out s es ++ out (run step s es) e := by
  rw [outputs_append, outputs, outputs, List.append_nil]

/-- A property of all outputs of a run is a condition on its events. -/
theorem forall_mem_outputs (out : σ → ε → List ω) (Q : ω → Prop) (s : σ) (es : List ε) :
    (∀ o ∈ outputs step out s es, Q o) ↔
      Throughout step (fun s e => ∀ o ∈ out s e, Q o) s es := by
  induction es generalizing s with
  | nil => simp
  | cons e es ih => simp only [outputs, List.forall_mem_append, throughout_cons, ih]

/-- A condition on the events alone is one on the list of events. -/
theorem throughout_iff_forall_mem (Q : ε → Prop) (s : σ) (es : List ε) :
    Throughout step (fun _ e => Q e) s es ↔ ∀ e ∈ es, Q e := by
  induction es generalizing s with
  | nil => simp
  | cons e es ih => rw [throughout_cons, List.forall_mem_cons, ih]

end

variable {step : σ → ε → σ} {C D : σ → ε → Prop} {s : σ} {es : List ε}

/-- What holds of every event in every state holds throughout. -/
theorem throughout_of_forall (h : ∀ s e, C s e) : Throughout step C s es := by
  induction es generalizing s with
  | nil => trivial
  | cons e es ih => exact ⟨h s e, ih⟩

/-- Conditions that agree hold throughout together. -/
theorem throughout_congr (h : ∀ s e, C s e ↔ D s e) :
    Throughout step C s es ↔ Throughout step D s es := by
  induction es generalizing s with
  | nil => exact Iff.rfl
  | cons e es ih => exact and_congr (h s e) ih

/-- A weaker condition holds throughout as well. -/
theorem Throughout.mono (h : Throughout step C s es) (hCD : ∀ s e, C s e → D s e) :
    Throughout step D s es := by
  induction es generalizing s with
  | nil => trivial
  | cons e es ih => exact ⟨hCD s e h.1, ih h.2⟩

/-- A condition that is weaker wherever an invariant of the run holds. -/
theorem Throughout.mono_of_invariant {I : σ → Prop} (h : Throughout step C s es) (h0 : I s)
    (hstep : ∀ s e, I s → C s e → I (step s e)) (hCD : ∀ s e, I s → C s e → D s e) :
    Throughout step D s es := by
  induction es generalizing s with
  | nil => trivial
  | cons e es ih => exact ⟨hCD s e h0 h.1, ih h.2 (hstep s e h0 h.1)⟩

/-- Conditions that agree wherever an invariant holds, hold throughout together. -/
theorem throughout_congr_of_invariant {I : σ → Prop} (h0 : I s)
    (hstep : ∀ s e, I s → C s e → I (step s e)) (h : ∀ s e, I s → (C s e ↔ D s e)) :
    Throughout step C s es ↔ Throughout step D s es :=
  ⟨fun hC => hC.mono_of_invariant h0 hstep fun s e hI => (h s e hI).mp,
    fun hD => hD.mono_of_invariant h0 (fun s e hI he => hstep s e hI ((h s e hI).mpr he))
      fun s e hI => (h s e hI).mpr⟩

/-! ### Induction along a run -/

/-- **History rule.** A relation between the events delivered so far and the state is
    kept by the whole run if every step keeps it. -/
theorem history_induction {P : List ε → σ → Prop} (h0 : P [] s)
    (hstep : ∀ es e, P es (run step s es) → C (run step s es) e →
      P (es ++ [e]) (step (run step s es) e))
    (h : Throughout step C s es) : P es (run step s es) := by
  -- from the end of the run: the history grows there
  induction es using List.reverseRecOn with
  | nil => exact h0
  | append_singleton es e ih =>
    rw [throughout_concat] at h
    rw [run_concat]
    exact hstep es e (ih h.1) h.2

/-- **Invariant rule.** -/
theorem run_induction {I : σ → Prop} (h0 : I s) (hstep : ∀ s e, I s → C s e → I (step s e))
    (h : Throughout step C s es) : I (run step s es) := by
  induction es generalizing s with
  | nil => exact h0
  | cons e es ih => exact ih (hstep s e h0 h.1) h.2

/-- **Simulation rule.** If every step is matched by some steps of another system, a run is
    matched by these in their order. -/
theorem simulation_run {τ υ : Type*} {step' : τ → υ → τ} {matching : σ → ε → List υ}
    {R : σ → τ → Prop} {t : τ} (h0 : R s t)
    (hstep : ∀ s t e, R s t → C s e → R (step s e) (run step' t (matching s e)))
    (h : Throughout step C s es) :
    R (run step s es) (run step' t (outputs step matching s es)) := by
  induction es generalizing s t with
  | nil => exact h0
  | cons e es ih =>
    -- the matching steps of the first event come first
    rw [run_cons, outputs, run_append]
    exact ih (hstep s t e h0 h.1) h.2

/-- **Exact-condition rule.** Let `I` be kept by the steps that meet `D` and let every
    step that breaks `D` break `P`, which `I` entails.  Then `P` holds in every state of
    the run iff the run meets `D` throughout. -/
theorem always_iff_throughout {I P : σ → Prop} (h0 : I s) (hIP : ∀ s, I s → P s)
    (hkeep : ∀ s e, I s → C s e → D s e → I (step s e))
    (hbreak : ∀ s e, I s → C s e → ¬ D s e → ¬ P (step s e))
    (h : Throughout step C s es) :
    Always step P s es ↔ Throughout step D s es := by
  induction es generalizing s with
  | nil =>
    refine ⟨fun _ => trivial, fun _ pre hpre => ?_⟩
    rw [List.prefix_nil.mp hpre]
    exact hIP s h0
  | cons e es ih =>
    constructor
    · intro hP
      have hD : D s e := by
        -- the step that breaks `D` breaks `P` in the state right after it
        by_contra hD
        exact hbreak s e h0 h.1 hD (hP [e] (List.prefix_append [e] es))
      refine ⟨hD, (ih (hkeep s e h0 h.1 hD) h.2).mp fun pre hpre => ?_⟩
      exact hP (e :: pre) ((List.prefix_cons_inj e).mpr hpre)
    · rintro ⟨hD, hrest⟩ pre hpre
      cases pre with
      | nil => exact hIP s h0
      | cons e' pre =>
        -- a longer prefix starts with the same event, which keeps `I`
        obtain ⟨rfl, hpre'⟩ := List.cons_prefix_cons.mp hpre
        exact (ih (hkeep s _ h0 h.1 hD) h.2).mpr hrest pre hpre'

/-- The exact-condition rule where the environment may do anything. -/
theorem always_iff_throughout_of_any {I P : σ → Prop} (h0 : I s) (hIP : ∀ s, I s → P s)
    (hkeep : ∀ s e, I s → D s e → I (step s e))
    (hbreak : ∀ s e, I s → ¬ D s e → ¬ P (step s e)) :
    Always step P s es ↔ Throughout step D s es :=
  always_iff_throughout (C := fun _ _ => True) h0 hIP (fun s e hI _ => hkeep s e hI)
    (fun s e hI _ => hbreak s e hI) (throughout_of_forall fun _ _ => trivial)

end Lib
