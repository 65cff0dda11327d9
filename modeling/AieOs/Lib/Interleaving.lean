import AieOs.Lib.Runs

namespace Lib

/-!
# Calls that run step by step

Several calls of a procedure are under way at once, each with a local state `κ`; they take
turns, in any order, in steps that also read and write a shared state `σ`.  In between the
shared state reacts to other events.

* `Interleaved.step` — the system of all interleavings;
* `Interleaved.step_call` — a step changes one call and the shared state.
-/

variable {ι σ κ ε : Type*}

/-- A shared state and the calls made so far. -/
structure Interleaved (σ κ : Type*) where
  shared : σ
  calls : List κ

/-- A call is made, the `i`-th one takes a step, or something else happens. -/
inductive CallEvent (ι ε : Type*)
  | enter (args : ι)
  | step (i : ℕ)
  | other (e : ε)

namespace Interleaved

/-- The effect of one event. -/
def step (start : ι → κ) (callStep : κ → σ → κ × σ) (react : σ → ε → σ) (s : Interleaved σ κ) :
    CallEvent ι ε → Interleaved σ κ
  | .enter args => { s with calls := s.calls ++ [start args] }
  | .step i     =>
    match s.calls[i]? with
    -- there is no such call
    | none      => s
    | some call => ⟨(callStep call s.shared).2, s.calls.set i (callStep call s.shared).1⟩
  | .other e    => { s with shared := react s.shared e }

/-- The place of a call in the list. -/
theorem exists_append_of_getElem? {calls : List κ} {i : ℕ} {call : κ} (h : calls[i]? = some call) :
    ∃ pre post, calls = pre ++ call :: post ∧
      ∀ call', calls.set i call' = pre ++ call' :: post := by
  obtain ⟨hlt, rfl⟩ := List.getElem?_eq_some_iff.mp h
  refine ⟨calls.take i, calls.drop (i + 1), ?_, fun call' => ?_⟩
  · rw [← List.drop_eq_getElem_cons hlt, List.take_append_drop]
  · rw [List.set_eq_take_append_cons_drop, if_pos hlt]

/-- A step of a call changes that call and the shared state. -/
theorem step_call {start : ι → κ} {callStep : κ → σ → κ × σ} {react : σ → ε → σ}
    {s : Interleaved σ κ} {i : ℕ} {call : κ} (h : s.calls[i]? = some call) :
    ∃ pre post, s.calls = pre ++ call :: post ∧
      s.step start callStep react (.step i)
        = ⟨(callStep call s.shared).2, pre ++ (callStep call s.shared).1 :: post⟩ := by
  obtain ⟨pre, post, hcalls, hset⟩ := exists_append_of_getElem? h
  refine ⟨pre, post, hcalls, ?_⟩
  simp only [step, h, hset]

end Interleaved

end Lib
