import AieOs.Lib.Runs

namespace Lib

/-!
# Fair schedules

A schedule is an endless sequence of events, each the turn of some parties; it is fair if
every party gets its turn again and again.

* `stateAt` — the states along a schedule;
* `exists_stateAt_of_helpful` — the rule for what must happen: in every state one party is
  helpful, its turn lowers a rank, and in the meantime it stays helpful.
-/

variable {σ ε π : Type*}

/-- The state before the `n`-th event. -/
def stateAt (step : σ → ε → σ) (s : σ) (f : ℕ → ε) : ℕ → σ
  | 0     => s
  | n + 1 => step (stateAt step s f n) (f n)

/-- Every party gets its turn again and again. -/
def Fair (turn : ε → π → Prop) (f : ℕ → ε) : Prop := ∀ p n, ∃ m, turn (f (n + m)) p

section
variable {step : σ → ε → σ} {turn : ε → π → Prop} {f : ℕ → ε} {s : σ}

/-- A schedule in two parts. -/
theorem stateAt_add (s : σ) (f : ℕ → ε) (n m : ℕ) :
    stateAt step s f (n + m) = stateAt step (stateAt step s f n) (fun k => f (n + k)) m := by
  induction m with
  | zero => rfl
  | succ m ih =>
    show step (stateAt step s f (n + m)) (f (n + m)) = step _ _
    rw [ih]

/-- A schedule after its first event. -/
theorem stateAt_succ (s : σ) (f : ℕ → ε) (n : ℕ) :
    stateAt step s f (n + 1) = stateAt step (step s (f 0)) (fun k => f (k + 1)) n := by
  rw [Nat.add_comm, stateAt_add]
  simp only [Nat.add_comm 1]
  rfl

/-- A fair schedule is fair from every point on. -/
theorem Fair.shift (h : Fair turn f) (n : ℕ) : Fair turn fun k => f (n + k) := by
  intro p k
  obtain ⟨m, hm⟩ := h p (n + k)
  refine ⟨m, ?_⟩
  show turn (f (n + (k + m))) p
  rwa [← Nat.add_assoc]

variable {I Q : σ → Prop} {rank : σ → ℕ} {helpful : σ → π}

/-- Until the turn of the helpful party, at the latest, the rank is lowered. -/
theorem exists_rank_lt
    (hstep : ∀ s e, I s → ¬ Q s → I (step s e) ∧ (rank (step s e) < rank s ∨
      rank (step s e) = rank s ∧ helpful (step s e) = helpful s ∧ ¬ turn e (helpful s)))
    (hI : I s) {m : ℕ} (hturn : turn (f m) (helpful s)) :
    ∃ n, Q (stateAt step s f n) ∨
      I (stateAt step s f n) ∧ rank (stateAt step s f n) < rank s := by
  -- by induction on how long the helpful party still waits for its turn
  induction m generalizing s f with
  | zero =>
    by_cases hQ : Q s
    · exact ⟨0, .inl hQ⟩
    · obtain ⟨hI', hlt | ⟨-, -, hnot⟩⟩ := hstep s (f 0) hI hQ
      · exact ⟨1, .inr ⟨hI', hlt⟩⟩
      · exact absurd hturn hnot
  | succ m ih =>
    by_cases hQ : Q s
    · exact ⟨0, .inl hQ⟩
    · obtain ⟨hI', hlt | ⟨hrank, hhelpful, -⟩⟩ := hstep s (f 0) hI hQ
      · exact ⟨1, .inr ⟨hI', hlt⟩⟩
      · -- the rank has not changed, and the same party is still helpful
        rw [← hhelpful] at hturn
        obtain ⟨n, hn⟩ := @ih (fun k => f (k + 1)) (step s (f 0)) hI' hturn
        refine ⟨n + 1, ?_⟩
        rwa [stateAt_succ, ← hrank]

/-- **Helpful parties.** On a fair schedule the goal is reached. -/
theorem exists_stateAt_of_helpful
    (hstep : ∀ s e, I s → ¬ Q s → I (step s e) ∧ (rank (step s e) < rank s ∨
      rank (step s e) = rank s ∧ helpful (step s e) = helpful s ∧ ¬ turn e (helpful s)))
    (hI : I s) (hf : Fair turn f) : ∃ n, Q (stateAt step s f n) := by
  -- the rank is lowered again and again, until the goal is reached
  induction hrank : rank s using Nat.strong_induction_on generalizing s f with
  | _ r ih =>
    obtain ⟨m, hturn⟩ := hf (helpful s) 0
    rw [Nat.zero_add] at hturn
    obtain ⟨n, hQ | ⟨hI', hlt⟩⟩ := exists_rank_lt hstep hI hturn
    · exact ⟨n, hQ⟩
    · obtain ⟨k, hk⟩ := ih _ (hrank ▸ hlt) hI' (hf.shift n) rfl
      exact ⟨n + k, by rwa [stateAt_add]⟩

end

end Lib
