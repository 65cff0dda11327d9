import AieOs.Kernel.Departure

namespace AieOs

open Lib

/-!
# Bounded waiting

A waiting task is passed over by a CPU that may run it only for a task ahead of it, and only
an enqueue into a DSQ of a smaller number puts another task ahead of it.  So the times it
is passed over are at most the tasks ahead of it when the count starts, and those that
overtake it later: `bounded_waiting`.  The CPUs on which other tasks may run play no part.
-/

/-- Who is ahead is seen at queue and ticket. -/
instance Ahead.decidable (a b : UInt64 × DsqEntry) : Decidable (Ahead a b) :=
  inferInstanceAs (Decidable (_ ∨ _))

/-- How many of the waiting tasks are ahead of `x`. -/
def aheadOf (x : UInt64 × DsqEntry) (w : List (UInt64 × DsqEntry)) : ℕ :=
  w.countP fun a => Ahead a x

/-- A CPU that may run `x` asks for a task. -/
def SchedEvent.turnOf (x : UInt64 × DsqEntry) : SchedEvent → Bool
  | .dispatch _ allowed => allowed x.2.task
  | _                   => false

/-- The insertions of an event that overtake `x`. -/
def overtaking (x : UInt64 × DsqEntry) (s : SchedState) (e : SchedEvent) :
    List (UInt64 × DsqEntry) :=
  (insertions s e).filter fun a => dsqNumber a < dsqNumber x

section
variable {w : List (UInt64 × DsqEntry)} {s : SchedState} {x : UInt64 × DsqEntry}

/-- No insertion waits twice. -/
theorem Serves.nodup {s : Scx} (h : Serves w s) : w.Nodup :=
  (List.Nodup.of_map Prod.snd h.entries_nodup).sublist h.sublist

/-- Of two waiting tasks, one is ahead of the other. -/
theorem Serves.ahead_total {s : Scx} (h : Serves w s) {a b : UInt64 × DsqEntry} (ha : a ∈ w)
    (hb : b ∈ w) (hab : a ≠ b) : Ahead a b ∨ Ahead b a := by
  rcases lt_trichotomy (dsqNumber a) (dsqNumber b) with hlt | heq | hgt
  · exact .inl (.inl hlt)
  · have hdsq : a.1 = b.1 := UInt64.toNat_inj.mp heq
    have hseq : a.2.seq ≠ b.2.seq := fun hseq => by
      have hnd : (w.map fun y => y.2.seq).Nodup :=
        (List.pairwise_map.mpr h.seq_increasing).imp ne_of_lt
      exact hab (List.inj_on_of_nodup_map hnd ha hb hseq)
    rcases Nat.lt_or_gt_of_ne hseq with hlt | hgt
    · exact .inl (.inr ⟨hdsq, hlt⟩)
    · exact .inr (.inr ⟨hdsq.symm, hgt⟩)
  · exact .inr (.inl hgt)

/-- A new insertion is ahead of a waiting task iff its DSQ has a smaller number. -/
theorem aheadOf_insertions (h : Serves w s.scx) (hx : x ∈ w) (e : SchedEvent) :
    aheadOf x (insertions s e) = (overtaking x s e).length := by
  rw [aheadOf, overtaking, List.countP_eq_length_filter]
  refine congrArg List.length (List.filter_congr fun a ha => decide_eq_decide.mpr ?_)
  have hlt := h.seq_lt (h.sublist.subset hx)
  cases e with
  | enqueue ctx ptr p enqFlags =>
    obtain rfl := List.mem_singleton.mp ha
    constructor
    · rintro (hlt' | ⟨-, hseq⟩)
      · exact hlt'
      · -- the new insertion has the largest number
        exact absurd hseq (Nat.not_lt_of_gt hlt)
    · exact .inl
  | _ => exact absurd ha List.not_mem_nil

/-- **One event.** While `x` waits, a turn of it takes a task from ahead of it. -/
theorem aheadOf_waitingAfter (h : Serves w s.scx) (hx : x ∈ w) {e : SchedEvent}
    (hx' : x ∈ waitingAfter s w e) :
    (if e.turnOf x then 1 else 0) + aheadOf x (waitingAfter s w e)
      ≤ aheadOf x w + (overtaking x s e).length := by
  have hgrow : aheadOf x (w ++ insertions s e) = aheadOf x w + (overtaking x s e).length := by
    rw [← aheadOf_insertions h hx, aheadOf, List.countP_append]
    rfl
  cases e with
  | dispatch cpu allowed =>
    have hnone : (overtaking x s (.dispatch cpu allowed)).length = 0 := rfl
    change (if allowed x.2.task then 1 else 0) + aheadOf x (unserved _ _ w) ≤ _
    rw [hnone, Nat.add_zero]
    cases hb : served dsqNumber (mayRun allowed) w with
    | none =>
      -- nobody that waits may run there, so this is no turn of `x`
      have hskip : allowed x.2.task = false := served_eq_none.mp hb x hx
      rw [unserved_of_none hb, hskip, if_neg Bool.false_ne_true, Nat.zero_add]
    | some b =>
      have hperm := perm_unserved hb
      have hbw : b ∈ w := hperm.mem_iff.mpr List.mem_cons_self
      have hcount : aheadOf x w
          = aheadOf x (unserved dsqNumber (mayRun allowed) w) + if Ahead b x then 1 else 0 := by
        rw [aheadOf, hperm.countP_eq, List.countP_cons]
        simp only [aheadOf, decide_eq_true_eq]
      rw [hcount]
      by_cases hturn : allowed x.2.task = true
      · -- `b` left though `x` might have, so `b` was ahead
        have hne : b ≠ x := by
          rintro rfl
          have hnd := hperm.nodup_iff.mp h.nodup
          exact (List.nodup_cons.mp hnd).1 hx'
        have hahead : Ahead b x := (h.ahead_total hbw hx hne).resolve_right
          (not_ahead_of_served h hb hx hturn)
        rw [if_pos hturn, if_pos hahead]
        omega
      · rw [if_neg hturn]
        omega
  | enqueue ctx ptr p enqFlags =>
    change 0 + aheadOf x (w ++ insertions s (.enqueue ctx ptr p enqFlags)) ≤ _
    rw [hgrow, Nat.zero_add]
  | _ =>
    rw [waitingAfter, SchedEvent.turnOf, if_neg Bool.false_ne_true, hgrow, Nat.zero_add]
    all_goals
      intro cpu' allowed heq
      cases heq

end

/-- **Bounded waiting.** From any state reached, as long as a task waits, the times that a CPU
    that may run it takes another one are at most the tasks ahead of it at first and the
    later insertions into DSQs of smaller numbers. -/
theorem bounded_waiting (m : SchedMaps) (es es' : List SchedEvent) {x : UInt64 × DsqEntry}
    (hx : x ∈ (run SchedState.step (SchedState.attached m) es).scx.waiting)
    (hx' : x ∈ (run SchedState.step (SchedState.attached m) (es ++ es')).scx.waiting) :
    es'.countP (SchedEvent.turnOf x)
      ≤ aheadOf x (run SchedState.step (SchedState.attached m) es).scx.waiting
        + (outputs SchedState.step (overtaking x)
            (run SchedState.step (SchedState.attached m) es) es').length := by
  -- what is still ahead of the task counts on the left
  suffices hle : es'.countP (SchedEvent.turnOf x)
        + aheadOf x (run SchedState.step (SchedState.attached m) (es ++ es')).scx.waiting
      ≤ aheadOf x (run SchedState.step (SchedState.attached m) es).scx.waiting
        + (outputs SchedState.step (overtaking x)
            (run SchedState.step (SchedState.attached m) es) es').length by omega
  induction es' using List.reverseRecOn with
  | nil => simp
  | append_singleton es' e ih =>
    have hserves := serves_run m (es ++ es')
    have hins := mem_inserted_run m es es' ((serves_run m es).sublist.subset hx)
    rw [← List.append_assoc, run_concat, waiting_step hserves] at hx' ⊢
    -- who waits after the last event has waited before it
    have hmid := mem_of_mem_waitingAfter hserves hins hx'
    have hstep := aheadOf_waitingAfter hserves hmid hx'
    have hprev := ih hmid
    rw [outputs_concat, List.length_append, ← run_append, List.countP_append,
      List.countP_singleton]
    omega

/-- The unclassified task is passed over twice, for the two realtime tasks. -/
theorem bounded_waiting_mixed :
    [SchedEvent.dispatch 0 fun _ => true, .dispatch 3 fun _ => true].countP
        (SchedEvent.turnOf (Dsq.fallback.id, ⟨0, 7, 0, 0⟩))
      ≤ aheadOf (Dsq.fallback.id, ⟨0, 7, 0, 0⟩)
          (run SchedState.step (SchedState.attached .fresh) mixedEnqueues).scx.waiting
        + (outputs SchedState.step (overtaking (Dsq.fallback.id, ⟨0, 7, 0, 0⟩))
            (run SchedState.step (SchedState.attached .fresh) mixedEnqueues)
            [.dispatch 0 fun _ => true, .dispatch 3 fun _ => true]).length :=
  bounded_waiting .fresh mixedEnqueues [.dispatch 0 fun _ => true, .dispatch 3 fun _ => true]
    (by decide) (by decide)

end AieOs
