import AieOs.Kernel.ServiceOrder

namespace AieOs

open Lib

/-!
# Departure order

When every task may run on every CPU, tasks leave the DSQs in stable priority order: a
task with a smaller DSQ number first, and within one DSQ the one enqueued first.
-/

/-- Every dispatch of the run finds every task allowed on its CPU. -/
def SchedEvent.allAllowed (_ : SchedState) : SchedEvent → Prop
  | .dispatch _ allowed => ∀ ptr, allowed ptr = true
  | _                   => True

/-- `a` is ahead of `b`: in a DSQ of smaller number, or enqueued earlier in the same one. -/
def Ahead (a b : UInt64 × DsqEntry) : Prop :=
  dsqNumber a < dsqNumber b ∨ (a.1 = b.1 ∧ a.2.seq < b.2.seq)

section
variable {w : List (UInt64 × DsqEntry)} {s : SchedState}

/-- The waiting tasks are numbered in the order they are listed. -/
theorem Serves.seq_increasing {s : Scx} (h : Serves w s) :
    w.Pairwise fun a b => a.2.seq < b.2.seq := by
  have hseq : (s.inserted.map fun x => x.2.seq).Pairwise (· < ·) := by
    rw [h.seq]
    exact List.pairwise_lt_range
  exact (List.pairwise_map.mp hseq).sublist h.sublist

/-- The task that leaves has nobody ahead of it that may run. -/
theorem not_ahead_of_served {s : Scx} (h : Serves w s) {allowed : TaskPtr → Bool}
    {a b : UInt64 × DsqEntry} (hb : served dsqNumber (mayRun allowed) w = some b) (ha : a ∈ w)
    (hrun : mayRun allowed a = true) : ¬ Ahead a b := by
  obtain ⟨as, bs, hw, -, -, has, hbs⟩ := served_split hb
  have hinc := h.seq_increasing
  rw [hw, List.pairwise_append, List.pairwise_cons] at hinc
  rintro (hlt | ⟨heq, hseq⟩)
  · rw [hw, List.mem_append, List.mem_cons] at ha
    rcases ha with ha | rfl | ha
    · exact absurd hlt (not_lt_of_gt (has a ha hrun))
    · exact absurd hlt (lt_irrefl _)
    · exact absurd hlt (not_lt_of_ge (hbs a ha hrun))
  · have hkey : dsqNumber a = dsqNumber b := by rw [dsqNumber, heq]; rfl
    rw [hw, List.mem_append, List.mem_cons] at ha
    rcases ha with ha | rfl | ha
    · exact absurd hkey (ne_of_gt (has a ha hrun))
    · exact absurd hseq (lt_irrefl _)
    · -- listed after `b`, hence enqueued after it
      exact absurd hseq (not_lt_of_gt (hinc.2.1.1 a ha))

/-- An event lets `b` leave only if no task ahead of it keeps waiting. -/
theorem mem_waitingAfter (h : Serves w s.scx) {e : SchedEvent} (he : e.allAllowed s)
    {a b : UInt64 × DsqEntry} (ha : a ∈ w) (hb : b ∈ w) (hab : Ahead a b)
    (ha' : a ∈ waitingAfter s w e) : b ∈ waitingAfter s w e := by
  cases e with
  | enqueue ctx ptr p enqFlags => exact List.mem_append_left _ hb
  | dispatch cpu allowed =>
    show b ∈ unserved dsqNumber (mayRun allowed) w
    -- only a dispatch lets a task leave
    cases hx : served dsqNumber (mayRun allowed) w with
    | none => rwa [unserved_of_none hx]
    | some x =>
      have hmem : b ∈ x :: unserved dsqNumber (mayRun allowed) w :=
        (perm_unserved hx).mem_iff.mp hb
      rcases List.mem_cons.mp hmem with rfl | hmem
      · exact absurd hab (not_ahead_of_served h hx ha (he _))
      · exact hmem
  | _ => exact List.mem_append_left _ hb

/-- Insertions are numbered from zero on. -/
theorem Serves.seq_lt {s : Scx} (h : Serves w s) {a : UInt64 × DsqEntry} (ha : a ∈ s.inserted) :
    a.2.seq < s.inserted.length := by
  have hmem : a.2.seq ∈ s.inserted.map fun x => x.2.seq :=
    List.mem_map_of_mem (f := fun x => x.2.seq) ha
  rw [h.seq] at hmem
  exact List.mem_range.mp hmem

/-- A task that has left does not come back under its old insertion. -/
theorem mem_of_mem_waitingAfter (h : Serves w s.scx) {e : SchedEvent} {a : UInt64 × DsqEntry}
    (hins : a ∈ s.scx.inserted) (ha : a ∈ waitingAfter s w e) : a ∈ w := by
  cases e with
  | enqueue ctx ptr p enqFlags =>
    rcases List.mem_append.mp ha with ha | ha
    · exact ha
    · -- the new insertion has a number of its own
      have hlt := h.seq_lt hins
      rw [List.mem_singleton.mp ha] at hlt
      exact absurd hlt (lt_irrefl _)
  | dispatch cpu allowed => exact unserved_sublist.subset ha
  | _ => simpa [waitingAfter, insertions] using ha

end

/-- Insertions are never forgotten. -/
theorem mem_inserted_run (m : SchedMaps) (es es' : List SchedEvent) {a : UInt64 × DsqEntry}
    (ha : a ∈ (run SchedState.step (SchedState.attached m) es).scx.inserted) :
    a ∈ (run SchedState.step (SchedState.attached m) (es ++ es')).scx.inserted := by
  induction es' using List.reverseRecOn with
  | nil => simpa using ha
  | append_singleton es' e ih =>
    rw [← List.append_assoc, run_concat, step_inserted]
    exact List.mem_append_left _ ih

/-- Of two tasks that wait at some moment, the one behind waits as long as the other. -/
theorem mem_waiting_run (m : SchedMaps) (es es' : List SchedEvent)
    (h : Throughout SchedState.step SchedEvent.allAllowed
      (run SchedState.step (SchedState.attached m) es) es')
    {a b : UInt64 × DsqEntry}
    (ha : a ∈ (run SchedState.step (SchedState.attached m) es).scx.waiting)
    (hb : b ∈ (run SchedState.step (SchedState.attached m) es).scx.waiting) (hab : Ahead a b)
    (ha' : a ∈ (run SchedState.step (SchedState.attached m) (es ++ es')).scx.waiting) :
    b ∈ (run SchedState.step (SchedState.attached m) (es ++ es')).scx.waiting := by
  induction es' using List.reverseRecOn with
  | nil => simpa using hb
  | append_singleton es' e ih =>
    rw [throughout_concat, ← run_append] at h
    have hserves := serves_run m (es ++ es')
    rw [← List.append_assoc, run_concat, waiting_step hserves] at ha' ⊢
    have hins := mem_inserted_run m es es' ((serves_run m es).sublist.subset ha)
    have hw := mem_of_mem_waitingAfter hserves hins ha'
    exact mem_waitingAfter hserves h.2 hw (ih h.1 hw) hab ha'

/-! ### Draining the queues -/

/-- The CPUs a run dispatches on, in order. -/
def dispatchCpus (es : List SchedEvent) : List Int32 :=
  es.filterMap fun
    | .dispatch cpu _ => some cpu
    | _               => none

/-- The event is not an `ai_sched_enqueue`. -/
def SchedEvent.notEnqueue : SchedEvent → Prop
  | .enqueue .. => False
  | _           => True

section
variable {w : List (UInt64 × DsqEntry)} {s : SchedState}

/-- Where every task may run, a dispatch moves the head of the order of service. -/
theorem dispatch_moves_head (h : Serves w s.scx) {allowed : TaskPtr → Bool}
    (hall : ∀ ptr, allowed ptr = true) (cpu : Int32) :
    (aiSchedDispatch allowed cpu s).scx.moved
        = s.scx.moved ++ ((stableSort dsqNumber w).head?.map fun x => (cpu, x.2)).toList ∧
      stableSort dsqNumber (unserved dsqNumber (mayRun allowed) w)
        = (stableSort dsqNumber w).tail := by
  have hrun : ∀ x ∈ w, mayRun allowed x = true := fun x _ => hall _
  rw [serves_dispatch h]
  cases hx : served dsqNumber (mayRun allowed) w with
  | none =>
    -- a task that waits would be served
    have hnil : w = [] := List.eq_nil_iff_forall_not_mem.mpr fun x hxw => by
      have := served_eq_none.mp hx x hxw
      rw [hrun x hxw] at this
      cases this
    subst hnil
    simp [unserved_of_none hx, stableSort]
  | some x =>
    rw [stableSort_eq_cons hrun hx]
    simp [Scx.moveEntry]

end

/-- A stretch of a run without an enqueue moves the waiting tasks in order of service, one
    for each dispatch. -/
theorem drain_run (m : SchedMaps) (es es' : List SchedEvent)
    (h : Throughout SchedState.step SchedEvent.allAllowed
      (run SchedState.step (SchedState.attached m) es) es')
    (hne : ∀ e ∈ es', e.notEnqueue) :
    (run SchedState.step (SchedState.attached m) (es ++ es')).scx.moved
        = (run SchedState.step (SchedState.attached m) es).scx.moved ++
          (dispatchCpus es').zip ((stableSort dsqNumber
            (run SchedState.step (SchedState.attached m) es).scx.waiting).map Prod.snd) ∧
      stableSort dsqNumber (run SchedState.step (SchedState.attached m) (es ++ es')).scx.waiting
        = (stableSort dsqNumber (run SchedState.step (SchedState.attached m) es).scx.waiting).drop
          (dispatchCpus es').length := by
  induction es' generalizing es with
  | nil => simp [dispatchCpus]
  | cons e es' ih =>
    have hserves := serves_run m es
    obtain ⟨hmoved, hwaiting⟩ := ih (es ++ [e]) (by rw [run_concat]; exact h.2)
      fun e' he' => hne e' (List.mem_cons_of_mem _ he')
    rw [List.append_assoc, List.singleton_append, run_concat, waiting_step hserves]
      at hmoved hwaiting
    rw [hmoved, hwaiting]
    cases e with
    | enqueue ctx ptr p enqFlags => exact (hne _ List.mem_cons_self).elim
    | dispatch cpu allowed =>
      -- the dispatch takes the head, the induction hypothesis the tail
      obtain ⟨hm, hw⟩ := dispatch_moves_head hserves h.1 cpu
      rw [waitingAfter, hw]
      show (aiSchedDispatch allowed cpu _).scx.moved ++ _ = _ ∧ _
      rw [hm]
      have hcpus : dispatchCpus (.dispatch cpu allowed :: es') = cpu :: dispatchCpus es' := rfl
      rw [hcpus]
      cases stableSort dsqNumber (run SchedState.step (SchedState.attached m) es).scx.waiting with
      | nil => simp
      | cons x xs => simp
    | _ => simp [SchedState.step, waitingAfter, insertions, dispatchCpus]

/-- **Departure order is a stable priority order.**  Of two tasks that wait at some moment,
    the one behind does not leave while the other waits; and from every state reached,
    as many dispatches as tasks wait, without an enqueue among them, move them all in
    stable order of their DSQ numbers. -/
theorem ai_sched_departure_order (m : SchedMaps) (es es' : List SchedEvent)
    (h : Throughout SchedState.step SchedEvent.allAllowed (SchedState.attached m) (es ++ es')) :
    (∀ a b, a ∈ (run SchedState.step (SchedState.attached m) es).scx.waiting →
      b ∈ (run SchedState.step (SchedState.attached m) es).scx.waiting → Ahead a b →
      a ∈ (run SchedState.step (SchedState.attached m) (es ++ es')).scx.waiting →
      b ∈ (run SchedState.step (SchedState.attached m) (es ++ es')).scx.waiting ∧
        ∀ cpu, (cpu, b.2) ∉ (run SchedState.step (SchedState.attached m) (es ++ es')).scx.moved) ∧
    ((∀ e ∈ es', e.notEnqueue) →
      (dispatchCpus es').length
        = (run SchedState.step (SchedState.attached m) es).scx.waiting.length →
      (run SchedState.step (SchedState.attached m) (es ++ es')).scx.moved
          = (run SchedState.step (SchedState.attached m) es).scx.moved ++
            (dispatchCpus es').zip ((stableSort dsqNumber
              (run SchedState.step (SchedState.attached m) es).scx.waiting).map Prod.snd) ∧
        (run SchedState.step (SchedState.attached m) (es ++ es')).scx.waiting = []) := by
  have h' := ((throughout_append _ _ _ _ _).mp h).2
  refine ⟨fun a b ha hb hab ha' => ?_, fun hne hlen => ?_⟩
  · have hb' := mem_waiting_run m es es' h' ha hb hab ha'
    refine ⟨hb', fun cpu hmoved => ?_⟩
    -- an insertion is either still waiting or was moved, not both
    have hserves := serves_run m (es ++ es')
    have hnodup := hserves.perm.nodup_iff.mp hserves.entries_nodup
    exact (List.nodup_append.mp hnodup).2.2 _ (List.mem_map_of_mem (f := Prod.snd) hb') _
      (List.mem_map_of_mem (f := Prod.snd) hmoved) rfl
  · obtain ⟨hmoved, hwaiting⟩ := drain_run m es es' h' hne
    refine ⟨hmoved, ?_⟩
    -- as many dispatches as tasks leave none
    have hlength := congrArg List.length hwaiting
    rw [List.length_drop, length_stableSort, length_stableSort, hlen, Nat.sub_self] at hlength
    exact List.eq_nil_of_length_eq_zero hlength

/-- An unclassified task is enqueued, then two with a realtime priority. -/
def mixedEnqueues : List SchedEvent :=
  [.enqueue .quiet 7 (.ordinary 7) 0, .enqueue .quiet 8 { TaskStruct.ordinary 8 with prio := 50 } 0,
    .enqueue .quiet 9 { TaskStruct.ordinary 9 with prio := 50 } 0]

/-- The unclassified task waits while a realtime task does, and leaves last. -/
theorem ai_sched_departure_order_mixed :
    (Dsq.fallback.id, ⟨0, 7, 0, 0⟩) ∈ (run SchedState.step (SchedState.attached .fresh)
      (mixedEnqueues ++ [.dispatch 0 fun _ => true])).scx.waiting ∧
    (run SchedState.step (SchedState.attached .fresh) (mixedEnqueues ++ [.dispatch 0 fun _ => true,
      .dispatch 3 fun _ => true, .dispatch 0 fun _ => true])).scx.waiting = [] := by
  have hall : ∀ ds : List Int32, Throughout SchedState.step SchedEvent.allAllowed
      (run SchedState.step (SchedState.attached .fresh) mixedEnqueues)
      (ds.map fun cpu => .dispatch cpu fun _ => true) := by
    intro ds
    generalize run SchedState.step (SchedState.attached .fresh) mixedEnqueues = s
    induction ds generalizing s with
    | nil => trivial
    | cons cpu ds ih => exact ⟨fun _ => rfl, ih _⟩
  have henq : Throughout SchedState.step SchedEvent.allAllowed (SchedState.attached .fresh)
      mixedEnqueues := ⟨trivial, trivial, trivial, trivial⟩
  constructor
  · exact ((ai_sched_departure_order .fresh mixedEnqueues [.dispatch 0 fun _ => true]
      ((throughout_append _ _ _ _ _).mpr ⟨henq, hall [0]⟩)).1
      (Dsq.perf.id, ⟨2, 9, 0, 0⟩) (Dsq.fallback.id, ⟨0, 7, 0, 0⟩) (by decide) (by decide)
      (.inl (by decide)) (by decide)).1
  · exact ((ai_sched_departure_order .fresh mixedEnqueues
      [.dispatch 0 fun _ => true, .dispatch 3 fun _ => true, .dispatch 0 fun _ => true]
      ((throughout_append _ _ _ _ _).mpr ⟨henq, hall [0, 3, 0]⟩)).2
      (by simp [SchedEvent.notEnqueue]) (by decide)).2

end AieOs
