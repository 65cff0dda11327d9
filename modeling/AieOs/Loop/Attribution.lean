import AieOs.Kernel.Telemetry
import AieOs.Daemon.Classifier
import AieOs.Loop.DecisionStore

namespace AieOs

open Lib

/-!
# Whose metrics, whose decision

Telemetry records and decisions name a process by a pid, computed in three places: from
the task running on the CPU in `emit_telemetry`, from the thread id of the child in
`handle_sched_fork`, and from the tgid of the task to be enqueued in `ai_sched_enqueue`.
The feedback loop — records submitted, classified by the daemon, decisions pushed and
applied — attributes metrics to the right process exactly if these agree.
-/

/-- A telemetry record and the process (tgid) whose metrics it holds. -/
structure SourcedRecord where
  record : AiTaskTelemetry
  tgid : UInt32
  deriving DecidableEq

/-- The feedback loop. -/
structure LoopState where
  /-- The scheduler; the origin of a stored decision is the record it was computed from. -/
  traced : TracedSched SourcedRecord
  telemetry : TelemetryMaps
  /-- All records submitted so far. -/
  submitted : List SourcedRecord
  /-- The decisions computed and not yet pushed, each with its record. -/
  pending : List (AiSchedDecision × SourcedRecord)

/-- One event of the feedback loop. -/
inductive LoopEvent
  /-- `ai_sched_enqueue`, with any task running on the CPU. -/
  | enqueue (ctx : HookCtx) (ptr : TaskPtr) (p : TaskStruct) (enqFlags : UInt64)
  /-- `handle_sched_fork`.  The tgid of the child is its own thread id if it is a new
      process, and that of its parent if it is a new thread. -/
  | fork (args : SchedProcessForkArgs) (childTgid : UInt32) (reserved : Option AiTaskTelemetry)
  /-- The daemon classifies the `i`-th record submitted. -/
  | classify (i : ℕ) (ts : Timespec)
  /-- The daemon pushes its pending decisions. -/
  | push

namespace LoopState

/-- Nothing submitted, nothing decided. -/
def start : LoopState := ⟨TracedSched.attached, .fresh, [], []⟩

/-- The effect of one event. -/
def step (s : LoopState) : LoopEvent → LoopState
  | .enqueue ctx ptr p enqFlags    =>
    { s with
      traced := s.traced.enqueue ctx ptr p enqFlags
      submitted := s.submitted ++ ((emittedRecord ctx p).map (⟨·, p.tgid⟩)).toList }
  | .fork args childTgid reserved  =>
    { s with
      telemetry := handleSchedFork args reserved s.telemetry
      submitted := s.submitted ++ (reserved.map (⟨forkRecord args ·, childTgid⟩)).toList }
  | .classify i ts                 =>
    match s.submitted[i]? with
    | none   => s
    | some r =>
      -- the buffer that `classify` fills in does not matter, so a zeroed one will do
      match Classifier.classify ts (some r.record) (some .zero) with
      | (0, some decision) => { s with pending := s.pending ++ [(decision, r)] }
      | _                  => s
  | .push                          =>
    { s with
      traced := s.pending.foldl (fun t x => t.writeDecision x.1 x.2) s.traced
      pending := [] }

/-- Every record names the process whose metrics it holds, and every decision that
    `ai_sched_enqueue` would apply was computed from a record about the task's process. -/
structure Attributed (s : LoopState) : Prop where
  labelled : ∀ r ∈ s.submitted, r.record.pid = r.tgid
  applied : ∀ p decision, s.traced.decisionOf p = some decision →
    ∃ r ∈ s.submitted, s.traced.origin p.tgid = some r ∧ r.tgid = p.tgid ∧
      ∃ ts, Classifier.classify ts (some r.record) (some .zero) = (0, some decision)

end LoopState

/-- The pid that a record is labelled with is the tgid of the process it is about: the
    enqueued task belongs to the process on the CPU, the new task is a process. -/
def LoopEvent.ownMetrics (_ : LoopState) : LoopEvent → Prop
  | .enqueue ctx _ p _            => ctx.reserved.isSome → ctx.current.tgid = p.tgid
  | .fork args childTgid reserved => reserved.isSome → args.childPid = childTgid
  | _                             => True

/-! ### Where the decisions come from -/

/-- `decision` was computed from the submitted record `r` and carries its pid. -/
def ComputedFrom (submitted : List SourcedRecord) (pid : UInt32) (decision : AiSchedDecision)
    (r : SourcedRecord) : Prop :=
  r ∈ submitted ∧ r.record.pid = pid ∧ ∃ ts, decision = Classifier.decisionFor ts r.record

/-- A record that was submitted stays submitted. -/
theorem ComputedFrom.mono {l l' : List SourcedRecord} (hl : ∀ r ∈ l, r ∈ l') {pid : UInt32}
    {decision : AiSchedDecision} {r : SourcedRecord} (h : ComputedFrom l pid decision r) :
    ComputedFrom l' pid decision r :=
  ⟨hl r h.1, h.2⟩

namespace LoopState

/-- Pending and stored decisions were computed from the records they are traced to. -/
structure Traced (s : LoopState) : Prop where
  pending : ∀ x ∈ s.pending, ComputedFrom s.submitted x.1.pid x.1 x.2
  stored : s.traced.Backed (ComputedFrom s.submitted)

/-- Pushing traced decisions keeps the stored ones traced. -/
theorem backed_push {submitted : List SourcedRecord} {t : TracedSched SourcedRecord}
    {pending : List (AiSchedDecision × SourcedRecord)}
    (hp : ∀ x ∈ pending, ComputedFrom submitted x.1.pid x.1 x.2)
    (ht : t.Backed (ComputedFrom submitted)) :
    (pending.foldl (fun t x => t.writeDecision x.1 x.2) t).Backed (ComputedFrom submitted) := by
  induction pending generalizing t with
  | nil => exact ht
  | cons x pending ih =>
    rw [List.forall_mem_cons] at hp
    exact ih hp.2 (ht.writeDecision fun _ => hp.1)

/-- The provenance of decisions is kept by every event, whatever the labels say. -/
theorem Traced.step {s : LoopState} (h : s.Traced) (e : LoopEvent) : (s.step e).Traced := by
  cases e with
  | enqueue ctx ptr p enqFlags =>
    have hl : ∀ r ∈ s.submitted, r ∈ (s.step (.enqueue ctx ptr p enqFlags)).submitted :=
      fun r hr => List.mem_append_left _ hr
    refine ⟨fun x hx => (h.pending x hx).mono hl, ?_⟩
    exact (h.stored.enqueue ctx ptr p enqFlags).mono fun _ _ _ hc => hc.mono hl
  | fork args childTgid reserved =>
    have hl : ∀ r ∈ s.submitted, r ∈ (s.step (.fork args childTgid reserved)).submitted :=
      fun r hr => List.mem_append_left _ hr
    exact ⟨fun x hx => (h.pending x hx).mono hl, h.stored.mono fun _ _ _ hc => hc.mono hl⟩
  | classify i ts =>
    cases hi : s.submitted[i]? with
    | none =>
      rw [LoopState.step, hi]
      exact h
    | some r =>
      have hr : r ∈ s.submitted := List.mem_of_getElem? hi
      rw [LoopState.step, hi]
      refine ⟨?_, h.stored⟩
      show ∀ x ∈ s.pending ++ [(Classifier.decisionFor ts r.record, r)], _
      rw [List.forall_mem_append, List.forall_mem_singleton]
      exact ⟨h.pending, hr, rfl, ts, rfl⟩
  | push => exact ⟨fun x hx => absurd hx List.not_mem_nil, backed_push h.pending h.stored⟩

/-! ### Results -/

/-- Decisions follow the labels of the records, so it is these that matter. -/
theorem Traced.attributed {s : LoopState} (h : s.Traced)
    (hl : ∀ r ∈ s.submitted, r.record.pid = r.tgid) : s.Attributed := by
  refine ⟨hl, fun p decision hd => ?_⟩
  -- the decision has the pid of its record, which is the tgid that it is looked up by
  obtain ⟨r, horigin, hr, hpid, ts, rfl⟩ := h.stored p.tgid decision hd
  exact ⟨r, hr, horigin, (hl r hr).symm.trans hpid, ts, rfl⟩

end LoopState

/-- The records an event submits are labelled with their process iff the event is about
    the metrics of that process. -/
theorem labelled_step_iff {s : LoopState} (h : ∀ r ∈ s.submitted, r.record.pid = r.tgid)
    (e : LoopEvent) :
    (∀ r ∈ (s.step e).submitted, r.record.pid = r.tgid) ↔ e.ownMetrics s := by
  cases e with
  | enqueue ctx ptr p enqFlags =>
    show (∀ r ∈ s.submitted ++ ((emittedRecord ctx p).map (⟨·, p.tgid⟩)).toList, _) ↔ _
    rw [List.forall_mem_append, and_iff_right h]
    cases hreserved : ctx.reserved with
    | none => simp [emittedRecord, hreserved, LoopEvent.ownMetrics]
    | some telem => simp [emittedRecord, hreserved, LoopEvent.ownMetrics, telemetryRecord]
  | fork args childTgid reserved =>
    show (∀ r ∈ s.submitted ++ (reserved.map (⟨forkRecord args ·, childTgid⟩)).toList, _) ↔ _
    rw [List.forall_mem_append, and_iff_right h]
    cases reserved with
    | none => simp [LoopEvent.ownMetrics]
    | some event => simp [LoopEvent.ownMetrics, forkRecord]
  | classify i ts =>
    have hsame : (s.step (.classify i ts)).submitted = s.submitted := by
      rw [LoopState.step]
      split <;> try split
      all_goals rfl
    rw [hsame]
    exact iff_of_true h trivial
  | push => exact iff_of_true h trivial

/-- **Attribution.** In every state of a run records and decisions are attributed to the
    right processes exactly if every event of the run records the metrics of the process
    on the CPU, or of a new process. -/
theorem attributed_iff (es : List LoopEvent) :
    Always LoopState.step LoopState.Attributed LoopState.start es ↔
      Throughout LoopState.step LoopEvent.ownMetrics LoopState.start es := by
  apply always_iff_throughout_of_any
    (I := fun s => s.Traced ∧ ∀ r ∈ s.submitted, r.record.pid = r.tgid)
  · have hstored : TracedSched.attached.Backed (ComputedFrom []) := TracedSched.backed_attached
    exact ⟨⟨fun x hx => absurd hx List.not_mem_nil, hstored⟩,
      fun r hr => absurd hr List.not_mem_nil⟩
  · rintro s ⟨htraced, hl⟩
    exact htraced.attributed hl
  · rintro s e ⟨htraced, hl⟩ hown
    exact ⟨htraced.step e, (labelled_step_iff hl e).mpr hown⟩
  · rintro s e ⟨-, hl⟩ hown hattributed
    exact hown ((labelled_step_iff hl e).mp hattributed.labelled)

/-- A task of process 200 is woken by process 100; its metrics decide for process 100. -/
private def wakerRun : List LoopEvent :=
  [.enqueue ⟨.leader 100, 0, some .zero⟩ 1 (.ordinary 200) 0, .classify 0 ⟨0, 0⟩, .push]

/-- The metrics of the task woken are recorded under the pid of the waker. -/
theorem attributed_not_waker :
    ¬ ∀ es, Always LoopState.step LoopState.Attributed LoopState.start es := by
  intro hall
  have hattributed := hall wakerRun wakerRun (List.prefix_refl _)
  obtain ⟨decision, hd⟩ : ∃ decision,
      (run LoopState.step LoopState.start wakerRun).traced.decisionOf (.ordinary 100)
        = some decision :=
    Option.isSome_iff_exists.mp (by decide)
  obtain ⟨r, -, horigin, htgid, -⟩ := hattributed.applied _ _ hd
  have hsource : ((run LoopState.step LoopState.start wakerRun).traced.origin 100).map
      SourcedRecord.tgid = some 200 := by decide
  rw [show (100 : UInt32) = (TaskStruct.ordinary 100).tgid from rfl, horigin, Option.map_some,
    htgid] at hsource
  exact absurd hsource (by decide)

end AieOs
