import AieOs.Daemon.AieDaemon
import AieOs.Lib.Places
import AieOs.Lib.Runs

namespace AieOs

open Lib

/-!
# The two worker threads

The telemetry thread appends decisions to `pending_decisions_` one at a time, and the
decision thread tests the vector, hands its contents to `write_decisions` and clears it;
nothing serialises the two.  Each operation on the vector is one step here, and the
threads take steps in any order.  A decision appended between the hand-over and the clear
is lost; every other one is handed over once.
-/

/-- Where the decision thread stands in `push_decisions`. -/
inductive PushPc
  /-- Before the test whether there is something to write. -/
  | start
  /-- Before the call of `write_decisions`. -/
  | tested
  /-- Before the clear; `write_decisions` was given the first `count` decisions. -/
  | written (count : ℕ)
  deriving DecidableEq

/-- The daemon and its two threads. -/
structure Workers where
  daemon : AieDaemon
  /-- In `classify_pending_tasks`: the samples that the loop has still to classify. -/
  classifying : Option (List AiTaskTelemetry)
  pushing : PushPc
  /-- The places, among all decisions appended, of those in `pending_decisions_`. -/
  pendingIds : List ℕ
  /-- The places of the decisions handed to `write_decisions`, call by call. -/
  handedIds : List ℕ

/-- One operation of one of the threads. -/
inductive WorkerOp
  /-- The telemetry thread appends a sample, outside `classify_pending_tasks`. -/
  | ingest (sample : AiTaskTelemetry)
  /-- The telemetry thread's next operation in `classify_pending_tasks`. -/
  | telemetry (env : SampleEnv)
  /-- The decision thread's next operation in `push_decisions`. -/
  | decision

namespace Workers

/-- Both threads at the start, nothing pending. -/
def start (nodes : DeviceNodes) : Workers := ⟨AieDaemon.initialised nodes, none, .start, [], []⟩

/-- The effect of one operation; the writes succeed. -/
def step (s : Workers) : WorkerOp → Workers
  | .ingest sample =>
    match s.classifying with
    | none   => { s with daemon := s.daemon.pushBackTelemetry sample }
    | some _ => s
  | .telemetry env =>
    match s.classifying with
    | none                 =>
      if s.daemon.pendingTelemetry.isEmpty then s
      else { s with classifying := some s.daemon.pendingTelemetry }
    | some (telem :: rest) =>
      let new := List.range' s.daemon.history.appended.length
        (AieDaemon.decided env telem).length
      { s with
        daemon := s.daemon.classifySample env telem
        classifying := some rest
        pendingIds := s.pendingIds ++ new }
    | some []              =>
      { s with daemon := { s.daemon with pendingTelemetry := [] }, classifying := none }
  | .decision      =>
    match s.pushing with
    | .start     => if s.daemon.pendingDecisions.isEmpty then s else { s with pushing := .tested }
    | .tested    =>
      { s with
        daemon := s.daemon.writeDecisions 0
        pushing := .written s.daemon.pendingDecisions.length
        handedIds := s.handedIds ++ s.pendingIds }
    -- `clear` does not ask what was written
    | .written _ =>
      { s with
        daemon := { s.daemon with pendingDecisions := [] }
        pushing := .start
        pendingIds := [] }

/-- No decision is lost or sent twice: each one appended was handed to `write_decisions`
    exactly once or is still pending, and none was handed over more than once. -/
structure EachHandedOnce (s : Workers) : Prop where
  notLost : ∀ i < s.daemon.history.appended.length,
    s.handedIds.count i = 1 ∨ i ∈ s.pendingIds
  notTwice : ∀ i < s.daemon.history.appended.length, s.handedIds.count i ≤ 1

end Workers

/-- What the decision thread clears is what it handed over: nothing was appended since. -/
def WorkerOp.clearsHanded (s : Workers) : WorkerOp → Prop
  | .decision => ∀ count, s.pushing = .written count → s.daemon.pendingDecisions.length = count
  | _         => True

namespace Workers

/-! ### The steps of one thread alone are the functions of the daemon -/

/-- Undisturbed, the decision thread runs `push_decisions`. -/
theorem decision_alone {s : Workers} (h : s.pushing = .start) :
    (run step s [.decision, .decision, .decision]).daemon = s.daemon.pushDecisions 0 ∧
      (run step s [.decision, .decision, .decision]).pushing = .start := by
  by_cases hempty : s.daemon.pendingDecisions.isEmpty = true
  · have hstep : s.step .decision = s := by simp [step, h, hempty]
    simp only [run_cons, run_nil, hstep, h, AieDaemon.pushDecisions, hempty, if_true, and_self]
  · simp [step, h, hempty, AieDaemon.pushDecisions]

/-- The loop over the samples, undisturbed. -/
theorem classifying_loop (env : ℕ → SampleEnv) {s : Workers} {samples : List AiTaskTelemetry}
    (h : s.classifying = some samples) :
    (run step s ((List.range samples.length).map fun i => .telemetry (env i))).daemon
        = AieDaemon.classifySamples env samples s.daemon ∧
      (run step s ((List.range samples.length).map fun i => .telemetry (env i))).classifying
        = some [] := by
  induction samples generalizing env s with
  | nil => exact ⟨rfl, h⟩
  | cons telem rest ih =>
    have hfirst : (s.step (.telemetry (env 0))).classifying = some rest := by simp [step, h]
    have hdaemon : (s.step (.telemetry (env 0))).daemon
        = s.daemon.classifySample (env 0) telem := by
      simp [step, h]
    have hrest := ih (fun i => env (i + 1)) hfirst
    rw [hdaemon] at hrest
    rw [List.length_cons, List.range_succ_eq_map, List.map_cons, List.map_map, run_cons]
    exact hrest

/-- Undisturbed, the telemetry thread runs `classify_pending_tasks`: it enters the loop,
    classifies the samples and clears them. -/
theorem telemetry_alone (env : ℕ → SampleEnv) {s : Workers} (h : s.classifying = none)
    (hpending : s.daemon.pendingTelemetry ≠ []) (idle : SampleEnv) :
    (run step s ([.telemetry idle]
        ++ (List.range s.daemon.pendingTelemetry.length).map (fun i => .telemetry (env i))
        ++ [.telemetry idle])).daemon = s.daemon.classifyPendingTasks env := by
  have henter : (s.step (.telemetry idle)).daemon = s.daemon ∧
      (s.step (.telemetry idle)).classifying = some s.daemon.pendingTelemetry := by
    simp [step, h, hpending]
  obtain ⟨hdaemon, hdone⟩ := classifying_loop env henter.2
  rw [run_concat, run_append, run_cons, run_nil, step, hdone]
  dsimp only
  rw [hdaemon, henter.1, AieDaemon.classifyPendingTasks, if_neg (by simpa using hpending)]

/-! ### The places are those of the decisions -/

/-- The recorded places are those of the decisions pending and handed over. -/
structure PlacesKept (s : Workers) : Prop where
  pending : Places s.daemon.history.appended s.pendingIds s.daemon.pendingDecisions
  handed : Places s.daemon.history.appended s.handedIds
    (s.daemon.history.writes.flatMap Prod.fst)

variable {s : Workers}

/-- Every operation records the places of what it moves. -/
theorem PlacesKept.step (h : s.PlacesKept) (e : WorkerOp) : (s.step e).PlacesKept := by
  cases e with
  | ingest sample =>
    rw [Workers.step]
    split
    · exact ⟨h.pending, h.handed⟩
    · exact h
  | telemetry env =>
    rw [Workers.step]
    split
    · split
      · exact h
      · exact ⟨h.pending, h.handed⟩
    · -- the log grows by the decision, which gets the next place
      rename_i telem rest hclassifying
      obtain ⟨hpending, happended⟩ := AieDaemon.classifySample_decisions env telem s.daemon
      obtain ⟨-, -, -, hwrites⟩ := AieDaemon.classifySample_frame env telem s.daemon
      constructor
      · dsimp only
        rw [hpending, happended]
        exact h.pending.grow _
      · dsimp only
        rw [happended, hwrites]
        exact h.handed.of_grow _
    · exact ⟨h.pending, h.handed⟩
  | decision =>
    rw [Workers.step]
    cases hpushing : s.pushing with
    | start =>
      dsimp only
      split
      · exact h
      · exact ⟨h.pending, h.handed⟩
    | tested =>
      refine ⟨h.pending, ?_⟩
      show Places _ (s.handedIds ++ s.pendingIds)
        ((s.daemon.history.writes ++ [(s.daemon.pendingDecisions, 0)]).flatMap Prod.fst)
      rw [List.flatMap_append, List.flatMap_singleton]
      exact h.handed.append h.pending
    | written count => exact ⟨Places.nil, h.handed⟩

/-- At the start there are no decisions. -/
theorem placesKept_start (nodes : DeviceNodes) : (start nodes).PlacesKept :=
  ⟨Places.nil, Places.nil⟩

/-! ### The invariant -/

/-- How many of the pending decisions have been handed over. -/
def handedCount (s : Workers) : ℕ :=
  match s.pushing with
  | .written count => count
  | _              => 0

/-- All that is appended is accounted for: it was handed over, or it is pending behind what
    was handed over. -/
structure Accounted (s : Workers) : Prop extends PlacesKept s where
  count_le : s.handedCount ≤ s.pendingIds.length
  all : s.handedIds ++ s.pendingIds.drop s.handedCount
    = List.range s.daemon.history.appended.length

/-- At the start there is nothing to account for. -/
theorem accounted_start (nodes : DeviceNodes) : (start nodes).Accounted :=
  ⟨placesKept_start nodes, le_rfl, rfl⟩

/-- What is accounted for is not lost, nor handed over twice. -/
theorem Accounted.eachHandedOnce (h : s.Accounted) : s.EachHandedOnce := by
  constructor
  · intro i hi
    -- a place is behind what was handed over, or it was handed over
    by_cases hmem : i ∈ s.pendingIds.drop s.handedCount
    · exact .inr (List.mem_of_mem_drop hmem)
    · exact .inl ((count_of_append_eq_range h.all hi).2.mpr hmem)
  · intro i hi
    exact (count_of_append_eq_range h.all hi).1

/-- A sample that comes in has no decision yet. -/
theorem Accounted.ingest (h : s.Accounted) (sample : AiTaskTelemetry) :
    (s.step (.ingest sample)).Accounted := by
  refine ⟨h.toPlacesKept.step _, ?_, ?_⟩
  · rw [step]
    split <;> exact h.count_le
  · rw [step]
    split <;> exact h.all

/-- A classified sample goes behind the pending decisions, handed over or not. -/
theorem Accounted.telemetry (h : s.Accounted) (env : SampleEnv) :
    (s.step (.telemetry env)).Accounted := by
  refine ⟨h.toPlacesKept.step _, ?_, ?_⟩
  · rw [step]
    split
    · split <;> exact h.count_le
    · have hle := h.count_le
      show s.handedCount ≤ (s.pendingIds ++ _).length
      rw [List.length_append]
      omega
    · exact h.count_le
  · rw [step]
    split
    · split <;> exact h.all
    · rename_i telem rest hclassifying
      obtain ⟨-, happended⟩ := AieDaemon.classifySample_decisions env telem s.daemon
      show s.handedIds ++ (s.pendingIds ++ _).drop s.handedCount = _
      rw [happended, range_length_append, ← h.all, List.drop_append_of_le_length h.count_le,
        List.append_assoc]
    · exact h.all

/-- The decision thread keeps the account as long as it clears what it handed over. -/
theorem Accounted.decision (h : s.Accounted) (hclears : WorkerOp.decision.clearsHanded s) :
    (s.step .decision).Accounted := by
  have hplaces := h.toPlacesKept.step .decision
  have hall := h.all
  cases hpushing : s.pushing with
  | start =>
    have hcount : s.handedCount = 0 := by simp [handedCount, hpushing]
    rw [hcount] at hall
    by_cases hempty : s.daemon.pendingDecisions.isEmpty = true
    · have hstep : s.step .decision = s := by simp [step, hpushing, hempty]
      rw [hstep]
      exact h
    · have hstep : s.step .decision = { s with pushing := .tested } := by
        simp [step, hpushing, hempty]
      rw [hstep] at hplaces ⊢
      exact ⟨hplaces, Nat.zero_le _, hall⟩
  | tested =>
    have hcount : s.handedCount = 0 := by simp [handedCount, hpushing]
    rw [hcount, List.drop_zero] at hall
    rw [step, hpushing] at hplaces ⊢
    refine ⟨hplaces, h.pending.length_eq.ge, ?_⟩
    -- everything pending has just been handed over
    show s.handedIds ++ s.pendingIds ++ s.pendingIds.drop s.daemon.pendingDecisions.length = _
    rw [List.drop_of_length_le h.pending.length_eq.le, List.append_nil]
    exact hall
  | written count =>
    have hcount : s.handedCount = count := by simp [handedCount, hpushing]
    rw [step, hpushing] at hplaces ⊢
    refine ⟨hplaces, Nat.zero_le _, ?_⟩
    -- nothing is pending behind what was handed over
    rw [List.drop_of_length_le] at hall
    · exact hall
    · rw [hcount, h.pending.length_eq, hclears count hpushing]

/-- A clear that reaches further loses the decisions behind. -/
theorem Accounted.not_eachHandedOnce (h : s.Accounted)
    (hclears : ¬ WorkerOp.decision.clearsHanded s) : ¬ (s.step .decision).EachHandedOnce := by
  rw [WorkerOp.clearsHanded] at hclears
  push Not at hclears
  obtain ⟨count, hpushing, hne⟩ := hclears
  have hcount : s.handedCount = count := by simp [handedCount, hpushing]
  have hle := h.count_le
  rw [hcount, h.pending.length_eq] at hle
  intro honce
  -- the first decision behind those handed over
  obtain ⟨i, hi⟩ : ∃ i, i ∈ s.pendingIds.drop s.handedCount := by
    apply List.exists_mem_of_length_pos
    rw [List.length_drop, h.pending.length_eq, hcount]
    omega
  have hlt : i < s.daemon.history.appended.length := by
    rw [← List.mem_range, ← h.all]
    exact List.mem_append_right _ hi
  have hstep : s.step .decision = { s with
      daemon := { s.daemon with pendingDecisions := [] }
      pushing := .start
      pendingIds := [] } := by
    rw [step, hpushing]
  rw [hstep] at honce
  rcases honce.notLost i hlt with hhanded | hpending
  · exact (count_of_append_eq_range h.all hlt).2.mp hhanded hi
  · exact absurd hpending List.not_mem_nil

/-! ### Results -/

/-- **The two workers.** Under every interleaving, each decision is handed over once or
    pending in every state, exactly if nothing is appended between a hand-over and the
    clear that follows it. -/
theorem each_handed_once_iff (nodes : DeviceNodes) (es : List WorkerOp) :
    Always step EachHandedOnce (start nodes) es ↔
      Throughout step WorkerOp.clearsHanded (start nodes) es := by
  apply always_iff_throughout_of_any (I := Accounted)
  · exact accounted_start nodes
  · exact fun s h => h.eachHandedOnce
  · intro s e h he
    cases e with
    | ingest sample => exact h.ingest sample
    | telemetry env => exact h.telemetry env
    | decision => exact h.decision he
  · intro s e h he
    cases e with
    | ingest sample => exact absurd trivial he
    | telemetry env => exact absurd trivial he
    | decision => exact h.not_eachHandedOnce he

/-- The second of two decisions is appended after the first was handed over, before the
    clear. -/
private def lostRun : List WorkerOp :=
  let env : SampleEnv := .heuristic ⟨0, 0⟩ ⟨0, 0⟩
  [.ingest .zero, .ingest .zero, .telemetry env, .telemetry env, .decision, .decision,
    .telemetry env, .decision]

/-- A decision between the hand-over and the clear is lost. -/
theorem each_handed_once_not_lostRun :
    ¬ ∀ (nodes : DeviceNodes) (es : List WorkerOp),
      Always step EachHandedOnce (start nodes) es := by
  intro hall
  have honce := (hall ⟨false, false, false, []⟩ lostRun lostRun (List.prefix_refl _)).notLost 1
    (by decide)
  exact absurd honce (by decide)

end Workers

end AieOs
