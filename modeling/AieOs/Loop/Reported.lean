import AieOs.Loop.Prototype

namespace AieOs

open Lib

/-!
# What the daemon is told

Of the programs that submit telemetry only `handle_sched_fork` has the ring buffer that the
daemon polls, and it fills in numbers of its own.  So the records that the daemon reports are
those of the forks that found room, one each and in order, and the heuristics take every one of
them for a real-time AI task.

* `System.forks_reported` — the records that the daemon has printed, after any run.
-/

namespace ConfiguredDaemon

/-! ### The reader -/

/-- What the callback has printed. -/
def printed (s : ConfiguredDaemon) : List AiTaskTelemetry := s.daemon.telemetryReader.printed

/-- A batch does not touch the reader. -/
theorem classifySamples_telemetryReader {calls : ℕ → ClassifyCall}
    {samples : List AiTaskTelemetry} {classifier classifier' : ClassifierObject}
    {d d' : AieDaemon}
    (h : classifySamples calls samples classifier d = some (classifier', d')) :
    d'.telemetryReader = d.telemetryReader := by
  induction samples generalizing calls classifier d with
  | nil =>
    obtain ⟨-, rfl⟩ := Prod.mk.inj (Option.some.inj h)
    rfl
  | cons telem rest ih =>
    rw [classifySamples] at h
    split at h
    · rw [ih h]
      exact (AieDaemon.classifySample_frame _ _ _).1
    · cases h

/-- Nor does the rest of an iteration. -/
theorem handleReturn_telemetryReader {s s' : ConfiguredDaemon} {ret : Int32}
    {calls : ℕ → ClassifyCall} (h : handleReturn ret calls s = some s') :
    s'.daemon.telemetryReader = s.daemon.telemetryReader := by
  simp only [handleReturn] at h
  split_ifs at h
  · -- the batch is full
    obtain ⟨⟨classifier, d⟩, hbatch, rfl⟩ := Option.map_eq_some_iff.mp h
    have hreader := classifySamples_telemetryReader hbatch
    exact hreader
  all_goals
    obtain rfl := Option.some.inj h
    rfl

/-- After a poll the reader is the one that `read_sample` leaves. -/
theorem step_telemetry_reader {s s' : ConfiguredDaemon} {poll : PollOutcome}
    {calls : ℕ → ClassifyCall} (h : s.step (.telemetry poll calls) = some s') :
    s'.daemon.telemetryReader = (s.daemon.telemetryReader.readSample poll s.sample).2.2 :=
  handleReturn_telemetryReader h

/-- Nor does a push. -/
theorem step_push_reader {s s' : ConfiguredDaemon} {ret : Int32}
    (h : s.step (.push ret) = some s') :
    s'.daemon.telemetryReader = s.daemon.telemetryReader := by
  obtain rfl := Option.some.inj h
  simp only [AieDaemon.pushDecisions]
  split <;> rfl

end ConfiguredDaemon

namespace System

/-! ### The polled ring buffer -/

/-- The ring buffer that the daemon polls. -/
def polledRing (s : System) : List AiTaskTelemetry := s.producers.telemetry.telemetryRingbuf

/-- The record of a fork, if the polled ring buffer has room for it. -/
def forkRecords (s : System) : SystemEvent → List AiTaskTelemetry
  | .fork args leftover =>
    Producers.emitted (.fork args (hasRoom telemetryRingBytes s.polledRing), leftover)
  | _ => []

/-- A new accumulator submits nothing. -/
theorem lookupOrCreate_telemetryRingbuf (pid : UInt32) (m : TelemetryMaps) :
    (lookupOrCreate pid m).2.telemetryRingbuf = m.telemetryRingbuf := by
  unfold lookupOrCreate
  split <;> rfl

/-- A system call submits nothing. -/
theorem handleSysEnter_telemetryRingbuf (current : CurrentTask) (m : TelemetryMaps) :
    (handleSysEnter current m).telemetryRingbuf = m.telemetryRingbuf := by
  have hring :=
    lookupOrCreate_telemetryRingbuf (bpfGetCurrentPidTgid current >>> 32).toUInt32 m
  dsimp only [handleSysEnter]
  generalize lookupOrCreate (bpfGetCurrentPidTgid current >>> 32).toUInt32 m = result at hring
  obtain ⟨_ | accum, m'⟩ := result
  · exact hring
  · exact hring

/-- The daemon, if it still runs, has printed the first of these records, and the others
    wait for its next poll. -/
def Reported (records : List AiTaskTelemetry) (s : System) : Prop :=
  ∀ daemon ∈ s.daemon, daemon.daemon.telemetryReader.ringbufCtx = true ∧
    daemon.printed ++ s.polledRing = records

section
variable {s s' : System} {records : List AiTaskTelemetry}

/-- An event that the daemon has no part in. -/
theorem Reported.of_ring (h : Reported records s) {submitted : List AiTaskTelemetry}
    (hdaemon : s'.daemon = s.daemon) (hring : s'.polledRing = s.polledRing ++ submitted) :
    Reported (records ++ submitted) s' := by
  intro daemon hmem
  rw [hdaemon] at hmem
  obtain ⟨hctx, hrecords⟩ := h daemon hmem
  refine ⟨hctx, ?_⟩
  rw [hring, ← List.append_assoc, hrecords]

/-- A poll moves what the ring buffer holds to what is printed, or fails. -/
theorem Reported.telemetryWorker (h : Reported records s)
    (failure : Option { c : Int32 // c < 0 }) (calls : ℕ → ClassifyCall) :
    Reported records (s.step (.telemetryWorker failure calls)) := by
  intro daemon hmem
  cases hdaemon : s.daemon with
  | none => simp [step, hdaemon] at hmem
  | some before =>
    obtain ⟨hctx, hrecords⟩ := h before hdaemon
    simp only [step, hdaemon] at hmem
    have hreader := ConfiguredDaemon.step_telemetry_reader hmem
    simp only [TelemetryReader.readSample, hctx, if_true] at hreader
    refine ⟨by rw [hreader], ?_⟩
    rw [ConfiguredDaemon.printed, hreader, ← hrecords, List.append_assoc]
    refine congrArg (before.printed ++ ·) ?_
    -- the records go from the ring buffer to the terminal, all of them or none
    cases failure with
    | none => simp [step, hdaemon, polledRing, poll, hctx]
    | some code => simp [step, hdaemon, polledRing, poll, PollOutcome.records]

/-- An iteration of the decision worker reports nothing. -/
theorem Reported.decisionWorker (h : Reported records s) :
    Reported records (s.step .decisionWorker) := by
  intro daemon hmem
  cases hdaemon : s.daemon with
  | none => simp [step, hdaemon] at hmem
  | some before =>
    obtain ⟨hctx, hrecords⟩ := h before hdaemon
    simp only [step, hdaemon] at hmem
    have hreader := ConfiguredDaemon.step_push_reader hmem
    have hring : (s.step .decisionWorker).polledRing = s.polledRing := by
      simp [step, hdaemon, polledRing]
    rw [ConfiguredDaemon.printed, hreader, hring]
    exact ⟨hctx, hrecords⟩

/-- **One event.** -/
theorem Reported.step (h : Reported records s) (e : SystemEvent) :
    Reported (records ++ s.forkRecords e) (s.step e) := by
  cases e with
  | fork args leftover =>
    exact h.of_ring rfl (s.producers.step_fork args _ leftover).1
  | enqueue current ktime ptr p enqFlags leftover =>
    refine h.of_ring rfl ?_
    -- the record of an enqueue goes to the other ring buffer
    have htelemetry := (s.producers.step_enqueue current ktime ptr p enqFlags
      (hasRoom schedRingBytes s.producers.sched.maps.telemetryRingbuf) leftover).2
    exact (congrArg TelemetryMaps.telemetryRingbuf htelemetry).trans (List.append_nil _).symm
  | sysEnter current =>
    exact h.of_ring rfl
      ((handleSysEnter_telemetryRingbuf current _).trans (List.append_nil _).symm)
  | blockRqIssue current =>
    exact h.of_ring rfl
      ((lookupOrCreate_telemetryRingbuf _ _).trans (List.append_nil _).symm)
  | telemetryWorker failure calls =>
    have hsame := h.telemetryWorker failure calls
    rwa [← List.append_nil records] at hsame
  | decisionWorker =>
    have hsame := h.decisionWorker
    rwa [← List.append_nil records] at hsame
  | _ => exact h.of_ring rfl (List.append_nil _).symm

end

/-! ### What the heuristics make of them -/

/-- The handler fills in 60 % CPU and the nice value 0, which the unsigned comparison with
    -10 takes for a high priority. -/
theorem classifyHeuristic_forkRecord_eq (args : SchedProcessForkArgs)
    (leftover : AiTaskTelemetry) :
    Classifier.classifyHeuristic (some (forkRecord args leftover)) = .realtimeAi := by
  simp [Classifier.classifyHeuristic, Classifier.systemRule, forkRecord]

/-- All records of forks are alike to the heuristics. -/
theorem forkRecords_realtimeAi (s : System) (e : SystemEvent) :
    ∀ record ∈ s.forkRecords e, Classifier.classifyHeuristic (some record) = .realtimeAi := by
  intro record hrecord
  cases e with
  | fork args leftover =>
    simp only [forkRecords, Producers.emitted, Option.mem_toList,
      Option.map_eq_some_iff] at hrecord
    obtain ⟨event, -, rfl⟩ := hrecord
    exact classifyHeuristic_forkRecord_eq args event
  | _ => cases hrecord

/-- **Reported.** After any run of a daemon that has started, what it has printed and what it
    will be told next are the records of the forks that found room; the tasks enqueued do not
    occur, and every record reported is that of a real-time AI task to the heuristics. -/
theorem forks_reported {e : Startup} {sample : AiTaskTelemetry} {daemon : ConfiguredDaemon}
    (hinit : ConfiguredDaemon.init e sample = (0, some daemon)) (es : List SystemEvent) :
    ∀ daemon' ∈ (run step (start (some daemon)) es).daemon,
      daemon'.printed ++ (run step (start (some daemon)) es).polledRing
          = outputs step forkRecords (start (some daemon)) es ∧
        ∀ record ∈ daemon'.printed,
          Classifier.classifyHeuristic (some record) = .realtimeAi := by
  have hrun : Reported (outputs step forkRecords (start (some daemon)) es)
      (run step (start (some daemon)) es) := by
    induction es using List.reverseRecOn with
    | nil =>
      intro daemon' hmem
      obtain rfl := Option.some.inj hmem
      rw [ConfiguredDaemon.eq_of_init hinit]
      exact ⟨rfl, rfl⟩
    | append_singleton es e ih =>
      rw [run_concat, outputs_concat]
      exact ih.step e
  intro daemon' hmem
  obtain ⟨-, hrecords⟩ := hrun daemon' hmem
  refine ⟨hrecords, fun record hrecord => ?_⟩
  -- what was printed was submitted by some fork of the run
  have hmem' : record ∈ outputs step forkRecords (start (some daemon)) es :=
    hrecords ▸ List.mem_append_left _ hrecord
  exact (forall_mem_outputs step forkRecords _ _ es).mpr
    (throughout_of_forall forkRecords_realtimeAi) record hmem'

/-- A machine without a configuration file. -/
private def bareStartup : Startup := ⟨0, 0, 0, 0, none, ⟨false, false, false, []⟩⟩

/-- The daemon there. -/
private def bareDaemon : ConfiguredDaemon :=
  ⟨.heuristic, .zero, AieDaemon.initialised bareStartup.nodes⟩

/-- `sched_process_fork` of a process. -/
private def forkOf (childPid : UInt32) : SystemEvent :=
  .fork ⟨Vector.replicate 16 0, 1, Vector.replicate 16 0, childPid⟩ .zero

/-- Process 7 starts before the first poll, process 8 between it and one that fails. -/
private def forksAndPolls : List SystemEvent :=
  let call : ClassifyCall := ⟨⟨0, 0⟩, ⟨0, 0⟩, fun _ => ⟨false, ⟨[], [], []⟩, fun _ => false,
    fun _ => false, fun _ => [], ⟨0, 0⟩, ⟨0, 0⟩⟩⟩
  [forkOf 7, .telemetryWorker none fun _ => call, forkOf 8,
    .telemetryWorker (some ⟨-1, by decide⟩) fun _ => call]

/-- Of two forks the first is reported; the second waits for a poll that succeeds. -/
theorem forks_reported_of_two :
    ∃ daemon ∈ (run step (start (some bareDaemon)) forksAndPolls).daemon,
      daemon.printed.map (·.pid) = [7] ∧
        daemon.printed ++ (run step (start (some bareDaemon)) forksAndPolls).polledRing
            = outputs step forkRecords (start (some bareDaemon)) forksAndPolls ∧
          ∀ record ∈ daemon.printed,
            Classifier.classifyHeuristic (some record) = .realtimeAi := by
  have hpids : (run step (start (some bareDaemon)) forksAndPolls).daemon.map
      (fun daemon => daemon.printed.map (·.pid)) = some [7] := rfl
  obtain ⟨daemon, hdaemon, hprinted⟩ := Option.map_eq_some_iff.mp hpids
  exact ⟨daemon, hdaemon, hprinted,
    @forks_reported bareStartup .zero bareDaemon rfl forksAndPolls daemon hdaemon⟩

end System

end AieOs
