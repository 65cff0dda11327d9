import AieOs.Loop.Producers
import AieOs.Daemon.OnnxClassifier

namespace AieOs

open Lib

/-!
# What is left over in the ring buffers

`bpf_ringbuf_reserve` returns memory as its last user left it.  `emit_telemetry` writes all
fields of the record, `handle_sched_fork` seven of the twelve.  The heuristic classifier
reads only those seven, the features of the model also the other ones.
-/

namespace Producers

/-- The records submitted in a run. -/
def records (s : Producers) (es : List (ProducerCall × AiTaskTelemetry)) :
    List AiTaskTelemetry :=
  outputs step submitted s es

/-- Whatever is left over in the ring buffers, the calls submit the same records, with the
    same features at any clock reading. -/
def NoStaleMemory (s : Producers) (calls : List ProducerCall) : Prop :=
  ∀ es es', es.map Prod.fst = calls → es'.map Prod.fst = calls →
    s.records es = s.records es' ∧
      ∀ clock, (s.records es).map (OnnxClassifier.features clock)
        = (s.records es').map (OnnxClassifier.features clock)

/-! ### The record of one call -/

/-- The records of a run are those of its calls, one after the other. -/
theorem records_eq_flatMap (s : Producers) (es : List (ProducerCall × AiTaskTelemetry)) :
    s.records es = es.flatMap emitted := by
  induction es generalizing s with
  | nil => rfl
  | cons e es ih =>
    rw [List.flatMap_cons, ← ih (s.step e), ← submitted_eq_emitted s e]
    rfl

/-- `emit_telemetry` overwrites the whole record. -/
theorem telemetryRecord_leftover (current : CurrentTask) (ktime : UInt64) (p : TaskStruct)
    (r r' : Option AiTaskTelemetry) (leftover leftover' : AiTaskTelemetry) :
    telemetryRecord ⟨current, ktime, r⟩ p leftover
      = telemetryRecord ⟨current, ktime, r'⟩ p leftover' := rfl

/-- `handle_sched_fork` lets five fields through. -/
theorem forkRecord_eq_iff (args : SchedProcessForkArgs) (leftover leftover' : AiTaskTelemetry) :
    forkRecord args leftover = forkRecord args leftover' ↔
      leftover.uid = leftover'.uid ∧ leftover.tsEnqueue = leftover'.tsEnqueue ∧
        leftover.ioReadBytes = leftover'.ioReadBytes ∧
        leftover.ioWriteBytes = leftover'.ioWriteBytes ∧ leftover.comm = leftover'.comm := by
  simp [forkRecord]

/-- The heuristic classifier does not see them. -/
theorem classifyHeuristic_forkRecord (args : SchedProcessForkArgs)
    (leftover leftover' : AiTaskTelemetry) :
    Classifier.classifyHeuristic (some (forkRecord args leftover))
      = Classifier.classifyHeuristic (some (forkRecord args leftover')) := rfl

/-- How many records a call submits does not depend on the memory. -/
theorem emitted_length (call : ProducerCall) (leftover leftover' : AiTaskTelemetry) :
    (emitted (call, leftover)).length = (emitted (call, leftover')).length := by
  cases call with
  | fork args room => cases room <;> rfl
  | enqueue current ktime ptr p enqFlags room => cases room <;> rfl

/-- What is left over reaches the ring buffer through `handle_sched_fork` only. -/
theorem emitted_eq_iff (call : ProducerCall) :
    (∀ leftover leftover', emitted (call, leftover) = emitted (call, leftover')) ↔
      ∀ args, call ≠ .fork args true := by
  cases call with
  | fork args room =>
    cases room with
    | false => simp [emitted, bpfRingbufReserve]
    | true =>
      refine iff_of_false (fun hall => ?_) (by simp)
      -- memory that differs in the `uid` makes two records
      have huid : forkRecord args .zero = forkRecord args { AiTaskTelemetry.zero with uid := 1 } :=
        List.singleton_inj.mp (hall _ _)
      exact absurd ((forkRecord_eq_iff _ _ _).mp huid).1 (by decide)
  | enqueue current ktime ptr p enqFlags room =>
    refine iff_of_true (fun leftover leftover' => ?_) (by simp)
    cases room <;> rfl

/-! ### Two runs -/

/-- Without such a call the records are those of zeroed memory. -/
theorem flatMap_emitted {es : List (ProducerCall × AiTaskTelemetry)}
    (h : ∀ args, .fork args true ∉ es.map Prod.fst) :
    es.flatMap emitted = (es.map Prod.fst).flatMap fun call => emitted (call, .zero) := by
  rw [List.flatMap_map]
  refine List.flatMap_congr fun e he => ?_
  refine (emitted_eq_iff e.1).mpr (fun args hargs => h args ?_) e.2 .zero
  rw [← hargs]
  exact List.mem_map_of_mem he

/-- Runs with the same records have the same record at every call. -/
theorem emitted_eq_of_flatMap_eq {calls : List ProducerCall} {leftover leftover' : AiTaskTelemetry}
    (h : calls.flatMap (fun call => emitted (call, leftover))
      = calls.flatMap fun call => emitted (call, leftover')) :
    ∀ call ∈ calls, emitted (call, leftover) = emitted (call, leftover') := by
  induction calls with
  | nil => simp
  | cons call calls ih =>
    rw [List.flatMap_cons, List.flatMap_cons] at h
    obtain ⟨hcall, hrest⟩ := List.append_inj h (emitted_length call leftover leftover')
    exact List.forall_mem_cons.mpr ⟨hcall, ih hrest⟩

/-- **Stale memory.** The records of a run are independent of what is left over in the ring
    buffers exactly if no `handle_sched_fork` gets memory for its record. -/
theorem no_stale_memory_iff (s : Producers) (calls : List ProducerCall) :
    s.NoStaleMemory calls ↔ ∀ args, .fork args true ∉ calls := by
  constructor
  · intro h args hmem
    refine (emitted_eq_iff (.fork args true)).mp (fun leftover leftover' => ?_) args rfl
    -- two runs that differ in what all their memory holds
    have hfst : ∀ mem : AiTaskTelemetry, (calls.map fun call => (call, mem)).map Prod.fst = calls :=
      fun mem => by rw [List.map_map]; exact List.map_id calls
    have hrecords := (h (calls.map fun call => (call, leftover))
      (calls.map fun call => (call, leftover')) (hfst leftover) (hfst leftover')).1
    rw [records_eq_flatMap, records_eq_flatMap, List.flatMap_map, List.flatMap_map] at hrecords
    exact emitted_eq_of_flatMap_eq hrecords _ hmem
  · rintro h es es' rfl hes'
    have hrecords : s.records es = s.records es' := by
      rw [records_eq_flatMap, records_eq_flatMap, flatMap_emitted h, ← hes',
        flatMap_emitted (hes' ▸ h)]
    exact ⟨hrecords, fun clock => by rw [hrecords]⟩

/-- `sched_process_fork` of process 7. -/
private def fork7Args : SchedProcessForkArgs :=
  ⟨Vector.replicate 16 0, 1, Vector.replicate 16 0, 7⟩

/-- Memory last used for a record with some I/O. -/
private def usedMemory : AiTaskTelemetry := { AiTaskTelemetry.zero with ioReadBytes := 4096 }

example : OnnxClassifier.features ⟨0, 0⟩ (forkRecord fork7Args .zero)
    ≠ OnnxClassifier.features ⟨0, 0⟩ (forkRecord fork7Args usedMemory) := by decide

/-- One fork event, with the memory zeroed or used before. -/
theorem no_stale_memory_not_fork :
    ¬ ∀ (s : Producers) (calls : List ProducerCall), s.NoStaleMemory calls := by
  intro hall
  have hrecords := (hall ⟨.attached .fresh, .fresh⟩ [.fork fork7Args true]
    [(.fork fork7Args true, .zero)] [(.fork fork7Args true, usedMemory)] rfl rfl).1
  exact absurd hrecords (by decide)

end Producers

end AieOs
