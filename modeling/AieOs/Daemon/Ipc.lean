import AieOs.Kernel.AiSched

namespace AieOs

/-!
# `ipc_interface.cpp` — reading telemetry

`TelemetryReader::read_sample` polls the ring buffer of the telemetry program.  The
callback registered by `connect` prints each record; the sample that the caller passes
is not written.
-/

/-- What a call of `ring_buffer__poll` does. -/
inductive PollOutcome
  /-- Nothing arrives before the timeout. -/
  | timeout
  /-- One or more records are consumed. -/
  | consumed (first : AiTaskTelemetry) (rest : List AiTaskTelemetry)
  /-- The call fails with a negative error code. -/
  | error (code : { c : Int32 // c < 0 })

namespace PollOutcome

/-- The records consumed, in order. -/
def records : PollOutcome → List AiTaskTelemetry
  | .timeout             => []
  | .consumed first rest => first :: rest
  | .error _             => []

/-- The return value: the number of records consumed, at most `INT_MAX`, or the error. -/
def ret : PollOutcome → Int32
  | .timeout             => 0
  | .consumed first rest => Int32.ofNat (min (first :: rest).length (2 ^ 31 - 1))
  | .error code          => code.1

/-- The call fails. -/
def IsError (o : PollOutcome) : Prop := ∃ code, o = .error code

/-- The return value is zero exactly on a timeout. -/
theorem ret_eq_zero_iff (o : PollOutcome) : o.ret = 0 ↔ o = .timeout := by
  cases o with
  | timeout => exact iff_of_true rfl rfl
  | consumed first rest =>
    refine iff_of_false ?_ (by simp)
    intro hzero
    have hint : (Int32.ofNat (min (first :: rest).length (2 ^ 31 - 1))).toInt = 0 := by
      rw [show Int32.ofNat (min (first :: rest).length (2 ^ 31 - 1)) = 0 from hzero]
      rfl
    rw [Int32.toInt_ofNat_of_lt (by omega)] at hint
    simp only [List.length_cons] at hint
    omega
  | error code =>
    refine iff_of_false ?_ (by simp)
    intro hzero
    have hneg := code.2
    rw [show code.1 = 0 from hzero] at hneg
    exact absurd hneg (by decide)

end PollOutcome

/-- `class TelemetryReader`, connected to the telemetry program's ring buffer or not. -/
structure TelemetryReader where
  ringbufCtx : Bool
  /-- What the callback has printed: all records consumed so far. -/
  printed : List AiTaskTelemetry

namespace TelemetryReader

/-- The reader after a successful `connect`. -/
def connected : TelemetryReader := ⟨true, []⟩

/-- `read_sample`, when the poll has the outcome `poll`: the return value, the caller's
    sample and the reader afterwards. -/
def readSample (poll : PollOutcome) (sample : AiTaskTelemetry) (r : TelemetryReader) :
    Int32 × AiTaskTelemetry × TelemetryReader :=
  -- the callback prints the records; nobody writes `sample`
  if r.ringbufCtx then (poll.ret, sample, { r with printed := r.printed ++ poll.records })
  else (-1, sample, r)

end TelemetryReader

end AieOs
