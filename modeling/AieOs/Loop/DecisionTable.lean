import AieOs.Kernel.Sched
import AieOs.Daemon.Classifier

namespace AieOs

/-!
# The decision table of the heuristic classifier

`emit_telemetry` stores a nice value in an unsigned field, as its two's complement.
`classify_heuristic` compares that field with the literal `-10`, as an unsigned number: it
takes the nice values from 0 on for ones below -10.
-/

/-- The documented table, with the nice value as a signed number. -/
def documentedClass (telemetry : AiTaskTelemetry) (nice : ℤ) : AiTaskClass :=
  if telemetry.schedClass = 0 ∨ telemetry.schedClass = 5 then .background
  else if nice ≤ -10 ∧ telemetry.cpuUtilRecent ≥ 40 then .realtimeAi
  else if telemetry.memoryRssMb ≥ 100 ∨ telemetry.numThreads ≥ 2 then .batchAi
  else if telemetry.cpuUtilRecent ≥ 20 then .interactiveAi
  else .background

/-- The two's complement of an integer, as a number. -/
theorem ofInt_toNat (n : ℤ) : (UInt32.ofInt n).toNat = (n % 4294967296).toNat := by
  simp only [UInt32.ofInt, UInt32.toNat_ofNat']
  omega

/-- `emit_telemetry` stores the two's complement of the nice value. -/
theorem telemetryRecord_niceValue (ctx : HookCtx) {p : TaskStruct} {nice : ℤ}
    (h : p.staticPrio.toInt = 120 + nice) (telem : AiTaskTelemetry) :
    (telemetryRecord ctx p telem).niceValue = UInt32.ofInt nice := by
  have hnice : p.staticPrio - 120 = Int32.ofInt nice := by
    rw [← Int32.ofInt_toInt p.staticPrio, h, show (120 : Int32) = Int32.ofInt 120 from rfl,
      ← Int32.ofInt_sub, show 120 + nice - 120 = nice by omega]
  show (p.staticPrio - 120).toUInt32 = _
  rw [hnice]
  apply UInt32.toNat_inj.mp
  show (BitVec.ofInt 32 nice).toNat = _
  rw [ofInt_toNat, BitVec.toNat_ofInt]
  rfl

/-- The comparison with `-10` holds below, and again from 0 on. -/
theorem ofInt_le_iff {n : ℤ} (hlo : -20 ≤ n) (hhi : n ≤ 19) :
    UInt32.ofInt n ≤ -10 ↔ n ≤ -10 ∨ 0 ≤ n := by
  rw [UInt32.le_iff_toNat_le, ofInt_toNat, show UInt32.toNat (-10) = 4294967286 from rfl]
  omega

/-- The documented table has no realtime task with a nice value above -10. -/
theorem documentedClass_ne_realtimeAi (t : AiTaskTelemetry) {nice : ℤ} (h : ¬ nice ≤ -10) :
    documentedClass t nice ≠ .realtimeAi := by
  unfold documentedClass
  rw [if_neg (show ¬ (nice ≤ -10 ∧ t.cpuUtilRecent ≥ 40) from fun hc => h hc.1)]
  split
  · decide
  split
  · decide
  split <;> decide

/-- **Table.** For a nice value in its range, `classify_heuristic` follows the documented
    table exactly if the record is one of a system task, its CPU usage is below 40, or the
    nice value is negative. -/
theorem classify_heuristic_documented_iff (t : AiTaskTelemetry) (n : ℤ) (hlo : -20 ≤ n)
    (hhi : n ≤ 19) (henc : t.niceValue = UInt32.ofInt n) :
    Classifier.classifyHeuristic (some t) = documentedClass t n ↔
      (t.schedClass = 0 ∨ t.schedClass = 5) ∨ t.cpuUtilRecent < 40 ∨ n < 0 := by
  have hle := ofInt_le_iff hlo hhi
  rw [← henc] at hle
  by_cases hsys : t.schedClass = 0 ∨ t.schedClass = 5
  · -- both tables look at the scheduling class first
    have hrule : Classifier.systemRule t = true := by
      simpa [Classifier.systemRule] using hsys.symm
    simp [Classifier.classifyHeuristic, documentedClass, hrule, hsys]
  · have hrule : Classifier.systemRule t = false := by
      simpa [Classifier.systemRule, not_or, and_comm] using hsys
    by_cases hcpu : t.cpuUtilRecent ≥ 40
    · have hnot : ¬ t.cpuUtilRecent < 40 := UInt32.not_lt.mpr hcpu
      by_cases hneg : n < 0
      · -- for a negative value the two comparisons agree
        have hsame : t.niceValue ≤ -10 ↔ n ≤ -10 :=
          ⟨fun h => (hle.mp h).resolve_right (by omega), fun h => hle.mpr (.inl h)⟩
        simp [Classifier.classifyHeuristic, documentedClass, hrule, hsys, hcpu, hsame, hneg]
      · -- a value from 0 on is taken for one below -10
        have hcode : Classifier.classifyHeuristic (some t) = .realtimeAi := by
          simp [Classifier.classifyHeuristic, hrule, hle.mpr (.inr (by omega)), hcpu]
        have hdoc := documentedClass_ne_realtimeAi t (show ¬ n ≤ -10 by omega)
        constructor
        · intro h
          exact absurd (h.symm.trans hcode) hdoc
        · rintro (h | h | h)
          · exact absurd h hsys
          · exact absurd h hnot
          · exact absurd h hneg
    · have hlt : t.cpuUtilRecent < 40 := UInt32.not_le.mp hcpu
      simp [Classifier.classifyHeuristic, documentedClass, hrule, hsys, hcpu, hlt]

/-- A busy record of scheduling class 1 with the nice value `n`. -/
private def busy (n : ℤ) : AiTaskTelemetry :=
  { AiTaskTelemetry.zero with schedClass := 1, cpuUtilRecent := 60, niceValue := UInt32.ofInt n }

/-- A busy task with the highest priority. -/
theorem classify_heuristic_documented_iff_high :
    Classifier.classifyHeuristic (some (busy (-20))) = documentedClass (busy (-20)) (-20) :=
  (classify_heuristic_documented_iff (busy (-20)) (-20) (by decide) (by decide) rfl).mpr
    (.inr (.inr (by decide)))

/-- A busy task with the default priority is taken for a realtime task. -/
theorem classify_heuristic_documented_not_default :
    ¬ ∀ (t : AiTaskTelemetry) (n : ℤ), -20 ≤ n → n ≤ 19 → t.niceValue = UInt32.ofInt n →
      Classifier.classifyHeuristic (some t) = documentedClass t n := by
  intro hall
  exact absurd (hall (busy 0) 0 (by decide) (by decide) rfl) (by decide)

end AieOs
