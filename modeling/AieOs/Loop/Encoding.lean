import AieOs.Kernel.Sched
import AieOs.Daemon.Classifier

namespace AieOs

/-!
# The telemetry record between kernel and daemon

`emit_telemetry` writes a record, `classify_heuristic` reads it; they share only the
integer fields.  Two conventions have to agree: the unit of `cpu_util_recent`, in percent
by the header, and the meaning of `sched_class`, the kernel's policy code.  The kernel
shifts its load average (1024 = fully busy) right by two, and the rule for system tasks
takes the policy code of ordinary tasks for one of theirs; `encoding_agrees_iff` says for
which tasks the two sides agree nevertheless.
-/

/-- The scheduling policies of the kernel, `SCHED_*`. -/
inductive SchedPolicy
  | normal | fifo | rr | batch | idle | deadline | ext
  deriving DecidableEq, Repr

/-- The numbers of the kernel's policies; 4 is not in use. -/
instance : CEnum SchedPolicy where
  code
    | .normal   => 0
    | .fifo     => 1
    | .rr       => 2
    | .batch    => 3
    | .idle     => 5
    | .deadline => 6
    | .ext      => 7
  all := [.normal, .fifo, .rr, .batch, .idle, .deadline, .ext]
  mem_all e := by cases e <;> decide
  code_inj e e' h := by cases e <;> cases e' <;> first | rfl | exact absurd h (by decide)

@[inherit_doc AiTaskClass.code]
abbrev SchedPolicy.code (s : SchedPolicy) : UInt32 := CEnum.code s

namespace TaskStruct

/-- `PF_KTHREAD`. -/
def isKernelThread (p : TaskStruct) : Bool := p.flags &&& 0x00200000 ≠ 0

/-- The load of `p` is at least `percent` of a fully busy CPU. -/
def BusyAtLeast (p : TaskStruct) (percent : ℕ) : Prop := percent * 1024 ≤ 100 * p.utilAvg.toNat

/-- The memory of `p` in bytes. -/
def memoryBytes (p : TaskStruct) : ℕ :=
  match p.mm with
  | some totalVm => totalVm.toNat * 4096
  | none         => 0

end TaskStruct

/-- The record `telem` means to `classify_heuristic` what it should about the task `p`. -/
structure EncodingAgrees (p : TaskStruct) (telem : AiTaskTelemetry) : Prop where
  /-- "Recent CPU utilization % (0-100)". -/
  percent : telem.cpuUtilRecent ≤ 100
  /-- "High CPU usage". -/
  highUsage : telem.cpuUtilRecent ≥ 40 ↔ p.BusyAtLeast 40
  /-- "Moderate CPU usage". -/
  moderateUsage : telem.cpuUtilRecent ≥ 20 ↔ p.BusyAtLeast 20
  /-- "System / kernel tasks". -/
  systemTask : Classifier.systemRule telem = true →
    p.isKernelThread = true ∨ p.policy = SchedPolicy.idle.code
  /-- An ordinary user task with 100 MB of memory is not background work. -/
  userTask : p.isKernelThread = false → p.policy = SchedPolicy.normal.code →
    100 * 2 ^ 20 ≤ p.memoryBytes →
    Classifier.classifyHeuristic (some telem) ≠ .background

/-! ### The two conventions -/

/-- A quarter of the load average passes the test for `percent` as the load itself does,
    unless the load lies between four times the threshold and the true one. -/
theorem quarter_ge_iff (percent u : ℕ) :
    (percent ≤ u / 4 ↔ percent * 1024 ≤ 100 * u) ↔
      u < 4 * percent ∨ percent * 1024 ≤ 100 * u := by
  omega

/-- The load in a record is a quarter of the load average. -/
theorem telemetryRecord_cpuUtilRecent (ctx : HookCtx) {p : TaskStruct} (telem : AiTaskTelemetry)
    (h : p.utilAvg.toNat ≤ 1024) :
    (telemetryRecord ctx p telem).cpuUtilRecent.toNat = p.utilAvg.toNat / 4 := by
  show (p.utilAvg >>> 2).toUInt32.toNat = p.utilAvg.toNat / 4
  rw [UInt64.toNat_toUInt32, UInt64.toNat_shiftRight, show UInt64.toNat 2 % 64 = 2 from rfl,
    Nat.shiftRight_eq_div_pow]
  omega

/-- The rule for system tasks fires on the idle and the normal policy. -/
theorem systemRule_iff (ctx : HookCtx) (p : TaskStruct) (telem : AiTaskTelemetry) :
    Classifier.systemRule (telemetryRecord ctx p telem) = true ↔
      p.policy = SchedPolicy.idle.code ∨ p.policy = SchedPolicy.normal.code := by
  show (decide (p.policy = SchedPolicy.idle.code) || decide (p.policy = SchedPolicy.normal.code))
    = true ↔ _
  rw [Bool.or_eq_true, decide_eq_true_eq, decide_eq_true_eq]

/-! ### Results -/

/-- **Encoding.** The record of `p` means to the daemon what it should exactly if `p` is
    almost idle, below 80 of 1024, and is no user task under the normal policy. -/
theorem encoding_agrees_iff (ctx : HookCtx) (p : TaskStruct) (telem : AiTaskTelemetry)
    (h : p.utilAvg.toNat ≤ 1024) :
    EncodingAgrees p (telemetryRecord ctx p telem) ↔
      p.utilAvg.toNat < 80 ∧
        (p.policy ≠ SchedPolicy.normal.code ∨ p.isKernelThread = true) := by
  have hcpu := telemetryRecord_cpuUtilRecent ctx telem h
  have hge : ∀ n : UInt32, (telemetryRecord ctx p telem).cpuUtilRecent ≥ n ↔
      n.toNat ≤ p.utilAvg.toNat / 4 := fun n => by
    rw [ge_iff_le, UInt32.le_iff_toNat_le, hcpu]
  have hle : (telemetryRecord ctx p telem).cpuUtilRecent ≤ 100 ↔ p.utilAvg.toNat / 4 ≤ 100 := by
    rw [UInt32.le_iff_toNat_le, hcpu]
    exact Iff.rfl
  have hhigh := quarter_ge_iff 40 p.utilAvg.toNat
  have hmoderate := quarter_ge_iff 20 p.utilAvg.toNat
  constructor
  · intro hagrees
    constructor
    · -- the two tests leave the range from 410 on, where the load exceeds 100
      have h1 := hle.mp hagrees.percent
      have h2 := hhigh.mp ((hge 40).symm.trans hagrees.highUsage)
      have h3 := hmoderate.mp ((hge 20).symm.trans hagrees.moderateUsage)
      omega
    · -- a user task under the normal policy is taken for a system task
      by_contra hnot
      rw [not_or, not_not, Bool.not_eq_true] at hnot
      have hrule := (systemRule_iff ctx p telem).mpr (.inr hnot.1)
      rcases hagrees.systemTask hrule with hk | hidle
      · rw [hnot.2] at hk
        exact absurd hk (by decide)
      · rw [hnot.1] at hidle
        exact absurd hidle (by decide)
  · rintro ⟨hu, hpolicy⟩
    refine ⟨hle.mpr (by omega), (hge 40).trans (hhigh.mpr (.inl (by omega))),
      (hge 20).trans (hmoderate.mpr (.inl (by omega))), ?_, ?_⟩
    · intro hrule
      rcases (systemRule_iff ctx p telem).mp hrule with hidle | hnormal
      · exact .inr hidle
      · exact .inl (hpolicy.resolve_left fun hne => hne hnormal)
    · intro huser hnormal
      rcases hpolicy with hne | hk
      · exact absurd hnormal hne
      · rw [huser] at hk
        exact absurd hk (by decide)

/-- A fully busy user task under the normal policy. -/
private def busyTask : TaskStruct := { TaskStruct.ordinary 7 with utilAvg := 1024 }

/-- The load of a busy task is recorded as 256 percent. -/
theorem encoding_not_busy :
    ¬ ∀ (ctx : HookCtx) (p : TaskStruct) (telem : AiTaskTelemetry), p.utilAvg.toNat ≤ 1024 →
      EncodingAgrees p (telemetryRecord ctx p telem) := by
  intro hall
  have hpercent := (hall .quiet busyTask .zero (by decide)).percent
  exact absurd hpercent (by decide)

/-- A real-time task at 64 of 1024. -/
theorem encoding_agrees_iff_fifo :
    EncodingAgrees { TaskStruct.ordinary 7 with policy := SchedPolicy.fifo.code, utilAvg := 64 }
      (telemetryRecord .quiet
        { TaskStruct.ordinary 7 with policy := SchedPolicy.fifo.code, utilAvg := 64 }
        .zero) :=
  (encoding_agrees_iff .quiet _ .zero (by decide)).mpr ⟨by decide, .inl (by decide)⟩

end AieOs
