import AieOs.Daemon.OnnxClassifier
import AieOs.Kernel.Sched
import AieOs.Lib.Wraparound

namespace AieOs

open Lib

/-!
# Sizes on their way to a classification

The pages of a task become megabytes with a 64-bit product and a conversion to 32 bits, and
the bytes read and written are added with 32 bits.  Both wrap, so the largest workloads can
look like the smallest.

* `pagesToMb_toNat`, `ioTotal_toNat` — the figures as numbers;
* `classifyTaskFallback_of_le`, `classifyHeuristic_of_le` — a larger figure keeps a large task
  in its class;
* `sizes_grow_iff` — up to which sizes the figures grow.
-/

/-- The task with another number of pages. -/
def TaskStruct.withPages (p : TaskStruct) (pages : UInt64) : TaskStruct :=
  { p with mm := some pages }

/-- Not a kernel thread or system task. -/
def TaskStruct.IsUser (p : TaskStruct) : Prop := p.flags &&& (0x00200000 ||| 0x00000002) = 0

/-- The I/O total of feature 2 of `OnnxClassifier`, before it is converted to `float`. -/
def ioTotal (telemetry : AiTaskTelemetry) : UInt32 :=
  telemetry.ioReadBytes + telemetry.ioWriteBytes

/-- Feature 2 is that total. -/
theorem features_ioTotal (clock : Timespec) (telemetry : AiTaskTelemetry) :
    (OnnxClassifier.features clock telemetry)[2] = (ioTotal telemetry).toFloat32 := rfl

/-- The figures of a task with that many pages, and the I/O total of a record, are at least
    those for smaller sizes, and the classes show it. -/
structure SizesGrow (ctx : HookCtx) (memory : AiTaskTelemetry) (p : TaskStruct) (pages : UInt64)
    (telemetry : AiTaskTelemetry) : Prop where
  /-- In `classify_task_fallback`. -/
  fallbackMb : ∀ fewer ≤ pages, pagesToMb fewer ≤ pagesToMb pages
  /-- In `emit_telemetry`. -/
  emittedMb : ∀ fewer ≤ pages, (telemetryRecord ctx (p.withPages fewer) memory).memoryRssMb
    ≤ (telemetryRecord ctx (p.withPages pages) memory).memoryRssMb
  fallbackClass : ∀ fewer ≤ pages, p.IsUser →
    classifyTaskFallback (p.withPages fewer) = .batchAi ∨
      classifyTaskFallback (p.withPages fewer) = .interactiveAi →
    classifyTaskFallback (p.withPages pages) ≠ .unknown ∧
      classifyTaskFallback (p.withPages pages) ≠ .background
  heuristicClass : ∀ fewer ≤ pages,
    Classifier.classifyHeuristic (some (telemetryRecord ctx (p.withPages fewer) memory))
      = .batchAi →
    Classifier.classifyHeuristic (some (telemetryRecord ctx (p.withPages pages) memory))
        ≠ .interactiveAi ∧
      Classifier.classifyHeuristic (some (telemetryRecord ctx (p.withPages pages) memory))
        ≠ .background
  ioRead : ∀ fewer ≤ telemetry.ioReadBytes,
    ioTotal { telemetry with ioReadBytes := fewer } ≤ ioTotal telemetry
  ioWrite : ∀ fewer ≤ telemetry.ioWriteBytes,
    ioTotal { telemetry with ioWriteBytes := fewer } ≤ ioTotal telemetry

/-! ### The figures -/

/-- The megabytes, as a number; the shift drops what the multiplication has lost. -/
theorem pagesToMb_toNat (pages : UInt64) :
    (pagesToMb pages).toNat = pages.toNat / 256 % 2 ^ 32 := by
  have hshift : ((pages * 4096) >>> 20).toNat = pages.toNat * 4096 % 2 ^ 64 / 2 ^ 20 := by
    rw [UInt64.toNat_shiftRight, UInt64.toNat_mul]
    exact Nat.shiftRight_eq_div_pow _ _
  rw [pagesToMb, UInt64.toNat_toUInt32, hshift]
  omega

/-- The I/O total, as a number. -/
theorem ioTotal_toNat (telemetry : AiTaskTelemetry) :
    (ioTotal telemetry).toNat
      = (telemetry.ioReadBytes.toNat + telemetry.ioWriteBytes.toNat) % 2 ^ 32 :=
  UInt32.toNat_add ..

/-- The megabytes grow up to `2 ^ 40` pages; beyond, they do only up to a number of pages at
    which the figure is the largest there is. -/
theorem pagesToMb_grows_iff (pages : UInt64) :
    (∀ fewer ≤ pages, pagesToMb fewer ≤ pagesToMb pages) ↔
      pages.toNat < 2 ^ 40 ∨ pages.toNat / 256 % 2 ^ 32 = 2 ^ 32 - 1 := by
  have hmod := forall_mod_le_iff (M := 2 ^ 32) (by omega) (Nat.zero_le (pages.toNat / 256))
  have hsmall : pages.toNat / 256 / 2 ^ 32 = 0 / 2 ^ 32 ↔ pages.toNat < 2 ^ 40 := by omega
  rw [← hsmall, ← hmod]
  constructor
  · intro hgrows m _ hm
    have hpages := pages.toNat_lt
    -- the first page count with so many megabytes
    have hm' : (UInt64.ofNat (m * 256)).toNat = m * 256 :=
      UInt64.toNat_ofNat_of_lt' (show m * 256 < 2 ^ 64 by omega)
    have hfewer := hgrows (UInt64.ofNat (m * 256)) (by rw [UInt64.le_iff_toNat_le, hm']; omega)
    rwa [UInt32.le_iff_toNat_le, pagesToMb_toNat, pagesToMb_toNat, hm',
      Nat.mul_div_cancel m (by omega)] at hfewer
  · intro hle fewer hfewer
    rw [UInt32.le_iff_toNat_le, pagesToMb_toNat, pagesToMb_toNat]
    exact hle _ (Nat.zero_le _) (Nat.div_le_div_right (UInt64.le_iff_toNat_le.mp hfewer))

/-- The I/O total grows with the bytes read exactly below `2 ^ 32`. -/
theorem ioTotal_read_grows_iff (telemetry : AiTaskTelemetry) :
    (∀ fewer ≤ telemetry.ioReadBytes,
        ioTotal { telemetry with ioReadBytes := fewer } ≤ ioTotal telemetry) ↔
      telemetry.ioReadBytes.toNat + telemetry.ioWriteBytes.toNat < 2 ^ 32 := by
  rw [← forall_add_mod_le_iff telemetry.ioReadBytes.toNat_lt telemetry.ioWriteBytes.toNat_lt]
  constructor
  · intro hgrows x hx
    -- a smaller number is a 32-bit number too
    have hx' : (UInt32.ofNat x).toNat = x :=
      UInt32.toNat_ofNat_of_lt' (Nat.lt_of_le_of_lt hx telemetry.ioReadBytes.toNat_lt)
    have hfewer := hgrows (UInt32.ofNat x) (by rwa [UInt32.le_iff_toNat_le, hx'])
    rwa [UInt32.le_iff_toNat_le, ioTotal_toNat, ioTotal_toNat, hx'] at hfewer
  · intro hle fewer hfewer
    rw [UInt32.le_iff_toNat_le, ioTotal_toNat, ioTotal_toNat]
    exact hle fewer.toNat (UInt32.le_iff_toNat_le.mp hfewer)

/-- The two counts play the same part. -/
theorem ioTotal_write_grows {telemetry : AiTaskTelemetry}
    (h : telemetry.ioReadBytes.toNat + telemetry.ioWriteBytes.toNat < 2 ^ 32) (fewer : UInt32)
    (hfewer : fewer ≤ telemetry.ioWriteBytes) :
    ioTotal { telemetry with ioWriteBytes := fewer } ≤ ioTotal telemetry := by
  have hswap := (ioTotal_read_grows_iff
    { telemetry with
      ioReadBytes := telemetry.ioWriteBytes
      ioWriteBytes := telemetry.ioReadBytes }).mpr (by dsimp only; omega) fewer hfewer
  unfold ioTotal at hswap ⊢
  rwa [UInt32.add_comm fewer, UInt32.add_comm telemetry.ioWriteBytes] at hswap

/-! ### The classes -/

section
variable {p : TaskStruct} {fewer pages : UInt64}

/-- The class of a user task with that many pages. -/
theorem classifyTaskFallback_withPages (huser : p.IsUser) (pages : UInt64) :
    classifyTaskFallback (p.withPages pages) =
      if p.state = 0 ∧ p.prio < 100 then .realtimeAi
      else if (p.signal.elim 1 Int32.toUInt32) > 4 ∧ pagesToMb pages > 50 then .batchAi
      else if pagesToMb pages > 200 then .interactiveAi
      else if p.prio > 130 then .background
      else .unknown := by
  have hnot : ¬ p.flags &&& (0x00200000 ||| 0x00000002) ≠ 0 := not_not_intro huser
  unfold classifyTaskFallback TaskStruct.withPages
  cases p.signal with
  | none => exact if_neg hnot
  | some nrThreads => exact if_neg hnot

/-- With more megabytes a user task of the two classes stays in one of them. -/
theorem classifyTaskFallback_of_le (hmb : pagesToMb fewer ≤ pagesToMb pages) (huser : p.IsUser)
    (hclass : classifyTaskFallback (p.withPages fewer) = .batchAi ∨
      classifyTaskFallback (p.withPages fewer) = .interactiveAi) :
    classifyTaskFallback (p.withPages pages) ≠ .unknown ∧
      classifyTaskFallback (p.withPages pages) ≠ .background := by
  rw [classifyTaskFallback_withPages huser] at hclass ⊢
  split_ifs at hclass with hrt hbatch hlarge
  · -- the real-time class does not depend on the memory
    simp at hclass
  · -- batch work stays batch work
    rw [if_neg hrt, if_pos ⟨hbatch.1, UInt32.lt_of_lt_of_le hbatch.2 hmb⟩]
    simp
  · -- an interactive task stays one, or becomes batch work
    rw [if_neg hrt, if_pos (UInt32.lt_of_lt_of_le hlarge hmb)]
    split_ifs <;> simp
  all_goals simp at hclass

end

/-- With more megabytes a record of batch work stays batch work. -/
theorem classifyHeuristic_of_le {telemetry : AiTaskTelemetry} {mb : UInt32}
    (hmb : telemetry.memoryRssMb ≤ mb)
    (hclass : Classifier.classifyHeuristic (some telemetry) = .batchAi) :
    Classifier.classifyHeuristic (some { telemetry with memoryRssMb := mb }) = .batchAi := by
  unfold Classifier.classifyHeuristic at hclass
  dsimp only at hclass
  split_ifs at hclass with hsystem hrt hbatch
  have hbatch' : mb ≥ 100 ∨ telemetry.numThreads ≥ 2 :=
    hbatch.imp_left fun hlarge => UInt32.le_trans hlarge hmb
  exact (if_neg hsystem).trans ((if_neg hrt).trans (if_pos hbatch'))

/-! ### Results -/

/-- **Sizes.** The figures grow, and the classes with them, exactly up to a task size below
    `2 ^ 40` pages, or one whose figure is the largest there is, and an I/O total below
    `2 ^ 32` bytes. -/
theorem sizes_grow_iff (ctx : HookCtx) (memory : AiTaskTelemetry) (p : TaskStruct)
    (pages : UInt64) (telemetry : AiTaskTelemetry) :
    SizesGrow ctx memory p pages telemetry ↔
      (pages.toNat < 2 ^ 40 ∨ pages.toNat / 256 % 2 ^ 32 = 2 ^ 32 - 1) ∧
        telemetry.ioReadBytes.toNat + telemetry.ioWriteBytes.toNat < 2 ^ 32 := by
  rw [← pagesToMb_grows_iff, ← ioTotal_read_grows_iff]
  constructor
  · intro h
    exact ⟨h.fallbackMb, h.ioRead⟩
  · rintro ⟨hmb, hio⟩
    exact
      { fallbackMb := hmb
        emittedMb := hmb
        fallbackClass := fun fewer hfewer huser hclass =>
          classifyTaskFallback_of_le (hmb fewer hfewer) huser hclass
        heuristicClass := fun fewer hfewer hclass => by
          have hrecord : telemetryRecord ctx (p.withPages pages) memory
              = { telemetryRecord ctx (p.withPages fewer) memory with
                  memoryRssMb := pagesToMb pages } := rfl
          rw [hrecord, classifyHeuristic_of_le (hmb fewer hfewer) hclass]
          simp
        ioRead := hio
        ioWrite := ioTotal_write_grows ((ioTotal_read_grows_iff telemetry).mp hio) }

/-- A user task with five threads. -/
private def fiveThreads : TaskStruct := { TaskStruct.ordinary 1 with signal := some 5, state := 1 }

/-- One page more, and the largest batch task has no memory to speak of; one byte more, and
    the largest I/O total is zero. -/
theorem sizes_wrap :
    (classifyTaskFallback (fiveThreads.withPages 0xFFFFFFFFFF) = .batchAi ∧
      classifyTaskFallback (fiveThreads.withPages 0x10000000000) = .unknown) ∧
    (ioTotal { AiTaskTelemetry.zero with ioReadBytes := 0xFFFFFFFF } = 0xFFFFFFFF ∧
      ioTotal { AiTaskTelemetry.zero with ioReadBytes := 0xFFFFFFFF, ioWriteBytes := 1 } = 0) ∧
    ¬ SizesGrow .quiet .zero fiveThreads 0x10000000000 .zero := by
  refine ⟨by decide, by decide, fun h => ?_⟩
  exact absurd (h.fallbackMb 0xFFFFFFFFFF (by decide)) (by decide)

end AieOs
