import AieOs.Kernel.ServiceOrder

namespace AieOs

open Lib

/-!
# A scheduler that attaches and its queues

`ai_sched_init` creates the five DSQs and returns 0 whatever the five calls return.  Each
of the five can be the target of an enqueue, so the scheduler is safe to attach exactly if
all the calls succeed.
-/

section
variable (createRet : UInt64 → Int32) (m : SchedMaps)

/-- `ai_sched_init` of a scheduler with the maps `m`, where `scx_bpf_create_dsq(id, -1)`
    returns `createRet id`: its return value and the state afterwards. -/
def initFrom : Int32 × SchedState := aiSchedInit createRet { maps := m, scx := Scx.empty }

/-- Some call of `select_dsq` returns `d`. -/
def Dsq.Selectable (d : Dsq) : Prop :=
  ∃ m taskClass preferredDevice, selectDsq m taskClass preferredDevice = d

/-- A scheduler that attaches never targets a missing queue. -/
structure AttachSafe : Prop where
  /-- After a successful initialisation every insertion of every run names a created DSQ. -/
  inserts : (initFrom createRet m).1 = 0 → ∀ es,
    ∀ x ∈ (run SchedState.step (initFrom createRet m).2 es).scx.inserted,
      ((initFrom createRet m).2.scx.dsqs x.1).isSome
  /-- A failed creation of a queue that `select_dsq` can return is reported. -/
  reports : (∃ d : Dsq, d.Selectable ∧ createRet d.id < 0) → (initFrom createRet m).1 ≠ 0

end

/-! ### What `ai_sched_init` creates -/

/-- A successful call makes one queue, empty; all others are as before. -/
theorem Scx.scxBpfCreateDsq_dsqs (ret : Int32) (id id' : UInt64) (s : Scx) :
    (s.scxBpfCreateDsq ret id).dsqs id' = if ret = 0 ∧ id' = id then some [] else s.dsqs id' := by
  unfold Scx.scxBpfCreateDsq
  by_cases hret : ret = 0 <;> by_cases hid : id' = id <;> simp [hret, hid]

section
variable (createRet : UInt64 → Int32) (m : SchedMaps)

/-- A DSQ exists exactly if its creation succeeded. -/
theorem initFrom_dsqs (d : Dsq) :
    (((initFrom createRet m).2.scx.dsqs d.id).isSome) = true ↔ createRet d.id = 0 := by
  have hid : ∀ d' : Dsq, d.id = d'.id ↔ d = d' := fun d' => Dsq.id_inj
  simp only [initFrom, aiSchedInit, Scx.scxBpfCreateDsq_dsqs, hid, Scx.empty]
  cases d <;> simp

end

/-! ### What an enqueue can target -/

/-- The decision that sends its process to `d`. -/
def decisionTo (d : Dsq) : AiSchedDecision :=
  { AiSchedDecision.zero with
    taskClass := AiTaskClass.unknown.code
    preferredDevice :=
      match d with
      | .perf     => AiComputeDevice.perfCore.code
      | .eff      => AiComputeDevice.effCore.code
      | .gpu      => AiComputeDevice.gpu.code
      | .npu      => AiComputeDevice.npu.code
      | .fallback => AiComputeDevice.auto.code }

/-- There is a decision that leads to each DSQ. -/
theorem selectDsq_decisionTo (m : SchedMaps) (d : Dsq) :
    selectDsq m (decisionTo d).taskClass (decisionTo d).preferredDevice = d := by
  cases d <;> rfl

/-- So no DSQ can be left out by a task. -/
theorem Dsq.selectable (d : Dsq) : d.Selectable := ⟨.fresh, _, _, selectDsq_decisionTo .fresh d⟩

/-- Every insertion names one of the five DSQs. -/
theorem run_inserted_dsq {s : SchedState} (h : ∀ x ∈ s.scx.inserted, ∃ d : Dsq, x.1 = d.id)
    (es : List SchedEvent) :
    ∀ x ∈ (run SchedState.step s es).scx.inserted, ∃ d : Dsq, x.1 = d.id := by
  induction es using List.reverseRecOn with
  | nil => exact h
  | append_singleton es e ih =>
    rw [run_concat, step_inserted]
    intro x hx
    rcases List.mem_append.mp hx with hx | hx
    · exact ih x hx
    · cases e with
      | enqueue ctx ptr p enqFlags => exact ⟨_, congrArg Prod.fst (List.mem_singleton.mp hx)⟩
      | _ => cases hx

/-- From any state, each of the five can be the next target. -/
theorem exists_run_inserted (s : SchedState) (d : Dsq) :
    ∃ es, ∃ x ∈ (run SchedState.step s es).scx.inserted, x.1 = d.id := by
  -- a process that has a decision, or for which there is room
  obtain ⟨pid, hpid⟩ : ∃ pid, (s.maps.schedDecisions.lookup pid).isSome ∨
      s.maps.schedDecisions.entries.length < 16384 := by
    cases hentries : s.maps.schedDecisions.entries with
    | nil => exact ⟨0, .inr (by simp)⟩
    | cons e rest =>
      have hkey : e.1 ∈ s.maps.schedDecisions.keys := by simp [BoundedMap.keys, hentries]
      exact ⟨e.1, .inl (BoundedMap.mem_keys_iff.mp hkey)⟩
  have hlookup : (s.step (.writeDecision pid (decisionTo d))).maps.schedDecisions.lookup pid
      = some (decisionTo d) := BoundedMap.lookup_insert_self hpid
  refine ⟨[.writeDecision pid (decisionTo d), .enqueue .quiet 7 (.ordinary pid) 0], ?_⟩
  rw [run_cons, run_cons, run_nil, step_inserted]
  refine ⟨_, List.mem_append_right _ (List.mem_singleton.mpr rfl), ?_⟩
  have hchoice : enqueueDsq (s.step (.writeDecision pid (decisionTo d))).maps (.ordinary pid)
      = d := by
    simp only [enqueueDsq, enqueueChoice, TaskStruct.ordinary, hlookup]
    exact selectDsq_decisionTo _ d
  rw [enqueueInsertion, hchoice]

/-! ### Result -/

/-- **Attachment.** A scheduler that attaches targets no missing queue exactly if all five
    creations succeed. -/
theorem attach_safe_iff (createRet : UInt64 → Int32) (m : SchedMaps) :
    AttachSafe createRet m ↔ ∀ d : Dsq, createRet d.id = 0 := by
  constructor
  · intro h d
    obtain ⟨es, x, hx, hxd⟩ := exists_run_inserted (initFrom createRet m).2 d
    have hcreated := h.inserts rfl es x hx
    rwa [hxd, initFrom_dsqs] at hcreated
  · intro hall
    refine ⟨fun _ es x hx => ?_, ?_⟩
    · obtain ⟨d, hd⟩ := run_inserted_dsq (fun y hy => absurd hy (by
        simp [initFrom, aiSchedInit, Scx.scxBpfCreateDsq, Scx.empty, hall])) es x hx
      rw [hd, initFrom_dsqs]
      exact hall d
    · rintro ⟨d, -, hneg⟩
      rw [hall d] at hneg
      exact absurd hneg (by decide)

/-- The queue of the efficiency cores cannot be created, and the scheduler attaches. -/
theorem attach_safe_not_enomem :
    ¬ ∀ (createRet : UInt64 → Int32) (m : SchedMaps), (∀ d : Dsq, createRet d.id ≤ 0) →
      AttachSafe createRet m := by
  intro hall
  have hsafe := hall (fun id => if id = Dsq.eff.id then -12 else 0) .fresh
    (fun d => by cases d <;> decide)
  exact hsafe.reports ⟨.eff, Dsq.selectable .eff, by decide⟩ rfl

end AieOs
