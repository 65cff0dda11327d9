import AieOs.Kernel.Telemetry
import AieOs.Lib.Runs
import Mathlib.Logic.Function.Basic

namespace AieOs

open Lib

/-!
# The lifetime of an accumulator

`task_accumulators` is counted into by thread-group id, but its entries are created and
deleted by thread id: `sched_process_fork` and `sched_process_exit` fire for every thread.
The entry of a process is that of its leader, so it lives as long as the leader does.  It
lives as long as the process exactly if no leader exits before another of its threads.
-/

/-- What happens to the threads under observation.  A process is created with its leader,
    whose thread id becomes the thread-group id. -/
inductive ThreadEvent
  /-- `sched_process_fork` for the leader of a new process. -/
  | createProcess (args : SchedProcessForkArgs) (reserved : Option AiTaskTelemetry)
  /-- `sched_process_fork` for another thread of the process `tgid`. -/
  | createThread (tgid : UInt32) (args : SchedProcessForkArgs)
      (reserved : Option AiTaskTelemetry)
  /-- `sys_enter` of the thread `current`. -/
  | sysEnter (current : CurrentTask)
  /-- `sched_process_exit` of a thread. -/
  | exit (args : SchedProcessExitArgs)

/-- The maps of the telemetry program and the threads it observes. -/
structure ThreadState where
  maps : TelemetryMaps
  /-- The process of each live thread. -/
  threads : UInt32 → Option UInt32
  /-- How many syscalls the threads of a process made since its creation. -/
  syscalls : UInt32 → ℕ

namespace ThreadState

/-- The handlers are attached and no thread under observation has started. -/
def initial : ThreadState := ⟨.fresh, fun _ => none, fun _ => 0⟩

/-- The effect of one event: its handler, and the kernel's view of the threads. -/
def step (s : ThreadState) : ThreadEvent → ThreadState
  | .createProcess args reserved =>
    { maps := handleSchedFork args reserved s.maps
      threads := Function.update s.threads args.childPid (some args.childPid)
      syscalls := Function.update s.syscalls args.childPid 0 }
  | .createThread tgid args reserved =>
    { s with
      maps := handleSchedFork args reserved s.maps
      threads := Function.update s.threads args.childPid (some tgid) }
  | .sysEnter current =>
    { s with
      maps := handleSysEnter current s.maps
      syscalls := Function.update s.syscalls current.tgid (s.syscalls current.tgid + 1) }
  | .exit args =>
    { s with
      maps := handleSchedExit args s.maps
      threads := Function.update s.threads args.pid none }

/-- The process `tgid` has a live thread. -/
def Live (s : ThreadState) (tgid : UInt32) : Prop := ∃ tid, s.threads tid = some tgid

/-- The entries are those of the living, and count the syscalls of their process. -/
structure AccumulatorsLive (s : ThreadState) : Prop where
  /-- A key is the id of a live thread or of a process with a live thread. -/
  keys : ∀ key ∈ s.maps.taskAccumulators.keys, (s.threads key).isSome ∨ s.Live key
  /-- A process with a live thread has an entry with all its syscalls. -/
  counts : ∀ tgid, s.Live tgid → ∃ accum,
    s.maps.taskAccumulators.lookup tgid = some accum ∧
      accum.totalSyscalls.toNat = s.syscalls tgid

end ThreadState

/-- What the kernel promises: a new thread gets an id that is not in use, only live threads
    act, and `task_accumulators` is not full. -/
def ThreadEvent.kernelOk (s : ThreadState) (e : ThreadEvent) : Prop :=
  s.maps.taskAccumulators.entries.length < 16384 ∧
    match e with
    | .createProcess args _     => s.threads args.childPid = none ∧ ¬ s.Live args.childPid
    | .createThread tgid args _ =>
      s.threads args.childPid = none ∧ ¬ s.Live args.childPid ∧ s.Live tgid
    | .sysEnter current         => s.threads current.pid = some current.tgid
    | .exit args                => (s.threads args.pid).isSome

/-- A leader exits only after the other threads of its process, and the counter of a
    process does not wrap. -/
def ThreadEvent.leaderLast (s : ThreadState) : ThreadEvent → Prop
  | .exit args        =>
    s.threads args.pid = some args.pid → ∀ tid, s.threads tid = some args.pid → tid = args.pid
  | .sysEnter current => s.syscalls current.tgid + 1 < 2 ^ 64
  | _                 => True

namespace ThreadState

/-- While leaders exit last, the leader of a live thread is alive, and the entries are
    those of the live threads. -/
structure LeadersLive (s : ThreadState) : Prop where
  leader : ∀ tid tgid, s.threads tid = some tgid → s.threads tgid = some tgid
  keys : ∀ key, (s.maps.taskAccumulators.lookup key).isSome → (s.threads key).isSome
  counts : ∀ tgid, s.threads tgid = some tgid → ∃ accum,
    s.maps.taskAccumulators.lookup tgid = some accum ∧
      accum.totalSyscalls.toNat = s.syscalls tgid

variable {s : ThreadState}

/-- The leader of a process with a live thread is alive. -/
theorem LeadersLive.live_iff (h : LeadersLive s) {tgid : UInt32} :
    s.Live tgid ↔ s.threads tgid = some tgid :=
  ⟨fun ⟨tid, htid⟩ => h.leader tid tgid htid, fun hlead => ⟨tgid, hlead⟩⟩

/-- While leaders exit last, the entries are those of the living. -/
theorem LeadersLive.accumulatorsLive (h : LeadersLive s) : AccumulatorsLive s where
  keys key hkey := .inl (h.keys key (BoundedMap.mem_keys_iff.mp hkey))
  counts tgid hlive := h.counts tgid (h.live_iff.mp hlive)

end ThreadState

/-! ### What the handlers do to the accumulators -/

/-- A fork makes the entry of the child, whether or not a record can be sent. -/
@[simp] theorem handleSchedFork_taskAccumulators (args : SchedProcessForkArgs)
    (reserved : Option AiTaskTelemetry) (m : TelemetryMaps) :
    (handleSchedFork args reserved m).taskAccumulators
      = m.taskAccumulators.insert args.childPid .zero := by
  unfold handleSchedFork
  cases reserved <;> rfl

/-- With an entry for the process, a syscall is counted in it. -/
theorem handleSysEnter_of_lookup {current : CurrentTask} {m : TelemetryMaps}
    {accum : TaskTelemetryAccum} (h : m.taskAccumulators.lookup current.tgid = some accum) :
    (handleSysEnter current m).taskAccumulators
      = m.taskAccumulators.insert current.tgid
          { accum with totalSyscalls := accum.totalSyscalls + 1 } := by
  simp [handleSysEnter, lookupOrCreate, h]

namespace ThreadState

variable {s s' : ThreadState}

/-! ### One event at a time -/

/-- A new thread whose leader is alive, or is the thread itself. -/
theorem LeadersLive.fork (h : LeadersLive s) {tid tgid : UInt32} (hfree : s.threads tid = none)
    (hleader : tgid = tid ∨ s.threads tgid = some tgid)
    (hroom : s.maps.taskAccumulators.entries.length < 16384)
    (hmaps : s'.maps.taskAccumulators = s.maps.taskAccumulators.insert tid .zero)
    (hthreads : s'.threads = Function.update s.threads tid (some tgid))
    (hsyscalls : ∀ g, g ≠ tid → s'.syscalls g = s.syscalls g)
    (hnew : tgid = tid → s'.syscalls tid = 0) : LeadersLive s' := by
  have hself : s'.threads tid = some tgid := by rw [hthreads, Function.update_self]
  have hother : ∀ t, t ≠ tid → s'.threads t = s.threads t := fun t ht => by
    rw [hthreads, Function.update_of_ne ht]
  -- the leader of a thread that was there before is another one than `tid`
  have hold : ∀ g, s.threads g = some g → s'.threads g = some g := by
    intro g hg
    rw [hother g (fun heq => by rw [heq, hfree] at hg; cases hg), hg]
  refine ⟨fun t g ht => ?_, fun key hkey => ?_, fun g hg => ?_⟩
  · by_cases htid : t = tid
    · subst htid
      rw [hself] at ht
      cases ht
      rcases hleader with rfl | hlead
      · exact hself
      · exact hold _ hlead
    · rw [hother t htid] at ht
      exact hold g (h.leader t g ht)
  · by_cases hkt : key = tid
    · rw [hkt, hself]
      rfl
    · rw [hmaps, BoundedMap.lookup_insert_of_ne hkt] at hkey
      rw [hother key hkt]
      exact h.keys key hkey
  · by_cases hgt : g = tid
    · subst hgt
      rw [hself] at hg
      have hlead : tgid = g := Option.some.inj hg
      refine ⟨.zero, ?_, ?_⟩
      · rw [hmaps, BoundedMap.lookup_insert_self (.inr hroom)]
      · rw [hnew hlead]
        rfl
    · rw [hother g hgt] at hg
      obtain ⟨accum, hlookup, hcount⟩ := h.counts g hg
      refine ⟨accum, ?_, ?_⟩
      · rw [hmaps, BoundedMap.lookup_insert_of_ne hgt, hlookup]
      · rw [hsyscalls g hgt, hcount]

/-- A syscall of a live thread. -/
theorem LeadersLive.sysEnter (h : LeadersLive s) {current : CurrentTask}
    (hlive : s.threads current.pid = some current.tgid)
    (hroom : s.maps.taskAccumulators.entries.length < 16384)
    (hwrap : s.syscalls current.tgid + 1 < 2 ^ 64) :
    LeadersLive (s.step (.sysEnter current)) := by
  have hlead := h.leader _ _ hlive
  obtain ⟨accum, hlookup, hcount⟩ := h.counts _ hlead
  have hmaps := handleSysEnter_of_lookup hlookup
  refine ⟨h.leader, fun key hkey => ?_, fun g hg => ?_⟩
  · by_cases hk : key = current.tgid
    · show (s.threads key).isSome
      rw [hk, hlead]
      rfl
    · rw [step, hmaps, BoundedMap.lookup_insert_of_ne hk] at hkey
      exact h.keys key hkey
  · by_cases hgc : g = current.tgid
    · subst hgc
      refine ⟨{ accum with totalSyscalls := accum.totalSyscalls + 1 }, ?_, ?_⟩
      · rw [step, hmaps, BoundedMap.lookup_insert_self (.inr hroom)]
      · show (accum.totalSyscalls + 1).toNat = Function.update s.syscalls _ _ _
        rw [Function.update_self, UInt64.toNat_add, hcount, show UInt64.toNat 1 = 1 from rfl]
        omega
    · obtain ⟨accum', hlookup', hcount'⟩ := h.counts g hg
      refine ⟨accum', ?_, ?_⟩
      · rw [step, hmaps, BoundedMap.lookup_insert_of_ne hgc, hlookup']
      · show _ = Function.update s.syscalls _ _ g
        rw [Function.update_of_ne hgc, hcount']

/-- The exit of a thread that is not the leader of another one. -/
theorem LeadersLive.exit (h : LeadersLive s) {args : SchedProcessExitArgs}
    (hlast : s.threads args.pid = some args.pid →
      ∀ tid, s.threads tid = some args.pid → tid = args.pid) :
    LeadersLive (s.step (.exit args)) := by
  have hother : ∀ t, t ≠ args.pid → (s.step (.exit args)).threads t = s.threads t := fun t ht =>
    Function.update_of_ne ht _ _
  have hgone : (s.step (.exit args)).threads args.pid = none := Function.update_self _ _ _
  have hne : ∀ t g, (s.step (.exit args)).threads t = some g → t ≠ args.pid := by
    rintro t g ht rfl
    rw [hgone] at ht
    cases ht
  refine ⟨fun t g ht => ?_, fun key hkey => ?_, fun g hg => ?_⟩
  · have htp := hne t g ht
    rw [hother t htp] at ht
    have hlead := h.leader t g ht
    -- the leader `g` stays, or `t` was not its last thread
    have hgp : g ≠ args.pid := by
      rintro rfl
      exact htp (hlast hlead t ht)
    rw [hother g hgp, hlead]
  · have hkp : key ≠ args.pid := by
      rintro rfl
      simp [step, handleSchedExit] at hkey
    rw [hother key hkp]
    rw [step, handleSchedExit, BoundedMap.lookup_erase_of_ne hkp] at hkey
    exact h.keys key hkey
  · have hgp := hne g g hg
    rw [hother g hgp] at hg
    obtain ⟨accum, hlookup, hcount⟩ := h.counts g hg
    refine ⟨accum, ?_, hcount⟩
    rw [step, handleSchedExit, BoundedMap.lookup_erase_of_ne hgp, hlookup]

/-! ### Whole runs -/

/-- Before anything runs there are no entries. -/
theorem leadersLive_initial : LeadersLive initial where
  leader _ _ h := absurd h (by simp [initial])
  keys _ h := absurd h (by simp [initial, TelemetryMaps.fresh])
  counts _ h := absurd h (by simp [initial])

/-- One event, where no leader leaves others behind. -/
theorem leadersLive_step {e : ThreadEvent} (h : LeadersLive s) (hok : e.kernelOk s)
    (hlast : e.leaderLast s) : LeadersLive (s.step e) := by
  obtain ⟨hroom, hok⟩ := hok
  cases e with
  | createProcess args reserved =>
    refine h.fork hok.1 (.inl rfl) hroom ?_ rfl (fun g hg => ?_) fun _ => ?_
    · exact handleSchedFork_taskAccumulators args reserved s.maps
    · exact Function.update_of_ne hg _ _
    · exact Function.update_self _ _ _
  | createThread tgid args reserved =>
    obtain ⟨hfree, hunused, hlive⟩ := hok
    refine h.fork hfree (.inr (h.live_iff.mp hlive)) hroom ?_ rfl (fun _ _ => rfl) fun htgid => ?_
    · exact handleSchedFork_taskAccumulators args reserved s.maps
    · exact absurd (htgid ▸ hlive) hunused
  | sysEnter current => exact h.sysEnter hok hroom hlast
  | exit args => exact h.exit hlast

/-- A leader that exits first takes the entry of its process along, and a counter that has
    wrapped no longer tells the number of syscalls. -/
theorem not_accumulatorsLive_of_not_leaderLast {e : ThreadEvent} (hok : e.kernelOk s)
    (hlast : ¬ e.leaderLast s) : ¬ AccumulatorsLive (s.step e) := by
  intro hP
  cases e with
  | createProcess args reserved => exact hlast trivial
  | createThread tgid args reserved => exact hlast trivial
  | sysEnter current =>
    have hlive : s.threads current.pid = some current.tgid := hok.2
    obtain ⟨accum, -, hcount⟩ := hP.counts current.tgid ⟨current.pid, hlive⟩
    have htotal : accum.totalSyscalls.toNat = s.syscalls current.tgid + 1 :=
      hcount.trans (Function.update_self _ _ _)
    have hlt := accum.totalSyscalls.toNat_lt
    rw [htotal] at hlt
    exact hlast hlt
  | exit args =>
    simp only [ThreadEvent.leaderLast] at hlast
    push Not at hlast
    obtain ⟨-, tid, htid, hne⟩ := hlast
    have hlive : (s.step (.exit args)).Live args.pid :=
      ⟨tid, (Function.update_of_ne hne _ _).trans htid⟩
    obtain ⟨accum, hlookup, -⟩ := hP.counts args.pid hlive
    rw [step, handleSchedExit, BoundedMap.lookup_erase_self] at hlookup
    cases hlookup

/-- **Accumulators.** In every state of a run the entries are those of the living and count
    all their syscalls, exactly if in the run every leader exits last in its process, and
    no counter wraps. -/
theorem accumulators_live_iff (es : List ThreadEvent)
    (h : Throughout step ThreadEvent.kernelOk initial es) :
    Always step AccumulatorsLive initial es ↔ Throughout step ThreadEvent.leaderLast initial es :=
  always_iff_throughout leadersLive_initial (fun _ hI => hI.accumulatorsLive)
    (fun _ _ => leadersLive_step) (fun _ _ _ => not_accumulatorsLive_of_not_leaderLast) h

/-- `sched_process_fork` of the thread `tid`. -/
private def forked (tid : UInt32) : SchedProcessForkArgs :=
  ⟨Vector.replicate 16 0, 1, Vector.replicate 16 0, tid⟩

/-- `sched_process_exit` of the thread `tid`. -/
private def exited (tid : UInt32) : SchedProcessExitArgs := ⟨Vector.replicate 16 0, tid, 120⟩

/-- Process 7 is created and creates thread 8. -/
private def twoThreads : List ThreadEvent :=
  [.createProcess (forked 7) none, .createThread 7 (forked 8) none]

/-- The ids 7 and 8 are free, and process 7 lives when it creates its thread. -/
private theorem kernelOk_twoThreads : Throughout step ThreadEvent.kernelOk initial twoThreads := by
  refine ⟨⟨by decide, rfl, ?_⟩, ⟨by decide, rfl, ?_, 7, rfl⟩, trivial⟩
  · rintro ⟨tid, htid⟩
    cases htid
  · -- the only live thread is the leader
    rintro ⟨tid, htid⟩
    by_cases htid7 : tid = 7
    · subst htid7
      exact absurd htid (by decide)
    · have hnone := (Function.update_of_ne (f := fun _ => none) htid7 _).symm.trans htid
      cases hnone

/-- Thread 8 makes a syscall and exits, then the leader does. -/
private def leaderLastRun : List ThreadEvent :=
  twoThreads ++ [.sysEnter ⟨8, 7, 0, 0⟩, .exit (exited 8), .exit (exited 7)]

/-- Nobody is alive in the process at the end, and at no time was a syscall lost. -/
theorem accumulators_live_iff_two_threads :
    Always step AccumulatorsLive initial leaderLastRun := by
  refine (accumulators_live_iff _ ?_).mpr ?_
  · rw [leaderLastRun, throughout_append]
    exact ⟨kernelOk_twoThreads, ⟨by decide, rfl⟩, ⟨by decide, rfl⟩, ⟨by decide, rfl⟩, trivial⟩
  · refine ⟨trivial, trivial, (by decide : 0 + 1 < 2 ^ 64), fun hleader => ?_, fun _ tid htid => ?_,
      trivial⟩
    · -- thread 8 is no leader
      exact absurd hleader (by decide)
    · by_contra hne
      have hthreads : Function.update (Function.update (Function.update
          (fun _ => none) 7 (some 7)) 8 (some 7)) 8 none tid = some (7 : UInt32) := htid
      by_cases htid8 : tid = 8
      · rw [htid8, Function.update_self] at hthreads
        cases hthreads
      · rw [Function.update_of_ne htid8, Function.update_of_ne htid8,
          Function.update_of_ne (show tid ≠ 7 from hne)] at hthreads
        cases hthreads

/-- The leader exits first. -/
private def leaderFirstRun : List ThreadEvent := twoThreads ++ [.exit (exited 7)]

/-- A process with a live thread has lost its entry. -/
theorem accumulators_live_not_leader_first :
    ¬ ∀ es : List ThreadEvent, Throughout step ThreadEvent.kernelOk initial es →
      Always step AccumulatorsLive initial es := by
  intro hall
  have hok : Throughout step ThreadEvent.kernelOk initial leaderFirstRun := by
    rw [leaderFirstRun, throughout_append]
    exact ⟨kernelOk_twoThreads, ⟨by decide, rfl⟩, trivial⟩
  -- thread 8 is alive, and the entry 7 of its process is gone
  have hnone : (run step initial leaderFirstRun).maps.taskAccumulators.lookup 7 = none := by
    decide
  obtain ⟨accum, hlookup, -⟩ :=
    (hall leaderFirstRun hok leaderFirstRun (List.prefix_refl _)).counts 7 ⟨8, rfl⟩
  rw [hnone] at hlookup
  cases hlookup

end ThreadState

end AieOs
