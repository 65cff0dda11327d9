import AieOs.Kernel.Telemetry
import AieOs.Lib.ElementMap
import AieOs.Lib.Runs

namespace AieOs

open Lib

/-!
# Creating an accumulator on several CPUs at once

`handle_sys_enter` and `handle_block_rq_issue` look for the accumulator of the process and
create it if there is none.  Look-up, creation and addition are separate operations: the
creation puts a new element in the place of the one that is there, and the addition goes to
the element that was found, even if it is no longer in the map.

* `Invocation.step` — the invocations for one process, operation by operation;
* `run_alone_sysEnter`, `run_alone_blockRqIssue` — an invocation alone is its handler;
* `RaceState.Accounted` — which additions the entry has, and which are or will be lost;
* `RaceState.creation_keeps_counts_iff` — when the entry counts every syscall.
-/

/-- The handlers that create an accumulator. -/
inductive AccumHandler
  | sysEnter | blockRqIssue
  deriving DecidableEq, Repr

/-- The next map operation of an invocation. -/
inductive AccumPc
  | lookup | create | lookupAgain
  /-- `accum` is the pointer that a look-up returned. -/
  | add (accum : ℕ)
  | done
  deriving DecidableEq, Repr

/-- Once an invocation has found the entry, `handle_sys_enter` adds to it and
    `handle_block_rq_issue` returns. -/
def AccumHandler.found (accum : ℕ) : AccumHandler → AccumPc
  | .sysEnter     => .add accum
  | .blockRqIssue => .done

/-- An invocation of a handler on some CPU. -/
structure Invocation where
  handler : AccumHandler
  pc : AccumPc
  deriving DecidableEq, Repr

/-- An element that was never made is zeroed. -/
instance : Inhabited TaskTelemetryAccum := ⟨.zero⟩

/-- `task_accumulators`, with the identity of its elements. -/
abbrev TaskAccumulators := ElementMap UInt32 TaskTelemetryAccum 16384

/-- `__sync_fetch_and_add(&accum->total_syscalls, 1)`. -/
def addSyscall (m : TaskAccumulators) (accum : ℕ) : TaskAccumulators :=
  m.modify accum fun accum => { accum with totalSyscalls := accum.totalSyscalls + 1 }

/-- The next map operation of `inv`. -/
def Invocation.step (pid : UInt32) (inv : Invocation) (m : TaskAccumulators) :
    Invocation × TaskAccumulators :=
  match inv.pc with
  | .lookup      =>
    match m.lookup pid with
    | some accum => ({ inv with pc := inv.handler.found accum }, m)
    | none       => ({ inv with pc := .create }, m)
  | .create      =>
    -- with flag 0: a new element, also where another invocation has made one by now
    ({ inv with pc := .lookupAgain }, m.insert pid .zero)
  | .lookupAgain =>
    match m.lookup pid with
    | some accum => ({ inv with pc := inv.handler.found accum }, m)
    | none       => ({ inv with pc := .done }, m)
  | .add accum   =>
    -- through the pointer: the element may have been replaced since the look-up
    ({ inv with pc := .done }, addSyscall m accum)
  | .done        => (inv, m)

/-- An invocation of `handle_sys_enter` that has found an entry: it is about to add to it, or
    has done so. -/
def Invocation.hasFound : Invocation → Bool
  | ⟨.sysEnter, .add _⟩ => true
  | ⟨.sysEnter, .done⟩  => true
  | _                   => false

/-- An invocation starts, or the `i`-th one takes a step. -/
inductive RaceEvent
  | enter (handler : AccumHandler)
  | step (i : ℕ)
  deriving DecidableEq, Repr

/-- The map and the invocations so far. -/
structure RaceState where
  accumulators : TaskAccumulators
  invocations : List Invocation

/-- How many syscalls of process `pid` were entered. -/
def sysEnters (es : List RaceEvent) : ℕ := es.count (.enter .sysEnter)

namespace RaceState

/-- The effect of one event. -/
def step (pid : UInt32) (s : RaceState) : RaceEvent → RaceState
  | .enter handler => { s with invocations := s.invocations ++ [⟨handler, .lookup⟩] }
  | .step i        =>
    match s.invocations[i]? with
    | none     => s
    | some inv =>
      let (inv, accumulators) := inv.step pid s.accumulators
      { accumulators, invocations := s.invocations.set i inv }

/-- No invocation is under way. -/
def Finished (s : RaceState) : Prop := ∀ inv ∈ s.invocations, inv.pc = .done

/-- The entry of `pid` counts `n` syscalls; without an entry there were none. -/
def CountsSyscalls (pid : UInt32) (n : ℕ) (s : RaceState) : Prop :=
  match s.accumulators.lookup pid with
  | some accum => (s.accumulators.element accum).totalSyscalls.toNat = n
  | none       => n = 0

/-- How many invocations of `handle_sys_enter` have found an entry. -/
def found (s : RaceState) : ℕ := s.invocations.countP Invocation.hasFound

end RaceState

/-- An invocation that executes its create step does so before `handle_sys_enter` has found
    an entry. -/
def RaceEvent.createsFirst (s : RaceState) : RaceEvent → Prop
  | .enter _ => True
  | .step i  => ∀ inv ∈ s.invocations[i]?, inv.pc = .create → s.found = 0

/-- Whether all invocations are over can be checked. -/
instance (s : RaceState) : Decidable s.Finished :=
  inferInstanceAs (Decidable (∀ inv ∈ s.invocations, inv.pc = .done))

/-- So can whether a count is right, -/
instance (pid : UInt32) (n : ℕ) (s : RaceState) : Decidable (s.CountsSyscalls pid n) :=
  match h : s.accumulators.lookup pid with
  | some accum =>
    decidable_of_iff ((s.accumulators.element accum).totalSyscalls.toNat = n)
      (by simp [RaceState.CountsSyscalls, h])
  | none       => decidable_of_iff (n = 0) (by simp [RaceState.CountsSyscalls, h])

/-- and whether an event creates no entry too late. -/
instance (s : RaceState) : ∀ e : RaceEvent, Decidable (e.createsFirst s)
  | .enter _ => .isTrue trivial
  | .step i  =>
    inferInstanceAs (Decidable (∀ inv ∈ s.invocations[i]?, inv.pc = .create → s.found = 0))

/-! ### An invocation alone is its handler -/

section
variable (current : CurrentTask) (m : TaskAccumulators) (ringbuf : List AiTaskTelemetry)

/-- Four steps bring an invocation to its end. -/
def alone (handler : AccumHandler) : List RaceEvent :=
  [.enter handler, .step 0, .step 0, .step 0, .step 0]

/-- An addition through the pointer that a look-up has just returned is the update in place of
    `handleSysEnter`. -/
theorem lookup_addSyscall {pid : UInt32} {accum : ℕ} (h : m.lookup pid = some accum)
    (key : UInt32) :
    (addSyscall m accum).toMap.lookup key
      = (m.toMap.insert pid
          { m.element accum with
            totalSyscalls := (m.element accum).totalSyscalls + 1 }).lookup key := by
  rw [addSyscall, ElementMap.lookup_toMap_modify h]
  split_ifs with hkey
  · -- the entry is there, so it is overwritten even in a full map
    rw [hkey, BoundedMap.lookup_insert_self (.inl (by rw [ElementMap.lookup_toMap, h]; rfl))]
  · rw [BoundedMap.lookup_insert_of_ne hkey]

/-- `handle_sys_enter` without others leaves the entries that `handleSysEnter` leaves. -/
theorem run_alone_sysEnter (key : UInt32) :
    (run (RaceState.step current.tgid) ⟨m, []⟩ (alone .sysEnter)).accumulators.toMap.lookup key
      = (handleSysEnter current ⟨ringbuf, m.toMap⟩).taskAccumulators.lookup key := by
  have hvalue := ElementMap.lookup_toMap m current.tgid
  cases h : m.lookup current.tgid with
  | some accum =>
    rw [h] at hvalue
    simp [alone, RaceState.step, Invocation.step, AccumHandler.found, handleSysEnter,
      lookupOrCreate, h, hvalue, lookup_addSyscall m h]
  | none =>
    rw [h] at hvalue
    have hvalue' := ElementMap.lookup_toMap (m.insert current.tgid .zero) current.tgid
    rw [ElementMap.toMap_insert] at hvalue'
    cases h' : (m.insert current.tgid .zero).lookup current.tgid with
    | some accum =>
      rw [h'] at hvalue'
      simp [alone, RaceState.step, Invocation.step, AccumHandler.found, handleSysEnter,
        lookupOrCreate, h, h', hvalue, hvalue', lookup_addSyscall _ h']
    | none =>
      -- no room for the entry
      rw [h'] at hvalue'
      simp [alone, RaceState.step, Invocation.step, handleSysEnter, lookupOrCreate, h, h',
        hvalue, hvalue']

/-- `handle_block_rq_issue` without others leaves the entries that `handleBlockRqIssue`
    leaves. -/
theorem run_alone_blockRqIssue (key : UInt32) :
    (run (RaceState.step current.tgid) ⟨m, []⟩
        (alone .blockRqIssue)).accumulators.toMap.lookup key
      = (handleBlockRqIssue current ⟨ringbuf, m.toMap⟩).taskAccumulators.lookup key := by
  cases h : m.lookup current.tgid with
  | some accum =>
    simp [alone, RaceState.step, Invocation.step, AccumHandler.found, handleBlockRqIssue,
      lookupOrCreate, ElementMap.lookup_toMap, h]
  | none =>
    cases h' : (m.insert current.tgid .zero).lookup current.tgid <;>
      simp [alone, RaceState.step, Invocation.step, AccumHandler.found, handleBlockRqIssue,
        lookupOrCreate, ElementMap.lookup_toMap, h, h']

end

/-! ### What the entry has, and what is lost -/

/-- How many invocations are about to add to the entry of `pid`. -/
def RaceState.holding (pid : UInt32) (s : RaceState) : ℕ :=
  s.invocations.countP fun inv => (s.accumulators.lookup pid).map .add = some inv.pc

/-- Of the invocations of `handle_sys_enter` that have found an entry, `added` have added to
    the present one, some are about to, and `lost` have found one that is gone. -/
structure RaceState.Accounted (pid : UInt32) (s : RaceState) (lost added : ℕ) : Prop where
  found : s.found = lost + added + s.holding pid
  total : ∀ accum, s.accumulators.lookup pid = some accum →
    (s.accumulators.element accum).totalSyscalls = UInt64.ofNat added
  /-- Past its create step, or having found the entry, an invocation can rely on there being
      one. -/
  entry : ∀ inv ∈ s.invocations, inv.pc = .lookup ∨ inv.pc = .create ∨
    (s.accumulators.lookup pid).isSome
  /-- A pointer that is held is to an element that was made. -/
  adds : ∀ inv ∈ s.invocations, ∀ accum, inv.pc = .add accum →
    inv.handler = .sysEnter ∧ accum < s.accumulators.next
  room : (s.accumulators.lookup pid).isSome ∨ s.accumulators.table.entries.length < 16384

namespace RaceState

variable {pid : UInt32} {s : RaceState} {lost added lost' added' i : ℕ}
  {handler : AccumHandler} {inv inv' : Invocation} {m : TaskAccumulators}

/-- Counting again after one invocation has moved on. -/
theorem countP_set_add {l : List Invocation} (hi : l[i]? = some inv) (inv' : Invocation)
    (p : Invocation → Bool) :
    (l.set i inv').countP p + (if p inv then 1 else 0)
      = l.countP p + if p inv' then 1 else 0 := by
  obtain ⟨hlt, rfl⟩ := List.getElem?_eq_some_iff.mp hi
  have hle : (if p l[i] then 1 else 0) ≤ l.countP p := by
    split
    · next hp => exact List.countP_pos_iff.mpr ⟨l[i], List.getElem_mem hlt, hp⟩
    · exact Nat.zero_le _
  rw [List.countP_set hlt]
  split_ifs at hle ⊢ <;> omega

/-- Whether the invocation that moves on has found an entry. -/
theorem found_set (hi : s.invocations[i]? = some inv) (inv' : Invocation) :
    (⟨m, s.invocations.set i inv'⟩ : RaceState).found + (if inv.hasFound then 1 else 0)
      = s.found + if inv'.hasFound then 1 else 0 :=
  countP_set_add hi inv' _

/-- Whether it is about to add to the entry, where the entry is still the same. -/
theorem holding_set (pid : UInt32) (hi : s.invocations[i]? = some inv) (inv' : Invocation)
    (hm : m.lookup pid = s.accumulators.lookup pid) :
    (⟨m, s.invocations.set i inv'⟩ : RaceState).holding pid
        + (if (s.accumulators.lookup pid).map .add = some inv.pc then 1 else 0)
      = s.holding pid
        + if (s.accumulators.lookup pid).map .add = some inv'.pc then 1 else 0 := by
  have hcount := countP_set_add hi inv' fun inv =>
    (s.accumulators.lookup pid).map .add = some inv.pc
  simp only [decide_eq_true_eq] at hcount
  rw [holding, hm]
  exact hcount

/-- An invocation moves on, and the map is at most added to. -/
theorem Accounted.set (h : Accounted pid s lost added)
    (hfound : (⟨m, s.invocations.set i inv'⟩ : RaceState).found
      = lost' + added' + (⟨m, s.invocations.set i inv'⟩ : RaceState).holding pid)
    (htotal : ∀ accum, m.lookup pid = some accum →
      (m.element accum).totalSyscalls = UInt64.ofNat added')
    (hkeep : (s.accumulators.lookup pid).isSome → (m.lookup pid).isSome)
    (hnext : s.accumulators.next ≤ m.next)
    (hroom : (m.lookup pid).isSome ∨ m.table.entries.length < 16384)
    (hentry : inv'.pc = .lookup ∨ inv'.pc = .create ∨ (m.lookup pid).isSome)
    (hadds : ∀ accum, inv'.pc = .add accum → inv'.handler = .sysEnter ∧ accum < m.next) :
    Accounted pid ⟨m, s.invocations.set i inv'⟩ lost' added' where
  found := hfound
  total := htotal
  entry inv hinv := by
    rcases List.mem_or_eq_of_mem_set hinv with hmem | rfl
    · exact (h.entry inv hmem).imp_right (Or.imp_right hkeep)
    · exact hentry
  adds inv hinv accum hpc := by
    rcases List.mem_or_eq_of_mem_set hinv with hmem | rfl
    · obtain ⟨hhandler, hlt⟩ := h.adds inv hmem accum hpc
      exact ⟨hhandler, hlt.trans_le hnext⟩
    · exact hadds accum hpc
  room := hroom

/-! ### One operation at a time -/

/-- A look-up that finds the entry, whether for the first time or after the creation. -/
theorem Accounted.lookup_some (h : Accounted pid s lost added) {pc : AccumPc} {accum : ℕ}
    (hi : s.invocations[i]? = some ⟨handler, pc⟩) (hpc : pc = .lookup ∨ pc = .lookupAgain)
    (hlookup : s.accumulators.lookup pid = some accum) :
    Accounted pid (s.step pid (.step i)) lost added := by
  have hstep : Invocation.step pid ⟨handler, pc⟩ s.accumulators
      = (⟨handler, handler.found accum⟩, s.accumulators) := by
    rcases hpc with rfl | rfl <;> simp [Invocation.step, hlookup]
  simp only [step, hi, hstep]
  refine h.set ?_ h.total id le_rfl h.room ?_ ?_
  · -- `handle_sys_enter` now holds the entry, `handle_block_rq_issue` never will
    have hfound := h.found
    have hcount := found_set (m := s.accumulators) hi ⟨handler, handler.found accum⟩
    have hholding := holding_set pid hi ⟨handler, handler.found accum⟩ rfl
    cases handler <;> rcases hpc with rfl | rfl <;>
      simp [hlookup, AccumHandler.found, Invocation.hasFound] at hcount hholding ⊢ <;> omega
  · exact .inr (.inr (by rw [hlookup]; rfl))
  · intro accum' hadd
    cases handler with
    | sysEnter =>
      obtain rfl : accum = accum' := AccumPc.add.inj hadd
      exact ⟨rfl, ElementMap.lt_next_of_lookup hlookup⟩
    | blockRqIssue => cases hadd

/-- A first look-up that finds nothing. -/
theorem Accounted.lookup_none (h : Accounted pid s lost added)
    (hi : s.invocations[i]? = some ⟨handler, .lookup⟩)
    (hlookup : s.accumulators.lookup pid = none) :
    Accounted pid (s.step pid (.step i)) lost added := by
  have hstep : Invocation.step pid ⟨handler, .lookup⟩ s.accumulators
      = (⟨handler, .create⟩, s.accumulators) := by simp [Invocation.step, hlookup]
  simp only [step, hi, hstep]
  refine h.set ?_ h.total id le_rfl h.room (.inr (.inl rfl)) (by simp)
  have hfound := h.found
  have hcount := found_set (m := s.accumulators) hi ⟨handler, .create⟩
  have hholding := holding_set pid hi ⟨handler, .create⟩ rfl
  simp [hlookup, Invocation.hasFound] at hcount hholding
  omega

/-- A creation takes the place of the entry that others have found. -/
theorem Accounted.create (h : Accounted pid s lost added)
    (hi : s.invocations[i]? = some ⟨handler, .create⟩) :
    Accounted pid (s.step pid (.step i)) s.found 0 := by
  have hnew : (s.accumulators.insert pid .zero).lookup pid = some s.accumulators.next :=
    ElementMap.lookup_insert_self h.room
  simp only [step, hi, Invocation.step]
  refine h.set ?_ (fun accum haccum => ?_) (fun _ => ?_) (Nat.le_succ _) (.inl ?_)
    (.inr (.inr ?_)) (by simp)
  · have hcount := found_set (m := s.accumulators.insert pid .zero) hi ⟨handler, .lookupAgain⟩
    -- nobody holds the new element yet
    have hholding : (⟨s.accumulators.insert pid .zero,
        s.invocations.set i ⟨handler, .lookupAgain⟩⟩ : RaceState).holding pid = 0 := by
      rw [holding, hnew, List.countP_eq_zero]
      intro inv hinv heq
      have hadd : inv.pc = .add s.accumulators.next := by simpa [eq_comm] using heq
      rcases List.mem_or_eq_of_mem_set hinv with hmem | rfl
      · exact Nat.lt_irrefl _ (h.adds inv hmem _ hadd).2
      · cases hadd
    simp [Invocation.hasFound] at hcount
    omega
  · rw [hnew] at haccum
    cases haccum
    rw [ElementMap.element_insert_next]
    rfl
  all_goals rw [hnew]; rfl

/-- An addition, to the present entry or to an element that is gone. -/
theorem Accounted.add (h : Accounted pid s lost added) {accum : ℕ}
    (hi : s.invocations[i]? = some ⟨handler, .add accum⟩) :
    ∃ added', Accounted pid (s.step pid (.step i)) lost added' := by
  have hmem := List.mem_of_getElem? hi
  obtain ⟨rfl, -⟩ : handler = .sysEnter ∧ _ := h.adds _ hmem accum rfl
  have hfound := h.found
  have hcount := found_set (m := addSyscall s.accumulators accum) hi ⟨.sysEnter, .done⟩
  have hholding := holding_set pid (m := addSyscall s.accumulators accum) hi
    ⟨.sysEnter, .done⟩ rfl
  have hentry : (s.accumulators.lookup pid).isSome := by simpa using h.entry _ hmem
  simp only [step, hi, Invocation.step]
  by_cases hlookup : s.accumulators.lookup pid = some accum
  · -- what was about to be added has been added
    refine ⟨added + 1, h.set ?_ (fun accum' haccum' => ?_) id le_rfl h.room (.inr (.inr hentry))
      (by simp)⟩
    · simp [hlookup, Invocation.hasFound] at hcount hholding
      omega
    · obtain rfl : accum = accum' := Option.some.inj (hlookup.symm.trans haccum')
      rw [addSyscall, ElementMap.element_modify_self, h.total accum hlookup, UInt64.ofNat_add]
      rfl
  · -- the addition was lost when the element was replaced
    refine ⟨added, h.set ?_ (fun accum' haccum' => ?_) id le_rfl h.room (.inr (.inr hentry))
      (by simp)⟩
    · simp [hlookup, Invocation.hasFound] at hcount hholding
      omega
    · have hne : accum' ≠ accum := fun heq => hlookup (heq ▸ haccum')
      rw [addSyscall, ElementMap.element_modify_of_ne hne]
      exact h.total accum' haccum'

/-- A handler that starts has found nothing yet. -/
theorem Accounted.enter (h : Accounted pid s lost added) (handler : AccumHandler) :
    Accounted pid (s.step pid (.enter handler)) lost added where
  found := by
    have hfound := h.found
    rw [RaceState.found, holding] at hfound ⊢
    cases handler <;> simpa [RaceState.step, Invocation.hasFound] using hfound
  total := h.total
  entry inv hinv := by
    rcases List.mem_append.mp hinv with hmem | hnew
    · exact h.entry inv hmem
    · rw [List.mem_singleton.mp hnew]
      exact .inl rfl
  adds inv hinv accum hpc := by
    rcases List.mem_append.mp hinv with hmem | hnew
    · exact h.adds inv hmem accum hpc
    · rw [List.mem_singleton.mp hnew] at hpc
      cases hpc
  room := h.room

/-- What is lost by one event: all that has found an entry before, if it is a creation. -/
theorem Accounted.step (h : Accounted pid s lost added) (e : RaceEvent) :
    ∃ lost' added', Accounted pid (s.step pid e) lost' added' ∧
      (lost' = 0 ↔ lost = 0 ∧ e.createsFirst s) := by
  cases e with
  | enter handler => exact ⟨lost, added, h.enter handler, (and_iff_left trivial).symm⟩
  | step i =>
    cases hi : s.invocations[i]? with
    | none =>
      refine ⟨lost, added, ?_, (and_iff_left fun inv hinv => ?_).symm⟩
      · simpa only [RaceState.step, hi] using h
      · rw [hi] at hinv
        cases hinv
    | some inv =>
      obtain ⟨handler, pc⟩ := inv
      -- a step other than a creation loses nothing
      have hfirst : pc ≠ .create → (lost = 0 ↔ lost = 0 ∧ (RaceEvent.step i).createsFirst s) := by
        refine fun hne => (and_iff_left fun inv hinv hpc => ?_).symm
        rw [hi] at hinv
        obtain rfl := Option.some.inj hinv
        exact absurd hpc hne
      cases pc with
      | lookup =>
        refine ⟨lost, added, ?_, hfirst (by simp)⟩
        cases hlookup : s.accumulators.lookup pid with
        | some accum => exact h.lookup_some hi (.inl rfl) hlookup
        | none       => exact h.lookup_none hi hlookup
      | create =>
        have hfound := h.found
        refine ⟨s.found, 0, h.create hi, fun hzero => ⟨by omega, fun _ _ _ => hzero⟩, ?_⟩
        exact fun hboth => hboth.2 _ hi rfl
      | lookupAgain =>
        refine ⟨lost, added, ?_, hfirst (by simp)⟩
        -- after the creation the entry is there
        have hentry : (s.accumulators.lookup pid).isSome := by
          simpa using h.entry _ (List.mem_of_getElem? hi)
        obtain ⟨accum, hlookup⟩ := Option.isSome_iff_exists.mp hentry
        exact h.lookup_some hi (.inr rfl) hlookup
      | add accum =>
        obtain ⟨added', hadded⟩ := h.add hi
        exact ⟨lost, added', hadded, hfirst (by simp)⟩
      | done =>
        refine ⟨lost, added, ?_, hfirst (by simp)⟩
        have hset : s.invocations.set i ⟨handler, .done⟩ = s.invocations := by
          obtain ⟨hlt, hget⟩ := List.getElem?_eq_some_iff.mp hi
          rw [← hget]
          exact List.set_getElem_self hlt
        simpa only [RaceState.step, hi, Invocation.step, hset] using h

/-! ### Whole runs -/

/-- Over a run, nothing is lost exactly if no creation follows a look-up that has found an
    entry. -/
theorem accounted_run (hnew : m.lookup pid = none) (hroom : m.table.entries.length < 16384)
    (es : List RaceEvent) :
    ∃ lost added, Accounted pid (run (RaceState.step pid) ⟨m, []⟩ es) lost added ∧
      (lost = 0 ↔ Throughout (RaceState.step pid) RaceEvent.createsFirst ⟨m, []⟩ es) := by
  induction es using List.reverseRecOn with
  | nil =>
    refine ⟨0, 0, ⟨rfl, fun accum haccum => ?_, by simp, by simp, .inr hroom⟩, by simp⟩
    rw [run_nil, hnew] at haccum
    cases haccum
  | append_singleton es e ih =>
    obtain ⟨lost, added, hacc, hiff⟩ := ih
    obtain ⟨lost', added', hacc', hiff'⟩ := hacc.step e
    refine ⟨lost', added', ?_, ?_⟩
    · rw [run_concat]
      exact hacc'
    · rw [throughout_concat, hiff', hiff]

/-- No step changes the handler. -/
@[simp] theorem handler_step (inv : Invocation) (m : TaskAccumulators) :
    (inv.step pid m).1.handler = inv.handler := by
  unfold Invocation.step
  split
  case h_1 | h_3 => split <;> rfl
  all_goals rfl

/-- The invocations of `handle_sys_enter` are the syscalls entered. -/
theorem count_handlers_run (pid : UInt32) (m : TaskAccumulators) (es : List RaceEvent) :
    ((run (RaceState.step pid) ⟨m, []⟩ es).invocations.map Invocation.handler).count .sysEnter
      = sysEnters es := by
  induction es using List.reverseRecOn with
  | nil => rfl
  | append_singleton es e ih =>
    rw [run_concat, sysEnters, List.count_append, ← sysEnters, ← ih]
    generalize run (RaceState.step pid) ⟨m, []⟩ es = s
    cases e with
    | enter handler => cases handler <;> simp [RaceState.step]
    | step i =>
      simp only [RaceState.step]
      cases hi : s.invocations[i]? with
      | none => simp
      | some inv =>
        obtain ⟨hlt, rfl⟩ := List.getElem?_eq_some_iff.mp hi
        have hset : (s.invocations.map Invocation.handler).set i s.invocations[i].handler
            = s.invocations.map Invocation.handler := by
          rw [← List.map_set, List.set_getElem_self]
        simp [List.map_set, hset]

/-- When all invocations have finished, each of `handle_sys_enter` has found the entry. -/
theorem found_of_finished (hfin : s.Finished) :
    s.found = (s.invocations.map Invocation.handler).count .sysEnter := by
  rw [found, List.count_eq_countP, List.countP_map]
  refine List.countP_congr fun inv hinv => ?_
  obtain ⟨handler, pc⟩ := inv
  obtain rfl : pc = .done := hfin _ hinv
  cases handler <;> simp [Invocation.hasFound]

/-- And none is about to add. -/
theorem holding_of_finished (hfin : s.Finished) : s.holding pid = 0 := by
  rw [holding, List.countP_eq_zero]
  intro inv hinv hadd
  rw [hfin inv hinv] at hadd
  cases h : s.accumulators.lookup pid <;> simp [h] at hadd

/-- **Creation.** Once all invocations have finished, the entry counts every syscall exactly
    if no invocation executed its create step after `handle_sys_enter` had found an entry in
    another one, and there were fewer than 2^64 syscalls. -/
theorem creation_keeps_counts_iff (pid : UInt32) (m : TaskAccumulators) (es : List RaceEvent)
    (hnew : m.lookup pid = none) (hroom : m.table.entries.length < 16384)
    (hfin : (run (RaceState.step pid) ⟨m, []⟩ es).Finished) :
    CountsSyscalls pid (sysEnters es) (run (RaceState.step pid) ⟨m, []⟩ es) ↔
      Throughout (RaceState.step pid) RaceEvent.createsFirst ⟨m, []⟩ es ∧
        sysEnters es < 2 ^ 64 := by
  obtain ⟨lost, added, hacc, hiff⟩ := accounted_run hnew hroom es
  have hfound := (found_of_finished hfin).trans (count_handlers_run pid m es)
  rw [hacc.found, holding_of_finished hfin, Nat.add_zero] at hfound
  rw [← hiff, CountsSyscalls]
  cases hentry : (run (RaceState.step pid) ⟨m, []⟩ es).accumulators.lookup pid with
  | some accum =>
    have htotal := congrArg UInt64.toNat (hacc.total accum hentry)
    rw [UInt64.toNat_ofNat'] at htotal
    dsimp only
    rw [htotal, ← hfound]
    omega
  | none =>
    -- an invocation that has finished leaves an entry behind
    have hzero : lost + added = 0 := by
      rw [hfound, ← count_handlers_run pid m es, List.count_eq_zero]
      intro hmem
      obtain ⟨inv, hinv, -⟩ := List.mem_map.mp hmem
      have hcases := hacc.entry inv hinv
      rw [hfin inv hinv, hentry] at hcases
      simp at hcases
    dsimp only
    omega

/-- Two syscalls one after the other, and a block request in between. -/
theorem creation_keeps_counts_iff_sequential :
    CountsSyscalls 7 2 (run (RaceState.step 7) ⟨.empty, []⟩
      [.enter .sysEnter, .step 0, .step 0, .step 0, .step 0, .enter .blockRqIssue, .step 1,
        .enter .sysEnter, .step 2, .step 2]) :=
  (creation_keeps_counts_iff 7 .empty
    [.enter .sysEnter, .step 0, .step 0, .step 0, .step 0, .enter .blockRqIssue, .step 1,
      .enter .sysEnter, .step 2, .step 2] (by decide) (by decide) (by decide)).mpr
    (by decide)

/-- Both invocations miss the entry, and the second creates it after the first has added. -/
private def lostUpdateRun : List RaceEvent :=
  [.enter .sysEnter, .enter .sysEnter, .step 0, .step 1, .step 0, .step 0, .step 0,
    .step 1, .step 1, .step 1]

/-- One of the two syscalls is not counted. -/
theorem creation_keeps_counts_not_lost_update :
    ¬ ∀ (pid : UInt32) (m : TaskAccumulators) (es : List RaceEvent),
      m.lookup pid = none → m.table.entries.length < 16384 →
      sysEnters es < 2 ^ 64 → (run (RaceState.step pid) ⟨m, []⟩ es).Finished →
      CountsSyscalls pid (sysEnters es) (run (RaceState.step pid) ⟨m, []⟩ es) := by
  intro hall
  have hcounts := hall 7 .empty lostUpdateRun (by decide) (by decide) (by decide) (by decide)
  exact absurd hcounts (by decide)

/-- The second invocation creates the entry between the look-up and the addition of the first,
    which then goes to an element that is gone. -/
example : CountsSyscalls 7 1 (run (RaceState.step 7) ⟨.empty, []⟩
    [.enter .sysEnter, .enter .sysEnter, .step 0, .step 1, .step 0, .step 0, .step 1, .step 0,
      .step 1, .step 1]) := by decide

end RaceState

end AieOs
