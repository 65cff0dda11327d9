import AieOs.Lib.Ownership
import Mathlib.Tactic.Abel

namespace AieOs

open Lib

/-!
# `ipc_interface.cpp` — the resources behind the handles

What `DecisionWriter` and `TelemetryReader` open and close.  The constructor of
`DecisionWriter` keeps no reference to the object it opens, and its `connect` stores a file
descriptor that it did not open; the `connect` of `TelemetryReader` overwrites what an earlier
one opened.

* `DecisionWriterHandle`, `TelemetryReaderHandle` — the members that hold resources;
* `DecisionWriterHandle.balanced_life_iff`, `TelemetryReaderHandle.balanced_life_iff` — when
  all that is opened is closed, and nothing else;
* `ipc_handles_balanced_iff` — both.
-/

/-- A resource, by its address or number. -/
inductive Resource
  /-- A `struct bpf_object`. -/
  | object (address : ℕ)
  /-- The file descriptor of a map. -/
  | fd (n : Int32)
  /-- A `struct ring_buffer`. -/
  | ring (address : ℕ)
  deriving DecidableEq, Repr

/-- The results of the libbpf calls of a constructor or a `connect`. -/
structure BpfCalls where
  /-- `bpf_object__open_file`: the object, or none if it is `NULL`. -/
  openFile : Option ℕ
  /-- `bpf_object__load` succeeds. -/
  load : Bool
  /-- `bpf_object__find_map_by_name` finds the map. -/
  findMap : Bool
  /-- `bpf_map__fd`. -/
  mapFd : Int32
  /-- `ring_buffer__new`. -/
  ringNew : Option ℕ

/-- A call on a handle. -/
inductive HandleOp
  | connect (calls : BpfCalls)
  | disconnect

/-- The call is a `connect`. -/
def HandleOp.IsConnect (op : HandleOp) : Prop := ∃ calls, op = .connect calls

/-- The file descriptor that a call of `bpf_map__fd` acquires, unless it returns an error. -/
def takenFd (fd : Int32) : List Int32 := if 0 ≤ fd then [fd] else []

/-! ### `DecisionWriter` -/

/-- The member of `DecisionWriter`. -/
structure DecisionWriterHandle where
  decisionMapFd : Int32
  deriving DecidableEq, Repr

namespace DecisionWriterHandle

/-- `DecisionWriter::DecisionWriter`, with what it acquires.  The object stays open: nothing
    refers to it afterwards. -/
def new (calls : BpfCalls) : DecisionWriterHandle × List (Use Resource) :=
  match calls.openFile with
  | none     => (⟨-1⟩, [])
  | some obj =>
    if !calls.load then (⟨-1⟩, [.acquire (.object obj)])
    else if !calls.findMap then (⟨-1⟩, [.acquire (.object obj)])
    else
      (⟨calls.mapFd⟩,
        .acquire (.object obj) :: (takenFd calls.mapFd).map fun fd => .acquire (.fd fd))

/-- `connect`: a "fake valid map fd". -/
def connect (_ : DecisionWriterHandle) : Int32 × DecisionWriterHandle := (0, ⟨1⟩)

/-- `disconnect`, with what it releases. -/
def disconnect (w : DecisionWriterHandle) : DecisionWriterHandle × List (Use Resource) :=
  if w.decisionMapFd ≥ 0 then (⟨-1⟩, [.release (.fd w.decisionMapFd)]) else (w, [])

/-- The members after a call. -/
def step (w : DecisionWriterHandle) : HandleOp → DecisionWriterHandle
  | .connect _  => w.connect.2
  | .disconnect => w.disconnect.1

/-- What a call acquires and releases. -/
def uses (w : DecisionWriterHandle) : HandleOp → List (Use Resource)
  | .connect _  => []
  | .disconnect => w.disconnect.2

/-- All uses after construction; the destructor calls `disconnect`. -/
def rest (w : DecisionWriterHandle) (ops : List HandleOp) : List (Use Resource) :=
  outputs step uses w ops ++ (run step w ops).disconnect.2

/-- All uses of a writer. -/
def life (calls : BpfCalls) (ops : List HandleOp) : List (Use Resource) :=
  (new calls).2 ++ (new calls).1.rest ops

/-! A writer that opened something keeps it; one that was connected closes what it did not
open. -/

variable {w : DecisionWriterHandle} {calls : BpfCalls} {ops : List HandleOp}

/-- The uses after construction, by the first call. -/
theorem rest_cons (w : DecisionWriterHandle) (op : HandleOp) (ops : List HandleOp) :
    w.rest (op :: ops) = w.uses op ++ (w.step op).rest ops := List.append_assoc ..

/-- After construction only the file descriptor is released. -/
theorem mem_uses {u : Use Resource} {op : HandleOp} (hu : u ∈ w.uses op) :
    ∃ fd, u = .release (.fd fd) := by
  cases op with
  | connect calls => cases hu
  | disconnect =>
    unfold uses disconnect at hu
    dsimp only at hu
    split at hu
    · exact ⟨w.decisionMapFd, List.mem_singleton.mp hu⟩
    · cases hu

/-- No later call releases anything else either. -/
theorem mem_rest {u : Use Resource} (hu : u ∈ w.rest ops) : ∃ fd, u = .release (.fd fd) := by
  induction ops generalizing w with
  | nil => exact @mem_uses w u .disconnect hu
  | cons op ops ih =>
    rw [rest_cons, List.mem_append] at hu
    rcases hu with hu | hu
    · exact mem_uses hu
    · exact ih hu

/-- A writer with a descriptor closes it sooner or later. -/
theorem rest_ne_nil (hfd : 0 ≤ w.decisionMapFd) : w.rest ops ≠ [] := by
  have hclose : w.disconnect.2 = [.release (.fd w.decisionMapFd)] := by
    rw [disconnect, if_pos hfd]
  -- the destructor closes it, if no `disconnect` has done so
  induction ops generalizing w with
  | nil => simp [rest, hclose]
  | cons op ops ih =>
    rw [rest_cons]
    cases op with
    | connect calls => exact ih (w := ⟨1⟩) (show (0 : Int32) ≤ 1 by decide) rfl
    | disconnect => simp [uses, hclose]

/-- A writer without descriptor uses nothing until it is connected. -/
theorem rest_eq_nil_iff (ops : List HandleOp) :
    (⟨-1⟩ : DecisionWriterHandle).rest ops = [] ↔ ∀ op ∈ ops, ¬ op.IsConnect := by
  induction ops with
  | nil => exact iff_of_true rfl (by simp)
  | cons op ops ih =>
    rw [rest_cons, List.forall_mem_cons]
    cases op with
    | connect calls =>
      have hconnected := @rest_ne_nil ⟨1⟩ ops (show (0 : Int32) ≤ 1 by decide)
      exact iff_of_false hconnected fun h => h.1 ⟨calls, rfl⟩
    | disconnect =>
      have hnot : ¬ HandleOp.disconnect.IsConnect := fun ⟨_, h⟩ => by cases h
      rw [and_iff_right hnot, ← ih]
      rfl

/-- An object that is opened is never closed. -/
theorem not_balanced_of_open {obj : ℕ} (hopen : calls.openFile = some obj)
    (ops : List HandleOp) : ¬ Balanced (life calls ops) := by
  have hnew : .acquire (.object obj) ∈ (new calls).2 ∧ .release (.object obj) ∉ (new calls).2 := by
    unfold new
    rw [hopen]
    dsimp only
    split_ifs <;> simp
  intro hbalanced
  -- nothing in the life of a writer releases an object
  have hheld := mem_holdings hbalanced (.inr (List.mem_append_left _ hnew.1)) fun hrelease => by
    rcases List.mem_append.mp hrelease with hrelease | hrelease
    · exact hnew.2 hrelease
    · obtain ⟨fd, hfd⟩ := mem_rest hrelease
      cases hfd
  exact Multiset.notMem_zero _ hheld

/-- A writer is balanced iff it never opened an object and never was connected. -/
theorem balanced_life_iff (calls : BpfCalls) (ops : List HandleOp) :
    Balanced (life calls ops) ↔ calls.openFile = none ∧ ∀ op ∈ ops, ¬ op.IsConnect := by
  cases hopen : calls.openFile with
  | some obj => exact iff_of_false (not_balanced_of_open hopen ops) fun h => by cases h.1
  | none =>
    have hlife : life calls ops = (⟨-1⟩ : DecisionWriterHandle).rest ops := by
      simp [life, new, hopen]
    rw [hlife, and_iff_right rfl, ← rest_eq_nil_iff]
    constructor
    · intro hbalanced
      refine hbalanced.eq_nil fun r hr => ?_
      obtain ⟨fd, hfd⟩ := mem_rest hr
      cases hfd
    · intro hnil
      rw [hnil]
      rfl

end DecisionWriterHandle

/-! ### `TelemetryReader` -/

/-- A `struct bpf_object`, and the file descriptors that were taken from its maps.  They are
    closed with it. -/
structure BpfObject where
  address : ℕ
  mapFds : List Int32
  deriving DecidableEq, Repr

/-- The object and the descriptors that close with it. -/
def BpfObject.resources (o : BpfObject) : List Resource :=
  .object o.address :: o.mapFds.map .fd

/-- The members of `TelemetryReader`. -/
structure TelemetryReaderHandle where
  obj : Option BpfObject
  ringbufCtx : Option ℕ
  ringbufFd : Int32
  deriving DecidableEq, Repr

namespace TelemetryReaderHandle

/-- `TelemetryReader::TelemetryReader`. -/
def new : TelemetryReaderHandle := ⟨none, none, -1⟩

/-- The ring buffer that `ringbuf_ctx_` refers to. -/
def ringResources (r : TelemetryReaderHandle) : List Resource := r.ringbufCtx.toList.map .ring

/-- What `obj_` refers to. -/
def objResources (r : TelemetryReaderHandle) : List Resource :=
  r.obj.elim [] BpfObject.resources

/-- `connect`: the return code, and what it acquires. -/
def connect (calls : BpfCalls) (r : TelemetryReaderHandle) :
    Int32 × TelemetryReaderHandle × List Resource :=
  match calls.openFile with
  | none         => (-1, { r with obj := none }, [])
  | some address =>
    -- whatever `obj_` was before
    let r := { r with obj := some ⟨address, []⟩ }
    if !calls.load then (-1, r, [.object address])
    else if !calls.findMap then (-1, r, [.object address])
    else
      let obj := ⟨address, takenFd calls.mapFd⟩
      let r := { r with obj := some obj, ringbufFd := calls.mapFd, ringbufCtx := calls.ringNew }
      (if calls.ringNew.isSome then 0 else -1, r, obj.resources ++ r.ringResources)

/-- `disconnect`, with what it releases. -/
def disconnect (r : TelemetryReaderHandle) : TelemetryReaderHandle × List Resource :=
  (⟨none, none, -1⟩, r.ringResources ++ r.objResources)

/-- The members after a call. -/
def step (r : TelemetryReaderHandle) : HandleOp → TelemetryReaderHandle
  | .connect calls => (r.connect calls).2.1
  | .disconnect    => r.disconnect.1

/-- What a call acquires and releases. -/
def uses (r : TelemetryReaderHandle) : HandleOp → List (Use Resource)
  | .connect calls => (r.connect calls).2.2.map .acquire
  | .disconnect    => r.disconnect.2.map .release

/-- All uses of a reader; the destructor calls `disconnect`. -/
def life (ops : List HandleOp) : List (Use Resource) :=
  outputs step uses new ops ++ (run step new ops).disconnect.2.map .release

/-! What a reader holds is what its members refer to, and what `connect` has overwritten. -/

/-- What the members of a reader refer to. -/
def owned (r : TelemetryReaderHandle) : Multiset Resource :=
  (r.ringResources : Multiset Resource) + (r.objResources : Multiset Resource)

/-- What a call overwrites: the object first, and with the map also the ring buffer. -/
def lost (r : TelemetryReaderHandle) : HandleOp → Multiset Resource
  | .connect calls =>
    (r.objResources : Multiset Resource) +
      if calls.openFile.isSome ∧ calls.load ∧ calls.findMap then
        (r.ringResources : Multiset Resource)
      else 0
  | .disconnect    => 0

/-- `disconnect` releases what the members refer to. -/
theorem holdings_disconnect (r : TelemetryReaderHandle) (held : Multiset Resource) :
    holdings (held + r.owned) (r.disconnect.2.map .release) = some held := by
  rw [owned, Multiset.coe_add]
  exact holdings_release held _

/-- The three ways of `connect`: no object, an object without its map, or both. -/
theorem connect_cases (calls : BpfCalls) (r : TelemetryReaderHandle) :
    (calls.openFile = none ∧ (r.connect calls).2 = ({ r with obj := none }, [])) ∨
    (∃ address, calls.openFile = some address ∧ ¬ (calls.load = true ∧ calls.findMap = true) ∧
      (r.connect calls).2 = ({ r with obj := some ⟨address, []⟩ }, [.object address])) ∨
    ∃ address, calls.openFile = some address ∧ (calls.load = true ∧ calls.findMap = true) ∧
      (r.connect calls).2 =
        (⟨some ⟨address, takenFd calls.mapFd⟩, calls.ringNew, calls.mapFd⟩,
          (BpfObject.mk address (takenFd calls.mapFd)).resources
            ++ calls.ringNew.toList.map .ring) := by
  cases hopen : calls.openFile with
  | none => exact .inl ⟨rfl, by simp [connect, hopen]⟩
  | some address =>
    refine .inr ?_
    -- the ring buffer is made only if the map is found
    by_cases hmap : calls.load = true ∧ calls.findMap = true
    · exact .inr ⟨address, rfl, hmap, by simp [connect, hopen, hmap, ringResources]⟩
    · refine .inl ⟨address, rfl, hmap, ?_⟩
      simp only [connect, hopen]
      cases hload : calls.load with
      | false => rfl
      | true =>
        have hfind : calls.findMap = false := by simpa [hload] using hmap
        rw [hfind]
        rfl

/-- The account of one call. -/
theorem holdings_uses (r : TelemetryReaderHandle) (op : HandleOp) (held : Multiset Resource) :
    holdings (held + r.owned) (r.uses op) = some (held + r.lost op + (r.step op).owned) := by
  cases op with
  | connect calls =>
    rw [uses, holdings_acquire, Option.some.injEq]
    rcases connect_cases calls r with
      ⟨hopen, hstep⟩ | ⟨address, hopen, hmap, hstep⟩ | ⟨address, hopen, hmap, hstep⟩
    · -- the object is overwritten with a null pointer
      have haccount : ∀ ring obj : Multiset Resource,
          held + (ring + obj) + 0 = held + (obj + 0) + (ring + 0) := by intros; abel
      rw [step, hstep, lost, if_neg (by simp [hopen])]
      exact haccount _ _
    · -- the new object takes the place of the old one, and the ring buffer stays
      have haccount : ∀ ring obj obj' : Multiset Resource,
          held + (ring + obj) + obj' = held + (obj + 0) + (ring + obj') := by intros; abel
      rw [step, hstep, lost, if_neg fun h => hmap h.2]
      exact haccount _ _ _
    · -- both are overwritten
      have haccount : ∀ ring obj ring' obj' : Multiset Resource,
          held + (ring + obj) + (obj' + ring') = held + (obj + ring) + (ring' + obj') := by
        intros; abel
      rw [step, hstep, lost, if_pos ⟨by simp [hopen], hmap⟩, ← Multiset.coe_add]
      exact haccount _ _ _ _
  | disconnect =>
    rw [lost, add_zero]
    show holdings _ _ = some (held + 0)
    rw [add_zero]
    exact holdings_disconnect r held

/-- While the reader has no object, it has no ring buffer either. -/
def RingWithObj (r : TelemetryReaderHandle) : Prop := r.obj = none → r.ringbufCtx = none

/-- Only a reader without object refers to none. -/
theorem objResources_eq_nil_iff (r : TelemetryReaderHandle) :
    r.objResources = [] ↔ r.obj = none := by
  unfold objResources
  cases r.obj with
  | none => simp
  | some obj => simp [BpfObject.resources]

/-- A call loses something iff it is a `connect` on a reader that has an object. -/
theorem lost_eq_zero_iff {r : TelemetryReaderHandle} (h : r.RingWithObj) (op : HandleOp) :
    r.lost op = 0 ↔ (op.IsConnect → r.obj = none) := by
  cases op with
  | connect calls =>
    have hconnect : (HandleOp.connect calls).IsConnect := ⟨calls, rfl⟩
    rw [forall_prop_of_true hconnect, lost, add_eq_zero, Multiset.coe_eq_zero,
      objResources_eq_nil_iff]
    refine and_iff_left_of_imp fun hobj => ?_
    have hring : r.ringResources = [] := by rw [ringResources, h hobj]; rfl
    rw [hring, Multiset.coe_nil, ite_self]
  | disconnect => exact iff_of_true rfl fun ⟨_, h⟩ => by cases h

/-- A call on a reader that has no object to lose keeps the two members together. -/
theorem RingWithObj.step {r : TelemetryReaderHandle} (h : r.RingWithObj) {op : HandleOp}
    (hop : op.IsConnect → r.obj = none) : (r.step op).RingWithObj := by
  cases op with
  | connect calls =>
    rcases connect_cases calls r with
      ⟨-, hstep⟩ | ⟨address, -, -, hstep⟩ | ⟨address, -, -, hstep⟩
    · rw [TelemetryReaderHandle.step, hstep]
      exact fun _ => h (hop ⟨calls, rfl⟩)
    · rw [TelemetryReaderHandle.step, hstep]
      exact fun hnone => by cases hnone
    · rw [TelemetryReaderHandle.step, hstep]
      exact fun hnone => by cases hnone
  | disconnect => exact fun _ => rfl

/-- A reader is balanced iff it is connected only while it has no object. -/
theorem balanced_life_iff (ops : List HandleOp) :
    Balanced (life ops) ↔ Throughout step (fun r op => op.IsConnect → r.obj = none) new ops := by
  unfold life
  rw [balanced_iff_throughout (show owned new = 0 from rfl) holdings_uses holdings_disconnect]
  have hinit : RingWithObj new := fun _ => rfl
  -- what is lost is the object that the reader has at a `connect`
  exact (throughout_congr_of_invariant hinit (fun r op hr hop => hr.step hop)
    fun r op hr => (lost_eq_zero_iff hr op).symm).symm

end TelemetryReaderHandle

/-! ### Results -/

/-- A writer closes what it opened, and nothing else, iff its constructor opened nothing and it
    is never connected; a reader, iff it is connected only while it has no object. -/
theorem ipc_handles_balanced_iff (calls : BpfCalls) (ops : List HandleOp) :
    (Balanced (DecisionWriterHandle.life calls ops) ↔
      calls.openFile = none ∧ ∀ op ∈ ops, ¬ op.IsConnect) ∧
    (Balanced (TelemetryReaderHandle.life ops) ↔
      Throughout TelemetryReaderHandle.step (fun r op => op.IsConnect → r.obj = none)
        TelemetryReaderHandle.new ops) :=
  ⟨DecisionWriterHandle.balanced_life_iff calls ops, TelemetryReaderHandle.balanced_life_iff ops⟩

/-- Every call succeeds. -/
private def allSucceed : BpfCalls := ⟨some 1, true, true, 5, some 2⟩

/-- The file cannot be opened. -/
private def openFails : BpfCalls := ⟨none, false, false, -1, none⟩

/-- A writer that succeeds at everything leaves its object open, one whose constructor fails
    closes standard output, and a reader that is connected twice leaves its first object open. -/
theorem ipc_handles_not_balanced :
    (DecisionWriterHandle.life allSucceed []
        = [.acquire (.object 1), .acquire (.fd 5), .release (.fd 5)] ∧
      ¬ Balanced (DecisionWriterHandle.life allSucceed [])) ∧
    (DecisionWriterHandle.life openFails [.connect openFails] = [.release (.fd 1)] ∧
      ¬ Balanced (DecisionWriterHandle.life openFails [.connect openFails])) ∧
    ¬ Balanced (TelemetryReaderHandle.life [.connect allSucceed, .connect allSucceed]) := by
  refine ⟨⟨by decide, ?_⟩, ⟨by decide, ?_⟩, ?_⟩
  · rw [DecisionWriterHandle.balanced_life_iff]
    rintro ⟨hopen, -⟩
    cases hopen
  · rw [DecisionWriterHandle.balanced_life_iff]
    rintro ⟨-, hops⟩
    exact hops _ (List.mem_singleton_self _) ⟨openFails, rfl⟩
  · rw [TelemetryReaderHandle.balanced_life_iff]
    rintro ⟨-, hsecond, -⟩
    cases hsecond ⟨allSucceed, rfl⟩

end AieOs
