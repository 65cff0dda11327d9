import AieOs.Kernel.AiSched

namespace AieOs

/-!
# `device_manager.cpp` — the compute backends

`DeviceManager` looks for a GPU and an NPU and routes decisions to one of its backends.
What the file system shows is an argument; a backend pointer that was never set is
`false`.
-/

/-- The backends.  They log the decisions dispatched to them. -/
inductive DeviceBackend
  | cpu | gpu | npu
  deriving DecidableEq, Repr

/-- The device nodes that the detection looks for. -/
structure DeviceNodes where
  devDri : Bool
  devNvidia0 : Bool
  devAmdxdna : Bool
  /-- The paths that `glob("/dev/npu*")` finds; it fails if there are none. -/
  devNpu : List String
  deriving DecidableEq, Repr

/-- `class DeviceManager`. -/
structure DeviceManager where
  cpuBackend : Bool
  gpuBackend : Bool
  npuBackend : Bool
  gpuAvailable : Bool
  npuAvailable : Bool
  deriving DecidableEq, Repr

namespace DeviceManager

/-- `DeviceManager::DeviceManager`. -/
def new : DeviceManager := ⟨false, false, false, false, false⟩

/-- `detect_gpu`. -/
def detectGpu (nodes : DeviceNodes) : Bool := nodes.devDri || nodes.devNvidia0

/-- `detect_npu`. -/
def detectNpu (nodes : DeviceNodes) : Bool := nodes.devAmdxdna || !nodes.devNpu.isEmpty

/-- `init`, which returns 0. -/
def init (nodes : DeviceNodes) (m : DeviceManager) : DeviceManager where
  gpuAvailable := detectGpu nodes
  npuAvailable := detectNpu nodes
  cpuBackend := true
  gpuBackend := m.gpuBackend || detectGpu nodes
  npuBackend := m.npuBackend || detectNpu nodes

/-- `select_backend`, where the case for the NPU falls through to that for the GPU, and
    that to the default. -/
def selectBackend (preferredDevice : UInt32) (m : DeviceManager) : Option DeviceBackend :=
  let cpu : Option DeviceBackend := if m.cpuBackend then some .cpu else none
  let gpu := if m.gpuAvailable && m.gpuBackend then some .gpu else cpu
  let npu := if m.npuAvailable && m.npuBackend then some .npu else gpu
  match ofCode? preferredDevice with
  | some AiComputeDevice.npu => npu
  | some AiComputeDevice.gpu => gpu
  | _                        => cpu

/-- An initialised manager routes every decision to some backend. -/
theorem selectBackend_init_isSome (nodes : DeviceNodes) (m : DeviceManager)
    (preferredDevice : UInt32) : (selectBackend preferredDevice (m.init nodes)).isSome := by
  unfold selectBackend init
  dsimp only
  split
  · split
    · rfl
    · split <;> rfl
  · split <;> rfl
  · rfl

end DeviceManager

end AieOs
