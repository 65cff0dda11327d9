import AieOs.Lib.Runs
import AieOs.Lib.StablePriority
import AieOs.Lib.BoundedMap
import AieOs.Lib.Places
import AieOs.Lib.Text
import AieOs.Lib.Assignments
import AieOs.Lib.Ownership
import AieOs.Lib.Wraparound
import AieOs.Lib.Serial
import AieOs.Lib.Tickets
import AieOs.Lib.Interleaving
import AieOs.Lib.Fairness
import AieOs.Common.Config
import AieOs.Common.ConfigLines
import AieOs.Common.ConfigRoundTrip
import AieOs.Kernel.AiSched
import AieOs.Kernel.Scx
import AieOs.Kernel.Sched
import AieOs.Kernel.Hooks
import AieOs.Kernel.ServiceOrder
import AieOs.Kernel.Conservation
import AieOs.Kernel.Departure
import AieOs.Kernel.Waiting
import AieOs.Kernel.Attach
import AieOs.Kernel.Slices
import AieOs.Kernel.Counters
import AieOs.Kernel.Balance
import AieOs.Kernel.ConcurrentEnqueues
import AieOs.Kernel.Linearizability
import AieOs.Kernel.Telemetry
import AieOs.Kernel.Accumulators
import AieOs.Kernel.AccumulatorRace
import AieOs.Daemon.Classifier
import AieOs.Daemon.OnnxClassifier
import AieOs.Daemon.OnnxCalls
import AieOs.Daemon.OnnxLifecycle
import AieOs.Daemon.DeviceManager
import AieOs.Daemon.Ipc
import AieOs.Daemon.AieDaemon
import AieOs.Daemon.Ingestion
import AieOs.Daemon.Batches
import AieOs.Daemon.Startup
import AieOs.Daemon.Unread
import AieOs.Daemon.SoundModel
import AieOs.Daemon.Delivery
import AieOs.Daemon.Workers
import AieOs.Daemon.Shutdown
import AieOs.Daemon.Termination
import AieOs.Daemon.Handles
import AieOs.Daemon.OnnxResources
import AieOs.Loop.DecisionStore
import AieOs.Loop.Encoding
import AieOs.Loop.Attribution
import AieOs.Loop.Lifetime
import AieOs.Loop.DecisionTable
import AieOs.Loop.DeviceTables
import AieOs.Loop.Producers
import AieOs.Loop.Leftovers
import AieOs.Loop.Rings
import AieOs.Loop.Prototype
import AieOs.Loop.Reported
import AieOs.Loop.Accelerators
import AieOs.Loop.Sizes
import AieOs.Packaging.InstallModel
import AieOs.Packaging.InstalledModel
import AieOs.Packaging.VerifyInstall
import AieOs.Minimal.SharedDsq
import AieOs.Minimal.Lottery
import AieOs.Minimal.Prio
import AieOs.Minimal.Vtime
import AieOs.Minimal.Nice
