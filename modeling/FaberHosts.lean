import FaberHosts.Collections.Membership
import FaberHosts.Collections.Refinement
import FaberHosts.Collections.Runs
import FaberHosts.Collections.Runtime
import FaberHosts.Collections.Snapshots
import FaberHosts.Consolum.Stdin
import FaberHosts.Coordinator.Bindable
import FaberHosts.Coordinator.BoundPlan
import FaberHosts.Coordinator.BoundPlanBytes
import FaberHosts.Coordinator.DeviceSet
import FaberHosts.Coordinator.Discovery
import FaberHosts.Coordinator.Identity
import FaberHosts.Coordinator.Partition
import FaberHosts.Coordinator.RangedCopy
import FaberHosts.Coordinator.Sha256
import FaberHosts.Coordinator.Sha256Standard
import FaberHosts.Coordinator.TransferBudget
import FaberHosts.Coordinator.Transport
import FaberHosts.Cuda.Launch
import FaberHosts.Cuda.Session
import FaberHosts.Cuda.Sidecar
import FaberHosts.Descriptor.Admission
import FaberHosts.Descriptor.Arrange
import FaberHosts.Descriptor.Graph
import FaberHosts.Descriptor.GraphBytes
import FaberHosts.Descriptor.GraphIdentity
import FaberHosts.Descriptor.Kv
import FaberHosts.Descriptor.KvIdentity
import FaberHosts.Descriptor.KvViews
import FaberHosts.Descriptor.Model
import FaberHosts.Descriptor.Order
import FaberHosts.Descriptor.Schedule
import FaberHosts.Descriptor.Sha256
import FaberHosts.Descriptor.Slots
import FaberHosts.Descriptor.Validate
import FaberHosts.Engine.Safety
import FaberHosts.Engine.Session
import FaberHosts.Http.Buffered
import FaberHosts.Http.Calls
import FaberHosts.Http.Exact
import FaberHosts.Http.Heads
import FaberHosts.Http.Parked
import FaberHosts.Http.Polls
import FaberHosts.Http.Provider
import FaberHosts.Http.Redirect
import FaberHosts.Http.Registry
import FaberHosts.Http.Splits
import FaberHosts.Http.Stopping
import FaberHosts.Http.System
import FaberHosts.Http.Wire
import FaberHosts.Inference.Cursor
import FaberHosts.Inference.Poison
import FaberHosts.Inference.Programs
import FaberHosts.Inference.Residency
import FaberHosts.Inference.Sequence
import FaberHosts.Inference.State
import FaberHosts.Inference.World
import FaberHosts.Kernel.Conversation
import FaberHosts.Kernel.Envelope
import FaberHosts.Kernel.Frame
import FaberHosts.Kernel.Gateway
import FaberHosts.Kernel.Registry
import FaberHosts.Kernel.Routing
import FaberHosts.Kernel.Valor
import FaberHosts.Kernel.WireRoundTrip
import FaberHosts.Lib.Absorb
import FaberHosts.Lib.Acyclic
import FaberHosts.Lib.BTree
import FaberHosts.Lib.Blocks
import FaberHosts.Lib.Calls
import FaberHosts.Lib.Checks
import FaberHosts.Lib.Codes
import FaberHosts.Lib.Custody
import FaberHosts.Lib.Entries
import FaberHosts.Lib.Fields
import FaberHosts.Lib.Fips180
import FaberHosts.Lib.JsValue
import FaberHosts.Lib.Keyed
import FaberHosts.Lib.Loops
import FaberHosts.Lib.Outcomes
import FaberHosts.Lib.Ranking
import FaberHosts.Lib.Replay
import FaberHosts.Lib.Runs
import FaberHosts.Lib.Scan
import FaberHosts.Lib.Streams
import FaberHosts.Lib.Strides
import FaberHosts.Lib.TextCuts
import FaberHosts.Lib.Threads
import FaberHosts.Lib.Traced
import FaberHosts.Lib.Word64
import FaberHosts.Lib.Words
import FaberHosts.Lib.Worklist
import FaberHosts.Library.Atomic
import FaberHosts.Library.Attention
import FaberHosts.Library.Blocks
import FaberHosts.Library.Gemv
import FaberHosts.Library.Grouped
import FaberHosts.Library.Qkv
import FaberHosts.Library.Router
import FaberHosts.Library.Rows
import FaberHosts.Llvm.Arenas
import FaberHosts.Llvm.Boxing
import FaberHosts.Llvm.Cells
import FaberHosts.Llvm.Cli
import FaberHosts.Llvm.CliTable
import FaberHosts.Llvm.CommandPaths
import FaberHosts.Llvm.Conversion
import FaberHosts.Llvm.Descriptors
import FaberHosts.Llvm.Genus
import FaberHosts.Llvm.Octeti
import FaberHosts.Llvm.TypedFields
import FaberHosts.Macos.DeclaredCount
import FaberHosts.Macos.FusedBind
import FaberHosts.Macos.Handles
import FaberHosts.Macos.KvPrepare
import FaberHosts.Macos.Leaks
import FaberHosts.Macos.Ownership
import FaberHosts.Macos.PlanBytes
import FaberHosts.Macos.ProgramSession
import FaberHosts.Macos.Refinement
import FaberHosts.Macos.Requests
import FaberHosts.Macos.ReservedBytes
import FaberHosts.Macos.ResidentInputs
import FaberHosts.Macos.RuntimeBackend
import FaberHosts.Macos.Translate
import FaberHosts.Macos.Translation
import FaberHosts.Native.Host
import FaberHosts.Native.Lifecycle
import FaberHosts.Native.Places
import FaberHosts.Native.Replies
import FaberHosts.Native.Shutdown
import FaberHosts.Policy.DeviceBudget
import FaberHosts.Policy.Evaluate
import FaberHosts.Policy.Ordinals
import FaberHosts.Policy.Ranking
import FaberHosts.Processus.Command
import FaberHosts.Session.Device
import FaberHosts.Session.KvBindings
import FaberHosts.Toolchain
import FaberHosts.Transaction.Atomicity
import FaberHosts.Transaction.Backend
import FaberHosts.Transaction.Budget
import FaberHosts.Transaction.Completion
import FaberHosts.Transaction.Dispatch
import FaberHosts.Transaction.Fake
import FaberHosts.Transaction.Gates
import FaberHosts.Transaction.Holding
import FaberHosts.Transaction.Mirror
import FaberHosts.Transaction.MirrorBytes
import FaberHosts.Transaction.Phases
import FaberHosts.Transaction.Recording
import FaberHosts.Transaction.Replay
import FaberHosts.Transaction.Reservation
import FaberHosts.Transaction.Rules
import FaberHosts.Transaction.Sharing
import FaberHosts.Transaction.State
import FaberHosts.Transaction.Teardown
import FaberHosts.Transaction.Transaction
import FaberHosts.Wasm.Capture
import FaberHosts.Wasm.CollectionRows
import FaberHosts.Wasm.Cycles
import FaberHosts.Wasm.Display
import FaberHosts.Wasm.Edges
import FaberHosts.Wasm.HostState
import FaberHosts.Wasm.IndexReads
import FaberHosts.Wasm.ListRows
import FaberHosts.Wasm.LiteralTable
import FaberHosts.Wasm.Literals
import FaberHosts.Wasm.MapRows
import FaberHosts.Wasm.Nesting
import FaberHosts.Wasm.Package
import FaberHosts.Wasm.TensorOffsets
import FaberHosts.Wasm.TensorRows
import FaberHosts.WebGpu.Admission
import FaberHosts.WebGpu.Admitted
import FaberHosts.WebGpu.Chain
import FaberHosts.WebGpu.Created
import FaberHosts.WebGpu.DataFlow
import FaberHosts.WebGpu.Dispatchable
import FaberHosts.WebGpu.Generations
import FaberHosts.WebGpu.Lifecycle
import FaberHosts.WebGpu.Replacement
import FaberHosts.WebGpu.Runtime
