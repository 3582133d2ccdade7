import FaberHosts.Coordinator.Transport
import FaberHosts.Session.Device
import FaberHosts.Transaction.Transaction

/-!
# The device-execution backend over a runtime set

`device_runtime_set.rs` and `transaction_backend.rs`: one device session per selected device,
and the backend that reserves, launches, stages and releases on them for a transaction.  On the
64-bit targets of the host a `u64` length always fits `usize`.
-/

namespace FaberHosts.Macos
open FaberHosts.Lib FaberHosts.Coordinator FaberHosts.Descriptor FaberHosts.Session
open FaberHosts.Transaction

/-! ## Readback -/

/-- A driver that also decides what a copy out of a buffer answers for its contents. -/
structure RuntimeDriver extends Driver where
  reads : Nat → List UInt8 → List UInt8

/-- Read a buffer back; the driver may answer other bytes than the contents. -/
def readbackBytes (driver : RuntimeDriver) (handle : DeviceHandle) (dtype : DeviceDataType) :
    DeviceM (List UInt8) := do
  let device ← get
  let (lenBytes, contents) ← bufferToken handle
  if device.backend = .cuda ∧ lenBytes.toNat % dtype.byteWidth ≠ 0 then
    throw (.invalidArgs s!"CUDA copy rejects a misaligned {dtype} tail of {lenBytes} bytes")
  else
    let number ← call driver.toDriver .copyOut
    let bytes := driver.reads number contents
    if bytes.length ≠ lenBytes.toNat then
      throw (.internal s!"{backendTitle device.backend} readback returned unexpected byte length")
    else
      pure bytes

/-! ## The runtime set -/

/-- One device session per selected device. -/
abbrev DeviceRuntimeSet := BTreeMap PhysicalDeviceId Device

namespace DeviceRuntimeSet

def backendsAreHomogeneous : List DeviceBackend → Bool
  | [] => true
  | first :: rest => rest.all (fun backend => backend = first)

/-- Assemble a set of sessions of one backend, each under an id of that backend. -/
def fromMembers (members : DeviceRuntimeSet) : Except HostError DeviceRuntimeSet :=
  if members.isEmpty then
    .error (.invalidArgs "DeviceRuntimeSet requires at least one PhysicalDeviceId")
  else if !backendsAreHomogeneous (members.keys.map (·.backend)) then
    .error (.invalidArgs ("DeviceRuntimeSet members must share one backend " ++
      "(Metal+CUDA in one job is a non-goal)"))
  else
    match members.toList.find? (fun member => member.2.backend ≠ member.1.backend) with
    | some (id, runtime) =>
      .error (.invalidArgs
        s!"runtime backend {runtime.backend} does not match PhysicalDeviceId {id}")
    | none => .ok members

end DeviceRuntimeSet

/-! ## The backend -/

/-- The module image and the entry every launch runs. -/
structure LaunchProgram where
  image : List UInt8
  entry : String
  deriving DecidableEq, Repr

structure DeviceRuntimeBackend where
  set : DeviceRuntimeSet
  partitionDevices : BTreeMap LogicalPartitionId PhysicalDeviceId
  launch : LaunchProgram
  modules : BTreeMap PhysicalDeviceId DeviceHandle
  transport : HostStagedAdapter
  transferTimeoutNanos : Nat
  reservations : Reservation
  resources : BTreeMap LogicalPartitionId (List DeviceHandle)
  stagedWrites : BTreeMap OutputRef StagedWrite
  publishedWrites : BTreeMap OutputRef StagedWrite
  stagedTotalBytes : UInt64
  publishedTotalBytes : UInt64
  publishedOnce : Bool
  completedEvents : BTreeSet OperationEvent

/-- What the backend takes from outside the repository: the drivers and the clock. -/
structure Environment where
  driver : PhysicalDeviceId → RuntimeDriver
  clock : CopyClock

inductive FaultClass where
  | allocation
  | operation
  deriving DecidableEq, Repr

def mapHostError (partition : LogicalPartitionId) (error : HostError) (fault : FaultClass) :
    BackendError :=
  if error.code = "E_TIMEOUT" then .timeout partition error.message
  else if error.code = "E_CANCELLED" then .cancelled partition error.message
  else if error.code = "E_CUDA_UNAVAILABLE" ∨ error.code = "E_METAL_UNAVAILABLE" then
    .deviceLoss partition error.message
  else
    match fault with
    | .allocation => .allocation partition s!"{error.code}: {error.message}"
    | .operation => .operation partition s!"{error.code}: {error.message}"

def patternBytes (len : Nat) : List UInt8 :=
  (List.range len).map (fun index => UInt8.ofNat (index % 256))

namespace DeviceRuntimeBackend

/-- Bind partitions onto the members of a set. -/
def new (members : DeviceRuntimeSet) (partitionDevices : BTreeMap LogicalPartitionId PhysicalDeviceId)
    (launch : LaunchProgram) (transferBudget : TransferBudget) (transferTimeoutNanos : Nat) :
    Except HostError DeviceRuntimeBackend :=
  if partitionDevices.isEmpty then
    .error (.invalidArgs "DeviceRuntimeBackend requires at least one partition binding")
  else
    match partitionDevices.toList.find? (fun bound => bound.2 ∉ members) with
    | some (partition, device) =>
      .error (.invalidArgs
        s!"partition {partition} binds {device}, which is not a DeviceRuntimeSet member")
    | none =>
      .ok {
        set := members
        partitionDevices := partitionDevices
        launch := launch
        modules := ∅
        transport := .new transferBudget
        transferTimeoutNanos := transferTimeoutNanos
        reservations := ∅
        resources := ∅
        stagedWrites := ∅
        publishedWrites := ∅
        stagedTotalBytes := 0
        publishedTotalBytes := 0
        publishedOnce := false
        completedEvents := ∅ }

def deviceOf (backend : DeviceRuntimeBackend) (partition : LogicalPartitionId) :
    Except BackendError PhysicalDeviceId :=
  match backend.partitionDevices[partition]? with
  | some device => .ok device
  | none =>
    .error (.operation partition
      s!"partition {partition} is not bound to a PhysicalDeviceId")

abbrev RuntimeCall := Call DeviceRuntimeBackend BackendError

/-- Run a device operation on the session of a partition (`runtime_mut`). -/
def onRuntime {α : Type} (partition : LogicalPartitionId) (fault : FaultClass)
    (operation : PhysicalDeviceId → DeviceM α) : RuntimeCall α := fun backend =>
  match backend.deviceOf partition with
  | .error error => some (.error error, backend)
  | .ok device =>
    match backend.set[device]? with
    | none =>
      some (.error (.deviceLoss partition s!"PhysicalDeviceId {device} is not in the runtime set"),
        backend)
    | some runtime =>
      match operation device runtime with
      | .ok answer runtime =>
        some (.ok answer, { backend with set := backend.set.insert device runtime })
      | .error error runtime =>
        some (.error (mapHostError partition error fault),
          { backend with set := backend.set.insert device runtime })

/-- Remember a handle under its partition. -/
def track (backend : DeviceRuntimeBackend) (partition : LogicalPartitionId)
    (handle : DeviceHandle) : DeviceRuntimeBackend :=
  { backend with
    resources := backend.resources.insert partition
      ((backend.resources[partition]?).getD [] ++ [handle]) }

/-- Release the handles of a partition and forget its reservation; what a release answers is
    dropped. -/
def freePartition (env : Environment) (backend : DeviceRuntimeBackend)
    (partition : LogicalPartitionId) : DeviceRuntimeBackend :=
  let handles := (backend.resources[partition]?).getD []
  let backend := { backend with resources := backend.resources.erase partition }
  let backend :=
    match backend.partitionDevices[partition]? with
    | none => backend
    | some device =>
      match backend.set[device]? with
      | none => backend
      | some runtime =>
        let released := handles.foldl (fun runtime handle =>
          match Session.release (env.driver device).toDriver handle runtime with
          | .ok _ runtime => runtime
          | .error _ runtime => runtime) runtime
        { backend with set := backend.set.insert device released }
  { backend with reservations := backend.reservations.erase partition }

section Operations

variable (env : Environment)

def alloc (partition : LogicalPartitionId) (lenBytes : UInt64) : RuntimeCall DeviceHandle := do
  let handle ← onRuntime partition .allocation
    (fun device => allocBytes (env.driver device).toDriver lenBytes)
  Call.modify (·.track partition handle)
  pure handle

/-- The module of the partition's device, loaded at its first use. -/
def ensureModule (partition : LogicalPartitionId) : RuntimeCall DeviceHandle := do
  let backend ← Call.get
  let device ← Call.lift (some (backend.deviceOf partition))
  match backend.modules[device]? with
  | some module => pure module
  | none => do
    let module ← onRuntime partition .operation
      (fun device => loadModule (env.driver device).toDriver backend.launch.image)
    Call.modify (fun backend => { backend with modules := backend.modules.insert device module })
    pure module

def copyIn (partition : LogicalPartitionId) (handle : DeviceHandle) (bytes : List UInt8) :
    RuntimeCall Unit :=
  onRuntime partition .operation
    (fun device => copyInBytes (env.driver device).toDriver .copyIn handle bytes .u8)

def readback (partition : LogicalPartitionId) (handle : DeviceHandle) :
    RuntimeCall (List UInt8) :=
  onRuntime partition .operation (fun device => readbackBytes (env.driver device) handle .u8)

/-- Run the adapter's copy towards a destination. -/
def transportCopy (spec : TransferSpec) (source : SourceValue)
    (destination : LogicalPartitionId) : RuntimeCall TransferOutcome := fun backend =>
  match HostStagedAdapter.copy env.clock spec source destination backend.transport with
  | .ok outcome transport => some (.ok outcome, { backend with transport := transport })
  | .error error transport =>
    some (.error (error.intoBackendError env.clock destination),
      { backend with transport := transport })

/-- Device to host to device, checked byte by byte at each end. -/
def hostStageCopy (source destination : LogicalPartitionId) (spec : TransferSpec)
    (bytes : UInt64) : RuntimeCall Unit := do
  let pattern := patternBytes bytes.toNat
  let sourceHandle ← alloc env source bytes
  copyIn env source sourceHandle pattern
  let sourceBytes ← readback env source sourceHandle
  if sourceBytes ≠ pattern then
    Call.throw (.operation source "host-staged source readback was not byte-exact")
  else do
    let outcome ← transportCopy env spec
      ⟨source, spec.dtype, spec.layout, spec.generation, sourceBytes⟩ destination
    if outcome.destinationBytes ≠ pattern then
      Call.throw (.operation destination "host-staged copy was not byte-exact")
    else do
      let destinationHandle ← alloc env destination bytes
      copyIn env destination destinationHandle outcome.destinationBytes
      let landed ← readback env destination destinationHandle
      if landed ≠ pattern then
        Call.throw (.operation destination
          "destination device buffer was not byte-exact after host-staged copy")
      else
        pure ()

def completeEvents (operation : TransactionOperation) : RuntimeCall Unit :=
  Call.modify (fun backend =>
    { backend with completedEvents := backend.completedEvents ∪ operation.completedEvents })

/-- One buffer of a reservation, if the field is not zero. -/
def allocReserved (partition : LogicalPartitionId) (lenBytes : UInt64) : RuntimeCall Unit :=
  if 0 < lenBytes then do
    let _ ← alloc env partition lenBytes
  else
    pure ()

def reserve (partition : LogicalPartitionId) (reservation : ReservationRecord) :
    RuntimeCall Unit := do
  let backend ← Call.get
  if partition ∈ backend.reservations then
    Call.throw (.allocation partition s!"partition {partition} already holds a reservation")
  else do
    let _ ← Call.lift (some (backend.deviceOf partition))
    allocReserved env partition reservation.outputBufferBytes
    allocReserved env partition reservation.transferStagingBytes
    allocReserved env partition reservation.transactionScratchBytes
    Call.modify (fun backend =>
      { backend with reservations := backend.reservations.insert partition reservation })

/-- Upload a pattern, launch over two fresh buffers and wait. -/
def runLaunch (partition : LogicalPartitionId) (lenBytes : UInt64) : RuntimeCall Unit := do
  let module ← ensureModule env partition
  let source ← alloc env partition lenBytes
  let target ← alloc env partition lenBytes
  copyIn env partition source (patternBytes lenBytes.toNat)
  let backend ← Call.get
  onRuntime partition .operation (fun device =>
    launchKernel (env.driver device).toDriver module backend.launch.entry [source, target]
      ⟨UInt32.ofNat (max (lenBytes.toNat / 4) 1), 1, 1⟩ ⟨1, 1, 1⟩)
  onRuntime partition .operation (fun device => sync (env.driver device).toDriver)

/-- The spec of one leg of a broadcast. -/
def broadcastSpec (broadcast : CollectiveBroadcastMirror) (participant : LogicalPartitionId)
    (timeoutNanos : Nat) : TransferSpec where
  transferRef := ⟨s!"{broadcast.id.reference}:{participant}"⟩
  sourceOwner := broadcast.source
  destination := participant
  range := ⟨0, broadcast.byteCount⟩
  direction := .bidi
  dtype := .f32
  layout := .dense
  generation := 0
  pathLabel := .hostStaged
  timeoutNanos := timeoutNanos

/-- One leg of a broadcast; the source has nothing to receive. -/
def broadcastTo (broadcast : CollectiveBroadcastMirror) (participant : LogicalPartitionId) :
    RuntimeCall Unit :=
  if participant = broadcast.source then
    pure ()
  else do
    let backend ← Call.get
    hostStageCopy env broadcast.source participant
      (broadcastSpec broadcast participant backend.transferTimeoutNanos) broadcast.byteCount

/-- Wait once for each device of the partitions. -/
def syncEach : BTreeSet PhysicalDeviceId → List LogicalPartitionId → RuntimeCall Unit
  | _, [] => pure ()
  | synced, partition :: rest => do
    let backend ← Call.get
    let device ← Call.lift (some (backend.deviceOf partition))
    if device ∈ synced then
      syncEach synced rest
    else do
      onRuntime partition .operation (fun device => sync (env.driver device).toDriver)
      syncEach (synced.insert device) rest

/-- What an operation does on the devices, before its events complete. -/
def runOnDevices (operation : TransactionOperation) : RuntimeCall Unit :=
  match operation with
  | .launch partition _ outputBytes =>
    if 0 < outputBytes then runLaunch env partition outputBytes else pure ()
  | .transfer transfer => do
    let backend ← Call.get
    hostStageCopy env transfer.source transfer.destination
      (.fromMirror transfer backend.transferTimeoutNanos) transfer.byteCount
  | .collectiveBroadcast broadcast =>
    Call.forEach broadcast.participants.toList (broadcastTo env broadcast)
  | .barrier _ partitions => syncEach env ∅ partitions.toList

def runOperation (operation : TransactionOperation) : RuntimeCall Unit := do
  runOnDevices env operation
  completeEvents operation

def eventCompleted (event : OperationEvent) : Call DeviceRuntimeBackend Empty Bool := fun backend =>
  some (.ok (backend.completedEvents.contains event), backend)

def stageWrite (write : StagedWrite) : RuntimeCall Unit := fun backend =>
  if write.outputRef ∈ backend.stagedWrites then
    some (.error (.allocation write.partition s!"output {write.outputRef} staged twice"), backend)
  else
    some (.ok (), { backend with
      stagedTotalBytes := saturatingAdd backend.stagedTotalBytes write.byteCount
      stagedWrites := backend.stagedWrites.insert write.outputRef write })

def publish : RuntimeCall Unit := fun backend =>
  if backend.publishedOnce then
    some (.error (.operation ⟨"unknown"⟩ "publish called twice — publication is one-shot"),
      backend)
  else
    some (.ok (), { backend with
      publishedWrites := backend.stagedWrites
      publishedTotalBytes := backend.stagedTotalBytes
      publishedOnce := true })

def release (partition : LogicalPartitionId) : Call DeviceRuntimeBackend Empty Unit :=
  fun backend => some (.ok (), backend.freePartition env partition)

/-- The byte counts of the writes a partition has staged. -/
def stagedCounts (backend : DeviceRuntimeBackend) (partition : LogicalPartitionId) : List UInt64 :=
  ((backend.stagedWrites.toList.map Prod.snd).filter (fun write => write.partition = partition)).map
    StagedWrite.byteCount

/-- Drop a partition's staged writes from the write-set. -/
def unstage (backend : DeviceRuntimeBackend) (partition : LogicalPartitionId) (retired : UInt64) :
    DeviceRuntimeBackend :=
  { backend with
    stagedTotalBytes := saturatingSub backend.stagedTotalBytes retired
    stagedWrites := backend.stagedWrites.filter (fun _ write => write.partition ≠ partition) }

def retire (T : Toolchain) (partition : LogicalPartitionId) :
    Call DeviceRuntimeBackend Empty Unit := fun backend =>
  (sumU64 T.overflowChecks (backend.stagedCounts partition)).map (fun retired =>
    (.ok (), (backend.unstage partition retired).freePartition env partition))

end Operations

end DeviceRuntimeBackend

/-- `impl DeviceExecutionBackend for DeviceRuntimeBackend`. -/
def runtimeBackend (T : Toolchain) (env : Environment) :
    DeviceExecutionBackend DeviceRuntimeBackend where
  reserve := DeviceRuntimeBackend.reserve env
  runOperation := DeviceRuntimeBackend.runOperation env
  eventCompleted := DeviceRuntimeBackend.eventCompleted
  stageWrite := DeviceRuntimeBackend.stageWrite
  publish := DeviceRuntimeBackend.publish
  stagedBytes := DeviceRuntimeBackend.stagedTotalBytes
  publishedBytes := DeviceRuntimeBackend.publishedTotalBytes
  release := DeviceRuntimeBackend.release env
  retire partition _ := DeviceRuntimeBackend.retire env T partition

/-! ## Two partitions on two devices -/

namespace TwoDevices

open Coordinator.TwoPartitions

/-- A driver that never refuses a call and reads back what was written. -/
def faithfulDriver : RuntimeDriver where
  fails := fun _ _ => none
  fresh := fun _ _ => 0
  effect := fun _ _ _ _ _ _ _ => 0
  reads := fun _ contents => contents

/-- A driver that refuses the calls of one number. -/
def refusing (number : Nat) : RuntimeDriver where
  fails := fun calls _ => if calls = number then some (.internal "refused") else none
  fresh := fun _ _ => 0
  effect := fun _ _ _ _ _ _ _ => 0
  reads := fun _ contents => contents

def environment (driver : RuntimeDriver) : Environment where
  driver := fun _ => driver
  clock := ⟨fun _ => 0, fun nanos => s!"{nanos}ns"⟩

def session : Device := ⟨.cuda, ∅, 1, 0⟩

/-- Each of two partitions on a device of its own. -/
def backend : Except HostError DeviceRuntimeBackend :=
  DeviceRuntimeBackend.new
    (Std.ExtTreeMap.ofList [(device 0, session), (device 1, session)] compare)
    (Std.ExtTreeMap.ofList [(partition 0, device 0), (partition 1, device 1)] compare)
    ⟨[1], "main"⟩ ⟨4096, 1000000⟩ 1000

/-- A launch, a transfer and a barrier of a few bytes. -/
def operations : List TransactionOperation :=
  [Transaction.TwoPartitions.launch 0 "launch-a" 4, Transaction.TwoPartitions.transfer "t1" 4,
    Transaction.TwoPartitions.barrier "barrier-main"]

def transaction : Option ExecutionTransaction :=
  Transaction.TwoPartitions.transaction .dev (ledger 8192 4096, ledger 8192 4096) operations
    ⟨setOf [⟨"barrier-main"⟩], ∅⟩

end TwoDevices

end FaberHosts.Macos
