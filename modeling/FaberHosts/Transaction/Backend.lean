import FaberHosts.Lib.Calls
import FaberHosts.Transaction.State

/-!
# Device-execution backends

`execution_transaction/backend.rs`: the trait a transaction drives, the
happy-path fake, and the fault injection the repository's tests wrap it in.
-/

namespace FaberHosts.Transaction
open FaberHosts.Lib FaberHosts.Coordinator

/-- The trait, over a backend state `β`.  `eventCompleted` may change the state,
    so that its answers are arbitrary from one query to the next. -/
structure DeviceExecutionBackend (β : Type) where
  reserve : LogicalPartitionId → ReservationRecord → Call β BackendError Unit
  runOperation : TransactionOperation → Call β BackendError Unit
  eventCompleted : OperationEvent → Call β Empty Bool
  stageWrite : StagedWrite → Call β BackendError Unit
  publish : Call β BackendError Unit
  stagedBytes : β → UInt64
  publishedBytes : β → UInt64
  release : LogicalPartitionId → Call β Empty Unit
  retire : LogicalPartitionId → TransactionFailure → Call β Empty Unit

/-! ## The fake backend -/

structure FakeExecutionBackend where
  reservations : Reservation
  stagedWrites : BTreeMap OutputRef StagedWrite
  publishedWrites : BTreeMap OutputRef StagedWrite
  stagedTotalBytes : UInt64
  publishedTotalBytes : UInt64
  publishedOnce : Bool
  executedOperations : List TransactionOperation
  dispatchedEvents : BTreeSet OperationEvent
  completedEvents : BTreeSet OperationEvent
  releasedPartitions : BTreeSet LogicalPartitionId
  retiredPartitions : BTreeSet LogicalPartitionId
  autoComplete : Bool
  deriving DecidableEq

namespace FakeExecutionBackend

/-- A fresh fake: events complete synchronously. -/
def new : FakeExecutionBackend where
  reservations := ∅
  stagedWrites := ∅
  publishedWrites := ∅
  stagedTotalBytes := 0
  publishedTotalBytes := 0
  publishedOnce := false
  executedOperations := []
  dispatchedEvents := ∅
  completedEvents := ∅
  releasedPartitions := ∅
  retiredPartitions := ∅
  autoComplete := true

def setAutoComplete (fake : FakeExecutionBackend) (on : Bool) : FakeExecutionBackend :=
  { fake with autoComplete := on }

/-- An asynchronous join: the event is recorded whether or not it was dispatched. -/
def completeEvent (fake : FakeExecutionBackend) (event : OperationEvent) : FakeExecutionBackend :=
  { fake with
    dispatchedEvents := fake.dispatchedEvents.insert event
    completedEvents := fake.completedEvents.insert event }

def reserve (partition : LogicalPartitionId) (reservation : ReservationRecord) :
    Call FakeExecutionBackend BackendError Unit := fun fake =>
  if partition ∈ fake.reservations then
    some (.error (.allocation partition s!"partition {partition} already holds a reservation"),
      fake)
  else
    some (.ok (), { fake with reservations := fake.reservations.insert partition reservation })

def runOperation (operation : TransactionOperation) :
    Call FakeExecutionBackend BackendError Unit := fun fake =>
  let events := operation.completedEvents
  some (.ok (), { fake with
    executedOperations := fake.executedOperations ++ [operation]
    dispatchedEvents := fake.dispatchedEvents ∪ events
    completedEvents :=
      if fake.autoComplete then fake.completedEvents ∪ events else fake.completedEvents })

def eventCompleted (event : OperationEvent) : Call FakeExecutionBackend Empty Bool := fun fake =>
  some (.ok (fake.completedEvents.contains event), fake)

def stageWrite (write : StagedWrite) : Call FakeExecutionBackend BackendError Unit := fun fake =>
  if write.outputRef ∈ fake.stagedWrites then
    some (.error (.allocation write.partition s!"output {write.outputRef} staged twice"), fake)
  else
    some (.ok (), { fake with
      stagedTotalBytes := saturatingAdd fake.stagedTotalBytes write.byteCount
      stagedWrites := fake.stagedWrites.insert write.outputRef write })

/-- Promote the whole staged write-set, once. -/
def publish : Call FakeExecutionBackend BackendError Unit := fun fake =>
  if fake.publishedOnce then
    some (.error (.operation ⟨"unknown"⟩ "publish called twice — publication is one-shot"), fake)
  else
    some (.ok (), { fake with
      publishedWrites := fake.stagedWrites
      publishedTotalBytes := fake.stagedTotalBytes
      publishedOnce := true })

def release (partition : LogicalPartitionId) : Call FakeExecutionBackend Empty Unit := fun fake =>
  some (.ok (), { fake with
    reservations := fake.reservations.erase partition
    releasedPartitions := fake.releasedPartitions.insert partition })

/-- The byte counts of the writes a partition has staged. -/
def stagedCounts (fake : FakeExecutionBackend) (partition : LogicalPartitionId) : List UInt64 :=
  ((fake.stagedWrites.toList.map Prod.snd).filter (fun write => write.partition = partition)).map
    StagedWrite.byteCount

def retire (T : Toolchain) (partition : LogicalPartitionId) :
    Call FakeExecutionBackend Empty Unit := fun fake =>
  (sumU64 T.overflowChecks (fake.stagedCounts partition)).map (fun retired =>
    (.ok (), { fake with
      stagedTotalBytes := saturatingSub fake.stagedTotalBytes retired
      stagedWrites := fake.stagedWrites.filter (fun _ write => write.partition ≠ partition)
      reservations := fake.reservations.erase partition
      retiredPartitions := fake.retiredPartitions.insert partition }))

end FakeExecutionBackend

/-- `impl DeviceExecutionBackend for FakeExecutionBackend`. -/
def fakeBackend (T : Toolchain) : DeviceExecutionBackend FakeExecutionBackend where
  reserve := FakeExecutionBackend.reserve
  runOperation := FakeExecutionBackend.runOperation
  eventCompleted := FakeExecutionBackend.eventCompleted
  stageWrite := FakeExecutionBackend.stageWrite
  publish := FakeExecutionBackend.publish
  stagedBytes := FakeExecutionBackend.stagedTotalBytes
  publishedBytes := FakeExecutionBackend.publishedTotalBytes
  release := FakeExecutionBackend.release
  retire partition _ := FakeExecutionBackend.retire T partition

/-! ## Fault injection -/

/-- Faults of `run_operation` and `publish`, decided by a state `φ` of the
    injection that may change with every query. -/
structure FaultInjection (φ : Type) where
  operationFault : φ → TransactionOperation → Option BackendError × φ
  publishFault : φ → Option BackendError × φ

/-- A backend wrapped by a fault injection: an injected fault answers in place of
    the inner call. -/
def faultInjecting {β φ : Type} (inner : DeviceExecutionBackend β) (faults : FaultInjection φ) :
    DeviceExecutionBackend (β × φ) where
  reserve partition reservation := onInner (inner.reserve partition reservation)
  runOperation operation := fun (b, f) =>
    match faults.operationFault f operation with
    | (some error, f') => some (.error error, (b, f'))
    | (none, f') => onInner (inner.runOperation operation) (b, f')
  eventCompleted event := onInner (inner.eventCompleted event)
  stageWrite write := onInner (inner.stageWrite write)
  publish := fun (b, f) =>
    match faults.publishFault f with
    | (some error, f') => some (.error error, (b, f'))
    | (none, f') => onInner inner.publish (b, f')
  stagedBytes := fun (b, _) => inner.stagedBytes b
  publishedBytes := fun (b, _) => inner.publishedBytes b
  release partition := onInner (inner.release partition)
  retire partition failure := onInner (inner.retire partition failure)
where
  onInner {ε α : Type} (c : Call β ε α) : Call (β × φ) ε α := fun (b, f) =>
    (c b).map (fun answered => (answered.1, (answered.2, f)))

end FaberHosts.Transaction
