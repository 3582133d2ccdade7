import FaberHosts.Transaction.Mirror
import FaberHosts.Transaction.Reservation

/-!
# Transaction states and receipts

The states, errors and receipts of a transaction, over the records of `transport.rs` that a transaction receipt carries: the selected
transport of each executed copy and the transfer-budget accounting.
-/

namespace FaberHosts.Coordinator
open FaberHosts.Transaction

/-- The selected copy path of one transfer. -/
inductive CopyPath where
  | hostStaged
  | peer
  deriving DecidableEq, Repr

structure StagingBufferId where
  id : UInt64
  deriving DecidableEq, Repr

structure StagingBufferRecord where
  id : StagingBufferId
  capacityBytes : UInt64
  pinned : Bool
  deriving DecidableEq, Repr

structure EngineId where
  id : UInt64
  deriving DecidableEq, Repr

structure EventId where
  id : UInt64
  deriving DecidableEq, Repr

/-- The actual selected transport of one executed copy. -/
structure SelectedTransferRecord where
  transferRef : TransferRef
  copyPath : CopyPath
  staging : StagingBufferRecord
  engine : EngineId
  event : EventId
  timeoutNanos : Nat
  bytes : UInt64
  elapsedNanos : UInt64
  expectedNanos : UInt64
  direction : TransferDirectionMirror
  destination : LogicalPartitionId
  deriving DecidableEq, Repr

structure MeasuredRates where
  h2dBytesPerSec : UInt64
  d2hBytesPerSec : UInt64
  bidiBytesPerSec : UInt64
  deriving DecidableEq, Repr

structure RateObservation where
  direction : TransferDirectionMirror
  bytes : UInt64
  elapsedNanos : UInt64
  measuredBytesPerSec : UInt64
  deriving DecidableEq, Repr

structure TransportReceipt where
  records : List SelectedTransferRecord
  budgetBytes : UInt64
  budgetTimeNanos : UInt64
  usedBytes : UInt64
  usedTimeNanos : UInt64
  rates : MeasuredRates
  rateObservations : List RateObservation
  deriving DecidableEq, Repr

end FaberHosts.Coordinator

/-!
## States, errors and receipts

`execution_transaction/state_machine.rs`, `errors.rs` and `receipt.rs`, with the
backend errors they carry.
-/

namespace FaberHosts.Transaction
open FaberHosts.Lib FaberHosts.Coordinator

/-! ## Failures -/

inductive BackendError where
  | allocation (partition : LogicalPartitionId) (detail : String)
  | operation (partition : LogicalPartitionId) (detail : String)
  | deviceLoss (partition : LogicalPartitionId) (detail : String)
  | cancelled (partition : LogicalPartitionId) (detail : String)
  | timeout (partition : LogicalPartitionId) (detail : String)
  deriving DecidableEq, Repr

/-- The derived `Debug` text of one variant. -/
def BackendError.debugVariant (T : Toolchain) (variant : String) (partition : LogicalPartitionId)
    (detail : String) : String :=
  variant ++ " \x7b partition: LogicalPartitionId(" ++ T.debugStr partition.id ++
    "), detail: " ++ T.debugStr detail ++ " \x7d"

/-- `format!("{error:?}")`. -/
def BackendError.debug (T : Toolchain) : BackendError → String
  | .allocation p detail => debugVariant T "Allocation" p detail
  | .operation p detail => debugVariant T "Operation" p detail
  | .deviceLoss p detail => debugVariant T "DeviceLoss" p detail
  | .cancelled p detail => debugVariant T "Cancelled" p detail
  | .timeout p detail => debugVariant T "Timeout" p detail

inductive TransactionFailure where
  | backend (error : BackendError)
  | publishFailed (detail : String)
  | cancelled (reason : String)
  deriving DecidableEq, Repr

/-! ## The state machine -/

structure TransactionId where
  id : String
  deriving DecidableEq, Repr

structure PublicationOrdinal where
  ordinal : UInt64
  deriving DecidableEq, Repr

/-- `New → Prepared → Executing → Committed | Aborted`, with `Failed → Aborted`. -/
inductive TransactionState where
  | new
  | prepared
  | executing
  | committed
  | failed (failure : TransactionFailure)
  | aborted (failure : TransactionFailure)
  deriving DecidableEq, Repr

/-- Committed or aborted. -/
def TransactionState.Terminal : TransactionState → Prop
  | .committed => True
  | .aborted _ => True
  | _ => False

/-! ## Errors -/

inductive ConstructError where
  | degeneratePlan
  | emptySnapshot
  deriving DecidableEq, Repr

inductive PrepareError where
  | invalidState (state : TransactionState)
  | unknownPartition (partition : LogicalPartitionId) (operationIndex : Nat)
  | duplicateOperation (operationRef : OperationRef)
  | undeclaredBoundaryBarrier (barrier : BarrierRef)
  | undeclaredBoundaryLaunch (launch : LaunchRef)
  | missingAdmittedBudget (partition : LogicalPartitionId)
  | reservationExceedsBudget (partition : LogicalPartitionId) (budgetClass : BudgetClass)
      (declaredBytes admittedBytes : UInt64)
  | backend (error : BackendError)
  deriving DecidableEq, Repr

inductive ExecuteError where
  | invalidState (state : TransactionState)
  | operationOutsideSnapshot (operationRef : OperationRef)
  | backend (error : BackendError)
  deriving DecidableEq, Repr

inductive CommitError where
  | invalidState (state : TransactionState)
  | boundaryNotReached (missing : BTreeSet BoundaryRef)
  | publishFailed (error : BackendError)
  deriving DecidableEq

inductive AbortError where
  | alreadyCommitted
  deriving DecidableEq, Repr

/-! ## Receipts -/

inductive TransactionDecision where
  | committed (publicationOrdinal : PublicationOrdinal)
  | aborted (failure : TransactionFailure)
  deriving DecidableEq, Repr

structure ExecutedOperationRecord where
  operation : TransactionOperation
  byteCount : UInt64
  deriving DecidableEq

structure PublishSummary where
  stagedBytes : UInt64
  publishedBytes : UInt64
  atomic : Bool
  deriving DecidableEq, Repr

structure TeardownFacts where
  releasedPartitions : BTreeSet LogicalPartitionId
  retiredPartitions : BTreeSet LogicalPartitionId
  partialPublication : Bool
  deriving DecidableEq

/-- `TeardownFacts::default()`. -/
def TeardownFacts.empty : TeardownFacts := ⟨∅, ∅, false⟩

structure TransactionTimings where
  prepareNanos : UInt64
  executeNanos : UInt64
  finalizeNanos : UInt64
  deriving DecidableEq, Repr

/-- `duration_as_nanos_u64` of an elapsed time in nanoseconds. -/
def durationAsNanosU64 (elapsed : Nat) : UInt64 :=
  if elapsed < 2 ^ 64 then UInt64.ofNat elapsed else UInt64.ofNat (2 ^ 64 - 1)

structure TransactionReceipt where
  transactionId : TransactionId
  logicalDistributedPlanHash : String
  boundDistributedPlanHash : String
  planReceipt : PartitionReceipt
  reservationSummary : Reservation
  declaredWriteSet : BTreeMap OutputRef StagedWrite
  executedOperations : List ExecutedOperationRecord
  synchronizationEvents : BTreeSet OperationEvent
  decision : TransactionDecision
  publishSummary : Option PublishSummary
  teardown : TeardownFacts
  timings : TransactionTimings
  selectedTransports : Option TransportReceipt
  deriving DecidableEq

end FaberHosts.Transaction
