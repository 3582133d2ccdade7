import FaberHosts.Lib.Word64
import FaberHosts.Coordinator.BoundPlan

/-!
# The mirror vocabulary

`execution_transaction/mirror.rs`: the references, operations, events and staged
writes an execution transaction consumes as its accepted plan.
-/

namespace FaberHosts.Transaction
open FaberHosts.Lib FaberHosts.Coordinator

/-! ## References -/

@[ext] structure LaunchRef where
  reference : String
  deriving DecidableEq, Repr

structure TransferRef where
  reference : String
  deriving DecidableEq, Repr

structure CollectiveRef where
  reference : String
  deriving DecidableEq, Repr

@[ext] structure BarrierRef where
  reference : String
  deriving DecidableEq, Repr

/-- Identity of one staged output buffer. -/
@[ext] structure OutputRef where
  reference : String
  deriving DecidableEq, Repr

instance : ToString LaunchRef := ⟨LaunchRef.reference⟩

instance : ToString TransferRef := ⟨TransferRef.reference⟩

instance : ToString CollectiveRef := ⟨CollectiveRef.reference⟩

instance : ToString BarrierRef := ⟨BarrierRef.reference⟩

instance : ToString OutputRef := ⟨OutputRef.reference⟩

theorem launchRef_injective : Function.Injective LaunchRef.reference := fun _ _ => LaunchRef.ext

theorem barrierRef_injective : Function.Injective BarrierRef.reference := fun _ _ => BarrierRef.ext

theorem outputRef_injective : Function.Injective OutputRef.reference := fun _ _ => OutputRef.ext

instance : Ord LaunchRef := ⟨compareOn LaunchRef.reference⟩

instance : Std.TransOrd LaunchRef := inferInstanceAs (Std.TransCmp (compareOn LaunchRef.reference))

instance : Std.LawfulEqOrd LaunchRef := lawfulEq_compareOn launchRef_injective

instance : Ord BarrierRef := ⟨compareOn BarrierRef.reference⟩

instance : Std.TransOrd BarrierRef :=
  inferInstanceAs (Std.TransCmp (compareOn BarrierRef.reference))

instance : Std.LawfulEqOrd BarrierRef := lawfulEq_compareOn barrierRef_injective

instance : Ord OutputRef := ⟨compareOn OutputRef.reference⟩

instance : Std.TransOrd OutputRef := inferInstanceAs (Std.TransCmp (compareOn OutputRef.reference))

instance : Std.LawfulEqOrd OutputRef := lawfulEq_compareOn outputRef_injective

/-! ## Declared facts -/

/-- Direction of a host-staged transfer. -/
inductive TransferDirectionMirror where
  | h2d
  | d2h
  | bidi
  deriving DecidableEq, Repr

inductive MirroredDtype where
  | f32
  | f64
  | f16
  | bf16
  | i8
  | i32
  deriving DecidableEq, Repr

inductive MirroredStorageLayout where
  | dense
  | blockPacked
  deriving DecidableEq, Repr

/-- Host staging is the only admitted path. -/
inductive TransportPathMirror where
  | hostStaged
  deriving DecidableEq, Repr

/-- The barriers and launches whose completion commits a plan. -/
structure TransactionCommitBoundary where
  barriers : BTreeSet BarrierRef
  launches : BTreeSet LaunchRef
  deriving DecidableEq

structure TransferOperationMirror where
  id : TransferRef
  source : LogicalPartitionId
  destination : LogicalPartitionId
  byteCount : UInt64
  direction : TransferDirectionMirror
  elementDtype : MirroredDtype
  layout : MirroredStorageLayout
  pathLabel : TransportPathMirror
  producerGeneration : UInt64
  consumerGeneration : UInt64
  completionBoundary : TransactionCommitBoundary
  deriving DecidableEq

/-- A broadcast.  That the source is a participant is a debug assertion of the
    source only. -/
structure CollectiveBroadcastMirror where
  id : CollectiveRef
  source : LogicalPartitionId
  participants : BTreeSet LogicalPartitionId
  byteCount : UInt64
  deriving DecidableEq

/-- Stable key of an operation within a snapshot. -/
inductive OperationRef where
  | launch (launchRef : LaunchRef)
  | transfer (transferRef : TransferRef)
  | collective (collectiveRef : CollectiveRef)
  | barrier (barrierRef : BarrierRef)
  deriving DecidableEq, Repr

namespace OperationRef

def orderKey : OperationRef → Nat × String
  | .launch r => (0, r.reference)
  | .transfer r => (1, r.reference)
  | .collective r => (2, r.reference)
  | .barrier r => (3, r.reference)

theorem orderKey_injective : Function.Injective orderKey := by
  rintro (⟨⟨a⟩⟩ | ⟨⟨a⟩⟩ | ⟨⟨a⟩⟩ | ⟨⟨a⟩⟩) (⟨⟨b⟩⟩ | ⟨⟨b⟩⟩ | ⟨⟨b⟩⟩ | ⟨⟨b⟩⟩) h <;> simp_all [orderKey]

instance : Ord OperationRef := ⟨compareOn orderKey⟩

instance : Std.TransOrd OperationRef := inferInstanceAs (Std.TransCmp (compareOn orderKey))

instance : Std.LawfulEqOrd OperationRef := lawfulEq_compareOn orderKey_injective

end OperationRef

/-- A barrier or launch that a commit boundary names. -/
inductive BoundaryRef where
  | barrier (barrierRef : BarrierRef)
  | launch (launchRef : LaunchRef)
  deriving DecidableEq, Repr

namespace BoundaryRef

def orderKey : BoundaryRef → Nat × String
  | .barrier r => (0, r.reference)
  | .launch r => (1, r.reference)

theorem orderKey_injective : Function.Injective orderKey := by
  rintro (⟨⟨a⟩⟩ | ⟨⟨a⟩⟩) (⟨⟨b⟩⟩ | ⟨⟨b⟩⟩) h <;> simp_all [orderKey]

instance : Ord BoundaryRef := ⟨compareOn orderKey⟩

instance : Std.TransOrd BoundaryRef := inferInstanceAs (Std.TransCmp (compareOn orderKey))

instance : Std.LawfulEqOrd BoundaryRef := lawfulEq_compareOn orderKey_injective

end BoundaryRef

/-- One staged write: the unit of atomic publication. -/
structure StagedWrite where
  partition : LogicalPartitionId
  outputRef : OutputRef
  byteCount : UInt64
  deriving DecidableEq, Repr

/-- A partition reaching one operation. -/
inductive OperationEvent where
  | launchCompleted (partition : LogicalPartitionId) (launchRef : LaunchRef)
  | transferCompleted (partition : LogicalPartitionId) (transferRef : TransferRef)
  | broadcastCompleted (partition : LogicalPartitionId) (collectiveRef : CollectiveRef)
  | barrierCompleted (partition : LogicalPartitionId) (barrierRef : BarrierRef)
  deriving DecidableEq, Repr

namespace OperationEvent

def orderKey : OperationEvent → Nat × String × String
  | .launchCompleted p r => (0, p.id, r.reference)
  | .transferCompleted p r => (1, p.id, r.reference)
  | .broadcastCompleted p r => (2, p.id, r.reference)
  | .barrierCompleted p r => (3, p.id, r.reference)

theorem orderKey_injective : Function.Injective orderKey := by
  rintro (⟨⟨a⟩, ⟨b⟩⟩ | ⟨⟨a⟩, ⟨b⟩⟩ | ⟨⟨a⟩, ⟨b⟩⟩ | ⟨⟨a⟩, ⟨b⟩⟩)
    (⟨⟨c⟩, ⟨d⟩⟩ | ⟨⟨c⟩, ⟨d⟩⟩ | ⟨⟨c⟩, ⟨d⟩⟩ | ⟨⟨c⟩, ⟨d⟩⟩) h <;> simp_all [orderKey]

instance : Ord OperationEvent := ⟨compareOn orderKey⟩

instance : Std.TransOrd OperationEvent := inferInstanceAs (Std.TransCmp (compareOn orderKey))

instance : Std.LawfulEqOrd OperationEvent := lawfulEq_compareOn orderKey_injective

end OperationEvent

/-! ## Operations -/

/-- One operation of the accepted plan. -/
inductive TransactionOperation where
  | launch (partition : LogicalPartitionId) (launchRef : LaunchRef) (outputBytes : UInt64)
  | transfer (transfer : TransferOperationMirror)
  | collectiveBroadcast (broadcast : CollectiveBroadcastMirror)
  | barrier (barrierRef : BarrierRef) (partitions : BTreeSet LogicalPartitionId)
  deriving DecidableEq

namespace TransactionOperation

def operationRef : TransactionOperation → OperationRef
  | .launch _ launchRef _ => .launch launchRef
  | .transfer t => .transfer t.id
  | .collectiveBroadcast broadcast => .collective broadcast.id
  | .barrier barrierRef _ => .barrier barrierRef

/-- The partitions the operation involves. -/
def partitions : TransactionOperation → BTreeSet LogicalPartitionId
  | .launch partition _ _ => setOf [partition]
  | .transfer t => setOf [t.source, t.destination]
  | .collectiveBroadcast broadcast => broadcast.participants
  | .barrier _ partitions => partitions

/-- The bytes the operation moves across the mesh: a broadcast moves one copy per
    participant but the first. -/
def byteCount (T : Toolchain) : TransactionOperation → MayPanic UInt64
  | .launch _ _ _ => some 0
  | .barrier _ _ => some 0
  | .transfer t => some t.byteCount
  | .collectiveBroadcast broadcast =>
    mulU64 T.overflowChecks broadcast.byteCount
      (UInt64.ofNat (broadcast.participants.size - 1))

/-- The events the operation completes, one per involved partition. -/
def completedEvents : TransactionOperation → BTreeSet OperationEvent
  | .launch partition launchRef _ => setOf [.launchCompleted partition launchRef]
  | .transfer t =>
    setOf [.transferCompleted t.source t.id,
      .transferCompleted t.destination t.id]
  | .collectiveBroadcast broadcast =>
    setOf (broadcast.participants.toList.map (.broadcastCompleted · broadcast.id))
  | .barrier barrierRef partitions =>
    setOf (partitions.toList.map (.barrierCompleted · barrierRef))

def launchOutput (launchRef : LaunchRef) : OutputRef := ⟨s!"launch:{launchRef}:output"⟩

def transferOutput (id : TransferRef) : OutputRef := ⟨s!"transfer:{id}:destination"⟩

def broadcastOutput (id : CollectiveRef) (participant : LogicalPartitionId) : OutputRef :=
  ⟨s!"broadcast:{id}:{participant}"⟩

/-- The staged writes the operation publishes. -/
def stagedWrites : TransactionOperation → List StagedWrite
  | .launch partition launchRef outputBytes => [⟨partition, launchOutput launchRef, outputBytes⟩]
  | .transfer t =>
    [⟨t.destination, transferOutput t.id, t.byteCount⟩]
  | .collectiveBroadcast broadcast =>
    (broadcast.participants.toList.filter (fun p => p ≠ broadcast.source)).map
      (fun participant =>
        ⟨participant, broadcastOutput broadcast.id participant, broadcast.byteCount⟩)
  | .barrier _ _ => []

/-- The operation is the barrier the boundary names. -/
def isBarrier (barrierRef : BarrierRef) : TransactionOperation → Bool
  | .barrier r _ => r = barrierRef
  | _ => false

/-- The operation is the launch the boundary names. -/
def isLaunch (launchRef : LaunchRef) : TransactionOperation → Bool
  | .launch _ r _ => r = launchRef
  | _ => false

end TransactionOperation

end FaberHosts.Transaction
