import FaberHosts.Coordinator.Identity
import FaberHosts.Transaction.Mirror

/-!
# Canonical bytes of operations

`mirror.rs`: each operation behind a tag byte, every string and set behind its
length.  The bytes tell the operation.
-/

namespace FaberHosts.Transaction
open FaberHosts.Lib FaberHosts.Coordinator

/-! ## The encodings -/

def TransferDirectionMirror.tag : TransferDirectionMirror → UInt64
  | .h2d => 0
  | .d2h => 1
  | .bidi => 2

def MirroredDtype.tag : MirroredDtype → UInt64
  | .f32 => 0
  | .f64 => 1
  | .f16 => 2
  | .bf16 => 3
  | .i8 => 4
  | .i32 => 5

def MirroredStorageLayout.tag : MirroredStorageLayout → UInt64
  | .dense => 0
  | .blockPacked => 1

def TransportPathMirror.tag : TransportPathMirror → UInt64
  | .hostStaged => 0

/-- The number of elements and each of them, in order. -/
def setBytes {K : Type} [Ord K] [Std.TransOrd K] (spelling : K → String) (s : BTreeSet K) :
    List UInt8 :=
  pushLen s.size ++ s.toList.flatMap (fun k => pushStr (spelling k))

def TransactionCommitBoundary.canonicalBytes (boundary : TransactionCommitBoundary) :
    List UInt8 :=
  setBytes BarrierRef.reference boundary.barriers ++
    setBytes LaunchRef.reference boundary.launches

def TransferOperationMirror.canonicalBytes (transfer : TransferOperationMirror) : List UInt8 :=
  pushStr transfer.id.reference ++ pushStr transfer.source.id ++
    pushStr transfer.destination.id ++ pushU64 transfer.byteCount ++
    pushU64 transfer.direction.tag ++ pushU64 transfer.elementDtype.tag ++
    pushU64 transfer.layout.tag ++ pushU64 transfer.pathLabel.tag ++
    pushU64 transfer.producerGeneration ++ pushU64 transfer.consumerGeneration ++
    transfer.completionBoundary.canonicalBytes

def CollectiveBroadcastMirror.canonicalBytes (broadcast : CollectiveBroadcastMirror) :
    List UInt8 :=
  pushStr broadcast.id.reference ++ pushStr broadcast.source.id ++
    setBytes LogicalPartitionId.id broadcast.participants ++ pushU64 broadcast.byteCount

def TransactionOperation.canonicalBytes : TransactionOperation → List UInt8
  | .launch partition launchRef outputBytes =>
    [0] ++ pushStr partition.id ++ pushStr launchRef.reference ++ pushU64 outputBytes
  | .transfer t => [1] ++ t.canonicalBytes
  | .collectiveBroadcast broadcast => [2] ++ broadcast.canonicalBytes
  | .barrier barrierRef partitions =>
    [3] ++ pushStr barrierRef.reference ++ setBytes LogicalPartitionId.id partitions

/-! ## Identifiers of a size that fits -/

/-- A set of short identifiers, its number a `usize`. -/
def ShortSet {K : Type} [Ord K] [Std.TransOrd K] (spelling : K → String) (s : BTreeSet K) :
    Prop :=
  s.toList.length < 2 ^ 64 ∧ ∀ k ∈ s.toList, Short (spelling k)

def TransactionCommitBoundary.Short (boundary : TransactionCommitBoundary) : Prop :=
  ShortSet BarrierRef.reference boundary.barriers ∧
    ShortSet LaunchRef.reference boundary.launches

/-- Every identifier of the operation is short. -/
def TransactionOperation.Short : TransactionOperation → Prop
  | .launch partition launchRef _ =>
    Coordinator.Short partition.id ∧ Coordinator.Short launchRef.reference
  | .transfer t =>
    Coordinator.Short t.id.reference ∧ Coordinator.Short t.source.id ∧
      Coordinator.Short t.destination.id ∧ t.completionBoundary.Short
  | .collectiveBroadcast broadcast =>
    Coordinator.Short broadcast.id.reference ∧ Coordinator.Short broadcast.source.id ∧
      ShortSet LogicalPartitionId.id broadcast.participants
  | .barrier barrierRef partitions =>
    Coordinator.Short barrierRef.reference ∧ ShortSet LogicalPartitionId.id partitions

/-! ## What the bytes tell -/

theorem TransferDirectionMirror.tag_inj (a b : TransferDirectionMirror) :
    a.tag = b.tag ↔ a = b := by
  cases a <;> cases b <;> decide

theorem MirroredDtype.tag_inj (a b : MirroredDtype) : a.tag = b.tag ↔ a = b := by
  cases a <;> cases b <;> decide

theorem MirroredStorageLayout.tag_inj (a b : MirroredStorageLayout) : a.tag = b.tag ↔ a = b := by
  cases a <;> cases b <;> decide

theorem setBytes_delimits {K : Type} [Ord K] [Std.TransOrd K] {spelling : K → String}
    (hinj : Function.Injective spelling) :
    Delimits (ShortSet spelling) id (setBytes spelling) := by
  have hone : Delimits (fun k => Short (spelling k)) id (fun k => pushStr (spelling k)) := by
    intro a b ha hb r s
    rw [pushStr_delimits _ _ ha hb r s]
    exact and_congr_left' hinj.eq_iff
  intro a b ha hb r s
  have hcounted := hone.counted pushLen_delimits a.toList b.toList ha hb r s
  rw [List.map_id, List.map_id, Std.ExtTreeSet.toList_inj] at hcounted
  rw [setBytes, setBytes, ← Std.ExtTreeSet.length_toList, ← Std.ExtTreeSet.length_toList]
  exact hcounted

theorem commitBoundary_delimits :
    Delimits TransactionCommitBoundary.Short id TransactionCommitBoundary.canonicalBytes := by
  rintro ⟨barriers, launches⟩ ⟨barriers', launches'⟩ ha hb r s
  simp only [TransactionCommitBoundary.canonicalBytes, List.append_assoc,
    setBytes_delimits barrierRef_injective _ _ ha.1 hb.1,
    setBytes_delimits launchRef_injective _ _ ha.2 hb.2, id_eq,
    TransactionCommitBoundary.mk.injEq, and_assoc]

theorem transferRef_inj (a b : TransferRef) : a.reference = b.reference ↔ a = b := by
  cases a
  cases b
  simp

theorem collectiveRef_inj (a b : CollectiveRef) : a.reference = b.reference ↔ a = b := by
  cases a
  cases b
  simp

/-- The bytes of an operation of any kind tell the operation, and where its bytes end. -/
theorem canonicalBytes_delimits :
    Delimits TransactionOperation.Short id TransactionOperation.canonicalBytes := by
  intro a b ha hb r s
  cases a with
  | launch partition launchRef outputBytes =>
    cases b with
    | launch partition' launchRef' outputBytes' =>
      simp only [TransactionOperation.canonicalBytes, List.append_assoc,
        List.append_cancel_left_eq, pushStr_append_inj ha.1 hb.1, pushStr_append_inj ha.2 hb.2,
        pushU64_append_inj, LogicalPartitionId.id_injective.eq_iff,
        launchRef_injective.eq_iff, id_eq, TransactionOperation.launch.injEq, and_assoc]
    | _ => simp [TransactionOperation.canonicalBytes]
  | transfer transfer =>
    cases b with
    | transfer transfer' =>
      obtain ⟨hid, hsource, hdestination, hboundary⟩ := ha
      obtain ⟨hid', hsource', hdestination', hboundary'⟩ := hb
      cases transfer
      cases transfer'
      simp only [TransactionOperation.canonicalBytes, TransferOperationMirror.canonicalBytes,
        List.append_assoc, List.append_cancel_left_eq, pushStr_append_inj hid hid',
        pushStr_append_inj hsource hsource', pushStr_append_inj hdestination hdestination',
        pushU64_append_inj, commitBoundary_delimits _ _ hboundary hboundary',
        TransferDirectionMirror.tag_inj, MirroredDtype.tag_inj, MirroredStorageLayout.tag_inj,
        true_and, LogicalPartitionId.id_injective.eq_iff, transferRef_inj,
        id_eq, TransactionOperation.transfer.injEq, TransferOperationMirror.mk.injEq, and_assoc]
    | _ => simp [TransactionOperation.canonicalBytes]
  | collectiveBroadcast broadcast =>
    cases b with
    | collectiveBroadcast broadcast' =>
      obtain ⟨hid, hsource, hparticipants⟩ := ha
      obtain ⟨hid', hsource', hparticipants'⟩ := hb
      cases broadcast
      cases broadcast'
      simp only [TransactionOperation.canonicalBytes, CollectiveBroadcastMirror.canonicalBytes,
        List.append_assoc, List.append_cancel_left_eq, pushStr_append_inj hid hid',
        pushStr_append_inj hsource hsource', pushU64_append_inj,
        setBytes_delimits LogicalPartitionId.id_injective _ _ hparticipants hparticipants',
        LogicalPartitionId.id_injective.eq_iff, collectiveRef_inj, id_eq,
        TransactionOperation.collectiveBroadcast.injEq, CollectiveBroadcastMirror.mk.injEq,
        and_assoc]
    | _ => simp [TransactionOperation.canonicalBytes]
  | barrier barrierRef partitions =>
    cases b with
    | barrier barrierRef' partitions' =>
      simp only [TransactionOperation.canonicalBytes, List.append_assoc,
        List.append_cancel_left_eq, pushStr_append_inj ha.1 hb.1,
        setBytes_delimits LogicalPartitionId.id_injective _ _ ha.2 hb.2,
        barrierRef_injective.eq_iff, id_eq, TransactionOperation.barrier.injEq, and_assoc]
    | _ => simp [TransactionOperation.canonicalBytes]

/-- Operations with the same canonical bytes are the same operation. -/
theorem operation_canonicalBytes_eq_iff (a b : TransactionOperation) (ha : a.Short) (hb : b.Short) :
    a.canonicalBytes = b.canonicalBytes ↔ a = b :=
  canonicalBytes_delimits.code_eq_iff ha hb

/-- A launch and a barrier of one partition. -/
theorem launch_barrier_bytes_ne :
    (TransactionOperation.launch ⟨"partition-0"⟩ ⟨"launch-0"⟩ 8).canonicalBytes =
        (TransactionOperation.barrier ⟨"partition-0"⟩ (setOf [⟨"launch-0"⟩])).canonicalBytes ↔
      TransactionOperation.launch ⟨"partition-0"⟩ ⟨"launch-0"⟩ 8 =
        .barrier ⟨"partition-0"⟩ (setOf [⟨"launch-0"⟩]) := by
  refine operation_canonicalBytes_eq_iff _ _ ⟨?_, ?_⟩ ⟨?_, ?_, ?_⟩
  · decide
  · decide
  · decide
  · rw [toList_setOf_singleton]
    decide
  · rw [toList_setOf_singleton]
    decide

end FaberHosts.Transaction
