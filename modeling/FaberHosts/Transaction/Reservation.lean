import FaberHosts.Transaction.Mirror

/-!
# Reservations

`execution_transaction/reservation.rs`: the bytes `prepare` derives for each
partition from the accepted plan, and the declared write-set.
-/

namespace FaberHosts.Transaction
open FaberHosts.Lib FaberHosts.Coordinator

/-- Class-3 cost of one event object. -/
def eventObjectBytes : UInt64 := 64

/-- Class-3 scratch of one participating partition. -/
def transactionScratchBytesPerPartition : UInt64 := 4096

/-- The ledger class a reservation is charged against. -/
inductive BudgetClass where
  | transferStaging
  | activationScratch
  deriving DecidableEq, Repr

structure ReservationRecord where
  transferStagingBytes : UInt64
  outputBufferBytes : UInt64
  eventBytes : UInt64
  transactionScratchBytes : UInt64
  deriving DecidableEq, Repr

namespace ReservationRecord

def classSixBytes (record : ReservationRecord) : UInt64 := record.transferStagingBytes

def classThreeBytes (T : Toolchain) (record : ReservationRecord) : MayPanic UInt64 := do
  let charged ← addU64 T.overflowChecks record.outputBufferBytes record.eventBytes
  addU64 T.overflowChecks charged record.transactionScratchBytes

end ReservationRecord

/-! ## Charges of one operation -/

namespace TransactionOperation

/-- One event object per involved partition. -/
def eventCharges (operation : TransactionOperation) : List (LogicalPartitionId × UInt64) :=
  operation.partitions.toList.map (·, eventObjectBytes)

/-- A transfer stages at both endpoints, a broadcast at every participant. -/
def stagingCharges : TransactionOperation → List (LogicalPartitionId × UInt64)
  | .launch _ _ _ => []
  | .transfer t => [(t.source, t.byteCount), (t.destination, t.byteCount)]
  | .collectiveBroadcast b => b.participants.toList.map (·, b.byteCount)
  | .barrier _ _ => []

/-- The bytes of the staged outputs. -/
def outputCharges : TransactionOperation → List (LogicalPartitionId × UInt64)
  | .launch partition _ outputBytes => [(partition, outputBytes)]
  | .transfer t => [(t.destination, t.byteCount)]
  | .collectiveBroadcast b =>
    (b.participants.toList.filter (fun p => p ≠ b.source)).map (·, b.byteCount)
  | .barrier _ _ => []

end TransactionOperation

abbrev Reservation := BTreeMap LogicalPartitionId ReservationRecord

/-- The three charge maps of the loop are independent, so their additions are
    run map by map. -/
def deriveReservation (T : Toolchain) (operations : List TransactionOperation)
    (referenced : BTreeSet LogicalPartitionId) : MayPanic Reservation := do
  let events ← accumulate T.overflowChecks ∅ (operations.flatMap (·.eventCharges))
  let staging ← accumulate T.overflowChecks ∅ (operations.flatMap (·.stagingCharges))
  let outputs ← accumulate T.overflowChecks ∅ (operations.flatMap (·.outputCharges))
  some (mapOver referenced (fun partition => {
    transferStagingBytes := staging.getD partition 0
    outputBufferBytes := outputs.getD partition 0
    eventBytes := events.getD partition 0
    transactionScratchBytes := transactionScratchBytesPerPartition }))

/-- The writes the plan will publish, by output reference: a later write of one
    reference replaces an earlier one. -/
def deriveDeclaredWriteSet (operations : List TransactionOperation) :
    BTreeMap OutputRef StagedWrite :=
  (operations.flatMap (·.stagedWrites)).foldl
    (fun writes write => writes.insert write.outputRef write) ∅

/-! ## Exact sums -/

/-- The staging bytes a partition's transfers and broadcasts need, as an integer. -/
def exactStaging (operations : List TransactionOperation) (partition : LogicalPartitionId) : Nat :=
  amountAt partition (operations.flatMap (·.stagingCharges))

def exactOutputs (operations : List TransactionOperation) (partition : LogicalPartitionId) : Nat :=
  amountAt partition (operations.flatMap (·.outputCharges))

def exactEvents (operations : List TransactionOperation) (partition : LogicalPartitionId) : Nat :=
  amountAt partition (operations.flatMap (·.eventCharges))

/-- Output writes, event objects and the transaction scratch of a partition, as
    an integer. -/
def exactClassThree (operations : List TransactionOperation) (partition : LogicalPartitionId) :
    Nat :=
  exactOutputs operations partition + exactEvents operations partition +
    transactionScratchBytesPerPartition.toNat

section Cons

variable (operation : TransactionOperation) (rest : List TransactionOperation)
  (partition : LogicalPartitionId)

theorem exactStaging_cons : exactStaging (operation :: rest) partition =
    amountAt partition operation.stagingCharges + exactStaging rest partition := by
  rw [exactStaging, List.flatMap_cons, amountAt_append, exactStaging]

theorem exactOutputs_cons : exactOutputs (operation :: rest) partition =
    amountAt partition operation.outputCharges + exactOutputs rest partition := by
  rw [exactOutputs, List.flatMap_cons, amountAt_append, exactOutputs]

theorem exactEvents_cons : exactEvents (operation :: rest) partition =
    amountAt partition operation.eventCharges + exactEvents rest partition := by
  rw [exactEvents, List.flatMap_cons, amountAt_append, exactEvents]

@[simp] theorem exactStaging_nil : exactStaging [] partition = 0 := rfl

@[simp] theorem exactOutputs_nil : exactOutputs [] partition = 0 := rfl

@[simp] theorem exactEvents_nil : exactEvents [] partition = 0 := rfl

end Cons

end FaberHosts.Transaction

/-!
## Output references

The outputs of an accepted plan are named by strings built from the references
of its operations.  Launches and transfers never share a name; two broadcasts do
when identifier and participant, joined by a colon, read the same.
-/

namespace FaberHosts.Transaction
open FaberHosts.Lib FaberHosts.Coordinator

namespace TransactionOperation

/-- The names of the operation's staged writes. -/
def outputRefs (operation : TransactionOperation) : List OutputRef :=
  operation.stagedWrites.map (·.outputRef)

/-- The first letter of the operation's output names. -/
def outputInitial : TransactionOperation → Char
  | .launch _ _ _ => 'l'
  | .transfer _ => 't'
  | .collectiveBroadcast _ => 'b'
  | .barrier _ _ => 'b'

theorem mem_broadcast_outputRefs {broadcast : CollectiveBroadcastMirror} {ref : OutputRef} :
    ref ∈ (collectiveBroadcast broadcast).outputRefs ↔
      ∃ p ∈ broadcast.participants, p ≠ broadcast.source ∧
        ref = broadcastOutput broadcast.id p := by
  simp only [outputRefs, stagedWrites, List.map_map, List.mem_map, List.mem_filter,
    Std.ExtTreeSet.mem_toList, decide_eq_true_eq, Function.comp_apply]
  constructor
  · rintro ⟨p, ⟨hp, hsource⟩, rfl⟩
    exact ⟨p, hp, hsource, rfl⟩
  · rintro ⟨p, hp, hsource, rfl⟩
    exact ⟨p, ⟨hp, hsource⟩, rfl⟩

theorem initial_of_mem_outputRefs {operation : TransactionOperation} {ref : OutputRef}
    (h : ref ∈ operation.outputRefs) :
    ref.reference.toList.head? = some operation.outputInitial := by
  cases operation with
  | launch partition launchRef outputBytes =>
    rw [outputRefs, stagedWrites, List.map_singleton, List.mem_singleton] at h
    subst h
    simp [launchOutput, outputInitial, String.toList_append, toString]
  | transfer t =>
    rw [outputRefs, stagedWrites, List.map_singleton, List.mem_singleton] at h
    subst h
    simp [transferOutput, outputInitial, String.toList_append, toString]
  | collectiveBroadcast broadcast =>
    obtain ⟨p, -, -, rfl⟩ := mem_broadcast_outputRefs.mp h
    simp [broadcastOutput, outputInitial, String.toList_append, toString]
  | barrier barrierRef partitions => simp [outputRefs, stagedWrites] at h

theorem launchOutput_injective : Function.Injective launchOutput := by
  intro a b h
  have href := congrArg OutputRef.reference h
  simp only [launchOutput, toString, String.append_left_inj, String.append_right_inj] at href
  exact LaunchRef.ext href

theorem transferOutput_injective : Function.Injective transferOutput := by
  rintro ⟨a⟩ ⟨b⟩ h
  have href := congrArg OutputRef.reference h
  simp only [transferOutput, toString, String.append_left_inj, String.append_right_inj] at href
  rw [href]

theorem broadcastOutput_eq_iff {a b : CollectiveRef} {p q : LogicalPartitionId} :
    broadcastOutput a p = broadcastOutput b q ↔
      a.reference ++ ":" ++ p.id = b.reference ++ ":" ++ q.id := by
  rw [OutputRef.ext_iff]
  simp [broadcastOutput, toString, String.append_assoc]

theorem broadcastOutput_injective (a : CollectiveRef) : Function.Injective (broadcastOutput a) := by
  rintro ⟨p⟩ ⟨q⟩ h
  rw [broadcastOutput_eq_iff, String.append_right_inj] at h
  exact congrArg LogicalPartitionId.mk h

theorem nodup_outputRefs (operation : TransactionOperation) : operation.outputRefs.Nodup := by
  cases operation with
  | launch partition launchRef outputBytes => simp [outputRefs, stagedWrites]
  | transfer t => simp [outputRefs, stagedWrites]
  | collectiveBroadcast broadcast =>
    rw [outputRefs, stagedWrites, List.map_map]
    exact ((nodup_toList broadcast.participants).filter _).map
      (broadcastOutput_injective broadcast.id)
  | barrier barrierRef partitions => simp [outputRefs, stagedWrites]

end TransactionOperation

open TransactionOperation

/-- Some participant of one broadcast and some participant of another one, sources
    apart, get the same output name. -/
def SharesOutput (a b : CollectiveBroadcastMirror) : Prop :=
  ∃ p ∈ a.participants, p ≠ a.source ∧ ∃ q ∈ b.participants, q ≠ b.source ∧
    a.id.reference ++ ":" ++ p.id = b.id.reference ++ ":" ++ q.id

/-- No two broadcasts of different identity share an output name. -/
def OutputsUnambiguous (operations : List TransactionOperation) : Prop :=
  ∀ a b, .collectiveBroadcast a ∈ operations → .collectiveBroadcast b ∈ operations →
    a.id ≠ b.id → ¬ SharesOutput a b

/-- The names of all staged writes of a plan, in plan order. -/
def stagedRefs (operations : List TransactionOperation) : List OutputRef :=
  operations.flatMap (·.outputRefs)

theorem shared_output {first second : TransactionOperation} {ref : OutputRef}
    (hne : first.operationRef ≠ second.operationRef) (hfirst : ref ∈ first.outputRefs)
    (hsecond : ref ∈ second.outputRefs) :
    ∃ a b, first = .collectiveBroadcast a ∧ second = .collectiveBroadcast b ∧ a.id ≠ b.id ∧
      SharesOutput a b := by
  have hinitial : first.outputInitial = second.outputInitial :=
    Option.some.inj ((initial_of_mem_outputRefs hfirst).symm.trans
      (initial_of_mem_outputRefs hsecond))
  cases first with
  | launch partition launchRef outputBytes =>
    cases second with
    | launch partition' launchRef' outputBytes' =>
      simp only [outputRefs, stagedWrites, List.map_singleton, List.mem_singleton] at hfirst hsecond
      rw [hfirst] at hsecond
      exact (hne (congrArg OperationRef.launch (launchOutput_injective hsecond))).elim
    | transfer _ | collectiveBroadcast _ | barrier _ _ => simp [outputInitial] at hinitial
  | transfer t =>
    cases second with
    | transfer t' =>
      simp only [outputRefs, stagedWrites, List.map_singleton, List.mem_singleton] at hfirst hsecond
      rw [hfirst] at hsecond
      exact (hne (congrArg OperationRef.transfer (transferOutput_injective hsecond))).elim
    | launch _ _ _ | collectiveBroadcast _ | barrier _ _ => simp [outputInitial] at hinitial
  | collectiveBroadcast a =>
    cases second with
    | collectiveBroadcast b =>
      obtain ⟨p, hp, hpSource, hpRef⟩ := mem_broadcast_outputRefs.mp hfirst
      obtain ⟨q, hq, hqSource, hqRef⟩ := mem_broadcast_outputRefs.mp hsecond
      refine ⟨a, b, rfl, rfl, fun hid => hne (congrArg OperationRef.collective hid), ?_⟩
      exact ⟨p, hp, hpSource, q, hq, hqSource, broadcastOutput_eq_iff.mp (hpRef ▸ hqRef)⟩
    | launch _ _ _ | transfer _ => simp [outputInitial] at hinitial
    | barrier barrierRef partitions => simp [outputRefs, stagedWrites] at hsecond
  | barrier barrierRef partitions => simp [outputRefs, stagedWrites] at hfirst

/-- The output names of a snapshot are distinct exactly when its broadcasts are
    unambiguous. -/
theorem nodup_stagedRefs_iff {operations : List TransactionOperation}
    (hunique : (operations.map (·.operationRef)).Nodup) :
    (stagedRefs operations).Nodup ↔ OutputsUnambiguous operations := by
  rw [stagedRefs, List.nodup_flatMap]
  constructor
  · rintro ⟨-, hdisjoint⟩ a b ha hb hid ⟨p, hp, hpSource, q, hq, hqSource, hname⟩
    have hsymm : Std.Symm (Function.onFun List.Disjoint outputRefs) :=
      ⟨fun _ _ h => List.Disjoint.symm h⟩
    have hne : TransactionOperation.collectiveBroadcast a ≠ .collectiveBroadcast b :=
      fun heq => hid (by cases heq; rfl)
    exact hdisjoint.forall ha hb hne
      (mem_broadcast_outputRefs.mpr ⟨p, hp, hpSource, rfl⟩)
      (mem_broadcast_outputRefs.mpr ⟨q, hq, hqSource, broadcastOutput_eq_iff.mpr hname⟩)
  · intro hunambiguous
    refine ⟨fun operation _ => nodup_outputRefs operation, ?_⟩
    refine (List.pairwise_map.mp hunique).imp_of_mem ?_
    intro first second hfirst hsecond hne ref hrefFirst hrefSecond
    obtain ⟨a, b, rfl, rfl, hid, hshares⟩ := shared_output hne hrefFirst hrefSecond
    exact hunambiguous a b hfirst hsecond hid hshares

/-- With distinct output names the declared write-set has one entry per staged
    write. -/
theorem size_deriveDeclaredWriteSet {operations : List TransactionOperation}
    (h : (stagedRefs operations).Nodup) :
    (deriveDeclaredWriteSet operations).size = (operations.flatMap (·.stagedWrites)).length := by
  have hkeys : (((operations.flatMap (·.stagedWrites)).map
      (fun write => (write.outputRef, write))).map Prod.fst).Nodup := by
    simpa [stagedRefs, outputRefs, List.map_flatMap, Function.comp_def] using h
  have hsize := size_foldl_insert (m := ∅) hkeys (by simp)
  rw [List.foldl_map, List.length_map] at hsize
  simpa [deriveDeclaredWriteSet] using hsize

end FaberHosts.Transaction
