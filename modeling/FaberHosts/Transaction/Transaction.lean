import FaberHosts.Transaction.Backend

/-!
# Execution transactions

`execution_transaction/transaction.rs`: `prepare`, `execute`, `execute_operation`,
`commit` and `abort` over a bound plan and a device-execution backend.
-/

namespace FaberHosts.Transaction
open FaberHosts.Lib FaberHosts.Coordinator

/-- A transaction over an accepted plan.  Only `new` builds one, and nothing
    replaces its plan or its operations. -/
structure ExecutionTransaction where
  id : TransactionId
  boundPlan : BoundDistributedPlan
  operations : List TransactionOperation
  commitBoundary : TransactionCommitBoundary
  operationKeys : BTreeMap OperationRef Nat
  state : TransactionState
  reservation : Option Reservation
  declaredWriteSet : BTreeMap OutputRef StagedWrite
  stagedWriteSet : BTreeMap OutputRef StagedWrite
  executedOperations : List ExecutedOperationRecord
  completedEvents : BTreeSet OperationEvent
  failure : Option TransactionFailure
  decision : Option TransactionDecision
  publishSummary : Option PublishSummary
  teardown : TeardownFacts
  timings : TransactionTimings
  transportReceipt : Option TransportReceipt
  receipt : Option TransactionReceipt
  not_degenerate : boundPlan.isDegenerate = false
  operations_nonempty : operations ≠ []
  deriving DecidableEq

namespace ExecutionTransaction

def new (id : TransactionId) (boundPlan : BoundDistributedPlan)
    (operations : List TransactionOperation) (commitBoundary : TransactionCommitBoundary) :
    Except ConstructError ExecutionTransaction :=
  if hplan : boundPlan.isDegenerate = true then .error .degeneratePlan
  else if hops : operations = [] then .error .emptySnapshot
  else
    .ok {
      id := id
      boundPlan := boundPlan
      operations := operations
      commitBoundary := commitBoundary
      operationKeys := ∅
      state := .new
      reservation := none
      declaredWriteSet := ∅
      stagedWriteSet := ∅
      executedOperations := []
      completedEvents := ∅
      failure := none
      decision := none
      publishSummary := none
      teardown := .empty
      timings := ⟨0, 0, 0⟩
      transportReceipt := none
      receipt := none
      not_degenerate := by simpa using hplan
      operations_nonempty := hops }

/-- What a transaction that has just been constructed holds. -/
structure IsFresh (tx : ExecutionTransaction) : Prop where
  state : tx.state = .new
  reservation : tx.reservation = none
  declaredWriteSet : tx.declaredWriteSet = ∅
  stagedWriteSet : tx.stagedWriteSet = ∅
  executedOperations : tx.executedOperations = []
  completedEvents : tx.completedEvents = ∅
  teardown : tx.teardown = .empty
  receipt : tx.receipt = none

theorem new_ok {id : TransactionId} {bound : BoundDistributedPlan}
    {given : List TransactionOperation} {boundary : TransactionCommitBoundary}
    {tx : ExecutionTransaction} (h : new id bound given boundary = .ok tx) :
    tx.boundPlan = bound ∧ tx.operations = given ∧ tx.commitBoundary = boundary ∧ tx.IsFresh := by
  unfold new at h
  split at h
  · cases h
  · split at h
    · cases h
    · cases h
      exact ⟨rfl, rfl, rfl, ⟨rfl, rfl, rfl, rfl, rfl, rfl, rfl, rfl⟩⟩

theorem new_of_bindings {bound : BoundDistributedPlan} {bindings : Bindings}
    {given : List TransactionOperation} (hbindings : bound.bindings = some bindings)
    (id : TransactionId) (hgiven : given ≠ []) (boundary : TransactionCommitBoundary) :
    ∃ tx, new id bound given boundary = .ok tx := by
  have hplan : bound.isDegenerate = false := by
    unfold BoundDistributedPlan.bindings at hbindings
    unfold BoundDistributedPlan.isDegenerate
    split at hbindings
    · next hkind => rw [hkind]
    · cases hbindings
  rw [new, dif_neg (by simp [hplan]), dif_neg hgiven]
  exact ⟨_, rfl⟩

/-- Record the selected-transport section of the transport adapter. -/
def withTransportReceipt (tx : ExecutionTransaction) (receipt : TransportReceipt) :
    ExecutionTransaction :=
  { tx with transportReceipt := some receipt }

/-! ### Field updates -/

/-- What a successful `prepare` records. -/
@[simps] def recordPrepared (tx : ExecutionTransaction) (keys : BTreeMap OperationRef Nat)
    (held : Reservation) (elapsed : Nat) : ExecutionTransaction :=
  { tx with
    operationKeys := keys
    reservation := some held
    declaredWriteSet := deriveDeclaredWriteSet tx.operations
    timings := { tx.timings with prepareNanos := durationAsNanosU64 elapsed }
    state := .prepared }

@[simps] def startExecuting (tx : ExecutionTransaction) : ExecutionTransaction :=
  { tx with state := .executing }

@[simps] def stage (tx : ExecutionTransaction) (write : StagedWrite) : ExecutionTransaction :=
  { tx with stagedWriteSet := tx.stagedWriteSet.insert write.outputRef write }

@[simps] def recordExecuted (tx : ExecutionTransaction) (operation : TransactionOperation)
    (byteCount : UInt64) : ExecutionTransaction :=
  { tx with executedOperations := tx.executedOperations ++ [⟨operation, byteCount⟩] }

/-- Record an event when the backend reports it completed. -/
@[simps] def join (tx : ExecutionTransaction) (event : OperationEvent) (completed : Bool) :
    ExecutionTransaction :=
  { tx with
    completedEvents := if completed then tx.completedEvents.insert event else tx.completedEvents }

@[simps] def recordExecuteTime (tx : ExecutionTransaction) (elapsed : Nat) :
    ExecutionTransaction :=
  { tx with timings := { tx.timings with executeNanos := durationAsNanosU64 elapsed } }

/-- Add to the teardown facts. -/
@[simps] def recordTeardown (tx : ExecutionTransaction)
    (released retired : BTreeSet LogicalPartitionId) : ExecutionTransaction :=
  { tx with
    teardown := { tx.teardown with
      releasedPartitions := tx.teardown.releasedPartitions ∪ released
      retiredPartitions := tx.teardown.retiredPartitions ∪ retired } }

@[simps] def recordPublished (tx : ExecutionTransaction) (summary : PublishSummary) :
    ExecutionTransaction :=
  { tx with publishSummary := some summary }

@[simps] def recordFailure (tx : ExecutionTransaction) (failed : TransactionFailure) :
    ExecutionTransaction :=
  { tx with failure := some failed }

@[simps] def moveToFailed (tx : ExecutionTransaction) (failed : TransactionFailure) :
    ExecutionTransaction :=
  { tx with failure := some failed, state := .failed failed }

/-- Record a failure and move to `Failed`, unless the machine is past running. -/
def fail (tx : ExecutionTransaction) (failure : TransactionFailure) : ExecutionTransaction :=
  match tx.state with
  | .new | .prepared | .executing => tx.moveToFailed failure
  | .committed | .failed _ | .aborted _ => tx

/-- Record the decision and the terminal state. -/
@[simps] def decide (tx : ExecutionTransaction) (terminal : TransactionState)
    (decided : TransactionDecision) (elapsed : Nat) : ExecutionTransaction :=
  { tx with
    decision := some decided
    state := terminal
    timings := { tx.timings with finalizeNanos := durationAsNanosU64 elapsed } }

@[simps] def storeReceipt (tx : ExecutionTransaction) (built : TransactionReceipt) :
    ExecutionTransaction :=
  { tx with receipt := some built }

theorem fail_of_executing {tx : ExecutionTransaction} (h : tx.state = .executing)
    (failure : TransactionFailure) : tx.fail failure = tx.moveToFailed failure := by
  rw [fail, h]

/-! ### Derived facts -/

/-- The partitions of the recorded reservation. -/
def reservedPartitions (tx : ExecutionTransaction) : BTreeSet LogicalPartitionId :=
  keySet (tx.reservation.getD ∅)

/-- The partitions that hold staged writes. -/
def stagedPartitions (tx : ExecutionTransaction) : BTreeSet LogicalPartitionId :=
  setOf (tx.stagedWriteSet.toList.map (fun staged => staged.2.partition))

/-- A boundary reference is missing when no operation declares it or a partition
    of the operation that does has not completed it. -/
def missingRef (tx : ExecutionTransaction) (declares : TransactionOperation → Bool)
    (event : LogicalPartitionId → OperationEvent) : Bool :=
  match tx.operations.find? declares with
  | none => true
  | some operation =>
    operation.partitions.toList.any (fun partition => !tx.completedEvents.contains (event partition))

/-- The boundary references whose events have not completed. -/
def missingBoundaryRefs (tx : ExecutionTransaction) : BTreeSet BoundaryRef :=
  setOf
    ((tx.commitBoundary.barriers.toList.filter (fun barrier =>
        tx.missingRef (·.isBarrier barrier) (.barrierCompleted · barrier))).map .barrier ++
      (tx.commitBoundary.launches.toList.filter (fun launch =>
        tx.missingRef (·.isLaunch launch) (.launchCompleted · launch))).map .launch)

/-- The final receipt; there is none without a decision. -/
def buildReceipt (tx : ExecutionTransaction) : MayPanic TransactionReceipt :=
  tx.decision.map (fun decision => {
    transactionId := tx.id
    logicalDistributedPlanHash := tx.boundPlan.logicalDistributedPlanHash
    boundDistributedPlanHash := tx.boundPlan.boundDistributedPlanHash
    planReceipt := tx.boundPlan.receipt
    reservationSummary := tx.reservation.getD ∅
    declaredWriteSet := tx.declaredWriteSet
    executedOperations := tx.executedOperations
    synchronizationEvents := tx.completedEvents
    decision := decision
    publishSummary := tx.publishSummary
    teardown := tx.teardown
    timings := tx.timings
    selectedTransports := tx.transportReceipt })

end ExecutionTransaction

/-! ## Gates of `prepare` -/

/-- Step 1: every operation's partitions are declared by the bound plan. -/
def checkTopology (declared : BTreeSet LogicalPartitionId)
    (operations : List TransactionOperation) : Except PrepareError Unit :=
  tryEach (fun indexed : TransactionOperation × Nat =>
    tryEach (fun partition =>
      if partition ∈ declared then .ok () else .error (.unknownPartition partition indexed.2))
      indexed.1.partitions.toList) operations.zipIdx

/-- Step 2: no two operations share a reference. -/
def snapshotKeys (keys : BTreeMap OperationRef Nat) :
    List (TransactionOperation × Nat) → Except PrepareError (BTreeMap OperationRef Nat)
  | [] => .ok keys
  | (operation, index) :: rest =>
    if operation.operationRef ∈ keys then .error (.duplicateOperation operation.operationRef)
    else snapshotKeys (keys.insert operation.operationRef index) rest

/-- Step 3: the snapshot declares every boundary barrier and launch. -/
def checkBoundary (boundary : TransactionCommitBoundary)
    (operations : List TransactionOperation) : Except PrepareError Unit :=
  match tryEach (fun barrier =>
      if operations.any (·.isBarrier barrier) then .ok ()
      else .error (.undeclaredBoundaryBarrier barrier)) boundary.barriers.toList with
  | .error e => .error e
  | .ok () =>
    tryEach (fun launch =>
      if operations.any (·.isLaunch launch) then .ok ()
      else .error (.undeclaredBoundaryLaunch launch)) boundary.launches.toList

/-- The partitions the snapshot references. -/
def referencedPartitions (operations : List TransactionOperation) :
    BTreeSet LogicalPartitionId :=
  setOf (operations.flatMap (·.partitions.toList))

/-- Step 4: every referenced partition carries an admitted virtual partition. -/
def checkAdmittedBudgets (bindings : Bindings) (referenced : BTreeSet LogicalPartitionId) :
    MayPanic (Except PrepareError Unit) :=
  tryEachM (fun partition =>
    (bindings[partition]?).map (fun binding =>
      if binding.virtualPartition.isNone then .error (.missingAdmittedBudget partition)
      else .ok ())) referenced.toList

/-- Steps 1 to 4, which answer the operation keys. -/
def structuralGates (bindings : Bindings) (operations : List TransactionOperation)
    (boundary : TransactionCommitBoundary) :
    MayPanic (Except PrepareError (BTreeMap OperationRef Nat)) :=
  match checkTopology (keySet bindings) operations with
  | .error e => some (.error e)
  | .ok () =>
    match snapshotKeys ∅ operations.zipIdx with
    | .error e => some (.error e)
    | .ok keys =>
      match checkBoundary boundary operations with
      | .error e => some (.error e)
      | .ok () =>
        (checkAdmittedBudgets bindings (referencedPartitions operations)).map
          (Except.map (fun _ => keys))

/-- The ledger a partition's reservation is charged against. -/
def admittedLedger (bindings : Bindings) (partition : LogicalPartitionId) :
    MayPanic PartitionBudgetLedger := do
  let binding ← bindings[partition]?
  let admitted ← binding.virtualPartition
  some admitted.ledger

/-- Step 5 for one partition: both class charges fit the admitted ledger. -/
def checkReservation (T : Toolchain) (bindings : Bindings)
    (entry : LogicalPartitionId × ReservationRecord) : MayPanic (Except PrepareError Unit) := do
  let ledger ← admittedLedger bindings entry.1
  let classSix := entry.2.classSixBytes
  if ledger.transferStagingBytes < classSix then
    some (.error (.reservationExceedsBudget entry.1 .transferStaging classSix
      ledger.transferStagingBytes))
  else do
    let classThree ← entry.2.classThreeBytes T
    if ledger.activationScratchBytes < classThree then
      some (.error (.reservationExceedsBudget entry.1 .activationScratch classThree
        ledger.activationScratchBytes))
    else some (.ok ())

/-- Step 5: derive the reservation and check it partition by partition. -/
def budgetGate (T : Toolchain) (bindings : Bindings) (operations : List TransactionOperation) :
    MayPanic (Except PrepareError Reservation) := do
  let reservation ← deriveReservation T operations (referencedPartitions operations)
  let checked ← tryEachM (checkReservation T bindings) reservation.toList
  some (checked.map (fun _ => reservation))

/-! ## The machine -/

/-- A transaction and the backend it is driven over. -/
structure Machine (β : Type) where
  transaction : ExecutionTransaction
  backend : β
  deriving DecidableEq

variable {β ε : Type}

namespace Machine

/-- `backend.f()` with the answer kept as a `Result`. -/
def onBackend {ε' α : Type} (c : Call β ε' α) : Call (Machine β) ε (Except ε' α) :=
  Call.ask Machine.backend (fun m b => { m with backend := b }) c

/-- `backend.f()` for a method that answers no `Result`. -/
def useBackend {α : Type} (c : Call β Empty α) : Call (Machine β) ε α :=
  Call.use Machine.backend (fun m b => { m with backend := b }) c

def modifyTransaction (f : ExecutionTransaction → ExecutionTransaction) :
    Call (Machine β) ε Unit :=
  Call.modify (fun m => { m with transaction := f m.transaction })

end Machine

open Machine

/-- Hold one partition's reservation on the backend. -/
def holdReservation (B : DeviceExecutionBackend β)
    (entry : LogicalPartitionId × ReservationRecord) : Call (Machine β) PrepareError Unit := do
  match ← onBackend (B.reserve entry.1 entry.2) with
  | .ok () => pure ()
  | .error error => Call.throw (.backend error)

/-- `New → Prepared`. -/
def prepare (T : Toolchain) (B : DeviceExecutionBackend β) (elapsed : Nat) :
    Call (Machine β) PrepareError Unit := do
  let m ← Call.get
  let tx := m.transaction
  if tx.state ≠ .new then Call.throw (.invalidState tx.state)
  else do
    let bindings ← Call.value tx.boundPlan.bindings
    let operationKeys ← Call.lift (structuralGates bindings tx.operations tx.commitBoundary)
    let reservation ← Call.lift (budgetGate T bindings tx.operations)
    Call.forEach reservation.toList (holdReservation B)
    modifyTransaction (·.recordPrepared operationKeys reservation elapsed)

/-! ## Running operations -/

/-- A backend call whose failure moves the transaction to `Failed`. -/
def runOrFail (c : Call β BackendError Unit) : Call (Machine β) ExecuteError Unit := do
  match ← onBackend c with
  | .ok () => pure ()
  | .error error => do
    modifyTransaction (·.fail (.backend error))
    Call.throw (.backend error)

/-- Stage one declared write on the backend and record it. -/
def stageDeclared (B : DeviceExecutionBackend β) (write : StagedWrite) :
    Call (Machine β) ExecuteError Unit := do
  runOrFail (B.stageWrite write)
  modifyTransaction (·.stage write)

/-- Record an event the backend reports as completed. -/
def joinEvent (B : DeviceExecutionBackend β) (event : OperationEvent) :
    Call (Machine β) ε Unit := do
  let completed ← useBackend (B.eventCompleted event)
  modifyTransaction (·.join event completed)

/-- The effect of dispatching a snapshot member. -/
def dispatchOperation (T : Toolchain) (B : DeviceExecutionBackend β)
    (operation : TransactionOperation) : Call (Machine β) ExecuteError Unit := do
  runOrFail (B.runOperation operation)
  Call.forEach operation.stagedWrites (stageDeclared B)
  let byteCount ← Call.value (operation.byteCount T)
  modifyTransaction (·.recordExecuted operation byteCount)
  Call.forEach operation.completedEvents.toList (joinEvent B)

/-- Run one operation, which must be exactly a snapshot member. -/
def executeOperation (T : Toolchain) (B : DeviceExecutionBackend β)
    (operation : TransactionOperation) : Call (Machine β) ExecuteError Unit := do
  let m ← Call.get
  let tx := m.transaction
  if tx.state ≠ .executing then Call.throw (.invalidState tx.state)
  else
    match tx.operationKeys[operation.operationRef]? with
    | none => Call.throw (.operationOutsideSnapshot operation.operationRef)
    | some index => do
      let member ← Call.value tx.operations[index]?
      if member ≠ operation then
        Call.throw (.operationOutsideSnapshot operation.operationRef)
      else dispatchOperation T B operation

/-- `Prepared → Executing`: run the accepted plan in order. -/
def execute (T : Toolchain) (B : DeviceExecutionBackend β) (elapsed : Nat) :
    Call (Machine β) ExecuteError Unit := do
  let m ← Call.get
  let tx := m.transaction
  if tx.state ≠ .prepared then Call.throw (.invalidState tx.state)
  else do
    modifyTransaction (·.startExecuting)
    let answer ← Call.attempt (Call.forEach tx.operations (executeOperation T B))
    modifyTransaction (·.recordExecuteTime elapsed)
    Call.lift (some answer)

/-! ## Commit and abort -/

/-- Query the backend again for every event of the snapshot. -/
def refreshCompletedEvents (B : DeviceExecutionBackend β) : Call (Machine β) ε Unit := do
  let m ← Call.get
  Call.forEach (m.transaction.operations.flatMap (·.completedEvents.toList)) (joinEvent B)

/-- Release a set of partitions in order. -/
def releaseAll (B : DeviceExecutionBackend β) (partitions : BTreeSet LogicalPartitionId) :
    Call (Machine β) ε Unit :=
  Call.forEach partitions.toList (fun partition => useBackend (B.release partition))

/-- Record the decision, the terminal state and the receipt built from them. -/
def finalize (state : TransactionState) (decision : TransactionDecision) (elapsed : Nat) :
    Call (Machine β) ε TransactionReceipt := do
  modifyTransaction (·.decide state decision elapsed)
  let m ← Call.get
  let receipt ← Call.value m.transaction.buildReceipt
  modifyTransaction (·.storeReceipt receipt)
  pure receipt

/-- What follows a successful publication. -/
def releaseCommitted (B : DeviceExecutionBackend β) (ordinal : PublicationOrdinal)
    (elapsed : Nat) : Call (Machine β) CommitError TransactionReceipt := do
  let m ← Call.get
  let reserved := m.transaction.reservedPartitions
  releaseAll B reserved
  modifyTransaction (·.recordTeardown reserved ∅)
  let m ← Call.get
  modifyTransaction (·.recordPublished {
    stagedBytes := B.stagedBytes m.backend
    publishedBytes := B.publishedBytes m.backend
    atomic := true })
  finalize .committed (.committed ordinal) elapsed

/-- `Executing → Committed`, after the boundary is reached. -/
def commit (T : Toolchain) (B : DeviceExecutionBackend β) (ordinal : PublicationOrdinal)
    (elapsed : Nat) : Call (Machine β) CommitError TransactionReceipt := do
  let m ← Call.get
  if m.transaction.state ≠ .executing then Call.throw (.invalidState m.transaction.state)
  else do
    refreshCompletedEvents B
    let m ← Call.get
    let missing := m.transaction.missingBoundaryRefs
    if missing ≠ ∅ then Call.throw (.boundaryNotReached missing)
    else do
      match ← onBackend B.publish with
      | .error error => do
        modifyTransaction (·.fail (.publishFailed (error.debug T)))
        Call.throw (.publishFailed error)
      | .ok () => releaseCommitted B ordinal elapsed

/-- The failure an abort records. -/
def abortFailure (state : TransactionState) (reason : String) : TransactionFailure :=
  match state with
  | .failed failure => failure
  | _ => .cancelled reason

/-- Retire the partitions with staged writes, release the other reserved ones. -/
def teardownAborted (B : DeviceExecutionBackend β) (reason : String) (elapsed : Nat) :
    Call (Machine β) AbortError TransactionReceipt := do
  let m ← Call.get
  let staged := m.transaction.stagedPartitions
  let unstaged := m.transaction.reservedPartitions \ staged
  let failure := abortFailure m.transaction.state reason
  Call.forEach staged.toList (fun partition => useBackend (B.retire partition failure))
  releaseAll B unstaged
  modifyTransaction (fun tx => (tx.recordTeardown unstaged staged).recordFailure failure)
  finalize (.aborted failure) (.aborted failure) elapsed

/-- `New | Prepared | Executing | Failed → Aborted`. -/
def abort (B : DeviceExecutionBackend β) (reason : String) (elapsed : Nat) :
    Call (Machine β) AbortError TransactionReceipt := do
  let m ← Call.get
  match m.transaction.state with
  | .aborted _ => Call.value m.transaction.receipt
  | .committed => Call.throw .alreadyCommitted
  | .new | .prepared | .executing | .failed _ => teardownAborted B reason elapsed

/-! ## A transaction over two partitions -/

namespace TwoPartitions

open Coordinator.TwoPartitions

def launch (n : Nat) (name : String) (outputBytes : UInt64) : TransactionOperation :=
  .launch (partition n) ⟨name⟩ outputBytes

def transfer (name : String) (byteCount : UInt64) : TransactionOperation :=
  .transfer ⟨⟨name⟩, partition 0, partition 1, byteCount, .bidi, .f32, .dense, .hostStaged, 0, 1,
    ⟨∅, ∅⟩⟩

def broadcast (name : String) (byteCount : UInt64) : TransactionOperation :=
  .collectiveBroadcast ⟨⟨name⟩, partition 0, setOf [partition 0, partition 1], byteCount⟩

def barrier (name : String) : TransactionOperation :=
  .barrier ⟨name⟩ (setOf [partition 0, partition 1])

/-- Launch, transfer, broadcast, barrier and launch, in plan order. -/
def operations : List TransactionOperation :=
  [launch 0 "launch-proj-a" 4096, transfer "t1" 8192, broadcast "c1" 2048,
    barrier "barrier-main", launch 1 "launch-proj-b" 16384]

def boundary : TransactionCommitBoundary := ⟨setOf [⟨"barrier-main"⟩], setOf [⟨"launch-proj-b"⟩]⟩

/-- The budgets the operations fit exactly. -/
def ledgers : PartitionBudgetLedger × PartitionBudgetLedger :=
  (ledger 8448 10240, ledger 30976 10240)

/-- The transaction over the plan that `bind` answers. -/
def transaction (T : Toolchain) (ledgers : PartitionBudgetLedger × PartitionBudgetLedger)
    (operations : List TransactionOperation) (boundary : TransactionCommitBoundary) :
    Option ExecutionTransaction := do
  let bound ← plan T (1, 2) (device 0, device 1) ledgers
  (ExecutionTransaction.new ⟨"txn-1"⟩ bound operations boundary).toOption

theorem new_of_transaction {T : Toolchain}
    {ledgers : PartitionBudgetLedger × PartitionBudgetLedger}
    {operations : List TransactionOperation} {boundary : TransactionCommitBoundary}
    {tx : ExecutionTransaction} (h : transaction T ledgers operations boundary = some tx) :
    ∃ bound, ExecutionTransaction.new ⟨"txn-1"⟩ bound operations boundary = .ok tx := by
  obtain ⟨bound, -, hnew⟩ := Option.bind_eq_some_iff.mp h
  exact ⟨bound, toOption_eq_some_iff.mp hnew⟩

end TwoPartitions

end FaberHosts.Transaction
