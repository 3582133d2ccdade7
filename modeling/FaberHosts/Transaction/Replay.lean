import FaberHosts.Lib.Replay
import FaberHosts.Transaction.Recording

/-!
# Replaying a transaction over another backend

A backend that notes which of its reserve and run calls fail, a backend that is made to fail by
such notes, and the methods of a transaction over the two: they answer the same, times apart.
-/

namespace FaberHosts.Transaction
open FaberHosts.Lib FaberHosts.Coordinator Machine

/-! ## Times apart -/

/-- A receipt with its times forgotten. -/
def TransactionReceipt.untimed (receipt : TransactionReceipt) : TransactionReceipt :=
  { receipt with timings := ⟨0, 0, 0⟩ }

@[simp] theorem TransactionReceipt.untimed_untimed :
    TransactionReceipt.untimed ∘ TransactionReceipt.untimed = TransactionReceipt.untimed := rfl

/-- A transaction with its times and those of its receipt forgotten. -/
def ExecutionTransaction.untimed (tx : ExecutionTransaction) : ExecutionTransaction :=
  { tx with timings := ⟨0, 0, 0⟩, receipt := tx.receipt.map TransactionReceipt.untimed }

/-- The same transaction, times apart. -/
def ExecutionTransaction.Alike (tx tx' : ExecutionTransaction) : Prop := tx.untimed = tx'.untimed

/-- The same receipt, times apart. -/
def TransactionReceipt.Alike (receipt receipt' : TransactionReceipt) : Prop :=
  receipt.untimed = receipt'.untimed

namespace ExecutionTransaction.Alike

variable {tx tx' : ExecutionTransaction}

theorem read {α : Type} (read : ExecutionTransaction → α) (hread : ∀ tx, read tx.untimed = read tx)
    (h : Alike tx tx') : read tx = read tx' := by
  rw [← hread tx, h, hread tx']

theorem state (h : Alike tx tx') : tx.state = tx'.state := h.read (·.state) (fun _ => rfl)

theorem operations (h : Alike tx tx') : tx.operations = tx'.operations :=
  h.read (·.operations) (fun _ => rfl)

theorem boundPlan (h : Alike tx tx') : tx.boundPlan = tx'.boundPlan :=
  h.read (·.boundPlan) (fun _ => rfl)

theorem commitBoundary (h : Alike tx tx') : tx.commitBoundary = tx'.commitBoundary :=
  h.read (·.commitBoundary) (fun _ => rfl)

theorem operationKeys (h : Alike tx tx') : tx.operationKeys = tx'.operationKeys :=
  h.read (·.operationKeys) (fun _ => rfl)

theorem stagedPartitions (h : Alike tx tx') : tx.stagedPartitions = tx'.stagedPartitions :=
  h.read (·.stagedPartitions) (fun _ => rfl)

theorem reservedPartitions (h : Alike tx tx') : tx.reservedPartitions = tx'.reservedPartitions :=
  h.read (·.reservedPartitions) (fun _ => rfl)

theorem missingBoundaryRefs (h : Alike tx tx') :
    tx.missingBoundaryRefs = tx'.missingBoundaryRefs :=
  h.read (·.missingBoundaryRefs) (fun _ => rfl)

theorem receipt (h : Alike tx tx') :
    tx.receipt.map TransactionReceipt.untimed = tx'.receipt.map TransactionReceipt.untimed :=
  congrArg ExecutionTransaction.receipt (show tx.untimed = tx'.untimed from h)

theorem fail (h : Alike tx tx') (failure : TransactionFailure) :
    Alike (tx.fail failure) (tx'.fail failure) := by
  have hfail : ∀ tx : ExecutionTransaction, (tx.fail failure).untimed =
      (tx.untimed.fail failure).untimed := by
    intro tx
    cases hstate : tx.state with
    | new | prepared | executing | committed | failed _ | aborted _ =>
      simp [ExecutionTransaction.fail, ExecutionTransaction.untimed, hstate]
  rw [Alike, hfail tx, hfail tx', h]

theorem storeReceipt (h : Alike tx tx') {built built' : TransactionReceipt}
    (hbuilt : built.Alike built') : Alike (tx.storeReceipt built) (tx'.storeReceipt built') := by
  have hstore : ∀ (tx : ExecutionTransaction) (built : TransactionReceipt),
      (tx.storeReceipt built).untimed = tx.untimed.storeReceipt built.untimed := fun _ _ => rfl
  rw [Alike, hstore, hstore, h, hbuilt]

theorem buildReceipt (h : Alike tx tx') {built : TransactionReceipt}
    (hbuilt : tx.buildReceipt = some built) :
    ∃ built', tx'.buildReceipt = some built' ∧ built.Alike built' := by
  have hbuild : ∀ tx : ExecutionTransaction,
      tx.buildReceipt.map TransactionReceipt.untimed = tx.untimed.buildReceipt := by
    intro tx
    cases hdecision : tx.decision with
    | none => simp [ExecutionTransaction.buildReceipt, ExecutionTransaction.untimed, hdecision]
    | some decision =>
      simp [ExecutionTransaction.buildReceipt, ExecutionTransaction.untimed, hdecision,
        TransactionReceipt.untimed]
  have hsame : tx'.buildReceipt.map TransactionReceipt.untimed = some built.untimed := by
    rw [hbuild tx', ← h, ← hbuild tx, hbuilt]
    rfl
  obtain ⟨built', hbuilt', halike⟩ := Option.map_eq_some_iff.mp hsame
  exact ⟨built', hbuilt', halike.symm⟩

end ExecutionTransaction.Alike

/-! ## Noted and scripted failures -/

/-- Which reserve and run calls failed, in order. -/
abbrev Faults := List (Option BackendError)

variable {β γ ε : Type}

def faultOf : Except BackendError Unit → Option BackendError
  | .ok () => none
  | .error error => some error

/-- A call that notes whether it failed. -/
def noting (c : Call β BackendError Unit) : Call (β × Faults) BackendError Unit := fun s =>
  (c s.1).map (fun answered => (answered.1, (answered.2, s.2 ++ [faultOf answered.1])))

/-- A call beside the notes. -/
def beside {α : Type} (c : Call β ε α) : Call (β × Faults) ε α := fun s =>
  (c s.1).map (fun answered => (answered.1, (answered.2, s.2)))

/-- A call that fails where the script says so. -/
def failing (c : Call β BackendError Unit) : Call (β × Faults) BackendError Unit := fun s =>
  match s.2 with
  | some error :: rest => some (.error error, (s.1, rest))
  | _ => beside c (s.1, s.2.tail)

/-- A backend with its reserve and run calls replaced. -/
def withFaults (B : DeviceExecutionBackend β)
    (faulty : Call β BackendError Unit → Call (β × Faults) BackendError Unit) :
    DeviceExecutionBackend (β × Faults) where
  reserve partition record := faulty (B.reserve partition record)
  runOperation operation := faulty (B.runOperation operation)
  eventCompleted event := beside (B.eventCompleted event)
  stageWrite write := beside (B.stageWrite write)
  publish := beside B.publish
  stagedBytes s := B.stagedBytes s.1
  publishedBytes s := B.publishedBytes s.1
  release partition := beside (B.release partition)
  retire partition failure := beside (B.retire partition failure)

/-- The backend noting its failures. -/
def noted (B : DeviceExecutionBackend β) : DeviceExecutionBackend (β × Faults) :=
  withFaults B noting

/-- The backend made to fail by a script. -/
def scripted (B : DeviceExecutionBackend β) : DeviceExecutionBackend (β × Faults) :=
  withFaults B failing

/-! ## Runs with their answers -/

/-- What a call answers. -/
inductive CallAnswer where
  | prepared (answer : Except PrepareError Unit)
  | executed (answer : Except ExecuteError Unit)
  | committed (answer : Except CommitError TransactionReceipt)
  | aborted (answer : Except AbortError TransactionReceipt)

/-- The answer of a call and the machine after it. -/
def answerCall (T : Toolchain) (B : DeviceExecutionBackend β) (m : Machine β) :
    TransactionCall → MayPanic (CallAnswer × Machine β)
  | .prepare elapsed => (prepare T B elapsed m).map (Prod.map .prepared id)
  | .execute elapsed => (execute T B elapsed m).map (Prod.map .executed id)
  | .executeOperation operation =>
    (executeOperation T B operation m).map (Prod.map .executed id)
  | .commit ordinal elapsed => (commit T B ordinal elapsed m).map (Prod.map .committed id)
  | .abort reason elapsed => (abort B reason elapsed m).map (Prod.map .aborted id)

/-- A run with each answer and the machine after it. -/
def answerCalls (T : Toolchain) (B : DeviceExecutionBackend β) :
    Machine β → List TransactionCall → MayPanic (List (CallAnswer × Machine β))
  | _, [] => some []
  | m, call :: rest => do
    let first ← answerCall T B m call
    let others ← answerCalls T B first.2 rest
    some (first :: others)

/-- The machine a run ends with. -/
def endOf (m : Machine β) : List (CallAnswer × Machine β) → Machine β
  | [] => m
  | step :: rest => endOf step.2 rest

/-- A call without the time it takes. -/
def TransactionCall.untimed : TransactionCall → TransactionCall
  | .prepare _ => .prepare 0
  | .execute _ => .execute 0
  | .executeOperation operation => .executeOperation operation
  | .commit ordinal _ => .commit ordinal 0
  | .abort reason _ => .abort reason 0

/-- The same answer, times apart. -/
def CallAnswer.Alike : CallAnswer → CallAnswer → Prop
  | .prepared answer, .prepared answer' => answer = answer'
  | .executed answer, .executed answer' => answer = answer'
  | .committed answer, .committed answer' => Agrees TransactionReceipt.Alike answer answer'
  | .aborted answer, .aborted answer' => Agrees TransactionReceipt.Alike answer answer'
  | _, _ => False

/-! ## The methods -/

/-- The methods of the second backend replay those of the first. -/
structure BackendReplays {ι : Type} (B : DeviceExecutionBackend β) (B' : DeviceExecutionBackend γ)
    (log : β → List ι) (Rel : β → List ι → γ → Prop) : Prop where
  reload : Reloadable Rel
  reserve : ∀ partition record,
    Replays log Rel Eq (B.reserve partition record) (B'.reserve partition record)
  runOperation : ∀ operation,
    Replays log Rel Eq (B.runOperation operation) (B'.runOperation operation)
  eventCompleted : ∀ event, Replays log Rel Eq (B.eventCompleted event) (B'.eventCompleted event)
  stageWrite : ∀ write, Replays log Rel Eq (B.stageWrite write) (B'.stageWrite write)
  publish : Replays log Rel Eq B.publish B'.publish
  stagedBytes : ∀ b script b', Rel b script b' → B.stagedBytes b = B'.stagedBytes b'
  publishedBytes : ∀ b script b', Rel b script b' → B.publishedBytes b = B'.publishedBytes b'
  release : ∀ partition, Replays log Rel Eq (B.release partition) (B'.release partition)
  retire : ∀ partition failure,
    Replays log Rel Eq (B.retire partition failure) (B'.retire partition failure)

/-- Machines with the same transaction, times apart, over related backends. -/
structure MachineRel {ι : Type} (Rel : β → List ι → γ → Prop) (m : Machine β) (script : List ι)
    (m' : Machine γ) : Prop where
  transaction : m.transaction.Alike m'.transaction
  backend : Rel m.backend script m'.backend

section Methods

variable {ι : Type} {T : Toolchain} {B : DeviceExecutionBackend β} {B' : DeviceExecutionBackend γ}
  {log : β → List ι} {Rel : β → List ι → γ → Prop}

theorem machineRel_reload (h : Reloadable Rel) : Reloadable (MachineRel Rel) := by
  intro m script m' script' hm
  obtain ⟨b', hb'⟩ := h _ _ _ script' hm.backend
  exact ⟨⟨m'.transaction, b'⟩, hm.transaction, hb'⟩

theorem machineRel_carries : Carries (fun m => log m.backend) log (MachineRel Rel) Rel
    Machine.backend (fun m b => { m with backend := b }) Machine.backend
    (fun m b => { m with backend := b }) where
  log_read := fun _ => rfl
  log_write := fun _ _ => rfl
  related := fun _ _ _ hm => hm.backend
  rewritten := fun _ _ _ _ _ _ hm hb => ⟨hm.transaction, hb⟩

/-- `Replays` between machines. -/
abbrev MachineReplays {α α' : Type} (log : β → List ι) (Rel : β → List ι → γ → Prop)
    (A : α → α' → Prop) (c : Call (Machine β) ε α) (c' : Call (Machine γ) ε α') : Prop :=
  Replays (fun m => log m.backend) (MachineRel Rel) A c c'

theorem replays_onBackend {ε' α : Type} {c : Call β ε' α} {c' : Call γ ε' α}
    (h : Replays log Rel Eq c c') :
    MachineReplays log Rel (Agrees Eq) (onBackend c : Call (Machine β) ε (Except ε' α))
      (onBackend c') :=
  replays_ask machineRel_carries h

theorem replays_useBackend {α : Type} {c : Call β Empty α} {c' : Call γ Empty α}
    (h : Replays log Rel Eq c c') :
    MachineReplays log Rel Eq (useBackend c : Call (Machine β) ε α) (useBackend c') :=
  replays_use machineRel_carries h

theorem replays_modifyTransaction {f g : ExecutionTransaction → ExecutionTransaction}
    (h : ∀ tx tx', tx.Alike tx' → (f tx).Alike (g tx')) :
    MachineReplays log Rel Eq (modifyTransaction f : Call (Machine β) ε Unit)
      (modifyTransaction g) :=
  replays_modify (fun _ => rfl) (fun _ _ _ hm => ⟨h _ _ hm.transaction, hm.backend⟩)

theorem replays_update {f g : ExecutionTransaction → ExecutionTransaction}
    (update : ExecutionTransaction → ExecutionTransaction)
    (hf : ∀ tx, (f tx).untimed = update tx.untimed)
    (hg : ∀ tx, (g tx).untimed = update tx.untimed) :
    MachineReplays log Rel Eq (modifyTransaction f : Call (Machine β) ε Unit)
      (modifyTransaction g) := by
  apply replays_modifyTransaction
  intro tx tx' halike
  rw [ExecutionTransaction.Alike, hf, hg, show tx.untimed = tx'.untimed from halike]

theorem replays_machine : MachineReplays log Rel
    (fun m m' => m.transaction.Alike m'.transaction ∧ ∃ script, Rel m.backend script m'.backend)
    (Call.get : Call (Machine β) ε (Machine β)) (Call.get : Call (Machine γ) ε (Machine γ)) :=
  replays_get (fun _ script _ hm => ⟨hm.transaction, script, hm.backend⟩)

variable (h : BackendReplays B B' log Rel)
include h

theorem replays_holdReservation (entry : LogicalPartitionId × ReservationRecord) :
    MachineReplays log Rel Eq (holdReservation B entry) (holdReservation B' entry) := by
  refine replays_bind (machineRel_reload h.reload) (replays_onBackend (h.reserve _ _)) ?_
  intro answer answer' hanswer
  obtain rfl := agrees_eq.mp hanswer
  cases answer with
  | ok u => exact replays_pure rfl
  | error error => exact replays_throw _

theorem replays_prepare (elapsed elapsed' : Nat) :
    MachineReplays log Rel Eq (prepare T B elapsed) (prepare T B' elapsed') := by
  have hload := machineRel_reload h.reload
  refine replays_bind hload replays_machine ?_
  rintro m m' ⟨htx, -⟩
  dsimp only
  rw [htx.state]
  split
  · exact replays_throw _
  · rw [htx.boundPlan, htx.operations, htx.commitBoundary]
    refine replays_bind hload (replays_value fun a ha => ⟨a, ha, rfl⟩) ?_
    rintro bindings _ rfl
    refine replays_bind hload (replays_lift fun r hr => ⟨r, hr, agrees_eq.mpr rfl⟩) ?_
    rintro keys _ rfl
    refine replays_bind hload (replays_lift fun r hr => ⟨r, hr, agrees_eq.mpr rfl⟩) ?_
    rintro reservation _ rfl
    refine replays_bind hload (replays_forEach hload fun entry _ =>
      replays_holdReservation h entry) ?_
    rintro _ _ rfl
    exact replays_update
      (fun u => { u.recordPrepared keys reservation 0 with timings := u.timings })
      (fun _ => rfl) (fun _ => rfl)

theorem replays_runOrFail {c : Call β BackendError Unit} {c' : Call γ BackendError Unit}
    (hc : Replays log Rel Eq c c') :
    MachineReplays log Rel Eq (runOrFail c) (runOrFail c') := by
  have hload := machineRel_reload h.reload
  refine replays_bind hload (replays_onBackend hc) ?_
  intro answer answer' hanswer
  obtain rfl := agrees_eq.mp hanswer
  cases answer with
  | ok u => exact replays_pure rfl
  | error error =>
    refine replays_bind hload (replays_modifyTransaction ?_) (fun _ _ _ => replays_throw _)
    intro tx tx' halike
    exact halike.fail _

theorem replays_stageDeclared (write : StagedWrite) :
    MachineReplays log Rel Eq (stageDeclared B write) (stageDeclared B' write) := by
  refine replays_bind (machineRel_reload h.reload) (replays_runOrFail h (h.stageWrite write)) ?_
  rintro _ _ rfl
  exact replays_update (·.stage write) (fun _ => rfl) (fun _ => rfl)

theorem replays_joinEvent (event : OperationEvent) :
    MachineReplays log Rel Eq (joinEvent B event : Call (Machine β) ε Unit)
      (joinEvent B' event) := by
  refine replays_bind (machineRel_reload h.reload) (replays_useBackend (h.eventCompleted event)) ?_
  rintro completed _ rfl
  exact replays_update (·.join event completed) (fun _ => rfl) (fun _ => rfl)

theorem replays_dispatchOperation (operation : TransactionOperation) :
    MachineReplays log Rel Eq (dispatchOperation T B operation)
      (dispatchOperation T B' operation) := by
  have hload := machineRel_reload h.reload
  refine replays_bind hload (replays_runOrFail h (h.runOperation operation)) ?_
  rintro _ _ rfl
  refine replays_bind hload (replays_forEach hload fun write _ => replays_stageDeclared h write) ?_
  rintro _ _ rfl
  refine replays_bind hload (replays_value fun a ha => ⟨a, ha, rfl⟩) ?_
  rintro byteCount _ rfl
  refine replays_bind hload (replays_update (·.recordExecuted operation byteCount)
    (fun _ => rfl) (fun _ => rfl)) ?_
  rintro _ _ rfl
  exact replays_forEach hload fun event _ => replays_joinEvent h event

theorem replays_executeOperation (operation : TransactionOperation) :
    MachineReplays log Rel Eq (executeOperation T B operation)
      (executeOperation T B' operation) := by
  have hload := machineRel_reload h.reload
  refine replays_bind hload replays_machine ?_
  rintro m m' ⟨htx, -⟩
  dsimp only
  rw [htx.state, htx.operationKeys, htx.operations]
  split
  · exact replays_throw _
  · split
    · exact replays_throw _
    · refine replays_bind hload (replays_value fun a ha => ⟨a, ha, rfl⟩) ?_
      rintro member _ rfl
      split
      · exact replays_throw _
      · exact replays_dispatchOperation h operation

theorem replays_execute (elapsed elapsed' : Nat) :
    MachineReplays log Rel Eq (execute T B elapsed) (execute T B' elapsed') := by
  have hload := machineRel_reload h.reload
  refine replays_bind hload replays_machine ?_
  rintro m m' ⟨htx, -⟩
  dsimp only
  rw [htx.state, htx.operations]
  split
  · exact replays_throw _
  · refine replays_bind hload (replays_update (·.startExecuting) (fun _ => rfl) (fun _ => rfl)) ?_
    rintro _ _ rfl
    refine replays_bind hload (replays_attempt (replays_forEach hload fun operation _ =>
      replays_executeOperation h operation)) ?_
    intro answer answer' hanswer
    obtain rfl := agrees_eq.mp hanswer
    refine replays_bind hload (replays_update id (fun _ => rfl) (fun _ => rfl)) ?_
    rintro _ _ rfl
    exact replays_lift fun r hr => ⟨r, hr, agrees_eq.mpr rfl⟩

theorem replays_refreshCompletedEvents :
    MachineReplays log Rel Eq (refreshCompletedEvents B : Call (Machine β) ε Unit)
      (refreshCompletedEvents B') := by
  have hload := machineRel_reload h.reload
  refine replays_bind hload replays_machine ?_
  rintro m m' ⟨htx, -⟩
  rw [htx.operations]
  exact replays_forEach hload fun event _ => replays_joinEvent h event

theorem replays_releaseAll (partitions : BTreeSet LogicalPartitionId) :
    MachineReplays log Rel Eq (releaseAll B partitions : Call (Machine β) ε Unit)
      (releaseAll B' partitions) :=
  replays_forEach (machineRel_reload h.reload) fun partition _ =>
    replays_useBackend (h.release partition)

theorem replays_finalize (terminal : TransactionState) (decision : TransactionDecision)
    (elapsed elapsed' : Nat) :
    MachineReplays log Rel TransactionReceipt.Alike
      (finalize terminal decision elapsed : Call (Machine β) ε TransactionReceipt)
      (finalize terminal decision elapsed') := by
  have hload := machineRel_reload h.reload
  refine replays_bind hload (replays_update
    (fun u => { u.decide terminal decision 0 with timings := u.timings })
    (fun _ => rfl) (fun _ => rfl)) ?_
  rintro _ _ rfl
  refine replays_bind hload replays_machine ?_
  rintro m m' ⟨htx, -⟩
  refine replays_bind hload (replays_value fun built hbuilt => htx.buildReceipt hbuilt) ?_
  intro built built' halike
  refine replays_bind hload (replays_modifyTransaction fun tx tx' htx =>
    htx.storeReceipt halike) ?_
  rintro _ _ rfl
  exact replays_pure halike

theorem replays_releaseCommitted (ordinal : PublicationOrdinal) (elapsed elapsed' : Nat) :
    MachineReplays log Rel TransactionReceipt.Alike (releaseCommitted B ordinal elapsed)
      (releaseCommitted B' ordinal elapsed') := by
  have hload := machineRel_reload h.reload
  refine replays_bind hload replays_machine ?_
  rintro m m' ⟨htx, -⟩
  dsimp only
  rw [htx.reservedPartitions]
  refine replays_bind hload (replays_releaseAll h _) ?_
  rintro _ _ rfl
  refine replays_bind hload (replays_update (·.recordTeardown _ ∅) (fun _ => rfl)
    (fun _ => rfl)) ?_
  rintro _ _ rfl
  refine replays_bind hload replays_machine ?_
  rintro m m' ⟨-, script, hbackend⟩
  rw [h.stagedBytes _ _ _ hbackend, h.publishedBytes _ _ _ hbackend]
  refine replays_bind hload (replays_update (·.recordPublished _) (fun _ => rfl)
    (fun _ => rfl)) ?_
  rintro _ _ rfl
  exact replays_finalize h _ _ _ _

theorem replays_commit (ordinal : PublicationOrdinal) (elapsed elapsed' : Nat) :
    MachineReplays log Rel TransactionReceipt.Alike (commit T B ordinal elapsed)
      (commit T B' ordinal elapsed') := by
  have hload := machineRel_reload h.reload
  refine replays_bind hload replays_machine ?_
  rintro m m' ⟨htx, -⟩
  rw [htx.state]
  split
  · exact replays_throw _
  · refine replays_bind hload (replays_refreshCompletedEvents h) ?_
    rintro _ _ rfl
    refine replays_bind hload replays_machine ?_
    rintro m m' ⟨htx, -⟩
    dsimp only
    rw [htx.missingBoundaryRefs]
    split
    · exact replays_throw _
    · refine replays_bind hload (replays_onBackend h.publish) ?_
      intro answer answer' hanswer
      obtain rfl := agrees_eq.mp hanswer
      cases answer with
      | ok u => exact replays_releaseCommitted h ordinal elapsed elapsed'
      | error error =>
        refine replays_bind hload (replays_modifyTransaction ?_) (fun _ _ _ => replays_throw _)
        intro tx tx' halike
        exact halike.fail _

theorem replays_teardownAborted (reason : String) (elapsed elapsed' : Nat) :
    MachineReplays log Rel TransactionReceipt.Alike (teardownAborted B reason elapsed)
      (teardownAborted B' reason elapsed') := by
  have hload := machineRel_reload h.reload
  refine replays_bind hload replays_machine ?_
  rintro m m' ⟨htx, -⟩
  dsimp only
  rw [htx.stagedPartitions, htx.reservedPartitions, htx.state]
  refine replays_bind hload (replays_forEach hload fun partition _ =>
    replays_useBackend (h.retire partition _)) ?_
  rintro _ _ rfl
  refine replays_bind hload (replays_releaseAll h _) ?_
  rintro _ _ rfl
  refine replays_bind hload (replays_update
    (fun tx => (tx.recordTeardown _ _).recordFailure _) (fun _ => rfl) (fun _ => rfl)) ?_
  rintro _ _ rfl
  exact replays_finalize h _ _ _ _

theorem replays_abort (reason : String) (elapsed elapsed' : Nat) :
    MachineReplays log Rel TransactionReceipt.Alike (abort B reason elapsed)
      (abort B' reason elapsed') := by
  have hload := machineRel_reload h.reload
  refine replays_bind hload replays_machine ?_
  rintro m m' ⟨htx, -⟩
  rw [htx.state]
  split
  · apply replays_value
    intro receipt hreceipt
    have hsame := htx.receipt
    rw [hreceipt, Option.map_some] at hsame
    obtain ⟨receipt', hreceipt', halike⟩ := Option.map_eq_some_iff.mp hsame.symm
    exact ⟨receipt', hreceipt', halike.symm⟩
  · exact replays_throw _
  · exact replays_teardownAborted h reason elapsed elapsed'
  · exact replays_teardownAborted h reason elapsed elapsed'
  · exact replays_teardownAborted h reason elapsed elapsed'
  · exact replays_teardownAborted h reason elapsed elapsed'

/-! ## Runs -/

omit h in
theorem replays_answered {α α' : Type} {A : α → α' → Prop} {c : Call (Machine β) ε α}
    {c' : Call (Machine γ) ε α'} (hc : MachineReplays log Rel A c c')
    {wrap : Except ε α → CallAnswer} {wrap' : Except ε α' → CallAnswer}
    (halike : ∀ r r', Agrees A r r' → (wrap r).Alike (wrap' r')) {m u : Machine β}
    {answer : CallAnswer} (hrelated : ∃ script m', MachineRel Rel m script m')
    (hanswer : (c m).map (Prod.map wrap id) = some (answer, u)) :
    ∃ made, log u.backend = log m.backend ++ made ∧
      ∀ rest m', MachineRel Rel m (made ++ rest) m' → ∃ answer' u',
        (c' m').map (Prod.map wrap' id) = some (answer', u') ∧ answer.Alike answer' ∧
          MachineRel Rel u rest u' := by
  obtain ⟨⟨r, u⟩, hrun, hsame⟩ := Option.map_eq_some_iff.mp hanswer
  cases hsame
  obtain ⟨made, hmade, hreplay⟩ := hc m r u hrelated hrun
  refine ⟨made, hmade, ?_⟩
  intro rest m' hm'
  obtain ⟨r', u', hrun', hagrees, hu'⟩ := hreplay rest m' hm'
  exact ⟨wrap' r', u', by simp [hrun'], halike r r' hagrees, hu'⟩

/-- A call replayed with the notes of the first machine answers the same. -/
theorem replays_answerCall {call call' : TransactionCall} (hcall : call.untimed = call'.untimed)
    {m u : Machine β} {answer : CallAnswer} (hrelated : ∃ script m', MachineRel Rel m script m')
    (hanswer : answerCall T B m call = some (answer, u)) :
    ∃ made, log u.backend = log m.backend ++ made ∧
      ∀ rest m', MachineRel Rel m (made ++ rest) m' → ∃ answer' u',
        answerCall T B' m' call' = some (answer', u') ∧ answer.Alike answer' ∧
          MachineRel Rel u rest u' := by
  cases call with
  | prepare elapsed =>
    cases call' with
    | prepare elapsed' =>
      exact replays_answered (replays_prepare h elapsed elapsed') (fun _ _ => agrees_eq.mp)
        hrelated hanswer
    | execute _ | executeOperation _ | commit _ _ | abort _ _ => cases hcall
  | execute elapsed =>
    cases call' with
    | execute elapsed' =>
      exact replays_answered (replays_execute h elapsed elapsed') (fun _ _ => agrees_eq.mp)
        hrelated hanswer
    | prepare _ | executeOperation _ | commit _ _ | abort _ _ => cases hcall
  | executeOperation operation =>
    cases call' with
    | executeOperation operation' =>
      obtain rfl : operation = operation' := by simpa [TransactionCall.untimed] using hcall
      exact replays_answered (replays_executeOperation h operation) (fun _ _ => agrees_eq.mp)
        hrelated hanswer
    | prepare _ | execute _ | commit _ _ | abort _ _ => cases hcall
  | commit ordinal elapsed =>
    cases call' with
    | commit ordinal' elapsed' =>
      obtain rfl : ordinal = ordinal' := by simpa [TransactionCall.untimed] using hcall
      exact replays_answered (replays_commit h ordinal elapsed elapsed') (fun _ _ => id)
        hrelated hanswer
    | prepare _ | execute _ | executeOperation _ | abort _ _ => cases hcall
  | abort reason elapsed =>
    cases call' with
    | abort reason' elapsed' =>
      obtain rfl : reason = reason' := by simpa [TransactionCall.untimed] using hcall
      exact replays_answered (replays_abort h reason elapsed elapsed') (fun _ _ => id)
        hrelated hanswer
    | prepare _ | execute _ | executeOperation _ | commit _ _ => cases hcall

/-- The same after each call: the answer and the transaction, times apart, over related
    backends. -/
def SameStep (Rel : β → List ι → γ → Prop) (step : CallAnswer × Machine β)
    (step' : CallAnswer × Machine γ) : Prop :=
  step.1.Alike step'.1 ∧ ∃ script, MachineRel Rel step.2 script step'.2

/-- A run replayed with the notes it makes goes the same, call by call. -/
theorem replays_answerCalls {calls calls' : List TransactionCall}
    (hcalls : calls.map TransactionCall.untimed = calls'.map TransactionCall.untimed)
    {m : Machine β} {steps : List (CallAnswer × Machine β)}
    (hrelated : ∃ script m', MachineRel Rel m script m')
    (hsteps : answerCalls T B m calls = some steps) :
    ∃ made, log (endOf m steps).backend = log m.backend ++ made ∧
      ∀ rest m', MachineRel Rel m (made ++ rest) m' → ∃ steps',
        answerCalls T B' m' calls' = some steps' ∧ List.Forall₂ (SameStep Rel) steps steps' := by
  induction calls generalizing m steps calls' with
  | nil =>
    obtain rfl : calls' = [] := by simpa using hcalls.symm
    cases hsteps
    exact ⟨[], (List.append_nil _).symm, fun rest m' _ => ⟨[], rfl, .nil⟩⟩
  | cons call calls ih =>
    obtain ⟨call', later, rfl⟩ : ∃ call' later, calls' = call' :: later := by
      cases calls' with
      | nil => cases hcalls
      | cons call' later => exact ⟨call', later, rfl⟩
    obtain ⟨hcall, hlater⟩ : call.untimed = call'.untimed ∧
        calls.map TransactionCall.untimed = later.map TransactionCall.untimed := by
      simpa using hcalls
    obtain ⟨⟨answer, u⟩, hanswer, hsteps⟩ := Option.bind_eq_some_iff.mp hsteps
    obtain ⟨others, hothers, hsteps⟩ := Option.bind_eq_some_iff.mp hsteps
    cases hsteps
    obtain ⟨made, hmade, hreplay⟩ := replays_answerCall h hcall hrelated hanswer
    obtain ⟨script, m₀, hm₀⟩ := hrelated
    obtain ⟨m₁, hm₁⟩ := machineRel_reload h.reload _ _ _ (made ++ []) hm₀
    obtain ⟨answer₁, u₁, -, -, hu₁⟩ := hreplay [] m₁ hm₁
    obtain ⟨more, hmore, hreplays⟩ := ih hlater ⟨[], u₁, hu₁⟩ hothers
    refine ⟨made ++ more, ?_, ?_⟩
    · rw [← List.append_assoc, ← hmade, ← hmore]
      rfl
    · intro rest m' hm'
      rw [List.append_assoc] at hm'
      obtain ⟨answer', u', hanswer', halike, hu'⟩ := hreplay _ m' hm'
      obtain ⟨others', hothers', hsame⟩ := hreplays rest u' hu'
      refine ⟨(answer', u') :: others', by simp [answerCalls, hanswer', hothers'], ?_⟩
      exact .cons ⟨halike, _, hu'⟩ hsame

end Methods

/-! ## Noted and scripted backends -/

/-- The methods of the two backends keep their states related; where a reserve or run call of
    the first fails, its state stays related. -/
structure Imitates (B : DeviceExecutionBackend β) (B' : DeviceExecutionBackend γ)
    (Rel : β → γ → Prop) : Prop where
  reserve : ∀ {partition record b answer u b'}, Rel b b' →
    B.reserve partition record b = some (answer, u) →
    (∀ error, answer = .error error → Rel u b') ∧
      (answer = .ok () → ∃ u', B'.reserve partition record b' = some (.ok (), u') ∧ Rel u u')
  runOperation : ∀ {operation b answer u b'}, Rel b b' →
    B.runOperation operation b = some (answer, u) →
    (∀ error, answer = .error error → Rel u b') ∧
      (answer = .ok () → ∃ u', B'.runOperation operation b' = some (.ok (), u') ∧ Rel u u')
  eventCompleted : ∀ {event b answer u b'}, Rel b b' →
    B.eventCompleted event b = some (answer, u) →
    ∃ u', B'.eventCompleted event b' = some (answer, u') ∧ Rel u u'
  stageWrite : ∀ {write b answer u b'}, Rel b b' → B.stageWrite write b = some (answer, u) →
    ∃ u', B'.stageWrite write b' = some (answer, u') ∧ Rel u u'
  publish : ∀ {b answer u b'}, Rel b b' → B.publish b = some (answer, u) →
    ∃ u', B'.publish b' = some (answer, u') ∧ Rel u u'
  stagedBytes : ∀ {b b'}, Rel b b' → B.stagedBytes b = B'.stagedBytes b'
  publishedBytes : ∀ {b b'}, Rel b b' → B.publishedBytes b = B'.publishedBytes b'
  release : ∀ {partition b answer u b'}, Rel b b' → B.release partition b = some (answer, u) →
    ∃ u', B'.release partition b' = some (answer, u') ∧ Rel u u'
  retire : ∀ {partition failure b answer u b'}, Rel b b' →
    B.retire partition failure b = some (answer, u) →
    ∃ u', B'.retire partition failure b' = some (answer, u') ∧ Rel u u'

/-- Related states under the script that is left. -/
def UnderScript (Rel : β → γ → Prop) (s : β × Faults) (script : Faults) (t : γ × Faults) : Prop :=
  Rel s.1 t.1 ∧ t.2 = script

section Scripted

variable {Rel : β → γ → Prop}

theorem replays_beside {α : Type} {c : Call β ε α} {c' : Call γ ε α}
    (h : ∀ {b answer u b'}, Rel b b' → c b = some (answer, u) →
      ∃ u', c' b' = some (answer, u') ∧ Rel u u') :
    Replays Prod.snd (UnderScript Rel) Eq (beside c) (beside c') := by
  apply replays_of_unchanged
  intro s answer s' hrun
  obtain ⟨⟨found, u⟩, hfound, hsame⟩ := Option.map_eq_some_iff.mp hrun
  cases hsame
  refine ⟨rfl, ?_⟩
  intro rest t ht
  obtain ⟨u', hu', hrel⟩ := h ht.1 hfound
  exact ⟨found, (u', t.2), by simp [beside, hu'], agrees_eq.mpr rfl, hrel, ht.2⟩

theorem replays_failing {c : Call β BackendError Unit} {c' : Call γ BackendError Unit}
    (h : ∀ {b answer u b'}, Rel b b' → c b = some (answer, u) →
      (∀ error, answer = .error error → Rel u b') ∧
        (answer = .ok () → ∃ u', c' b' = some (.ok (), u') ∧ Rel u u')) :
    Replays Prod.snd (UnderScript Rel) Eq (noting c) (failing c') := by
  intro s answer s' _ hrun
  obtain ⟨⟨found, u⟩, hfound, hsame⟩ := Option.map_eq_some_iff.mp hrun
  cases hsame
  refine ⟨[faultOf found], rfl, ?_⟩
  rintro rest ⟨b', script⟩ ⟨hrel, rfl⟩
  obtain ⟨hfailed, hran⟩ := h hrel hfound
  cases found with
  | error error => exact ⟨.error error, (b', rest), rfl, rfl, hfailed error rfl, rfl⟩
  | ok done =>
    obtain ⟨u', hu', hrel'⟩ := hran rfl
    exact ⟨.ok (), (u', rest), by simp [failing, faultOf, beside, hu'], rfl, hrel', rfl⟩

theorem replays_scripted {B : DeviceExecutionBackend β} {B' : DeviceExecutionBackend γ}
    (h : Imitates B B' Rel) :
    BackendReplays (noted B) (scripted B') Prod.snd (UnderScript Rel) where
  reload := fun _ _ t script' ht => ⟨(t.1, script'), ht.1, rfl⟩
  reserve := fun _ _ => replays_failing h.reserve
  runOperation := fun _ => replays_failing h.runOperation
  eventCompleted := fun _ => replays_beside h.eventCompleted
  stageWrite := fun _ => replays_beside h.stageWrite
  publish := replays_beside h.publish
  stagedBytes := fun _ _ _ ht => h.stagedBytes ht.1
  publishedBytes := fun _ _ _ ht => h.publishedBytes ht.1
  release := fun _ => replays_beside h.release
  retire := fun _ _ => replays_beside h.retire

end Scripted

end FaberHosts.Transaction
