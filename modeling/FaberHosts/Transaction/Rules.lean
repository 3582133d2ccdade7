import FaberHosts.Transaction.Gates

/-!
# Rules for the transaction's methods

The weakest precondition of each method of `Transaction.lean`, in terms of the
backend calls it makes.  Later modules reason with these and do not unfold the
methods again.
-/

namespace FaberHosts.Transaction
open FaberHosts.Lib FaberHosts.Coordinator Machine

variable {β ε α : Type} {T : Toolchain} {B : DeviceExecutionBackend β} {panics : Prop}

theorem wp_onBackend {ε' : Type} {c : Call β ε' α} {Q : Except ε' α → Machine β → Prop}
    {E : ε → Machine β → Prop} {m : Machine β} :
    (onBackend c : Call (Machine β) ε (Except ε' α)).wp panics Q E m ↔
      c.wp panics (fun a b => Q (.ok a) { m with backend := b })
        (fun e b => Q (.error e) { m with backend := b }) m.backend :=
  Call.wp_ask

theorem wp_useBackend {c : Call β Empty α} {Q : α → Machine β → Prop}
    {E : ε → Machine β → Prop} {m : Machine β} :
    (useBackend c : Call (Machine β) ε α).wp panics Q E m ↔
      c.wp panics (fun a b => Q a { m with backend := b }) (fun e _ => e.elim) m.backend :=
  Call.wp_use

@[simp] theorem wp_modifyTransaction {f : ExecutionTransaction → ExecutionTransaction}
    {Q : Unit → Machine β → Prop} {E : ε → Machine β → Prop} {m : Machine β} :
    (modifyTransaction f : Call (Machine β) ε Unit).wp panics Q E m ↔
      Q () { m with transaction := f m.transaction } := Iff.rfl

/-! ## Running operations -/

section Execute

variable {Q : Unit → Machine β → Prop} {E : ExecuteError → Machine β → Prop} {m : Machine β}

theorem wp_runOrFail {c : Call β BackendError Unit} :
    (runOrFail c).wp panics Q E m ↔
      c.wp panics (fun _ b => Q () { m with backend := b })
        (fun error b => E (.backend error) ⟨m.transaction.fail (.backend error), b⟩)
        m.backend := by
  simp only [runOrFail, Call.wp_bind, wp_onBackend, Call.wp_pure, wp_modifyTransaction,
    Call.wp_throw]

theorem wp_stageDeclared {write : StagedWrite} :
    (stageDeclared B write).wp panics Q E m ↔
      (B.stageWrite write).wp panics
        (fun _ b => Q () ⟨m.transaction.stage write, b⟩)
        (fun error b => E (.backend error) ⟨m.transaction.fail (.backend error), b⟩)
        m.backend := by
  simp only [stageDeclared, Call.wp_bind, wp_runOrFail, wp_modifyTransaction]

theorem wp_joinEvent {E : ε → Machine β → Prop} {event : OperationEvent} :
    (joinEvent B event : Call (Machine β) ε Unit).wp panics Q E m ↔
      (B.eventCompleted event).wp panics
        (fun completed b => Q () ⟨m.transaction.join event completed, b⟩)
        (fun e _ => e.elim) m.backend := by
  simp only [joinEvent, Call.wp_bind, wp_useBackend, wp_modifyTransaction]

theorem wp_dispatchOperation {operation : TransactionOperation} :
    (dispatchOperation T B operation).wp panics Q E m ↔
      (runOrFail (B.runOperation operation)).wp panics (fun _ =>
        (Call.forEach operation.stagedWrites (stageDeclared B)).wp panics (fun _ staged =>
          (operation.byteCount T = none → panics) ∧
            ∀ byteCount, operation.byteCount T = some byteCount →
              (Call.forEach operation.completedEvents.toList (joinEvent B)).wp panics Q E
                ⟨staged.transaction.recordExecuted operation byteCount, staged.backend⟩) E)
        E m := by
  simp only [dispatchOperation, Call.wp_bind, Call.wp_value, wp_modifyTransaction]

theorem wp_executeOperation_other {operation : TransactionOperation}
    (hstate : m.transaction.state ≠ .executing) :
    (executeOperation T B operation).wp panics Q E m ↔
      E (.invalidState m.transaction.state) m := by
  simp [executeOperation, hstate]

theorem wp_executeOperation_member {operation : TransactionOperation}
    (hstate : m.transaction.state = .executing)
    (hkeys : KeysIndex m.transaction.operationKeys m.transaction.operations)
    (hop : operation ∈ m.transaction.operations) :
    (executeOperation T B operation).wp panics Q E m ↔
      (dispatchOperation T B operation).wp panics Q E m := by
  obtain ⟨index, hindex⟩ := List.mem_iff_getElem?.mp hop
  simp [executeOperation, hstate, hkeys.lookup hindex, hindex, Call.wp_value]

theorem wp_executeOperation_outside {operation : TransactionOperation}
    (hstate : m.transaction.state = .executing)
    (hkeys : KeysIndex m.transaction.operationKeys m.transaction.operations)
    (hop : operation ∉ m.transaction.operations) :
    (executeOperation T B operation).wp panics Q E m ↔
      E (.operationOutsideSnapshot operation.operationRef) m := by
  cases hlookup : m.transaction.operationKeys[operation.operationRef]? with
  | none => simp [executeOperation, hstate, hlookup]
  | some index =>
    obtain ⟨member, hmember⟩ := hkeys.bounded hlookup
    have hne : member ≠ operation := fun heq => hop (heq ▸ List.mem_of_getElem? hmember)
    simp [executeOperation, hstate, hlookup, hmember, Call.wp_value, hne]

theorem wp_execute_prepared {elapsed : Nat} (hstate : m.transaction.state = .prepared) :
    (execute T B elapsed).wp panics Q E m ↔
      (Call.forEach m.transaction.operations (executeOperation T B)).wp panics
        (fun _ t => Q () ⟨t.transaction.recordExecuteTime elapsed, t.backend⟩)
        (fun e t => E e ⟨t.transaction.recordExecuteTime elapsed, t.backend⟩)
        ⟨m.transaction.startExecuting, m.backend⟩ := by
  simp [execute, hstate, Call.wp_attempt]

theorem wp_execute_other {elapsed : Nat} (hstate : m.transaction.state ≠ .prepared) :
    (execute T B elapsed).wp panics Q E m ↔ E (.invalidState m.transaction.state) m := by
  simp [execute, hstate]

end Execute

/-! ## Prepare -/

section Prepare

variable {Q : Unit → Machine β → Prop} {E : PrepareError → Machine β → Prop} {m : Machine β}

theorem wp_holdReservation {entry : LogicalPartitionId × ReservationRecord} :
    (holdReservation B entry).wp panics Q E m ↔
      (B.reserve entry.1 entry.2).wp panics (fun _ b => Q () { m with backend := b })
        (fun error b => E (.backend error) { m with backend := b }) m.backend := by
  simp only [holdReservation, Call.wp_bind, wp_onBackend, Call.wp_pure, Call.wp_throw]

theorem bindings_some (tx : ExecutionTransaction) :
    ∃ bindings, tx.boundPlan.bindings = some bindings := by
  have h := tx.not_degenerate
  unfold BoundDistributedPlan.isDegenerate at h
  unfold BoundDistributedPlan.bindings
  split at h
  · cases h
  · next bindings hkind => exact ⟨bindings, by rw [hkind]⟩

theorem wp_prepare_new {elapsed : Nat} {bindings : Bindings}
    (hstate : m.transaction.state = .new) (hbindings : m.transaction.boundPlan.bindings = some bindings) :
    (prepare T B elapsed).wp panics Q E m ↔
      (Call.lift (structuralGates bindings m.transaction.operations
          m.transaction.commitBoundary)).wp panics (fun keys =>
        (Call.lift (budgetGate T bindings m.transaction.operations)).wp panics
          (fun reservation =>
            (Call.forEach reservation.toList (holdReservation B)).wp panics
              (fun _ t => Q () ⟨t.transaction.recordPrepared keys reservation elapsed,
                t.backend⟩) E) E) E m := by
  simp [prepare, hstate, hbindings, Call.wp_value]

theorem wp_prepare_other {elapsed : Nat} (hstate : m.transaction.state ≠ .new) :
    (prepare T B elapsed).wp panics Q E m ↔ E (.invalidState m.transaction.state) m := by
  simp [prepare, hstate]

theorem prepare_ok {elapsed : Nat} {m m' : Machine β} (hstate : m.transaction.state = .new)
    (hcall : prepare T B elapsed m = some (.ok (), m')) :
    ∃ bindings keys reservation, m.transaction.boundPlan.bindings = some bindings ∧
      structuralGates bindings m.transaction.operations m.transaction.commitBoundary =
        some (.ok keys) ∧
      budgetGate T bindings m.transaction.operations = some (.ok reservation) ∧
      m'.transaction = m.transaction.recordPrepared keys reservation elapsed := by
  obtain ⟨bindings, hbindings⟩ := bindings_some m.transaction
  have hprepared : (prepare T B elapsed).wp True (fun _ u => ∃ keys reservation,
      structuralGates bindings m.transaction.operations m.transaction.commitBoundary =
        some (.ok keys) ∧
      budgetGate T bindings m.transaction.operations = some (.ok reservation) ∧
      u.transaction = m.transaction.recordPrepared keys reservation elapsed)
      (fun _ _ => True) m := by
    rw [wp_prepare_new hstate hbindings, Call.wp_lift]
    refine ⟨fun _ => trivial, ?_, fun _ _ => trivial⟩
    intro keys hgates
    rw [Call.wp_lift]
    refine ⟨fun _ => trivial, ?_, fun _ _ => trivial⟩
    intro reservation hbudget
    refine Call.wp_mono (Call.wp_forEach (fun _ t => t.transaction = m.transaction) ?_ rfl) ?_
      (fun _ _ h => h)
    · intro _ entry _ t _ ht
      rw [wp_holdReservation]
      unfold Call.wp
      split
      · trivial
      · exact ht
      · trivial
    · intro _ t ht
      exact ⟨keys, reservation, hgates, hbudget, by rw [ht]⟩
  obtain ⟨keys, reservation, hgates, hbudget, htx⟩ := Call.wp_of_ok hprepared hcall
  exact ⟨bindings, keys, reservation, hbindings, hgates, hbudget, htx⟩

end Prepare

/-! ## Commit and abort -/

section Finish

variable {Q : TransactionReceipt → Machine β → Prop} {m : Machine β}

theorem wp_refreshCompletedEvents {Q : Unit → Machine β → Prop} {E : ε → Machine β → Prop} :
    (refreshCompletedEvents B : Call (Machine β) ε Unit).wp panics Q E m ↔
      (Call.forEach (m.transaction.operations.flatMap (·.completedEvents.toList))
        (joinEvent B)).wp panics Q E m := by
  simp only [refreshCompletedEvents, Call.wp_bind, Call.wp_get]

theorem wp_finalize {E : ε → Machine β → Prop} {state : TransactionState}
    {decision : TransactionDecision} {elapsed : Nat} :
    (finalize state decision elapsed : Call (Machine β) ε TransactionReceipt).wp panics Q E m ↔
      ∀ receipt, (m.transaction.decide state decision elapsed).buildReceipt = some receipt →
        Q receipt ⟨(m.transaction.decide state decision elapsed).storeReceipt receipt,
          m.backend⟩ := by
  simp [finalize, Call.wp_value, ExecutionTransaction.buildReceipt]

theorem wp_releaseCommitted {E : CommitError → Machine β → Prop} {ordinal : PublicationOrdinal}
    {elapsed : Nat} :
    (releaseCommitted B ordinal elapsed).wp panics Q E m ↔
      (releaseAll B m.transaction.reservedPartitions).wp panics (fun _ t =>
        (finalize .committed (.committed ordinal) elapsed).wp panics Q E
          ⟨(t.transaction.recordTeardown m.transaction.reservedPartitions ∅).recordPublished
            ⟨B.stagedBytes t.backend, B.publishedBytes t.backend, true⟩, t.backend⟩) E m := by
  simp [releaseCommitted]

theorem wp_commit_executing {E : CommitError → Machine β → Prop} {ordinal : PublicationOrdinal}
    {elapsed : Nat} (hstate : m.transaction.state = .executing) :
    (commit T B ordinal elapsed).wp panics Q E m ↔
      (refreshCompletedEvents B).wp panics (fun _ t =>
        (t.transaction.missingBoundaryRefs ≠ ∅ →
          E (.boundaryNotReached t.transaction.missingBoundaryRefs) t) ∧
        (t.transaction.missingBoundaryRefs = ∅ →
          B.publish.wp panics
            (fun _ b => (releaseCommitted B ordinal elapsed).wp panics Q E
              { t with backend := b })
            (fun error b => E (.publishFailed error)
              ⟨t.transaction.fail (.publishFailed (error.debug T)), b⟩) t.backend)) E m := by
  simp only [commit, Call.wp_bind, Call.wp_get, hstate, ne_eq, not_true_eq_false, if_false]
  constructor
  · refine fun h => Call.wp_mono h ?_ (fun _ _ he => he)
    intro _ t ht
    by_cases hmissing : t.transaction.missingBoundaryRefs = ∅
    · simpa [hmissing, wp_onBackend] using ht
    · simpa [hmissing] using ht
  · refine fun h => Call.wp_mono h ?_ (fun _ _ he => he)
    intro _ t ht
    by_cases hmissing : t.transaction.missingBoundaryRefs = ∅
    · simpa [hmissing, wp_onBackend] using ht
    · simpa [hmissing] using ht

theorem wp_commit_other {E : CommitError → Machine β → Prop} {ordinal : PublicationOrdinal}
    {elapsed : Nat} (hstate : m.transaction.state ≠ .executing) :
    (commit T B ordinal elapsed).wp panics Q E m ↔ E (.invalidState m.transaction.state) m := by
  simp [commit, hstate]

variable {E : AbortError → Machine β → Prop} {reason : String} {elapsed : Nat}

theorem wp_teardownAborted :
    (teardownAborted B reason elapsed).wp panics Q E m ↔
      (Call.forEach m.transaction.stagedPartitions.toList (fun partition =>
        useBackend (B.retire partition (abortFailure m.transaction.state reason)))).wp panics
        (fun _ =>
          (releaseAll B (m.transaction.reservedPartitions \ m.transaction.stagedPartitions)).wp
            panics (fun _ t =>
              (finalize (.aborted (abortFailure m.transaction.state reason))
                (.aborted (abortFailure m.transaction.state reason)) elapsed).wp panics Q E
                ⟨(t.transaction.recordTeardown
                    (m.transaction.reservedPartitions \ m.transaction.stagedPartitions)
                    m.transaction.stagedPartitions).recordFailure
                  (abortFailure m.transaction.state reason), t.backend⟩) E) E m := by
  simp [teardownAborted]

theorem wp_abort_live (hstate : ¬ m.transaction.state.Terminal) :
    (abort B reason elapsed).wp panics Q E m ↔
      (teardownAborted B reason elapsed).wp panics Q E m := by
  simp only [abort, Call.wp_bind, Call.wp_get]
  cases found : m.transaction.state with
  | committed =>
    rw [found] at hstate
    exact (hstate trivial).elim
  | aborted failure =>
    rw [found] at hstate
    exact (hstate trivial).elim
  | new | prepared | executing | failed failure => rfl

theorem wp_abort_aborted {failure : TransactionFailure} {receipt : TransactionReceipt}
    (hstate : m.transaction.state = .aborted failure)
    (hreceipt : m.transaction.receipt = some receipt) :
    (abort B reason elapsed).wp panics Q E m ↔ Q receipt m := by
  simp [abort, hstate, Call.wp_value, hreceipt]

theorem wp_abort_committed (hstate : m.transaction.state = .committed) :
    (abort B reason elapsed).wp panics Q E m ↔ E .alreadyCommitted m := by
  simp [abort, hstate]

theorem wp_abort_terminal {P : Machine β → Prop} (hstate : m.transaction.state.Terminal)
    (h : P m) : (abort B reason elapsed).wp True (fun _ => P) (fun _ => P) m := by
  cases found : m.transaction.state with
  | committed => exact (wp_abort_committed found).mpr h
  | aborted failure =>
    cases hreceipt : m.transaction.receipt with
    | none => simp [abort, found, Call.wp_value, hreceipt]
    | some receipt => exact (wp_abort_aborted found hreceipt).mpr h
  | new | prepared | executing | failed _ =>
    rw [found] at hstate
    exact hstate.elim

end Finish

end FaberHosts.Transaction
