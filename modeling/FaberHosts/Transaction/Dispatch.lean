import FaberHosts.Transaction.Phases

/-!
# How often an operation is dispatched

`execute` dispatches every operation of the snapshot once.  `execute_operation`
is public and stays enabled in `Executing`, so a caller can dispatch a member
again; runs in which no call does that dispatch each operation at most once.
-/

namespace FaberHosts.Transaction
open FaberHosts.Lib FaberHosts.Coordinator Machine

variable {β : Type} {T : Toolchain} {B : DeviceExecutionBackend β}

/-- The call does not run a snapshot member while the transaction waits in
    `Executing`. -/
def NoRedispatch (m : Machine β) (call : TransactionCall) : Prop :=
  ∀ operation, call = .executeOperation operation → m.transaction.state = .executing →
    operation ∉ m.transaction.operations

instance (m : Machine β) (call : TransactionCall) : Decidable (NoRedispatch m call) :=
  match call with
  | .executeOperation operation =>
    decidable_of_iff (m.transaction.state = .executing → operation ∉ m.transaction.operations)
      ⟨fun h _ hcall => by cases hcall; exact h, fun h => h operation rfl⟩
  | .prepare _ => isTrue (fun _ hcall => nomatch hcall)
  | .execute _ => isTrue (fun _ hcall => nomatch hcall)
  | .commit _ _ => isTrue (fun _ hcall => nomatch hcall)
  | .abort _ _ => isTrue (fun _ hcall => nomatch hcall)

/-- The operations of a receipt's execution records. -/
def TransactionReceipt.recordedOperations (receipt : TransactionReceipt) :
    List TransactionOperation :=
  receipt.executedOperations.map (·.operation)

/-- Nothing is dispatched or recorded twice. -/
def DispatchedOnce (tx : ExecutionTransaction) (log : CallLog) : Prop :=
  (dispatched log).Nodup ∧ tx.recordedOperations.Nodup

/-- What has been dispatched and recorded in each state. -/
def DispatchHolds (plan tx : ExecutionTransaction) (log : CallLog) : TransactionState → Prop
  | .new => dispatched log = [] ∧ tx.recordedOperations = []
  | .prepared =>
    dispatched log = [] ∧ tx.recordedOperations = [] ∧
      KeysIndex tx.operationKeys plan.operations
  | .executing =>
    dispatched log = plan.operations ∧ tx.recordedOperations = plan.operations ∧
      KeysIndex tx.operationKeys plan.operations
  | .failed _ => DispatchedOnce tx log
  | .committed | .aborted _ =>
    DispatchedOnce tx log ∧
      ∀ receipt, tx.receipt = some receipt → receipt.recordedOperations.Nodup

/-- The invariant of a run without re-dispatch. -/
structure DispatchInvariant (plan : ExecutionTransaction) (m : Machine (β × CallLog)) : Prop where
  operations : m.transaction.operations = plan.operations
  dispatch : DispatchHolds plan m.transaction m.log m.transaction.state

section Invariant

variable {plan : ExecutionTransaction} {m m' : Machine (β × CallLog)}

theorem KeysIndex.nodup {keys : BTreeMap OperationRef Nat}
    {operations : List TransactionOperation} (h : KeysIndex keys operations) :
    operations.Nodup :=
  h.unique.of_map _

theorem dispatchInvariant_of_fresh (hfresh : plan.IsFresh) (b : β) :
    DispatchInvariant plan ⟨plan, (b, [])⟩ := by
  refine ⟨rfl, ?_⟩
  rw [hfresh.state]
  exact ⟨rfl, by simp [ExecutionTransaction.recordedOperations, hfresh.executedOperations]⟩

theorem DispatchInvariant.once (h : DispatchInvariant plan m) :
    DispatchedOnce m.transaction m.log := by
  have hdispatch := h.dispatch
  cases found : m.transaction.state with
  | new =>
    rw [found] at hdispatch
    exact ⟨by simp [hdispatch.1], by simp [hdispatch.2]⟩
  | prepared =>
    rw [found] at hdispatch
    exact ⟨by simp [hdispatch.1], by simp [hdispatch.2.1]⟩
  | executing =>
    rw [found] at hdispatch
    obtain ⟨hdispatched, hrecorded, hkeys⟩ := hdispatch
    exact ⟨hdispatched ▸ hkeys.nodup, hrecorded ▸ hkeys.nodup⟩
  | failed failure =>
    rw [found] at hdispatch
    exact hdispatch
  | committed | aborted _ =>
    rw [found] at hdispatch
    exact hdispatch.1

theorem recordedOperations_congr {tx tx' : ExecutionTransaction}
    (h : tx'.executedOperations = tx.executedOperations) :
    tx'.recordedOperations = tx.recordedOperations := by
  rw [ExecutionTransaction.recordedOperations, h]
  rfl

/-! ## Each method keeps the invariant -/

theorem DispatchInvariant.prepare (h : DispatchInvariant plan m) {elapsed : Nat} :
    (prepare T (recording B) elapsed).wp True (fun _ => DispatchInvariant plan)
      (fun _ => DispatchInvariant plan) m := by
  by_cases hstate : m.transaction.state = .new
  · have hdispatch := h.dispatch
    rw [hstate] at hdispatch
    refine Call.wp_mono (prepare_recorded hstate) ?_ ?_
    · rintro _ u ⟨keys, held, t, ht, httx, hkeys, rfl⟩
      refine ⟨h.operations, ?_, hdispatch.2, ?_⟩
      · exact ht.dispatched_eq.trans (by simp [hdispatch.1])
      · rw [← h.operations]
        exact hkeys
    · rintro _ u ⟨hu, hutx⟩
      refine ⟨hu.operations.trans h.operations, ?_⟩
      rw [hutx, hstate]
      exact ⟨hu.dispatched_eq.trans (by simp [hdispatch.1]), hdispatch.2⟩
  · rw [wp_prepare_other hstate]
    exact h

theorem DispatchInvariant.execute (h : DispatchInvariant plan m) {elapsed : Nat} :
    (execute T (recording B) elapsed).wp True (fun _ => DispatchInvariant plan)
      (fun _ => DispatchInvariant plan) m := by
  by_cases hstate : m.transaction.state = .prepared
  · have hdispatch := h.dispatch
    rw [hstate] at hdispatch
    obtain ⟨hdispatched, hrecorded, hkeys⟩ := hdispatch
    rw [← h.operations] at hkeys
    rw [wp_execute_prepared hstate]
    have hloop := executeLoop_recorded (T := T) (B := B)
      (m := ⟨m.transaction.startExecuting, m.backend⟩) rfl hkeys
    refine Call.wp_mono hloop ?_ ?_
    · rintro _ u ⟨hadv, hexec, hurecorded, -⟩
      refine ⟨hadv.operations.trans h.operations, ?_⟩
      rw [ExecutionTransaction.recordExecuteTime_state, hexec]
      refine ⟨?_, ?_, ?_⟩
      · refine hadv.dispatched_eq.trans ?_
        show dispatched m.log ++ m.transaction.operations = plan.operations
        rw [hdispatched, h.operations, List.nil_append]
      · refine hurecorded.trans ?_
        show m.transaction.recordedOperations ++ m.transaction.operations = plan.operations
        rw [hrecorded, h.operations, List.nil_append]
      · rw [ExecutionTransaction.recordExecuteTime_operationKeys, hadv.operationKeys,
          ← h.operations]
        exact hkeys
    · rintro _ u ⟨ran, failed, done, hadv, ⟨failure, hfailed⟩, hurecorded, hran, hdone⟩
      refine ⟨hadv.operations.trans h.operations, ?_⟩
      rw [ExecutionTransaction.recordExecuteTime_state, hfailed]
      refine ⟨?_, ?_⟩
      · have hlog : dispatched u.log = dispatched m.log ++ ran := hadv.dispatched_eq
        show (dispatched u.log).Nodup
        rw [hlog, hdispatched, List.nil_append]
        exact hran.sublist.nodup hkeys.nodup
      · have hdoneEq : u.transaction.recordedOperations =
            m.transaction.recordedOperations ++ done := hurecorded
        show u.transaction.recordedOperations.Nodup
        rw [hdoneEq, hrecorded, List.nil_append]
        exact hdone.sublist.nodup hkeys.nodup
  · rw [wp_execute_other hstate]
    exact h

theorem DispatchInvariant.executeOperation (h : DispatchInvariant plan m)
    {operation : TransactionOperation}
    (hguard : m.transaction.state = .executing → operation ∉ m.transaction.operations) :
    (executeOperation T (recording B) operation).wp True (fun _ => DispatchInvariant plan)
      (fun _ => DispatchInvariant plan) m := by
  by_cases hstate : m.transaction.state = .executing
  · have hdispatch := h.dispatch
    rw [hstate] at hdispatch
    have hkeys := hdispatch.2.2
    rw [← h.operations] at hkeys
    rw [wp_executeOperation_outside hstate hkeys (hguard hstate)]
    exact h
  · rw [wp_executeOperation_other hstate]
    exact h

theorem Publishes.dispatched_eq {answer : Except BackendError Unit}
    (hpub : Publishes m m' answer) : dispatched m'.log = dispatched m.log := by
  obtain ⟨t, calls, hadv, -, hlog, hcalls, -, -⟩ := hpub.joined
  rw [hlog, dispatched_append, hadv.dispatched_eq, List.append_nil]
  show dispatched m.log ++ dispatched calls = dispatched m.log
  rw [hcalls, List.append_nil]

theorem DispatchedOnce.congr {tx tx' : ExecutionTransaction} {log log' : CallLog}
    (h : DispatchedOnce tx log) (hlog : dispatched log' = dispatched log)
    (htx : tx'.executedOperations = tx.executedOperations) : DispatchedOnce tx' log' :=
  ⟨hlog ▸ h.1, recordedOperations_congr htx ▸ h.2⟩

/-- A receipt that lists what a transaction recorded lists nothing twice. -/
theorem DispatchedOnce.receipt {tx : ExecutionTransaction} {log : CallLog}
    (h : DispatchedOnce tx log) {receipt : TransactionReceipt}
    (hreceipt : receipt.executedOperations = tx.executedOperations) :
    receipt.recordedOperations.Nodup := by
  rw [TransactionReceipt.recordedOperations, hreceipt]
  exact h.2

theorem DispatchInvariant.commit (h : DispatchInvariant plan m) {ordinal : PublicationOrdinal}
    {elapsed : Nat} :
    (commit T (recording B) ordinal elapsed).wp True (fun _ => DispatchInvariant plan)
      (fun _ => DispatchInvariant plan) m := by
  by_cases hstate : m.transaction.state = .executing
  · refine Call.wp_mono (commit_recorded hstate) ?_ ?_
    · rintro receipt u ⟨hpub, hcommitted, hreceipt, hexecuted⟩
      refine ⟨hpub.operations.trans h.operations, ?_⟩
      rw [hcommitted]
      refine ⟨h.once.congr hpub.dispatched_eq hpub.executed, ?_⟩
      intro other hother
      rw [hreceipt] at hother
      cases hother
      exact h.once.receipt hexecuted
    · rintro _ u (⟨hadv, hexec, hexecuted⟩ | ⟨error, hpub, failure, hfailed⟩)
      · have hdispatch := h.dispatch
        rw [hstate] at hdispatch
        obtain ⟨hdispatched, hrecorded, hkeys⟩ := hdispatch
        refine ⟨hadv.operations.trans h.operations, ?_⟩
        rw [hexec]
        refine ⟨?_, (recordedOperations_congr hexecuted).trans hrecorded, ?_⟩
        · rw [hadv.dispatched_eq, hdispatched, List.append_nil]
        · rw [hadv.operationKeys]
          exact hkeys
      · refine ⟨hpub.operations.trans h.operations, ?_⟩
        rw [hfailed]
        exact h.once.congr hpub.dispatched_eq hpub.executed
  · rw [wp_commit_other hstate]
    exact h

theorem DispatchInvariant.abort (h : DispatchInvariant plan m) {reason : String} {elapsed : Nat} :
    (abort (recording B) reason elapsed).wp True (fun _ => DispatchInvariant plan)
      (fun _ => DispatchInvariant plan) m := by
  by_cases hstate : m.transaction.state.Terminal
  · refine wp_abort_terminal hstate ?_
    exact h
  · refine Call.wp_mono (abort_recorded hstate) ?_ (fun _ _ h => h.elim)
    rintro receipt u ⟨hadv, ⟨failure, haborted⟩, hreceipt, hexecuted, hreceiptExecuted⟩
    have hlog : dispatched u.log = dispatched m.log := by
      rw [hadv.dispatched_eq, List.append_nil]
    refine ⟨hadv.operations.trans h.operations, ?_⟩
    rw [haborted]
    refine ⟨h.once.congr hlog hexecuted, ?_⟩
    intro other hother
    rw [hreceipt] at hother
    cases hother
    exact h.once.receipt hreceiptExecuted

theorem dispatchInvariant_step {call : TransactionCall} (h : DispatchInvariant plan m)
    (hguard : NoRedispatch m call) (hstep : perform T (recording B) m call = some m') :
    DispatchInvariant plan m' :=
  perform_spec (fun _ _ => h.prepare) (fun _ _ => h.execute)
    (fun operation hcall => h.executeOperation (hguard operation hcall))
    (fun _ _ _ => h.commit) (fun _ _ _ => h.abort) hstep

theorem dispatchInvariant_run {b : β} {calls : List TransactionCall} (hfresh : plan.IsFresh)
    (hmeet : StepsMeet (perform T (recording B)) NoRedispatch ⟨plan, (b, [])⟩ calls)
    (hrun : runSteps (perform T (recording B)) ⟨plan, (b, [])⟩ calls = some m) :
    DispatchInvariant plan m :=
  runSteps_preserves_of_meets (fun _ _ _ h hguard hstep => dispatchInvariant_step h hguard hstep)
    hmeet (dispatchInvariant_of_fresh hfresh b) hrun

end Invariant

/-! ## Runs -/

/-- In every run in which no call runs a snapshot member while the transaction
    waits in `Executing`, each operation is dispatched at most once and the final
    receipt lists no operation twice. -/
theorem dispatched_at_most_once {id : TransactionId} {bound : BoundDistributedPlan}
    {operations : List TransactionOperation} {boundary : TransactionCommitBoundary}
    {tx : ExecutionTransaction} {b : β} {calls : List TransactionCall}
    {m : Machine (β × CallLog)}
    (hnew : ExecutionTransaction.new id bound operations boundary = .ok tx)
    (hmeet : StepsMeet (perform T (recording B)) NoRedispatch ⟨tx, (b, [])⟩ calls)
    (hrun : runSteps (perform T (recording B)) ⟨tx, (b, [])⟩ calls = some m) :
    (∀ operation, (dispatched m.log).count operation ≤ 1) ∧
      (m.transaction.state.Terminal → ∀ receipt, m.transaction.receipt = some receipt →
        receipt.recordedOperations.Nodup) := by
  have hinv := dispatchInvariant_run (ExecutionTransaction.new_ok hnew).2.2.2 hmeet hrun
  refine ⟨fun operation => List.nodup_iff_count_le_one.mp hinv.once.1 operation, ?_⟩
  intro hterminal receipt hreceipt
  have hdispatch := hinv.dispatch
  cases found : m.transaction.state with
  | committed | aborted _ =>
    rw [found] at hdispatch
    exact hdispatch.2 receipt hreceipt
  | new | prepared | executing | failed _ =>
    rw [found] at hterminal
    exact hterminal.elim

/-- A run over the fake backend in which `execute_operation` is called before
    `execute`, and refused. -/
theorem fake_dispatches_each_once : ∃ tx m,
    TwoPartitions.transaction .dev TwoPartitions.ledgers TwoPartitions.operations
        TwoPartitions.boundary = some tx ∧
      runSteps (perform .dev (recording (fakeBackend .dev))) ⟨tx, (.new, [])⟩
        [.prepare 0, .executeOperation (TwoPartitions.barrier "barrier-main"), .execute 0,
          .commit ⟨1⟩ 0] = some m ∧
      ∀ operation, (dispatched m.log).count operation ≤ 1 := by
  have hruns : (TwoPartitions.transaction .dev TwoPartitions.ledgers TwoPartitions.operations
      TwoPartitions.boundary).any (fun tx =>
        StepsMeet (perform .dev (recording (fakeBackend .dev))) NoRedispatch ⟨tx, (.new, [])⟩
          [.prepare 0, .executeOperation (TwoPartitions.barrier "barrier-main"), .execute 0,
            .commit ⟨1⟩ 0] ∧
        (runSteps (perform .dev (recording (fakeBackend .dev))) ⟨tx, (.new, [])⟩
          [.prepare 0, .executeOperation (TwoPartitions.barrier "barrier-main"), .execute 0,
            .commit ⟨1⟩ 0]).isSome) = true := by decide +kernel
  obtain ⟨tx, htx, hrun⟩ := (Option.any_eq_true _ _).mp hruns
  obtain ⟨hmeet, hsome⟩ := of_decide_eq_true hrun
  obtain ⟨m, hm⟩ := Option.isSome_iff_exists.mp hsome
  obtain ⟨bound, hnew⟩ := TwoPartitions.new_of_transaction htx
  exact ⟨tx, m, htx, hm, (dispatched_at_most_once hnew hmeet hm).1⟩

/-- The barrier of a committed run, dispatched again while the transaction waits
    in `Executing`: it runs twice and the receipt lists it twice. -/
theorem barrier_dispatched_twice : ∃ tx m receipt,
    TwoPartitions.transaction .dev TwoPartitions.ledgers TwoPartitions.operations
        TwoPartitions.boundary = some tx ∧
      runSteps (perform .dev (recording (fakeBackend .dev))) ⟨tx, (.new, [])⟩
        [.prepare 0, .execute 0, .executeOperation (TwoPartitions.barrier "barrier-main"),
          .commit ⟨1⟩ 0] = some m ∧
      TwoPartitions.barrier "barrier-main" ∈ tx.operations ∧
      (dispatched m.log).count (TwoPartitions.barrier "barrier-main") = 2 ∧
      m.transaction.receipt = some receipt ∧ ¬ receipt.recordedOperations.Nodup := by
  have hruns : (TwoPartitions.transaction .dev TwoPartitions.ledgers TwoPartitions.operations
      TwoPartitions.boundary).any (fun tx =>
        TwoPartitions.barrier "barrier-main" ∈ tx.operations ∧
        (runSteps (perform .dev (recording (fakeBackend .dev))) ⟨tx, (.new, [])⟩
          [.prepare 0, .execute 0, .executeOperation (TwoPartitions.barrier "barrier-main"),
            .commit ⟨1⟩ 0]).any (fun m =>
              (dispatched m.log).count (TwoPartitions.barrier "barrier-main") = 2 ∧
              m.transaction.receipt.any (fun receipt =>
                ¬ receipt.recordedOperations.Nodup))) = true := by decide +kernel
  obtain ⟨tx, htx, hrun⟩ := (Option.any_eq_true _ _).mp hruns
  obtain ⟨hmember, hsteps⟩ := of_decide_eq_true hrun
  obtain ⟨m, hm, htwice⟩ := (Option.any_eq_true _ _).mp hsteps
  obtain ⟨hcount, hreceipts⟩ := of_decide_eq_true htwice
  obtain ⟨receipt, hreceipt, hdup⟩ := (Option.any_eq_true _ _).mp hreceipts
  exact ⟨tx, m, receipt, htx, hm, hmember, hcount, hreceipt, of_decide_eq_true hdup⟩

end FaberHosts.Transaction
