import FaberHosts.Transaction.Recording

/-!
# The lifecycle over a recorded backend

What each public method can do to the transaction and the call log, the phase
invariant of a run, and its consequences: one publication, only after everything
ran and the boundary was reached, and terminal states that nothing changes.
-/

namespace FaberHosts.Transaction
open FaberHosts.Lib FaberHosts.Coordinator Machine

variable {β ε : Type} {T : Toolchain} {B : DeviceExecutionBackend β}

/-! ## The methods over a recorded backend -/

section Methods

variable {m : Machine (β × CallLog)}

/-- The operations with an execution record, in order. -/
def ExecutionTransaction.recordedOperations (tx : ExecutionTransaction) :
    List TransactionOperation :=
  tx.executedOperations.map (·.operation)

/-- `prepare` neither dispatches nor publishes; it leaves the transaction as it
    is or moves it from `New` to `Prepared`, with its operations indexed. -/
theorem prepare_recorded {elapsed : Nat} (hstate : m.transaction.state = .new) :
    (prepare T (recording B) elapsed).wp True
      (fun _ u => ∃ keys held t, Advances m t [] [] ∧ t.transaction = m.transaction ∧
        KeysIndex keys m.transaction.operations ∧
        u = ⟨m.transaction.recordPrepared keys held elapsed, t.backend⟩)
      (fun _ u => Advances m u [] [] ∧ u.transaction = m.transaction) m := by
  obtain ⟨bindings, hbindings⟩ := bindings_some m.transaction
  rw [wp_prepare_new hstate hbindings, Call.wp_lift]
  refine ⟨fun _ => trivial, ?_, fun _ _ => ⟨.refl m, rfl⟩⟩
  intro keys hgates
  rw [Call.wp_lift]
  refine ⟨fun _ => trivial, ?_, fun _ _ => ⟨.refl m, rfl⟩⟩
  intro held _
  refine Call.wp_mono (holdReservations_recorded held.toList) ?_ (fun _ _ h => h)
  rintro _ t ⟨hadv, htx⟩
  exact ⟨keys, held, t, hadv, htx, (structuralGates_ok hgates).keysIndex, by rw [htx]⟩

/-- The loop of `execute`: every operation runs, in order, or the transaction
    fails after a prefix of them. -/
theorem executeLoop_recorded (hstate : m.transaction.state = .executing)
    (hkeys : KeysIndex m.transaction.operationKeys m.transaction.operations) :
    (Call.forEach m.transaction.operations (executeOperation T (recording B))).wp True
      (fun _ u => Advances m u m.transaction.operations [] ∧ u.transaction.state = .executing ∧
        u.transaction.recordedOperations =
          m.transaction.recordedOperations ++ m.transaction.operations ∧
        ∀ operation ∈ m.transaction.operations, Ran operation u.log)
      (fun _ u => ∃ ran failed done, Advances m u ran failed ∧
        (∃ failure, u.transaction.state = .failed failure) ∧
        u.transaction.recordedOperations = m.transaction.recordedOperations ++ done ∧
        ran <+: m.transaction.operations ∧ done <+: m.transaction.operations) m := by
  refine Call.wp_forEach (fun done t => Advances m t done [] ∧ t.transaction.state = .executing ∧
    t.transaction.recordedOperations = m.transaction.recordedOperations ++ done ∧
    ∀ operation ∈ done, Ran operation t.log) ?_ ⟨.refl m, hstate, by simp, by simp⟩
  rintro done operation rest t hl ⟨hadv, hexec, hrecorded, hran⟩
  have hmem : operation ∈ t.transaction.operations := by
    rw [hadv.operations, hl]
    simp
  have htkeys : KeysIndex t.transaction.operationKeys t.transaction.operations := by
    rw [hadv.operations, hadv.operationKeys]
    exact hkeys
  rw [wp_executeOperation_member hexec htkeys hmem]
  refine Call.wp_mono (dispatchOperation_recorded hexec) ?_ ?_
  · rintro _ u ⟨hu, huexec, ⟨byteCount, hexecuted⟩, huran⟩
    refine ⟨hadv.trans hu, huexec, ?_, ?_⟩
    · rw [ExecutionTransaction.recordedOperations, hexecuted, List.map_append,
        ← ExecutionTransaction.recordedOperations, hrecorded]
      simp
    · intro other hother
      rcases List.mem_append.mp hother with hdone | hnew
      · exact hu.ran (hran other hdone)
      · rw [List.mem_singleton.mp hnew]
        exact huran
  · intro error u hfails
    obtain ⟨failed, hfailed⟩ := hfails.advances
    refine ⟨done ++ [operation], _, done, hadv.trans hfailed, hfails.failed, ?_, ?_, ?_⟩
    · rw [ExecutionTransaction.recordedOperations, hfails.executed]
      exact hrecorded
    · exact ⟨rest, by simp [hl]⟩
    · exact ⟨operation :: rest, hl.symm⟩

/-- From `m` to `m'` the boundary was found complete and `publish` was called
    once, with this answer. -/
structure Publishes (m m' : Machine (β × CallLog)) (answer : Except BackendError Unit) :
    Prop where
  intro ::
  joined : ∃ t calls, Advances m t [] [] ∧ t.transaction.missingBoundaryRefs = ∅ ∧
    m'.log = t.log ++ .publish answer :: calls ∧ dispatched calls = [] ∧ publications calls = [] ∧
    m'.transaction.completedEvents = t.transaction.completedEvents
  operations : m'.transaction.operations = m.transaction.operations
  commitBoundary : m'.transaction.commitBoundary = m.transaction.commitBoundary
  executed : m'.transaction.executedOperations = m.transaction.executedOperations

theorem executed_of_buildReceipt {tx : ExecutionTransaction} {receipt : TransactionReceipt}
    (h : tx.buildReceipt = some receipt) :
    receipt.executedOperations = tx.executedOperations := by
  obtain ⟨decision, -, rfl⟩ := Option.map_eq_some_iff.mp h
  rfl

/-- `commit` waits in `Executing`, or publishes and ends in `Committed` or
    `Failed`. -/
theorem commit_recorded {ordinal : PublicationOrdinal} {elapsed : Nat}
    (hstate : m.transaction.state = .executing) :
    (commit T (recording B) ordinal elapsed).wp True
      (fun receipt u => Publishes m u (.ok ()) ∧ u.transaction.state = .committed ∧
        u.transaction.receipt = some receipt ∧
        receipt.executedOperations = m.transaction.executedOperations)
      (fun _ u => (Advances m u [] [] ∧ u.transaction.state = .executing ∧
          u.transaction.executedOperations = m.transaction.executedOperations) ∨
        ∃ error, Publishes m u (.error error) ∧
          ∃ failure, u.transaction.state = .failed failure) m := by
  rw [wp_commit_executing hstate, wp_refreshCompletedEvents]
  refine Call.wp_mono (joinEvents_recorded _) ?_ (fun _ _ h => h.elim)
  rintro _ t ⟨hadv, htstate, hexecuted⟩
  rw [hstate] at htstate
  refine ⟨fun _ => .inl ⟨hadv, htstate, hexecuted⟩, ?_⟩
  intro hmissing
  refine wp_recorded ?_ ?_
  · intro _ b
    rw [wp_releaseCommitted]
    refine Call.wp_mono (releaseAll_recorded _) ?_ (fun _ _ h => h.elim)
    rintro _ u ⟨hu, hutx⟩
    rw [wp_finalize]
    intro receipt hreceipt
    have hrecorded : u.transaction.executedOperations = m.transaction.executedOperations := by
      rw [hutx]
      exact hexecuted
    obtain ⟨calls, hlog, hdispatched, hpublications, -⟩ := hu.log
    refine ⟨⟨⟨t, calls, hadv, hmissing, ?_, hdispatched, hpublications, ?_⟩, ?_, ?_, ?_⟩,
      rfl, rfl, ?_⟩
    · exact hlog.trans (by simp [Machine.log])
    · show u.transaction.completedEvents = _
      rw [hutx]
    · exact hu.operations.trans hadv.operations
    · exact hu.commitBoundary.trans hadv.commitBoundary
    · exact hrecorded
    · rw [executed_of_buildReceipt hreceipt]
      exact hrecorded
  · intro error b
    rw [ExecutionTransaction.fail_of_executing htstate]
    exact .inr ⟨error, ⟨⟨t, [], hadv, hmissing, rfl, rfl, rfl, rfl⟩, hadv.operations,
      hadv.commitBoundary, hexecuted⟩, _, rfl⟩

theorem abort_recorded {reason : String} {elapsed : Nat}
    (hstate : ¬ m.transaction.state.Terminal) :
    (abort (recording B) reason elapsed).wp True
      (fun receipt u => Advances m u [] [] ∧ (∃ failure, u.transaction.state = .aborted failure) ∧
        u.transaction.receipt = some receipt ∧
        u.transaction.executedOperations = m.transaction.executedOperations ∧
        receipt.executedOperations = m.transaction.executedOperations)
      (fun _ _ => False) m := by
  rw [wp_abort_live hstate, wp_teardownAborted]
  refine Call.wp_mono (retireAll_recorded _ _) ?_ (fun _ _ h => h.elim)
  rintro _ t ⟨ht, httx⟩
  refine Call.wp_mono (releaseAll_recorded _) ?_ (fun _ _ h => h.elim)
  rintro _ u ⟨hu, hutx⟩
  rw [wp_finalize]
  intro receipt hreceipt
  have hall : Advances m u [] [] := ht.trans hu
  have hexecuted : u.transaction.executedOperations = m.transaction.executedOperations := by
    rw [hutx, httx]
  refine ⟨⟨hall.operations, hall.commitBoundary, hall.operationKeys, hall.log, hall.events⟩,
    ⟨_, rfl⟩, rfl, hexecuted, ?_⟩
  rw [executed_of_buildReceipt hreceipt]
  exact hexecuted

end Methods

end FaberHosts.Transaction

/-!
## Phases of a run

The invariant of every run over a recorded backend: what the call log holds in
each state, the single publication, and what preceded it.
-/

namespace FaberHosts.Transaction
open FaberHosts.Lib FaberHosts.Coordinator Machine

variable {β : Type} {T : Toolchain} {B : DeviceExecutionBackend β}

/-! ## The boundary -/

/-- A boundary barrier reached by one of its participants, or a boundary launch
    completed by its partition. -/
inductive BoundaryEvent (boundary : TransactionCommitBoundary)
    (operations : List TransactionOperation) : OperationEvent → Prop where
  | barrier {barrier : BarrierRef} {partitions : BTreeSet LogicalPartitionId}
      {partition : LogicalPartitionId} (hboundary : barrier ∈ boundary.barriers)
      (hoperation : .barrier barrier partitions ∈ operations) (hpartition : partition ∈ partitions) :
      BoundaryEvent boundary operations (.barrierCompleted partition barrier)
  | launch {launch : LaunchRef} {partition : LogicalPartitionId} {outputBytes : UInt64}
      (hboundary : launch ∈ boundary.launches)
      (hoperation : .launch partition launch outputBytes ∈ operations) :
      BoundaryEvent boundary operations (.launchCompleted partition launch)

theorem find?_eq_of_unique {operations : List TransactionOperation}
    {keys : BTreeMap OperationRef Nat} (hkeys : KeysIndex keys operations)
    {declares : TransactionOperation → Bool} {operation : TransactionOperation}
    (hop : operation ∈ operations) (hdeclares : declares operation = true)
    (href : ∀ other, declares other = true → other.operationRef = operation.operationRef) :
    operations.find? declares = some operation := by
  cases hfind : operations.find? declares with
  | none => exact absurd hdeclares (List.find?_eq_none.mp hfind operation hop)
  | some found =>
    have hfound := List.find?_some hfind
    rw [hkeys.eq_of_ref (List.mem_of_find?_eq_some hfind) hop (href found hfound)]

theorem completed_of_not_missing {tx : ExecutionTransaction}
    {declares : TransactionOperation → Bool} {event : LogicalPartitionId → OperationEvent}
    {operation : TransactionOperation} (h : tx.missingRef declares event = false)
    (hfind : tx.operations.find? declares = some operation) :
    ∀ partition ∈ operation.partitions, event partition ∈ tx.completedEvents := by
  intro partition hpartition
  simp only [ExecutionTransaction.missingRef, hfind, List.any_eq_false] at h
  have := h partition (by simpa using hpartition)
  simpa using this

theorem completed_of_missing_empty {tx : ExecutionTransaction}
    {keys : BTreeMap OperationRef Nat} (hkeys : KeysIndex keys tx.operations)
    (h : tx.missingBoundaryRefs = ∅) {event : OperationEvent}
    (hevent : BoundaryEvent tx.commitBoundary tx.operations event) :
    event ∈ tx.completedEvents := by
  have hnone : ∀ reference, reference ∉ tx.missingBoundaryRefs := by
    intro reference
    rw [h]
    simp
  cases hevent with
  | @barrier barrier partitions partition hboundary hoperation hpartition =>
    have hpresent : tx.missingRef (·.isBarrier barrier) (.barrierCompleted · barrier) = false := by
      by_contra hmissing
      apply hnone (.barrier barrier)
      simp only [ExecutionTransaction.missingBoundaryRefs, mem_setOf]
      simp [hboundary, Bool.of_not_eq_false hmissing]
    refine completed_of_not_missing hpresent
      (find?_eq_of_unique hkeys hoperation (by simp [TransactionOperation.isBarrier]) ?_)
      partition hpartition
    intro other hother
    cases other with
    | barrier reference _ =>
      simp only [TransactionOperation.isBarrier, decide_eq_true_eq] at hother
      rw [hother]
      rfl
    | launch _ _ _ | transfer _ | collectiveBroadcast _ => cases hother
  | @launch launch partition outputBytes hboundary hoperation =>
    have hpresent : tx.missingRef (·.isLaunch launch) (.launchCompleted · launch) = false := by
      by_contra hmissing
      apply hnone (.launch launch)
      simp only [ExecutionTransaction.missingBoundaryRefs, mem_setOf]
      simp [hboundary, Bool.of_not_eq_false hmissing]
    refine completed_of_not_missing hpresent
      (find?_eq_of_unique hkeys hoperation (by simp [TransactionOperation.isLaunch]) ?_)
      partition (by simp [TransactionOperation.partitions])
    intro other hother
    cases other with
    | launch _ reference _ =>
      simp only [TransactionOperation.isLaunch, decide_eq_true_eq] at hother
      rw [← hother]
      rfl
    | barrier _ _ | transfer _ | collectiveBroadcast _ => cases hother

/-! ## The phase invariant -/

/-- Every operation of the plan has run, nothing has failed and the boundary has
    been reported. -/
structure ReadyToPublish (plan : ExecutionTransaction) (log : CallLog) : Prop where
  sound : failures log = []
  ran : ∀ operation ∈ plan.operations, Ran operation log
  reported : ∀ event, BoundaryEvent plan.commitBoundary plan.operations event →
    .eventCompleted event true ∈ log

/-- The log holds one `publish`, with this answer, made when the plan was ready. -/
def PublishedOnce (plan : ExecutionTransaction) (answer : Except BackendError Unit)
    (log : CallLog) : Prop :=
  ∃ before after, log = before ++ .publish answer :: after ∧ publications before = [] ∧
    publications after = [] ∧ ReadyToPublish plan before

/-- Nothing has been published and nothing has failed. -/
def Untouched (log : CallLog) : Prop := publications log = [] ∧ failures log = []

/-- No `publish` has answered `Ok`. -/
def Unpublished (plan : ExecutionTransaction) (log : CallLog) : Prop :=
  publications log = [] ∨ ∃ error, PublishedOnce plan (.error error) log

/-- What the log and the transaction satisfy in each state. -/
def PhaseHolds (plan tx : ExecutionTransaction) (log : CallLog) : TransactionState → Prop
  | .new => Untouched log
  | .prepared => Untouched log ∧ KeysIndex tx.operationKeys plan.operations
  | .executing =>
    Untouched log ∧ KeysIndex tx.operationKeys plan.operations ∧
      ∀ operation ∈ plan.operations, Ran operation log
  | .committed => PublishedOnce plan (.ok ()) log
  | .failed _ => Unpublished plan log
  | .aborted _ => Unpublished plan log ∧ tx.receipt.isSome

/-- The invariant of a run of `plan`. -/
structure RunInvariant (plan : ExecutionTransaction) (m : Machine (β × CallLog)) : Prop where
  operations : m.transaction.operations = plan.operations
  commitBoundary : m.transaction.commitBoundary = plan.commitBoundary
  events : ∀ event ∈ m.transaction.completedEvents, .eventCompleted event true ∈ m.log
  phase : PhaseHolds plan m.transaction m.log m.transaction.state

section Invariant

variable {plan : ExecutionTransaction} {m m' : Machine (β × CallLog)}
  {ran : List TransactionOperation} {failed : CallLog}

theorem PublishedOnce.extend {answer : Except BackendError Unit} {log calls : CallLog}
    (h : PublishedOnce plan answer log) (hcalls : publications calls = []) :
    PublishedOnce plan answer (log ++ calls) := by
  obtain ⟨before, after, rfl, hbefore, hafter, hready⟩ := h
  exact ⟨before, after ++ calls, by simp, hbefore, by simp [hafter, hcalls], hready⟩

theorem Unpublished.advance (h : Unpublished plan m.log)
    (hadv : Advances m m' ran failed) : Unpublished plan m'.log := by
  rcases h with hnone | ⟨error, hpublished⟩
  · exact .inl (by rw [hadv.publications_eq, hnone])
  · obtain ⟨calls, hlog, -, hcalls, -⟩ := hadv.log
    exact .inr ⟨error, by rw [hlog]; exact hpublished.extend hcalls⟩

theorem Untouched.advance (h : Untouched m.log) (hadv : Advances m m' ran []) :
    Untouched m'.log :=
  ⟨hadv.publications_eq.trans h.1, by rw [hadv.failures_eq, h.2, List.append_nil]⟩

theorem Advances.reported (hadv : Advances m m' ran failed)
    (h : ∀ event ∈ m.transaction.completedEvents, .eventCompleted event true ∈ m.log) :
    ∀ event ∈ m'.transaction.completedEvents, .eventCompleted event true ∈ m'.log := by
  intro event hevent
  rcases hadv.events event hevent with hold | hnew
  · exact hadv.mem_log (h event hold)
  · exact hnew

/-- A stretch without publication keeps the invariant when its last state's phase
    holds. -/
theorem RunInvariant.advance (h : RunInvariant plan m)
    (hadv : Advances m m' ran failed) (hphase : PhaseHolds plan m'.transaction m'.log m'.transaction.state) :
    RunInvariant plan m' :=
  ⟨hadv.operations.trans h.operations, hadv.commitBoundary.trans h.commitBoundary,
    hadv.reported h.events, hphase⟩

theorem Publishes.publishedOnce {answer : Except BackendError Unit} (h : RunInvariant plan m)
    (hstate : m.transaction.state = .executing) (hpub : Publishes m m' answer) :
    PublishedOnce plan answer m'.log ∧
      ∀ event ∈ m'.transaction.completedEvents, .eventCompleted event true ∈ m'.log := by
  have hphase := h.phase
  rw [hstate] at hphase
  obtain ⟨huntouched, hkeys, hran⟩ := hphase
  obtain ⟨t, calls, hadv, hmissing, hlog, -, hcalls, hevents⟩ := hpub.joined
  have htkeys : KeysIndex m.transaction.operationKeys t.transaction.operations := by
    rw [hadv.operations, h.operations]
    exact hkeys
  have hreported := hadv.reported h.events
  have htuntouched := huntouched.advance hadv
  refine ⟨⟨t.log, calls, hlog, htuntouched.1, hcalls, htuntouched.2, ?_, ?_⟩, ?_⟩
  · exact fun operation hop => hadv.ran (hran operation hop)
  · intro event hevent
    apply hreported
    apply completed_of_missing_empty htkeys hmissing
    rw [hadv.operations, hadv.commitBoundary, h.operations, h.commitBoundary]
    exact hevent
  · intro event hevent
    rw [hevents] at hevent
    rw [hlog]
    exact List.mem_append_left _ (hreported event hevent)

theorem runInvariant_of_fresh (hfresh : plan.IsFresh) (b : β) :
    RunInvariant plan ⟨plan, (b, [])⟩ := by
  refine ⟨rfl, rfl, ?_, ?_⟩
  · simp [hfresh.completedEvents]
  · rw [hfresh.state]
    exact ⟨rfl, rfl⟩

theorem RunInvariant.ready (h : RunInvariant plan m) (hstate : m.transaction.state = .executing) :
    Untouched m.log ∧ KeysIndex m.transaction.operationKeys m.transaction.operations ∧
      ∀ operation ∈ plan.operations, Ran operation m.log := by
  have hphase := h.phase
  rw [hstate] at hphase
  rw [h.operations]
  exact hphase

theorem RunInvariant.advance_executing (h : RunInvariant plan m)
    (hstate : m.transaction.state = .executing) (hadv : Advances m m' ran [])
    (hexec : m'.transaction.state = .executing) : RunInvariant plan m' := by
  obtain ⟨huntouched, hkeys, hran⟩ := h.ready hstate
  refine h.advance hadv ?_
  rw [hexec]
  refine ⟨huntouched.advance hadv, ?_, fun other hother => hadv.ran (hran other hother)⟩
  rw [hadv.operationKeys, ← h.operations]
  exact hkeys

/-! ## Each method keeps the invariant -/

theorem RunInvariant.prepare (h : RunInvariant plan m) {elapsed : Nat} :
    (prepare T (recording B) elapsed).wp True (fun _ => RunInvariant plan)
      (fun _ => RunInvariant plan) m := by
  by_cases hstate : m.transaction.state = .new
  · have hphase := h.phase
    rw [hstate] at hphase
    refine Call.wp_mono (prepare_recorded hstate) ?_ ?_
    · rintro _ u ⟨keys, held, t, ht, httx, hkeys, rfl⟩
      have hevents := ht.reported h.events
      rw [httx] at hevents
      have hnext : Untouched t.log := Untouched.advance hphase ht
      refine ⟨h.operations, h.commitBoundary, hevents, hnext, ?_⟩
      rw [← h.operations]
      exact hkeys
    · rintro _ u ⟨hu, hutx⟩
      refine h.advance hu ?_
      rw [hutx, hstate]
      exact Untouched.advance hphase hu
  · rw [wp_prepare_other hstate]
    exact h

theorem RunInvariant.execute (h : RunInvariant plan m) {elapsed : Nat} :
    (execute T (recording B) elapsed).wp True (fun _ => RunInvariant plan)
      (fun _ => RunInvariant plan) m := by
  by_cases hstate : m.transaction.state = .prepared
  · have hphase := h.phase
    rw [hstate] at hphase
    obtain ⟨huntouched, hkeys⟩ := hphase
    rw [← h.operations] at hkeys
    rw [wp_execute_prepared hstate]
    have hloop := executeLoop_recorded (T := T) (B := B)
      (m := ⟨m.transaction.startExecuting, m.backend⟩) rfl hkeys
    refine Call.wp_mono hloop ?_ ?_
    · rintro _ u ⟨hadv, hexec, -, hran⟩
      have hnext : Untouched u.log :=
        Untouched.advance (m := ⟨m.transaction.startExecuting, m.backend⟩) huntouched hadv
      refine ⟨hadv.operations.trans h.operations, hadv.commitBoundary.trans h.commitBoundary,
        hadv.reported h.events, ?_⟩
      rw [ExecutionTransaction.recordExecuteTime_state, hexec]
      refine ⟨hnext, ?_, ?_⟩
      · rw [ExecutionTransaction.recordExecuteTime_operationKeys, hadv.operationKeys,
          ← h.operations]
        exact hkeys
      · rw [← h.operations]
        exact hran
    · rintro _ u ⟨ran, failed, done, hadv, ⟨failure, hfailed⟩, -, -, -⟩
      refine ⟨hadv.operations.trans h.operations, hadv.commitBoundary.trans h.commitBoundary,
        hadv.reported h.events, ?_⟩
      rw [ExecutionTransaction.recordExecuteTime_state, hfailed]
      exact .inl (hadv.publications_eq.trans huntouched.1)
  · rw [wp_execute_other hstate]
    exact h

theorem RunInvariant.executeOperation (h : RunInvariant plan m)
    {operation : TransactionOperation} :
    (executeOperation T (recording B) operation).wp True (fun _ => RunInvariant plan)
      (fun _ => RunInvariant plan) m := by
  by_cases hstate : m.transaction.state = .executing
  · obtain ⟨huntouched, hkeys, -⟩ := h.ready hstate
    by_cases hop : operation ∈ m.transaction.operations
    · rw [wp_executeOperation_member hstate hkeys hop]
      refine Call.wp_mono (dispatchOperation_recorded hstate) ?_ ?_
      · rintro _ u ⟨hadv, hexec, -, -⟩
        exact h.advance_executing hstate hadv hexec
      · rintro _ u hfails
        obtain ⟨failure, hfailed⟩ := hfails.failed
        obtain ⟨failed, hadv⟩ := hfails.advances
        refine h.advance hadv ?_
        rw [hfailed]
        exact .inl (hadv.publications_eq.trans huntouched.1)
    · rw [wp_executeOperation_outside hstate hkeys hop]
      exact h
  · rw [wp_executeOperation_other hstate]
    exact h

theorem RunInvariant.commit (h : RunInvariant plan m) {ordinal : PublicationOrdinal}
    {elapsed : Nat} :
    (commit T (recording B) ordinal elapsed).wp True (fun _ => RunInvariant plan)
      (fun _ => RunInvariant plan) m := by
  by_cases hstate : m.transaction.state = .executing
  · refine Call.wp_mono (commit_recorded hstate) ?_ ?_
    · rintro receipt u ⟨hpub, hcommitted, -, -⟩
      obtain ⟨hpublished, hevents⟩ := hpub.publishedOnce h hstate
      refine ⟨hpub.operations.trans h.operations, hpub.commitBoundary.trans h.commitBoundary,
        hevents, ?_⟩
      rw [hcommitted]
      exact hpublished
    · rintro _ u (⟨hadv, hexec, -⟩ | ⟨error, hpub, failure, hfailed⟩)
      · exact h.advance_executing hstate hadv hexec
      · obtain ⟨hpublished, hevents⟩ := hpub.publishedOnce h hstate
        refine ⟨hpub.operations.trans h.operations, hpub.commitBoundary.trans h.commitBoundary,
          hevents, ?_⟩
        rw [hfailed]
        exact .inr ⟨error, hpublished⟩
  · rw [wp_commit_other hstate]
    exact h

theorem RunInvariant.unpublished (h : RunInvariant plan m)
    (hstate : ¬ m.transaction.state.Terminal) : Unpublished plan m.log := by
  have hphase := h.phase
  cases found : m.transaction.state with
  | new => rw [found] at hphase; exact .inl hphase.1
  | prepared => rw [found] at hphase; exact .inl hphase.1.1
  | executing => rw [found] at hphase; exact .inl hphase.1.1
  | failed failure => rw [found] at hphase; exact hphase
  | committed => rw [found] at hstate; exact (hstate trivial).elim
  | aborted failure => rw [found] at hstate; exact (hstate trivial).elim

theorem RunInvariant.terminal_fixed (h : RunInvariant plan m)
    (hstate : m.transaction.state.Terminal) (call : TransactionCall) :
    perform T (recording B) m call = some m := by
  refine perform_terminal hstate ?_ call
  intro failure haborted
  have hphase := h.phase
  rw [haborted] at hphase
  exact hphase.2

theorem RunInvariant.abort (h : RunInvariant plan m) {reason : String} {elapsed : Nat}
    (hstate : ¬ m.transaction.state.Terminal) :
    (abort (recording B) reason elapsed).wp True (fun _ => RunInvariant plan)
      (fun _ => RunInvariant plan) m := by
  refine Call.wp_mono (abort_recorded hstate) ?_ (fun _ _ h => h.elim)
  rintro receipt u ⟨hadv, ⟨failure, haborted⟩, hreceipt, -, -⟩
  refine h.advance hadv ?_
  rw [haborted]
  exact ⟨(h.unpublished hstate).advance hadv, by simp [hreceipt]⟩

theorem runInvariant_step {call : TransactionCall} (h : RunInvariant plan m)
    (hstep : perform T (recording B) m call = some m') : RunInvariant plan m' := by
  by_cases hstate : m.transaction.state.Terminal
  · rw [h.terminal_fixed hstate call] at hstep
    cases hstep
    exact h
  · exact perform_spec (fun _ _ => h.prepare) (fun _ _ => h.execute)
      (fun _ _ => h.executeOperation) (fun _ _ _ => h.commit) (fun _ _ _ => h.abort hstate) hstep

/-! ## What a run guarantees -/

theorem PublishedOnce.unique {answer : Except BackendError Unit} {log before after : CallLog}
    {other : Except BackendError Unit} (h : PublishedOnce plan answer log)
    (hlog : log = before ++ .publish other :: after) : ReadyToPublish plan before := by
  obtain ⟨before', after', heq, hbefore', hafter', hready⟩ := h
  rw [hlog] at heq
  rcases List.append_eq_append_iff.mp heq with ⟨l, hl, hrest⟩ | ⟨l, hl, hrest⟩
  · cases l with
    | nil => simpa [hl] using hready
    | cons first l =>
      rw [List.cons_append, List.cons.injEq] at hrest
      rw [hl, ← hrest.1] at hbefore'
      simp [publications] at hbefore'
  · cases l with
    | nil => simpa [hl] using hready
    | cons first l =>
      rw [List.cons_append, List.cons.injEq] at hrest
      rw [hrest.2] at hafter'
      simp [publications] at hafter'

theorem PublishedOnce.publications_eq {answer : Except BackendError Unit} {log : CallLog}
    (h : PublishedOnce plan answer log) : publications log = [answer] := by
  obtain ⟨before, after, rfl, hbefore, hafter, -⟩ := h
  rw [publications_append, hbefore]
  show answer :: publications after = [answer]
  rw [hafter]

theorem publish_not_mem {log : CallLog} (h : publications log = []) {before after : CallLog}
    {answer : Except BackendError Unit} : log ≠ before ++ .publish answer :: after := by
  rintro rfl
  simp [publications] at h

theorem runInvariant_run {b : β} {calls : List TransactionCall} (hfresh : plan.IsFresh)
    (hrun : runSteps (perform T (recording B)) ⟨plan, (b, [])⟩ calls = some m) :
    RunInvariant plan m :=
  runSteps_preserves (fun _ _ _ h hstep => runInvariant_step h hstep)
    (runInvariant_of_fresh hfresh b) hrun

theorem RunInvariant.publishedOnce_or_none (h : RunInvariant plan m) :
    publications m.log = [] ∨ ∃ answer, PublishedOnce plan answer m.log := by
  by_cases hstate : m.transaction.state.Terminal
  · have hphase := h.phase
    cases found : m.transaction.state with
    | committed =>
      rw [found] at hphase
      exact .inr ⟨_, hphase⟩
    | aborted failure =>
      rw [found] at hphase
      exact hphase.1.imp id (fun ⟨error, hpublished⟩ => ⟨_, hpublished⟩)
    | new | prepared | executing | failed _ =>
      rw [found] at hstate
      exact hstate.elim
  · exact (h.unpublished hstate).imp id (fun ⟨error, hpublished⟩ => ⟨_, hpublished⟩)

theorem Unpublished.no_ok {log : CallLog} (h : Unpublished plan log) :
    .ok () ∉ publications log := by
  rcases h with hnone | ⟨error, hpublished⟩
  · simp [hnone]
  · simp [hpublished.publications_eq]

theorem RunInvariant.committed_iff (h : RunInvariant plan m) :
    m.transaction.state = .committed ↔ .ok () ∈ publications m.log := by
  have hphase := h.phase
  cases found : m.transaction.state with
  | committed =>
    rw [found] at hphase
    simp [hphase.publications_eq]
  | aborted failure =>
    rw [found] at hphase
    simpa using hphase.1.no_ok
  | new | prepared | executing | failed _ =>
    have hlive : ¬ m.transaction.state.Terminal := by
      rw [found]
      exact id
    simpa using (h.unpublished hlive).no_ok

/-- Over every backend and every sequence of calls: `publish` is called at most
    once, and only after every operation has run, all its writes have been staged,
    no such call has failed and every boundary event has been reported; the
    transaction is committed exactly when that call answered `Ok`; and no call
    changes a terminal transaction or its backend. -/
theorem commit_publishes_once_after_boundary {id : TransactionId} {bound : BoundDistributedPlan}
    {operations : List TransactionOperation} {boundary : TransactionCommitBoundary}
    {tx : ExecutionTransaction} (b : β) {calls : List TransactionCall}
    {m : Machine (β × CallLog)}
    (hnew : ExecutionTransaction.new id bound operations boundary = .ok tx)
    (hrun : runSteps (perform T (recording B)) ⟨tx, (b, [])⟩ calls = some m) :
    (publications m.log).length ≤ 1 ∧
      (∀ before answer after, m.log = before ++ .publish answer :: after →
        (∀ operation ∈ operations, Ran operation before) ∧ failures before = [] ∧
          ∀ event, BoundaryEvent boundary operations event →
            .eventCompleted event true ∈ before) ∧
      (m.transaction.state = .committed ↔ .publish (.ok ()) ∈ m.log) ∧
      (m.transaction.state.Terminal →
        ∀ later, runSteps (perform T (recording B)) m later = some m) := by
  obtain ⟨-, hoperations, hboundary, hfresh⟩ := ExecutionTransaction.new_ok hnew
  have hinv := runInvariant_run hfresh hrun
  refine ⟨?_, ?_, ?_, ?_⟩
  · rcases hinv.publishedOnce_or_none with hnone | ⟨answer, hpublished⟩
    · simp [hnone]
    · simp [hpublished.publications_eq]
  · intro before answer after hlog
    rcases hinv.publishedOnce_or_none with hnone | ⟨other, hpublished⟩
    · exact absurd hlog (publish_not_mem hnone)
    · obtain ⟨hsound, hran, hreported⟩ := hpublished.unique hlog
      rw [hoperations] at hran hreported
      rw [hboundary] at hreported
      exact ⟨hran, hsound, hreported⟩
  · rw [hinv.committed_iff, mem_publications]
  · intro hterminal later
    exact runSteps_fixed (hinv.terminal_fixed hterminal) later

/-- A run to `Committed` over the fake backend. -/
theorem fake_commits_after_boundary : ∃ tx m,
    TwoPartitions.transaction .dev TwoPartitions.ledgers TwoPartitions.operations
        TwoPartitions.boundary = some tx ∧
      runSteps (perform .dev (recording (fakeBackend .dev))) ⟨tx, (.new, [])⟩
        [.prepare 0, .execute 0, .commit ⟨1⟩ 0] = some m ∧
      m.transaction.state = .committed ∧ (publications m.log).length ≤ 1 ∧
      ∀ later, runSteps (perform .dev (recording (fakeBackend .dev))) m later = some m := by
  have hcommits : (TwoPartitions.transaction .dev TwoPartitions.ledgers TwoPartitions.operations
      TwoPartitions.boundary).any (fun tx =>
        (runSteps (perform .dev (recording (fakeBackend .dev))) ⟨tx, (.new, [])⟩
          [.prepare 0, .execute 0, .commit ⟨1⟩ 0]).any (fun m =>
            m.transaction.state = .committed)) = true := by decide +kernel
  obtain ⟨tx, htx, hrun⟩ := (Option.any_eq_true _ _).mp hcommits
  obtain ⟨m, hm, hstate⟩ := (Option.any_eq_true _ _).mp hrun
  have hcommitted : m.transaction.state = .committed := by simpa using hstate
  obtain ⟨bound, hnew⟩ := TwoPartitions.new_of_transaction htx
  obtain ⟨honce, -, -, hfixed⟩ := commit_publishes_once_after_boundary _ hnew hm
  exact ⟨tx, m, htx, hm, hcommitted, honce, hfixed (by rw [hcommitted]; trivial)⟩

end Invariant

end FaberHosts.Transaction
