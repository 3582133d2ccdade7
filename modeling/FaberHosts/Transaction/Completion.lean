import FaberHosts.Transaction.Fake
import FaberHosts.Transaction.Reservation

/-!
# Running an accepted plan on the fake backend

On a fresh fake whose events complete synchronously, an accepted plan executes
and commits when its output names are distinct and the bytes its broadcasts move
do not overflow.
-/

namespace FaberHosts.Transaction
open FaberHosts.Lib FaberHosts.Coordinator Machine

variable {T : Toolchain}

/-- The moved bytes of every broadcast fit in a `u64` where overflow is checked. -/
def MovedBytesFit (T : Toolchain) (operations : List TransactionOperation) : Prop :=
  T.overflowChecks = true → ∀ broadcast, .collectiveBroadcast broadcast ∈ operations →
    broadcast.byteCount.toNat * (UInt64.ofNat (broadcast.participants.size - 1)).toNat < 2 ^ 64

theorem byteCount_returns_iff {operations : List TransactionOperation} :
    (∀ operation ∈ operations, ∃ bytes, operation.byteCount T = some bytes) ↔
      MovedBytesFit T operations := by
  constructor
  · intro h hchecks broadcast hmem
    obtain ⟨bytes, hbytes⟩ := h _ hmem
    by_contra hover
    rw [TransactionOperation.byteCount, hchecks, mulU64_of_overflow (by omega)] at hbytes
    cases hbytes
  · intro h operation hmem
    cases operation with
    | launch partition launchRef outputBytes => exact ⟨0, rfl⟩
    | transfer t => exact ⟨t.byteCount, rfl⟩
    | barrier barrierRef partitions => exact ⟨0, rfl⟩
    | collectiveBroadcast broadcast =>
      cases hchecks : T.overflowChecks with
      | false => simp [TransactionOperation.byteCount, hchecks]
      | true => exact ⟨_, mulU64_of_fits _ (h hchecks broadcast hmem)⟩

/-- What running operations leaves of the transaction. -/
structure Continues (tx tx' : ExecutionTransaction) : Prop where
  state : tx'.state = tx.state
  operations : tx'.operations = tx.operations
  operationKeys : tx'.operationKeys = tx.operationKeys
  commitBoundary : tx'.commitBoundary = tx.commitBoundary

theorem Continues.refl (tx : ExecutionTransaction) : Continues tx tx := ⟨rfl, rfl, rfl, rfl⟩

theorem Continues.trans {tx tx' tx'' : ExecutionTransaction} (h : Continues tx tx')
    (h' : Continues tx' tx'') : Continues tx tx'' :=
  ⟨h'.state.trans h.state, h'.operations.trans h.operations,
    h'.operationKeys.trans h.operationKeys, h'.commitBoundary.trans h.commitBoundary⟩

theorem continues_stage (tx : ExecutionTransaction) (write : StagedWrite) :
    Continues tx (tx.stage write) := ⟨rfl, rfl, rfl, rfl⟩

theorem continues_join (tx : ExecutionTransaction) (event : OperationEvent) (completed : Bool) :
    Continues tx (tx.join event completed) := ⟨rfl, rfl, rfl, rfl⟩

theorem continues_recordExecuted (tx : ExecutionTransaction) (operation : TransactionOperation)
    (bytes : UInt64) : Continues tx (tx.recordExecuted operation bytes) := ⟨rfl, rfl, rfl, rfl⟩

/-- The machine after the operations `done` ran: only their outputs are staged,
    nothing is published, and all their events are joined. -/
structure HasRun (done : List TransactionOperation) (m : Machine FakeExecutionBackend) : Prop where
  staged : ∀ ref : OutputRef, ref ∈ m.backend.stagedWrites → ref ∈ stagedRefs done
  unpublished : m.backend.publishedOnce = false
  autoComplete : m.backend.autoComplete = true
  completed : ∀ operation ∈ done, ∀ event ∈ operation.completedEvents,
    event ∈ m.backend.completedEvents
  joined : ∀ operation ∈ done, ∀ event ∈ operation.completedEvents,
    event ∈ m.transaction.completedEvents

section Run

variable {done : List TransactionOperation} {m : Machine FakeExecutionBackend}

theorem stageWrites_fake {writes : List StagedWrite}
    (hnodup : (writes.map (·.outputRef)).Nodup)
    (hnew : ∀ write ∈ writes, write.outputRef ∉ m.backend.stagedWrites) :
    (Call.forEach writes (stageDeclared (fakeBackend T))).wp False
      (fun _ m' => Continues m.transaction m'.transaction ∧
        m'.transaction.completedEvents = m.transaction.completedEvents ∧
        m'.backend.publishedOnce = m.backend.publishedOnce ∧
        m'.backend.autoComplete = m.backend.autoComplete ∧
        m'.backend.completedEvents = m.backend.completedEvents ∧
        ∀ ref : OutputRef, ref ∈ m'.backend.stagedWrites →
          ref ∈ m.backend.stagedWrites ∨ ref ∈ writes.map (·.outputRef))
      (fun _ _ => False) m := by
  induction writes generalizing m with
  | nil => exact ⟨.refl _, rfl, rfl, rfl, rfl, fun _ h => .inl h⟩
  | cons write rest ih =>
    obtain ⟨hwrite, hrest⟩ := List.nodup_cons.mp hnodup
    rw [Call.forEach, Call.wp_bind, wp_stageDeclared,
      wp_fake_stageWrite (hnew write (by simp))]
    refine Call.wp_mono (ih hrest ?_) ?_ (fun _ _ h => h)
    · intro later hlater
      rw [FakeExecutionBackend.staged_stagedWrites, Std.ExtTreeMap.mem_insert,
        Std.LawfulEqOrd.compare_eq_iff_eq]
      rintro (heq | hmem)
      · exact hwrite (List.mem_map.mpr ⟨later, hlater, heq.symm⟩)
      · exact hnew later (by simp [hlater]) hmem
    · rintro _ m' ⟨hcont, hjoined, honce, hauto, hcompleted, hstaged⟩
      refine ⟨(continues_stage _ _).trans hcont, hjoined, honce, hauto, hcompleted, ?_⟩
      intro ref href
      rcases hstaged ref href with hold | hlater
      · rw [FakeExecutionBackend.staged_stagedWrites, Std.ExtTreeMap.mem_insert,
          Std.LawfulEqOrd.compare_eq_iff_eq] at hold
        rcases hold with rfl | hold
        · exact .inr (by simp)
        · exact .inl hold
      · exact .inr (by simpa using .inr (by simpa using hlater))

theorem joinEvents_fake {ε : Type} {E : ε → Machine FakeExecutionBackend → Prop}
    {events : List OperationEvent}
    (hcompleted : ∀ event ∈ events, event ∈ m.backend.completedEvents) :
    (Call.forEach events (joinEvent (fakeBackend T)) :
      Call (Machine FakeExecutionBackend) ε Unit).wp False
      (fun _ m' => Continues m.transaction m'.transaction ∧ m'.backend = m.backend ∧
        ∀ event : OperationEvent, event ∈ m'.transaction.completedEvents ↔
          event ∈ m.transaction.completedEvents ∨ event ∈ events) E m := by
  induction events generalizing m with
  | nil => exact ⟨.refl _, rfl, fun event => by simp⟩
  | cons event rest ih =>
    rw [Call.forEach, Call.wp_bind, wp_joinEvent, wp_fake_eventCompleted]
    refine Call.wp_mono (ih (fun e he => hcompleted e (by simp [he]))) ?_ (fun _ _ h => h)
    rintro _ m' ⟨hcont, hbackend, hjoined⟩
    refine ⟨(continues_join _ _ _).trans hcont, hbackend, ?_⟩
    intro other
    have hevent : m.backend.completedEvents.contains event = true :=
      Std.ExtTreeSet.contains_iff_mem.mpr (hcompleted event (by simp))
    rw [hjoined other, ExecutionTransaction.join_completedEvents, if_pos hevent, mem_insert_iff,
      List.mem_cons]
    tauto

/-- One operation with new output names runs, and extends what has run. -/
theorem dispatchOperation_fake {operation : TransactionOperation} (hrun : HasRun done m)
    (hnodup : (stagedRefs (done ++ [operation])).Nodup) {bytes : UInt64}
    (hbytes : operation.byteCount T = some bytes) :
    (dispatchOperation T (fakeBackend T) operation).wp False
      (fun _ m' => HasRun (done ++ [operation]) m' ∧ Continues m.transaction m'.transaction)
      (fun _ _ => False) m := by
  simp only [stagedRefs, List.flatMap_append, List.flatMap_singleton] at hnodup
  obtain ⟨-, hnames, hdisjoint⟩ := List.nodup_append.mp hnodup
  rw [wp_dispatchOperation, wp_runOrFail, wp_fake_runOperation]
  refine Call.wp_mono (stageWrites_fake hnames ?_) ?_ (fun _ _ h => h)
  · intro write hwrite hmem
    exact hdisjoint _ (hrun.staged _ hmem) _ (List.mem_map_of_mem hwrite) rfl
  · rintro _ staged ⟨hcont, hjoined, honce, hauto, hcompleted, hstaged⟩
    have hown : ∀ event ∈ operation.completedEvents, event ∈ staged.backend.completedEvents := by
      intro event hevent
      rw [hcompleted, FakeExecutionBackend.ran_completedEvents, if_pos hrun.autoComplete]
      simp [hevent]
    refine ⟨by simp [hbytes], fun recorded hrecorded => ?_⟩
    refine Call.wp_mono (joinEvents_fake fun event hevent => hown event (by simpa using hevent))
      ?_ (fun _ _ h => h)
    rintro _ m' ⟨hcont', hbackend, hjoined'⟩
    refine ⟨⟨?_, ?_, ?_, ?_, ?_⟩,
      (hcont.trans (continues_recordExecuted _ _ _)).trans hcont'⟩
    · intro ref href
      rw [hbackend] at href
      simp only [stagedRefs, List.flatMap_append, List.flatMap_singleton, List.mem_append]
      rcases hstaged ref href with hold | hnew
      · exact .inl (hrun.staged ref hold)
      · exact .inr hnew
    · rw [hbackend]
      exact honce.trans hrun.unpublished
    · rw [hbackend]
      exact hauto.trans hrun.autoComplete
    · intro earlier hearlier event hevent
      rw [hbackend]
      rcases List.mem_append.mp hearlier with hdone | hlast
      · rw [hcompleted, FakeExecutionBackend.ran_completedEvents, if_pos hrun.autoComplete]
        simp [hrun.completed earlier hdone event hevent]
      · rw [List.mem_singleton.mp hlast] at hevent
        exact hown event hevent
    · intro earlier hearlier event hevent
      rw [hjoined' event]
      rcases List.mem_append.mp hearlier with hdone | hlast
      · left
        show event ∈ staged.transaction.completedEvents
        rw [hjoined]
        exact hrun.joined earlier hdone event hevent
      · rw [List.mem_singleton.mp hlast] at hevent
        exact .inr (by simpa using hevent)

theorem execute_fake {elapsed : Nat} (hstate : m.transaction.state = .prepared)
    (hkeys : KeysIndex m.transaction.operationKeys m.transaction.operations)
    (hrun : HasRun [] m) (hnodup : (stagedRefs m.transaction.operations).Nodup)
    (hfit : MovedBytesFit T m.transaction.operations) :
    (execute T (fakeBackend T) elapsed).wp False
      (fun _ m' => HasRun m.transaction.operations m' ∧ m'.transaction.state = .executing ∧
        m'.transaction.operations = m.transaction.operations ∧
        m'.transaction.commitBoundary = m.transaction.commitBoundary)
      (fun _ _ => False) m := by
  rw [wp_execute_prepared hstate]
  refine Call.wp_mono (Call.wp_forEach
    (fun done t => HasRun done t ∧ Continues m.transaction.startExecuting t.transaction) ?_
    ⟨⟨hrun.staged, hrun.unpublished, hrun.autoComplete, hrun.completed, hrun.joined⟩, .refl _⟩)
    ?_ (fun _ _ h => h)
  · rintro done operation rest t hl ⟨hran, hcont⟩
    have hmem : operation ∈ t.transaction.operations := by
      rw [hcont.operations]
      exact hl ▸ by simp
    obtain ⟨bytes, hbytes⟩ := byteCount_returns_iff.mpr hfit operation (hl ▸ by simp)
    rw [wp_executeOperation_member hcont.state (by rw [hcont.operationKeys, hcont.operations]
                                                   exact hkeys) hmem]
    have hsofar : (stagedRefs (done ++ [operation])).Nodup := by
      rw [hl, show done ++ operation :: rest = (done ++ [operation]) ++ rest by simp, stagedRefs,
        List.flatMap_append] at hnodup
      exact (List.nodup_append.mp hnodup).1
    refine Call.wp_mono (dispatchOperation_fake hran hsofar hbytes) ?_ (fun _ _ h => h)
    rintro _ t' ⟨hran', hcont'⟩
    exact ⟨hran', hcont.trans hcont'⟩
  · rintro _ t ⟨hran, hcont⟩
    exact ⟨⟨hran.staged, hran.unpublished, hran.autoComplete, hran.completed, hran.joined⟩,
      hcont.state, hcont.operations, hcont.commitBoundary⟩

/-! ## Commit -/

theorem releaseAll_fake {ε : Type} {E : ε → Machine FakeExecutionBackend → Prop}
    {partitions : BTreeSet LogicalPartitionId} :
    (releaseAll (fakeBackend T) partitions :
      Call (Machine FakeExecutionBackend) ε Unit).wp False (fun _ _ => True) E m := by
  refine Call.wp_forEach (fun _ _ => True) ?_ trivial
  intro _ partition _ t _ _
  rw [wp_useBackend, wp_fake_release]
  trivial

theorem missingRef_eq_false {tx : ExecutionTransaction} {declares : TransactionOperation → Bool}
    {event : LogicalPartitionId → OperationEvent}
    (hdeclared : ∃ operation ∈ tx.operations, declares operation = true)
    (hjoined : ∀ operation ∈ tx.operations, declares operation = true →
      ∀ partition ∈ operation.partitions, event partition ∈ tx.completedEvents) :
    tx.missingRef declares event = false := by
  unfold ExecutionTransaction.missingRef
  cases found : tx.operations.find? declares with
  | none =>
    obtain ⟨operation, hmem, hdeclares⟩ := hdeclared
    exact (List.find?_eq_none.mp found operation hmem hdeclares).elim
  | some operation =>
    have hmem := List.mem_of_find?_eq_some found
    have hdeclares := List.find?_some found
    simp only [List.any_eq_false, Std.ExtTreeSet.mem_toList]
    intro partition hpartition
    simp [hjoined operation hmem hdeclares partition hpartition]

/-- Nothing of a declared boundary is missing once every event is joined. -/
theorem missingBoundaryRefs_eq_empty {tx : ExecutionTransaction}
    (hdeclared : BoundaryDeclared tx.commitBoundary tx.operations)
    (hjoined : ∀ operation ∈ tx.operations, ∀ event ∈ operation.completedEvents,
      event ∈ tx.completedEvents) : tx.missingBoundaryRefs = ∅ := by
  have hbarriers : ∀ barrier ∈ tx.commitBoundary.barriers,
      tx.missingRef (·.isBarrier barrier) (.barrierCompleted · barrier) = false := by
    intro barrier hmem
    refine missingRef_eq_false (hdeclared.1 barrier hmem) ?_
    intro operation hop hbarrier partition hpartition
    cases operation with
    | barrier barrierRef partitions =>
      have href : barrierRef = barrier := by
        simpa [TransactionOperation.isBarrier] using hbarrier
      subst href
      refine hjoined _ hop _ ?_
      simpa [TransactionOperation.completedEvents, TransactionOperation.partitions]
        using hpartition
    | launch _ _ _ | transfer _ | collectiveBroadcast _ => cases hbarrier
  have hlaunches : ∀ launch ∈ tx.commitBoundary.launches,
      tx.missingRef (·.isLaunch launch) (.launchCompleted · launch) = false := by
    intro launch hmem
    refine missingRef_eq_false (hdeclared.2 launch hmem) ?_
    intro operation hop hlaunch partition hpartition
    cases operation with
    | launch bound launchRef outputBytes =>
      have href : launchRef = launch := by simpa [TransactionOperation.isLaunch] using hlaunch
      subst href
      refine hjoined _ hop _ ?_
      simpa [TransactionOperation.completedEvents, TransactionOperation.partitions, eq_comm]
        using hpartition
    | transfer _ | collectiveBroadcast _ | barrier _ _ => cases hlaunch
  have hnoBarriers : tx.commitBoundary.barriers.toList.filter (fun barrier =>
      tx.missingRef (·.isBarrier barrier) (.barrierCompleted · barrier)) = [] := by
    rw [List.filter_eq_nil_iff]
    intro barrier hmem
    simp [hbarriers barrier (by simpa using hmem)]
  have hnoLaunches : tx.commitBoundary.launches.toList.filter (fun launch =>
      tx.missingRef (·.isLaunch launch) (.launchCompleted · launch)) = [] := by
    rw [List.filter_eq_nil_iff]
    intro launch hmem
    simp [hlaunches launch (by simpa using hmem)]
  rw [ExecutionTransaction.missingBoundaryRefs, hnoBarriers, hnoLaunches]
  rfl

theorem finalize_returns {ε : Type} {E : ε → Machine FakeExecutionBackend → Prop}
    {state : TransactionState} {decision : TransactionDecision} {elapsed : Nat} :
    (finalize state decision elapsed :
      Call (Machine FakeExecutionBackend) ε TransactionReceipt).wp False (fun _ _ => True) E m := by
  rw [wp_finalize]
  exact fun _ _ => trivial

theorem commit_fake {ordinal : PublicationOrdinal} {elapsed : Nat}
    (hstate : m.transaction.state = .executing) (hrun : HasRun m.transaction.operations m)
    (hdeclared : BoundaryDeclared m.transaction.commitBoundary m.transaction.operations) :
    (commit T (fakeBackend T) ordinal elapsed).wp False (fun _ _ => True) (fun _ _ => False) m := by
  rw [wp_commit_executing hstate, wp_refreshCompletedEvents]
  refine Call.wp_mono (joinEvents_fake ?_) ?_ (fun _ _ h => h)
  · intro event hevent
    obtain ⟨operation, hop, hmem⟩ := List.mem_flatMap.mp hevent
    exact hrun.completed operation hop event (by simpa using hmem)
  · rintro _ t ⟨hcont, hbackend, hjoined⟩
    have hmissing : t.transaction.missingBoundaryRefs = ∅ := by
      refine missingBoundaryRefs_eq_empty ?_ ?_
      · rw [hcont.commitBoundary, hcont.operations]
        exact hdeclared
      · intro operation hop event hevent
        rw [hcont.operations] at hop
        exact (hjoined event).mpr (.inl (hrun.joined operation hop event hevent))
    refine ⟨fun hne => (hne hmissing).elim, fun _ => ?_⟩
    rw [wp_fake_publish (by rw [hbackend]; exact hrun.unpublished), wp_releaseCommitted]
    exact Call.wp_mono releaseAll_fake (fun _ _ _ => finalize_returns) (fun _ _ h => h)

end Run

/-! ## What a successful execution says about the plan -/

section Executed

variable {β : Type} {B : DeviceExecutionBackend β} {m : Machine β}

/-- On any backend an operation that runs has returned its moved bytes. -/
theorem dispatchOperation_byteCount {operation : TransactionOperation} :
    (dispatchOperation T B operation).wp True
      (fun _ m' => Continues m.transaction m'.transaction ∧
        ∃ bytes, operation.byteCount T = some bytes) (fun _ _ => True) m := by
  rw [wp_dispatchOperation, wp_runOrFail]
  refine Call.wp_of_forall ?_ (fun _ _ => trivial)
  intro _ b
  refine Call.wp_mono (Call.wp_forEach
    (fun _ t => Continues m.transaction t.transaction) ?_ (.refl _)) ?_ (fun _ _ h => h)
  · intro _ write _ t _ ht
    rw [wp_stageDeclared]
    exact Call.wp_of_forall (fun _ _ => ht.trans (continues_stage _ _)) (fun _ _ => trivial)
  · intro _ t ht
    refine ⟨fun _ => trivial, fun bytes hbytes => ?_⟩
    refine Call.wp_mono (Call.wp_forEach
      (fun _ t' => Continues m.transaction t'.transaction) ?_
      (ht.trans (continues_recordExecuted _ operation bytes))) ?_ (fun _ _ h => h)
    · intro _ event _ t' _ ht'
      rw [wp_joinEvent]
      exact Call.wp_of_forall (fun _ _ => ht'.trans (continues_join _ _ _)) (fun e _ => e.elim)
    · exact fun _ _ h => ⟨h, bytes, hbytes⟩

theorem movedBytesFit_of_executed {elapsed : Nat} {m' : Machine β}
    (hstate : m.transaction.state = .prepared)
    (hkeys : KeysIndex m.transaction.operationKeys m.transaction.operations)
    (hcall : execute T B elapsed m = some (.ok (), m')) :
    MovedBytesFit T m.transaction.operations := by
  rw [← byteCount_returns_iff]
  have hexecuted : (execute T B elapsed).wp True
      (fun _ _ => ∀ operation ∈ m.transaction.operations,
        ∃ bytes, operation.byteCount T = some bytes) (fun _ _ => True) m := by
    rw [wp_execute_prepared hstate]
    refine Call.wp_mono (Call.wp_forEach (fun done t =>
      Continues m.transaction.startExecuting t.transaction ∧
        ∀ operation ∈ done, ∃ bytes, operation.byteCount T = some bytes) ?_
      ⟨.refl _, by simp⟩) ?_ (fun _ _ h => h)
    · rintro done operation rest t hl ⟨hcont, hreturned⟩
      have hmem : operation ∈ t.transaction.operations := by
        rw [hcont.operations]
        exact hl ▸ by simp
      have htkeys : KeysIndex t.transaction.operationKeys t.transaction.operations := by
        rw [hcont.operationKeys, hcont.operations]
        exact hkeys
      rw [wp_executeOperation_member hcont.state htkeys hmem]
      refine Call.wp_mono dispatchOperation_byteCount ?_ (fun _ _ h => h)
      rintro _ t' ⟨hcont', hbytes⟩
      refine ⟨hcont.trans hcont', ?_⟩
      intro ran hran
      rcases List.mem_append.mp hran with hdone | hlast
      · exact hreturned ran hdone
      · rw [List.mem_singleton.mp hlast]
        exact hbytes
    · exact fun _ _ h => h.2
  exact Call.wp_of_ok hexecuted hcall

end Executed

/-! ## Accepted plans -/

/-- The plan runs to its commit, and each of its staged writes has a name and a
    declared entry of its own. -/
structure RunsToCommit (T : Toolchain) (m : Machine FakeExecutionBackend) : Prop where
  commits : ∀ elapsed ordinal elapsed', ∃ executed receipt committed,
    execute T (fakeBackend T) elapsed m = some (.ok (), executed) ∧
      commit T (fakeBackend T) ordinal elapsed' executed = some (.ok receipt, committed)
  distinct : (stagedRefs m.transaction.operations).Nodup
  declared : m.transaction.declaredWriteSet.size =
    (m.transaction.operations.flatMap (·.stagedWrites)).length

/-- A plan accepted on a fresh fake runs to its commit exactly when its broadcasts
    name their outputs unambiguously and their moved bytes fit. -/
theorem accepted_runsToCommit_iff {tx : ExecutionTransaction} {elapsed : Nat}
    {m : Machine FakeExecutionBackend} (hfresh : tx.IsFresh)
    (hprepare : prepare T (fakeBackend T) elapsed ⟨tx, .new⟩ = some (.ok (), m)) :
    RunsToCommit T m ↔ OutputsUnambiguous tx.operations ∧ MovedBytesFit T tx.operations := by
  obtain ⟨bindings, keys, reservation, hbindings, hgates, hbudget, -⟩ :=
    prepare_ok hfresh.state hprepare
  have hsound := structuralGates_ok hgates
  have hgranted := prepare_granted (fakeBackend_grants T) (m := ⟨tx, FakeExecutionBackend.new⟩)
    elapsed hfresh.state hbindings hgates hbudget rfl
  rw [hgranted] at hprepare
  cases hprepare
  rw [← nodup_stagedRefs_iff hsound.keysIndex.unique]
  constructor
  · intro hruns
    obtain ⟨executed, receipt, committed, hexecute, -⟩ := hruns.commits 0 ⟨0⟩ 0
    exact ⟨hruns.distinct, movedBytesFit_of_executed rfl hsound.keysIndex hexecute⟩
  · rintro ⟨hnodup, hfit⟩
    refine ⟨?_, hnodup, size_deriveDeclaredWriteSet hnodup⟩
    intro executeTime ordinal commitTime
    have hrun : HasRun [] (⟨tx.recordPrepared keys reservation elapsed,
        { FakeExecutionBackend.new with reservations := reservation }⟩ : Machine _) :=
      ⟨by simp [FakeExecutionBackend.new], rfl, rfl, by simp, by simp⟩
    obtain ⟨_, executed, hexecute, hran, hstate, hoperations, hboundary⟩ :=
      Call.wp_ok (execute_fake rfl hsound.keysIndex hrun hnodup hfit)
    rw [← hoperations] at hran
    obtain ⟨receipt, committed, hcommit, -⟩ := Call.wp_ok (commit_fake hstate hran (by
      rw [hoperations, hboundary]
      exact hsound.boundaryDeclared))
    exact ⟨executed, receipt, committed, hexecute, hcommit⟩

theorem fake_accepted_runsToCommit : ∃ tx m,
    TwoPartitions.transaction .dev TwoPartitions.ledgers TwoPartitions.operations
        TwoPartitions.boundary = some tx ∧
      prepare .dev (fakeBackend .dev) 0 ⟨tx, .new⟩ = some (.ok (), m) ∧
      (RunsToCommit .dev m ↔ OutputsUnambiguous tx.operations ∧
        MovedBytesFit .dev tx.operations) := by
  have hprepares : (TwoPartitions.transaction .dev TwoPartitions.ledgers TwoPartitions.operations
      TwoPartitions.boundary).any (fun tx =>
        (Call.okEnd (prepare .dev (fakeBackend .dev) 0) ⟨tx, .new⟩).isSome) = true := by
    decide +kernel
  obtain ⟨tx, htx, hsome⟩ := (Option.any_eq_true _ _).mp hprepares
  obtain ⟨⟨_, m⟩, hprepare⟩ := Option.isSome_iff_exists.mp hsome
  obtain ⟨bound, hnew⟩ := TwoPartitions.new_of_transaction htx
  exact ⟨tx, m, htx, Call.okEnd_eq_some_iff.mp hprepare, accepted_runsToCommit_iff
    (ExecutionTransaction.new_ok hnew).2.2.2 (Call.okEnd_eq_some_iff.mp hprepare)⟩

/-! ### Two broadcasts that name one output -/

/-- The plan `bind` answers for partitions named `c` and `b:c`. -/
def colonPlan (T : Toolchain) : Option BoundDistributedPlan := do
  let snapshot ← DeviceDiscoverySnapshot.new 0
    (Std.ExtTreeMap.ofList [(⟨0⟩, Coordinator.TwoPartitions.entry 0 0),
      (⟨1⟩, Coordinator.TwoPartitions.entry 1 1)] compare) .notAttempted
  let admitted ← ( AdmittedLogicalPlan.admit
    "sha256:aaaaaaaaaaaaaaaaaaaaaaaaaaaaaaaaaaaaaaaaaaaaaaaaaaaaaaaaaaaaaaaa"
    [⟨"c"⟩, ⟨"b:c"⟩] []).toOption
  let first ← Coordinator.TwoPartitions.binding 1 (Coordinator.TwoPartitions.device 0)
    (Coordinator.TwoPartitions.ledger 30976 10240)
  let second ← Coordinator.TwoPartitions.binding 2 (Coordinator.TwoPartitions.device 1)
    (Coordinator.TwoPartitions.ledger 30976 10240)
  okValue (bind T admitted (Std.ExtTreeMap.ofList [(⟨"c"⟩, first), (⟨"b:c"⟩, second)] compare)
    (.fromMembers [Coordinator.TwoPartitions.device 0, Coordinator.TwoPartitions.device 1])
    snapshot ⟨0⟩ .synthetic .hostStaged)

/-- `a:b` to `c` and `a` to `b:c` both write `broadcast:a:b:c`. -/
def colonBroadcasts : List TransactionOperation :=
  [.collectiveBroadcast ⟨⟨"a:b"⟩, ⟨"b:c"⟩, setOf [⟨"c"⟩, ⟨"b:c"⟩], 16⟩,
    .collectiveBroadcast ⟨⟨"a"⟩, ⟨"c"⟩, setOf [⟨"c"⟩, ⟨"b:c"⟩], 16⟩]

/-- `prepare` accepts the plan and `execute` fails on the second broadcast. -/
theorem shared_output_fails : ∃ bound tx m error failed,
    colonPlan .dev = some bound ∧
      ExecutionTransaction.new ⟨"txn-1"⟩ bound colonBroadcasts ⟨∅, ∅⟩ = .ok tx ∧
      prepare .dev (fakeBackend .dev) 0 ⟨tx, .new⟩ = some (.ok (), m) ∧
      execute .dev (fakeBackend .dev) 0 m = some (.error error, failed) ∧
      ¬ (stagedRefs tx.operations).Nodup := by
  have hruns : (colonPlan .dev).any (fun bound =>
      (ExecutionTransaction.new ⟨"txn-1"⟩ bound colonBroadcasts ⟨∅, ∅⟩).toOption.any (fun tx =>
        (Call.okEnd (prepare .dev (fakeBackend .dev) 0) ⟨tx, .new⟩).any (fun prepared =>
          (Call.errorEnd (execute .dev (fakeBackend .dev) 0) prepared.2).isSome) ∧
        ¬ (stagedRefs tx.operations).Nodup)) = true := by decide +kernel
  obtain ⟨bound, hbound, hruns⟩ := (Option.any_eq_true _ _).mp hruns
  obtain ⟨tx, hnew, hruns⟩ := (Option.any_eq_true _ _).mp hruns
  obtain ⟨hprepares, hdup⟩ := of_decide_eq_true hruns
  obtain ⟨⟨_, m⟩, hprepare, hsome⟩ := (Option.any_eq_true _ _).mp hprepares
  obtain ⟨⟨error, failed⟩, hexecute⟩ := Option.isSome_iff_exists.mp hsome
  exact ⟨bound, tx, m, error, failed, hbound, toOption_eq_some_iff.mp hnew,
    Call.okEnd_eq_some_iff.mp hprepare, Call.errorEnd_eq_some_iff.mp hexecute, hdup⟩

end FaberHosts.Transaction
