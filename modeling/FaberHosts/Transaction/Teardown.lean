import FaberHosts.Transaction.Recording
import FaberHosts.Transaction.Budget
import FaberHosts.Transaction.Completion

/-!
# Complete teardown

Runs over a fake backend whose `run_operation` and `publish` may be made to fail.
The reservations and staged writes of the fake mirror what the transaction has
recorded, so the partitions it releases and retires at the end are all of them.
-/

namespace FaberHosts.Transaction
open FaberHosts.Lib FaberHosts.Coordinator Machine

variable {φ ε : Type} {T : Toolchain} {faults : FaultInjection φ}

/-- A machine over a fake backend wrapped by fault injection. -/
abbrev FaultyMachine (φ : Type) := Machine (FakeExecutionBackend × φ)

/-- The fake under the injection. -/
abbrev Machine.fake (m : FaultyMachine φ) : FakeExecutionBackend := m.backend.1

abbrev faultyFake (T : Toolchain) (faults : FaultInjection φ) :
    DeviceExecutionBackend (FakeExecutionBackend × φ) := faultInjecting (fakeBackend T) faults

/-! ## Methods of the wrapped fake -/

section Methods

variable {panics : Prop} {α : Type} {b : FakeExecutionBackend} {f : φ}

theorem wp_onInner {c : Call FakeExecutionBackend ε α}
    {Q : α → FakeExecutionBackend × φ → Prop} {E : ε → FakeExecutionBackend × φ → Prop} :
    Call.wp panics (faultInjecting.onInner c) Q E (b, f) ↔
      c.wp panics (fun a b' => Q a (b', f)) (fun e b' => E e (b', f)) b := by
  unfold faultInjecting.onInner Call.wp
  dsimp only
  generalize c b = answered
  match answered with
  | none => rfl
  | some (.ok a, b') => rfl
  | some (.error e, b') => rfl

variable {Q : Unit → FakeExecutionBackend × φ → Prop}
  {E : BackendError → FakeExecutionBackend × φ → Prop}

/-- A faulty `run_operation` fails without touching the fake, or runs on it. -/
theorem wp_faulty_runOperation {operation : TransactionOperation}
    (hfault : ∀ error f', E error (b, f')) (hran : ∀ f', Q () (b.ran operation, f')) :
    ((faultyFake T faults).runOperation operation).wp panics Q E (b, f) := by
  unfold Call.wp
  simp only [faultyFake, faultInjecting]
  split
  · next h => split at h <;> cases h
  · next h =>
    split at h
    · cases h
    · cases h
      exact hran _
  · next h =>
    split at h
    · cases h
      exact hfault _ _
    · cases h

theorem wp_faulty_stageWrite {write : StagedWrite}
    (hstaged : write.outputRef ∉ b.stagedWrites → Q () (b.staged write, f))
    (htwice : write.outputRef ∈ b.stagedWrites → ∀ error, E error (b, f)) :
    ((faultyFake T faults).stageWrite write).wp panics Q E (b, f) := by
  refine wp_onInner.mpr ?_
  by_cases hmem : write.outputRef ∈ b.stagedWrites
  · exact (wp_fake_stageWrite_twice hmem).mpr (htwice hmem _)
  · exact (wp_fake_stageWrite hmem).mpr (hstaged hmem)

theorem wp_faulty_publish (honce : b.publishedOnce = false)
    (hfault : ∀ error f', E error (b, f')) (hpublished : ∀ f', Q () (b.published, f')) :
    (faultyFake T faults).publish.wp panics Q E (b, f) := by
  have hfake : FakeExecutionBackend.publish b = some (.ok (), b.published) := by
    simp [FakeExecutionBackend.publish, honce, FakeExecutionBackend.published]
  unfold Call.wp
  simp only [faultyFake, faultInjecting, faultInjecting.onInner, fakeBackend, hfake]
  split
  · next h => split at h <;> cases h
  · next h =>
    split at h
    · cases h
    · cases h
      exact hpublished _
  · next h =>
    split at h
    · cases h
      exact hfault _ _
    · cases h

theorem wp_faulty_eventCompleted {event : OperationEvent}
    {Q : Bool → FakeExecutionBackend × φ → Prop} {E : Empty → FakeExecutionBackend × φ → Prop} :
    ((faultyFake T faults).eventCompleted event).wp panics Q E (b, f) ↔
      Q (b.completedEvents.contains event) (b, f) := Iff.rfl

theorem wp_faulty_release {partition : LogicalPartitionId}
    {E : Empty → FakeExecutionBackend × φ → Prop} :
    ((faultyFake T faults).release partition).wp panics Q E (b, f) ↔
      Q () (b.released partition, f) := Iff.rfl

/-- The fake after a partition was retired. -/
structure Retired (partition : LogicalPartitionId) (b b' : FakeExecutionBackend) : Prop where
  stagedWrites : b'.stagedWrites =
    b.stagedWrites.filter (fun _ write => write.partition ≠ partition)
  reservations : b'.reservations = b.reservations.erase partition
  publishedWrites : b'.publishedWrites = b.publishedWrites

theorem wp_faulty_retire {partition : LogicalPartitionId} {failure : TransactionFailure}
    {E : Empty → FakeExecutionBackend × φ → Prop}
    (h : ∀ b', Retired partition b b' → Q () (b', f)) :
    ((faultyFake T faults).retire partition failure).wp True Q E (b, f) := by
  refine wp_onInner.mpr ?_
  show Call.wp True (FakeExecutionBackend.retire T partition) _ _ b
  unfold Call.wp FakeExecutionBackend.retire
  cases sumU64 T.overflowChecks (b.stagedCounts partition) with
  | none => trivial
  | some retired => exact h _ ⟨rfl, rfl, rfl⟩

theorem faultyFake_grants (T : Toolchain) (faults : FaultInjection φ) :
    GrantsFree (faultyFake T faults) (fun b => b.1.reservations)
      (fun b reservations => ({ b.1 with reservations := reservations }, b.2)) where
  held_hold := fun _ _ => rfl
  hold_held := fun _ => rfl
  hold_hold := fun _ _ _ => rfl
  granted := by
    intro partition record b hfree
    simp [faultyFake, faultInjecting, faultInjecting.onInner, fakeBackend,
      FakeExecutionBackend.reserve, hfree]

end Methods

/-! ## The mirror of the two sides -/

/-- What running operations leaves of the recorded plan. -/
structure SamePlan (tx tx' : ExecutionTransaction) : Prop where
  operations : tx'.operations = tx.operations
  boundPlan : tx'.boundPlan = tx.boundPlan
  commitBoundary : tx'.commitBoundary = tx.commitBoundary
  operationKeys : tx'.operationKeys = tx.operationKeys
  reservation : tx'.reservation = tx.reservation
  declaredWriteSet : tx'.declaredWriteSet = tx.declaredWriteSet

theorem SamePlan.refl (tx : ExecutionTransaction) : SamePlan tx tx :=
  ⟨rfl, rfl, rfl, rfl, rfl, rfl⟩

theorem SamePlan.trans {tx tx' tx'' : ExecutionTransaction} (h : SamePlan tx tx')
    (h' : SamePlan tx' tx'') : SamePlan tx tx'' :=
  ⟨h'.operations.trans h.operations, h'.boundPlan.trans h.boundPlan,
    h'.commitBoundary.trans h.commitBoundary, h'.operationKeys.trans h.operationKeys,
    h'.reservation.trans h.reservation, h'.declaredWriteSet.trans h.declaredWriteSet⟩

theorem samePlan_recordExecuted (tx : ExecutionTransaction) (operation : TransactionOperation)
    (bytes : UInt64) : SamePlan tx (tx.recordExecuted operation bytes) :=
  ⟨rfl, rfl, rfl, rfl, rfl, rfl⟩

theorem samePlan_recordTeardown (tx : ExecutionTransaction)
    (released retired : BTreeSet LogicalPartitionId) :
    SamePlan tx (tx.recordTeardown released retired) :=
  ⟨rfl, rfl, rfl, rfl, rfl, rfl⟩

theorem samePlan_recordPublished (tx : ExecutionTransaction) (summary : PublishSummary) :
    SamePlan tx (tx.recordPublished summary) :=
  ⟨rfl, rfl, rfl, rfl, rfl, rfl⟩

theorem samePlan_recordFailure (tx : ExecutionTransaction) (failure : TransactionFailure) :
    SamePlan tx (tx.recordFailure failure) :=
  ⟨rfl, rfl, rfl, rfl, rfl, rfl⟩

theorem samePlan_finalized (tx : ExecutionTransaction) (state : TransactionState)
    (decision : TransactionDecision) (elapsed : Nat) (receipt : TransactionReceipt) :
    SamePlan tx ((tx.decide state decision elapsed).storeReceipt receipt) :=
  ⟨rfl, rfl, rfl, rfl, rfl, rfl⟩

theorem SamePlan.reservedPartitions {tx tx' : ExecutionTransaction} (h : SamePlan tx tx') :
    tx'.reservedPartitions = tx.reservedPartitions := by
  rw [ExecutionTransaction.reservedPartitions, h.reservation]
  rfl

/-- Until the end of a run the fake holds what the transaction has recorded, and
    has published nothing. -/
structure Mirrors (m : FaultyMachine φ) : Prop where
  held : m.fake.reservations = m.transaction.reservation.getD ∅
  staged : m.fake.stagedWrites = m.transaction.stagedWriteSet
  inside : ∀ (ref : OutputRef) (write : StagedWrite),
    m.transaction.stagedWriteSet[ref]? = some write →
      write.partition ∈ m.transaction.reservedPartitions
  unpublished : m.fake.publishedWrites = ∅
  once : m.fake.publishedOnce = false
  clean : m.transaction.teardown = .empty

/-- What the run of some operations may do to a machine. -/
structure Runs (m m' : FaultyMachine φ) : Prop where
  mirrors : Mirrors m'
  plan : SamePlan m.transaction m'.transaction

theorem Runs.trans {m m' m'' : FaultyMachine φ} (h : Runs m m') (h' : Runs m' m'') :
    Runs m m'' := ⟨h'.mirrors, h.plan.trans h'.plan⟩

theorem Mirrors.failed {m : FaultyMachine φ} (h : Mirrors m)
    (hstate : m.transaction.state = .executing) (failure : TransactionFailure) (f' : φ) :
    Runs m ⟨m.transaction.fail failure, (m.fake, f')⟩ ∧
      (m.transaction.fail failure).state = .failed failure := by
  rw [ExecutionTransaction.fail_of_executing hstate]
  exact ⟨⟨⟨h.held, h.staged, h.inside, h.unpublished, h.once, h.clean⟩,
    ⟨rfl, rfl, rfl, rfl, rfl, rfl⟩⟩, rfl⟩

theorem partition_of_mem_stagedWrites {operation : TransactionOperation} {write : StagedWrite}
    (h : write ∈ operation.stagedWrites) : write.partition ∈ operation.partitions := by
  cases operation with
  | launch partition launchRef outputBytes =>
    rw [TransactionOperation.stagedWrites, List.mem_singleton] at h
    simp [h, TransactionOperation.partitions]
  | transfer t =>
    rw [TransactionOperation.stagedWrites, List.mem_singleton] at h
    simp [h, TransactionOperation.partitions]
  | collectiveBroadcast broadcast =>
    obtain ⟨p, hp, rfl⟩ := List.mem_map.mp h
    simpa [TransactionOperation.partitions] using (List.mem_filter.mp hp).1
  | barrier barrierRef partitions => simp [TransactionOperation.stagedWrites] at h

/-- Insert writes under their names. -/
def addWrites (writes : BTreeMap OutputRef StagedWrite) (added : List StagedWrite) :
    BTreeMap OutputRef StagedWrite :=
  added.foldl (fun writes write => writes.insert write.outputRef write) writes

section Running

variable {m : FaultyMachine φ}

theorem stageWrite_mirrored {write : StagedWrite} (h : Mirrors m)
    (hstate : m.transaction.state = .executing)
    (hinside : write.partition ∈ m.transaction.reservedPartitions) :
    (stageDeclared (faultyFake T faults) write).wp True
      (fun _ m' => Runs m m' ∧ m'.transaction.state = .executing ∧
        m'.transaction.stagedWriteSet = m.transaction.stagedWriteSet.insert write.outputRef write ∧
        write.outputRef ∉ m.transaction.stagedWriteSet)
      (fun _ m' => Runs m m' ∧ ∃ failure, m'.transaction.state = .failed failure) m := by
  rw [wp_stageDeclared]
  refine wp_faulty_stageWrite ?_ ?_
  · intro hnew
    refine ⟨⟨⟨h.held, ?_, ?_, h.unpublished, h.once, h.clean⟩, ⟨rfl, rfl, rfl, rfl, rfl, rfl⟩⟩,
      hstate, rfl, h.staged ▸ hnew⟩
    · rw [FakeExecutionBackend.staged_stagedWrites, ExecutionTransaction.stage_stagedWriteSet,
        ← h.staged]
    · intro ref found hfound
      rw [ExecutionTransaction.stage_stagedWriteSet, Std.ExtTreeMap.getElem?_insert] at hfound
      split at hfound
      · cases hfound
        exact hinside
      · exact h.inside ref found hfound
  · intro _ error
    obtain ⟨hruns, hfailed⟩ := h.failed hstate (.backend error) m.backend.2
    exact ⟨hruns, _, hfailed⟩

theorem stageWrites_mirrored {writes : List StagedWrite} (h : Mirrors m)
    (hstate : m.transaction.state = .executing)
    (hinside : ∀ write ∈ writes, write.partition ∈ m.transaction.reservedPartitions) :
    (Call.forEach writes (stageDeclared (faultyFake T faults))).wp True
      (fun _ m' => Runs m m' ∧ m'.transaction.state = .executing ∧
        m'.transaction.stagedWriteSet = addWrites m.transaction.stagedWriteSet writes ∧
        ∀ write, writes.head? = some write → write.outputRef ∉ m.transaction.stagedWriteSet)
      (fun _ m' => Runs m m' ∧ ∃ failure, m'.transaction.state = .failed failure) m := by
  induction writes generalizing m with
  | nil => exact ⟨⟨h, .refl _⟩, hstate, rfl, by simp⟩
  | cons write rest ih =>
    rw [Call.forEach, Call.wp_bind]
    refine Call.wp_mono (stageWrite_mirrored h hstate (hinside write (by simp))) ?_ (fun _ _ h => h)
    rintro _ t ⟨hruns, htstate, hstaged, hnew⟩
    refine Call.wp_mono (ih hruns.mirrors htstate ?_) ?_ ?_
    · intro later hlater
      rw [hruns.plan.reservedPartitions]
      exact hinside later (by simp [hlater])
    · rintro _ m' ⟨hruns', hstate', hstaged', -⟩
      refine ⟨hruns.trans hruns', hstate', ?_, ?_⟩
      · rw [hstaged', hstaged]
        rfl
      · intro first hfirst
        cases hfirst
        exact hnew
    · rintro _ m' ⟨hruns', hfailed⟩
      exact ⟨hruns.trans hruns', hfailed⟩

theorem joinEvents_mirrored {events : List OperationEvent} {E : ε → FaultyMachine φ → Prop}
    (h : Mirrors m) :
    (Call.forEach events (joinEvent (faultyFake T faults)) : Call (FaultyMachine φ) ε Unit).wp True
      (fun _ m' => Runs m m' ∧ m'.transaction.state = m.transaction.state ∧
        m'.transaction.stagedWriteSet = m.transaction.stagedWriteSet) E m := by
  refine Call.wp_forEach (fun _ t => Runs m t ∧ t.transaction.state = m.transaction.state ∧
    t.transaction.stagedWriteSet = m.transaction.stagedWriteSet) ?_ ⟨⟨h, .refl _⟩, rfl, rfl⟩
  rintro _ event _ t - ⟨hruns, hstate, hstaged⟩
  rw [wp_joinEvent, wp_faulty_eventCompleted]
  have ht := hruns.mirrors
  exact ⟨⟨⟨ht.held, ht.staged, ht.inside, ht.unpublished, ht.once, ht.clean⟩,
    hruns.plan.trans ⟨rfl, rfl, rfl, rfl, rfl, rfl⟩⟩, hstate, hstaged⟩

/-- One operation over reserved partitions stages its writes or fails the
    transaction. -/
theorem dispatchOperation_mirrored {operation : TransactionOperation} (h : Mirrors m)
    (hstate : m.transaction.state = .executing)
    (hinside : ∀ partition ∈ operation.partitions,
      partition ∈ m.transaction.reservedPartitions) :
    (dispatchOperation T (faultyFake T faults) operation).wp True
      (fun _ m' => Runs m m' ∧ m'.transaction.state = .executing ∧
        m'.transaction.stagedWriteSet =
          addWrites m.transaction.stagedWriteSet operation.stagedWrites ∧
        ∀ write, operation.stagedWrites.head? = some write →
          write.outputRef ∉ m.transaction.stagedWriteSet)
      (fun _ m' => Runs m m' ∧ ∃ failure, m'.transaction.state = .failed failure) m := by
  rw [wp_dispatchOperation, wp_runOrFail]
  refine wp_faulty_runOperation ?_ ?_
  · intro error f'
    obtain ⟨hruns, hfailed⟩ := h.failed hstate (.backend error) f'
    exact ⟨hruns, _, hfailed⟩
  · intro f'
    have hran : Mirrors (⟨m.transaction, (m.fake.ran operation, f')⟩ : FaultyMachine φ) :=
      ⟨h.held, h.staged, h.inside, h.unpublished, h.once, h.clean⟩
    refine Call.wp_mono (stageWrites_mirrored hran hstate fun write hwrite =>
      hinside _ (partition_of_mem_stagedWrites hwrite)) ?_
      (fun _ _ hfailed => ⟨⟨hfailed.1.mirrors, hfailed.1.plan⟩, hfailed.2⟩)
    rintro _ t ⟨hruns, htstate, hstaged, hnew⟩
    refine ⟨fun _ => trivial, fun bytes _ => ?_⟩
    have ht := hruns.mirrors
    have hrecorded : Mirrors (⟨t.transaction.recordExecuted operation bytes, t.backend⟩ :
        FaultyMachine φ) := ⟨ht.held, ht.staged, ht.inside, ht.unpublished, ht.once, ht.clean⟩
    refine Call.wp_mono (joinEvents_mirrored hrecorded) ?_ (fun _ _ h => h)
    rintro _ m' ⟨hruns', hstate', hstaged'⟩
    refine ⟨⟨hruns'.mirrors, ?_⟩, hstate'.trans htstate, hstaged'.trans hstaged, hnew⟩
    exact hruns.plan.trans ((samePlan_recordExecuted _ _ _).trans hruns'.plan)

end Running

/-! ## Releasing and retiring -/

/-- What giving partitions back does: their reservations are gone, and nothing
    else of the machine but staged writes changes. -/
structure GivenBack (m m' : FaultyMachine φ) (partitions : List LogicalPartitionId) : Prop where
  transaction : m'.transaction = m.transaction
  published : m'.fake.publishedWrites = m.fake.publishedWrites
  reservations : ∀ partition : LogicalPartitionId, m'.fake.reservations[partition]? =
    if partition ∈ partitions then none else m.fake.reservations[partition]?

theorem GivenBack.reservations_empty {m m' : FaultyMachine φ}
    {partitions : List LogicalPartitionId} (h : GivenBack m m' partitions)
    (hall : ∀ partition : LogicalPartitionId, partition ∈ m.fake.reservations →
      partition ∈ partitions) : m'.fake.reservations = ∅ := by
  apply eq_empty_of_forall_getElem?
  intro partition
  rw [h.reservations partition]
  split
  · rfl
  · next hnot =>
    cases hfound : m.fake.reservations[partition]? with
    | none => rfl
    | some record =>
      exact (hnot (hall partition ((mem_iff_getElem? _ _).mpr ⟨record, hfound⟩))).elim

theorem teardown_of_buildReceipt {tx : ExecutionTransaction} {receipt : TransactionReceipt}
    (h : tx.buildReceipt = some receipt) : receipt.teardown = tx.teardown := by
  obtain ⟨decision, -, rfl⟩ := Option.map_eq_some_iff.mp h
  rfl

/-- Teardown facts that start empty account for what is recorded in them. -/
theorem teardown_accounts {tx : ExecutionTransaction}
    {released retired reserved : BTreeSet LogicalPartitionId} (hclean : tx.teardown = .empty)
    (hdisjoint : ∀ partition, partition ∈ released → partition ∉ retired)
    (hall : ∀ partition, partition ∈ released ∨ partition ∈ retired ↔ partition ∈ reserved) :
    (tx.recordTeardown released retired).teardown.releasedPartitions ∩
        (tx.recordTeardown released retired).teardown.retiredPartitions = ∅ ∧
      (tx.recordTeardown released retired).teardown.releasedPartitions ∪
        (tx.recordTeardown released retired).teardown.retiredPartitions = reserved := by
  rw [ExecutionTransaction.recordTeardown_teardown_releasedPartitions,
    ExecutionTransaction.recordTeardown_teardown_retiredPartitions, hclean]
  refine ⟨Std.ExtTreeSet.ext_mem fun partition => ?_, Std.ExtTreeSet.ext_mem fun partition => ?_⟩
  · simpa [TeardownFacts.empty, Std.ExtTreeSet.mem_inter_iff, Std.ExtTreeSet.mem_union_iff]
      using hdisjoint partition
  · simpa [TeardownFacts.empty, Std.ExtTreeSet.mem_union_iff] using hall partition

theorem getElem?_erase_done {held : Reservation} {start : Reservation}
    {done : List LogicalPartitionId} {erased : LogicalPartitionId}
    (h : ∀ partition : LogicalPartitionId, held[partition]? =
      if partition ∈ done then none else start[partition]?) (partition : LogicalPartitionId) :
    (held.erase erased)[partition]? =
      if partition ∈ done ++ [erased] then none else start[partition]? := by
  rw [Std.ExtTreeMap.getElem?_erase, h partition]
  by_cases heq : partition = erased
  · simp [heq]
  · simp [heq, Ne.symm heq]

section GiveBack

variable {m : FaultyMachine φ}

theorem releaseAll_faulty {partitions : BTreeSet LogicalPartitionId}
    {E : ε → FaultyMachine φ → Prop} :
    (releaseAll (faultyFake T faults) partitions : Call (FaultyMachine φ) ε Unit).wp True
      (fun _ m' => GivenBack m m' partitions.toList ∧
        m'.fake.stagedWrites = m.fake.stagedWrites) E m := by
  refine Call.wp_forEach (fun done t => GivenBack m t done ∧
    t.fake.stagedWrites = m.fake.stagedWrites) ?_ ⟨⟨rfl, rfl, by simp⟩, rfl⟩
  rintro done partition _ t - ⟨hback, hstaged⟩
  rw [wp_useBackend, wp_faulty_release]
  exact ⟨⟨hback.transaction, hback.published, getElem?_erase_done hback.reservations⟩, hstaged⟩

theorem retireAll_faulty {partitions : List LogicalPartitionId} {failure : TransactionFailure}
    {E : ε → FaultyMachine φ → Prop} :
    (Call.forEach partitions (fun partition =>
      useBackend ((faultyFake T faults).retire partition failure)) :
      Call (FaultyMachine φ) ε Unit).wp True
      (fun _ m' => GivenBack m m' partitions ∧ ∀ (ref : OutputRef) (write : StagedWrite),
        m'.fake.stagedWrites[ref]? = some write →
          m.fake.stagedWrites[ref]? = some write ∧ write.partition ∉ partitions) E m := by
  refine Call.wp_forEach (fun done t => GivenBack m t done ∧
    ∀ (ref : OutputRef) (write : StagedWrite), t.fake.stagedWrites[ref]? = some write →
      m.fake.stagedWrites[ref]? = some write ∧ write.partition ∉ done) ?_
    ⟨⟨rfl, rfl, by simp⟩, by simp⟩
  rintro done partition _ t - ⟨hback, hstaged⟩
  rw [wp_useBackend]
  refine wp_faulty_retire fun b' hretired => ⟨⟨hback.transaction, ?_, ?_⟩, ?_⟩
  · exact hretired.publishedWrites.trans hback.published
  · intro other
    show b'.reservations[other]? = _
    rw [hretired.reservations]
    exact getElem?_erase_done hback.reservations other
  · intro ref write hwrite
    rw [show (⟨t.transaction, (b', t.backend.2)⟩ : FaultyMachine φ).fake.stagedWrites =
      b'.stagedWrites from rfl, hretired.stagedWrites, Std.ExtTreeMap.getElem?_filter',
      Option.filter_eq_some_iff] at hwrite
    obtain ⟨hfound, hother⟩ := hwrite
    obtain ⟨hstart, hdone⟩ := hstaged ref write hfound
    refine ⟨hstart, ?_⟩
    simpa [hdone] using hother

end GiveBack

/-! ## The invariant -/

/-- What a successful `prepare` has recorded, if there was one. -/
def RecordedByPrepare (T : Toolchain) (plan tx : ExecutionTransaction) : Prop :=
  tx.reservation = none ∨ ∃ bindings keys reservation,
    plan.boundPlan.bindings = some bindings ∧
      structuralGates bindings plan.operations plan.commitBoundary = some (.ok keys) ∧
      budgetGate T bindings plan.operations = some (.ok reservation) ∧
      tx.operationKeys = keys ∧ tx.reservation = some reservation ∧
      tx.declaredWriteSet = deriveDeclaredWriteSet plan.operations

/-- Nothing is held any more, and the receipt accounts for every partition once. -/
structure TornDown (m : FaultyMachine φ) : Prop where
  released : m.fake.reservations = ∅
  receipt : ∃ receipt, m.transaction.receipt = some receipt ∧
    receipt.teardown.releasedPartitions ∩ receipt.teardown.retiredPartitions = ∅ ∧
    receipt.teardown.releasedPartitions ∪ receipt.teardown.retiredPartitions =
      m.transaction.reservedPartitions

/-- What holds in each state of the run. -/
def TeardownHolds (plan : ExecutionTransaction) (m : FaultyMachine φ) : TransactionState → Prop
  | .new => Mirrors m ∧ m.transaction.reservation = none ∧ m.transaction.stagedWriteSet = ∅
  | .prepared =>
    Mirrors m ∧ m.transaction.reservation ≠ none ∧ m.transaction.stagedWriteSet = ∅
  | .executing =>
    Mirrors m ∧ m.transaction.reservation ≠ none ∧
      m.transaction.stagedWriteSet = deriveDeclaredWriteSet plan.operations
  | .failed _ => Mirrors m
  | .committed =>
    TornDown m ∧ m.fake.publishedWrites = deriveDeclaredWriteSet plan.operations ∧
      m.transaction.declaredWriteSet = deriveDeclaredWriteSet plan.operations
  | .aborted _ => TornDown m ∧ m.fake.stagedWrites = ∅ ∧ m.fake.publishedWrites = ∅

/-- The invariant of a run over the wrapped fake. -/
structure TeardownInvariant (T : Toolchain) (plan : ExecutionTransaction) (m : FaultyMachine φ) :
    Prop where
  operations : m.transaction.operations = plan.operations
  boundPlan : m.transaction.boundPlan = plan.boundPlan
  commitBoundary : m.transaction.commitBoundary = plan.commitBoundary
  recorded : RecordedByPrepare T plan m.transaction
  holds : TeardownHolds plan m m.transaction.state

theorem RecordedByPrepare.congr {plan tx tx' : ExecutionTransaction}
    (h : RecordedByPrepare T plan tx) (hsame : SamePlan tx tx') : RecordedByPrepare T plan tx' := by
  rcases h with hnone | ⟨bindings, keys, reservation, hb, hg, hr, hkeys, hreservation, hdeclared⟩
  · exact .inl (hsame.reservation.trans hnone)
  · exact .inr ⟨bindings, keys, reservation, hb, hg, hr, hsame.operationKeys.trans hkeys,
      hsame.reservation.trans hreservation, hsame.declaredWriteSet.trans hdeclared⟩

section Invariant

variable {plan : ExecutionTransaction} {m : FaultyMachine φ}

theorem TeardownInvariant.of_runs (h : TeardownInvariant T plan m) {m' : FaultyMachine φ}
    (hruns : Runs m m') (hholds : TeardownHolds plan m' m'.transaction.state) :
    TeardownInvariant T plan m' :=
  ⟨hruns.plan.operations.trans h.operations, hruns.plan.boundPlan.trans h.boundPlan,
    hruns.plan.commitBoundary.trans h.commitBoundary, h.recorded.congr hruns.plan, hholds⟩

theorem teardownInvariant_of_fresh (hfresh : plan.IsFresh) (auto : Bool) (f : φ) :
    TeardownInvariant T plan (⟨plan, (FakeExecutionBackend.new.setAutoComplete auto, f)⟩ :
      FaultyMachine φ) := by
  refine ⟨rfl, rfl, rfl, .inl hfresh.reservation, ?_⟩
  rw [hfresh.state]
  refine ⟨⟨?_, ?_, ?_, rfl, rfl, hfresh.teardown⟩, hfresh.reservation, hfresh.stagedWriteSet⟩
  · rw [hfresh.reservation]
    rfl
  · rw [hfresh.stagedWriteSet]
    rfl
  · simp [hfresh.stagedWriteSet]

/-- After `prepare` the reserved partitions are those the operations involve. -/
theorem RecordedByPrepare.prepared {tx : ExecutionTransaction} (h : RecordedByPrepare T plan tx)
    (hsome : tx.reservation ≠ none) :
    KeysIndex tx.operationKeys plan.operations ∧
      tx.declaredWriteSet = deriveDeclaredWriteSet plan.operations ∧
      ∀ operation ∈ plan.operations, ∀ partition ∈ operation.partitions,
        partition ∈ tx.reservedPartitions := by
  rcases h with hnone | ⟨bindings, keys, reservation, -, hgates, hbudget, rfl, hreservation,
    hdeclared⟩
  · exact (hsome hnone).elim
  · refine ⟨(structuralGates_ok hgates).keysIndex, hdeclared, ?_⟩
    intro operation hop partition hpartition
    obtain ⟨record, rfl, -⟩ := budgetGate_records hbudget
    rw [ExecutionTransaction.reservedPartitions, hreservation, Option.getD_some, mem_keySet,
      mem_mapOver, mem_referencedPartitions]
    exact ⟨operation, hop, hpartition⟩

/-! ## Each method keeps the invariant -/

theorem TeardownInvariant.prepare (h : TeardownInvariant T plan m) {elapsed : Nat} :
    (prepare T (faultyFake T faults) elapsed).wp True (fun _ => TeardownInvariant T plan)
      (fun _ => TeardownInvariant T plan) m := by
  by_cases hstate : m.transaction.state = .new
  · obtain ⟨bindings, hbindings⟩ := bindings_some m.transaction
    have hholds := h.holds
    rw [hstate] at hholds
    obtain ⟨hmirrors, hnone, hstaged⟩ := hholds
    rw [wp_prepare_new hstate hbindings, Call.wp_lift]
    refine ⟨fun _ => trivial, fun keys hgates => ?_, fun _ _ => h⟩
    rw [Call.wp_lift]
    refine ⟨fun _ => trivial, fun reservation hbudget => ?_, fun _ _ => h⟩
    have hfree : m.fake.reservations = ∅ := by rw [hmirrors.held, hnone]; rfl
    refine Call.wp_mono (Call.wp_of_total (holdReservation_granted (faultyFake_grants T faults)
      hfree)) ?_ (fun _ _ hfalse => hfalse.elim)
    rintro _ t rfl
    rw [h.boundPlan] at hbindings
    rw [h.operations] at hgates hbudget
    rw [h.commitBoundary] at hgates
    refine ⟨h.operations, h.boundPlan, h.commitBoundary, ?_, ?_, ?_, ?_⟩
    · exact .inr ⟨bindings, keys, reservation, hbindings, hgates, hbudget, rfl, rfl, by
        rw [← h.operations]; rfl⟩
    · refine ⟨rfl, hmirrors.staged, ?_, hmirrors.unpublished, hmirrors.once, hmirrors.clean⟩
      intro ref write hwrite
      rw [ExecutionTransaction.recordPrepared_stagedWriteSet, hstaged] at hwrite
      simp at hwrite
    · simp
    · exact hstaged
  · rw [wp_prepare_other hstate]
    exact h

theorem TeardownInvariant.execute (h : TeardownInvariant T plan m) {elapsed : Nat} :
    (execute T (faultyFake T faults) elapsed).wp True (fun _ => TeardownInvariant T plan)
      (fun _ => TeardownInvariant T plan) m := by
  by_cases hstate : m.transaction.state = .prepared
  · have hholds := h.holds
    rw [hstate] at hholds
    obtain ⟨hmirrors, hsome, hstaged⟩ := hholds
    obtain ⟨hkeys, -, hinside⟩ := h.recorded.prepared hsome
    rw [← h.operations] at hkeys
    have hstart : Mirrors (⟨m.transaction.startExecuting, m.backend⟩ : FaultyMachine φ) :=
      ⟨hmirrors.held, hmirrors.staged, hmirrors.inside, hmirrors.unpublished, hmirrors.once,
        hmirrors.clean⟩
    have hended (t : FaultyMachine φ)
        (ht : Runs (⟨m.transaction.startExecuting, m.backend⟩ : FaultyMachine φ) t) :
        Runs m ⟨t.transaction.recordExecuteTime elapsed, t.backend⟩ :=
      ⟨⟨ht.mirrors.held, ht.mirrors.staged, ht.mirrors.inside, ht.mirrors.unpublished,
        ht.mirrors.once, ht.mirrors.clean⟩, ⟨ht.plan.operations, ht.plan.boundPlan,
        ht.plan.commitBoundary, ht.plan.operationKeys, ht.plan.reservation,
        ht.plan.declaredWriteSet⟩⟩
    rw [wp_execute_prepared hstate]
    refine Call.wp_mono (Call.wp_forEach (E := fun _ t =>
      Runs (⟨m.transaction.startExecuting, m.backend⟩ : FaultyMachine φ) t ∧
        ∃ failure, t.transaction.state = .failed failure) (fun done t =>
      Runs (⟨m.transaction.startExecuting, m.backend⟩ : FaultyMachine φ) t ∧
        t.transaction.state = .executing ∧
        t.transaction.stagedWriteSet = addWrites ∅ (done.flatMap (·.stagedWrites))) ?_
      ⟨⟨hstart, .refl _⟩, rfl, hstaged⟩) ?_ ?_
    · rintro done operation rest t hl ⟨hruns, htstate, htstaged⟩
      have hmem : operation ∈ m.transaction.operations := hl ▸ by simp
      have htmem : operation ∈ t.transaction.operations := by
        rw [hruns.plan.operations]
        exact hmem
      have htkeys : KeysIndex t.transaction.operationKeys t.transaction.operations := by
        rw [hruns.plan.operationKeys, hruns.plan.operations]
        exact hkeys
      rw [wp_executeOperation_member htstate htkeys htmem]
      refine Call.wp_mono (dispatchOperation_mirrored hruns.mirrors htstate ?_) ?_ ?_
      · intro partition hpartition
        rw [hruns.plan.reservedPartitions]
        exact hinside operation (h.operations ▸ hmem) partition hpartition
      · rintro _ t' ⟨hruns', hstate', hstaged', -⟩
        refine ⟨hruns.trans hruns', hstate', ?_⟩
        rw [hstaged', htstaged, addWrites, addWrites, ← List.foldl_append, List.flatMap_append,
          List.flatMap_singleton, addWrites]
      · rintro _ t' ⟨hruns', hfailed⟩
        exact ⟨hruns.trans hruns', hfailed⟩
    · rintro _ t ⟨hruns, htstate, htstaged⟩
      have hall := hended t hruns
      refine h.of_runs hall ?_
      rw [ExecutionTransaction.recordExecuteTime_state, htstate]
      refine ⟨hall.mirrors, ?_, ?_⟩
      · rw [hall.plan.reservation]
        exact hsome
      · rw [h.operations] at htstaged
        exact htstaged
    · rintro _ t ⟨hruns, failure, hfailed⟩
      have hall := hended t hruns
      refine h.of_runs hall ?_
      rw [ExecutionTransaction.recordExecuteTime_state, hfailed]
      exact hall.mirrors
  · rw [wp_execute_other hstate]
    exact h

theorem mem_declared {operation : TransactionOperation} (hop : operation ∈ plan.operations)
    {write : StagedWrite} (hwrite : write ∈ operation.stagedWrites) :
    write.outputRef ∈ deriveDeclaredWriteSet plan.operations := by
  have hlisted : write.outputRef ∈ ((plan.operations.flatMap (·.stagedWrites)).map
      (fun w => (w.outputRef, w))).map Prod.fst := by
    rw [List.map_map]
    exact List.mem_map.mpr ⟨write, List.mem_flatMap.mpr ⟨operation, hop, hwrite⟩, rfl⟩
  have hinserted :=
    (mem_foldl_insert_iff (m := (∅ : BTreeMap OutputRef StagedWrite))).mpr (.inl hlisted)
  rw [List.foldl_map] at hinserted
  exact hinserted

/-- Running a member again stages nothing new: it fails at its first write, or has
    none. -/
theorem TeardownInvariant.executeOperation (h : TeardownInvariant T plan m)
    {operation : TransactionOperation} :
    (executeOperation T (faultyFake T faults) operation).wp True
      (fun _ => TeardownInvariant T plan) (fun _ => TeardownInvariant T plan) m := by
  by_cases hstate : m.transaction.state = .executing
  · have hholds := h.holds
    rw [hstate] at hholds
    obtain ⟨hmirrors, hsome, hstaged⟩ := hholds
    obtain ⟨hkeys, -, hinside⟩ := h.recorded.prepared hsome
    rw [← h.operations] at hkeys
    by_cases hmem : operation ∈ m.transaction.operations
    · rw [wp_executeOperation_member hstate hkeys hmem]
      have hplan : operation ∈ plan.operations := h.operations ▸ hmem
      refine Call.wp_mono (dispatchOperation_mirrored hmirrors hstate
        (hinside operation hplan)) ?_ ?_
      · rintro _ t ⟨hruns, htstate, htstaged, hnew⟩
        have hnone : operation.stagedWrites = [] := by
          cases hwrites : operation.stagedWrites with
          | nil => rfl
          | cons write rest =>
            refine (hnew write (by rw [hwrites]; rfl) ?_).elim
            rw [hstaged]
            exact mem_declared hplan (hwrites ▸ by simp)
        refine h.of_runs hruns ?_
        rw [htstate]
        refine ⟨hruns.mirrors, ?_, ?_⟩
        · rw [hruns.plan.reservation]
          exact hsome
        · rw [htstaged, hnone, hstaged]
          rfl
      · rintro _ t ⟨hruns, failure, hfailed⟩
        refine h.of_runs hruns ?_
        rw [hfailed]
        exact hruns.mirrors
    · rw [wp_executeOperation_outside hstate hkeys hmem]
      exact h
  · rw [wp_executeOperation_other hstate]
    exact h

theorem releaseCommitted_mirrored {ordinal : PublicationOrdinal} {elapsed : Nat}
    {E : CommitError → FaultyMachine φ → Prop} (hclean : m.transaction.teardown = .empty)
    (hheld : ∀ partition ∈ m.fake.reservations,
      partition ∈ m.transaction.reservedPartitions) :
    (releaseCommitted (faultyFake T faults) ordinal elapsed).wp True
      (fun _ m' => SamePlan m.transaction m'.transaction ∧ m'.transaction.state = .committed ∧
        TornDown m' ∧ m'.fake.publishedWrites = m.fake.publishedWrites) E m := by
  rw [wp_releaseCommitted]
  refine Call.wp_mono releaseAll_faulty ?_ (fun _ _ h => h)
  rintro _ ⟨utx, ub⟩ ⟨hback, -⟩
  obtain rfl : utx = m.transaction := hback.transaction
  rw [wp_finalize]
  intro receipt hreceipt
  refine ⟨?_, ?_, ⟨?_, receipt, ?_, ?_⟩, hback.published⟩
  · constructor <;> simp
  · simp
  · refine hback.reservations_empty ?_
    intro partition hpartition
    exact Std.ExtTreeSet.mem_toList.mpr (hheld partition hpartition)
  · simp
  · rw [teardown_of_buildReceipt hreceipt]
    refine teardown_accounts hclean (by simp) ?_
    intro partition
    exact ⟨fun h => h.elim id (fun hnone => by simp at hnone), .inl⟩

theorem TeardownInvariant.commit (h : TeardownInvariant T plan m) {ordinal : PublicationOrdinal}
    {elapsed : Nat} :
    (commit T (faultyFake T faults) ordinal elapsed).wp True (fun _ => TeardownInvariant T plan)
      (fun _ => TeardownInvariant T plan) m := by
  by_cases hstate : m.transaction.state = .executing
  · have hholds := h.holds
    rw [hstate] at hholds
    obtain ⟨hmirrors, hsome, hstaged⟩ := hholds
    rw [wp_commit_executing hstate, wp_refreshCompletedEvents]
    refine Call.wp_mono (joinEvents_mirrored hmirrors) ?_ (fun _ _ h => h)
    rintro _ t ⟨hruns, htstate, htstaged⟩
    rw [hstate] at htstate
    have htsome : t.transaction.reservation ≠ none := by
      rw [hruns.plan.reservation]
      exact hsome
    have ht : TeardownInvariant T plan t := by
      refine h.of_runs hruns ?_
      rw [htstate]
      exact ⟨hruns.mirrors, htsome, htstaged.trans hstaged⟩
    refine ⟨fun _ => ht, fun _ => ?_⟩
    refine wp_faulty_publish hruns.mirrors.once ?_ ?_
    · intro error f'
      obtain ⟨hfailed, hfailedState⟩ :=
        hruns.mirrors.failed htstate (.publishFailed (error.debug T)) f'
      refine ht.of_runs hfailed ?_
      rw [hfailedState]
      exact hfailed.mirrors
    · intro f'
      refine Call.wp_mono (releaseCommitted_mirrored hruns.mirrors.clean ?_) ?_ (fun _ _ h => h)
      · intro partition hpartition
        rw [ExecutionTransaction.reservedPartitions, mem_keySet]
        exact hruns.mirrors.held ▸ hpartition
      · rintro _ m' ⟨hsame, hcommitted, hdown, hpublished⟩
        refine ⟨hsame.operations.trans ht.operations, hsame.boundPlan.trans ht.boundPlan,
          hsame.commitBoundary.trans ht.commitBoundary, ht.recorded.congr hsame, ?_⟩
        rw [hcommitted]
        refine ⟨hdown, ?_, hsame.declaredWriteSet.trans (ht.recorded.prepared htsome).2.1⟩
        exact hpublished.trans (hruns.mirrors.staged.trans (htstaged.trans hstaged))
  · rw [wp_commit_other hstate]
    exact h

/-- Aborting gives back every reserved partition and empties the staged writes. -/
theorem abort_mirrored {reason : String} {elapsed : Nat} {E : AbortError → FaultyMachine φ → Prop}
    (hmirrors : Mirrors m) (hlive : ¬ m.transaction.state.Terminal) :
    (abort (faultyFake T faults) reason elapsed).wp True
      (fun _ m' => SamePlan m.transaction m'.transaction ∧
        (∃ failure, m'.transaction.state = .aborted failure) ∧ TornDown m' ∧
        m'.fake.stagedWrites = ∅ ∧ m'.fake.publishedWrites = ∅) E m := by
  rw [wp_abort_live hlive, wp_teardownAborted]
  refine Call.wp_mono retireAll_faulty ?_ (fun _ _ h => h)
  rintro _ ⟨ttx, tb⟩ ⟨hretired, hremain⟩
  obtain rfl : ttx = m.transaction := hretired.transaction
  refine Call.wp_mono releaseAll_faulty ?_ (fun _ _ h => h)
  rintro _ ⟨utx, ub⟩ ⟨hreleased, hstaged⟩
  obtain rfl : utx = m.transaction := hreleased.transaction
  rw [wp_finalize]
  intro receipt hreceipt
  have hinside : ∀ partition ∈ m.transaction.stagedPartitions,
      partition ∈ m.transaction.reservedPartitions := by
    intro partition hpartition
    obtain ⟨⟨ref, write⟩, hwrite, rfl⟩ := List.mem_map.mp ((mem_setOf _ _).mp hpartition)
    exact hmirrors.inside ref write (Std.ExtTreeMap.mem_toList_iff_getElem?_eq_some.mp hwrite)
  refine ⟨?_, ⟨abortFailure m.transaction.state reason, ?_⟩, ⟨?_, receipt, ?_, ?_⟩, ?_, ?_⟩
  · constructor <;> simp
  · simp
  · refine hreleased.reservations_empty ?_
    intro partition hheld
    obtain ⟨record, hfound⟩ := (mem_iff_getElem? _ _).mp hheld
    rw [hretired.reservations partition] at hfound
    split at hfound
    · cases hfound
    · next hunstaged =>
      have hreserved : partition ∈ m.transaction.reservedPartitions := by
        rw [ExecutionTransaction.reservedPartitions, mem_keySet, mem_iff_getElem?]
        exact ⟨record, hmirrors.held ▸ hfound⟩
      simpa [hreserved] using hunstaged
  · simp
  · rw [teardown_of_buildReceipt hreceipt]
    refine teardown_accounts hmirrors.clean ?_ ?_
    · intro partition hpartition
      exact ((Std.ExtTreeSet.mem_diff_iff).mp hpartition).2
    · intro partition
      rw [Std.ExtTreeSet.mem_diff_iff]
      have := hinside partition
      tauto
  · refine hstaged.trans (eq_empty_of_forall_getElem? fun ref => ?_)
    cases hfound : Machine.fake ⟨m.transaction, tb⟩ |>.stagedWrites[ref]? with
    | none => rfl
    | some write =>
      obtain ⟨hstart, hother⟩ := hremain ref write hfound
      refine (hother ?_).elim
      rw [Std.ExtTreeSet.mem_toList, ExecutionTransaction.stagedPartitions, mem_setOf]
      refine List.mem_map.mpr ⟨(ref, write), ?_, rfl⟩
      rw [Std.ExtTreeMap.mem_toList_iff_getElem?_eq_some, ← hmirrors.staged]
      exact hstart
  · exact (hreleased.published.trans hretired.published).trans hmirrors.unpublished

theorem TeardownInvariant.live (h : TeardownInvariant T plan m)
    (hlive : ¬ m.transaction.state.Terminal) : Mirrors m := by
  have hholds := h.holds
  cases found : m.transaction.state with
  | new | prepared | executing =>
    rw [found] at hholds
    exact hholds.1
  | failed failure =>
    rw [found] at hholds
    exact hholds
  | committed | aborted _ =>
    rw [found] at hlive
    exact (hlive trivial).elim

theorem TeardownInvariant.abort (h : TeardownInvariant T plan m) {reason : String}
    {elapsed : Nat} :
    (abort (faultyFake T faults) reason elapsed).wp True (fun _ => TeardownInvariant T plan)
      (fun _ => TeardownInvariant T plan) m := by
  by_cases hterminal : m.transaction.state.Terminal
  · exact wp_abort_terminal hterminal h
  · refine Call.wp_mono (abort_mirrored (E := fun _ => TeardownInvariant T plan)
      (h.live hterminal) hterminal) ?_ (fun _ _ h => h)
    rintro _ m' ⟨hplan, ⟨failure, hstate⟩, htorn, hstaged, hpublished⟩
    refine ⟨hplan.operations.trans h.operations, hplan.boundPlan.trans h.boundPlan,
      hplan.commitBoundary.trans h.commitBoundary, h.recorded.congr hplan, ?_⟩
    rw [hstate]
    exact ⟨htorn, hstaged, hpublished⟩

theorem TeardownInvariant.step {m' : FaultyMachine φ} {call : TransactionCall}
    (h : TeardownInvariant T plan m) (hstep : perform T (faultyFake T faults) m call = some m') :
    TeardownInvariant T plan m' :=
  perform_spec (fun _ _ => h.prepare) (fun _ _ => h.execute) (fun _ _ => h.executeOperation)
    (fun _ _ _ => h.commit) (fun _ _ _ => h.abort) hstep

end Invariant

/-- A run over the wrapped fake that ends in `Committed` or `Aborted` leaves nothing
    held, accounts for every reserved partition once, and publishes all declared
    writes or none. -/
theorem teardown_complete {id : TransactionId} {bound : BoundDistributedPlan}
    {given : List TransactionOperation} {boundary : TransactionCommitBoundary}
    {tx : ExecutionTransaction} {auto : Bool} {f : φ} {calls : List TransactionCall}
    {m : FaultyMachine φ} (hnew : ExecutionTransaction.new id bound given boundary = .ok tx)
    (hrun : runSteps (perform T (faultyFake T faults))
      ⟨tx, (FakeExecutionBackend.new.setAutoComplete auto, f)⟩ calls = some m)
    (hterminal : m.transaction.state.Terminal) :
    TornDown m ∧ RecordedByPrepare T tx m.transaction ∧
      (∀ failure, m.transaction.state = .aborted failure →
        m.fake.stagedWrites = ∅ ∧ m.fake.publishedWrites = ∅) ∧
      (m.transaction.state = .committed →
        m.fake.publishedWrites = m.transaction.declaredWriteSet) := by
  have hinv : TeardownInvariant T tx m :=
    runSteps_preserves (fun _ _ _ h hstep => h.step hstep)
      (teardownInvariant_of_fresh (ExecutionTransaction.new_ok hnew).2.2.2 auto f) hrun
  have hholds := hinv.holds
  cases found : m.transaction.state with
  | committed =>
    rw [found] at hholds
    obtain ⟨htorn, hpublished, hdeclared⟩ := hholds
    exact ⟨htorn, hinv.recorded, nofun, fun _ => hpublished.trans hdeclared.symm⟩
  | aborted failure =>
    rw [found] at hholds
    obtain ⟨htorn, hstaged, hpublished⟩ := hholds
    exact ⟨htorn, hinv.recorded, fun _ _ => ⟨hstaged, hpublished⟩, nofun⟩
  | new | prepared | executing | failed _ =>
    rw [found] at hterminal
    exact hterminal.elim

/-- The barrier of the plan fails. -/
def failingBarrier : FaultInjection Unit where
  operationFault _ operation :=
    (if operation.isBarrier ⟨"barrier-main"⟩ then some (.operation ⟨"partition-0"⟩ "injected")
      else none, ())
  publishFault _ := (none, ())

theorem faulted_run_torn_down : ∃ tx m failure,
    TwoPartitions.transaction .dev TwoPartitions.ledgers TwoPartitions.operations
        TwoPartitions.boundary = some tx ∧
      runSteps (perform .dev (faultyFake .dev failingBarrier))
        ⟨tx, (FakeExecutionBackend.new.setAutoComplete true, ())⟩
        [.prepare 0, .execute 0, .abort "cancelled" 0] = some m ∧
      m.transaction.state = .aborted failure ∧ TornDown m := by
  have hruns : (TwoPartitions.transaction .dev TwoPartitions.ledgers TwoPartitions.operations
      TwoPartitions.boundary).any (fun tx =>
        (runSteps (perform .dev (faultyFake .dev failingBarrier))
          ⟨tx, (FakeExecutionBackend.new.setAutoComplete true, ())⟩
          [.prepare 0, .execute 0, .abort "cancelled" 0]).any (fun m =>
            match m.transaction.state with
            | .aborted _ => true
            | _ => false)) = true := by decide +kernel
  obtain ⟨tx, htx, hsome⟩ := (Option.any_eq_true _ _).mp hruns
  obtain ⟨m, hm, hstate⟩ := (Option.any_eq_true _ _).mp hsome
  obtain ⟨bound, hnew⟩ := TwoPartitions.new_of_transaction htx
  cases found : m.transaction.state with
  | aborted failure =>
    exact ⟨tx, m, failure, htx, hm, found,
      (teardown_complete hnew hm (by rw [found]; trivial)).1⟩
  | new | prepared | executing | failed _ | committed => simp [found] at hstate

end FaberHosts.Transaction
