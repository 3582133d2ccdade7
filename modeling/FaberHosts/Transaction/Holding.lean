import FaberHosts.Transaction.Teardown

/-!
# What a backend keeps while partitions are reserved

A condition on the reservation still held and the backend's state, kept by every method of the
backend, is kept by every run: it holds of what `prepare` recorded until the transaction ends, and
of nothing held after that.
-/

namespace FaberHosts.Transaction
open FaberHosts.Lib FaberHosts.Coordinator Machine

variable {β ε : Type} {T : Toolchain} {B : DeviceExecutionBackend β}

/-! ## Giving partitions back -/

/-- What is held once some partitions were given back. -/
def withoutAll (held : Reservation) (partitions : List LogicalPartitionId) : Reservation :=
  partitions.foldl (fun held partition => held.erase partition) held

theorem withoutAll_append (held : Reservation) (first rest : List LogicalPartitionId) :
    withoutAll held (first ++ rest) = withoutAll (withoutAll held first) rest :=
  List.foldl_append

theorem getElem?_withoutAll {held : Reservation} {partitions : List LogicalPartitionId}
    {partition : LogicalPartitionId} :
    (withoutAll held partitions)[partition]? =
      if partition ∈ partitions then none else held[partition]? := by
  induction partitions generalizing held with
  | nil => simp [withoutAll]
  | cons first rest ih =>
    show (withoutAll (held.erase first) rest)[partition]? = _
    rw [ih, Std.ExtTreeMap.getElem?_erase]
    by_cases heq : partition = first
    · simp [heq]
    · simp [heq, Ne.symm heq]

theorem withoutAll_eq_empty {held : Reservation} {partitions : List LogicalPartitionId}
    (hall : ∀ partition ∈ held, partition ∈ partitions) : withoutAll held partitions = ∅ := by
  apply eq_empty_of_forall_getElem?
  intro partition
  rw [getElem?_withoutAll]
  split
  · rfl
  · next hother =>
    cases hfound : held[partition]? with
    | none => rfl
    | some record =>
      exact (hother (hall partition ((mem_iff_getElem? _ _).mpr ⟨record, hfound⟩))).elim

/-! ## Conditions a backend keeps -/

/-- The methods keep `I` of the reservation held; the operations to run are `runnable`. -/
structure KeepsHeld (B : DeviceExecutionBackend β)
    (runnable : Reservation → TransactionOperation → Prop) (I : Reservation → β → Prop) :
    Prop where
  runOperation : ∀ {held operation b}, runnable held operation → I held b →
    (B.runOperation operation).wp True (fun _ => I held) (fun _ => I held) b
  eventCompleted : ∀ {held event b}, I held b →
    (B.eventCompleted event).wp True (fun _ => I held) (fun _ _ => False) b
  stageWrite : ∀ {held write b}, I held b →
    (B.stageWrite write).wp True (fun _ => I held) (fun _ => I held) b
  publish : ∀ {held b}, I held b → B.publish.wp True (fun _ => I held) (fun _ => I held) b
  release : ∀ {held partition b}, I held b →
    (B.release partition).wp True (fun _ => I (held.erase partition)) (fun _ _ => False) b
  retire : ∀ {held partition failure b}, I held b →
    (B.retire partition failure).wp True (fun _ => I (held.erase partition)) (fun _ _ => False) b

/-- The reservation `prepare` derives, when its budgets admit it. -/
def derivedReservation (T : Toolchain) (tx : ExecutionTransaction) : Option Reservation :=
  (tx.boundPlan.bindings.bind (fun bindings => budgetGate T bindings tx.operations)).bind
    Except.toOption

/-- A reservation is only made in a state that is ready for it. -/
def PreparesReady (T : Toolchain) (ready : β → Reservation → Prop) (m : Machine β) :
    TransactionCall → Prop
  | .prepare _ => m.transaction.state = .new →
    ∀ reservation, derivedReservation T m.transaction = some reservation →
      ready m.backend reservation
  | .execute _ | .executeOperation _ | .commit _ _ | .abort _ _ => True

instance {ready : β → Reservation → Prop} [∀ b reservation, Decidable (ready b reservation)]
    (m : Machine β) (call : TransactionCall) : Decidable (PreparesReady T ready m call) := by
  cases call <;> unfold PreparesReady <;> infer_instance

/-! ## While operations run -/

variable {I : Reservation → β → Prop} {N : β → Prop}
  {runnable : Reservation → TransactionOperation → Prop}

/-- The transaction has recorded this reservation, and the backend keeps `I` of it. -/
structure Holds (I : Reservation → β → Prop) (held : Reservation) (m : Machine β) : Prop where
  reservation : m.transaction.reservation = some held
  inside : ∀ (ref : OutputRef) (write : StagedWrite),
    m.transaction.stagedWriteSet[ref]? = some write → write.partition ∈ held
  kept : I held m.backend

/-- A stretch of a run under one reservation. -/
structure HoldsOn (I : Reservation → β → Prop) (held : Reservation) (m m' : Machine β) :
    Prop where
  holds : Holds I held m'
  plan : SamePlan m.transaction m'.transaction

theorem HoldsOn.trans {held : Reservation} {m m' m'' : Machine β} (h : HoldsOn I held m m')
    (h' : HoldsOn I held m' m'') : HoldsOn I held m m'' :=
  ⟨h'.holds, h.plan.trans h'.plan⟩

section Running

variable {held : Reservation} {m : Machine β}

theorem Holds.failed (h : Holds I held m) (hstate : m.transaction.state = .executing)
    (failure : TransactionFailure) {b : β} (hb : I held b) :
    HoldsOn I held m ⟨m.transaction.fail failure, b⟩ ∧
      (m.transaction.fail failure).state = .failed failure := by
  rw [ExecutionTransaction.fail_of_executing hstate]
  exact ⟨⟨⟨h.reservation, h.inside, hb⟩, ⟨rfl, rfl, rfl, rfl, rfl, rfl⟩⟩, rfl⟩

theorem stageWrites_held (hB : KeepsHeld B runnable I) {writes : List StagedWrite}
    (h : Holds I held m) (hstate : m.transaction.state = .executing)
    (hinside : ∀ write ∈ writes, write.partition ∈ held) :
    (Call.forEach writes (stageDeclared B)).wp True
      (fun _ m' => HoldsOn I held m m' ∧ m'.transaction.state = .executing)
      (fun _ m' => HoldsOn I held m m' ∧ ∃ failure, m'.transaction.state = .failed failure)
      m := by
  refine Call.wp_forEach (fun _ t => HoldsOn I held m t ∧ t.transaction.state = .executing) ?_
    ⟨⟨h, .refl _⟩, hstate⟩
  intro done write rest t hwrites ht
  have hwrite : write.partition ∈ held := hinside write (by simp [hwrites])
  rw [wp_stageDeclared]
  refine Call.wp_mono (hB.stageWrite ht.1.holds.kept) ?_ ?_
  · intro _ b hb
    refine ⟨ht.1.trans ⟨⟨ht.1.holds.reservation, ?_, hb⟩, ⟨rfl, rfl, rfl, rfl, rfl, rfl⟩⟩, ht.2⟩
    intro ref found hfound
    rw [ExecutionTransaction.stage_stagedWriteSet, Std.ExtTreeMap.getElem?_insert] at hfound
    split at hfound
    · cases hfound
      exact hwrite
    · exact ht.1.holds.inside ref found hfound
  · intro error b hb
    have hfailed := ht.1.holds.failed ht.2 (.backend error) hb
    exact ⟨ht.1.trans hfailed.1, _, hfailed.2⟩

theorem joinEvents_held (hB : KeepsHeld B runnable I) {events : List OperationEvent}
    {E : ε → Machine β → Prop} (h : Holds I held m) :
    (Call.forEach events (joinEvent B) : Call (Machine β) ε Unit).wp True
      (fun _ m' => HoldsOn I held m m' ∧ m'.transaction.state = m.transaction.state) E m := by
  refine Call.wp_forEach (fun _ t => HoldsOn I held m t ∧
    t.transaction.state = m.transaction.state) ?_ ⟨⟨h, .refl _⟩, rfl⟩
  intro done event rest t _ ht
  rw [wp_joinEvent]
  refine Call.wp_mono (hB.eventCompleted ht.1.holds.kept) ?_ (fun e _ _ => e.elim)
  intro completed b hb
  exact ⟨ht.1.trans ⟨⟨ht.1.holds.reservation, ht.1.holds.inside, hb⟩,
    ⟨rfl, rfl, rfl, rfl, rfl, rfl⟩⟩, ht.2⟩

/-- One operation keeps the condition, whether or not it fails the transaction. -/
theorem dispatchOperation_held (hB : KeepsHeld B runnable I) {operation : TransactionOperation}
    (h : Holds I held m) (hstate : m.transaction.state = .executing)
    (hrunnable : runnable held operation)
    (hinside : ∀ partition ∈ operation.partitions, partition ∈ held) :
    (dispatchOperation T B operation).wp True
      (fun _ m' => HoldsOn I held m m' ∧ m'.transaction.state = .executing)
      (fun _ m' => HoldsOn I held m m' ∧ ∃ failure, m'.transaction.state = .failed failure)
      m := by
  rw [wp_dispatchOperation, wp_runOrFail]
  refine Call.wp_mono (hB.runOperation hrunnable h.kept) ?_ ?_
  · intro _ b hb
    have hran : HoldsOn I held m ⟨m.transaction, b⟩ :=
      ⟨⟨h.reservation, h.inside, hb⟩, .refl _⟩
    refine Call.wp_mono (stageWrites_held hB hran.holds hstate (fun write hwrite =>
      hinside _ (partition_of_mem_stagedWrites hwrite))) ?_ ?_
    · intro _ t ht
      refine ⟨fun _ => trivial, fun bytes _ => ?_⟩
      have hrecorded : HoldsOn I held t
          ⟨t.transaction.recordExecuted operation bytes, t.backend⟩ :=
        ⟨⟨ht.1.holds.reservation, ht.1.holds.inside, ht.1.holds.kept⟩,
          samePlan_recordExecuted _ _ _⟩
      refine Call.wp_mono (joinEvents_held hB hrecorded.holds) ?_ (fun _ _ he => he)
      intro _ u hu
      exact ⟨(hran.trans ht.1).trans (hrecorded.trans hu.1), hu.2.trans ht.2⟩
    · intro _ t ht
      exact ⟨hran.trans ht.1, ht.2⟩
  · intro error b hb
    have hfailed := h.failed hstate (.backend error) hb
    exact ⟨hfailed.1, _, hfailed.2⟩

theorem releaseAll_held (hB : KeepsHeld B runnable I) {partitions : BTreeSet LogicalPartitionId}
    {E : ε → Machine β → Prop} (h : I held m.backend) :
    (releaseAll B partitions : Call (Machine β) ε Unit).wp True
      (fun _ m' => I (withoutAll held partitions.toList) m'.backend ∧
        m'.transaction = m.transaction) E m := by
  refine Call.wp_forEach (fun done (t : Machine β) => I (withoutAll held done) t.backend ∧
    t.transaction = m.transaction) ?_ ⟨h, rfl⟩
  intro done partition rest t _ ht
  rw [wp_useBackend]
  refine Call.wp_mono (hB.release ht.1) ?_ (fun e _ _ => e.elim)
  intro _ b hb
  rw [withoutAll_append]
  exact ⟨hb, ht.2⟩

theorem retireAll_held (hB : KeepsHeld B runnable I) {partitions : List LogicalPartitionId}
    {failure : TransactionFailure} {E : ε → Machine β → Prop} (h : I held m.backend) :
    (Call.forEach partitions (fun partition => useBackend (B.retire partition failure)) :
      Call (Machine β) ε Unit).wp True
      (fun _ m' => I (withoutAll held partitions) m'.backend ∧
        m'.transaction = m.transaction) E m := by
  refine Call.wp_forEach (fun done (t : Machine β) => I (withoutAll held done) t.backend ∧
    t.transaction = m.transaction) ?_ ⟨h, rfl⟩
  intro done partition rest t _ ht
  rw [wp_useBackend]
  refine Call.wp_mono (hB.retire ht.1) ?_ (fun e _ _ => e.elim)
  intro _ b hb
  rw [withoutAll_append]
  exact ⟨hb, ht.2⟩

theorem wp_holdReservations {panics : Prop}
    {entries : List (LogicalPartitionId × ReservationRecord)} {Q : Unit → Machine β → Prop}
    {E : PrepareError → Machine β → Prop} :
    (Call.forEach entries (holdReservation B)).wp panics Q E m ↔
      (Call.forEach entries (fun entry => B.reserve entry.1 entry.2)).wp panics
        (fun _ b => Q () { m with backend := b })
        (fun error b => E (.backend error) { m with backend := b }) m.backend := by
  induction entries generalizing m with
  | nil => rfl
  | cons entry rest ih =>
    simp only [Call.forEach, Call.wp_bind, wp_holdReservation]
    constructor
    · exact fun h => Call.wp_mono h (fun _ b hb => ih.mp hb) (fun _ _ he => he)
    · exact fun h => Call.wp_mono h (fun _ b hb => ih.mpr hb) (fun _ _ he => he)

end Running

/-! ## The invariant of a run -/

/-- What holds in each state: `N` before a reservation is made, `I` of what is held after. -/
def HeldAt (N : β → Prop) (I : Reservation → β → Prop) (m : Machine β) :
    TransactionState → Prop
  | .new => m.transaction.reservation = none ∧ m.transaction.stagedWriteSet = ∅ ∧ N m.backend
  | .prepared | .executing | .failed _ => ∃ held, Holds I held m
  | .committed => ∃ held, m.transaction.reservation = some held ∧ I ∅ m.backend
  | .aborted _ => (m.transaction.reservation = none ∧ N m.backend) ∨
      ∃ held, m.transaction.reservation = some held ∧ I ∅ m.backend

structure HoldInvariant (T : Toolchain) (N : β → Prop) (I : Reservation → β → Prop)
    (plan : ExecutionTransaction) (m : Machine β) : Prop where
  operations : m.transaction.operations = plan.operations
  boundPlan : m.transaction.boundPlan = plan.boundPlan
  commitBoundary : m.transaction.commitBoundary = plan.commitBoundary
  recorded : RecordedByPrepare T plan m.transaction
  holds : HeldAt N I m m.transaction.state

/-- The backend, its plan and the conditions fit together. -/
structure HoldsOver (T : Toolchain) (B : DeviceExecutionBackend β) (N : β → Prop)
    (I : Reservation → β → Prop) (runnable : Reservation → TransactionOperation → Prop)
    (ready : β → Reservation → Prop) (plan : ExecutionTransaction) : Prop where
  keeps : KeepsHeld B runnable I
  runs : ∀ {held : Reservation}, (∀ partition ∈ referencedPartitions plan.operations,
    partition ∈ held) → ∀ operation ∈ plan.operations, runnable held operation
  reserves : ∀ {reservation b}, derivedReservation T plan = some reservation →
    ready b reservation → N b →
    (Call.forEach reservation.toList (fun entry => B.reserve entry.1 entry.2)).wp True
      (fun _ => I reservation) (fun _ => N) b

section Invariant

variable {plan : ExecutionTransaction} {m : Machine β} {ready : β → Reservation → Prop}

theorem holdInvariant_of_fresh (hfresh : plan.IsFresh) {b : β} (hb : N b) :
    HoldInvariant T N I plan ⟨plan, b⟩ := by
  refine ⟨rfl, rfl, rfl, .inl hfresh.reservation, ?_⟩
  rw [hfresh.state]
  exact ⟨hfresh.reservation, hfresh.stagedWriteSet, hb⟩

theorem HoldInvariant.of_same (h : HoldInvariant T N I plan m) {m' : Machine β}
    (hplan : SamePlan m.transaction m'.transaction)
    (hholds : HeldAt N I m' m'.transaction.state) : HoldInvariant T N I plan m' :=
  ⟨hplan.operations.trans h.operations, hplan.boundPlan.trans h.boundPlan,
    hplan.commitBoundary.trans h.commitBoundary, h.recorded.congr hplan, hholds⟩

/-- While a reservation is recorded, its partitions are those of the operations. -/
theorem HoldInvariant.references (h : HoldInvariant T N I plan m) {held : Reservation}
    (hheld : m.transaction.reservation = some held) :
    KeysIndex m.transaction.operationKeys m.transaction.operations ∧
      ∀ partition ∈ referencedPartitions plan.operations, partition ∈ held := by
  obtain ⟨hkeys, -, hinside⟩ := h.recorded.prepared (by simp [hheld])
  rw [← h.operations] at hkeys
  refine ⟨hkeys, ?_⟩
  intro partition hpartition
  obtain ⟨operation, hop, hmem⟩ := mem_referencedPartitions.mp hpartition
  have hreserved := hinside operation hop partition hmem
  rwa [ExecutionTransaction.reservedPartitions, hheld, Option.getD_some, mem_keySet] at hreserved

theorem HoldInvariant.prepare (hover : HoldsOver T B N I runnable ready plan)
    (h : HoldInvariant T N I plan m) {elapsed : Nat}
    (hguard : PreparesReady T ready m (.prepare elapsed)) :
    (prepare T B elapsed).wp True (fun _ => HoldInvariant T N I plan)
      (fun _ => HoldInvariant T N I plan) m := by
  by_cases hstate : m.transaction.state = .new
  · obtain ⟨bindings, hbindings⟩ := bindings_some m.transaction
    have hholds := h.holds
    rw [hstate] at hholds
    obtain ⟨hnone, hstaged, hN⟩ := hholds
    rw [wp_prepare_new hstate hbindings, Call.wp_lift]
    refine ⟨fun _ => trivial, fun keys hgates => ?_, fun _ _ => h⟩
    rw [Call.wp_lift]
    refine ⟨fun _ => trivial, fun reservation hbudget => ?_, fun _ _ => h⟩
    have hderived : derivedReservation T m.transaction = some reservation := by
      simp [derivedReservation, hbindings, hbudget, Except.toOption]
    have hready := hguard hstate reservation hderived
    have hplan : derivedReservation T plan = some reservation := by
      rw [← hderived, derivedReservation, derivedReservation, h.boundPlan, h.operations]
    rw [wp_holdReservations]
    refine Call.wp_mono (hover.reserves hplan hready hN) ?_ ?_
    · intro _ b hb
      rw [h.boundPlan] at hbindings
      rw [h.operations] at hgates hbudget
      rw [h.commitBoundary] at hgates
      refine ⟨h.operations, h.boundPlan, h.commitBoundary, ?_, reservation, rfl, ?_, hb⟩
      · exact .inr ⟨bindings, keys, reservation, hbindings, hgates, hbudget, rfl, rfl, by
          rw [← h.operations]; rfl⟩
      · intro ref write hwrite
        rw [ExecutionTransaction.recordPrepared_stagedWriteSet, hstaged] at hwrite
        simp at hwrite
    · intro _ b hb
      refine ⟨h.operations, h.boundPlan, h.commitBoundary, h.recorded, ?_⟩
      show HeldAt N I ⟨m.transaction, b⟩ m.transaction.state
      rw [hstate]
      exact ⟨hnone, hstaged, hb⟩
  · rw [wp_prepare_other hstate]
    exact h

/-- A stretch that ends in `Executing` or `Failed` keeps the invariant. -/
theorem HoldInvariant.of_holdsOn (h : HoldInvariant T N I plan m) {held : Reservation}
    {m' : Machine β} (hc : HoldsOn I held m m')
    (hstate : m'.transaction.state = .executing ∨
      ∃ failure, m'.transaction.state = .failed failure) : HoldInvariant T N I plan m' := by
  refine h.of_same hc.plan ?_
  rcases hstate with hexecuting | ⟨failure, hfailed⟩
  · rw [hexecuting]
    exact ⟨held, hc.holds⟩
  · rw [hfailed]
    exact ⟨held, hc.holds⟩

theorem executeOperation_held (hover : HoldsOver T B N I runnable ready plan)
    (h : HoldInvariant T N I plan m) {held : Reservation} (hheld : Holds I held m)
    (hstate : m.transaction.state = .executing) {operation : TransactionOperation} :
    (executeOperation T B operation).wp True
      (fun _ m' => HoldsOn I held m m' ∧ m'.transaction.state = .executing)
      (fun _ m' => HoldsOn I held m m' ∧ (m'.transaction.state = .executing ∨
        ∃ failure, m'.transaction.state = .failed failure)) m := by
  obtain ⟨hkeys, hreferenced⟩ := h.references hheld.reservation
  by_cases hmem : operation ∈ m.transaction.operations
  · rw [wp_executeOperation_member hstate hkeys hmem]
    have hplan : operation ∈ plan.operations := h.operations ▸ hmem
    refine Call.wp_mono (dispatchOperation_held hover.keeps hheld hstate
      (hover.runs hreferenced operation hplan) ?_) (fun _ _ ht => ht) ?_
    · intro partition hpartition
      exact hreferenced partition (mem_referencedPartitions.mpr ⟨operation, hplan, hpartition⟩)
    · exact fun _ t ht => ⟨ht.1, .inr ht.2⟩
  · rw [wp_executeOperation_outside hstate hkeys hmem]
    exact ⟨⟨hheld, .refl _⟩, .inl hstate⟩

theorem HoldInvariant.executeOperation (hover : HoldsOver T B N I runnable ready plan)
    (h : HoldInvariant T N I plan m) {operation : TransactionOperation} :
    (executeOperation T B operation).wp True (fun _ => HoldInvariant T N I plan)
      (fun _ => HoldInvariant T N I plan) m := by
  by_cases hstate : m.transaction.state = .executing
  · have hholds := h.holds
    rw [hstate] at hholds
    obtain ⟨held, hheld⟩ := hholds
    refine Call.wp_mono (executeOperation_held hover h hheld hstate) ?_ ?_
    · exact fun _ t ht => h.of_holdsOn ht.1 (.inl ht.2)
    · exact fun _ t ht => h.of_holdsOn ht.1 ht.2
  · rw [wp_executeOperation_other hstate]
    exact h

theorem HoldInvariant.execute (hover : HoldsOver T B N I runnable ready plan)
    (h : HoldInvariant T N I plan m) {elapsed : Nat} :
    (execute T B elapsed).wp True (fun _ => HoldInvariant T N I plan)
      (fun _ => HoldInvariant T N I plan) m := by
  by_cases hstate : m.transaction.state = .prepared
  · have hholds := h.holds
    rw [hstate] at hholds
    obtain ⟨held, hheld⟩ := hholds
    have hstart : HoldsOn I held m ⟨m.transaction.startExecuting, m.backend⟩ :=
      ⟨⟨hheld.reservation, hheld.inside, hheld.kept⟩, ⟨rfl, rfl, rfl, rfl, rfl, rfl⟩⟩
    have htimed (t : Machine β) (ht : HoldsOn I held m t) :
        HoldsOn I held m ⟨t.transaction.recordExecuteTime elapsed, t.backend⟩ :=
      ht.trans ⟨⟨ht.holds.reservation, ht.holds.inside, ht.holds.kept⟩,
        ⟨rfl, rfl, rfl, rfl, rfl, rfl⟩⟩
    rw [wp_execute_prepared hstate]
    refine Call.wp_mono (Call.wp_forEach (E := fun _ t => HoldsOn I held m t ∧
        (t.transaction.state = .executing ∨ ∃ failure, t.transaction.state = .failed failure))
      (fun _ t => HoldsOn I held m t ∧ t.transaction.state = .executing) ?_
      ⟨hstart, rfl⟩) ?_ ?_
    · intro done operation rest t _ ht
      have hinv : HoldInvariant T N I plan t := h.of_holdsOn ht.1 (.inl ht.2)
      refine Call.wp_mono (executeOperation_held hover hinv ht.1.holds ht.2) ?_ ?_
      · exact fun _ u hu => ⟨ht.1.trans hu.1, hu.2⟩
      · exact fun _ u hu => ⟨ht.1.trans hu.1, hu.2⟩
    · exact fun _ t ht => h.of_holdsOn (htimed t ht.1) (.inl ht.2)
    · exact fun _ t ht => h.of_holdsOn (htimed t ht.1) ht.2
  · rw [wp_execute_other hstate]
    exact h

theorem HoldInvariant.commit (hover : HoldsOver T B N I runnable ready plan)
    (h : HoldInvariant T N I plan m) {ordinal : PublicationOrdinal} {elapsed : Nat} :
    (commit T B ordinal elapsed).wp True (fun _ => HoldInvariant T N I plan)
      (fun _ => HoldInvariant T N I plan) m := by
  by_cases hstate : m.transaction.state = .executing
  · have hholds := h.holds
    rw [hstate] at hholds
    obtain ⟨held, hheld⟩ := hholds
    rw [wp_commit_executing hstate, wp_refreshCompletedEvents]
    refine Call.wp_mono (joinEvents_held hover.keeps hheld) ?_ (fun _ _ h => h)
    intro _ t ht
    have htstate := ht.2.trans hstate
    have hinv : HoldInvariant T N I plan t := h.of_holdsOn ht.1 (.inl htstate)
    refine ⟨fun _ => hinv, fun _ => ?_⟩
    refine Call.wp_mono (hover.keeps.publish ht.1.holds.kept) ?_ ?_
    · intro _ b hb
      rw [wp_releaseCommitted]
      refine Call.wp_mono (releaseAll_held hover.keeps hb) ?_ (fun _ _ h => h)
      intro _ u hu
      rw [wp_finalize]
      intro receipt _
      refine hinv.of_same ?_ ?_
      · rw [hu.2]
        exact ((samePlan_recordTeardown _ _ _).trans (samePlan_recordPublished _ _)).trans
          (samePlan_finalized _ _ _ _ _)
      · refine ⟨held, ?_, ?_⟩
        · show u.transaction.reservation = some held
          rw [hu.2]
          exact ht.1.holds.reservation
        · have hempty : withoutAll held t.transaction.reservedPartitions.toList = ∅ := by
            apply withoutAll_eq_empty
            intro partition hpartition
            rw [Std.ExtTreeSet.mem_toList, ExecutionTransaction.reservedPartitions,
              ht.1.holds.reservation, Option.getD_some, mem_keySet]
            exact hpartition
          exact hempty ▸ hu.1
    · intro error b hb
      have hfailed := ht.1.holds.failed htstate (.publishFailed (error.debug T)) hb
      exact hinv.of_holdsOn hfailed.1 (.inr ⟨_, hfailed.2⟩)
  · rw [wp_commit_other hstate]
    exact h

theorem HoldInvariant.abort (hover : HoldsOver T B N I runnable ready plan)
    (h : HoldInvariant T N I plan m) {reason : String} {elapsed : Nat} :
    (abort B reason elapsed).wp True (fun _ => HoldInvariant T N I plan)
      (fun _ => HoldInvariant T N I plan) m := by
  by_cases hterminal : m.transaction.state.Terminal
  · exact wp_abort_terminal hterminal h
  rw [wp_abort_live hterminal, wp_teardownAborted]
  -- before `prepare` nothing is recorded, so nothing is given back
  have hcases : (m.transaction.reservation = none ∧ m.transaction.stagedWriteSet = ∅ ∧
      N m.backend) ∨ ∃ held, Holds I held m := by
    have hholds := h.holds
    cases found : m.transaction.state with
    | new =>
      rw [found] at hholds
      exact .inl hholds
    | prepared | executing | failed _ =>
      rw [found] at hholds
      exact .inr hholds
    | committed | aborted _ => simp [found, TransactionState.Terminal] at hterminal
  rcases hcases with ⟨hnone, hstaged, hN⟩ | ⟨held, hheld⟩
  · have hnothing : m.transaction.stagedPartitions = ∅ := by
      rw [ExecutionTransaction.stagedPartitions, hstaged]
      rfl
    have hunreserved : m.transaction.reservedPartitions = ∅ := by
      rw [ExecutionTransaction.reservedPartitions, hnone]
      rfl
    rw [hnothing, hunreserved]
    simp only [empty_sdiff, releaseAll, toList_empty, Call.forEach, Call.wp_pure]
    rw [wp_finalize]
    intro receipt _
    refine h.of_same ?_ (.inl ⟨hnone, hN⟩)
    exact ((samePlan_recordTeardown _ _ _).trans (samePlan_recordFailure _ _)).trans
      (samePlan_finalized _ _ _ _ _)
  · refine Call.wp_mono (retireAll_held hover.keeps hheld.kept) ?_ (fun _ _ h => h)
    intro _ t ht
    refine Call.wp_mono (releaseAll_held hover.keeps ht.1) ?_ (fun _ _ h => h)
    intro _ u hu
    have hutx : u.transaction = m.transaction := hu.2.trans ht.2
    rw [wp_finalize]
    intro receipt _
    refine h.of_same ?_ (.inr ⟨held, ?_, ?_⟩)
    · rw [hutx]
      exact ((samePlan_recordTeardown _ _ _).trans (samePlan_recordFailure _ _)).trans
        (samePlan_finalized _ _ _ _ _)
    · show u.transaction.reservation = some held
      rw [hutx]
      exact hheld.reservation
    · have hempty : withoutAll (withoutAll held m.transaction.stagedPartitions.toList)
          (m.transaction.reservedPartitions \ m.transaction.stagedPartitions).toList = ∅ := by
        rw [← withoutAll_append]
        apply withoutAll_eq_empty
        intro partition hpartition
        have hreserved : partition ∈ m.transaction.reservedPartitions := by
          rw [ExecutionTransaction.reservedPartitions, hheld.reservation, Option.getD_some,
            mem_keySet]
          exact hpartition
        by_cases hpstaged : partition ∈ m.transaction.stagedPartitions
        · simp [hpstaged]
        · simp [hreserved, hpstaged]
      exact hempty ▸ hu.1

theorem HoldInvariant.step (hover : HoldsOver T B N I runnable ready plan)
    {m' : Machine β} {call : TransactionCall} (h : HoldInvariant T N I plan m)
    (hguard : PreparesReady T ready m call) (hstep : perform T B m call = some m') :
    HoldInvariant T N I plan m' :=
  perform_spec (fun _ heq => h.prepare hover (heq ▸ hguard)) (fun _ _ => h.execute hover)
    (fun _ _ => h.executeOperation hover) (fun _ _ _ => h.commit hover)
    (fun _ _ _ => h.abort hover) hstep

/-- What a run over the backend holds, when it prepares only when ready. -/
theorem holdInvariant_run {id : TransactionId} {bound : BoundDistributedPlan}
    {given : List TransactionOperation} {boundary : TransactionCommitBoundary} {b : β}
    {calls : List TransactionCall}
    (hnew : ExecutionTransaction.new id bound given boundary = .ok plan)
    (hover : HoldsOver T B N I runnable ready plan) (hb : N b)
    (hmeet : StepsMeet (perform T B) (PreparesReady T ready) ⟨plan, b⟩ calls)
    (hrun : runSteps (perform T B) ⟨plan, b⟩ calls = some m) : HoldInvariant T N I plan m :=
  runSteps_preserves_of_meets (fun _ _ _ hinv hguard hstep => hinv.step hover hguard hstep) hmeet
    (holdInvariant_of_fresh (ExecutionTransaction.new_ok hnew).2.2.2 hb) hrun

end Invariant

end FaberHosts.Transaction
