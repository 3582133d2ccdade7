import FaberHosts.Transaction.Rules

/-!
# The fake backend

What each method of the fake backend does, and the reservations it grants: every
partition that is not held, so that a reservation of distinct free partitions is
held in full.
-/

namespace FaberHosts.Transaction
open FaberHosts.Lib FaberHosts.Coordinator Machine

variable {β φ : Type} {T : Toolchain} {B : DeviceExecutionBackend β}

/-! ## Methods -/

section Methods

variable {panics : Prop} {b : FakeExecutionBackend} {Q : Unit → FakeExecutionBackend → Prop}
  {E : BackendError → FakeExecutionBackend → Prop}

/-- The fake after an operation ran. -/
@[simps] def FakeExecutionBackend.ran (fake : FakeExecutionBackend)
    (operation : TransactionOperation) : FakeExecutionBackend :=
  { fake with
    executedOperations := fake.executedOperations ++ [operation]
    dispatchedEvents := fake.dispatchedEvents ∪ operation.completedEvents
    completedEvents :=
      if fake.autoComplete then fake.completedEvents ∪ operation.completedEvents
      else fake.completedEvents }

/-- The fake after a write was staged. -/
@[simps] def FakeExecutionBackend.staged (fake : FakeExecutionBackend) (write : StagedWrite) :
    FakeExecutionBackend :=
  { fake with
    stagedTotalBytes := saturatingAdd fake.stagedTotalBytes write.byteCount
    stagedWrites := fake.stagedWrites.insert write.outputRef write }

/-- The fake after its publication. -/
@[simps] def FakeExecutionBackend.published (fake : FakeExecutionBackend) :
    FakeExecutionBackend :=
  { fake with
    publishedWrites := fake.stagedWrites
    publishedTotalBytes := fake.stagedTotalBytes
    publishedOnce := true }

/-- The fake after a partition was released. -/
@[simps] def FakeExecutionBackend.released (fake : FakeExecutionBackend)
    (partition : LogicalPartitionId) : FakeExecutionBackend :=
  { fake with
    reservations := fake.reservations.erase partition
    releasedPartitions := fake.releasedPartitions.insert partition }

theorem wp_fake_runOperation {operation : TransactionOperation} :
    ((fakeBackend T).runOperation operation).wp panics Q E b ↔ Q () (b.ran operation) := Iff.rfl

theorem wp_fake_eventCompleted {Q : Bool → FakeExecutionBackend → Prop}
    {E : Empty → FakeExecutionBackend → Prop} {event : OperationEvent} :
    ((fakeBackend T).eventCompleted event).wp panics Q E b ↔
      Q (b.completedEvents.contains event) b := Iff.rfl

theorem wp_fake_stageWrite {write : StagedWrite} (hnew : write.outputRef ∉ b.stagedWrites) :
    ((fakeBackend T).stageWrite write).wp panics Q E b ↔ Q () (b.staged write) := by
  simp [Call.wp, fakeBackend, FakeExecutionBackend.stageWrite, hnew, FakeExecutionBackend.staged]

theorem wp_fake_stageWrite_twice {write : StagedWrite} (hstaged : write.outputRef ∈ b.stagedWrites) :
    ((fakeBackend T).stageWrite write).wp panics Q E b ↔
      E (.allocation write.partition s!"output {write.outputRef} staged twice") b := by
  simp [Call.wp, fakeBackend, FakeExecutionBackend.stageWrite, hstaged]

theorem wp_fake_publish (honce : b.publishedOnce = false) :
    (fakeBackend T).publish.wp panics Q E b ↔ Q () b.published := by
  simp [Call.wp, fakeBackend, FakeExecutionBackend.publish, honce, FakeExecutionBackend.published]

theorem wp_fake_release {E : Empty → FakeExecutionBackend → Prop}
    {partition : LogicalPartitionId} :
    ((fakeBackend T).release partition).wp panics Q E b ↔ Q () (b.released partition) := Iff.rfl

end Methods

/-! ## Reservations -/

/-- `reserve` grants a partition that is not held, and changes only what is held. -/
structure GrantsFree (B : DeviceExecutionBackend β) (held : β → Reservation)
    (hold : β → Reservation → β) : Prop where
  held_hold : ∀ b reservations, held (hold b reservations) = reservations
  hold_held : ∀ b, hold b (held b) = b
  hold_hold : ∀ b first second, hold (hold b first) second = hold b second
  granted : ∀ {partition} record {b}, partition ∉ held b →
    B.reserve partition record b = some (.ok (), hold b ((held b).insert partition record))

theorem fakeBackend_grants (T : Toolchain) :
    GrantsFree (fakeBackend T) FakeExecutionBackend.reservations
      (fun fake reservations => { fake with reservations := reservations }) where
  held_hold := fun _ _ => rfl
  hold_held := fun _ => rfl
  hold_hold := fun _ _ _ => rfl
  granted := by
    intro partition record b hfree
    simp [fakeBackend, FakeExecutionBackend.reserve, hfree]

theorem holdReservations_granted {held : β → Reservation} {hold : β → Reservation → β}
    (hB : GrantsFree B held hold) {entries : List (LogicalPartitionId × ReservationRecord)}
    {m : Machine β} (hkeys : (entries.map Prod.fst).Nodup)
    (hfree : ∀ entry ∈ entries, entry.1 ∉ held m.backend) :
    (Call.forEach entries (holdReservation B)).wp False
      (fun _ m' => m' = ⟨m.transaction, hold m.backend
        (entries.foldl (fun map entry => map.insert entry.1 entry.2) (held m.backend))⟩)
      (fun _ _ => False) m := by
  induction entries generalizing m with
  | nil => exact congrArg (Machine.mk m.transaction) (hB.hold_held m.backend).symm
  | cons entry rest ih =>
    obtain ⟨hentry, hrest⟩ := List.nodup_cons.mp hkeys
    rw [Call.forEach, Call.wp_bind, wp_holdReservation]
    unfold Call.wp
    rw [hB.granted entry.2 (hfree entry (by simp))]
    refine Call.wp_mono (ih hrest ?_) ?_ (fun _ _ h => h)
    · intro later hlater
      rw [hB.held_hold, Std.ExtTreeMap.mem_insert, Std.LawfulEqOrd.compare_eq_iff_eq]
      rintro (heq | hheld)
      · exact hentry (heq ▸ List.mem_map_of_mem hlater)
      · exact hfree later (by simp [hlater]) hheld
    · rintro _ m' rfl
      rw [hB.held_hold, hB.hold_hold]
      rfl

theorem holdReservation_granted {held : β → Reservation} {hold : β → Reservation → β}
    (hB : GrantsFree B held hold) {reservation : Reservation} {m : Machine β}
    (hfree : held m.backend = ∅) :
    (Call.forEach reservation.toList (holdReservation B)).wp False
      (fun _ m' => m' = ⟨m.transaction, hold m.backend reservation⟩) (fun _ _ => False) m := by
  refine Call.wp_mono (holdReservations_granted hB (nodup_keys_toList reservation) ?_) ?_
    (fun _ _ h => h)
  · simp [hfree]
  · rintro _ m' rfl
    rw [hfree, foldl_insert_toList]

/-- `prepare` accepts what the gates accept when the backend holds nothing. -/
theorem prepare_granted {held : β → Reservation} {hold : β → Reservation → β}
    (hB : GrantsFree B held hold) {m : Machine β} {bindings : Bindings}
    {keys : BTreeMap OperationRef Nat} {reservation : Reservation} (elapsed : Nat)
    (hstate : m.transaction.state = .new)
    (hbindings : m.transaction.boundPlan.bindings = some bindings)
    (hgates : structuralGates bindings m.transaction.operations m.transaction.commitBoundary =
      some (.ok keys))
    (hbudget : budgetGate T bindings m.transaction.operations = some (.ok reservation))
    (hfree : held m.backend = ∅) :
    prepare T B elapsed m = some (.ok (), ⟨m.transaction.recordPrepared keys reservation elapsed,
      hold m.backend reservation⟩) := by
  have hprepared : (prepare T B elapsed).wp False
      (fun _ m' => m' = ⟨m.transaction.recordPrepared keys reservation elapsed,
        hold m.backend reservation⟩) (fun _ _ => False) m := by
    rw [wp_prepare_new hstate hbindings, hgates, Call.wp_lift_ok, hbudget, Call.wp_lift_ok]
    refine Call.wp_mono (holdReservation_granted hB hfree) ?_ (fun _ _ h => h)
    rintro _ t rfl
    rfl
  obtain ⟨_, m', hcall, rfl⟩ := Call.wp_ok hprepared
  exact hcall

end FaberHosts.Transaction
