import FaberHosts.Transaction.Rules

/-!
# Failed preparation

`prepare` holds the derived reservation partition by partition and returns at the
first refusal without releasing what it already holds.  A failed `prepare` is
therefore atomic exactly when the backend does not refuse a partition after
accepting an earlier one.
-/

namespace FaberHosts.Transaction
open FaberHosts.Lib FaberHosts.Coordinator Machine

variable {β : Type} {T : Toolchain} {B : DeviceExecutionBackend β}

/-- `held` reads the reservations a backend holds: an accepted `reserve` adds one
    that was not held, a refused one changes nothing. -/
structure HoldsReservations (B : DeviceExecutionBackend β) (held : β → Reservation) : Prop where
  accepted : ∀ {partition record b b'}, B.reserve partition record b = some (.ok (), b') →
    partition ∉ held b ∧ held b' = (held b).insert partition record
  refused : ∀ {partition record b error b'},
    B.reserve partition record b = some (.error error, b') → held b' = held b

theorem fakeBackend_holds (T : Toolchain) :
    HoldsReservations (fakeBackend T) FakeExecutionBackend.reservations where
  accepted := by
    intro partition record b b' h
    by_cases hheld : partition ∈ b.reservations
    · simp [fakeBackend, FakeExecutionBackend.reserve, hheld] at h
    · simp only [fakeBackend, FakeExecutionBackend.reserve, hheld, if_false, Option.some.injEq,
        Prod.mk.injEq, true_and] at h
      exact ⟨hheld, by rw [← h]⟩
  refused := by
    intro partition record b error b' h
    by_cases hheld : partition ∈ b.reservations
    · simp only [fakeBackend, FakeExecutionBackend.reserve, hheld, if_true, Option.some.injEq,
        Prod.mk.injEq] at h
      rw [← h.2]
    · simp [fakeBackend, FakeExecutionBackend.reserve, hheld] at h

/-- The gates accept the transaction with this reservation. -/
def Admits (T : Toolchain) (tx : ExecutionTransaction) (reservation : Reservation) : Prop :=
  ∃ bindings keys, tx.boundPlan.bindings = some bindings ∧
    structuralGates bindings tx.operations tx.commitBoundary = some (.ok keys) ∧
    budgetGate T bindings tx.operations = some (.ok reservation)

/-- How many partitions the backend accepts before it refuses one, if it does. -/
def refusedAfter (B : DeviceExecutionBackend β) :
    β → List (LogicalPartitionId × ReservationRecord) → Option Nat
  | _, [] => none
  | b, entry :: rest =>
    match B.reserve entry.1 entry.2 b with
    | none => none
    | some (.error _, _) => some 0
    | some (.ok (), b') => (refusedAfter B b' rest).map (· + 1)

/-- A failed `prepare` leaves the held reservations and the state, and so does an
    `abort` after it. -/
def PrepareAtomic (T : Toolchain) (B : DeviceExecutionBackend β) (held : β → Reservation)
    (elapsed : Nat) (m : Machine β) : Prop :=
  ∀ error m', prepare T B elapsed m = some (.error error, m') →
    held m'.backend = held m.backend ∧ m'.transaction.state = .new ∧
      ∀ reason elapsed answer m'', abort B reason elapsed m' = some (answer, m'') →
        held m''.backend = held m.backend

section Loop

variable {held : β → Reservation} (tx : ExecutionTransaction)

theorem holdReservations_of_never_refused {b : β}
    {entries : List (LogicalPartitionId × ReservationRecord)}
    (h : refusedAfter B b entries = none) :
    (Call.forEach entries (holdReservation B)).wp True (fun _ _ => True) (fun _ _ => False)
      ⟨tx, b⟩ := by
  induction entries generalizing b with
  | nil => trivial
  | cons entry rest ih =>
    rw [Call.forEach, Call.wp_bind, wp_holdReservation]
    unfold Call.wp
    rw [refusedAfter] at h
    split
    · trivial
    · next b' hreserve =>
      rw [hreserve] at h
      exact ih (by simpa using h)
    · next error b' hreserve =>
      rw [hreserve] at h
      cases h

theorem holdReservations_refused (hB : HoldsReservations B held) {b : β} {accepted : Nat}
    {entries : List (LogicalPartitionId × ReservationRecord)}
    (h : refusedAfter B b entries = some accepted) :
    (Call.forEach entries (holdReservation B)).wp False (fun _ _ => False)
      (fun _ m' => m'.transaction = tx ∧ held m'.backend =
        (entries.take accepted).foldl (fun map entry => map.insert entry.1 entry.2) (held b))
      ⟨tx, b⟩ := by
  induction entries generalizing b accepted with
  | nil => cases h
  | cons entry rest ih =>
    rw [Call.forEach, Call.wp_bind, wp_holdReservation]
    unfold Call.wp
    rw [refusedAfter] at h
    split
    · next hreserve =>
      rw [hreserve] at h
      cases h
    · next b' hreserve =>
      rw [hreserve] at h
      obtain ⟨later, hlater, rfl⟩ := Option.map_eq_some_iff.mp h
      refine Call.wp_mono (ih hlater) (fun _ _ h => h) ?_
      rintro _ m' ⟨htx, hheld⟩
      exact ⟨htx, by rw [hheld, (hB.accepted hreserve).2]; rfl⟩
    · next error b' hreserve =>
      rw [hreserve] at h
      cases h
      exact ⟨rfl, hB.refused hreserve⟩

theorem held_ne_of_refused (hB : HoldsReservations B held) {b : β} {accepted : Nat}
    {entries : List (LogicalPartitionId × ReservationRecord)}
    (h : refusedAfter B b entries = some (accepted + 1)) :
    (entries.take (accepted + 1)).foldl (fun map entry => map.insert entry.1 entry.2) (held b) ≠
      held b := by
  cases entries with
  | nil => cases h
  | cons entry rest =>
    rw [refusedAfter] at h
    split at h
    · cases h
    · cases h
    · next b' hreserve =>
      intro heq
      apply (hB.accepted hreserve).1
      rw [← heq, List.take_succ_cons, List.foldl_cons]
      exact mem_foldl_insert_iff.mpr (.inr (by simp))

end Loop

/-! ## Prepare -/

section Prepare

variable {held : β → Reservation} {tx : ExecutionTransaction} {b : β} {elapsed : Nat}

theorem wp_prepare_admitted {panics : Prop} {Q : Unit → Machine β → Prop}
    {E : PrepareError → Machine β → Prop} {reservation : Reservation} (hfresh : tx.IsFresh)
    (hadmits : Admits T tx reservation) : ∃ keys,
    (prepare T B elapsed).wp panics Q E ⟨tx, b⟩ ↔
      (Call.forEach reservation.toList (holdReservation B)).wp panics
        (fun _ t => Q () ⟨t.transaction.recordPrepared keys reservation elapsed, t.backend⟩) E
        ⟨tx, b⟩ := by
  obtain ⟨bindings, keys, hbindings, hgates, hbudget⟩ := hadmits
  refine ⟨keys, ?_⟩
  rw [wp_prepare_new hfresh.state hbindings, hgates, Call.wp_lift_ok, hbudget, Call.wp_lift_ok]

/-- When the backend refuses no partition after accepting one, a failed `prepare`
    changes nothing that is held. -/
theorem prepare_error_unchanged (hB : HoldsReservations B held) (hfresh : tx.IsFresh)
    (hrefused : ∀ reservation accepted, Admits T tx reservation →
      refusedAfter B b reservation.toList = some accepted → accepted = 0) :
    (prepare T B elapsed).wp True (fun _ _ => True)
      (fun _ m' => m'.transaction = tx ∧ held m'.backend = held b) ⟨tx, b⟩ := by
  obtain ⟨bindings, hbindings⟩ := bindings_some tx
  rw [wp_prepare_new hfresh.state hbindings, Call.wp_lift]
  refine ⟨fun _ => trivial, ?_, fun _ _ => ⟨rfl, rfl⟩⟩
  intro keys hgates
  rw [Call.wp_lift]
  refine ⟨fun _ => trivial, ?_, fun _ _ => ⟨rfl, rfl⟩⟩
  intro reservation hbudget
  cases houtcome : refusedAfter B b reservation.toList with
  | none =>
    have hloop := holdReservations_of_never_refused tx houtcome
    exact Call.wp_mono hloop (fun _ _ _ => trivial) (fun _ _ h => h.elim)
  | some accepted =>
    have hzero := hrefused reservation accepted ⟨bindings, keys, hbindings, hgates, hbudget⟩
      houtcome
    subst hzero
    have hloop := holdReservations_refused tx hB houtcome
    exact Call.wp_mono (Call.wp_of_total hloop) (fun _ _ h => h.elim) (fun _ _ h => h)

/-- Aborting a transaction that was never prepared makes no backend call. -/
theorem abort_fresh {reason : String} {m : Machine β} (hfresh : m.transaction.IsFresh) :
    (abort B reason elapsed).wp True (fun _ m' => m'.backend = m.backend)
      (fun _ m' => m'.backend = m.backend) m := by
  have hlive : ¬ m.transaction.state.Terminal := by
    rw [hfresh.state]
    exact id
  have hstaged : m.transaction.stagedPartitions = ∅ := by
    simp [ExecutionTransaction.stagedPartitions, hfresh.stagedWriteSet, Lib.setOf]
  have hreserved : m.transaction.reservedPartitions = ∅ := by
    simp [ExecutionTransaction.reservedPartitions, hfresh.reservation, keySet]
  rw [wp_abort_live hlive, wp_teardownAborted, hstaged, hreserved]
  simp [releaseAll, Call.forEach, wp_finalize]

/-- A failed `prepare` is atomic exactly when the backend does not refuse a
    partition of the derived reservation after accepting an earlier one. -/
theorem prepare_atomic_iff (hfresh : tx.IsFresh) (hB : HoldsReservations B held) :
    PrepareAtomic T B held elapsed ⟨tx, b⟩ ↔
      ∀ reservation accepted, Admits T tx reservation →
        refusedAfter B b reservation.toList = some accepted → accepted = 0 := by
  constructor
  · intro hatomic reservation accepted hadmits houtcome
    cases accepted with
    | zero => rfl
    | succ accepted =>
      have hloop := holdReservations_refused tx hB houtcome
      obtain ⟨keys, hprepare⟩ :=
        wp_prepare_admitted (B := B) (b := b) (Q := fun _ _ => False) hfresh hadmits
      obtain ⟨error, m', hcall, -, hheld⟩ := Call.wp_error (hprepare.mpr hloop)
      have hunchanged := (hatomic error m' hcall).1
      exact (held_ne_of_refused hB houtcome (hheld ▸ hunchanged)).elim
  · intro hrefused error m' hcall
    obtain ⟨htx, hheld⟩ := Call.wp_of_error (prepare_error_unchanged hB hfresh hrefused) hcall
    have hfresh' : m'.transaction.IsFresh := htx ▸ hfresh
    refine ⟨hheld, hfresh'.state, ?_⟩
    intro reason elapsed' answer m'' habort
    rw [Call.wp_of_some (abort_fresh hfresh') habort]
    exact hheld

end Prepare

theorem fake_prepare_atomic : ∃ tx,
    TwoPartitions.transaction .dev TwoPartitions.ledgers TwoPartitions.operations
        TwoPartitions.boundary = some tx ∧
      (PrepareAtomic .dev (fakeBackend .dev) FakeExecutionBackend.reservations 0 ⟨tx, .new⟩ ↔
        ∀ reservation accepted, Admits .dev tx reservation →
          refusedAfter (fakeBackend .dev) .new reservation.toList = some accepted →
            accepted = 0) := by
  have hbuilds : (TwoPartitions.transaction .dev TwoPartitions.ledgers TwoPartitions.operations
      TwoPartitions.boundary).isSome = true := by decide +kernel
  obtain ⟨tx, htx⟩ := Option.isSome_iff_exists.mp hbuilds
  obtain ⟨bound, hnew⟩ := TwoPartitions.new_of_transaction htx
  exact ⟨tx, htx, prepare_atomic_iff (ExecutionTransaction.new_ok hnew).2.2.2
    (fakeBackend_holds .dev)⟩

/-- A fake backend on which another transaction holds the second partition. -/
def secondPartitionTaken : FakeExecutionBackend :=
  { FakeExecutionBackend.new with
    reservations := FakeExecutionBackend.new.reservations.insert
      (Coordinator.TwoPartitions.partition 1) ⟨0, 0, 0, 0⟩ }

/-- `prepare` fails on the second partition and stays in `New`; the first one is
    held then and still held after the `abort`. -/
theorem first_partition_leaks : ∃ tx error m' receipt m'',
    TwoPartitions.transaction .dev TwoPartitions.ledgers TwoPartitions.operations
        TwoPartitions.boundary = some tx ∧
      Coordinator.TwoPartitions.partition 0 ∉ secondPartitionTaken.reservations ∧
      prepare .dev (fakeBackend .dev) 0 ⟨tx, secondPartitionTaken⟩ = some (.error error, m') ∧
      m'.transaction.state = .new ∧
      Coordinator.TwoPartitions.partition 0 ∈ m'.backend.reservations ∧
      abort (fakeBackend .dev) "cancelled" 0 m' = some (.ok receipt, m'') ∧
      Coordinator.TwoPartitions.partition 0 ∈ m''.backend.reservations := by
  have hruns : (TwoPartitions.transaction .dev TwoPartitions.ledgers TwoPartitions.operations
      TwoPartitions.boundary).any (fun tx =>
        (Call.errorEnd (prepare .dev (fakeBackend .dev) 0) ⟨tx, secondPartitionTaken⟩).any
          (fun prepared =>
            prepared.2.transaction.state = .new ∧
            Coordinator.TwoPartitions.partition 0 ∈ prepared.2.backend.reservations ∧
            (Call.okEnd (abort (fakeBackend .dev) "cancelled" 0) prepared.2).any (fun aborted =>
              Coordinator.TwoPartitions.partition 0 ∈ aborted.2.backend.reservations))) =
        true := by decide +kernel
  obtain ⟨tx, htx, hrun⟩ := (Option.any_eq_true _ _).mp hruns
  obtain ⟨⟨error, m'⟩, hprepare, hprepared⟩ := (Option.any_eq_true _ _).mp hrun
  obtain ⟨hstate, hheld, haborts⟩ := of_decide_eq_true hprepared
  obtain ⟨⟨receipt, m''⟩, habort, haborted⟩ := (Option.any_eq_true _ _).mp haborts
  exact ⟨tx, error, m', receipt, m'', htx, by decide +kernel,
    Call.errorEnd_eq_some_iff.mp hprepare, hstate, hheld, Call.okEnd_eq_some_iff.mp habort,
    of_decide_eq_true haborted⟩

end FaberHosts.Transaction
