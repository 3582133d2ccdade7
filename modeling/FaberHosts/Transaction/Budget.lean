import FaberHosts.Transaction.Fake

/-!
# Admitted budgets

`prepare` derives the charges of each partition with unchecked `u64` additions
and compares the results with the admitted ledger.  What it compares are the
exact sums modulo 2^64, so a plan whose sums do not fit panics with overflow
checks and can pass under its budget without them.
-/

namespace FaberHosts.Transaction
open FaberHosts.Lib FaberHosts.Coordinator Machine

variable {T : Toolchain} {bindings : Bindings} {operations : List TransactionOperation}
  {referenced : BTreeSet LogicalPartitionId}

/-- A partition's exact charges are within its admitted classes. -/
def WithinLedger (operations : List TransactionOperation) (partition : LogicalPartitionId)
    (ledger : PartitionBudgetLedger) : Prop :=
  exactStaging operations partition ≤ ledger.transferStagingBytes.toNat ∧
    exactClassThree operations partition ≤ ledger.activationScratchBytes.toNat

/-- The charges modulo 2^64 are within the admitted classes. -/
def WrappedWithinLedger (operations : List TransactionOperation) (partition : LogicalPartitionId)
    (ledger : PartitionBudgetLedger) : Prop :=
  exactStaging operations partition % 2 ^ 64 ≤ ledger.transferStagingBytes.toNat ∧
    exactClassThree operations partition % 2 ^ 64 ≤ ledger.activationScratchBytes.toNat

/-- The sums the derivation accumulates fit in a `u64`. -/
def SumsFit (operations : List TransactionOperation) : Prop :=
  ∀ partition, exactStaging operations partition < 2 ^ 64 ∧
    exactOutputs operations partition < 2 ^ 64 ∧ exactEvents operations partition < 2 ^ 64

/-- The class-3 sums of the budget scan fit, up to the first partition over its
    budget. -/
def ScanFits (bindings : Bindings) (operations : List TransactionOperation) :
    List LogicalPartitionId → Prop
  | [] => True
  | partition :: rest =>
    ∀ ledger, admittedLedger bindings partition = some ledger →
      exactStaging operations partition ≤ ledger.transferStagingBytes.toNat →
        exactClassThree operations partition < 2 ^ 64 ∧
          (exactClassThree operations partition ≤ ledger.activationScratchBytes.toNat →
            ScanFits bindings operations rest)

/-! ## The derived records -/

/-- A record holds the partition's sums modulo 2^64. -/
structure Records (operations : List TransactionOperation) (partition : LogicalPartitionId)
    (record : ReservationRecord) : Prop where
  staging : record.transferStagingBytes.toNat = exactStaging operations partition % 2 ^ 64
  outputs : record.outputBufferBytes.toNat = exactOutputs operations partition % 2 ^ 64
  events : record.eventBytes.toNat = exactEvents operations partition % 2 ^ 64
  scratch : record.transactionScratchBytes = transactionScratchBytesPerPartition

theorem deriveReservation_some {reservation : Reservation}
    (h : deriveReservation T operations referenced = some reservation) :
    ∃ record, reservation = mapOver referenced record ∧
      ∀ partition, Records operations partition (record partition) := by
  simp only [deriveReservation, Option.bind_eq_bind, Option.bind_eq_some_iff] at h
  obtain ⟨events, hevents, staging, hstaging, outputs, houtputs, hreservation⟩ := h
  refine ⟨_, (Option.some.inj hreservation).symm, fun partition => ⟨?_, ?_, ?_, rfl⟩⟩
  · simpa [exactStaging] using accumulate_some hstaging partition
  · simpa [exactOutputs] using accumulate_some houtputs partition
  · simpa [exactEvents] using accumulate_some hevents partition

theorem deriveReservation_returns_iff :
    (∃ reservation, deriveReservation T operations referenced = some reservation) ↔
      (T.overflowChecks = true → SumsFit operations) := by
  constructor
  · rintro ⟨reservation, h⟩ hchecks
    simp only [deriveReservation, Option.bind_eq_bind, Option.bind_eq_some_iff] at h
    obtain ⟨events, hevents, staging, hstaging, outputs, houtputs, -⟩ := h
    intro partition
    exact ⟨accumulate_empty_returns_iff.mp ⟨_, hstaging⟩ hchecks partition,
      accumulate_empty_returns_iff.mp ⟨_, houtputs⟩ hchecks partition,
      accumulate_empty_returns_iff.mp ⟨_, hevents⟩ hchecks partition⟩
  · intro hfit
    obtain ⟨events, hevents⟩ : ∃ sums, accumulate T.overflowChecks ∅
        (operations.flatMap (·.eventCharges)) = some sums := accumulate_empty_returns_iff.mpr
      (fun hchecks partition => (hfit hchecks partition).2.2)
    obtain ⟨staging, hstaging⟩ : ∃ sums, accumulate T.overflowChecks ∅
        (operations.flatMap (·.stagingCharges)) = some sums := accumulate_empty_returns_iff.mpr
      (fun hchecks partition => (hfit hchecks partition).1)
    obtain ⟨outputs, houtputs⟩ : ∃ sums, accumulate T.overflowChecks ∅
        (operations.flatMap (·.outputCharges)) = some sums := accumulate_empty_returns_iff.mpr
      (fun hchecks partition => (hfit hchecks partition).2.1)
    exact ⟨_, by rw [deriveReservation, hevents, hstaging, houtputs]; rfl⟩

section Record

variable {partition : LogicalPartitionId} {record : ReservationRecord}

theorem Records.classThree_some (hrecord : Records operations partition record) {total : UInt64}
    (h : record.classThreeBytes T = some total) :
    total.toNat = exactClassThree operations partition % 2 ^ 64 := by
  simp only [ReservationRecord.classThreeBytes, Option.bind_eq_bind, Option.bind_eq_some_iff] at h
  obtain ⟨charged, hcharged, htotal⟩ := h
  rw [addU64_some htotal, addU64_some hcharged, UInt64.toNat_add, UInt64.toNat_add,
    hrecord.outputs, hrecord.events, hrecord.scratch, exactClassThree]
  omega

theorem Records.classThree_returns_iff (hrecord : Records operations partition record)
    (hfit : T.overflowChecks = true → SumsFit operations) :
    (∃ total, record.classThreeBytes T = some total) ↔
      (T.overflowChecks = true → exactClassThree operations partition < 2 ^ 64) := by
  cases hchecks : T.overflowChecks with
  | false => simp [ReservationRecord.classThreeBytes, hchecks]
  | true =>
    obtain ⟨-, houtputs, hevents⟩ := hfit hchecks partition
    have hcharged : record.outputBufferBytes.toNat + record.eventBytes.toNat =
        exactOutputs operations partition + exactEvents operations partition := by
      rw [hrecord.outputs, hrecord.events, Nat.mod_eq_of_lt houtputs, Nat.mod_eq_of_lt hevents]
    simp only [ReservationRecord.classThreeBytes, hchecks, forall_const]
    by_cases hsum : exactOutputs operations partition + exactEvents operations partition < 2 ^ 64
    · rw [addU64_of_fits true (hcharged ▸ hsum), Option.bind_eq_bind, Option.bind_some,
        addU64_returns_iff, toNat_add_of_fits (hcharged ▸ hsum), hcharged, hrecord.scratch]
      simp [exactClassThree]
    · rw [addU64_of_overflow (by omega), Option.bind_eq_bind, Option.bind_none]
      simp only [reduceCtorEq, exists_false, false_iff, exactClassThree]
      omega

/-! ## The budget scan -/

variable {ledger : PartitionBudgetLedger}

theorem checkReservation_ok_iff (hrecord : Records operations partition record)
    (hfit : T.overflowChecks = true → SumsFit operations)
    (hledger : admittedLedger bindings partition = some ledger) :
    checkReservation T bindings (partition, record) = some (.ok ()) ↔
      (T.overflowChecks = true → exactClassThree operations partition < 2 ^ 64) ∧
        WrappedWithinLedger operations partition ledger := by
  rw [← hrecord.classThree_returns_iff hfit, WrappedWithinLedger, ← hrecord.staging,
    checkReservation, hledger]
  simp only [Option.bind_eq_bind, Option.bind_some, ReservationRecord.classSixBytes,
    UInt64.lt_iff_toNat_lt]
  cases hthree : record.classThreeBytes T with
  | none => by_cases hsix : ledger.transferStagingBytes.toNat <
      record.transferStagingBytes.toNat <;> simp [hsix]
  | some total =>
    rw [← hrecord.classThree_some hthree]
    by_cases hsix : ledger.transferStagingBytes.toNat < record.transferStagingBytes.toNat
    · simp [hsix]
    · by_cases hover : ledger.activationScratchBytes.toNat < total.toNat
      · simp [hsix, hover]
      · simp [hsix, hover, Nat.not_lt.mp hsix, Nat.not_lt.mp hover]

theorem checkReservation_returns_iff (hrecord : Records operations partition record)
    (hfit : T.overflowChecks = true → SumsFit operations)
    (hledger : admittedLedger bindings partition = some ledger) :
    (∃ answer, checkReservation T bindings (partition, record) = some answer) ↔
      (exactStaging operations partition % 2 ^ 64 ≤ ledger.transferStagingBytes.toNat →
        T.overflowChecks = true → exactClassThree operations partition < 2 ^ 64) := by
  rw [← hrecord.classThree_returns_iff hfit, ← hrecord.staging, checkReservation, hledger]
  simp only [Option.bind_eq_bind, Option.bind_some, ReservationRecord.classSixBytes,
    UInt64.lt_iff_toNat_lt]
  by_cases hsix : ledger.transferStagingBytes.toNat < record.transferStagingBytes.toNat
  · simp only [hsix, if_true, Option.some.injEq, exists_eq', true_iff]
    omega
  · simp only [hsix, if_false, Nat.not_lt.mp hsix, forall_const]
    cases hthree : record.classThreeBytes T with
    | none => simp
    | some total =>
      by_cases hover : ledger.activationScratchBytes.toNat < total.toNat <;> simp [hover]

end Record

section Scan

variable {record : LogicalPartitionId → ReservationRecord} {scanned : List LogicalPartitionId}

theorem scan_returns_iff (hrecord : ∀ partition, Records operations partition (record partition))
    (hchecks : T.overflowChecks = true) (hfit : SumsFit operations)
    (hadmitted : ∀ partition ∈ scanned, ∃ ledger, admittedLedger bindings partition = some ledger) :
    (∃ answer, tryEachM (checkReservation T bindings)
        (scanned.map (fun partition => (partition, record partition))) = some answer) ↔
      ScanFits bindings operations scanned := by
  induction scanned with
  | nil => simp [tryEachM, ScanFits]
  | cons partition rest ih =>
    obtain ⟨ledger, hledger⟩ := hadmitted partition (by simp)
    rw [List.map_cons, tryEachM_cons_returns_iff,
      checkReservation_returns_iff (hrecord partition) (fun _ => hfit) hledger,
      checkReservation_ok_iff (hrecord partition) (fun _ => hfit) hledger,
      ih (fun p hp => hadmitted p (by simp [hp])), ScanFits, WrappedWithinLedger,
      Nat.mod_eq_of_lt (hfit partition).1]
    simp only [hchecks, forall_const, hledger, Option.some.injEq, forall_eq']
    constructor
    · rintro ⟨hthree, hrest⟩ hsix
      refine ⟨hthree hsix, fun hwithin => hrest ⟨hthree hsix, hsix, ?_⟩⟩
      rw [Nat.mod_eq_of_lt (hthree hsix)]
      exact hwithin
    · intro hscan
      refine ⟨fun hsix => (hscan hsix).1, ?_⟩
      rintro ⟨hthree, hsix, hwithin⟩
      rw [Nat.mod_eq_of_lt hthree] at hwithin
      exact (hscan hsix).2 hwithin

end Scan

theorem budgetGate_records {reservation : Reservation}
    (h : budgetGate T bindings operations = some (.ok reservation)) :
    ∃ record, reservation = mapOver (referencedPartitions operations) record ∧
      ∀ partition, Records operations partition (record partition) := by
  simp only [budgetGate, Option.bind_eq_bind, Option.bind_eq_some_iff] at h
  obtain ⟨derived, hderive, checked, -, hanswer⟩ := h
  cases checked with
  | error e => simp [Except.map] at hanswer
  | ok u =>
    cases hanswer
    exact deriveReservation_some hderive

section Gate

variable (hadmitted : ∀ partition ∈ referencedPartitions operations,
  ∃ ledger, admittedLedger bindings partition = some ledger)

include hadmitted

theorem budgetGate_returns_iff : (∃ answer, budgetGate T bindings operations = some answer) ↔
    (T.overflowChecks = true → SumsFit operations ∧
      ScanFits bindings operations (referencedPartitions operations).toList) := by
  have hlisted : ∀ partition ∈ (referencedPartitions operations).toList,
      ∃ ledger, admittedLedger bindings partition = some ledger :=
    fun partition hmem => hadmitted partition (by simpa using hmem)
  constructor
  · rintro ⟨answer, h⟩ hchecks
    simp only [budgetGate, Option.bind_eq_bind, Option.bind_eq_some_iff] at h
    obtain ⟨reservation, hderive, checked, hscan, -⟩ := h
    have hfit := deriveReservation_returns_iff.mp ⟨_, hderive⟩ hchecks
    obtain ⟨record, rfl, hrecord⟩ := deriveReservation_some hderive
    rw [toList_mapOver] at hscan
    exact ⟨hfit, (scan_returns_iff hrecord hchecks hfit hlisted).mp ⟨_, hscan⟩⟩
  · intro hfit
    obtain ⟨reservation, hderive⟩ := deriveReservation_returns_iff.mpr (fun h => (hfit h).1)
    obtain ⟨record, rfl, hrecord⟩ := deriveReservation_some hderive
    suffices hscan : ∃ answer, tryEachM (checkReservation T bindings)
        (mapOver (referencedPartitions operations) record).toList = some answer by
      obtain ⟨answer, hanswer⟩ := hscan
      exact ⟨_, by rw [budgetGate, hderive, Option.bind_eq_bind, Option.bind_some, hanswer]; rfl⟩
    cases hchecks : T.overflowChecks with
    | true =>
      rw [toList_mapOver]
      exact (scan_returns_iff hrecord hchecks (hfit hchecks).1 hlisted).mpr (hfit hchecks).2
    | false =>
      apply tryEachM_isSome
      rintro ⟨partition, _⟩ hentry
      obtain ⟨hmem, rfl⟩ := mem_toList_mapOver.mp hentry
      obtain ⟨ledger, hledger⟩ := hadmitted partition hmem
      rw [checkReservation_returns_iff (hrecord partition) (by simp [hchecks]) hledger]
      simp [hchecks]

/-- Step 5 accepts the plans whose charges, as it computes them, are admitted. -/
theorem budgetGate_ok_iff :
    (∃ reservation, budgetGate T bindings operations = some (.ok reservation)) ↔
      (T.overflowChecks = true → SumsFit operations) ∧
        ∀ partition ∈ referencedPartitions operations,
          (T.overflowChecks = true → exactClassThree operations partition < 2 ^ 64) ∧
            ∀ ledger, admittedLedger bindings partition = some ledger →
              WrappedWithinLedger operations partition ledger := by
  constructor
  · rintro ⟨reservation, h⟩
    simp only [budgetGate, Option.bind_eq_bind, Option.bind_eq_some_iff] at h
    obtain ⟨derived, hderive, checked, hscan, hanswer⟩ := h
    have hfit := deriveReservation_returns_iff.mp ⟨_, hderive⟩
    obtain ⟨record, rfl, hrecord⟩ := deriveReservation_some hderive
    cases checked with
    | error e => simp [Except.map] at hanswer
    | ok u =>
      refine ⟨hfit, fun partition hmem => ?_⟩
      obtain ⟨ledger, hledger⟩ := hadmitted partition hmem
      have hchecked := tryEachM_ok_iff.mp hscan (partition, record partition)
        (mem_toList_mapOver.mpr ⟨hmem, rfl⟩)
      obtain ⟨hthree, hwithin⟩ :=
        (checkReservation_ok_iff (hrecord partition) hfit hledger).mp hchecked
      refine ⟨hthree, fun ledger' hledger' => ?_⟩
      rw [hledger] at hledger'
      cases hledger'
      exact hwithin
  · rintro ⟨hfit, hpartitions⟩
    obtain ⟨reservation, hderive⟩ : ∃ reservation, deriveReservation T operations
        (referencedPartitions operations) = some reservation :=
      deriveReservation_returns_iff.mpr hfit
    obtain ⟨record, rfl, hrecord⟩ := deriveReservation_some hderive
    refine ⟨mapOver (referencedPartitions operations) record, ?_⟩
    rw [budgetGate, hderive, Option.bind_eq_bind, Option.bind_some, tryEachM_ok_iff.mpr]
    · rfl
    · rintro ⟨partition, _⟩ hentry
      obtain ⟨hmem, rfl⟩ := mem_toList_mapOver.mp hentry
      obtain ⟨ledger, hledger⟩ := hadmitted partition hmem
      obtain ⟨hthree, hwithin⟩ := hpartitions partition hmem
      exact (checkReservation_ok_iff (hrecord partition) hfit hledger).mpr
        ⟨hthree, hwithin ledger hledger⟩

end Gate

/-! ## Prepare -/

/-- With a backend whose `reserve` returns, `prepare` returns, and what it
    accepts is within the admitted ledgers. -/
def NeverOverCommits (T : Toolchain) (tx : ExecutionTransaction) : Prop :=
  ∀ (β : Type) (B : DeviceExecutionBackend β) (b : β) (elapsed : Nat),
    (∀ partition record b, B.reserve partition record b ≠ none) →
      prepare T B elapsed ⟨tx, b⟩ ≠ none ∧
        ∀ m', prepare T B elapsed ⟨tx, b⟩ = some (.ok (), m') →
          ∀ bindings ledger, ∀ partition ∈ referencedPartitions tx.operations,
            tx.boundPlan.bindings = some bindings →
              admittedLedger bindings partition = some ledger →
                WithinLedger tx.operations partition ledger

/-- With overflow checks no sum that `prepare` computes overflows.  Without them
    no compared sum does, or one that wraps is over its budget all the same. -/
def ChargesFit (T : Toolchain) (bindings : Bindings) (operations : List TransactionOperation) :
    Prop :=
  if T.overflowChecks then
    SumsFit operations ∧ ScanFits bindings operations (referencedPartitions operations).toList
  else
    (∀ partition ∈ referencedPartitions operations,
      exactStaging operations partition < 2 ^ 64 ∧ exactClassThree operations partition < 2 ^ 64) ∨
    ∃ partition ∈ referencedPartitions operations, ∃ ledger,
      admittedLedger bindings partition = some ledger ∧
        ¬ WrappedWithinLedger operations partition ledger

/-- Steps 1 to 4 refuse the plan. -/
def StructurallyRefused (bindings : Bindings) (operations : List TransactionOperation)
    (boundary : TransactionCommitBoundary) : Prop :=
  ∃ error, structuralGates bindings operations boundary = some (.error error)

theorem WrappedWithinLedger.exact {partition : LogicalPartitionId} {ledger : PartitionBudgetLedger}
    (h : WrappedWithinLedger operations partition ledger)
    (hsix : exactStaging operations partition < 2 ^ 64)
    (hthree : exactClassThree operations partition < 2 ^ 64) :
    WithinLedger operations partition ledger := by
  rw [WrappedWithinLedger, Nat.mod_eq_of_lt hsix, Nat.mod_eq_of_lt hthree] at h
  exact h

theorem budgetGate_within {reservation : Reservation}
    (hadmitted : ∀ partition ∈ referencedPartitions operations,
      ∃ ledger, admittedLedger bindings partition = some ledger)
    (hfit : ChargesFit T bindings operations)
    (hbudget : budgetGate T bindings operations = some (.ok reservation)) :
    ∀ partition ∈ referencedPartitions operations, ∀ ledger,
      admittedLedger bindings partition = some ledger →
        WithinLedger operations partition ledger := by
  obtain ⟨hsums, hwithin⟩ := (budgetGate_ok_iff hadmitted).mp ⟨reservation, hbudget⟩
  intro partition hmem ledger hledger
  obtain ⟨hthree, hcompared⟩ := hwithin partition hmem
  cases hchecks : T.overflowChecks with
  | true => exact (hcompared ledger hledger).exact (hsums hchecks partition).1 (hthree hchecks)
  | false =>
    simp only [ChargesFit, hchecks, Bool.false_eq_true, if_false] at hfit
    rcases hfit with hexact | ⟨wrapped, hwrapped, ledger', hledger', hnot⟩
    · exact (hcompared ledger hledger).exact (hexact partition hmem).1 (hexact partition hmem).2
    · exact (hnot ((hwithin wrapped hwrapped).2 ledger' hledger')).elim

section Prepare

variable {tx : ExecutionTransaction}

theorem holdReservations_returns {β : Type} {B : DeviceExecutionBackend β}
    (hreserve : ∀ partition record b, B.reserve partition record b ≠ none)
    (entries : List (LogicalPartitionId × ReservationRecord)) (m : Machine β) :
    (Call.forEach entries (holdReservation B)).wp False (fun _ _ => True) (fun _ _ => True) m := by
  refine Call.wp_forEach (fun _ _ => True) ?_ trivial
  intro _ entry _ t _ _
  rw [wp_holdReservation]
  unfold Call.wp
  split
  · next hnone => exact hreserve _ _ _ hnone
  · trivial
  · trivial

/-- With fitting charges `prepare` never panics and never over-commits. -/
theorem neverOverCommits_of_fits (hstate : tx.state = .new)
    (hbindings : tx.boundPlan.bindings = some bindings)
    (hfit : StructurallyRefused bindings tx.operations tx.commitBoundary ∨
      ChargesFit T bindings tx.operations) : NeverOverCommits T tx := by
  intro β B b elapsed hreserve
  have hprepared : (prepare T B elapsed).wp False
      (fun _ _ => ∀ partition ∈ referencedPartitions tx.operations, ∀ ledger,
        admittedLedger bindings partition = some ledger →
          WithinLedger tx.operations partition ledger) (fun _ _ => True) ⟨tx, b⟩ := by
    rw [wp_prepare_new hstate hbindings, Call.wp_lift]
    obtain ⟨answer, hgates⟩ :=
      structuralGates_returns bindings tx.operations tx.commitBoundary
    refine ⟨?_, ?_, fun _ _ => trivial⟩
    · rw [hgates]
      exact nofun
    · intro keys hkeys
      have hsound := structuralGates_ok hkeys
      have hcharges : ChargesFit T bindings tx.operations := by
        rcases hfit with ⟨error, herror⟩ | hcharges
        · rw [hkeys] at herror
          cases herror
        · exact hcharges
      rw [Call.wp_lift]
      refine ⟨?_, ?_, fun _ _ => trivial⟩
      · obtain ⟨answer, hbudget⟩ := (budgetGate_returns_iff (T := T) hsound.admitted).mpr (by
          intro hchecks
          simpa [ChargesFit, hchecks] using hcharges)
        rw [hbudget]
        exact nofun
      · intro reservation hbudget
        refine Call.wp_mono (holdReservations_returns hreserve _ _) ?_ (fun _ _ _ => trivial)
        rintro _ t -
        exact budgetGate_within hsound.admitted hcharges hbudget
  refine ⟨?_, ?_⟩
  · obtain ⟨answer, m', hcall⟩ := Call.wp_returns hprepared
    rw [hcall]
    exact nofun
  · intro m' hcall bindings' ledger partition hmem hbindings' hledger
    rw [hbindings] at hbindings'
    cases hbindings'
    exact Call.wp_of_ok hprepared hcall partition hmem ledger hledger

/-- `prepare` never panics and never over-commits exactly when steps 1 to 4
    refuse the plan or its charges fit. -/
theorem prepare_neverOverCommits_iff (hstate : tx.state = .new)
    (hbindings : tx.boundPlan.bindings = some bindings) :
    NeverOverCommits T tx ↔ StructurallyRefused bindings tx.operations tx.commitBoundary ∨
      ChargesFit T bindings tx.operations := by
  refine ⟨fun hnever => ?_, neverOverCommits_of_fits hstate hbindings⟩
  obtain ⟨hreturns, hwithin⟩ := hnever _ (fakeBackend T) .new 0 (by
    intro partition record b
    by_cases hheld : partition ∈ b.reservations <;>
      simp [fakeBackend, FakeExecutionBackend.reserve, hheld])
  obtain ⟨answer, hgates⟩ := structuralGates_returns bindings tx.operations tx.commitBoundary
  cases answer with
  | error error => exact .inl ⟨error, hgates⟩
  | ok keys =>
    right
    have hsound := structuralGates_ok hgates
    cases hchecks : T.overflowChecks with
    | true =>
      have hbudget : ∃ answer, budgetGate T bindings tx.operations = some answer := by
        by_contra hnone
        have hnone : budgetGate T bindings tx.operations = none :=
          Option.eq_none_iff_forall_ne_some.mpr fun answer h => hnone ⟨answer, h⟩
        obtain ⟨answer, hcall⟩ := Option.ne_none_iff_exists'.mp hreturns
        have hpanics : (prepare T (fakeBackend T) 0).wp True (fun _ _ => False)
            (fun _ _ => False) ⟨tx, FakeExecutionBackend.new⟩ := by
          rw [wp_prepare_new hstate hbindings, hgates, Call.wp_lift_ok, hnone]
          exact trivial
        exact Call.wp_of_some (P := fun _ => False) hpanics hcall
      simpa [ChargesFit, hchecks] using (budgetGate_returns_iff hsound.admitted).mp hbudget hchecks
    | false =>
      simp only [ChargesFit, hchecks, Bool.false_eq_true, if_false]
      by_contra hnot
      push Not at hnot
      obtain ⟨hexceeds, hcompared⟩ := hnot
      obtain ⟨reservation, hbudget⟩ := (budgetGate_ok_iff (T := T) hsound.admitted).mpr
        ⟨by simp [hchecks], fun partition hmem => ⟨by simp [hchecks], hcompared partition hmem⟩⟩
      have hcall := prepare_granted (fakeBackend_grants T)
        (m := ⟨tx, FakeExecutionBackend.new⟩) 0 hstate hbindings hgates hbudget rfl
      obtain ⟨partition, hmem, hover⟩ := hexceeds
      obtain ⟨ledger, hledger⟩ := hsound.admitted partition hmem
      obtain ⟨hsix, hthree⟩ := hwithin _ hcall bindings ledger partition hmem hbindings hledger
      have hsixFits := UInt64.toNat_lt ledger.transferStagingBytes
      have hthreeFits := UInt64.toNat_lt ledger.activationScratchBytes
      have := hover (by omega)
      omega

end Prepare

theorem admitted_prepare_neverOverCommits : ∃ tx bindings,
    TwoPartitions.transaction .release TwoPartitions.ledgers TwoPartitions.operations
        TwoPartitions.boundary = some tx ∧
      tx.boundPlan.bindings = some bindings ∧
      (NeverOverCommits .release tx ↔
        StructurallyRefused bindings tx.operations tx.commitBoundary ∨
          ChargesFit .release bindings tx.operations) := by
  have hbuilds : (TwoPartitions.transaction .release TwoPartitions.ledgers
      TwoPartitions.operations TwoPartitions.boundary).isSome = true := by decide +kernel
  obtain ⟨tx, htx⟩ := Option.isSome_iff_exists.mp hbuilds
  obtain ⟨bound, hnew⟩ := TwoPartitions.new_of_transaction htx
  obtain ⟨bindings, hbindings⟩ := bindings_some tx
  exact ⟨tx, bindings, htx, hbindings, prepare_neverOverCommits_iff
    (ExecutionTransaction.new_ok hnew).2.2.2.state hbindings⟩

/-- Two transfers whose staging bytes add up to 2^64. -/
def wrappingTransfers : List TransactionOperation :=
  [TwoPartitions.transfer "t1" (UInt64.ofNat (2 ^ 63)),
    TwoPartitions.transfer "t2" (UInt64.ofNat (2 ^ 63))]

/-- Without overflow checks the sum wraps to zero and `prepare` accepts it; with
    them `prepare` panics. -/
theorem wrapped_sum_accepted : ∃ tx m' checked,
    TwoPartitions.transaction .release TwoPartitions.ledgers wrappingTransfers ⟨∅, ∅⟩ = some tx ∧
      prepare .release (fakeBackend .release) 0 ⟨tx, .new⟩ = some (.ok (), m') ∧
      exactStaging tx.operations (Coordinator.TwoPartitions.partition 0) = 2 ^ 64 ∧
      TwoPartitions.transaction .dev TwoPartitions.ledgers wrappingTransfers ⟨∅, ∅⟩ =
        some checked ∧
      prepare .dev (fakeBackend .dev) 0 ⟨checked, .new⟩ = none := by
  have hwraps : (TwoPartitions.transaction .release TwoPartitions.ledgers wrappingTransfers
      ⟨∅, ∅⟩).any (fun tx =>
        (Call.okEnd (prepare .release (fakeBackend .release) 0) ⟨tx, .new⟩).isSome ∧
        exactStaging tx.operations (Coordinator.TwoPartitions.partition 0) = 2 ^ 64) =
          true := by decide +kernel
  have hpanics : (TwoPartitions.transaction .dev TwoPartitions.ledgers wrappingTransfers
      ⟨∅, ∅⟩).any (fun tx =>
        (prepare .dev (fakeBackend .dev) 0 ⟨tx, .new⟩).isNone) = true := by decide +kernel
  obtain ⟨tx, htx, hrun⟩ := (Option.any_eq_true _ _).mp hwraps
  obtain ⟨haccepts, hexact⟩ := of_decide_eq_true hrun
  obtain ⟨⟨_, m'⟩, hprepare⟩ := Option.isSome_iff_exists.mp haccepts
  obtain ⟨checked, hchecked, hnone⟩ := (Option.any_eq_true _ _).mp hpanics
  exact ⟨tx, m', checked, htx, Call.okEnd_eq_some_iff.mp hprepare, hexact, hchecked,
    Option.isNone_iff_eq_none.mp hnone⟩

end FaberHosts.Transaction
