import FaberHosts.Transaction.Budget

/-!
# Shared virtual partitions

`bind` accepts two logical partitions that carry one virtual partition, and
`prepare` charges each of them against the whole admitted ledger.  The budget of
a shared virtual partition is therefore spent twice as soon as a reservation can
be charged against it at all.
-/

namespace FaberHosts.Transaction
open FaberHosts.Lib FaberHosts.Coordinator Machine

variable {T : Toolchain} {bindings : Bindings} {operations : List TransactionOperation}
  {reservation : Reservation} {partition : LogicalPartitionId}

/-- The class-6 bytes a reservation holds for a partition. -/
def reservedClassSix (reservation : Reservation) (partition : LogicalPartitionId) : Nat :=
  (reservation[partition]?).elim 0 (fun record => record.classSixBytes.toNat)

/-- The class-3 bytes a reservation holds for a partition. -/
def reservedClassThree (T : Toolchain) (reservation : Reservation)
    (partition : LogicalPartitionId) : Nat :=
  ((reservation[partition]?).bind (fun record => record.classThreeBytes T)).elim 0 UInt64.toNat

/-- The partition is bound to the virtual partition. -/
def Attached (bindings : Bindings) (partition : LogicalPartitionId)
    (admitted : VirtualDevicePartition) : Prop :=
  ∃ binding, bindings[partition]? = some binding ∧ binding.virtualPartition = some admitted

/-- The logical partitions bound to one virtual partition. -/
def sharers (bindings : Bindings) (id : VirtualDevicePartitionId) : List LogicalPartitionId :=
  (bindings.toList.filter (fun bound =>
    bound.2.virtualPartition.any (fun admitted => admitted.id = id))).map Prod.fst

/-- The bytes reserved over all sharers are within the admitted classes. -/
def SpentOnce (T : Toolchain) (bindings : Bindings) (reservation : Reservation) : Prop :=
  ∀ partition admitted, Attached bindings partition admitted →
    ((sharers bindings admitted.id).map (reservedClassSix reservation)).sum ≤
        admitted.ledger.transferStagingBytes.toNat ∧
      ((sharers bindings admitted.id).map (reservedClassThree T reservation)).sum ≤
        admitted.ledger.activationScratchBytes.toNat

/-- Whatever operations `prepare` accepts over the bound plan, no virtual
    partition's budget is spent twice. -/
def NeverDoubleSpends (T : Toolchain) (bound : BoundDistributedPlan) : Prop :=
  ∀ (β : Type) (B : DeviceExecutionBackend β) (b : β) (elapsed : Nat) (id : TransactionId)
    (operations : List TransactionOperation) (boundary : TransactionCommitBoundary)
    (tx : ExecutionTransaction) (m' : Machine β) (reservation : Reservation)
    (bindings : Bindings),
    ExecutionTransaction.new id bound operations boundary = .ok tx →
      prepare T B elapsed ⟨tx, b⟩ = some (.ok (), m') →
        m'.transaction.reservation = some reservation → bound.bindings = some bindings →
          SpentOnce T bindings reservation

/-- The class-3 bytes of a partition that one operation involves and nothing
    else charges. -/
def classThreeFloor : Nat := eventObjectBytes.toNat + transactionScratchBytesPerPartition.toNat

/-- No bytes can be charged against the ledger.  With overflow checks one event
    object and the scratch are over its class-3 budget; a wrapped charge fits any
    budget, so without them both budgets are empty. -/
def Unchargeable (T : Toolchain) (ledger : PartitionBudgetLedger) : Prop :=
  if T.overflowChecks then ledger.activationScratchBytes.toNat < classThreeFloor
  else ledger.activationScratchBytes.toNat = 0 ∧ ledger.transferStagingBytes.toNat = 0

/-- Virtual partitions that several logical ones share cannot be charged. -/
def SharesNoBudget (T : Toolchain) (bindings : Bindings) : Prop :=
  ∀ p q admitted admitted', p ≠ q → Attached bindings p admitted →
    Attached bindings q admitted' → admitted.id = admitted'.id → Unchargeable T admitted.ledger

/-! ## Sharers -/

theorem mem_sharers {id : VirtualDevicePartitionId} :
    partition ∈ sharers bindings id ↔
      ∃ admitted, Attached bindings partition admitted ∧ admitted.id = id := by
  simp only [sharers, List.mem_map, List.mem_filter, Option.any_eq_true, decide_eq_true_eq,
    Prod.exists, exists_and_right, exists_eq_right, Std.ExtTreeMap.mem_toList_iff_getElem?_eq_some,
    Attached]
  constructor
  · rintro ⟨binding, hbinding, admitted, hadmitted, hid⟩
    exact ⟨admitted, ⟨binding, hbinding, hadmitted⟩, hid⟩
  · rintro ⟨admitted, ⟨binding, hbinding, hadmitted⟩, hid⟩
    exact ⟨binding, hbinding, admitted, hadmitted, hid⟩

theorem nodup_sharers (bindings : Bindings) (id : VirtualDevicePartitionId) :
    (sharers bindings id).Nodup :=
  (List.filter_sublist.map Prod.fst).nodup (nodup_keys_toList bindings)

theorem Attached.ledger {admitted : VirtualDevicePartition}
    (h : Attached bindings partition admitted) :
    admittedLedger bindings partition = some admitted.ledger := by
  obtain ⟨binding, hbinding, hadmitted⟩ := h
  simp [admittedLedger, hbinding, hadmitted]

theorem admitted_of_attached
    (h : ∀ partition ∈ referencedPartitions operations,
      ∃ admitted, Attached bindings partition admitted) :
    ∀ partition ∈ referencedPartitions operations,
      ∃ ledger, admittedLedger bindings partition = some ledger := by
  intro partition hmem
  obtain ⟨admitted, hattached⟩ := h partition hmem
  exact ⟨admitted.ledger, hattached.ledger⟩

/-! ## What an accepted reservation holds -/

theorem classThreeFloor_le (hmem : partition ∈ referencedPartitions operations) :
    classThreeFloor ≤ exactClassThree operations partition := by
  obtain ⟨operation, hop, hpart⟩ := mem_referencedPartitions.mp hmem
  have hevent : (partition, eventObjectBytes) ∈ operations.flatMap (·.eventCharges) := by
    refine List.mem_flatMap.mpr ⟨operation, hop, ?_⟩
    exact List.mem_map.mpr ⟨partition, by simpa using hpart, rfl⟩
  have hcharged : eventObjectBytes.toNat ≤ exactEvents operations partition :=
    le_amountAt_of_mem hevent
  rw [classThreeFloor, exactClassThree]
  omega

section Accepted

variable (hadmitted : ∀ partition ∈ referencedPartitions operations,
    ∃ ledger, admittedLedger bindings partition = some ledger)
  (hbudget : budgetGate T bindings operations = some (.ok reservation))

include hbudget

theorem reserved_outside (hmem : partition ∉ referencedPartitions operations) :
    reservedClassSix reservation partition = 0 ∧ reservedClassThree T reservation partition = 0 := by
  obtain ⟨record, rfl, -⟩ := budgetGate_records hbudget
  simp [reservedClassSix, reservedClassThree, getElem?_mapOver, hmem]

include hadmitted

theorem reserved_inside (hmem : partition ∈ referencedPartitions operations) :
    reservedClassSix reservation partition = exactStaging operations partition % 2 ^ 64 ∧
      reservedClassThree T reservation partition =
        exactClassThree operations partition % 2 ^ 64 := by
  obtain ⟨hfit, hwithin⟩ := (budgetGate_ok_iff hadmitted).mp ⟨reservation, hbudget⟩
  obtain ⟨record, rfl, hrecord⟩ := budgetGate_records hbudget
  obtain ⟨total, htotal⟩ :=
    ((hrecord partition).classThree_returns_iff hfit).mpr (hwithin partition hmem).1
  simp only [reservedClassSix, reservedClassThree, getElem?_mapOver, hmem, if_true,
    Option.elim_some, Option.bind_some, htotal]
  exact ⟨(hrecord partition).staging, (hrecord partition).classThree_some htotal⟩

/-- Each partition's own reservation is admitted, and empty when nothing can be
    charged. -/
theorem reserved_within {admitted : VirtualDevicePartition}
    (hattached : Attached bindings partition admitted) :
    reservedClassSix reservation partition ≤ admitted.ledger.transferStagingBytes.toNat ∧
      reservedClassThree T reservation partition ≤
        admitted.ledger.activationScratchBytes.toNat ∧
      (Unchargeable T admitted.ledger → reservedClassSix reservation partition = 0 ∧
        reservedClassThree T reservation partition = 0) := by
  by_cases hmem : partition ∈ referencedPartitions operations
  · obtain ⟨hsix, hthree⟩ := reserved_inside hadmitted hbudget hmem
    obtain ⟨hfit, hcompared⟩ := ((budgetGate_ok_iff hadmitted).mp ⟨reservation, hbudget⟩).2
      partition hmem
    obtain ⟨hsixLe, hthreeLe⟩ := hcompared _ hattached.ledger
    rw [hsix, hthree]
    refine ⟨hsixLe, hthreeLe, ?_⟩
    have hfloor := classThreeFloor_le hmem
    cases hchecks : T.overflowChecks with
    | true =>
      have hexact := hfit hchecks
      simp only [Unchargeable, hchecks, if_true]
      omega
    | false =>
      simp only [Unchargeable, hchecks, Bool.false_eq_true, if_false]
      omega
  · obtain ⟨hsix, hthree⟩ := reserved_outside hbudget hmem
    rw [hsix, hthree]
    exact ⟨Nat.zero_le _, Nat.zero_le _, fun _ => ⟨rfl, rfl⟩⟩

theorem spentOnce_of_sharesNoBudget (hshares : SharesNoBudget T bindings) :
    SpentOnce T bindings reservation := by
  intro partition admitted hattached
  have hothers : ∀ q ∈ sharers bindings admitted.id, q ≠ partition →
      reservedClassSix reservation q = 0 ∧ reservedClassThree T reservation q = 0 := by
    intro q hq hne
    obtain ⟨admitted', hattached', hid⟩ := mem_sharers.mp hq
    exact (reserved_within hadmitted hbudget hattached').2.2
      (hshares q partition admitted' admitted hne hattached' hattached hid)
  obtain ⟨hsix, hthree, -⟩ := reserved_within hadmitted hbudget hattached
  have hnodup := nodup_sharers bindings admitted.id
  exact ⟨(sum_map_le_of_others_zero hnodup (fun q hq hne => (hothers q hq hne).1)).trans hsix,
    (sum_map_le_of_others_zero hnodup (fun q hq hne => (hothers q hq hne).2)).trans hthree⟩

end Accepted

/-! ## Plans that spend a shared budget twice -/

/-- A launch on one partition. -/
def launchOn (partition : LogicalPartitionId) (name : String) (outputBytes : UInt64) :
    TransactionOperation := .launch partition ⟨name⟩ outputBytes

/-- A broadcast with one participant, which stages bytes and writes nothing. -/
def stageOn (partition : LogicalPartitionId) (name : String) (byteCount : UInt64) :
    TransactionOperation :=
  .collectiveBroadcast ⟨⟨name⟩, partition, setOf [partition], byteCount⟩

theorem launchOn_amounts (p q : LogicalPartitionId) (name : String) (bytes : UInt64) :
    amountAt q (launchOn p name bytes).stagingCharges = 0 ∧
      amountAt q (launchOn p name bytes).outputCharges = (if p = q then bytes.toNat else 0) ∧
      amountAt q (launchOn p name bytes).eventCharges = if p = q then 64 else 0 := by
  refine ⟨rfl, by simp [launchOn, TransactionOperation.outputCharges], ?_⟩
  simp [launchOn, TransactionOperation.eventCharges, TransactionOperation.partitions,
    eventObjectBytes]

theorem stageOn_amounts (p q : LogicalPartitionId) (name : String) (bytes : UInt64) :
    amountAt q (stageOn p name bytes).stagingCharges = (if p = q then bytes.toNat else 0) ∧
      amountAt q (stageOn p name bytes).outputCharges = 0 ∧
      amountAt q (stageOn p name bytes).eventCharges = if p = q then 64 else 0 := by
  refine ⟨?_, ?_, ?_⟩
  · simp [stageOn, TransactionOperation.stagingCharges]
  · simp [stageOn, TransactionOperation.outputCharges]
  · simp [stageOn, TransactionOperation.eventCharges, TransactionOperation.partitions,
      eventObjectBytes]

/-- Launches on two partitions. -/
def launchBoth (p q : LogicalPartitionId) (first second : UInt64) : List TransactionOperation :=
  [launchOn p "first" first, launchOn q "second" second]

/-- Launches on two partitions that also stage bytes on both. -/
def stageBoth (p q : LogicalPartitionId) (first second staged staged' : UInt64) :
    List TransactionOperation :=
  launchBoth p q first second ++ [stageOn p "first" staged, stageOn q "second" staged']

/-- The output bytes that fill a class-3 budget above the other charges. -/
theorem fill_classThree (budget other : UInt64) :
    ((budget - other).toNat + other.toNat) % 2 ^ 64 = budget.toNat := by
  rw [← UInt64.toNat_add, UInt64.sub_add_cancel]

section Spend

variable {bound : BoundDistributedPlan} (hnever : NeverDoubleSpends T bound)
  (hbindings : bound.bindings = some bindings)

include hnever hbindings

theorem spentOnce_of_accepted (operations : List TransactionOperation) (hops : operations ≠ [])
    (hunique : (operations.map (·.operationRef)).Nodup)
    (hattached : ∀ partition ∈ referencedPartitions operations,
      ∃ admitted, Attached bindings partition admitted)
    (hfit : T.overflowChecks = true → SumsFit operations)
    (hcharged : ∀ partition ∈ referencedPartitions operations,
      (T.overflowChecks = true → exactClassThree operations partition < 2 ^ 64) ∧
        ∀ admitted, Attached bindings partition admitted →
          WrappedWithinLedger operations partition admitted.ledger) :
    ∃ reservation, budgetGate T bindings operations = some (.ok reservation) ∧
      SpentOnce T bindings reservation := by
  have hadmitted := admitted_of_attached hattached
  obtain ⟨reservation, hbudget⟩ := (budgetGate_ok_iff (T := T) hadmitted).mpr ⟨hfit, by
    intro partition hmem
    obtain ⟨admitted, h⟩ := hattached partition hmem
    refine ⟨(hcharged partition hmem).1, fun ledger hledger => ?_⟩
    rw [h.ledger] at hledger
    cases hledger
    exact (hcharged partition hmem).2 admitted h⟩
  obtain ⟨keys, hgates⟩ := structuralGates_accepts hunique (by
    intro partition hmem
    obtain ⟨admitted, binding, hbinding, hvirtual⟩ := hattached partition hmem
    exact ⟨binding, admitted, hbinding, hvirtual⟩)
  obtain ⟨tx, hnew⟩ := ExecutionTransaction.new_of_bindings hbindings ⟨""⟩ hops ⟨∅, ∅⟩
  obtain ⟨hbound, hoperations, hboundary, hfresh⟩ := ExecutionTransaction.new_ok hnew
  have hprepare := prepare_granted (T := T) (fakeBackend_grants T)
    (m := ⟨tx, FakeExecutionBackend.new⟩) 0 hfresh.state (by rw [hbound]; exact hbindings)
    (by rw [hoperations, hboundary]; exact hgates) (by rw [hoperations]; exact hbudget) rfl
  exact ⟨reservation, hbudget, hnever _ _ _ _ _ _ _ _ _ _ _ hnew hprepare rfl hbindings⟩

end Spend

section Plans

variable {p q r : LogicalPartitionId} (first second staged staged' : UInt64)

theorem launch_exact (p r : LogicalPartitionId) :
    exactStaging [launchOn p "first" first] r = 0 ∧
      exactOutputs [launchOn p "first" first] r = (if p = r then first.toNat else 0) ∧
      exactEvents [launchOn p "first" first] r = if p = r then 64 else 0 := by
  simp [exactStaging_cons, exactOutputs_cons, exactEvents_cons, launchOn_amounts]

theorem launchBoth_exact (p q r : LogicalPartitionId) :
    exactStaging (launchBoth p q first second) r = 0 ∧
      exactOutputs (launchBoth p q first second) r =
        (if p = r then first.toNat else 0) + (if q = r then second.toNat else 0) ∧
      exactEvents (launchBoth p q first second) r =
        (if p = r then 64 else 0) + if q = r then 64 else 0 := by
  simp [launchBoth, exactStaging_cons, exactOutputs_cons, exactEvents_cons, launchOn_amounts]

theorem stageBoth_exact (p q r : LogicalPartitionId) :
    exactStaging (stageBoth p q first second staged staged') r =
        (if p = r then staged.toNat else 0) + (if q = r then staged'.toNat else 0) ∧
      exactOutputs (stageBoth p q first second staged staged') r =
        (if p = r then first.toNat else 0) + (if q = r then second.toNat else 0) ∧
      exactEvents (stageBoth p q first second staged staged') r =
        (if p = r then 128 else 0) + if q = r then 128 else 0 := by
  simp only [stageBoth, launchBoth, List.cons_append, List.nil_append, exactStaging_cons,
    exactOutputs_cons, exactEvents_cons, launchOn_amounts, stageOn_amounts, exactStaging_nil,
    exactOutputs_nil, exactEvents_nil]
  refine ⟨by omega, by omega, ?_⟩
  split_ifs <;> rfl

theorem scratch_toNat : transactionScratchBytesPerPartition.toNat = 4096 := rfl

theorem launch_sumsFit (p : LogicalPartitionId) : SumsFit [launchOn p "first" first] := by
  intro r
  obtain ⟨hstaging, houtputs, hevents⟩ := launch_exact first p r
  have hfirst := UInt64.toNat_lt first
  rw [hstaging, houtputs, hevents]
  split_ifs <;> omega

theorem launchBoth_sumsFit (hne : p ≠ q) : SumsFit (launchBoth p q first second) := by
  intro r
  obtain ⟨hstaging, houtputs, hevents⟩ := launchBoth_exact first second p q r
  have hfirst := UInt64.toNat_lt first
  have hsecond := UInt64.toNat_lt second
  rw [hstaging, houtputs, hevents]
  by_cases hp : p = r
  · subst hp
    simp only [if_true, hne.symm, if_false]
    omega
  · simp only [hp, if_false]
    split_ifs <;> omega

theorem launchBoth_classThree (hne : p ≠ q) :
    exactClassThree (launchBoth p q first second) p = first.toNat + 4160 ∧
      exactClassThree (launchBoth p q first second) q = second.toNat + 4160 := by
  have hp := launchBoth_exact first second p q p
  have hq := launchBoth_exact first second p q q
  simp only [if_true, hne, hne.symm, if_false] at hp hq
  rw [exactClassThree, exactClassThree, scratch_toNat]
  omega

theorem stageBoth_classThree (hne : p ≠ q) :
    exactClassThree (stageBoth p q first second staged staged') p = first.toNat + 4224 ∧
      exactClassThree (stageBoth p q first second staged staged') q = second.toNat + 4224 := by
  have hp := stageBoth_exact first second staged staged' p q p
  have hq := stageBoth_exact first second staged staged' p q q
  simp only [if_true, hne, hne.symm, if_false] at hp hq
  rw [exactClassThree, exactClassThree, scratch_toNat]
  omega

theorem stageBoth_staging (hne : p ≠ q) :
    exactStaging (stageBoth p q first second staged staged') p = staged.toNat ∧
      exactStaging (stageBoth p q first second staged staged') q = staged'.toNat := by
  have hp := (stageBoth_exact first second staged staged' p q p).1
  have hq := (stageBoth_exact first second staged staged' p q q).1
  simp only [if_true, hne, hne.symm, if_false] at hp hq
  omega

theorem mem_referenced_launch :
    r ∈ referencedPartitions [launchOn p "first" first] ↔ r = p := by
  simp [mem_referencedPartitions, launchOn, TransactionOperation.partitions]

theorem mem_referenced_launchBoth :
    r ∈ referencedPartitions (launchBoth p q first second) ↔ r = p ∨ r = q := by
  simp [mem_referencedPartitions, launchBoth, launchOn, TransactionOperation.partitions]

theorem mem_referenced_stageBoth :
    r ∈ referencedPartitions (stageBoth p q first second staged staged') ↔ r = p ∨ r = q := by
  simp only [mem_referencedPartitions, stageBoth, launchBoth, launchOn, stageOn,
    TransactionOperation.partitions, List.cons_append, List.nil_append, List.mem_cons,
    List.not_mem_nil, or_false, exists_eq_or_imp, exists_eq_left, mem_setOf]
  tauto

end Plans

section Twice

variable {bound : BoundDistributedPlan} {p q : LogicalPartitionId}
  {admitted admitted' : VirtualDevicePartition} (hnever : NeverDoubleSpends T bound)
  (hbindings : bound.bindings = some bindings) (hne : p ≠ q)
  (hp : Attached bindings p admitted) (hq : Attached bindings q admitted')
  (hid : admitted.id = admitted'.id)

theorem Attached.unique {first second : VirtualDevicePartition}
    (h : Attached bindings p first) (h' : Attached bindings p second) : first = second := by
  obtain ⟨binding, hbinding, hfirst⟩ := h
  obtain ⟨binding', hbinding', hsecond⟩ := h'
  rw [hbinding] at hbinding'
  cases hbinding'
  rw [hfirst] at hsecond
  exact Option.some.inj hsecond

include hne hp hq hid in
theorem SpentOnce.pair_le (h : SpentOnce T bindings reservation) :
    reservedClassSix reservation p + reservedClassSix reservation q ≤
        admitted'.ledger.transferStagingBytes.toNat ∧
      reservedClassThree T reservation p + reservedClassThree T reservation q ≤
        admitted'.ledger.activationScratchBytes.toNat := by
  obtain ⟨hsix, hthree⟩ := h q admitted' hq
  have hpShares : p ∈ sharers bindings admitted'.id := mem_sharers.mpr ⟨admitted, hp, hid⟩
  have hqShares : q ∈ sharers bindings admitted'.id := mem_sharers.mpr ⟨admitted', hq, rfl⟩
  exact ⟨(add_le_sum_map hne hpShares hqShares).trans hsix,
    (add_le_sum_map hne hpShares hqShares).trans hthree⟩

include hnever hbindings hne hp hq hid

/-- What an accepted plan over the two sharers charges them is within the budget
    of either. -/
theorem charged_pair_le (operations : List TransactionOperation) (hops : operations ≠ [])
    (hunique : (operations.map (·.operationRef)).Nodup)
    (hreferenced : ∀ r, r ∈ referencedPartitions operations ↔ r = p ∨ r = q)
    (hfit : T.overflowChecks = true → SumsFit operations)
    (hthree : ∀ r ∈ referencedPartitions operations,
      T.overflowChecks = true → exactClassThree operations r < 2 ^ 64)
    (hpWithin : WrappedWithinLedger operations p admitted.ledger)
    (hqWithin : WrappedWithinLedger operations q admitted'.ledger) :
    exactStaging operations p % 2 ^ 64 + exactStaging operations q % 2 ^ 64 ≤
        admitted'.ledger.transferStagingBytes.toNat ∧
      exactClassThree operations p % 2 ^ 64 + exactClassThree operations q % 2 ^ 64 ≤
        admitted'.ledger.activationScratchBytes.toNat := by
  have hattached : ∀ r ∈ referencedPartitions operations, ∃ a, Attached bindings r a := by
    intro r hr
    rcases (hreferenced r).mp hr with rfl | rfl
    · exact ⟨admitted, hp⟩
    · exact ⟨admitted', hq⟩
  obtain ⟨reservation, hbudget, hspent⟩ := spentOnce_of_accepted hnever hbindings operations
    hops hunique
    hattached hfit (by
      intro r hr
      refine ⟨hthree r hr, fun a ha => ?_⟩
      rcases (hreferenced r).mp hr with rfl | rfl
      · rw [ha.unique hp]
        exact hpWithin
      · rw [ha.unique hq]
        exact hqWithin)
  have hadmitted := admitted_of_attached hattached
  obtain ⟨hpSix, hpThree⟩ := reserved_inside hadmitted hbudget ((hreferenced p).mpr (.inl rfl))
  obtain ⟨hqSix, hqThree⟩ := reserved_inside hadmitted hbudget ((hreferenced q).mpr (.inr rfl))
  rw [← hpSix, ← hqSix, ← hpThree, ← hqThree]
  exact hspent.pair_le hne hp hq hid

/-- With overflow checks a sharer whose class-3 budget holds one operation makes
    the shared budget be spent twice. -/
theorem checked_sharer_small (hchecks : T.overflowChecks = true) :
    admitted.ledger.activationScratchBytes.toNat < classThreeFloor := by
  by_contra hlarge
  have hpBudget := UInt64.toNat_lt admitted.ledger.activationScratchBytes
  have hqBudget := UInt64.toNat_lt admitted'.ledger.activationScratchBytes
  have hfloor : classThreeFloor = 4160 := rfl
  have hlit : (4160 : UInt64).toNat = 4160 := rfl
  by_cases hqLarge : classThreeFloor ≤ admitted'.ledger.activationScratchBytes.toNat
  · -- Both sharers fill their class-3 budget.
    have hfirst := fill_classThree admitted.ledger.activationScratchBytes 4160
    have hsecond := fill_classThree admitted'.ledger.activationScratchBytes 4160
    generalize admitted.ledger.activationScratchBytes - 4160 = first at hfirst
    generalize admitted'.ledger.activationScratchBytes - 4160 = second at hsecond
    have hfirstFits := UInt64.toNat_lt first
    have hsecondFits := UInt64.toNat_lt second
    obtain ⟨hpThree, hqThree⟩ := launchBoth_classThree first second hne
    have hpStaging := (launchBoth_exact first second p q p).1
    have hqStaging := (launchBoth_exact first second p q q).1
    obtain ⟨-, hpair⟩ := charged_pair_le hnever hbindings hne hp hq hid
      (launchBoth p q first second) (by simp [launchBoth])
      (by simp [launchBoth, launchOn, TransactionOperation.operationRef])
      (fun r => mem_referenced_launchBoth first second)
      (fun _ => launchBoth_sumsFit first second hne)
      (by
        intro r hr _
        rcases (mem_referenced_launchBoth first second).mp hr with rfl | rfl <;> omega)
      ⟨by omega, by omega⟩ ⟨by omega, by omega⟩
    omega
  · -- One operation of the first sharer is over the second one's budget.
    obtain ⟨hstaging, houtputs, hevents⟩ := launch_exact 0 p p
    have hzero : (0 : UInt64).toNat = 0 := rfl
    simp only [if_true, hzero] at houtputs hevents
    have hthree : exactClassThree [launchOn p "first" 0] p = 4160 := by
      rw [exactClassThree, houtputs, hevents, scratch_toNat]
    have hattached : ∀ r ∈ referencedPartitions [launchOn p "first" 0],
        ∃ a, Attached bindings r a := by
      intro r hr
      rw [(mem_referenced_launch 0).mp hr]
      exact ⟨admitted, hp⟩
    obtain ⟨reservation, hbudget, hspent⟩ := spentOnce_of_accepted hnever hbindings
      [launchOn p "first" 0] (by simp) (by simp) hattached
      (fun _ => launch_sumsFit 0 p) (by
        intro r hr
        rw [(mem_referenced_launch 0).mp hr]
        refine ⟨fun _ => by omega, fun a ha => ?_⟩
        rw [ha.unique hp]
        exact ⟨by omega, by omega⟩)
    have hpThree := (reserved_inside (admitted_of_attached hattached) hbudget
      ((mem_referenced_launch 0).mpr rfl)).2
    have hpair := (hspent.pair_le hne hp hq hid).2
    omega

/-- Without overflow checks wrapped outputs fill both sharers' budgets. -/
theorem unchecked_sharer_empty (hchecks : T.overflowChecks = false) :
    admitted.ledger.activationScratchBytes.toNat = 0 ∧
      admitted.ledger.transferStagingBytes.toNat = 0 := by
  have hfirst := fill_classThree admitted.ledger.activationScratchBytes 4224
  have hsecond := fill_classThree admitted'.ledger.activationScratchBytes 4224
  generalize admitted.ledger.activationScratchBytes - 4224 = first at hfirst
  generalize admitted'.ledger.activationScratchBytes - 4224 = second at hsecond
  have hlit : (4224 : UInt64).toNat = 4224 := rfl
  rw [hlit] at hfirst hsecond
  have hpSix := UInt64.toNat_lt admitted.ledger.transferStagingBytes
  have hqSix := UInt64.toNat_lt admitted'.ledger.transferStagingBytes
  obtain ⟨hpThree, hqThree⟩ := stageBoth_classThree first second
    admitted.ledger.transferStagingBytes admitted'.ledger.transferStagingBytes hne
  obtain ⟨hpStaging, hqStaging⟩ := stageBoth_staging first second
    admitted.ledger.transferStagingBytes admitted'.ledger.transferStagingBytes hne
  have hpair := charged_pair_le hnever hbindings hne hp hq hid
    (stageBoth p q first second admitted.ledger.transferStagingBytes
      admitted'.ledger.transferStagingBytes) (by simp [stageBoth, launchBoth])
    (by simp [stageBoth, launchBoth, launchOn, stageOn, TransactionOperation.operationRef])
    (fun r => mem_referenced_stageBoth first second _ _) (by simp [hchecks]) (by simp [hchecks])
    ⟨by rw [hpStaging, Nat.mod_eq_of_lt hpSix], by rw [hpThree, hfirst]⟩
    ⟨by rw [hqStaging, Nat.mod_eq_of_lt hqSix], by rw [hqThree, hsecond]⟩
  rw [hpStaging, hqStaging, hpThree, hqThree, hfirst, hsecond, Nat.mod_eq_of_lt hpSix,
    Nat.mod_eq_of_lt hqSix] at hpair
  omega

end Twice

/-- Admitted budgets are never spent twice exactly when no shared virtual
    partition can be charged. -/
theorem neverDoubleSpends_iff {bound : BoundDistributedPlan}
    (hbindings : bound.bindings = some bindings) :
    NeverDoubleSpends T bound ↔ SharesNoBudget T bindings := by
  constructor
  · intro hnever p q admitted admitted' hne hp hq hid
    cases hchecks : T.overflowChecks with
    | true =>
      simpa [Unchargeable, hchecks] using
        checked_sharer_small hnever hbindings hne hp hq hid hchecks
    | false =>
      simpa [Unchargeable, hchecks] using
        unchecked_sharer_empty hnever hbindings hne hp hq hid hchecks
  · intro hshares β B b elapsed id operations boundary tx m' reservation bindings' hnew hprepare
      hreservation hbindings'
    rw [hbindings] at hbindings'
    cases hbindings'
    obtain ⟨hbound, hoperations, hboundary, hfresh⟩ := ExecutionTransaction.new_ok hnew
    obtain ⟨bindings', keys, accepted, hown, hgates, hbudget, htx⟩ :=
      prepare_ok hfresh.state hprepare
    rw [hbound, hbindings] at hown
    cases hown
    rw [htx] at hreservation
    cases hreservation
    exact spentOnce_of_sharesNoBudget (structuralGates_ok hgates).admitted hbudget hshares

theorem bound_neverDoubleSpends : ∃ bound bindings,
    Coordinator.TwoPartitions.plan .dev (1, 2)
        (Coordinator.TwoPartitions.device 0, Coordinator.TwoPartitions.device 1)
        TwoPartitions.ledgers = some bound ∧
      bound.bindings = some bindings ∧
      (NeverDoubleSpends .dev bound ↔ SharesNoBudget .dev bindings) := by
  have hbuilds : (Coordinator.TwoPartitions.plan .dev (1, 2)
      (Coordinator.TwoPartitions.device 0, Coordinator.TwoPartitions.device 1)
      TwoPartitions.ledgers).any (fun bound => bound.bindings.isSome) = true := by decide +kernel
  obtain ⟨bound, hbound, hsome⟩ := (Option.any_eq_true _ _).mp hbuilds
  obtain ⟨bindings, hbindings⟩ := Option.isSome_iff_exists.mp hsome
  exact ⟨bound, bindings, hbound, hbindings, neverDoubleSpends_iff hbindings⟩

/-- The plan `bind` answers for two logical partitions that carry the virtual
    partition `vp:1` of one device. -/
def sharedPlan (T : Toolchain) : Option BoundDistributedPlan :=
  Coordinator.TwoPartitions.plan T (1, 1)
    (Coordinator.TwoPartitions.device 0, Coordinator.TwoPartitions.device 0)
    (Coordinator.TwoPartitions.ledger 30976 10240, Coordinator.TwoPartitions.ledger 30976 10240)

/-- `prepare` reserves all staging bytes of `vp:1` for each of its two sharers. -/
theorem shared_staging_spent_twice : ∃ bound bindings tx m' reservation admitted,
    sharedPlan .dev = some bound ∧ bound.bindings = some bindings ∧
      ExecutionTransaction.new ⟨"txn-1"⟩ bound TwoPartitions.operations TwoPartitions.boundary =
        .ok tx ∧
      prepare .dev (fakeBackend .dev) 0 ⟨tx, .new⟩ = some (.ok (), m') ∧
      m'.transaction.reservation = some reservation ∧
      Attached bindings (Coordinator.TwoPartitions.partition 0) admitted ∧
      admitted.ledger.transferStagingBytes.toNat <
        ((sharers bindings admitted.id).map (reservedClassSix reservation)).sum := by
  have hruns : (sharedPlan .dev).any (fun bound => bound.bindings.any (fun bindings =>
      (ExecutionTransaction.new ⟨"txn-1"⟩ bound TwoPartitions.operations
          TwoPartitions.boundary).toOption.any (fun tx =>
        (Call.okEnd (prepare .dev (fakeBackend .dev) 0) ⟨tx, .new⟩).any (fun prepared =>
          prepared.2.transaction.reservation.any (fun reservation =>
            (bindings[Coordinator.TwoPartitions.partition 0]?).any (fun binding =>
              binding.virtualPartition.any (fun admitted =>
                admitted.ledger.transferStagingBytes.toNat <
                  ((sharers bindings admitted.id).map
                    (reservedClassSix reservation)).sum))))))) = true := by decide +kernel
  obtain ⟨bound, hbound, hruns⟩ := (Option.any_eq_true _ _).mp hruns
  obtain ⟨bindings, hbindings, hruns⟩ := (Option.any_eq_true _ _).mp hruns
  obtain ⟨tx, hnew, hruns⟩ := (Option.any_eq_true _ _).mp hruns
  obtain ⟨⟨_, m'⟩, hprepare, hruns⟩ := (Option.any_eq_true _ _).mp hruns
  obtain ⟨reservation, hreservation, hruns⟩ := (Option.any_eq_true _ _).mp hruns
  obtain ⟨binding, hbinding, hruns⟩ := (Option.any_eq_true _ _).mp hruns
  obtain ⟨admitted, hadmitted, hover⟩ := (Option.any_eq_true _ _).mp hruns
  exact ⟨bound, bindings, tx, m', reservation, admitted, hbound, hbindings,
    toOption_eq_some_iff.mp hnew, Call.okEnd_eq_some_iff.mp hprepare, hreservation,
    ⟨binding, hbinding, hadmitted⟩, of_decide_eq_true hover⟩

end FaberHosts.Transaction
