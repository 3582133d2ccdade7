import FaberHosts.Transaction.Transaction

/-!
# What the gates of `prepare` establish
-/

namespace FaberHosts.Transaction
open FaberHosts.Lib FaberHosts.Coordinator

theorem mem_referencedPartitions {operations : List TransactionOperation}
    {partition : LogicalPartitionId} :
    partition ∈ referencedPartitions operations ↔
      ∃ operation ∈ operations, partition ∈ operation.partitions := by
  simp [referencedPartitions]

theorem checkTopology_ok_iff {declared : BTreeSet LogicalPartitionId}
    {operations : List TransactionOperation} :
    checkTopology declared operations = .ok () ↔
      ∀ partition ∈ referencedPartitions operations, partition ∈ declared := by
  simp only [checkTopology, tryEach_ok_iff, mem_referencedPartitions]
  constructor
  · rintro h partition ⟨operation, hop, hpart⟩
    obtain ⟨i, hi⟩ := List.mem_iff_getElem?.mp hop
    have hchecked := h (operation, i) (List.mem_zipIdx_iff_getElem?.mpr hi) partition (by simpa)
    by_contra hnot
    simp [hnot] at hchecked
  · intro h indexed hindexed partition hpart
    have hop : indexed.1 ∈ operations := by
      exact List.mem_iff_getElem?.mpr ⟨_, List.mem_zipIdx_iff_getElem?.mp hindexed⟩
    rw [if_pos (h partition ⟨indexed.1, hop, by simpa using hpart⟩)]

/-! ## Operation keys -/

/-- The keys index the operations by their references, which are unique. -/
structure KeysIndex (keys : BTreeMap OperationRef Nat) (operations : List TransactionOperation) :
    Prop where
  lookup : ∀ {index : Nat} {operation : TransactionOperation},
    operations[index]? = some operation → keys[operation.operationRef]? = some index
  bounded : ∀ {key : OperationRef} {index : Nat}, keys[key]? = some index →
    ∃ operation, operations[index]? = some operation
  unique : (operations.map (·.operationRef)).Nodup

/-- The keys the loop builds: the given ones and one for each listed operation. -/
theorem snapshotKeys_ok {keys keys' : BTreeMap OperationRef Nat}
    {indexed : List (TransactionOperation × Nat)} (h : snapshotKeys keys indexed = .ok keys') :
    (∀ entry ∈ indexed, entry.1.operationRef ∉ keys) ∧
      (indexed.map (·.1.operationRef)).Nodup ∧
      (∀ key : OperationRef, key ∈ keys → keys'[key]? = keys[key]?) ∧
      (∀ entry ∈ indexed, keys'[entry.1.operationRef]? = some entry.2) ∧
      ∀ (key : OperationRef) (index : Nat), keys'[key]? = some index →
        keys[key]? = some index ∨ ∃ entry ∈ indexed, entry.2 = index := by
  induction indexed generalizing keys with
  | nil =>
    simp only [snapshotKeys, Except.ok.injEq] at h
    subst h
    simp
  | cons entry rest ih =>
    obtain ⟨operation, index⟩ := entry
    by_cases hdup : operation.operationRef ∈ keys
    · simp [snapshotKeys, hdup] at h
    rw [snapshotKeys, if_neg hdup] at h
    obtain ⟨hfresh, hnodup, hkept, hfound, honly⟩ := ih h
    have hrest : ∀ entry ∈ rest, entry.1.operationRef ≠ operation.operationRef := by
      intro entry hentry heq
      exact hfresh entry hentry (by simp [heq])
    refine ⟨?_, ?_, ?_, ?_, ?_⟩
    · intro entry hentry
      rcases List.mem_cons.mp hentry with rfl | hentry
      · exact hdup
      · exact fun hmem => hfresh entry hentry (by simp [hmem])
    · rw [List.map_cons, List.nodup_cons]
      refine ⟨?_, hnodup⟩
      intro hmem
      obtain ⟨entry, hentry, heq⟩ := List.mem_map.mp hmem
      exact hrest entry hentry heq
    · intro key hkey
      have hne : operation.operationRef ≠ key := fun heq => hdup (heq ▸ hkey)
      rw [hkept key (by simp [hkey]), Std.ExtTreeMap.getElem?_insert]
      simp [hne]
    · intro entry hentry
      rcases List.mem_cons.mp hentry with rfl | hentry
      · rw [hkept _ (by simp)]
        simp
      · exact hfound entry hentry
    · intro key found hkey
      rcases honly key found hkey with hold | ⟨entry, hentry, heq⟩
      · by_cases hne : operation.operationRef = key
        · subst hne
          right
          exact ⟨(operation, index), by simp, by simpa using hold⟩
        · left
          simpa [Std.ExtTreeMap.getElem?_insert, hne] using hold
      · exact .inr ⟨entry, by simp [hentry], heq⟩

theorem keysIndex_of_snapshotKeys {keys : BTreeMap OperationRef Nat}
    {operations : List TransactionOperation}
    (h : snapshotKeys ∅ operations.zipIdx = .ok keys) : KeysIndex keys operations := by
  obtain ⟨-, hnodup, -, hfound, honly⟩ := snapshotKeys_ok h
  refine ⟨?_, ?_, ?_⟩
  · intro index operation hget
    exact hfound (operation, index) (List.mem_zipIdx_iff_getElem?.mpr hget)
  · intro key index hkey
    rcases honly key index hkey with hold | ⟨entry, hentry, rfl⟩
    · simp at hold
    · exact ⟨entry.1, List.mem_zipIdx_iff_getElem?.mp hentry⟩
  · rw [← List.zipIdx_map_fst 0 operations, List.map_map]
    exact hnodup

theorem KeysIndex.eq_of_ref {keys : BTreeMap OperationRef Nat}
    {operations : List TransactionOperation} (h : KeysIndex keys operations)
    {a b : TransactionOperation} (ha : a ∈ operations) (hb : b ∈ operations)
    (href : a.operationRef = b.operationRef) : a = b :=
  List.inj_on_of_nodup_map h.unique ha hb href

/-! ## The other gates -/

/-- The snapshot declares every reference of the boundary. -/
def BoundaryDeclared (boundary : TransactionCommitBoundary)
    (operations : List TransactionOperation) : Prop :=
  (∀ barrier ∈ boundary.barriers, ∃ operation ∈ operations, operation.isBarrier barrier) ∧
    ∀ launch ∈ boundary.launches, ∃ operation ∈ operations, operation.isLaunch launch

theorem checkBoundary_ok {boundary : TransactionCommitBoundary}
    {operations : List TransactionOperation} (h : checkBoundary boundary operations = .ok ()) :
    BoundaryDeclared boundary operations := by
  unfold checkBoundary at h
  split at h
  · cases h
  · next hbarriers =>
    rw [tryEach_ok_iff] at h hbarriers
    refine ⟨?_, ?_⟩
    · intro barrier hmem
      have hchecked := hbarriers barrier (by simpa using hmem)
      by_contra hnone
      rw [if_neg (by simpa using hnone)] at hchecked
      cases hchecked
    · intro launch hmem
      have hchecked := h launch (by simpa using hmem)
      by_contra hnone
      rw [if_neg (by simpa using hnone)] at hchecked
      cases hchecked

theorem checkAdmittedBudgets_ok {bindings : Bindings} {referenced : BTreeSet LogicalPartitionId}
    (h : checkAdmittedBudgets bindings referenced = some (.ok ())) :
    ∀ partition ∈ referenced, ∃ ledger, admittedLedger bindings partition = some ledger := by
  intro partition hmem
  have hchecked := tryEachM_ok_iff.mp h partition (by simpa using hmem)
  obtain ⟨binding, hbinding, hanswer⟩ := Option.map_eq_some_iff.mp hchecked
  cases found : binding.virtualPartition with
  | none => simp [found] at hanswer
  | some admitted => exact ⟨admitted.ledger, by simp [admittedLedger, hbinding, found]⟩

theorem checkAdmittedBudgets_returns {bindings : Bindings}
    {referenced : BTreeSet LogicalPartitionId}
    (h : ∀ partition ∈ referenced, partition ∈ bindings) :
    ∃ answer, checkAdmittedBudgets bindings referenced = some answer := by
  apply tryEachM_isSome
  intro partition hmem
  obtain ⟨binding, hbinding⟩ := (mem_iff_getElem? _ _).mp (h partition (by simpa using hmem))
  rw [hbinding]
  exact ⟨_, rfl⟩

/-! ## The structural gates together -/

/-- What steps 1 to 4 establish. -/
structure StructurallySound (bindings : Bindings) (operations : List TransactionOperation)
    (boundary : TransactionCommitBoundary) (keys : BTreeMap OperationRef Nat) : Prop where
  keysIndex : KeysIndex keys operations
  boundaryDeclared : BoundaryDeclared boundary operations
  admitted : ∀ partition ∈ referencedPartitions operations,
    ∃ ledger, admittedLedger bindings partition = some ledger

theorem structuralGates_ok {bindings : Bindings} {operations : List TransactionOperation}
    {boundary : TransactionCommitBoundary} {keys : BTreeMap OperationRef Nat}
    (h : structuralGates bindings operations boundary = some (.ok keys)) :
    StructurallySound bindings operations boundary keys := by
  unfold structuralGates at h
  split at h
  · cases h
  · split at h
    · cases h
    · next keys' hkeys =>
      split at h
      · cases h
      · next hboundary =>
        obtain ⟨admitted, hadmitted, hmap⟩ := Option.map_eq_some_iff.mp h
        cases admitted with
        | error e => cases hmap
        | ok u =>
          cases hmap
          exact ⟨keysIndex_of_snapshotKeys hkeys, checkBoundary_ok hboundary,
            checkAdmittedBudgets_ok hadmitted⟩

theorem snapshotKeys_accepts {keys : BTreeMap OperationRef Nat}
    {indexed : List (TransactionOperation × Nat)}
    (hfresh : ∀ entry ∈ indexed, entry.1.operationRef ∉ keys)
    (hunique : (indexed.map (·.1.operationRef)).Nodup) :
    ∃ keys', snapshotKeys keys indexed = .ok keys' := by
  induction indexed generalizing keys with
  | nil => exact ⟨keys, rfl⟩
  | cons entry rest ih =>
    obtain ⟨hentry, hrest⟩ := List.nodup_cons.mp hunique
    rw [snapshotKeys, if_neg (hfresh entry (by simp))]
    refine ih ?_ hrest
    intro later hlater
    rw [Std.ExtTreeMap.mem_insert, Std.LawfulEqOrd.compare_eq_iff_eq]
    rintro (heq | hkey)
    · exact hentry (List.mem_map.mpr ⟨later, hlater, heq.symm⟩)
    · exact hfresh later (by simp [hlater]) hkey

/-- A plan of unique references over admitted partitions passes when its boundary
    is empty. -/
theorem structuralGates_accepts {bindings : Bindings} {operations : List TransactionOperation}
    (hunique : (operations.map (·.operationRef)).Nodup)
    (hadmitted : ∀ partition ∈ referencedPartitions operations, ∃ binding admitted,
      bindings[partition]? = some binding ∧ binding.virtualPartition = some admitted) :
    ∃ keys, structuralGates bindings operations ⟨∅, ∅⟩ = some (.ok keys) := by
  have htopology : checkTopology (keySet bindings) operations = .ok () := by
    rw [checkTopology_ok_iff]
    intro partition hmem
    obtain ⟨binding, _, hbinding, -⟩ := hadmitted partition hmem
    rw [mem_keySet, mem_iff_getElem?]
    exact ⟨binding, hbinding⟩
  obtain ⟨keys, hkeys⟩ : ∃ keys, snapshotKeys ∅ operations.zipIdx = .ok keys := by
    refine snapshotKeys_accepts (by simp) ?_
    rw [← List.zipIdx_map_fst 0 operations, List.map_map] at hunique
    exact hunique
  have hboundary : checkBoundary ⟨∅, ∅⟩ operations = .ok () := rfl
  have hbudgets :
      checkAdmittedBudgets bindings (referencedPartitions operations) = some (.ok ()) := by
    refine tryEachM_ok_iff.mpr fun partition hmem => ?_
    obtain ⟨binding, admitted, hbinding, hvirtual⟩ := hadmitted partition (by simpa using hmem)
    simp [hbinding, hvirtual]
  exact ⟨keys, by simp [structuralGates, htopology, hkeys, hboundary, hbudgets, Except.map]⟩

/-- Steps 1 to 4 never panic: step 1 has found every binding step 4 looks up. -/
theorem structuralGates_returns (bindings : Bindings) (operations : List TransactionOperation)
    (boundary : TransactionCommitBoundary) :
    ∃ answer, structuralGates bindings operations boundary = some answer := by
  unfold structuralGates
  split
  · exact ⟨_, rfl⟩
  · next htopology =>
    split
    · exact ⟨_, rfl⟩
    · split
      · exact ⟨_, rfl⟩
      · obtain ⟨answer, hanswer⟩ := checkAdmittedBudgets_returns
          (fun partition hmem =>
            (mem_keySet bindings partition).mp (checkTopology_ok_iff.mp htopology partition hmem))
        rw [hanswer]
        exact ⟨_, rfl⟩

end FaberHosts.Transaction
