import FaberHosts.Macos.Leaks

/-!
# Live bytes against the reservation

`reserve` allocates every byte it reserves, and an operation that moves bytes allocates its own
buffers beside them.  So the buffers of a partition stay within its reservation as long as the
operations allocate nothing.
-/

namespace FaberHosts.Macos
open FaberHosts.Lib FaberHosts.Coordinator FaberHosts.Descriptor FaberHosts.Session
open FaberHosts.Transaction DeviceRuntimeBackend

/-! ## Bytes -/

def bufferBytes (handle : DeviceHandle) : Nat := (handle.lenBytes.getD 0).toNat

/-- The bytes of all handles tracked under a partition. -/
def DeviceRuntimeBackend.trackedBytes (b : DeviceRuntimeBackend) (partition : LogicalPartitionId) :
    Nat :=
  ((b.tracked partition).map bufferBytes).sum

/-- A handle is registered on the device of its partition. -/
def DeviceRuntimeBackend.isLive (b : DeviceRuntimeBackend) (partition : LogicalPartitionId)
    (handle : DeviceHandle) : Bool :=
  ((b.partitionDevices[partition]?).bind (fun device => b.set[device]?)).any
    (fun runtime => runtime.handles.contains handle.id)

/-- The sizes of the buffers that are live on the device for a partition, added up. -/
def DeviceRuntimeBackend.liveBytes (b : DeviceRuntimeBackend) (partition : LogicalPartitionId) :
    Nat :=
  (((b.tracked partition).filter (b.isLive partition)).map bufferBytes).sum

def reservedBytes (record : ReservationRecord) : Nat :=
  record.outputBufferBytes.toNat + record.transferStagingBytes.toNat +
    record.transactionScratchBytes.toNat

theorem liveBytes_le_trackedBytes (b : DeviceRuntimeBackend) (partition : LogicalPartitionId) :
    b.liveBytes partition ≤ b.trackedBytes partition :=
  List.Sublist.sum_le_sum (List.filter_sublist.map bufferBytes) (fun _ _ => Nat.zero_le _)

/-- The bytes a partition has reserved. -/
def heldBytes (held : Reservation) (partition : LogicalPartitionId) : Nat :=
  (held[partition]?).elim 0 reservedBytes

/-- No partition tracks more bytes than it has reserved. -/
def WithinReserved (held : Reservation) (b : DeviceRuntimeBackend) : Prop :=
  ∀ partition, b.trackedBytes partition ≤ heldBytes held partition

/-! ## Operations that allocate nothing -/

/-- A barrier, or an operation with no bytes to write. -/
def AllocatesNothing : TransactionOperation → Prop
  | .launch _ _ outputBytes => outputBytes = 0
  | .transfer transfer => transfer.byteCount = 0
  | .collectiveBroadcast broadcast =>
    broadcast.byteCount = 0 ∨ ∀ participant ∈ broadcast.participants, participant = broadcast.source
  | .barrier _ _ => True

section Idle

variable {env : Environment} {b b' : DeviceRuntimeBackend} {partition : LogicalPartitionId}

/-- The resource table is as it was. -/
def SameResources (b b' : DeviceRuntimeBackend) : Prop := b'.resources = b.resources

theorem sameResources_refl (b : DeviceRuntimeBackend) : SameResources b b := rfl

theorem sameResources_trans (b b' b'' : DeviceRuntimeBackend) (h : SameResources b b')
    (h' : SameResources b' b'') : SameResources b b'' := Eq.trans h' h

theorem sameResources_touches (h : Touches b b') : SameResources b b' := by
  rcases h with rfl | ⟨device, runtime, t, -, -, rfl⟩
  · rfl
  · rfl

theorem allocBytes_zero (driver : Driver) (s : Device) :
    ∃ error, allocBytes driver 0 s = .error error s := ⟨_, rfl⟩

theorem alloc_zero_answer {answer : Except BackendError DeviceHandle}
    (h : alloc env partition 0 b = some (answer, b')) :
    SameResources b b' ∧ ∃ error, answer = .error error := by
  rcases alloc_answer h with ⟨htouches, herror⟩ | ⟨device, runtime, t, handle, -, -, -, -, rfl, -⟩
  · exact ⟨sameResources_touches htouches, herror⟩
  · rcases bind_answer h with ⟨_, -, hanswer⟩ | ⟨_, u, hrun, -⟩
    · cases hanswer
    · rcases onRuntime_answer hrun with ⟨-, _, hanswer⟩ | ⟨other, found, -, -, hran⟩
      · cases hanswer
      · obtain ⟨error, hzero⟩ := allocBytes_zero (env.driver other).toDriver found
        rcases hran with ⟨_, _, hok, -, -⟩ | ⟨_, _, -, hanswer, -⟩
        · simp [hzero] at hok
        · cases hanswer

theorem moves_hostStageCopy_zero {source destination : LogicalPartitionId} (spec : TransferSpec) :
    Moves SameResources (hostStageCopy env source destination spec 0) := by
  intro b answer b' h
  rcases bind_answer h with ⟨_, halloc, -⟩ | ⟨_, _, halloc, -⟩
  · exact (alloc_zero_answer halloc).1
  · obtain ⟨-, _, hanswer⟩ := alloc_zero_answer halloc
    cases hanswer

theorem moves_sync_sameResources (partition : LogicalPartitionId) :
    Moves SameResources (onRuntime partition .operation
      (fun device => sync (env.driver device).toDriver)) :=
  fun b answer b' h =>
    sameResources_touches (touches_onRuntime (fun _ => keepsHandles_sync _) b answer b' h)

theorem moves_syncEach_sameResources (partitions : List LogicalPartitionId)
    (synced : BTreeSet PhysicalDeviceId) : Moves SameResources (syncEach env synced partitions) := by
  induction partitions generalizing synced with
  | nil => exact moves_pure sameResources_refl _
  | cons partition rest ih =>
    refine moves_bind sameResources_trans (moves_get sameResources_refl) (fun b => ?_)
    refine moves_bind sameResources_trans (moves_lift sameResources_refl _) (fun device => ?_)
    split
    · exact ih synced
    · exact moves_bind sameResources_trans (moves_sync_sameResources partition) (fun _ => ih _)

theorem moves_runOnDevices_idle {operation : TransactionOperation}
    (hidle : AllocatesNothing operation) : Moves SameResources (runOnDevices env operation) := by
  cases operation with
  | launch partition launchRef outputBytes =>
    obtain rfl : outputBytes = 0 := hidle
    exact moves_pure sameResources_refl _
  | transfer transfer =>
    have hzero : transfer.byteCount = 0 := hidle
    refine moves_bind sameResources_trans (moves_get sameResources_refl) (fun b => ?_)
    rw [hzero]
    exact moves_hostStageCopy_zero _
  | collectiveBroadcast broadcast =>
    refine moves_forEach sameResources_refl sameResources_trans (fun participant hmem => ?_)
    unfold broadcastTo
    split
    · exact moves_pure sameResources_refl _
    · next hother =>
      rcases hidle with hzero | hsource
      · refine moves_bind sameResources_trans (moves_get sameResources_refl) (fun b => ?_)
        rw [hzero]
        exact moves_hostStageCopy_zero _
      · exact (hother (hsource participant (Std.ExtTreeSet.mem_toList.mp hmem))).elim
  | barrier barrierRef partitions => exact moves_syncEach_sameResources _ _

theorem WithinReserved.of_same {held : Reservation} (h : WithinReserved held b)
    (hsame : SameResources b b') : WithinReserved held b' := by
  intro partition
  rw [DeviceRuntimeBackend.trackedBytes, DeviceRuntimeBackend.tracked,
    show b'.resources = b.resources from hsame]
  exact h partition

theorem trackedBytes_erase (h : b'.resources = b.resources.erase partition)
    (other : LogicalPartitionId) :
    b'.trackedBytes other = if other = partition then 0 else b.trackedBytes other := by
  unfold DeviceRuntimeBackend.trackedBytes DeviceRuntimeBackend.tracked
  rw [h, Std.ExtTreeMap.getElem?_erase]
  by_cases heq : other = partition
  · simp [heq]
  · simp [heq, Ne.symm heq]

theorem WithinReserved.freePartition {held : Reservation} (h : WithinReserved held b)
    (partition : LogicalPartitionId) :
    WithinReserved (held.erase partition) (freePartition env b partition) := by
  obtain ⟨members, hfree⟩ := freePartition_eq env b partition
  intro other
  rw [trackedBytes_erase (b := b) (by rw [hfree])]
  split
  · exact Nat.zero_le _
  · next hother =>
    rw [heldBytes, Std.ExtTreeMap.getElem?_erase]
    simpa [Ne.symm hother, heldBytes] using h other

end Idle

/-! ## Reserving -/

section Reserving

variable {env : Environment} {b b' : DeviceRuntimeBackend} {partition : LogicalPartitionId}

/-- One partition tracks these many bytes more. -/
def TracksMore (partition : LogicalPartitionId) (bytes : Nat) (b b' : DeviceRuntimeBackend) :
    Prop :=
  ∀ other, b'.trackedBytes other =
    b.trackedBytes other + if other = partition then bytes else 0

theorem tracksMore_alloc (lenBytes : UInt64) :
    (alloc env partition lenBytes).wp True
      (fun _ => TracksMore partition lenBytes.toNat b) (fun _ _ => True) b := by
  unfold Call.wp
  split
  · trivial
  · next handle t hrun =>
    rcases alloc_answer hrun with ⟨-, _, hanswer⟩ |
      ⟨device, runtime, w, found, -, -, -, hkind, hanswer, rfl⟩
    · cases hanswer
    · cases hanswer
      intro other
      unfold DeviceRuntimeBackend.trackedBytes
      rw [tracked_track]
      by_cases heq : other = partition
      · subst heq
        simp [bufferBytes, DeviceHandle.lenBytes, hkind, DeviceRuntimeBackend.tracked]
      · simp [heq, DeviceRuntimeBackend.tracked]
  · trivial

theorem tracksMore_allocReserved (lenBytes : UInt64) :
    (allocReserved env partition lenBytes).wp True
      (fun _ => TracksMore partition lenBytes.toNat b) (fun _ _ => True) b := by
  unfold allocReserved
  split
  · rw [Call.wp_bind]
    exact Call.wp_mono (tracksMore_alloc lenBytes) (fun _ _ ht => ht) (fun _ _ he => he)
  · next hzero =>
    intro other
    have hbytes : lenBytes.toNat = 0 := by simpa [UInt64.lt_iff_toNat_lt] using hzero
    simp [hbytes]

theorem tracksMore_allocateReserved (record : ReservationRecord) :
    (allocateReserved env partition record).wp True
      (fun _ => TracksMore partition (reservedBytes record) b) (fun _ _ => True) b := by
  unfold allocateReserved
  rw [Call.wp_bind]
  refine Call.wp_mono (tracksMore_allocReserved _) (fun _ t ht => ?_) (fun _ _ he => he)
  rw [Call.wp_bind]
  refine Call.wp_mono (tracksMore_allocReserved _) (fun _ u hu => ?_) (fun _ _ he => he)
  refine Call.wp_mono (tracksMore_allocReserved _) (fun _ v hv => ?_) (fun _ _ he => he)
  intro other
  rw [hv other, hu other, ht other, reservedBytes]
  split <;> omega

theorem reserve_withinReserved {held : Reservation} {record : ReservationRecord}
    (h : WithinReserved held b) (hfree : partition ∉ held) :
    (reserve env partition record).wp True
      (fun _ => WithinReserved (held.insert partition record)) (fun _ _ => True) b := by
  rw [wp_reserve]
  refine ⟨fun _ => trivial, fun _ _ => trivial, fun _ _ => ?_⟩
  refine Call.wp_mono (tracksMore_allocateReserved record) (fun _ t ht => ?_) (fun _ _ he => he)
  intro other
  have hbound := h other
  show t.trackedBytes other ≤ _
  rw [ht other, heldBytes, Std.ExtTreeMap.getElem?_insert]
  by_cases heq : other = partition
  · subst heq
    have hnone : held[other]? = none := by simpa using hfree
    rw [heldBytes, hnone] at hbound
    simpa using hbound
  · simpa [heq, Ne.symm heq, heldBytes] using hbound

theorem reserveAll_withinReserved {entries : List (LogicalPartitionId × ReservationRecord)}
    {held : Reservation} (hdistinct : (entries.map Prod.fst).Nodup)
    (hfree : ∀ entry ∈ entries, entry.1 ∉ held) (h : WithinReserved held b) :
    (Call.forEach entries (fun entry => reserve env entry.1 entry.2)).wp True
      (fun _ => WithinReserved
        (entries.foldl (fun held entry => held.insert entry.1 entry.2) held))
      (fun _ _ => True) b := by
  induction entries generalizing held b with
  | nil => exact h
  | cons entry rest ih =>
    obtain ⟨hentry, hrest⟩ := List.nodup_cons.mp hdistinct
    obtain ⟨hfirst, hlater⟩ := List.forall_mem_cons.mp hfree
    rw [Call.forEach, Call.wp_bind]
    refine Call.wp_mono (reserve_withinReserved h hfirst) (fun _ t ht => ?_) (fun _ _ he => he)
    refine ih hrest ?_ ht
    intro later hmem
    rw [Std.ExtTreeMap.mem_insert, Std.LawfulEqOrd.compare_eq_iff_eq]
    rintro (heq | hheld)
    · exact hentry (List.mem_map.mpr ⟨later, hmem, heq.symm⟩)
    · exact hlater later hmem hheld

end Reserving

/-! ## Runs -/

theorem keepsHeld_withinReserved (T : Toolchain) (env : Environment) :
    KeepsHeld (runtimeBackend T env) (fun _ => AllocatesNothing) WithinReserved where
  runOperation := by
    intro held operation b hidle h
    show ((runOnDevices env operation) >>= fun _ => completeEvents operation).wp _ _ _ _
    rw [Call.wp_bind]
    refine Call.wp_mono (wp_of_moves (moves_runOnDevices_idle hidle) (fun _ => h.of_same)) ?_
      (fun _ _ he => he)
    exact fun _ t ht => ht.of_same rfl
  eventCompleted := fun h => h
  stageWrite := by
    intro held write b h
    show Call.wp _ (DeviceRuntimeBackend.stageWrite write) _ _ _
    unfold DeviceRuntimeBackend.stageWrite Call.wp
    by_cases hstaged : write.outputRef ∈ b.stagedWrites
    · simpa [hstaged] using h
    · simp only [hstaged, if_false]
      exact h.of_same rfl
  publish := by
    intro held b h
    show Call.wp _ DeviceRuntimeBackend.publish _ _ _
    unfold DeviceRuntimeBackend.publish Call.wp
    cases hpublished : b.publishedOnce with
    | true => simpa [hpublished] using h
    | false =>
      simp only [hpublished]
      exact h.of_same rfl
  release := fun h => h.freePartition _
  retire := by
    intro held partition failure b h
    show Call.wp _ (DeviceRuntimeBackend.retire env T partition) _ _ _
    unfold DeviceRuntimeBackend.retire Call.wp
    dsimp only
    cases sumU64 T.overflowChecks (b.stagedCounts partition) with
    | none => trivial
    | some retired =>
      refine WithinReserved.freePartition ?_ partition
      exact h.of_same rfl

/-- Nothing is tracked yet, so that a reservation only counts its own buffers. -/
def NothingTracked (b : DeviceRuntimeBackend) (_ : Reservation) : Prop := b.resources = ∅

instance (b : DeviceRuntimeBackend) (reservation : Reservation) :
    Decidable (NothingTracked b reservation) :=
  decidable_of_iff (b.resources.isEmpty) Std.ExtTreeMap.isEmpty_iff

theorem holdsOver_withinReserved (T : Toolchain) (env : Environment) {plan : ExecutionTransaction}
    (hidle : ∀ operation ∈ plan.operations, AllocatesNothing operation) :
    HoldsOver T (runtimeBackend T env) (fun _ => True) WithinReserved
      (fun _ => AllocatesNothing) NothingTracked plan where
  keeps := keepsHeld_withinReserved T env
  runs := fun _ operation hop => hidle operation hop
  reserves := by
    intro reservation b _ hready _
    have hstart : WithinReserved ∅ b := by
      intro partition
      simp [DeviceRuntimeBackend.trackedBytes, DeviceRuntimeBackend.tracked,
        show b.resources = ∅ from hready]
    refine Call.wp_mono (reserveAll_withinReserved (nodup_keys_toList reservation) (by simp)
      hstart) ?_ (fun _ _ he => he)
    intro _ t ht
    rwa [foldl_insert_toList] at ht

namespace TwoDevices

/-- A launch of no bytes and a barrier. -/
def idleOperations : List TransactionOperation :=
  [Transaction.TwoPartitions.launch 0 "launch-a" 0,
    Transaction.TwoPartitions.barrier "barrier-main"]

end TwoDevices

end FaberHosts.Macos
