import FaberHosts.Macos.Requests
import FaberHosts.Macos.Refinement

/-!
# Buffers that outlive a transaction

Runs over the runtime backend: the tracked handles of a reserved partition are released with it, so
a transaction that ends leaves the cached modules only.  What `reserve` tracked before it was
refused belongs to no recorded reservation, and stays.
-/

namespace FaberHosts.Macos
open FaberHosts.Lib FaberHosts.Coordinator FaberHosts.Descriptor FaberHosts.Session
open FaberHosts.Transaction DeviceRuntimeBackend

section Accounts

variable {before : PhysicalDeviceId → Nat → Prop} {allowed : LogicalPartitionId → Prop}
  {b b' b'' : DeviceRuntimeBackend}

/-- Every live handle has an owner. -/
def HasBooks (before : PhysicalDeviceId → Nat → Prop) (b : DeviceRuntimeBackend) : Prop :=
  ∃ owner, Books before owner b

/-- The books are kept, and only allowed partitions get entries in the resource table. -/
structure Accounted (before : PhysicalDeviceId → Nat → Prop)
    (allowed : LogicalPartitionId → Prop) (b b' : DeviceRuntimeBackend) : Prop where
  books : HasBooks before b → HasBooks before b'
  reservations : b'.reservations = b.reservations
  resources : ∀ partition ∈ b'.resources, partition ∈ b.resources ∨ allowed partition

theorem Accounted.refl (b : DeviceRuntimeBackend) : Accounted before allowed b b :=
  ⟨id, rfl, fun _ => .inl⟩

theorem Accounted.trans (b b' b'' : DeviceRuntimeBackend) (h : Accounted before allowed b b')
    (h' : Accounted before allowed b' b'') : Accounted before allowed b b'' := by
  refine ⟨fun hb => h'.books (h.books hb), h'.reservations.trans h.reservations, ?_⟩
  intro partition hpartition
  rcases h'.resources partition hpartition with hold | hnew
  · exact h.resources partition hold
  · exact .inr hnew

theorem HasBooks.below (h : HasBooks before b) : b.IdsBelow := by
  obtain ⟨owner, hbooks⟩ := h
  exact hbooks.below

theorem accounted_touches (h : Touches b b') : Accounted before allowed b b' := by
  refine ⟨?_, ?_, ?_⟩
  · rintro ⟨owner, hbooks⟩
    exact ⟨owner, hbooks.of_touches h⟩
  · rcases h with rfl | ⟨device, runtime, t, -, -, rfl⟩
    · rfl
    · rfl
  · rcases h with rfl | ⟨device, runtime, t, -, -, rfl⟩
    · exact fun _ => .inl
    · exact fun _ => .inl

theorem moves_onRuntime_accounted {α : Type} {partition : LogicalPartitionId} {fault : FaultClass}
    {operation : PhysicalDeviceId → DeviceM α} (hkeeps : ∀ device, KeepsHandles (operation device)) :
    Moves (Accounted before allowed) (onRuntime partition fault operation) :=
  fun b answer b' h => accounted_touches (touches_onRuntime hkeeps b answer b' h)

theorem moves_alloc_accounted {env : Environment} {partition : LogicalPartitionId}
    (lenBytes : UInt64) (hallowed : allowed partition) :
    Moves (Accounted before allowed) (alloc env partition lenBytes) := by
  intro b answer b' h
  rcases alloc_answer h with ⟨htouches, -⟩ |
    ⟨device, runtime, t, handle, hdevice, hruntime, hregisters, -, -, rfl⟩
  · exact accounted_touches htouches
  · refine ⟨?_, rfl, ?_⟩
    · rintro ⟨owner, hbooks⟩
      exact ⟨_, hbooks.of_alloc hdevice hruntime hregisters⟩
    · intro other hother
      rcases Std.ExtTreeMap.mem_insert.mp hother with heq | hold
      · rw [Std.LawfulEqOrd.compare_eq_iff_eq] at heq
        exact .inr (heq ▸ hallowed)
      · exact .inl hold

theorem moves_ensureModule_accounted {env : Environment} {partition : LogicalPartitionId} :
    Moves (Accounted before allowed) (ensureModule env partition) := by
  intro b answer b' h
  rcases ensureModule_answer h with htouches |
    ⟨device, runtime, t, handle, hruntime, hmodule, hregisters, rfl⟩
  · exact accounted_touches htouches
  · refine ⟨?_, rfl, fun _ => .inl⟩
    rintro ⟨owner, hbooks⟩
    exact ⟨_, hbooks.of_module hruntime hmodule hregisters⟩

theorem HasBooks.congr (h : HasBooks before b) (hset : b'.set = b.set)
    (hdevices : b'.partitionDevices = b.partitionDevices) (hmodules : b'.modules = b.modules)
    (hresources : b'.resources = b.resources) : HasBooks before b' := by
  obtain ⟨owner, hbooks⟩ := h
  refine ⟨owner, ?_, hbooks.before, ?_, ?_, ?_, ?_⟩
  · simpa [DeviceRuntimeBackend.Live, hset] using hbooks.live
  · simpa [DeviceRuntimeBackend.Caches, hmodules] using hbooks.module
  · simpa [DeviceRuntimeBackend.tracked, hresources, hdevices] using hbooks.partition
  · simpa [DeviceRuntimeBackend.IdsBelow, hset] using hbooks.below
  · intro partition device runtime hdevice hruntime
    rw [hdevices] at hdevice
    rw [hset] at hruntime
    simpa [DeviceRuntimeBackend.tracked, hresources] using hbooks.backend hdevice hruntime

theorem accounted_steps (env : Environment) (before : PhysicalDeviceId → Nat → Prop)
    (allowed : LogicalPartitionId → Prop) :
    DeviceSteps env allowed (Accounted before allowed) where
  refl := .refl
  trans := .trans
  alloc := moves_alloc_accounted
  ensureModule := fun _ => moves_ensureModule_accounted
  copyIn := fun _ _ _ => moves_onRuntime_accounted (fun _ => keepsHandles_copyInBytes _ _ _ _ _)
  readback := fun _ _ => moves_onRuntime_accounted (fun _ => keepsHandles_readbackBytes _ _ _)
  launch := fun _ _ _ _ _ _ =>
    moves_onRuntime_accounted (fun _ => keepsHandles_launchKernel _ _ _ _ _ _)
  sync := fun _ => moves_onRuntime_accounted (fun _ => keepsHandles_sync _)
  transportCopy := by
    intro spec source destination b answer b' h
    unfold transportCopy at h
    split at h
    · cases h
      exact ⟨fun hb => hb.congr rfl rfl rfl rfl, rfl, fun _ => .inl⟩
    · cases h
      exact ⟨fun hb => hb.congr rfl rfl rfl rfl, rfl, fun _ => .inl⟩

end Accounts

/-! ## What is held under a reservation -/

section Held

variable {before : PhysicalDeviceId → Nat → Prop} {env : Environment} {T : Toolchain}
  {held : Reservation} {b : DeviceRuntimeBackend}

/-- The backend holds these reservations, tracks handles under their partitions only and every
    live handle has an owner. -/
structure Custodian (before : PhysicalDeviceId → Nat → Prop) (held : Reservation)
    (b : DeviceRuntimeBackend) : Prop where
  books : HasBooks before b
  reservations : b.reservations = held
  resources : ∀ partition ∈ b.resources, partition ∈ held

theorem Custodian.of_accounted (h : Custodian before held b) {b' : DeviceRuntimeBackend}
    (hacc : Accounted before (· ∈ held) b b') : Custodian before held b' := by
  refine ⟨hacc.books h.books, hacc.reservations.trans h.reservations, ?_⟩
  intro partition hpartition
  exact (hacc.resources partition hpartition).elim (h.resources partition) id

theorem Custodian.congr (h : Custodian before held b) {b' : DeviceRuntimeBackend}
    (hset : b'.set = b.set) (hdevices : b'.partitionDevices = b.partitionDevices)
    (hmodules : b'.modules = b.modules) (hresources : b'.resources = b.resources)
    (hreservations : b'.reservations = b.reservations) : Custodian before held b' :=
  ⟨h.books.congr hset hdevices hmodules hresources, hreservations.trans h.reservations,
    hresources ▸ h.resources⟩

theorem Custodian.freePartition (h : Custodian before held b) (partition : LogicalPartitionId) :
    Custodian before (held.erase partition) (freePartition env b partition) := by
  obtain ⟨owner, hbooks⟩ := h.books
  refine ⟨⟨_, hbooks.of_free⟩, ?_, ?_⟩
  · obtain ⟨members, hfree⟩ := freePartition_eq env b partition
    rw [hfree, ← h.reservations]
  · obtain ⟨members, hfree⟩ := freePartition_eq env b partition
    intro other hother
    rw [hfree] at hother
    obtain ⟨hne, hold⟩ := Std.ExtTreeMap.mem_erase.mp hother
    exact Std.ExtTreeMap.mem_erase.mpr ⟨hne, h.resources other hold⟩

/-- The operations that allocate under held partitions only. -/
def AllocatesHeld (held : Reservation) (operation : TransactionOperation) : Prop :=
  ∀ partition, allocatesOn operation partition → partition ∈ held

theorem keepsHeld_custodian (T : Toolchain) (env : Environment)
    (before : PhysicalDeviceId → Nat → Prop) :
    KeepsHeld (runtimeBackend T env) AllocatesHeld (Custodian before) where
  runOperation := by
    intro held operation b hallowed h
    have hsteps := accounted_steps env before (· ∈ held)
    show ((runOnDevices env operation) >>= fun _ => completeEvents operation).wp _ _ _ _
    rw [Call.wp_bind]
    refine Call.wp_mono (wp_of_moves (hsteps.moves_runOnDevices hallowed)
      (fun _ => h.of_accounted)) ?_ (fun _ _ he => he)
    exact fun _ t ht => ht.congr rfl rfl rfl rfl rfl
  eventCompleted := fun h => h
  stageWrite := by
    intro held write b h
    show Call.wp _ (DeviceRuntimeBackend.stageWrite write) _ _ _
    unfold DeviceRuntimeBackend.stageWrite Call.wp
    by_cases hstaged : write.outputRef ∈ b.stagedWrites
    · simpa [hstaged] using h
    · simp only [hstaged, if_false]
      exact h.congr rfl rfl rfl rfl rfl
  publish := by
    intro held b h
    show Call.wp _ DeviceRuntimeBackend.publish _ _ _
    unfold DeviceRuntimeBackend.publish Call.wp
    cases hpublished : b.publishedOnce with
    | true => simpa [hpublished] using h
    | false =>
      simp only [hpublished]
      exact h.congr rfl rfl rfl rfl rfl
  release := fun h => h.freePartition _
  retire := by
    intro held partition failure b h
    show Call.wp _ (DeviceRuntimeBackend.retire env T partition) _ _ _
    unfold DeviceRuntimeBackend.retire Call.wp
    dsimp only
    cases sumU64 T.overflowChecks (b.stagedCounts partition) with
    | none => trivial
    | some retired =>
      refine Custodian.freePartition ?_ partition
      exact h.congr rfl rfl rfl rfl rfl

/-! ## Reserving -/

variable {partition : LogicalPartitionId} {record : ReservationRecord}

theorem moves_allocateReserved_accounted (env : Environment)
    (before : PhysicalDeviceId → Nat → Prop) (partition : LogicalPartitionId)
    (record : ReservationRecord) :
    Moves (Accounted before (· = partition)) (allocateReserved env partition record) := by
  have hsteps := accounted_steps env before (· = partition)
  refine moves_bind hsteps.trans (hsteps.moves_allocReserved rfl _) (fun _ => ?_)
  refine moves_bind hsteps.trans (hsteps.moves_allocReserved rfl _) (fun _ => ?_)
  exact hsteps.moves_allocReserved rfl _

/-- The requests of a list of reservations, in order. -/
def requestsOf (entries : List (LogicalPartitionId × ReservationRecord)) :
    List LogicalPartitionId :=
  entries.flatMap (fun entry => requests entry.1 entry.2)

theorem Custodian.reserved (h : Custodian before held b) {w : DeviceRuntimeBackend}
    (hacc : Accounted before (· = partition) b w) :
    Custodian before (held.insert partition record)
      { w with reservations := w.reservations.insert partition record } := by
  refine ⟨(hacc.books h.books).congr rfl rfl rfl rfl, ?_, ?_⟩
  · rw [hacc.reservations, h.reservations]
  · intro other hother
    rw [Std.ExtTreeMap.mem_insert, Std.LawfulEqOrd.compare_eq_iff_eq]
    rcases hacc.resources other hother with hold | heq
    · exact .inr (h.resources other hold)
    · exact .inl heq.symm

theorem requests_ne_nil (hscratch : 0 < record.transactionScratchBytes) :
    requests partition record ≠ [] := by
  simp [requests, request, hscratch]

theorem grantsFirst_of_grantsAll {reqs : List LogicalPartitionId} (hne : reqs ≠ [])
    (hall : GrantsAll env b b.nextCalls reqs) : GrantsFirst env b reqs := by
  obtain ⟨first, rest, rfl⟩ := List.exists_cons_of_ne_nil hne
  exact ⟨first, rfl, hall.1⟩

theorem reserveAll_granted {entries : List (LogicalPartitionId × ReservationRecord)}
    (hdistinct : (entries.map Prod.fst).Nodup) (hfree : ∀ entry ∈ entries, entry.1 ∉ held)
    (hscratch : ∀ entry ∈ entries, 0 < entry.2.transactionScratchBytes)
    (h : Custodian before held b)
    (hgrants : GrantsAll env b b.nextCalls (requestsOf entries)) :
    (Call.forEach entries (fun entry => reserve env entry.1 entry.2)).wp True
      (fun _ => Custodian before
        (entries.foldl (fun held entry => held.insert entry.1 entry.2) held))
      (fun _ _ => False) b := by
  induction entries generalizing held b with
  | nil => exact h
  | cons entry rest ih =>
    obtain ⟨hentry, hrest⟩ := List.nodup_cons.mp hdistinct
    obtain ⟨hfirst, hlater⟩ := List.forall_mem_cons.mp hfree
    obtain ⟨hpositive, hpositives⟩ := List.forall_mem_cons.mp hscratch
    rw [requestsOf, List.flatMap_cons, grantsAll_append] at hgrants
    rw [Call.forEach, Call.wp_bind]
    refine Call.wp_mono (Call.wp_of_total (reserve_outcome
      (moves_allocateReserved_accounted env before _ _)
      (h.reservations ▸ hfirst) h.books.below)) ?_ ?_
    · rintro _ t ⟨w, hallocates, hacc, rfl⟩
      refine ih hrest ?_ hpositives (h.reserved hacc) ?_
      · intro later hmem
        rw [Std.ExtTreeMap.mem_insert, Std.LawfulEqOrd.compare_eq_iff_eq]
        rintro (heq | hheld)
        · exact hentry (List.mem_map.mpr ⟨later, hmem, heq.symm⟩)
        · exact hlater later hmem hheld
      · refine (grantsAll_congr (b := b) ?_ ?_ _ _).mpr ?_
        · exact hallocates.ends.partitionDevices
        · exact hallocates.ends.members
        · show GrantsAll env b w.nextCalls (requestsOf rest)
          rw [hallocates.calls]
          exact hgrants.2
    · intro _ t ht
      have hhead := grantsFirst_of_grantsAll (requests_ne_nil hpositive) hgrants.1
      rcases ht.2 with ⟨hnone, -⟩ | ⟨hnot, -, -⟩
      · exact hnone hhead
      · exact hnot hgrants.1

/-- When already the first request is refused, no partition is reserved and nothing is tracked. -/
theorem reserveAll_refused {entries : List (LogicalPartitionId × ReservationRecord)}
    (hfree : ∀ entry ∈ entries, entry.1 ∉ held)
    (hscratch : ∀ entry ∈ entries, 0 < entry.2.transactionScratchBytes)
    (h : Custodian before held b) (hentries : entries ≠ [])
    (hrefused : ¬ GrantsFirst env b (requestsOf entries)) :
    (Call.forEach entries (fun entry => reserve env entry.1 entry.2)).wp True
      (fun _ _ => False) (fun _ => Custodian before held) b := by
  obtain ⟨entry, rest, rfl⟩ := List.exists_cons_of_ne_nil hentries
  have hne : requests entry.1 entry.2 ≠ [] := requests_ne_nil (hscratch entry (by simp))
  have hfirst : ¬ GrantsFirst env b (requests entry.1 entry.2) := by
    rintro ⟨partition, hhead, hgrants⟩
    refine hrefused ⟨partition, ?_, hgrants⟩
    rw [requestsOf, List.flatMap_cons, List.head?_append_of_ne_nil _ hne]
    exact hhead
  rw [Call.forEach, Call.wp_bind]
  refine Call.wp_mono (Call.wp_of_total (reserve_outcome
      (moves_allocateReserved_accounted env before _ _)
    (h.reservations ▸ hfree entry (by simp)) h.books.below)) ?_ ?_
  · rintro _ t ⟨w, hallocates, -, -⟩
    exact (hfirst (grantsFirst_of_grantsAll hne hallocates.granted)).elim
  · intro _ t ht
    rcases ht.2 with ⟨-, htouches⟩ | ⟨-, hhead, -⟩
    · have hacc : Accounted before (· ∈ held) b t := accounted_touches htouches
      exact h.of_accounted hacc
    · exact (hfirst hhead).elim

end Held

/-! ## Runs -/

/-- A reservation whose requests are all granted, or whose first one is refused. -/
def ReadyFor (env : Environment) (b : DeviceRuntimeBackend) (reservation : Reservation) : Prop :=
  AllOrNothing env b (requestsOf reservation.toList)

instance (env : Environment) (b : DeviceRuntimeBackend) (reservation : Reservation) :
    Decidable (ReadyFor env b reservation) := by
  unfold ReadyFor
  infer_instance

/-- The sources of the broadcasts are partitions of the plan. -/
def BroadcastsInside (operations : List TransactionOperation) : Prop :=
  ∀ broadcast, .collectiveBroadcast broadcast ∈ operations →
    broadcast.source ∈ referencedPartitions operations

theorem referenced_of_allocatesOn {operations : List TransactionOperation}
    (hinside : BroadcastsInside operations) {operation : TransactionOperation}
    (hop : operation ∈ operations) {partition : LogicalPartitionId}
    (hallocates : allocatesOn operation partition) :
    partition ∈ referencedPartitions operations := by
  cases operation with
  | launch p launchRef outputBytes =>
    refine mem_referencedPartitions.mpr ⟨_, hop, ?_⟩
    simp [TransactionOperation.partitions, show partition = p from hallocates]
  | transfer transfer =>
    refine mem_referencedPartitions.mpr ⟨_, hop, ?_⟩
    simpa [TransactionOperation.partitions, allocatesOn, eq_comm] using hallocates
  | collectiveBroadcast broadcast =>
    rcases hallocates with rfl | hparticipant
    · exact hinside broadcast hop
    · exact mem_referencedPartitions.mpr ⟨_, hop, hparticipant⟩
  | barrier barrierRef partitions => exact hallocates.elim

/-- Every derived reservation charges the transaction scratch to each of its partitions. -/
theorem derivedReservation_records {T : Toolchain} {tx : ExecutionTransaction}
    {reservation : Reservation} (h : derivedReservation T tx = some reservation) :
    ∀ entry ∈ reservation.toList, 0 < entry.2.transactionScratchBytes := by
  obtain ⟨outcome, houtcome, hok⟩ := Option.bind_eq_some_iff.mp h
  obtain ⟨bindings, -, hbudget⟩ := Option.bind_eq_some_iff.mp houtcome
  rw [toOption_eq_some_iff] at hok
  subst hok
  obtain ⟨record, rfl, hrecords⟩ := budgetGate_records hbudget
  intro entry hentry
  obtain ⟨-, hvalue⟩ := mem_toList_mapOver.mp hentry
  rw [hvalue, (hrecords entry.1).scratch]
  decide

theorem holdsOver_runtime (T : Toolchain) (env : Environment)
    (before : PhysicalDeviceId → Nat → Prop) {plan : ExecutionTransaction}
    (hinside : BroadcastsInside plan.operations) :
    HoldsOver T (runtimeBackend T env) (Custodian before ∅) (Custodian before) AllocatesHeld
      (ReadyFor env) plan where
  keeps := keepsHeld_custodian T env before
  runs := by
    intro held hheld operation hop partition hallocates
    exact hheld partition (referenced_of_allocatesOn hinside hop hallocates)
  reserves := by
    intro reservation b hderived hready hb
    have hscratch := derivedReservation_records hderived
    by_cases hgrants : GrantsAll env b b.nextCalls (requestsOf reservation.toList)
    · refine Call.wp_mono (reserveAll_granted (nodup_keys_toList reservation) (by simp) hscratch hb
        hgrants) ?_ (fun _ _ hfalse => hfalse.elim)
      intro _ t ht
      rwa [foldl_insert_toList] at ht
    · have hfirst := hready.resolve_left hgrants
      refine Call.wp_mono (reserveAll_refused (by simp) hscratch hb ?_ hfirst)
        (fun _ _ hfalse => hfalse.elim) (fun _ _ ht => ht)
      intro hnil
      exact hgrants (by simp [requestsOf, hnil, GrantsAll])

/-- What the sessions of a set have registered. -/
def RegisteredIn (members : DeviceRuntimeSet) (device : PhysicalDeviceId) (id : Nat) : Prop :=
  ∃ runtime, members[device]? = some runtime ∧ id ∈ runtime.handles

theorem set_of_new {members : DeviceRuntimeSet}
    {partitionDevices : BTreeMap LogicalPartitionId PhysicalDeviceId} {launch : LaunchProgram}
    {budget : TransferBudget} {timeout : Nat} {backend : DeviceRuntimeBackend}
    (hnew : DeviceRuntimeBackend.new members partitionDevices launch budget timeout =
      .ok backend) : backend.set = members := by
  unfold DeviceRuntimeBackend.new at hnew
  split at hnew
  · cases hnew
  split at hnew
  · cases hnew
  cases hnew
  rfl

theorem custodian_of_new {members : DeviceRuntimeSet}
    {partitionDevices : BTreeMap LogicalPartitionId PhysicalDeviceId} {launch : LaunchProgram}
    {budget : TransferBudget} {timeout : Nat} {backend : DeviceRuntimeBackend}
    (hnew : DeviceRuntimeBackend.new members partitionDevices launch budget timeout = .ok backend)
    (hbelow : backend.IdsBelow) : Custodian (RegisteredIn members) ∅ backend := by
  unfold DeviceRuntimeBackend.new at hnew
  split at hnew
  · cases hnew
  split at hnew
  · cases hnew
  cases hnew
  classical
  refine ⟨⟨fun device id => if RegisteredIn members device id then some .before else none, ?_⟩,
    rfl, by simp⟩
  refine ⟨?_, ?_, ?_, ?_, hbelow, ?_⟩
  · intro device id
    show RegisteredIn members device id ↔ _
    by_cases hregistered : RegisteredIn members device id
    · simp [hregistered]
    · simp [hregistered]
  · intro device id
    by_cases hregistered : RegisteredIn members device id
    · simp [hregistered]
    · simp [hregistered]
  · intro device id
    by_cases hregistered : RegisteredIn members device id
    · simp [hregistered, DeviceRuntimeBackend.Caches]
    · simp [hregistered, DeviceRuntimeBackend.Caches]
  · intro device id partition
    by_cases hregistered : RegisteredIn members device id
    · simp [hregistered, DeviceRuntimeBackend.tracked]
    · simp [hregistered, DeviceRuntimeBackend.tracked]
  · intro partition device runtime _ _ handle hhandle
    simp [DeviceRuntimeBackend.tracked] at hhandle

/-- Nothing of a transaction is left: no reservation, no entry of the resource table, and no live
    handle but those that were there before and the cached modules. -/
structure Clean (members : DeviceRuntimeSet) (b : DeviceRuntimeBackend) : Prop where
  reservations : b.reservations = ∅
  resources : b.resources = ∅
  live : ∀ device id, b.Live device id ↔ RegisteredIn members device id ∨ b.Caches device id

theorem Custodian.clean {members : DeviceRuntimeSet} {b : DeviceRuntimeBackend}
    (h : Custodian (RegisteredIn members) ∅ b) : Clean members b := by
  obtain ⟨owner, hbooks⟩ := h.books
  have hresources : b.resources = ∅ := by
    apply eq_empty_of_forall_getElem?
    intro partition
    cases hfound : b.resources[partition]? with
    | none => rfl
    | some handles =>
      have hmem := h.resources partition ((mem_iff_getElem? _ _).mpr ⟨handles, hfound⟩)
      simp at hmem
  refine ⟨h.reservations, hresources, fun device id => ?_⟩
  rw [hbooks.live, ← hbooks.before, ← hbooks.module]
  cases howner : owner device id with
  | none => simp
  | some found =>
    cases found with
    | before => simp
    | module => simp
    | partition partition =>
      have htracked := ((hbooks.partition device id partition).mp howner).2
      simp [DeviceRuntimeBackend.tracked, hresources] at htracked

/-- The same handles are live. -/
def SameLive (b b' : DeviceRuntimeBackend) : Prop :=
  ∀ device id, b'.Live device id ↔ b.Live device id

theorem sameLive_of_touches {b b' : DeviceRuntimeBackend} (h : Touches b b') : SameLive b b' := by
  rcases h with rfl | ⟨device, runtime, t, hruntime, hsame, rfl⟩
  · exact fun _ _ => Iff.rfl
  intro other id
  rw [live_withSession]
  split
  · next heq => rw [heq, live_iff hruntime, hsame.mem]
  · rfl

/-- A refused `reserve` leaves the live handles and the reservations as they were exactly when the
    partition was reserved already, every request is granted or the first one is refused. -/
theorem reserve_restores_iff {env : Environment} {b : DeviceRuntimeBackend} (hbelow : b.IdsBelow)
    (partition : LogicalPartitionId) (record : ReservationRecord) :
    (∀ error b', reserve env partition record b = some (.error error, b') →
      SameLive b b' ∧ b'.reservations = b.reservations) ↔
    partition ∈ b.reservations ∨ AllOrNothing env b (requests partition record) := by
  by_cases hheld : partition ∈ b.reservations
  · refine iff_of_true ?_ (.inl hheld)
    intro error b' hrun
    have hwp : (reserve env partition record).wp True (fun _ b' => b' = b)
        (fun _ b' => b' = b) b :=
      wp_reserve.mpr ⟨fun _ => rfl, fun hfree => (hfree hheld).elim,
        fun hfree => (hfree hheld).elim⟩
    have hsame := Call.wp_of_error hwp hrun
    subst hsame
    exact ⟨fun _ _ => Iff.rfl, rfl⟩
  · have hwp := @reserve_outcome env b _ (fun _ _ => True) record (fun _ _ _ _ => trivial)
      hheld hbelow
    constructor
    · intro hrestores
      refine .inr ?_
      obtain ⟨answer, b', hrun⟩ := Call.wp_returns hwp
      cases answer with
      | ok _ =>
        obtain ⟨w, hallocates, -, -⟩ := Call.wp_of_ok hwp hrun
        exact .inl hallocates.granted
      | error error =>
        rcases (Call.wp_of_error hwp hrun).2 with ⟨hnone, -⟩ | ⟨-, -, device, id, hlive, hnew⟩
        · exact .inr hnone
        · exact (hnew (((hrestores error b' hrun).1 device id).mp hlive)).elim
    · intro hor error b' hrun
      obtain ⟨hends, houtcome⟩ := Call.wp_of_error hwp hrun
      rcases houtcome with ⟨-, htouches⟩ | ⟨hnot, hfirst, -⟩
      · exact ⟨sameLive_of_touches htouches, hends.reservations⟩
      · rcases hor.resolve_left hheld with hall | hnone
        · exact (hnot hall).elim
        · exact (hnone hfirst).elim

/-- A refused `reserve` restores what was live exactly under its condition; and a run that only
    prepares when every request is granted or the first is refused leaves nothing behind. -/
theorem no_leak_when_granted {T : Toolchain} {env : Environment} {id : TransactionId}
    {bound : BoundDistributedPlan} {given : List TransactionOperation}
    {boundary : TransactionCommitBoundary} {tx : ExecutionTransaction}
    {members : DeviceRuntimeSet} {partitionDevices : BTreeMap LogicalPartitionId PhysicalDeviceId}
    {launch : LaunchProgram} {budget : TransferBudget} {timeout : Nat}
    {backend : DeviceRuntimeBackend} {calls : List TransactionCall}
    {m : Machine DeviceRuntimeBackend}
    (hnew : ExecutionTransaction.new id bound given boundary = .ok tx)
    (hbackend : DeviceRuntimeBackend.new members partitionDevices launch budget timeout =
      .ok backend)
    (hbelow : backend.IdsBelow) (hinside : BroadcastsInside given)
    (hmeet : StepsMeet (perform T (runtimeBackend T env)) (PreparesReady T (ReadyFor env))
      ⟨tx, backend⟩ calls)
    (hrun : runSteps (perform T (runtimeBackend T env)) ⟨tx, backend⟩ calls = some m) :
    (m.transaction.state.Terminal → Clean members m.backend) ∧
      ∀ (b : DeviceRuntimeBackend) (partition : LogicalPartitionId) (record : ReservationRecord),
        b.IdsBelow → ((∀ error b', reserve env partition record b = some (.error error, b') →
          SameLive b b' ∧ b'.reservations = b.reservations) ↔
        partition ∈ b.reservations ∨ AllOrNothing env b (requests partition record)) := by
  refine ⟨?_, fun b partition record hb => reserve_restores_iff hb partition record⟩
  intro hterminal
  have hgiven := (ExecutionTransaction.new_ok hnew).2.1
  have hinv := holdInvariant_run hnew
    (holdsOver_runtime T env (RegisteredIn members) (hgiven ▸ hinside))
    (custodian_of_new hbackend hbelow) hmeet hrun
  have hholds := hinv.holds
  cases found : m.transaction.state with
  | committed =>
    rw [found] at hholds
    obtain ⟨held, -, hclean⟩ := hholds
    exact hclean.clean
  | aborted failure =>
    rw [found] at hholds
    rcases hholds with ⟨-, hclean⟩ | ⟨held, -, hclean⟩
    · exact hclean.clean
    · exact hclean.clean
  | new | prepared | executing | failed _ =>
    rw [found] at hterminal
    exact hterminal.elim

theorem idsBelow_of_empty {b : DeviceRuntimeBackend}
    (h : b.set.toList.all (fun member => member.2.handles.isEmpty)) : b.IdsBelow := by
  intro device runtime hruntime id hid
  have hmem : (device, runtime) ∈ b.set.toList :=
    Std.ExtTreeMap.mem_toList_iff_getElem?_eq_some.mpr hruntime
  have hempty : runtime.handles = ∅ := by
    simpa [Std.ExtTreeMap.isEmpty_iff] using List.all_eq_true.mp h _ hmem
  rw [hempty] at hid
  simp at hid

namespace TwoDevices

/-- Prepare, execute and abort over devices that refuse a buffer of the launch. -/
theorem no_leak_when_launch_refused : ∃ tx backend m,
    TwoDevices.transaction = some tx ∧ TwoDevices.backend = .ok backend ∧
      runSteps (perform .dev (runtimeBackend .dev (environment (refusing 5)))) ⟨tx, backend⟩
        [.prepare 0, .execute 0, .abort "cancelled" 0] = some m ∧
      m.transaction.state.Terminal ∧ Clean backend.set m.backend := by
  have hruns : TwoDevices.transaction.any (fun tx => TwoDevices.backend.toOption.any (fun backend =>
      backend.set.toList.all (fun member => member.2.handles.isEmpty) &&
      decide (StepsMeet (perform .dev (runtimeBackend .dev (environment (refusing 5))))
        (PreparesReady .dev (ReadyFor (environment (refusing 5)))) ⟨tx, backend⟩
        [.prepare 0, .execute 0, .abort "cancelled" 0]) &&
      (runSteps (perform .dev (runtimeBackend .dev (environment (refusing 5)))) ⟨tx, backend⟩
        [.prepare 0, .execute 0, .abort "cancelled" 0]).any (fun m =>
          match m.transaction.state with
          | .aborted _ => true
          | _ => false))) = true := by
    decide +kernel
  obtain ⟨tx, htx, hruns⟩ := (Option.any_eq_true _ _).mp hruns
  obtain ⟨backend, hbackend, hruns⟩ := (Option.any_eq_true _ _).mp hruns
  simp only [Bool.and_eq_true, decide_eq_true_eq] at hruns
  obtain ⟨⟨hempty, hmeet⟩, hruns⟩ := hruns
  obtain ⟨m, hrun, hstate⟩ := (Option.any_eq_true _ _).mp hruns
  have hterminal : m.transaction.state.Terminal := by
    cases found : m.transaction.state with
    | aborted failure => trivial
    | new | prepared | executing | failed _ | committed => simp [found] at hstate
  obtain ⟨bound, hnew⟩ := TwoPartitions.new_of_transaction htx
  have hopened := toOption_eq_some_iff.mp hbackend
  have hbuilt := hopened
  unfold TwoDevices.backend at hbuilt
  have hinside : BroadcastsInside TwoDevices.operations := by
    intro broadcast hbroadcast
    simp [TwoDevices.operations, Transaction.TwoPartitions.launch,
      Transaction.TwoPartitions.transfer, Transaction.TwoPartitions.barrier] at hbroadcast
  refine ⟨tx, backend, m, htx, hopened, hrun, hterminal, ?_⟩
  rw [set_of_new hbuilt]
  exact (no_leak_when_granted hnew hbuilt (idsBelow_of_empty hempty) hinside hmeet hrun).1 hterminal

/-- A device refuses the second buffer of a reservation: the first one outlives the aborted
    transaction, in the resource table and on the device. -/
theorem refused_reservation_leaks : ∃ tx backend m failure runtime,
    TwoDevices.transaction = some tx ∧ TwoDevices.backend = .ok backend ∧
      runSteps (perform .dev (runtimeBackend .dev (environment (refusing 1)))) ⟨tx, backend⟩
        [.prepare 0, .abort "cancelled" 0] = some m ∧
      m.transaction.state = .aborted failure ∧ m.backend.resources ≠ ∅ ∧
      backend.set.toList.all (fun member => member.2.handles.isEmpty) ∧
      m.backend.modules = ∅ ∧
      m.backend.set[Coordinator.TwoPartitions.device 0]? = some runtime ∧ 1 ∈ runtime.handles := by
  have hruns : TwoDevices.transaction.any (fun tx => TwoDevices.backend.toOption.any (fun backend =>
      backend.set.toList.all (fun member => member.2.handles.isEmpty) &&
      (runSteps (perform .dev (runtimeBackend .dev (environment (refusing 1)))) ⟨tx, backend⟩
        [.prepare 0, .abort "cancelled" 0]).any (fun m =>
          (match m.transaction.state with
          | .aborted _ => true
          | _ => false) && !m.backend.resources.isEmpty && m.backend.modules.isEmpty &&
          (m.backend.set[Coordinator.TwoPartitions.device 0]?).any
            (fun runtime => runtime.handles.contains 1)))) = true := by
    decide +kernel
  obtain ⟨tx, htx, hruns⟩ := (Option.any_eq_true _ _).mp hruns
  obtain ⟨backend, hbackend, hruns⟩ := (Option.any_eq_true _ _).mp hruns
  obtain ⟨hempty, hruns⟩ := Bool.and_eq_true_iff.mp hruns
  obtain ⟨m, hrun, hends⟩ := (Option.any_eq_true _ _).mp hruns
  simp only [Bool.and_eq_true] at hends
  obtain ⟨⟨⟨hstate, hresources⟩, hmodules⟩, hlive⟩ := hends
  obtain ⟨runtime, hruntime, hmem⟩ := (Option.any_eq_true _ _).mp hlive
  cases found : m.transaction.state with
  | aborted failure =>
    refine ⟨tx, backend, m, failure, runtime, htx, toOption_eq_some_iff.mp hbackend, hrun, found,
      ?_, hempty, Std.ExtTreeMap.isEmpty_iff.mp hmodules, hruntime, hmem⟩
    intro hnone
    simp [hnone] at hresources
  | new | prepared | executing | failed _ | committed => simp [found] at hstate

end TwoDevices

end FaberHosts.Macos
