import FaberHosts.Macos.Ownership
import FaberHosts.Transaction.Holding

/-!
# Which reservations the devices grant

A reservation asks for up to three buffers.  Whether the driver of each request's device grants it
is decided by the number of the call, so the outcome of `reserve`, and what a refused one leaves
behind, can be read off the state before it.
-/

namespace FaberHosts.Macos
open FaberHosts.Lib FaberHosts.Coordinator FaberHosts.Descriptor FaberHosts.Session
open FaberHosts.Transaction DeviceRuntimeBackend

/-! ## Requests -/

/-- The number of the next driver call of each session. -/
def DeviceRuntimeBackend.nextCalls (b : DeviceRuntimeBackend) (device : PhysicalDeviceId) : Nat :=
  ((b.set[device]?).map (·.calls)).getD 0

/-- The driver of the partition's device grants an allocation at these call numbers. -/
def Grants (env : Environment) (b : DeviceRuntimeBackend) (calls : PhysicalDeviceId → Nat)
    (partition : LogicalPartitionId) : Prop :=
  match b.partitionDevices[partition]? with
  | none => False
  | some device => device ∈ b.set ∧ ((env.driver device).fails (calls device) .alloc).isNone

instance (env : Environment) (b : DeviceRuntimeBackend) (calls : PhysicalDeviceId → Nat)
    (partition : LogicalPartitionId) : Decidable (Grants env b calls partition) := by
  unfold Grants
  split <;> infer_instance

/-- The call numbers after an allocation for a partition. -/
def afterAlloc (b : DeviceRuntimeBackend) (calls : PhysicalDeviceId → Nat)
    (partition : LogicalPartitionId) : PhysicalDeviceId → Nat :=
  match b.partitionDevices[partition]? with
  | none => calls
  | some device => Function.update calls device (calls device + 1)

/-- Every allocation of a list is granted, in order. -/
def GrantsAll (env : Environment) (b : DeviceRuntimeBackend) :
    (PhysicalDeviceId → Nat) → List LogicalPartitionId → Prop
  | _, [] => True
  | calls, partition :: rest =>
    Grants env b calls partition ∧ GrantsAll env b (afterAlloc b calls partition) rest

instance decidableGrantsAll (env : Environment) (b : DeviceRuntimeBackend) :
    (calls : PhysicalDeviceId → Nat) → (requests : List LogicalPartitionId) →
      Decidable (GrantsAll env b calls requests)
  | _, [] => isTrue trivial
  | calls, partition :: rest =>
    have := decidableGrantsAll env b (afterAlloc b calls partition) rest
    inferInstanceAs (Decidable
      (Grants env b calls partition ∧ GrantsAll env b (afterAlloc b calls partition) rest))

/-- The first allocation of a list is granted. -/
def GrantsFirst (env : Environment) (b : DeviceRuntimeBackend)
    (requests : List LogicalPartitionId) : Prop :=
  ∃ partition ∈ requests.head?, Grants env b b.nextCalls partition

instance (env : Environment) (b : DeviceRuntimeBackend) (requests : List LogicalPartitionId) :
    Decidable (GrantsFirst env b requests) := by
  unfold GrantsFirst
  cases requests.head? with
  | none => exact isFalse (by simp)
  | some partition => exact decidable_of_iff (Grants env b b.nextCalls partition) (by simp)

/-- Every request is granted, or already the first one is refused. -/
def AllOrNothing (env : Environment) (b : DeviceRuntimeBackend)
    (requests : List LogicalPartitionId) : Prop :=
  GrantsAll env b b.nextCalls requests ∨ ¬ GrantsFirst env b requests

instance (env : Environment) (b : DeviceRuntimeBackend) (requests : List LogicalPartitionId) :
    Decidable (AllOrNothing env b requests) := by
  unfold AllOrNothing
  infer_instance

/-- One request, unless the field is zero. -/
def request (partition : LogicalPartitionId) (lenBytes : UInt64) : List LogicalPartitionId :=
  if 0 < lenBytes then [partition] else []

/-- The allocations `reserve` asks for. -/
def requests (partition : LogicalPartitionId) (record : ReservationRecord) :
    List LogicalPartitionId :=
  request partition record.outputBufferBytes ++ (request partition record.transferStagingBytes ++
    request partition record.transactionScratchBytes)

/-! ## What a list of allocations leaves -/

section Specs

variable {env : Environment} {b b' b'' : DeviceRuntimeBackend} {partition : LogicalPartitionId}

/-- A handle is live that was not. -/
def Grew (b b' : DeviceRuntimeBackend) : Prop :=
  ∃ device id, b'.Live device id ∧ ¬ b.Live device id

/-- The same devices for the same partitions, and no handle gone. -/
structure Extends (b b' : DeviceRuntimeBackend) : Prop where
  partitionDevices : b'.partitionDevices = b.partitionDevices
  reservations : b'.reservations = b.reservations
  members : ∀ device, device ∈ b'.set ↔ device ∈ b.set
  below : b.IdsBelow → b'.IdsBelow
  live : ∀ device id, b.Live device id → b'.Live device id

theorem Extends.refl (b : DeviceRuntimeBackend) : Extends b b :=
  ⟨rfl, rfl, fun _ => Iff.rfl, id, fun _ _ => id⟩

theorem Extends.trans (h : Extends b b') (h' : Extends b' b'') : Extends b b'' :=
  ⟨h'.partitionDevices.trans h.partitionDevices, h'.reservations.trans h.reservations,
    fun device => (h'.members device).trans (h.members device), fun hb => h'.below (h.below hb),
    fun device id hlive => h'.live device id (h.live device id hlive)⟩

theorem grantsAll_congr (hdevices : b'.partitionDevices = b.partitionDevices)
    (hmembers : ∀ device, device ∈ b'.set ↔ device ∈ b.set) (calls : PhysicalDeviceId → Nat)
    (requests : List LogicalPartitionId) :
    GrantsAll env b' calls requests ↔ GrantsAll env b calls requests := by
  induction requests generalizing calls with
  | nil => rfl
  | cons partition rest ih =>
    have hafter : afterAlloc b' calls partition = afterAlloc b calls partition := by
      rw [afterAlloc, afterAlloc, hdevices]
    have hgrants : Grants env b' calls partition ↔ Grants env b calls partition := by
      unfold Grants
      rw [hdevices]
      split
      · rfl
      · rw [hmembers]
    rw [GrantsAll, GrantsAll, hgrants, hafter, ih]

theorem grantsAll_append (calls : PhysicalDeviceId → Nat) (first rest : List LogicalPartitionId) :
    GrantsAll env b calls (first ++ rest) ↔
      GrantsAll env b calls first ∧ GrantsAll env b (first.foldl (afterAlloc b) calls) rest := by
  induction first generalizing calls with
  | nil => simp [GrantsAll]
  | cons partition more ih =>
    rw [List.cons_append, GrantsAll, GrantsAll, ih, List.foldl_cons, and_assoc]

/-- The allocations of a list were all made. -/
structure Allocates (env : Environment) (b : DeviceRuntimeBackend)
    (requests : List LogicalPartitionId) (b' : DeviceRuntimeBackend) : Prop where
  granted : GrantsAll env b b.nextCalls requests
  ends : Extends b b'
  calls : b'.nextCalls = requests.foldl (afterAlloc b) b.nextCalls
  grew : requests ≠ [] → b.IdsBelow → Grew b b'
  same : requests = [] → b' = b

/-- One of them was refused: the first, and only a session was called, or a later one. -/
structure Refuses (env : Environment) (b : DeviceRuntimeBackend)
    (requests : List LogicalPartitionId) (b' : DeviceRuntimeBackend) : Prop where
  refused : ¬ GrantsAll env b b.nextCalls requests
  ends : Extends b b'
  grew : GrantsFirst env b requests → b.IdsBelow → Grew b b'
  same : ¬ GrantsFirst env b requests → Touches b b'

/-- The call makes the allocations of a list, or stops at the one that is refused. -/
def Requests (env : Environment) (requests : List LogicalPartitionId) {α : Type}
    (c : RuntimeCall α) : Prop :=
  ∀ b, c.wp False (fun _ => Allocates env b requests) (fun _ => Refuses env b requests) b

theorem Grew.of_extends (h : Grew b b') (hends : Extends b' b'') : Grew b b'' := by
  obtain ⟨device, id, hlive, hnew⟩ := h
  exact ⟨device, id, hends.live device id hlive, hnew⟩

theorem requests_pure {α : Type} (a : α) : Requests env [] (pure a : RuntimeCall α) :=
  fun b => ⟨trivial, .refl b, rfl, fun h => (h rfl).elim, fun _ => rfl⟩

theorem Requests.bind {α γ : Type} {first rest : List LogicalPartitionId} {c : RuntimeCall α}
    {f : α → RuntimeCall γ} (hc : Requests env first c) (hf : ∀ a, Requests env rest (f a)) :
    Requests env (first ++ rest) (c >>= f) := by
  intro b
  rw [Call.wp_bind]
  refine Call.wp_mono (hc b) ?_ ?_
  · intro a t ht
    have hrest : GrantsAll env t t.nextCalls rest ↔
        GrantsAll env b (first.foldl (afterAlloc b) b.nextCalls) rest := by
      rw [ht.calls, grantsAll_congr ht.ends.partitionDevices ht.ends.members]
    have happend : GrantsAll env b b.nextCalls (first ++ rest) ↔
        GrantsAll env t t.nextCalls rest := by
      rw [grantsAll_append, hrest]
      exact and_iff_right ht.granted
    have hafter : afterAlloc t = afterAlloc b := by
      funext calls p
      rw [afterAlloc, afterAlloc, ht.ends.partitionDevices]
    refine Call.wp_mono (hf a t) ?_ ?_
    · intro _ u hu
      refine ⟨happend.mpr hu.granted, ht.ends.trans hu.ends, ?_, ?_, ?_⟩
      · rw [hu.calls, hafter, ht.calls, List.foldl_append]
      · intro hne hbelow
        by_cases hnil : first = []
        · have hsame := ht.same hnil
          subst hsame
          exact hu.grew (by simpa [hnil] using hne) hbelow
        · exact (ht.grew hnil hbelow).of_extends hu.ends
      · intro hnil
        obtain ⟨hfirst, hlast⟩ := List.append_eq_nil_iff.mp hnil
        rw [hu.same hlast, ht.same hfirst]
    · intro _ u hu
      refine ⟨fun hall => hu.refused (happend.mp hall), ht.ends.trans hu.ends, ?_, ?_⟩
      · intro hgrants hbelow
        by_cases hnil : first = []
        · have hsame := ht.same hnil
          subst hsame
          exact hu.grew (by simpa [hnil] using hgrants) hbelow
        · exact (ht.grew hnil hbelow).of_extends hu.ends
      · intro hgrants
        cases first with
        | nil =>
          have hsame := ht.same rfl
          subst hsame
          exact hu.same hgrants
        | cons p more => exact (hgrants ⟨p, by simp, ht.granted.1⟩).elim
  · intro _ t ht
    have hne : first ≠ [] := by
      rintro rfl
      exact ht.refused trivial
    have hhead : GrantsFirst env b (first ++ rest) ↔ GrantsFirst env b first := by
      obtain ⟨p, more, rfl⟩ := List.exists_cons_of_ne_nil hne
      rfl
    refine ⟨fun hall => ht.refused ((grantsAll_append _ _ _).mp hall).1, ht.ends, ?_, ?_⟩
    · exact fun hgrants => ht.grew (hhead.mp hgrants)
    · exact fun hgrants => ht.same (fun h => hgrants (hhead.mpr h))

/-! ## `reserve` -/

theorem extends_touches (h : Touches b b') : Extends b b' := by
  rcases h with rfl | ⟨device, runtime, t, hruntime, hsame, rfl⟩
  · exact .refl _
  refine ⟨rfl, rfl, ?_, ?_, ?_⟩
  · intro other
    rw [DeviceRuntimeBackend.withSession_set, Std.ExtTreeMap.mem_insert,
      Std.LawfulEqOrd.compare_eq_iff_eq]
    refine ⟨?_, .inr⟩
    rintro (rfl | hmem)
    · exact (mem_iff_getElem? _ _).mpr ⟨runtime, hruntime⟩
    · exact hmem
  · intro hbelow other found hfound id hid
    rcases session_withSession hfound with ⟨-, rfl⟩ | ⟨-, hkept⟩
    · rw [hsame.nextId]
      exact hbelow device runtime hruntime id ((hsame.mem id).mp hid)
    · exact hbelow other found hkept id hid
  · intro other id hlive
    rw [live_withSession]
    split
    · next heq =>
      rw [heq, live_iff hruntime] at hlive
      exact (hsame.mem id).mpr hlive
    · exact hlive

theorem extends_registers {device : PhysicalDeviceId} {runtime t : Device} {handle : DeviceHandle}
    (hruntime : b.set[device]? = some runtime) (hregisters : Registers runtime handle t) :
    Extends b ((b.withSession device t).track partition handle) := by
  refine ⟨rfl, rfl, ?_, ?_, ?_⟩
  · intro other
    show other ∈ b.set.insert device t ↔ _
    rw [Std.ExtTreeMap.mem_insert, Std.LawfulEqOrd.compare_eq_iff_eq]
    refine ⟨?_, .inr⟩
    rintro (rfl | hmem)
    · exact (mem_iff_getElem? _ _).mpr ⟨runtime, hruntime⟩
    · exact hmem
  · intro hbelow other found hfound id hid
    rcases session_withSession (b := b) hfound with ⟨-, rfl⟩ | ⟨-, hkept⟩
    · rw [hregisters.nextId]
      rcases (hregisters.mem id).mp hid with rfl | hold
      · omega
      · have := hbelow device runtime hruntime id hold
        omega
    · exact hbelow other found hkept id hid
  · intro other id hlive
    show (b.withSession device t).Live other id
    rw [live_withSession]
    split
    · next heq =>
      rw [heq, live_iff hruntime] at hlive
      exact (hregisters.mem id).mpr (.inr hlive)
    · exact hlive

theorem allocBytes_granted {driver : Driver} {lenBytes : UInt64} (hlen : 0 < lenBytes)
    {s : Device} (hgranted : driver.fails s.calls .alloc = none) :
    ∃ handle t, allocBytes driver lenBytes s = .ok handle t ∧ t.calls = s.calls + 1 := by
  have hne : lenBytes ≠ 0 := fun h => by simp [h] at hlen
  have hrun : allocBytes driver lenBytes s = register (.buffer lenBytes)
      ((List.range lenBytes.toNat).map (driver.fresh s.calls)) { s with calls := s.calls + 1 } := by
    simp [allocBytes, call, hne, hgranted, Bind.bind, EStateM.bind, get, getThe, MonadStateOf.get,
      EStateM.get]
  exact ⟨_, _, hrun, rfl⟩

theorem allocBytes_refused {driver : Driver} {lenBytes : UInt64} (hlen : 0 < lenBytes)
    {s : Device} {error : HostError} (hrefused : driver.fails s.calls .alloc = some error) :
    allocBytes driver lenBytes s = .error error { s with calls := s.calls + 1 } := by
  have hne : lenBytes ≠ 0 := fun h => by simp [h] at hlen
  simp [allocBytes, call, hne, hrefused, Bind.bind, EStateM.bind, get, getThe, MonadStateOf.get,
    EStateM.get]

theorem nextCalls_withSession {device : PhysicalDeviceId} {t : Device} {calls : Nat}
    (hcalls : t.calls = calls) :
    (b.withSession device t).nextCalls = Function.update b.nextCalls device calls := by
  funext other
  unfold DeviceRuntimeBackend.nextCalls
  rw [DeviceRuntimeBackend.withSession_set, Function.update_apply]
  by_cases heq : other = device
  · subst heq
    simp [hcalls]
  · simp [heq, Std.ExtTreeMap.getElem?_insert, Ne.symm heq]

theorem nextCalls_of_session {device : PhysicalDeviceId} {runtime : Device}
    (hruntime : b.set[device]? = some runtime) : b.nextCalls device = runtime.calls := by
  simp [DeviceRuntimeBackend.nextCalls, hruntime]

theorem requests_alloc {lenBytes : UInt64} (hlen : 0 < lenBytes) :
    Requests env [partition] (alloc env partition lenBytes) := by
  intro b
  -- an allocation that is not granted leaves a session touched at most
  have hrefuses (b' : DeviceRuntimeBackend) (htouches : Touches b b')
      (hnot : ¬ Grants env b b.nextCalls partition) : Refuses env b [partition] b' := by
    refine ⟨fun hall => hnot hall.1, extends_touches htouches, ?_, fun _ => htouches⟩
    rintro ⟨p, hp, hgrants⟩
    cases hp
    exact (hnot hgrants).elim
  unfold alloc
  rw [Call.wp_bind]
  cases hdevice : b.partitionDevices[partition]? with
  | none =>
    have hrun : onRuntime partition .allocation
        (fun device => allocBytes (env.driver device).toDriver lenBytes) b =
        some (.error (.operation partition
          s!"partition {partition} is not bound to a PhysicalDeviceId"), b) := by
      simp [onRuntime, DeviceRuntimeBackend.deviceOf, hdevice]
    rw [Call.wp, hrun]
    exact hrefuses b (.inl rfl) (by simp [Grants, hdevice])
  | some device =>
    cases hruntime : b.set[device]? with
    | none =>
      have hrun : onRuntime partition .allocation
          (fun device => allocBytes (env.driver device).toDriver lenBytes) b =
          some (.error (.deviceLoss partition
            s!"PhysicalDeviceId {device} is not in the runtime set"), b) := by
        simp [onRuntime, DeviceRuntimeBackend.deviceOf, hdevice, hruntime]
      rw [Call.wp, hrun]
      refine hrefuses b (.inl rfl) ?_
      have hmember : device ∉ b.set := by simpa using hruntime
      simp [Grants, hdevice, hmember]
    | some runtime =>
      have hmember : device ∈ b.set := (mem_iff_getElem? _ _).mpr ⟨runtime, hruntime⟩
      have hcalls := nextCalls_of_session hruntime
      cases hfails : (env.driver device).fails runtime.calls .alloc with
      | some error =>
        have ht := allocBytes_refused hlen hfails
        have hrun : onRuntime partition .allocation
            (fun device => allocBytes (env.driver device).toDriver lenBytes) b =
            some (.error (mapHostError partition error .allocation),
              b.withSession device { runtime with calls := runtime.calls + 1 }) := by
          simp only [onRuntime, DeviceRuntimeBackend.deviceOf, hdevice, hruntime, ht]
          rfl
        rw [Call.wp, hrun]
        refine hrefuses _ (.inr ⟨device, runtime, _, hruntime, ?_, rfl⟩) ?_
        · exact (allocBytes_ends _ _ _).of_error (.refl _) ht
        · simp [Grants, hdevice, hcalls, hfails]
      | none =>
        obtain ⟨handle, t, ht, htcalls⟩ := allocBytes_granted hlen hfails
        have hrun : onRuntime partition .allocation
            (fun device => allocBytes (env.driver device).toDriver lenBytes) b =
            some (.ok handle, b.withSession device t) := by
          simp only [onRuntime, DeviceRuntimeBackend.deviceOf, hdevice, hruntime, ht]
          rfl
        rw [Call.wp, hrun]
        show Allocates env b [partition] ((b.withSession device t).track partition handle)
        have hregisters := ((allocBytes_ends _ _ _).of_ok (.refl _) ht).1
        refine ⟨⟨?_, trivial⟩, extends_registers hruntime hregisters, ?_, ?_, by intros; contradiction⟩
        · simp [Grants, hdevice, hcalls, hfails, hmember]
        · show (b.withSession device t).nextCalls = afterAlloc b b.nextCalls partition
          rw [nextCalls_withSession htcalls, afterAlloc, hdevice, ← hcalls]
        · intro _ hbelow
          refine ⟨device, runtime.nextId, ?_, ?_⟩
          · show (b.withSession device t).Live device runtime.nextId
            rw [live_withSession, if_pos rfl, hregisters.mem]
            exact .inl rfl
          · rw [live_iff hruntime]
            exact fun hid => Nat.lt_irrefl _ (hbelow device runtime hruntime _ hid)

theorem requests_allocReserved (lenBytes : UInt64) :
    Requests env (request partition lenBytes) (allocReserved env partition lenBytes) := by
  unfold allocReserved request
  split
  · next hlen => exact (requests_alloc hlen).bind (fun _ => requests_pure ())
  · exact requests_pure ()

/-- The allocations of a reservation, one field after the other. -/
def allocateReserved (env : Environment) (partition : LogicalPartitionId)
    (record : ReservationRecord) : RuntimeCall Unit := do
  allocReserved env partition record.outputBufferBytes
  allocReserved env partition record.transferStagingBytes
  allocReserved env partition record.transactionScratchBytes

theorem requests_allocateReserved (record : ReservationRecord) :
    Requests env (requests partition record) (allocateReserved env partition record) :=
  (requests_allocReserved _).bind (fun _ =>
    (requests_allocReserved _).bind (fun _ => requests_allocReserved _))

/-- A reservation of a free partition makes its allocations, and is recorded if all are
    granted. -/
theorem wp_reserve {record : ReservationRecord} {panics : Prop}
    {Q : Unit → DeviceRuntimeBackend → Prop} {E : BackendError → DeviceRuntimeBackend → Prop} :
    (reserve env partition record).wp panics Q E b ↔
      (partition ∈ b.reservations → E (.allocation partition
        s!"partition {partition} already holds a reservation") b) ∧
      (partition ∉ b.reservations → b.partitionDevices[partition]? = none →
        E (.operation partition
          s!"partition {partition} is not bound to a PhysicalDeviceId") b) ∧
      (partition ∉ b.reservations → (b.partitionDevices[partition]?).isSome →
        (allocateReserved env partition record).wp panics
          (fun _ t => Q () { t with
            reservations := t.reservations.insert partition record }) E b) := by
  unfold reserve allocateReserved
  by_cases hheld : partition ∈ b.reservations
  · simp [hheld]
  · cases hdevice : b.partitionDevices[partition]? with
    | none => simp [hheld, DeviceRuntimeBackend.deviceOf, hdevice]
    | some device => simp [hheld, DeviceRuntimeBackend.deviceOf, hdevice]

theorem grantsFirst_unbound {record : ReservationRecord}
    (hunbound : b.partitionDevices[partition]? = none) :
    ¬ GrantsFirst env b (requests partition record) := by
  rintro ⟨p, hp, hgrants⟩
  have hmem : p ∈ requests partition record := List.mem_of_mem_head? hp
  have heq : p = partition := by
    simp only [requests, request, List.mem_append] at hmem
    rcases hmem with hmem | hmem | hmem
    all_goals
      split at hmem
      · exact List.mem_singleton.mp hmem
      · cases hmem
  subst heq
  simp [Grants, hunbound] at hgrants

/-- A granted reservation has made its allocations.  A refused one leaves nothing but call numbers
    when its first request was refused, and one more live handle otherwise. -/
theorem reserve_outcome {R : DeviceRuntimeBackend → DeviceRuntimeBackend → Prop}
    {record : ReservationRecord} (hmoves : Moves R (allocateReserved env partition record))
    (hfree : partition ∉ b.reservations) (hbelow : b.IdsBelow) :
    (reserve env partition record).wp False
      (fun _ b' => ∃ w, Allocates env b (requests partition record) w ∧ R b w ∧
        b' = { w with reservations := w.reservations.insert partition record })
      (fun _ b' => Extends b b' ∧ ((¬ GrantsFirst env b (requests partition record) ∧
          Touches b b') ∨
        (¬ GrantsAll env b b.nextCalls (requests partition record) ∧
          GrantsFirst env b (requests partition record) ∧ Grew b b'))) b := by
  rw [wp_reserve]
  refine ⟨fun hheld => (hfree hheld).elim, fun _ hunbound => ?_, fun _ _ => ?_⟩
  · exact ⟨.refl b, .inl ⟨grantsFirst_unbound hunbound, .inl rfl⟩⟩
  · refine Call.wp_mono (wp_and (requests_allocateReserved record b)
      (wp_of_moves hmoves (fun t ht => ht))) ?_ ?_
    · exact fun _ t ht => ⟨t, ht.1, ht.2, rfl⟩
    · intro _ t ht
      refine ⟨ht.1.ends, ?_⟩
      by_cases hgrants : GrantsFirst env b (requests partition record)
      · exact .inr ⟨ht.1.refused, hgrants, ht.1.grew hgrants hbelow⟩
      · exact .inl ⟨hgrants, ht.1.same hgrants⟩

end Specs

end FaberHosts.Macos
