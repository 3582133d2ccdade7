import FaberHosts.Lib.Calls
import FaberHosts.Macos.RuntimeBackend

/-!
# What an operation does on the devices

A relation that the allocations, copies, launches and waits of the backend keep is kept by every
operation and by a reservation.
-/

namespace FaberHosts.Macos
open FaberHosts.Lib FaberHosts.Coordinator FaberHosts.Descriptor FaberHosts.Session
open FaberHosts.Transaction DeviceRuntimeBackend

/-- The partitions an operation may allocate on. -/
def allocatesOn : TransactionOperation → LogicalPartitionId → Prop
  | .launch partition _ _, p => p = partition
  | .transfer transfer, p => p = transfer.source ∨ p = transfer.destination
  | .collectiveBroadcast broadcast, p => p = broadcast.source ∨ p ∈ broadcast.participants
  | .barrier _ _, _ => False

/-- A relation that the primitive device calls keep, with allocations on some partitions. -/
structure DeviceSteps (env : Environment) (allowed : LogicalPartitionId → Prop)
    (R : DeviceRuntimeBackend → DeviceRuntimeBackend → Prop) : Prop where
  refl : ∀ b, R b b
  trans : ∀ b b' b'', R b b' → R b' b'' → R b b''
  alloc : ∀ {partition} lenBytes, allowed partition → Moves R (alloc env partition lenBytes)
  ensureModule : ∀ partition, Moves R (ensureModule env partition)
  copyIn : ∀ partition handle bytes, Moves R (copyIn env partition handle bytes)
  readback : ∀ partition handle, Moves R (readback env partition handle)
  launch : ∀ partition module entry args grid block,
    Moves R (onRuntime partition .operation (fun device =>
      launchKernel (env.driver device).toDriver module entry args grid block))
  sync : ∀ partition, Moves R (onRuntime partition .operation (fun device =>
    sync (env.driver device).toDriver))
  transportCopy : ∀ spec source destination,
    Moves R (transportCopy env spec source destination)

namespace DeviceSteps

variable {env : Environment} {allowed : LogicalPartitionId → Prop}
  {R : DeviceRuntimeBackend → DeviceRuntimeBackend → Prop} (h : DeviceSteps env allowed R)
include h

theorem moves_hostStageCopy {source destination : LogicalPartitionId} (hsource : allowed source)
    (hdestination : allowed destination) (spec : TransferSpec) (bytes : UInt64) :
    Moves R (hostStageCopy env source destination spec bytes) := by
  refine moves_bind h.trans (h.alloc bytes hsource) (fun sourceHandle => ?_)
  refine moves_bind h.trans (h.copyIn _ _ _) (fun _ => ?_)
  refine moves_bind h.trans (h.readback _ _) (fun sourceBytes => ?_)
  split
  · exact moves_throw h.refl _
  · refine moves_bind h.trans (h.transportCopy _ _ _) (fun outcome => ?_)
    split
    · exact moves_throw h.refl _
    · refine moves_bind h.trans (h.alloc bytes hdestination) (fun destinationHandle => ?_)
      refine moves_bind h.trans (h.copyIn _ _ _) (fun _ => ?_)
      refine moves_bind h.trans (h.readback _ _) (fun landed => ?_)
      split
      · exact moves_throw h.refl _
      · exact moves_pure h.refl _

theorem moves_runLaunch {partition : LogicalPartitionId} (hpartition : allowed partition)
    (lenBytes : UInt64) : Moves R (runLaunch env partition lenBytes) := by
  refine moves_bind h.trans (h.ensureModule partition) (fun module => ?_)
  refine moves_bind h.trans (h.alloc lenBytes hpartition) (fun source => ?_)
  refine moves_bind h.trans (h.alloc lenBytes hpartition) (fun target => ?_)
  refine moves_bind h.trans (h.copyIn _ _ _) (fun _ => ?_)
  refine moves_bind h.trans (moves_get h.refl) (fun b => ?_)
  exact moves_bind h.trans (h.launch _ _ _ _ _ _) (fun _ => h.sync partition)

theorem moves_syncEach (partitions : List LogicalPartitionId)
    (synced : BTreeSet PhysicalDeviceId) : Moves R (syncEach env synced partitions) := by
  induction partitions generalizing synced with
  | nil => exact moves_pure h.refl _
  | cons partition rest ih =>
    refine moves_bind h.trans (moves_get h.refl) (fun b => ?_)
    refine moves_bind h.trans (moves_lift h.refl _) (fun device => ?_)
    split
    · exact ih synced
    · exact moves_bind h.trans (h.sync partition) (fun _ => ih _)

theorem moves_runOnDevices {operation : TransactionOperation}
    (hallowed : ∀ partition, allocatesOn operation partition → allowed partition) :
    Moves R (runOnDevices env operation) := by
  cases operation with
  | launch partition launchRef outputBytes =>
    simp only [runOnDevices]
    split
    · exact h.moves_runLaunch (hallowed _ rfl) _
    · exact moves_pure h.refl _
  | transfer transfer =>
    refine moves_bind h.trans (moves_get h.refl) (fun b => ?_)
    exact h.moves_hostStageCopy (hallowed _ (.inl rfl)) (hallowed _ (.inr rfl)) _ _
  | collectiveBroadcast broadcast =>
    refine moves_forEach h.refl h.trans (fun participant hparticipant => ?_)
    unfold broadcastTo
    split
    · exact moves_pure h.refl _
    · refine moves_bind h.trans (moves_get h.refl) (fun b => ?_)
      refine h.moves_hostStageCopy (hallowed _ (.inl rfl)) (hallowed _ (.inr ?_)) _ _
      exact Std.ExtTreeSet.mem_toList.mp hparticipant
  | barrier barrierRef partitions => exact h.moves_syncEach _ _

theorem moves_allocReserved {partition : LogicalPartitionId} (hpartition : allowed partition)
    (lenBytes : UInt64) : Moves R (allocReserved env partition lenBytes) := by
  unfold allocReserved
  split
  · exact moves_bind h.trans (h.alloc lenBytes hpartition) (fun _ => moves_pure h.refl _)
  · exact moves_pure h.refl _

end DeviceSteps

end FaberHosts.Macos

/-!
## Who owns the handles of the devices

Every live handle of a session was there before the backend, is the cached module of its device, or
is tracked under one partition.  The device calls of the backend keep these books; giving a
partition back removes what it owns and nothing else.
-/

namespace FaberHosts.Macos
open FaberHosts.Lib FaberHosts.Coordinator FaberHosts.Descriptor FaberHosts.Session
open FaberHosts.Transaction DeviceRuntimeBackend

/-! ## Sessions -/

section Sessions

variable {α β : Type}

/-- The registry is as it was; contents and call numbers may differ. -/
structure SameHandles (s t : Device) : Prop where
  backend : t.backend = s.backend
  nextId : t.nextId = s.nextId
  mem : ∀ id, id ∈ t.handles ↔ id ∈ s.handles

theorem SameHandles.refl (s : Device) : SameHandles s s := ⟨rfl, rfl, fun _ => Iff.rfl⟩

theorem SameHandles.trans {s t u : Device} (h : SameHandles s t) (h' : SameHandles t u) :
    SameHandles s u :=
  ⟨h'.backend.trans h.backend, h'.nextId.trans h.nextId, fun id => (h'.mem id).trans (h.mem id)⟩

/-- However the computation ends, the registry is as before. -/
def KeepsHandles (x : DeviceM α) : Prop :=
  ∀ s, Ends (SameHandles s) x (fun _ => SameHandles s) (fun _ => SameHandles s)

theorem KeepsHandles.bind {x : DeviceM α} {f : α → DeviceM β} (hx : KeepsHandles x)
    (hf : ∀ a, KeepsHandles (f a)) : KeepsHandles (x >>= f) :=
  fun s => Ends.bind (hx s) (fun a => hf a s)

theorem keepsHandles_pure (a : α) : KeepsHandles (pure a : DeviceM α) :=
  fun _ => Ends.pure (fun _ h => h)

theorem keepsHandles_throw (e : HostError) : KeepsHandles (throw e : DeviceM α) :=
  fun _ => Ends.throw (fun _ h => h)

theorem keepsHandles_get : KeepsHandles (get : DeviceM Device) :=
  fun _ => Ends.get (fun _ h => h)

theorem keepsHandles_modify {g : Device → Device} (h : ∀ s, SameHandles s (g s)) :
    KeepsHandles (modify g : DeviceM PUnit) :=
  fun _ => Ends.modify (fun t ht => ht.trans (h t))

theorem keepsHandles_lift (answer : Except HostError α) : KeepsHandles (Session.lift answer) := by
  cases answer with
  | ok a => exact keepsHandles_pure a
  | error e => exact keepsHandles_throw e

theorem keepsHandles_call (driver : Driver) (stage : Stage) :
    KeepsHandles (call driver stage) := by
  intro s t ht
  unfold call
  cases driver.fails t.calls stage with
  | none => exact ⟨ht.backend, ht.nextId, ht.mem⟩
  | some error => exact ⟨ht.backend, ht.nextId, ht.mem⟩

theorem keepsHandles_resolve (handle : DeviceHandle) : KeepsHandles (resolve handle) := by
  intro s t ht
  unfold resolve
  by_cases hbackend : handle.backend ≠ t.backend
  · simpa [hbackend] using ht
  · rw [if_neg hbackend]
    cases t.handles[handle.id]? with
    | none => exact ht
    | some registered => exact ht

theorem keepsHandles_bufferToken (handle : DeviceHandle) : KeepsHandles (bufferToken handle) := by
  refine keepsHandles_get.bind (fun device => (keepsHandles_resolve handle).bind ?_)
  intro registered
  cases registered.kind with
  | module => exact keepsHandles_throw _
  | buffer lenBytes => exact keepsHandles_pure _

theorem keepsHandles_moduleToken (handle : DeviceHandle) : KeepsHandles (moduleToken handle) := by
  refine keepsHandles_get.bind (fun device => (keepsHandles_resolve handle).bind ?_)
  intro registered
  cases registered.kind with
  | module => exact keepsHandles_pure _
  | buffer lenBytes => exact keepsHandles_throw _

theorem sameHandles_write (s : Device) (id : Nat) (bytes : List UInt8) :
    SameHandles s (s.write id bytes) :=
  ⟨rfl, rfl, fun _ => Std.ExtTreeMap.mem_modify⟩

theorem sameHandles_launched (s : Device) (effect : Nat → Nat → UInt8) (args : List DeviceHandle) :
    SameHandles s (s.launched effect args) := by
  unfold Device.launched
  generalize args.zipIdx = indexed
  induction indexed generalizing s with
  | nil => exact .refl s
  | cons arg rest ih => exact (sameHandles_write s _ _).trans (ih _)

theorem keepsHandles_sync (driver : Driver) : KeepsHandles (sync driver) :=
  (keepsHandles_call driver .sync).bind (fun _ => keepsHandles_pure _)

theorem keepsHandles_copyInBytes (driver : Driver) (stage : Stage) (handle : DeviceHandle)
    (bytes : List UInt8) (dtype : DeviceDataType) :
    KeepsHandles (copyInBytes driver stage handle bytes dtype) := by
  refine keepsHandles_get.bind (fun device => (keepsHandles_bufferToken handle).bind ?_)
  intro token
  refine (keepsHandles_lift _).bind (fun admitted => (keepsHandles_call driver stage).bind ?_)
  exact fun _ => keepsHandles_modify (fun s => sameHandles_write s _ _)

theorem keepsHandles_readbackBytes (driver : RuntimeDriver) (handle : DeviceHandle)
    (dtype : DeviceDataType) : KeepsHandles (readbackBytes driver handle dtype) := by
  refine keepsHandles_get.bind (fun device => (keepsHandles_bufferToken handle).bind ?_)
  intro token
  dsimp only
  split
  · exact keepsHandles_throw _
  · refine (keepsHandles_call _ _).bind (fun number => ?_)
    split
    · exact keepsHandles_throw _
    · exact keepsHandles_pure _

theorem keepsHandles_mapM {l : List β} {f : β → DeviceM α} (h : ∀ a, KeepsHandles (f a)) :
    KeepsHandles (l.mapM f) := by
  induction l with
  | nil => exact keepsHandles_pure _
  | cons a rest ih =>
    rw [List.mapM_cons]
    exact (h a).bind (fun _ => ih.bind (fun _ => keepsHandles_pure _))

theorem keepsHandles_dispatchKernel (driver : Driver) (module : DeviceHandle) (entry : String)
    (args : List DeviceHandle) (grid block : Axes) :
    KeepsHandles (dispatchKernel driver module entry args grid block) := by
  refine keepsHandles_get.bind (fun device => (keepsHandles_moduleToken module).bind (fun _ => ?_))
  split
  · exact keepsHandles_throw _
  · refine (keepsHandles_mapM keepsHandles_bufferToken).bind (fun tokens => ?_)
    refine (keepsHandles_call driver .launch).bind (fun number => ?_)
    refine (keepsHandles_modify fun s => sameHandles_launched s _ _).bind (fun _ => ?_)
    cases device.backend with
    | metal => exact keepsHandles_pure _
    | cuda => exact keepsHandles_sync driver

theorem keepsHandles_launchKernel (driver : Driver) (module : DeviceHandle) (entry : String)
    (buffers : List DeviceHandle) (grid block : Axes) :
    KeepsHandles (launchKernel driver module entry buffers grid block) := by
  refine (keepsHandles_lift _).bind (fun bindings => ?_)
  refine keepsHandles_get.bind (fun device => (keepsHandles_lift _).bind (fun _ => ?_))
  refine (keepsHandles_lift _).bind (fun ordered => ?_)
  exact keepsHandles_dispatchKernel driver module entry _ grid block

/-- One more registration, under the next id. -/
structure Registers (s : Device) (handle : DeviceHandle) (t : Device) : Prop where
  handleBackend : handle.backend = s.backend
  handleId : handle.id = s.nextId
  backend : t.backend = s.backend
  nextId : t.nextId = s.nextId + 1
  mem : ∀ id, id ∈ t.handles ↔ id = s.nextId ∨ id ∈ s.handles

theorem registers_register {s t : Device} (h : SameHandles s t) (kind : DeviceHandleKind)
    (bytes : List UInt8) : Registers s ⟨t.backend, kind, t.nextId⟩
      { t with handles := t.handles.insert t.nextId ⟨kind, bytes⟩, nextId := t.nextId + 1 } := by
  refine ⟨h.backend, h.nextId, h.backend, by rw [h.nextId], fun id => ?_⟩
  rw [Std.ExtTreeMap.mem_insert, Std.LawfulEqOrd.compare_eq_iff_eq, h.mem, h.nextId]
  exact or_congr_left eq_comm

/-- A refused allocation leaves the registry as it was, a granted one registers a buffer. -/
theorem allocBytes_ends (driver : Driver) (lenBytes : UInt64) (s : Device) :
    Ends (SameHandles s) (allocBytes driver lenBytes)
      (fun handle t => Registers s handle t ∧ handle.kind = .buffer lenBytes)
      (fun _ => SameHandles s) := by
  refine Ends.bind (keepsHandles_get s) (fun device => ?_)
  split
  · exact Ends.throw (fun _ h => h)
  · refine Ends.bind (keepsHandles_call driver .alloc s) (fun number => ?_)
    exact fun t ht => ⟨registers_register ht _ _, rfl⟩

theorem loadModule_ends (driver : Driver) (image : List UInt8) (s : Device) :
    Ends (SameHandles s) (loadModule driver image) (Registers s) (fun _ => SameHandles s) := by
  refine Ends.bind (keepsHandles_get s) (fun device => ?_)
  split
  · exact Ends.throw (fun _ h => h)
  · refine Ends.bind (keepsHandles_call driver .loadModule s) (fun number => ?_)
    exact fun t ht => registers_register ht _ _

/-- What releasing handles leaves, as `free_partition` does it. -/
def releasedAll (driver : Driver) (handles : List DeviceHandle) (s : Device) : Device :=
  handles.foldl (fun runtime handle =>
    match Session.release driver handle runtime with
    | .ok _ runtime => runtime
    | .error _ runtime => runtime) s

/-- The registry without the handles of some ids. -/
structure Released (s : Device) (handles : List DeviceHandle) (t : Device) : Prop where
  backend : t.backend = s.backend
  nextId : t.nextId = s.nextId
  mem : ∀ id, id ∈ t.handles ↔ id ∈ s.handles ∧ ∀ handle ∈ handles, handle.id ≠ id

theorem released_of_not_mem {s : Device} {handle : DeviceHandle} (h : handle.id ∉ s.handles) :
    Released s [handle] s := by
  refine ⟨rfl, rfl, fun id => ?_⟩
  rw [List.forall_mem_singleton]
  refine ⟨fun hid => ⟨hid, ?_⟩, And.left⟩
  intro heq
  exact h (heq ▸ hid)

theorem released_erase {s t : Device} {handle : DeviceHandle}
    (h : SameHandles { s with handles := s.handles.erase handle.id } t) :
    Released s [handle] t := by
  refine ⟨h.backend, h.nextId, fun id => (h.mem id).trans ?_⟩
  rw [List.forall_mem_singleton, Std.ExtTreeMap.mem_erase, ne_eq,
    Std.LawfulEqOrd.compare_eq_iff_eq, and_comm]

/-- A released handle of the session's backend is gone, whatever the driver answers. -/
theorem release_ends (driver : Driver) {handle : DeviceHandle} {s : Device}
    (hbackend : handle.backend = s.backend) :
    Ends (· = s) (Session.release driver handle) (fun _ => Released s [handle])
      (fun _ => Released s [handle]) := by
  have hresolve : Ends (· = s) (resolve handle) (fun _ t => t = s)
      (fun _ => Released s [handle]) := by
    intro t ht
    subst ht
    unfold resolve
    rw [if_neg (by simpa using hbackend)]
    cases hfound : t.handles[handle.id]? with
    | none => exact released_of_not_mem (by simpa using hfound)
    | some registered => rfl
  have hfree : KeepsHandles (do let _ ← call driver .free) :=
    (keepsHandles_call driver .free).bind (fun _ => keepsHandles_pure _)
  refine Ends.bind hresolve (fun registered => ?_)
  refine Ends.bind (Q := fun _ => SameHandles { s with handles := s.handles.erase handle.id })
    (Ends.modify ?_) (fun _ => ?_)
  · intro t ht
    subst ht
    exact .refl _
  · exact Ends.weaken (hfree _) (fun _ h => h) (fun _ _ => released_erase)
      (fun _ _ => released_erase)

theorem releasedAll_released (driver : Driver) {handles : List DeviceHandle} {s : Device}
    (hbackend : ∀ handle ∈ handles, handle.backend = s.backend) :
    Released s handles (releasedAll driver handles s) := by
  induction handles generalizing s with
  | nil => exact ⟨rfl, rfl, fun id => by simp [releasedAll]⟩
  | cons handle rest ih =>
    obtain ⟨hfirst, hrest⟩ := List.forall_mem_cons.mp hbackend
    have hends := release_ends driver hfirst
    obtain ⟨t, ht, hstep⟩ : ∃ t, releasedAll driver (handle :: rest) s = releasedAll driver rest t ∧
        Released s [handle] t := by
      cases hrun : Session.release driver handle s with
      | ok _ t => exact ⟨t, by simp [releasedAll, hrun], hends.of_ok rfl hrun⟩
      | error _ t => exact ⟨t, by simp [releasedAll, hrun], hends.of_error rfl hrun⟩
    have hlater := ih (s := t) (fun h hh => (hrest h hh).trans hstep.backend.symm)
    rw [ht]
    refine ⟨hlater.backend.trans hstep.backend, hlater.nextId.trans hstep.nextId, fun id => ?_⟩
    rw [hlater.mem, hstep.mem, List.forall_mem_singleton, List.forall_mem_cons, and_assoc]

end Sessions

/-! ## The device calls of the backend -/

section Calls

variable {b b' : DeviceRuntimeBackend} {partition : LogicalPartitionId}

/-- The backend with another session of a device. -/
@[simps] def DeviceRuntimeBackend.withSession (b : DeviceRuntimeBackend) (device : PhysicalDeviceId)
    (runtime : Device) : DeviceRuntimeBackend :=
  { b with set := b.set.insert device runtime }

/-- At most one session was used, and its registry is as it was. -/
def Touches (b b' : DeviceRuntimeBackend) : Prop :=
  b' = b ∨ ∃ device runtime t, b.set[device]? = some runtime ∧ SameHandles runtime t ∧
    b' = b.withSession device t

/-- An operation is refused before it starts, or runs on the session of the partition. -/
theorem onRuntime_answer {α : Type} {fault : FaultClass} {operation : PhysicalDeviceId → DeviceM α}
    {answer : Except BackendError α} (h : onRuntime partition fault operation b = some (answer, b')) :
    (b' = b ∧ ∃ error, answer = .error error) ∨
      ∃ device runtime, b.partitionDevices[partition]? = some device ∧
        b.set[device]? = some runtime ∧
        ((∃ a t, operation device runtime = .ok a t ∧ answer = .ok a ∧ b' = b.withSession device t) ∨
          ∃ e t, operation device runtime = .error e t ∧
            answer = .error (mapHostError partition e fault) ∧ b' = b.withSession device t) := by
  unfold onRuntime DeviceRuntimeBackend.deviceOf at h
  cases hdevice : b.partitionDevices[partition]? with
  | none =>
    simp only [hdevice] at h
    cases h
    exact .inl ⟨rfl, _, rfl⟩
  | some device =>
    simp only [hdevice] at h
    cases hruntime : b.set[device]? with
    | none =>
      simp only [hruntime] at h
      cases h
      exact .inl ⟨rfl, _, rfl⟩
    | some runtime =>
      simp only [hruntime] at h
      refine .inr ⟨device, runtime, rfl, hruntime, ?_⟩
      cases hrun : operation device runtime with
      | ok a t =>
        simp only [hrun] at h
        cases h
        exact .inl ⟨a, t, rfl, rfl, rfl⟩
      | error e t =>
        simp only [hrun] at h
        cases h
        exact .inr ⟨e, t, rfl, rfl, rfl⟩

theorem touches_onRuntime {α : Type} {fault : FaultClass}
    {operation : PhysicalDeviceId → DeviceM α} (hkeeps : ∀ device, KeepsHandles (operation device)) :
    Moves Touches (onRuntime partition fault operation) := by
  intro b answer b' h
  rcases onRuntime_answer h with ⟨hsame, -⟩ | ⟨device, runtime, -, hruntime, hran⟩
  · exact .inl hsame
  · rcases hran with ⟨a, t, hrun, -, hb'⟩ | ⟨e, t, hrun, -, hb'⟩
    · exact .inr ⟨device, runtime, t, hruntime, (hkeeps device _).of_ok (.refl _) hrun, hb'⟩
    · exact .inr ⟨device, runtime, t, hruntime, (hkeeps device _).of_error (.refl _) hrun, hb'⟩

/-- A granted allocation registers a buffer and tracks it under the partition. -/
theorem alloc_answer {env : Environment} {lenBytes : UInt64} {answer : Except BackendError DeviceHandle}
    (h : alloc env partition lenBytes b = some (answer, b')) :
    (Touches b b' ∧ ∃ error, answer = .error error) ∨
      ∃ device runtime t handle, b.partitionDevices[partition]? = some device ∧
        b.set[device]? = some runtime ∧ Registers runtime handle t ∧
        handle.kind = .buffer lenBytes ∧ answer = .ok handle ∧
        b' = (b.withSession device t).track partition handle := by
  rcases bind_answer h with ⟨e, hrun, rfl⟩ | ⟨handle, u, hrun, hrest⟩
  · refine .inl ⟨?_, _, rfl⟩
    rcases onRuntime_answer hrun with ⟨hsame, -⟩ | ⟨device, runtime, -, hruntime, hran⟩
    · exact .inl hsame
    · rcases hran with ⟨_, _, -, hanswer, -⟩ | ⟨_, t, hfail, -, hb'⟩
      · cases hanswer
      · exact .inr ⟨device, runtime, t, hruntime,
          (allocBytes_ends _ _ _).of_error (.refl _) hfail, hb'⟩
  · cases hrest
    rcases onRuntime_answer hrun with ⟨-, _, hanswer⟩ | ⟨device, runtime, hdevice, hruntime, hran⟩
    · cases hanswer
    · rcases hran with ⟨_, t, hok, hanswer, hu⟩ | ⟨_, _, -, hanswer, -⟩
      · cases hanswer
        obtain ⟨hregisters, hkind⟩ := (allocBytes_ends _ _ _).of_ok (.refl _) hok
        exact .inr ⟨device, runtime, t, handle, hdevice, hruntime, hregisters, hkind, rfl,
          by rw [hu]⟩
      · cases hanswer

theorem ensureModule_answer {env : Environment} {answer : Except BackendError DeviceHandle}
    (h : ensureModule env partition b = some (answer, b')) :
    Touches b b' ∨ ∃ device runtime t handle, b.set[device]? = some runtime ∧
      b.modules[device]? = none ∧ Registers runtime handle t ∧
      b' = { b.withSession device t with modules := b.modules.insert device handle } := by
  unfold ensureModule at h
  rcases bind_answer h with ⟨e, hget, -⟩ | ⟨_, _, hget, hrest⟩
  · cases hget
  cases hget
  cases hdevice : b.partitionDevices[partition]? with
  | none =>
    rcases bind_answer hrest with ⟨e, hlift, -⟩ | ⟨device, _, hlift, -⟩
    · simp only [Call.lift, DeviceRuntimeBackend.deviceOf, hdevice, Option.map_some,
        Option.some.injEq] at hlift
      cases hlift
      exact .inl (.inl rfl)
    · simp [Call.lift, DeviceRuntimeBackend.deviceOf, hdevice] at hlift
  | some device =>
    rcases bind_answer hrest with ⟨e, hlift, -⟩ | ⟨bound, _, hlift, hload⟩
    · simp [Call.lift, DeviceRuntimeBackend.deviceOf, hdevice] at hlift
    simp only [Call.lift, DeviceRuntimeBackend.deviceOf, hdevice, Option.map_some,
      Option.some.injEq] at hlift
    cases hlift
    cases hmodule : b.modules[device]? with
    | some module =>
      simp only [hmodule] at hload
      cases hload
      exact .inl (.inl rfl)
    | none =>
      simp only [hmodule] at hload
      rcases bind_answer hload with ⟨e, hrun, -⟩ | ⟨handle, u, hrun, hcached⟩
      · refine .inl ?_
        rcases onRuntime_answer hrun with ⟨hsame, -⟩ | ⟨other, runtime, -, hruntime, hran⟩
        · exact .inl hsame
        · rcases hran with ⟨_, _, -, hanswer, -⟩ | ⟨_, t, hfail, -, hb'⟩
          · cases hanswer
          · exact .inr ⟨other, runtime, t, hruntime,
              (loadModule_ends _ _ _).of_error (.refl _) hfail, hb'⟩
      · cases hcached
        rcases onRuntime_answer hrun with ⟨-, _, hanswer⟩ | ⟨other, runtime, hother, hruntime, hran⟩
        · cases hanswer
        · obtain rfl : device = other := by simpa [hdevice] using hother
          rcases hran with ⟨_, t, hok, hanswer, hu⟩ | ⟨_, _, -, hanswer, -⟩
          · cases hanswer
            exact .inr ⟨device, runtime, t, handle, hruntime, hmodule,
              (loadModule_ends _ _ _).of_ok (.refl _) hok, by rw [hu]; rfl⟩
          · cases hanswer

end Calls

end FaberHosts.Macos
