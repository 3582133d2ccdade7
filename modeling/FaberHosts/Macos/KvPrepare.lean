import FaberHosts.Descriptor.Kv
import FaberHosts.Macos.Handles

/-!
# Preparing a KV session

`KvCacheBindingSession::prepare`: the module, one allocation an arena, the cursor, and an
allocation and a copy a weight.  What is released when a stage fails are the arenas and
the weights noted so far and the module; the cursor and the weight in flight are noted
nowhere.
-/

namespace FaberHosts.Macos
open FaberHosts.Lib FaberHosts.Coordinator FaberHosts.Descriptor FaberHosts.Session

/-! ## The stages -/

/-- The device and what `prepare` has noted of it. -/
structure Preparing where
  runtime : Device
  allocations : List (UInt32 × DeviceHandle)
  weightHandles : List (UInt32 × DeviceHandle)
  weightUploads : Nat

abbrev PrepareM := EStateM HostError Preparing

structure KvCacheBindingSession where
  kv : KvCacheDescriptor
  allocations : List (UInt32 × DeviceHandle)
  weights : List (UInt32 × DeviceHandle)
  cursor : DeviceHandle
  module : DeviceHandle
  cursorUploads : Nat
  weightUploads : Nat
  cacheCopies : Nat

/-- A declared weight and its `f32` values, by their bits. -/
abbrev Weight : Type := DescriptorAllocation × List UInt32

def expectWeightShape (weight : Weight) : Except HostError Unit :=
  let expected := weight.1.capacityBytes.toNat / weight.1.dtype.byteWidth
  if weight.2.length ≠ expected then
    .error (.shapeMismatch (s!"weight allocation {weight.1.bufferId} has {weight.2.length} f32 " ++
      s!"elements but its capacity holds {expected}"))
  else .ok ()

/-- `InvocationStateBuffer::BYTE_LENGTH`. -/
def invocationStateBytes : UInt64 := 16

section

variable (driver : Driver)

/-- A device operation, over the device being prepared. -/
def onDevice {α : Type} (operation : DeviceM α) : PrepareM α :=
  zoom (·.runtime) (fun runtime preparing => { preparing with runtime }) operation

def allocInvocationState : DeviceM DeviceHandle := allocBytes driver invocationStateBytes

def prepareArena (allocation : DescriptorAllocation) : PrepareM PUnit := do
  let handle ← onDevice (allocBytes driver allocation.capacityBytes)
  modify fun preparing =>
    { preparing with allocations := preparing.allocations ++ [(allocation.bufferId, handle)] }

def prepareWeight (weight : Weight) : PrepareM PUnit := do
  onDevice (Session.lift (expectWeightShape weight))
  let handle ← onDevice (allocBytes driver weight.1.capacityBytes)
  onDevice (copyInF32 driver .copyIn handle weight.2)
  modify fun preparing =>
    { preparing with
      weightHandles := preparing.weightHandles ++ [(weight.1.bufferId, handle)]
      weightUploads := preparing.weightUploads + 1 }

/-- The closure of `prepare`. -/
def prepareBuffers (kv : KvCacheDescriptor) (weights : List Weight) : PrepareM DeviceHandle := do
  kv.allocations.forM (prepareArena driver)
  let cursor ← onDevice (allocInvocationState driver)
  weights.forM (prepareWeight driver)
  return cursor

/-- The handles that a failed `prepare` releases, in this order. -/
def Preparing.noted (module : DeviceHandle) (preparing : Preparing) : List DeviceHandle :=
  preparing.allocations.map Prod.snd ++ preparing.weightHandles.map Prod.snd ++ [module]

/-- `KvCacheBindingSession::prepare`. -/
def prepare (kv : KvCacheDescriptor) (moduleImage : List UInt8) (weights : List Weight) :
    DeviceM KvCacheBindingSession := do
  Session.lift kv.validate
  let module ← loadModule driver moduleImage
  fun runtime =>
    match prepareBuffers driver kv weights ⟨runtime, [], [], 0⟩ with
    | .ok cursor preparing =>
      .ok {
        kv
        allocations := preparing.allocations
        weights := preparing.weightHandles
        cursor
        module
        cursorUploads := 0
        weightUploads := preparing.weightUploads
        cacheCopies := 0 } preparing.runtime
    | .error error preparing =>
      .error error (releasedAll driver (preparing.noted module) preparing.runtime)

/-! ## When it fails -/

/-- The plan is rejected, or the module, an arena or the cursor is refused. -/
def StorageRefused (kv : KvCacheDescriptor) (moduleImage : List UInt8) (device : Device) : Prop :=
  ¬ kv.Valid ∨ moduleImage = [] ∨ driver.fails device.calls .loadModule ≠ none ∨
    ∃ i ≤ kv.allocations.length, driver.fails (device.calls + 1 + i) .alloc ≠ none

/-- A weight has its shape, and the device takes it by the driver calls from `number` on. -/
structure WeightFits (backend : DeviceBackend) (number : Nat) (weight : Weight) : Prop where
  shape : expectWeightShape weight = .ok ()
  capacity : weight.1.capacityBytes ≠ 0
  alloc : driver.fails number .alloc = none
  admitted : ∃ bytes, admittedBytes backend weight.1.capacityBytes (weight.2.flatMap pushU32) .f32 =
    .ok bytes
  copy : driver.fails (number + 1) .copyIn = none

/-- Every weight fits; the driver calls of the weights follow those of the storage. -/
def WeightsFit (kv : KvCacheDescriptor) (weights : List Weight) (device : Device) : Prop :=
  ∀ i weight, weights[i]? = some weight →
    WeightFits driver device.backend (device.calls + 2 + kv.allocations.length + 2 * i) weight

end

/-! ## Who holds what -/

section

variable {driver : Driver} {device : Device} {module : DeviceHandle} {unnoted : List Nat}
  {preparing : Preparing} {number : Nat}

/-- The registry is that of `device` with the noted handles and the unnoted ones, all of
    them new. -/
structure Holds (device : Device) (module : DeviceHandle) (unnoted : List Nat)
    (preparing : Preparing) : Prop where
  backend : preparing.runtime.backend = device.backend
  noted : ∀ handle ∈ preparing.noted module, handle.backend = device.backend ∧
    device.nextId ≤ handle.id ∧ handle.id < preparing.runtime.nextId ∧ handle.id ∉ unnoted
  others : ∀ id ∈ unnoted, device.nextId ≤ id ∧ id < preparing.runtime.nextId
  le : device.nextId ≤ preparing.runtime.nextId
  mem : ∀ id, id ∈ preparing.runtime.handles ↔
    id ∈ device.handles ∨ (∃ handle ∈ preparing.noted module, handle.id = id) ∨ id ∈ unnoted

theorem Holds.same (h : Holds device module unnoted preparing) {t : Device}
    (ht : SameHandles preparing.runtime t) :
    Holds device module unnoted { preparing with runtime := t } := by
  refine ⟨ht.backend.trans h.backend, ?_, ?_, ?_, fun id => (ht.mem id).trans (h.mem id)⟩
  · intro handle hmem
    rw [show ({ preparing with runtime := t } : Preparing).runtime.nextId = _ from ht.nextId]
    exact h.noted handle hmem
  · intro id hid
    rw [show ({ preparing with runtime := t } : Preparing).runtime.nextId = _ from ht.nextId]
    exact h.others id hid
  · rw [show ({ preparing with runtime := t } : Preparing).runtime.nextId = _ from ht.nextId]
    exact h.le

theorem Holds.registers (h : Holds device module unnoted preparing) {t : Device}
    {handle : DeviceHandle} (ht : Registers preparing.runtime handle t) :
    Holds device module (unnoted ++ [handle.id]) { preparing with runtime := t } := by
  have hle := h.le
  have hid := ht.handleId
  have hnext := ht.nextId
  refine ⟨ht.backend.trans h.backend, ?_, ?_, ?_, ?_⟩
  · intro held hheld
    obtain ⟨hbackend, hnew, hlt, hother⟩ := h.noted held hheld
    refine ⟨hbackend, hnew, ?_, ?_⟩
    · show held.id < t.nextId
      omega
    · intro hmem
      rcases List.mem_append.mp hmem with hmem | hmem
      · exact hother hmem
      · have := List.mem_singleton.mp hmem
        omega
  · intro id hmem
    show device.nextId ≤ id ∧ id < t.nextId
    rcases List.mem_append.mp hmem with hmem | hmem
    · have := h.others id hmem
      omega
    · have := List.mem_singleton.mp hmem
      omega
  · show device.nextId ≤ t.nextId
    omega
  · intro id
    have hnoted : ({ preparing with runtime := t } : Preparing).noted module =
        preparing.noted module := rfl
    show id ∈ t.handles ↔ _
    rw [hnoted, ht.mem, h.mem, hid, List.mem_append, List.mem_singleton, or_comm, or_assoc,
      or_assoc]

theorem Holds.note {handle : DeviceHandle} {preparing' : Preparing}
    (h : Holds device module (unnoted ++ [handle.id]) preparing)
    (hbackend : handle.backend = device.backend) (hfresh : handle.id ∉ unnoted)
    (hruntime : preparing'.runtime = preparing.runtime)
    (hnoted : ∀ held, held ∈ preparing'.noted module ↔
      held ∈ preparing.noted module ∨ held = handle) :
    Holds device module unnoted preparing' := by
  obtain ⟨hnew, hlt⟩ := h.others handle.id (by simp)
  refine ⟨?_, ?_, ?_, ?_, ?_⟩
  · rw [hruntime]
    exact h.backend
  · intro held hheld
    rw [hruntime]
    rcases (hnoted held).mp hheld with hheld | rfl
    · obtain ⟨hb, hn, hl, hother⟩ := h.noted held hheld
      exact ⟨hb, hn, hl, fun hmem => hother (List.mem_append_left _ hmem)⟩
    · exact ⟨hbackend, hnew, hlt, hfresh⟩
  · intro id hmem
    rw [hruntime]
    exact h.others id (List.mem_append_left _ hmem)
  · rw [hruntime]
    exact h.le
  · intro id
    rw [hruntime, h.mem, List.mem_append, List.mem_singleton]
    constructor
    · rintro (hdevice | ⟨held, hheld, hid⟩ | hmem | hid)
      · exact Or.inl hdevice
      · exact Or.inr (Or.inl ⟨held, (hnoted held).mpr (Or.inl hheld), hid⟩)
      · exact Or.inr (Or.inr hmem)
      · exact Or.inr (Or.inl ⟨handle, (hnoted handle).mpr (Or.inr rfl), hid.symm⟩)
    · rintro (hdevice | ⟨held, hheld, hid⟩ | hmem)
      · exact Or.inl hdevice
      · rcases (hnoted held).mp hheld with hheld | rfl
        · exact Or.inr (Or.inl ⟨held, hheld, hid⟩)
        · exact Or.inr (Or.inr (Or.inr hid.symm))
      · exact Or.inr (Or.inr (Or.inl hmem))

/-- Releasing what is noted leaves what the device had and what is noted nowhere. -/
theorem Holds.released (h : Holds device module unnoted preparing)
    (hbelow : ∀ id ∈ device.handles, id < device.nextId) (driver : Driver) (id : Nat) :
    id ∈ (releasedAll driver (preparing.noted module) preparing.runtime).handles ↔
      id ∈ device.handles ∨ id ∈ unnoted := by
  have hreleased := releasedAll_released driver
    (show ∀ handle ∈ preparing.noted module, handle.backend = preparing.runtime.backend from
      fun handle hmem => (h.noted handle hmem).1.trans h.backend.symm)
  rw [hreleased.mem, h.mem]
  constructor
  · rintro ⟨hdevice | ⟨handle, hmem, hid⟩ | hmem, hfree⟩
    · exact Or.inl hdevice
    · exact absurd hid (hfree handle hmem)
    · exact Or.inr hmem
  · rintro (hdevice | hmem)
    · refine ⟨Or.inl hdevice, fun handle hheld hid => ?_⟩
      have := hbelow id hdevice
      have := (h.noted handle hheld).2.1
      omega
    · exact ⟨Or.inr (Or.inr hmem), fun handle hheld hid => (h.noted handle hheld).2.2.2 (hid ▸ hmem)⟩

/-! ## One operation -/

/-- An allocation is one driver call; a granted one registers a buffer. -/
theorem allocBytes_run (driver : Driver) {lenBytes : UInt64} (hlen : lenBytes ≠ 0) (s : Device) :
    allocBytes driver lenBytes s =
      match driver.fails s.calls .alloc with
      | some error => .error error { s with calls := s.calls + 1 }
      | none => .ok ⟨s.backend, .buffer lenBytes, s.nextId⟩
        { s with
          handles := s.handles.insert s.nextId
            ⟨.buffer lenBytes, (List.range lenBytes.toNat).map (driver.fresh s.calls)⟩
          nextId := s.nextId + 1
          calls := s.calls + 1 } := by
  have hbody : allocBytes driver lenBytes s =
      (do
        let number ← call driver .alloc
        register (.buffer lenBytes) ((List.range lenBytes.toNat).map (driver.fresh number))) s := by
    show (if lenBytes = 0 then _ else _ : DeviceM DeviceHandle) s = _
    rw [if_neg hlen]
  rw [hbody]
  show EStateM.bind _ _ s = _
  unfold EStateM.bind call register
  cases driver.fails s.calls .alloc <;> rfl

theorem sameHandles_calls (s : Device) (calls : Nat) : SameHandles s { s with calls } :=
  ⟨rfl, rfl, fun _ => Iff.rfl⟩

/-- A buffer that the session registered and that no list notes yet. -/
structure InFlight (device : Device) (module : DeviceHandle) (unnoted : List Nat) (number : Nat)
    (lenBytes : UInt64) (handle : DeviceHandle) (preparing : Preparing) : Prop where
  holds : Holds device module (unnoted ++ [handle.id]) preparing
  calls : preparing.runtime.calls = number
  backend : handle.backend = device.backend
  fresh : handle.id ∉ unnoted
  registered : ∃ bytes, preparing.runtime.handles[handle.id]? = some ⟨.buffer lenBytes, bytes⟩

theorem alloc_ends (number : Nat) {lenBytes : UInt64} (hlen : lenBytes ≠ 0) :
    Ends (fun preparing => Holds device module unnoted preparing ∧
        preparing.runtime.calls = number)
      (onDevice (allocBytes driver lenBytes))
      (fun handle preparing =>
        InFlight device module unnoted (number + 1) lenBytes handle preparing ∧
          driver.fails number .alloc = none)
      (fun _ preparing => Holds device module unnoted preparing ∧
        driver.fails number .alloc ≠ none) := by
  intro preparing hpre
  obtain ⟨hholds, hcalls⟩ := hpre
  subst hcalls
  unfold onDevice zoom
  rw [allocBytes_run driver hlen]
  cases hfails : driver.fails preparing.runtime.calls .alloc with
  | some error => exact ⟨hholds.same (sameHandles_calls _ _), nofun⟩
  | none =>
    have hregisters := registers_register
      (sameHandles_calls preparing.runtime (preparing.runtime.calls + 1)) (.buffer lenBytes)
      ((List.range lenBytes.toNat).map (driver.fresh preparing.runtime.calls))
    refine ⟨⟨hholds.registers hregisters, rfl, hholds.backend, ?_,
      ⟨(List.range lenBytes.toNat).map (driver.fresh preparing.runtime.calls), ?_⟩⟩, rfl⟩
    · intro hmem
      exact absurd (hholds.others _ hmem).2 (Nat.lt_irrefl _)
    · exact Std.ExtTreeMap.getElem?_insert_self

/-- A copy into a live buffer is one driver call, made when the bytes fit. -/
theorem copyInBytes_run (driver : Driver) {handle : DeviceHandle} {lenBytes : UInt64}
    {held : List UInt8} {s : Device} (hbackend : handle.backend = s.backend)
    (hfound : s.handles[handle.id]? = some ⟨.buffer lenBytes, held⟩) (stage : Stage)
    (bytes : List UInt8) (dtype : DeviceDataType) :
    copyInBytes driver stage handle bytes dtype s =
      match admittedBytes s.backend lenBytes bytes dtype with
      | .error error => .error error s
      | .ok admitted =>
        match driver.fails s.calls stage with
        | some error => .error error { s with calls := s.calls + 1 }
        | none => .ok ⟨⟩ ({ s with calls := s.calls + 1 }.write handle.id admitted) := by
  have htoken : bufferToken handle s = .ok (lenBytes, held) s := by
    unfold bufferToken resolve
    show EStateM.bind _ _ s = _
    simp only [EStateM.bind, get, getThe, MonadStateOf.get, EStateM.get, Bind.bind, hbackend, ne_eq,
      not_true_eq_false, if_false, hfound]
    rfl
  unfold copyInBytes
  show EStateM.bind _ _ s = _
  simp only [EStateM.bind, get, getThe, MonadStateOf.get, EStateM.get, Bind.bind, htoken]
  cases admittedBytes s.backend lenBytes bytes dtype with
  | error error => rfl
  | ok admitted =>
    simp only [Session.lift, pure, EStateM.pure, call]
    cases driver.fails s.calls stage <;> rfl

theorem copyIn_ends {lenBytes : UInt64} {handle : DeviceHandle} (values : List UInt32) :
    Ends (InFlight device module unnoted number lenBytes handle)
      (onDevice (copyInF32 driver .copyIn handle values))
      (fun _ preparing => InFlight device module unnoted (number + 1) lenBytes handle preparing ∧
        (∃ bytes, admittedBytes device.backend lenBytes (values.flatMap pushU32) .f32 = .ok bytes) ∧
          driver.fails number .copyIn = none)
      (fun _ preparing => Holds device module (unnoted ++ [handle.id]) preparing ∧
        ¬ ((∃ bytes, admittedBytes device.backend lenBytes (values.flatMap pushU32) .f32 =
          .ok bytes) ∧ driver.fails number .copyIn = none)) := by
  intro preparing hpre
  obtain ⟨hholds, hcalls, hbackend, hfresh, held, hfound⟩ := hpre
  subst hcalls
  unfold onDevice zoom copyInF32
  rw [copyInBytes_run driver (hbackend.trans hholds.backend.symm) hfound, ← hholds.backend]
  cases hadmitted : admittedBytes preparing.runtime.backend lenBytes (values.flatMap pushU32) .f32 with
  | error error => exact ⟨hholds, nofun⟩
  | ok admitted =>
    cases hfails : driver.fails preparing.runtime.calls .copyIn with
    | some error => exact ⟨hholds.same (sameHandles_calls _ _), nofun⟩
    | none =>
      have hsame : SameHandles preparing.runtime
          ({ preparing.runtime with calls := preparing.runtime.calls + 1 }.write handle.id
            admitted) :=
        (sameHandles_calls preparing.runtime _).trans (sameHandles_write _ _ _)
      refine ⟨⟨hholds.same hsame, rfl, hbackend, hfresh, admitted, ?_⟩, ⟨admitted, rfl⟩, rfl⟩
      show (preparing.runtime.handles.modify handle.id _)[handle.id]? = _
      rw [Std.ExtTreeMap.getElem?_modify_self, hfound]
      rfl

/-! ## The stages -/

theorem prepareArena_ends (number : Nat) {allocation : DescriptorAllocation}
    (hcapacity : allocation.capacityBytes ≠ 0) :
    Ends (fun preparing => Holds device module unnoted preparing ∧
        preparing.runtime.calls = number)
      (prepareArena driver allocation)
      (fun _ preparing => (Holds device module unnoted preparing ∧
        preparing.runtime.calls = number + 1) ∧ driver.fails number .alloc = none)
      (fun _ preparing => Holds device module unnoted preparing ∧
        driver.fails number .alloc ≠ none) := by
  refine Ends.bind (alloc_ends _ hcapacity) fun handle => Ends.modify ?_
  intro preparing hpre
  obtain ⟨⟨hholds, hcalls, hbackend, hfresh, -⟩, hfails⟩ := hpre
  refine ⟨⟨hholds.note hbackend hfresh rfl ?_, hcalls⟩, hfails⟩
  intro held
  simp only [Preparing.noted, List.map_append, List.map_cons, List.map_nil, List.mem_append,
    List.mem_singleton]
  tauto

/-- A weight that fits is noted; of one that does not, what was allocated is noted nowhere. -/
theorem prepareWeight_ends (weight : Weight) :
    Ends (fun preparing => Holds device module unnoted preparing ∧
        preparing.runtime.calls = number)
      (prepareWeight driver weight)
      (fun _ preparing => (Holds device module unnoted preparing ∧
        preparing.runtime.calls = number + 2) ∧
          WeightFits driver device.backend number weight)
      (fun _ preparing => (∃ more, Holds device module (unnoted ++ more) preparing) ∧
        ¬ WeightFits driver device.backend number weight) := by
  have hnone : ∀ preparing, Holds device module unnoted preparing →
      ∃ more, Holds device module (unnoted ++ more) preparing := by
    intro preparing h
    exact ⟨[], by rwa [List.append_nil]⟩
  unfold prepareWeight
  cases hshape : expectWeightShape weight with
  | error error =>
    intro preparing hpre
    refine ⟨hnone _ hpre.1, fun hfits => ?_⟩
    rw [hfits.shape] at hshape
    cases hshape
  | ok _ =>
    refine Ends.bind (Q := fun _ preparing => Holds device module unnoted preparing ∧
      preparing.runtime.calls = number) (fun _ hpre => hpre) fun _ => ?_
    by_cases hcapacity : weight.1.capacityBytes = 0
    · intro preparing hpre
      rw [hcapacity]
      exact ⟨hnone _ hpre.1, fun hfits => hfits.capacity hcapacity⟩
    · refine Ends.bind ((alloc_ends _ hcapacity).weaken (fun _ h => h) (fun _ _ h => h) ?_)
        fun handle => ?_
      · intro _ preparing hfailed
        exact ⟨hnone _ hfailed.1, fun hfits => hfailed.2 hfits.alloc⟩
      · by_cases halloc : driver.fails number .alloc = none
        · refine Ends.bind ((copyIn_ends weight.2).weaken (fun _ h => h.1) (fun _ _ h => h) ?_)
            fun _ => Ends.modify ?_
          · intro _ preparing hfailed
            exact ⟨⟨[handle.id], hfailed.1⟩, fun hfits => hfailed.2 ⟨hfits.admitted, hfits.copy⟩⟩
          · intro preparing hpre
            obtain ⟨⟨hholds, hcalls, hbackend, hfresh, -⟩, hadmitted, hcopy⟩ := hpre
            refine ⟨⟨hholds.note hbackend hfresh rfl ?_, hcalls⟩,
              ⟨hshape, hcapacity, halloc, hadmitted, hcopy⟩⟩
            intro held
            simp only [Preparing.noted, List.map_append, List.map_cons, List.map_nil,
              List.mem_append, List.mem_singleton]
            tauto
        · exact fun preparing hpre => absurd hpre.2 halloc

/-- The calls for the arenas and the cursor, `number` of which are made before them. -/
def ArenaRefused (driver : Driver) (kv : KvCacheDescriptor) (number : Nat) : Prop :=
  ∃ i ≤ kv.allocations.length, driver.fails (number + i) .alloc ≠ none

/-- A failure before the cursor is there leaves nothing that is not noted; a later one
    leaves at least the cursor. -/
theorem prepareBuffers_ends (driver : Driver) (number : Nat) {kv : KvCacheDescriptor} (hkv : kv.Valid)
    (weights : List Weight) :
    Ends (fun preparing => Holds device module [] preparing ∧ preparing.runtime.calls = number)
      (prepareBuffers driver kv weights)
      (fun _ _ => ∀ i weight, weights[i]? = some weight →
        WeightFits driver device.backend (number + 1 + kv.allocations.length + 2 * i) weight)
      (fun _ preparing =>
        (Holds device module [] preparing ∧ ArenaRefused driver kv number) ∨
          ((∃ id more, Holds device module (id :: more) preparing) ∧
            ¬ ArenaRefused driver kv number ∧
            ¬ ∀ i weight, weights[i]? = some weight →
              WeightFits driver device.backend (number + 1 + kv.allocations.length + 2 * i)
                weight)) := by
  have hcapacity : ∀ allocation ∈ kv.allocations, allocation.capacityBytes ≠ 0 :=
    fun allocation hmem => (((KvCacheDescriptor.valid_iff kv).mp hkv).identities allocation hmem).2
  -- before arena `i`: `i` calls were made and none was refused
  have harenas : Ends (fun preparing => Holds device module [] preparing ∧
        preparing.runtime.calls = number)
      (kv.allocations.forM (prepareArena driver))
      (fun _ preparing => (Holds device module [] preparing ∧
        preparing.runtime.calls = number + kv.allocations.length) ∧
          ∀ i < kv.allocations.length, driver.fails (number + i) .alloc = none)
      (fun _ preparing => Holds device module [] preparing ∧ ArenaRefused driver kv number) := by
    refine Ends.weaken (Ends.forM_indexed
      (I := fun n preparing => (Holds device module [] preparing ∧
        preparing.runtime.calls = number + n) ∧ ∀ i < n, driver.fails (number + i) .alloc = none)
      (F := fun n _ preparing => Holds device module [] preparing ∧
        driver.fails (number + n) .alloc ≠ none) ?_) ?_ (fun _ _ h => h) ?_
    · intro n allocation hfound
      by_cases hbefore : ∀ i < n, driver.fails (number + i) .alloc = none
      · refine (prepareArena_ends (number + n)
          (hcapacity allocation (List.mem_of_getElem? hfound))).weaken (fun _ h => h.1) ?_
          (fun _ _ h => h)
        intro _ preparing hdone
        refine ⟨hdone.1, fun i hi => ?_⟩
        rcases Nat.lt_succ_iff_lt_or_eq.mp hi with hi | rfl
        · exact hbefore i hi
        · exact hdone.2
      · exact fun preparing hpre => absurd hpre.2 hbefore
    · exact fun preparing hpre => ⟨hpre, fun i hi => absurd hi (Nat.not_lt_zero i)⟩
    · intro _ preparing hfailed
      obtain ⟨i, hi, hholds, hrefused⟩ := hfailed
      exact ⟨hholds, i, Nat.le_of_lt hi, hrefused⟩
  refine Ends.bind (harenas.weaken (fun _ h => h) (fun _ _ h => h) fun _ _ h => Or.inl h)
    fun _ => ?_
  by_cases hgranted : ∀ i < kv.allocations.length, driver.fails (number + i) .alloc = none
  swap
  · exact fun preparing hpre => absurd hpre.2 hgranted
  refine Ends.bind (Q := fun cursor preparing =>
      (Holds device module [cursor.id] preparing ∧
        preparing.runtime.calls = number + kv.allocations.length + 1) ∧
      ¬ ArenaRefused driver kv number)
    ((alloc_ends (number + kv.allocations.length) (by decide)).weaken
      (fun _ h => h.1) ?_ ?_) fun cursor => ?_
  · intro cursor preparing hdone
    refine ⟨⟨hdone.1.holds, hdone.1.calls⟩, fun hrefused => ?_⟩
    obtain ⟨i, hi, hrefused⟩ := hrefused
    rcases Nat.lt_or_eq_of_le hi with hi | rfl
    · exact hrefused (hgranted i hi)
    · exact hrefused hdone.2
  · intro _ preparing hfailed
    exact Or.inl ⟨hfailed.1, kv.allocations.length, Nat.le_refl _, hfailed.2⟩
  by_cases hstorage : ArenaRefused driver kv number
  · exact fun preparing hpre => absurd hstorage hpre.2
  -- before weight `i`: two calls were made for each weight before it, and all of those fit
  have hweights := Ends.forM_indexed (l := weights) (g := prepareWeight driver)
    (I := fun n preparing => (Holds device module [cursor.id] preparing ∧
      preparing.runtime.calls = number + 1 + kv.allocations.length + 2 * n) ∧
        ∀ i < n, ∀ weight, weights[i]? = some weight →
          WeightFits driver device.backend (number + 1 + kv.allocations.length + 2 * i) weight)
    (F := fun n _ preparing => (∃ more, Holds device module ([cursor.id] ++ more) preparing) ∧
      ∃ weight, weights[n]? = some weight ∧
        ¬ WeightFits driver device.backend (number + 1 + kv.allocations.length + 2 * n) weight)
    (by
      intro n weight hfound
      by_cases hbefore : ∀ i < n, ∀ weight, weights[i]? = some weight →
          WeightFits driver device.backend (number + 1 + kv.allocations.length + 2 * i) weight
      · refine (prepareWeight_ends weight).weaken (fun _ h => h.1) ?_ ?_
        · intro _ preparing hdone
          refine ⟨hdone.1, fun i hi other hother => ?_⟩
          rcases Nat.lt_succ_iff_lt_or_eq.mp hi with hi | rfl
          · exact hbefore i hi other hother
          · obtain rfl : weight = other := Option.some.inj (hfound.symm.trans hother)
            exact hdone.2
        · exact fun _ preparing hfailed => ⟨hfailed.1, weight, hfound, hfailed.2⟩
      · exact fun preparing hpre => absurd hpre.2 hbefore)
  refine Ends.bind (hweights.weaken ?_ (fun _ _ h => h) ?_) fun _ => Ends.pure ?_
  · intro preparing hpre
    refine ⟨⟨hpre.1.1, by have := hpre.1.2; omega⟩, fun i hi => absurd hi (Nat.not_lt_zero i)⟩
  · intro _ preparing hfailed
    obtain ⟨i, -, ⟨more, hholds⟩, weight, hfound, hmisfit⟩ := hfailed
    exact Or.inr ⟨⟨cursor.id, more, hholds⟩, hstorage, fun hall => hmisfit (hall i weight hfound)⟩
  · intro preparing hdone i weight hfound
    exact hdone.2 i (List.getElem?_eq_some_iff.mp hfound).1 weight hfound

end

/-! ## The whole of `prepare` -/

section

variable {driver : Driver} {device : Device} {kv : KvCacheDescriptor} {moduleImage : List UInt8}
  {weights : List Weight}

theorem loadModule_run (himage : moduleImage ≠ []) :
    loadModule driver moduleImage device =
      match driver.fails device.calls .loadModule with
      | some error => .error error { device with calls := device.calls + 1 }
      | none => .ok ⟨device.backend, .module, device.nextId⟩
        { device with
          handles := device.handles.insert device.nextId ⟨.module, []⟩
          nextId := device.nextId + 1
          calls := device.calls + 1 } := by
  have hbody : loadModule driver moduleImage device =
      (do
        let _ ← call driver .loadModule
        register .module []) device := by
    show (if moduleImage = [] then _ else _ : DeviceM DeviceHandle) device = _
    rw [if_neg himage]
  rw [hbody]
  show EStateM.bind _ _ device = _
  unfold EStateM.bind call register
  cases driver.fails device.calls .loadModule <;> rfl

theorem holds_start {module : DeviceHandle} {t : Device} (h : Registers device module t) :
    Holds device module [] ⟨t, [], [], 0⟩ := by
  have hid := h.handleId
  have hnext := h.nextId
  refine ⟨h.backend, ?_, by simp, ?_, ?_⟩
  · intro handle hmem
    obtain rfl : handle = module := by simpa [Preparing.noted] using hmem
    refine ⟨h.handleBackend, ?_, ?_, List.not_mem_nil⟩
    · omega
    · show handle.id < t.nextId
      omega
  · show device.nextId ≤ t.nextId
    omega
  · intro id
    show id ∈ t.handles ↔ _
    rw [h.mem, ← hid]
    simp only [Preparing.noted, List.map_nil, List.nil_append, List.mem_singleton, exists_eq_left,
      List.not_mem_nil, or_false]
    rw [or_comm, @eq_comm _ id]

theorem storageRefused_iff (hvalid : kv.Valid) (himage : moduleImage ≠ [])
    (hload : driver.fails device.calls .loadModule = none) :
    StorageRefused driver kv moduleImage device ↔ ArenaRefused driver kv (device.calls + 1) := by
  simp [StorageRefused, ArenaRefused, hvalid, himage, hload]

/-- A `prepare` that failed on the storage leaves the handles the device had; one that
    failed on the weights leaves another. -/
theorem prepare_cases (driver : Driver) (kv : KvCacheDescriptor) (moduleImage : List UInt8)
    (weights : List Weight) (hbelow : ∀ id ∈ device.handles, id < device.nextId) :
    match prepare driver kv moduleImage weights device with
    | .ok _ _ => WeightsFit driver kv weights device
    | .error _ device' =>
      (StorageRefused driver kv moduleImage device ∧
        ∀ id, id ∈ device'.handles ↔ id ∈ device.handles) ∨
      ((¬ StorageRefused driver kv moduleImage device ∧ ¬ WeightsFit driver kv weights device) ∧
        ∃ id ∈ device'.handles, id ∉ device.handles) := by
  unfold prepare
  cases hvalid : kv.validate with
  | error error =>
    refine Or.inl ⟨Or.inl fun hkv => ?_, fun _ => Iff.rfl⟩
    rw [KvCacheDescriptor.Valid, hvalid] at hkv
    cases hkv
  | ok _ =>
    by_cases himage : moduleImage = []
    · rw [himage]
      exact Or.inl ⟨Or.inr (Or.inl rfl), fun _ => Iff.rfl⟩
    · simp only [Session.lift, pure, Bind.bind, EStateM.bind, EStateM.pure,
        loadModule_run himage]
      cases hload : driver.fails device.calls .loadModule with
      | some error =>
        refine Or.inl ⟨Or.inr (Or.inr (Or.inl ?_)), fun _ => Iff.rfl⟩
        rw [hload]
        exact nofun
      | none =>
        have hregisters := registers_register (sameHandles_calls device (device.calls + 1)) .module []
        have hends := prepareBuffers_ends driver (device.calls + 1) hvalid weights _
          ⟨holds_start hregisters, rfl⟩
        have hnumber : device.calls + 1 + 1 = device.calls + 2 := rfl
        rw [hnumber] at hends
        rw [storageRefused_iff hvalid himage hload]
        split at hends
        · rename_i hrun
          simp only [hrun]
          exact hends
        · rename_i hrun
          simp only [hrun]
          rcases hends with ⟨hholds, hrefused⟩ | ⟨⟨id, more, hholds⟩, hgranted, hmisfit⟩
          · refine Or.inl ⟨hrefused, fun id => ?_⟩
            rw [hholds.released hbelow]
            simp
          · refine Or.inr ⟨⟨hgranted, hmisfit⟩, id, ?_, fun hmem => ?_⟩
            · rw [hholds.released hbelow]
              simp
            · have := hbelow id hmem
              have := (hholds.others id (by simp)).1
              omega

end

namespace OneWeight

/-- One arena of 64 bytes. -/
def kv : KvCacheDescriptor where
  allocations := [⟨1, .f32, 64, .perProgram, .zeroFill⟩]
  views := []
  invocationState := ⟨0, 0, 0, 0⟩
  launchBindings := []

/-- A weight of two values. -/
def weight : Weight := (⟨2, .f32, 8, .perProgram, .hostProvided⟩, [0, 0])

def device : Device := ⟨.metal, ∅, 0, 0⟩

/-- A driver that refuses one call. -/
def refusing (number : Nat) : Driver where
  fails call _ := if call = number then some (.internal "refused") else none
  fresh _ _ := 0
  effect _ _ _ _ _ _ _ := 0

end OneWeight

end FaberHosts.Macos
