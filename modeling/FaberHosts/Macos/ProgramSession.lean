import FaberHosts.Descriptor.Graph
import FaberHosts.Macos.Handles
import FaberHosts.Policy.Evaluate

/-!
# Program sessions

`ProgramSession`: what a session keeps of its descriptor, and the device handles it holds.
Program buffers are held from the creation on, the buffers of a step from its start to its
end; in between a resident session keeps the latter in a pool.  No two keys share a handle,
except versions of one buffer that a sibling program shares.
-/

namespace FaberHosts.Macos
open FaberHosts.Lib FaberHosts.Coordinator FaberHosts.Descriptor FaberHosts.Session

/-! ## The plan of a session -/

structure SessionBufferMeta where
  name : String
  semanticValue : UInt32
  role : DeviceBufferRole
  elementTy : DeviceDataType
  elementCount : UInt64
  byteLength : UInt64
  lifetime : DeviceBufferLifetime
  initialization : DeviceBufferInitialization
  deriving DecidableEq, Repr

structure SessionSlot where
  bufferId : UInt32
  version : UInt32
  bufferName : String
  role : DeviceBufferRole
  binding : UInt32
  elementTy : DeviceDataType
  elementCount : UInt64
  deriving DecidableEq, Repr

def SessionSlot.key (slot : SessionSlot) : BufferKey := (slot.bufferId, slot.version)

structure SessionKernel where
  entry : String
  slots : List SessionSlot
  grid : Axes
  block : Axes
  deriving DecidableEq, Repr

structure SessionLaunch where
  id : UInt32
  kernelIndex : Nat
  deriving DecidableEq, Repr

/-- The state of one program: its plan, the handles of its live buffers and the pool. -/
structure ProgramInner where
  moduleHandle : DeviceHandle
  buffers : BTreeMap BufferKey DeviceHandle
  intermediatePool : BTreeMap BufferKey DeviceHandle
  bufferMeta : BTreeMap BufferKey SessionBufferMeta
  kernels : List SessionKernel
  launches : List SessionLaunch
  sharedKeys : BTreeSet BufferKey
  sharedModule : Bool

structure SharedBufferOffer where
  handle : DeviceHandle
  byteLength : UInt64
  role : DeviceBufferRole
  lifetime : DeviceBufferLifetime
  initialization : DeviceBufferInitialization
  elementTy : DeviceDataType
  elementCount : UInt64

/-- What a prepared sibling offers, by semantic value. -/
structure SharedProgramOffer where
  moduleHash : UInt64
  moduleHandle : DeviceHandle
  buffers : BTreeMap UInt32 SharedBufferOffer

def metaOf (slot : DescriptorBuffer) (byteLength : UInt64) : SessionBufferMeta where
  name := slot.bufferName
  semanticValue := slot.semanticValue
  role := slot.role
  elementTy := slot.elementTy
  elementCount := slot.elementCount
  byteLength
  lifetime := slot.lifetime
  initialization := slot.initialization

def slotOf (slot : DescriptorBuffer) : SessionSlot where
  bufferId := slot.bufferId
  version := slot.version
  bufferName := slot.bufferName
  role := slot.role
  binding := slot.binding
  elementTy := slot.elementTy
  elementCount := slot.elementCount

/-! ## Creation -/

/-- What the loop of `new_with_share` has built. -/
structure Creating where
  runtime : Device
  buffers : BTreeMap BufferKey DeviceHandle
  bufferMeta : BTreeMap BufferKey SessionBufferMeta
  sharedKeys : BTreeSet BufferKey
  ownedHandles : List DeviceHandle

section Creation

variable (driver : Driver)

def zeroFillBuffer (handle : DeviceHandle) (byteLength : UInt64) : DeviceM Unit :=
  copyInF32 driver .zeroFill handle (List.replicate (byteLength.toNat / 4) 0)

def SharedBufferOffer.fits (shared : SharedBufferOffer) (slot : DescriptorBuffer)
    (byteLength : UInt64) : Bool :=
  shared.byteLength = byteLength ∧ shared.role = slot.role ∧ shared.lifetime = slot.lifetime ∧
    shared.initialization = slot.initialization ∧ shared.elementTy = slot.elementTy ∧
    shared.elementCount = slot.elementCount

def inCreation {α : Type} (operation : DeviceM α) : EStateM HostError Creating α :=
  zoom (·.runtime) (fun runtime creating => { creating with runtime }) operation

/-- The storage of a program buffer: the sibling's, or a new allocation. -/
def holdProgramBuffer (share : Option SharedProgramOffer) (slot : DescriptorBuffer)
    (byteLength : UInt64) : EStateM HostError Creating PUnit :=
  match share.bind (·.buffers[slot.semanticValue]?) with
  | some shared =>
    if shared.fits slot byteLength then
      modify fun creating =>
        { creating with
          buffers := creating.buffers.insert slot.key shared.handle
          sharedKeys := creating.sharedKeys.insert slot.key }
    else
      throw (.descriptor (s!"paired program semantic value {slot.semanticValue} has " ++
        "incompatible PerProgram storage"))
  | none => do
    let handle ← inCreation (allocBytes driver byteLength)
    if slot.initialization = .zeroFill then inCreation (zeroFillBuffer driver handle byteLength)
    modify fun creating =>
      { creating with
        buffers := creating.buffers.insert slot.key handle
        ownedHandles := creating.ownedHandles ++ [handle] }

def createSlot (share : Option SharedProgramOffer) (slot : DescriptorBuffer) :
    EStateM HostError Creating SessionSlot :=
  match slot.byteLength with
  | none =>
    throw (.shapeMismatch (s!"device buffer `{slot.bufferName}` (id {slot.bufferId}) has an " ++
      "overflowing byte length"))
  | some byteLength => do
    modify fun creating =>
      { creating with
        bufferMeta := creating.bufferMeta.insertIfNew slot.key (metaOf slot byteLength) }
    let creating ← get
    if slot.key ∉ creating.buffers ∧ slot.lifetime = .perProgram then
      holdProgramBuffer driver share slot byteLength
    return slotOf slot

def createKernel (share : Option SharedProgramOffer) (kernel : DescriptorKernel) :
    EStateM HostError Creating SessionKernel := do
  let slots ← kernel.buffers.mapM (createSlot driver share)
  return { entry := kernel.entry, slots, grid := kernel.grid, block := kernel.block }

/-- A sibling whose module is this one. -/
def sameModule (d : DeviceDescriptor) (share : Option SharedProgramOffer) :
    Option SharedProgramOffer :=
  share.filter (·.moduleHash = Policy.fnv1a64 d.moduleImage)

def holdModule (d : DeviceDescriptor) (share : Option SharedProgramOffer) :
    DeviceM DeviceHandle :=
  match sameModule d share with
  | some sibling => pure sibling.moduleHandle
  | none => loadModule driver d.moduleImage

/-- `new_with_share`, of a descriptor that was validated. -/
def newWithShare (d : DeviceDescriptor) (share : Option SharedProgramOffer) :
    DeviceM ProgramInner := do
  let moduleHandle ← holdModule driver d share
  fun runtime =>
    match d.kernels.mapM (createKernel driver share) ⟨runtime, ∅, ∅, ∅, []⟩ with
    | .ok kernels created =>
      .ok {
        moduleHandle
        buffers := created.buffers
        intermediatePool := ∅
        bufferMeta := created.bufferMeta
        kernels
        launches := d.launches.map fun launch => ⟨launch.id, launch.kernelIndex.toNat⟩
        sharedKeys := created.sharedKeys
        sharedModule := (sameModule d share).isSome } created.runtime
    | .error error created =>
      .error error (releasedAll driver
        (created.ownedHandles ++ if (sameModule d share).isSome then [] else [moduleHandle])
        created.runtime)

end Creation

/-! ## The buffers of a step -/

/-- A program over the device it runs on. -/
structure Hosted where
  runtime : Device
  inner : ProgramInner

section Steps

variable (driver : Driver)

def onHost {α : Type} (operation : DeviceM α) : EStateM HostError Hosted α :=
  zoom (·.runtime) (fun runtime hosted => { hosted with runtime }) operation

/-- A handle for a step buffer: the pooled one, or a new allocation. -/
def checkoutHandle (useIntermediatePool : Bool) (key : BufferKey) (sessionMeta : SessionBufferMeta) :
    EStateM HostError Hosted DeviceHandle := do
  let hosted ← get
  match useIntermediatePool, hosted.inner.intermediatePool[key]? with
  | true, some handle =>
    modify fun hosted =>
      { hosted with
        inner := { hosted.inner with
          intermediatePool := hosted.inner.intermediatePool.erase key } }
    return handle
  | _, _ => onHost (allocBytes driver sessionMeta.byteLength)

def checkoutBuffer (useIntermediatePool : Bool) (entry : BufferKey × SessionBufferMeta) :
    EStateM HostError Hosted PUnit := do
  let handle ← checkoutHandle driver useIntermediatePool entry.1 entry.2
  if entry.2.initialization = .zeroFill then
    onHost (zeroFillBuffer driver handle entry.2.byteLength)
  modify fun hosted =>
    { hosted with
      inner := { hosted.inner with buffers := hosted.inner.buffers.insert entry.1 handle } }

/-- `allocate_step_buffers`. -/
def allocateStepBuffers (useIntermediatePool : Bool) : EStateM HostError Hosted PUnit := do
  let hosted ← get
  let toCheckout := hosted.inner.bufferMeta.toList.filter fun entry =>
    entry.2.lifetime ≠ .perProgram ∧ entry.1 ∉ hosted.inner.buffers
  toCheckout.forM (checkoutBuffer driver useIntermediatePool)

end Steps

/-- `return_buffer_to_pool`. -/
def returnBufferToPool (inner : ProgramInner) (key : BufferKey) : ProgramInner :=
  match inner.buffers[key]? with
  | none => inner
  | some handle =>
    { inner with
      buffers := inner.buffers.erase key
      intermediatePool := inner.intermediatePool.insert key handle }

/-- What `release_buffer` leaves of the program. -/
def forgetBuffer (inner : ProgramInner) (key : BufferKey) : ProgramInner :=
  { inner with buffers := inner.buffers.erase key }

/-! ## The plan is the descriptor's -/

/-- The metadata of the first slot of each key. -/
def sessionMeta (slots : List DescriptorBuffer) : BTreeMap BufferKey SessionBufferMeta :=
  slots.foldl (fun entries slot =>
    entries.insertIfNew slot.key (metaOf slot (slot.byteLength.getD 0))) ∅

theorem sessionMeta_concat (slots : List DescriptorBuffer) (slot : DescriptorBuffer) :
    sessionMeta (slots ++ [slot]) =
      (sessionMeta slots).insertIfNew slot.key (metaOf slot (slot.byteLength.getD 0)) := by
  simp [sessionMeta]

theorem getElem?_sessionMeta (slots : List DescriptorBuffer) (key : BufferKey) :
    (sessionMeta slots)[key]? =
      (slots.find? (·.key == key)).map fun slot => metaOf slot (slot.byteLength.getD 0) := by
  induction slots using List.reverseRecOn with
  | nil => simp [sessionMeta]
  | append_singleton slots slot ih =>
    rw [sessionMeta_concat, Std.ExtTreeMap.getElem?_insertIfNew, List.find?_append]
    have hmem : slot.key ∈ sessionMeta slots ↔ (sessionMeta slots)[slot.key]?.isSome :=
      Std.ExtTreeMap.mem_iff_isSome_getElem?
    by_cases hkey : slot.key = key
    · subst hkey
      cases hfound : slots.find? (·.key == slot.key) with
      | none => simp_all
      | some first => simp_all
    · have hne : ¬ compare slot.key key = .eq := by
        rwa [Std.LawfulEqOrd.compare_eq_iff_eq]
      cases hfound : slots.find? (·.key == key) with
      | none => simp_all
      | some first => simp_all

def kernelOf (kernel : DescriptorKernel) : SessionKernel where
  entry := kernel.entry
  slots := kernel.buffers.map slotOf
  grid := kernel.grid
  block := kernel.block

/-- The plan of the session is the descriptor's. -/
structure PlanOf (d : DeviceDescriptor) (inner : ProgramInner) : Prop where
  kernels : inner.kernels = d.kernels.map kernelOf
  launches : inner.launches = d.launches.map fun launch => ⟨launch.id, launch.kernelIndex.toNat⟩
  bufferMeta : inner.bufferMeta = sessionMeta d.slots

/-! ## Who holds which handle -/

/-- A key whose buffer lives as long as the program. -/
def ProgramKey (d : DeviceDescriptor) (key : BufferKey) : Prop :=
  ∃ slot ∈ d.slots, slot.key = key ∧ slot.lifetime = .perProgram

/-- A live or pooled buffer. -/
def ProgramInner.Has (inner : ProgramInner) (key : BufferKey) (handle : DeviceHandle) : Prop :=
  inner.buffers[key]? = some handle ∨ inner.intermediatePool[key]? = some handle

/-- Every handle was registered, and only program buffers may share one. -/
structure HandlesApart (d : DeviceDescriptor) (device : Device) (inner : ProgramInner) : Prop where
  below : ∀ key handle, inner.Has key handle → handle.id < device.nextId
  apart : ∀ key key' handle handle', inner.Has key handle → inner.Has key' handle' → key ≠ key' →
    handle.id = handle'.id → ProgramKey d key

/-- The states a session goes through: created over a sibling's live handles, then any
    allocations, returns and releases, while the device hands out more ids. -/
inductive Reached (driver : Driver) (d : DeviceDescriptor) : Device → ProgramInner → Prop where
  | created (share : Option SharedProgramOffer) (device device' : Device) (inner : ProgramInner)
      (hoffered : ∀ offer, share = some offer → 
        ∀ (value : UInt32) (buffer : SharedBufferOffer), offer.buffers[value]? = some buffer →
          buffer.handle.id < device.nextId)
      (hrun : newWithShare driver d share device = .ok inner device') :
      Reached driver d device' inner
  | allocated (device device' : Device) (inner inner' : ProgramInner) (useIntermediatePool : Bool)
      (h : Reached driver d device inner)
      (hrun : allocateStepBuffers driver useIntermediatePool ⟨device, inner⟩ =
        .ok ⟨⟩ ⟨device', inner'⟩) : Reached driver d device' inner'
  | returned (device : Device) (inner : ProgramInner) (key : BufferKey)
      (h : Reached driver d device inner) : Reached driver d device (returnBufferToPool inner key)
  | released (device : Device) (inner : ProgramInner) (key : BufferKey)
      (h : Reached driver d device inner) : Reached driver d device (forgetBuffer inner key)
  | elsewhere (device device' : Device) (inner : ProgramInner)
      (h : Reached driver d device inner) (hle : device.nextId ≤ device'.nextId) :
      Reached driver d device' inner

/-! ## Creation holds program buffers only -/

section

variable {driver : Driver} {d : DeviceDescriptor} {device : Device}

theorem keepsHandles_zeroFillBuffer (driver : Driver) (handle : DeviceHandle)
    (byteLength : UInt64) : KeepsHandles (zeroFillBuffer driver handle byteLength) :=
  keepsHandles_copyInBytes driver .zeroFill handle _ .f32

/-- After some slots: their metadata, and handles of program buffers only. -/
structure CreatingOk (d : DeviceDescriptor) (device : Device) (before : List DescriptorBuffer)
    (creating : Creating) : Prop where
  le : device.nextId ≤ creating.runtime.nextId
  bufferMeta : creating.bufferMeta = sessionMeta before
  below : ∀ (key : BufferKey) (handle : DeviceHandle), creating.buffers[key]? = some handle →
    handle.id < creating.runtime.nextId
  program : ∀ (key : BufferKey) (handle : DeviceHandle), creating.buffers[key]? = some handle →
    ProgramKey d key

/-- An operation that keeps the registry keeps what creation has built, and ids below the
    counter stay below. -/
theorem inCreation_ends {α : Type} {operation : DeviceM α} (hkeeps : KeepsHandles operation)
    {before : List DescriptorBuffer} (id : Nat) :
    Ends (fun creating => CreatingOk d device before creating ∧ id < creating.runtime.nextId)
      (inCreation operation)
      (fun _ creating => CreatingOk d device before creating ∧ id < creating.runtime.nextId)
      (fun _ _ => True) := by
  intro creating hpre
  obtain ⟨hok, hid⟩ := hpre
  unfold inCreation zoom
  have hends := hkeeps creating.runtime creating.runtime (.refl _)
  cases hrun : operation creating.runtime with
  | error error t => trivial
  | ok a t =>
    rw [hrun] at hends
    have hnext := hends.nextId
    refine ⟨⟨?_, hok.bufferMeta, ?_, hok.program⟩, ?_⟩
    · have := hok.le
      show device.nextId ≤ t.nextId
      omega
    · intro key handle hfound
      have := hok.below key handle hfound
      show handle.id < t.nextId
      omega
    · show id < t.nextId
      omega

theorem CreatingOk.insert {before : List DescriptorBuffer} {creating : Creating} {key : BufferKey}
    {handle : DeviceHandle} (h : CreatingOk d device before creating)
    (hbelow : handle.id < creating.runtime.nextId) (hprogram : ProgramKey d key)
    (sharedKeys : BTreeSet BufferKey) (ownedHandles : List DeviceHandle) :
    CreatingOk d device before
      { creating with buffers := creating.buffers.insert key handle, sharedKeys, ownedHandles } := by
  refine ⟨h.le, h.bufferMeta, ?_, ?_⟩
  · intro other held hfound
    by_cases hkey : key = other
    · subst hkey
      rw [Std.ExtTreeMap.getElem?_insert_self] at hfound
      cases hfound
      exact hbelow
    · rw [Std.ExtTreeMap.getElem?_insert, if_neg (by simpa using hkey)] at hfound
      exact h.below other held hfound
  · intro other held hfound
    by_cases hkey : key = other
    · exact hkey ▸ hprogram
    · rw [Std.ExtTreeMap.getElem?_insert, if_neg (by simpa using hkey)] at hfound
      exact h.program other held hfound

theorem holdProgramBuffer_ends {share : Option SharedProgramOffer} {slot : DescriptorBuffer}
    {byteLength : UInt64} {before : List DescriptorBuffer}
    (hoffered : ∀ offer, share = some offer →
      ∀ (value : UInt32) (buffer : SharedBufferOffer), offer.buffers[value]? = some buffer →
        buffer.handle.id < device.nextId)
    (hprogram : ProgramKey d slot.key) :
    Ends (CreatingOk d device before) (holdProgramBuffer driver share slot byteLength)
      (fun _ => CreatingOk d device before) (fun _ _ => True) := by
  unfold holdProgramBuffer
  cases hshared : share.bind (·.buffers[slot.semanticValue]?) with
  | some shared =>
    obtain ⟨offer, hoffer, hvalue⟩ := Option.bind_eq_some_iff.mp hshared
    have hlt := hoffered offer hoffer slot.semanticValue shared hvalue
    by_cases hfits : shared.fits slot byteLength = true
    · simp only [hfits, if_true]
      refine Ends.modify fun creating hok => ?_
      exact hok.insert (Nat.lt_of_lt_of_le hlt hok.le) hprogram _ _
    · simp only [hfits]
      exact Ends.throw fun _ _ => trivial
  | none =>
    refine Ends.bind (Q := fun handle creating => CreatingOk d device before creating ∧
      handle.id < creating.runtime.nextId) ?_ fun handle => ?_
    · intro creating hok
      unfold inCreation zoom
      have hends := allocBytes_ends driver byteLength creating.runtime creating.runtime (.refl _)
      cases hrun : allocBytes driver byteLength creating.runtime with
      | error error t => trivial
      | ok handle t =>
        rw [hrun] at hends
        have hid := hends.1.handleId
        have hnext := hends.1.nextId
        refine ⟨⟨?_, hok.bufferMeta, ?_, hok.program⟩, ?_⟩
        · have := hok.le
          show device.nextId ≤ t.nextId
          omega
        · intro key held hfound
          have := hok.below key held hfound
          show held.id < t.nextId
          omega
        · show handle.id < t.nextId
          omega
    · by_cases hzero : slot.initialization = .zeroFill
      · simp only [hzero, if_true]
        refine Ends.bind
          (inCreation_ends (keepsHandles_zeroFillBuffer driver handle byteLength) handle.id)
          fun _ => Ends.modify ?_
        exact fun creating hpre => hpre.1.insert hpre.2 hprogram _ _
      · simp only [hzero, if_false]
        exact Ends.modify fun creating hpre => hpre.1.insert hpre.2 hprogram _ _

theorem createSlot_ends {share : Option SharedProgramOffer} {slot : DescriptorBuffer}
    {before : List DescriptorBuffer}
    (hoffered : ∀ offer, share = some offer →
      ∀ (value : UInt32) (buffer : SharedBufferOffer), offer.buffers[value]? = some buffer →
        buffer.handle.id < device.nextId)
    (hslot : slot ∈ d.slots) :
    Ends (CreatingOk d device before) (createSlot driver share slot)
      (fun made creating => made = slotOf slot ∧ CreatingOk d device (before ++ [slot]) creating)
      (fun _ _ => True) := by
  unfold createSlot
  cases hlength : slot.byteLength with
  | none => exact Ends.throw fun _ _ => trivial
  | some byteLength =>
    refine Ends.bind (Q := fun _ => CreatingOk d device (before ++ [slot])) (Ends.modify ?_)
      fun _ => ?_
    · intro creating hok
      refine ⟨hok.le, ?_, hok.below, hok.program⟩
      rw [sessionMeta_concat, hlength, Option.getD_some, ← hok.bufferMeta]
    · refine Ends.bind (Ends.get fun creating hok => hok) fun creating => ?_
      by_cases hhold : slot.key ∉ creating.buffers ∧ slot.lifetime = .perProgram
      · rw [if_pos hhold]
        exact Ends.bind (holdProgramBuffer_ends hoffered ⟨slot, hslot, rfl, hhold.2⟩)
          fun _ => Ends.pure fun creating hok => ⟨rfl, hok⟩
      · rw [if_neg hhold]
        exact Ends.pure fun creating hok => ⟨rfl, hok⟩

theorem createKernels_ends (driver : Driver) {share : Option SharedProgramOffer}
    (hoffered : ∀ offer, share = some offer →
      ∀ (value : UInt32) (buffer : SharedBufferOffer), offer.buffers[value]? = some buffer →
        buffer.handle.id < device.nextId) :
    Ends (CreatingOk d device []) (d.kernels.mapM (createKernel driver share))
      (fun kernels creating => kernels = d.kernels.map kernelOf ∧
        CreatingOk d device d.slots creating)
      (fun _ _ => True) := by
  refine Ends.mapM_after (g := kernelOf)
    (I := fun before creating => CreatingOk d device (before.flatMap (·.buffers)) creating) []
    fun before kernel hkernel => ?_
  have hslots := Ends.mapM_after (E := fun (_ : HostError) (_ : Creating) => True) (g := slotOf)
    (I := CreatingOk d device) (f := createSlot driver share) (l := kernel.buffers)
    (before.flatMap (·.buffers)) fun before' slot hslot =>
      createSlot_ends hoffered (List.mem_flatMap.mpr ⟨kernel, hkernel, hslot⟩)
  refine Ends.bind hslots fun slots => Ends.pure fun creating hdone => ⟨?_, ?_⟩
  · rw [hdone.1]
    rfl
  · simpa using hdone.2

/-- A created session has the plan of its descriptor and holds program buffers only. -/
theorem newWithShare_ok {share : Option SharedProgramOffer} {device' : Device}
    {inner : ProgramInner}
    (hoffered : ∀ offer, share = some offer →
      ∀ (value : UInt32) (buffer : SharedBufferOffer), offer.buffers[value]? = some buffer →
        buffer.handle.id < device.nextId)
    (hrun : newWithShare driver d share device = .ok inner device') :
    PlanOf d inner ∧ inner.intermediatePool = ∅ ∧
      (∀ (key : BufferKey) (handle : DeviceHandle), inner.buffers[key]? = some handle →
        handle.id < device'.nextId) ∧
      ∀ (key : BufferKey) (handle : DeviceHandle), inner.buffers[key]? = some handle →
        ProgramKey d key := by
  have hends : Ends (· = device) (newWithShare driver d share)
      (fun inner device' => PlanOf d inner ∧ inner.intermediatePool = ∅ ∧
        (∀ (key : BufferKey) (handle : DeviceHandle), inner.buffers[key]? = some handle →
          handle.id < device'.nextId) ∧
        ∀ (key : BufferKey) (handle : DeviceHandle), inner.buffers[key]? = some handle →
          ProgramKey d key)
      (fun _ _ => True) := by
    unfold newWithShare
    refine Ends.bind (Q := fun _ (runtime : Device) => device.nextId ≤ runtime.nextId) ?_
      fun moduleHandle => ?_
    · unfold holdModule
      cases sameModule d share with
      | some sibling => exact Ends.pure fun runtime hruntime => Nat.le_of_eq (by rw [hruntime])
      | none =>
        refine (loadModule_ends driver d.moduleImage device).weaken ?_ ?_ fun _ _ _ => trivial
        · intro runtime hruntime
          rw [hruntime]
          exact .refl _
        · intro handle runtime hregisters
          have := hregisters.nextId
          omega
    · intro runtime hle
      have hkernels := createKernels_ends driver hoffered ⟨runtime, ∅, ∅, ∅, []⟩
        (⟨hle, rfl, by simp, by simp⟩ : CreatingOk d device [] _)
      cases hcreated : d.kernels.mapM (createKernel driver share) ⟨runtime, ∅, ∅, ∅, []⟩ with
      | error error created => simp only [hcreated]
      | ok kernels created =>
        rw [hcreated] at hkernels
        simp only [hcreated]
        exact ⟨⟨hkernels.1, rfl, hkernels.2.bufferMeta⟩, trivial, hkernels.2.below,
          hkernels.2.program⟩
  exact hends.of_ok rfl hrun

end

/-! ## Steps keep the handles apart -/

section

variable {driver : Driver} {d : DeviceDescriptor} {device device' : Device}
  {inner inner' : ProgramInner} {key : BufferKey} {handle : DeviceHandle}

/-- A handle on its way into the live buffers. -/
structure CheckedOut (d : DeviceDescriptor) (key : BufferKey) (handle : DeviceHandle)
    (hosted : Hosted) : Prop where
  apart : HandlesApart d hosted.runtime hosted.inner
  below : handle.id < hosted.runtime.nextId
  other : ∀ key' handle', hosted.inner.Has key' handle' → key' ≠ key → handle'.id = handle.id →
    ProgramKey d key ∧ ProgramKey d key'

theorem HandlesApart.mono (h : HandlesApart d device inner) (hle : device.nextId ≤ device'.nextId)
    (hhas : ∀ key handle, inner'.Has key handle → inner.Has key handle) :
    HandlesApart d device' inner' :=
  ⟨fun key handle hheld => Nat.lt_of_lt_of_le (h.below key handle (hhas key handle hheld)) hle,
    fun key key' handle handle' hheld hheld' =>
      h.apart key key' handle handle' (hhas key handle hheld) (hhas key' handle' hheld')⟩

theorem CheckedOut.insert {hosted : Hosted} (h : CheckedOut d key handle hosted) :
    HandlesApart d hosted.runtime
      { hosted.inner with buffers := hosted.inner.buffers.insert key handle } := by
  have hhas : ∀ key' handle',
      ({ hosted.inner with
        buffers := hosted.inner.buffers.insert key handle } : ProgramInner).Has key' handle' →
      key' = key ∧ handle' = handle ∨ hosted.inner.Has key' handle' := by
    intro key' handle' hheld
    rcases hheld with hheld | hheld
    · by_cases hkey : key = key'
      · subst hkey
        rw [Std.ExtTreeMap.getElem?_insert_self] at hheld
        exact Or.inl ⟨rfl, (Option.some.inj hheld).symm⟩
      · rw [Std.ExtTreeMap.getElem?_insert, if_neg (by simpa using hkey)] at hheld
        exact Or.inr (Or.inl hheld)
    · exact Or.inr (Or.inr hheld)
  refine ⟨?_, ?_⟩
  · intro key' handle' hheld
    rcases hhas key' handle' hheld with ⟨rfl, rfl⟩ | hheld
    · exact h.below
    · exact h.apart.below key' handle' hheld
  · intro key₁ key₂ handle₁ handle₂ hheld₁ hheld₂ hne hid
    rcases hhas key₁ handle₁ hheld₁ with ⟨rfl, rfl⟩ | hold₁
    · rcases hhas key₂ handle₂ hheld₂ with ⟨rfl, rfl⟩ | hold₂
      · exact absurd rfl hne
      · exact (h.other key₂ handle₂ hold₂ hne.symm hid.symm).1
    · rcases hhas key₂ handle₂ hheld₂ with ⟨rfl, rfl⟩ | hold₂
      · exact (h.other key₁ handle₁ hold₁ hne hid).2
      · exact h.apart.apart key₁ key₂ handle₁ handle₂ hold₁ hold₂ hne hid

/-- The program's plan and its handles, over the device it runs on. -/
def HostedOk (d : DeviceDescriptor) (hosted : Hosted) : Prop :=
  PlanOf d hosted.inner ∧ HandlesApart d hosted.runtime hosted.inner

theorem allocHandle_ends {byteLength : UInt64} :
    Ends (HostedOk d) (onHost (allocBytes driver byteLength))
      (fun handle hosted => PlanOf d hosted.inner ∧ CheckedOut d key handle hosted)
      (fun _ _ => True) := by
  intro hosted hpre
  obtain ⟨hplan, hapart⟩ := hpre
  unfold onHost zoom
  have hends := allocBytes_ends driver byteLength hosted.runtime hosted.runtime (.refl _)
  cases hrun : allocBytes driver byteLength hosted.runtime with
  | error error t => trivial
  | ok handle t =>
    rw [hrun] at hends
    have hid := hends.1.handleId
    have hnext := hends.1.nextId
    refine ⟨hplan, hapart.mono (by show _ ≤ t.nextId; omega) fun _ _ h => h, ?_, ?_⟩
    · show handle.id < t.nextId
      omega
    · intro key' handle' hheld _ hsame
      have := hapart.below key' handle' hheld
      omega

theorem CheckedOut.of_pooled {hosted : Hosted} (hok : HostedOk d hosted)
    (hpooled : hosted.inner.intermediatePool[key]? = some handle) :
    CheckedOut d key handle { hosted with
      inner := { hosted.inner with
        intermediatePool := hosted.inner.intermediatePool.erase key } } := by
  have hheld : hosted.inner.Has key handle := Or.inr hpooled
  have hless : ∀ key' handle', ({ hosted.inner with
      intermediatePool := hosted.inner.intermediatePool.erase key } : ProgramInner).Has
        key' handle' → hosted.inner.Has key' handle' := by
    intro key' handle' hfound
    rcases hfound with hfound | hfound
    · exact Or.inl hfound
    · rw [Std.ExtTreeMap.getElem?_erase] at hfound
      split at hfound
      · cases hfound
      · exact Or.inr hfound
  refine ⟨hok.2.mono (Nat.le_refl _) hless, hok.2.below key handle hheld, ?_⟩
  intro key' handle' hfound hne hsame
  have hfound := hless key' handle' hfound
  exact ⟨hok.2.apart key key' handle handle' hheld hfound hne.symm hsame.symm,
    hok.2.apart key' key handle' handle hfound hheld hne hsame⟩

theorem checkoutHandle_ends {useIntermediatePool : Bool} {sessionMeta : SessionBufferMeta} :
    Ends (HostedOk d) (checkoutHandle driver useIntermediatePool key sessionMeta)
      (fun handle hosted => PlanOf d hosted.inner ∧ CheckedOut d key handle hosted)
      (fun _ _ => True) := by
  refine Ends.bind (Q := fun seen hosted => seen = hosted ∧ HostedOk d hosted)
    (Ends.get fun hosted h => ⟨rfl, h⟩) fun seen => ?_
  split
  · rename_i handle hpooled
    refine Ends.bind (Q := fun _ hosted => PlanOf d hosted.inner ∧ CheckedOut d key handle hosted)
      (Ends.modify ?_) fun _ => Ends.pure fun hosted h => h
    intro hosted hpre
    obtain ⟨rfl, hok⟩ := hpre
    exact ⟨⟨hok.1.kernels, hok.1.launches, hok.1.bufferMeta⟩, .of_pooled hok hpooled⟩
  · exact allocHandle_ends.weaken (fun _ h => h.2) (fun _ _ h => h) fun _ _ h => h

theorem checkoutBuffer_ends {useIntermediatePool : Bool}
    {entry : BufferKey × SessionBufferMeta} :
    Ends (HostedOk d) (checkoutBuffer driver useIntermediatePool entry)
      (fun _ => HostedOk d) (fun _ _ => True) := by
  have hinsert : ∀ handle, Ends
      (fun hosted => PlanOf d hosted.inner ∧ CheckedOut d entry.1 handle hosted)
      (modify fun hosted =>
        { hosted with
          inner := { hosted.inner with
            buffers := hosted.inner.buffers.insert entry.1 handle } } :
        EStateM HostError Hosted PUnit)
      (fun _ => HostedOk d) (fun _ _ => True) := by
    intro handle
    refine Ends.modify fun hosted hpre => ?_
    exact ⟨⟨hpre.1.kernels, hpre.1.launches, hpre.1.bufferMeta⟩, hpre.2.insert⟩
  refine Ends.bind checkoutHandle_ends fun handle => ?_
  by_cases hzero : entry.2.initialization = .zeroFill
  · simp only [hzero, if_true]
    refine Ends.bind (Q := fun _ hosted => PlanOf d hosted.inner ∧
      CheckedOut d entry.1 handle hosted) ?_ fun _ => hinsert handle
    intro hosted hpre
    obtain ⟨hplan, hout⟩ := hpre
    unfold onHost zoom
    have hends := keepsHandles_zeroFillBuffer driver handle entry.2.byteLength hosted.runtime
      hosted.runtime (.refl _)
    cases hrun : zeroFillBuffer driver handle entry.2.byteLength hosted.runtime with
    | error error t => trivial
    | ok a t =>
      rw [hrun] at hends
      have hnext := hends.nextId
      refine ⟨hplan, hout.apart.mono (Nat.le_of_eq hnext.symm) fun _ _ h => h, ?_, hout.other⟩
      show handle.id < t.nextId
      rw [hnext]
      exact hout.below
  · simp only [hzero, if_false]
    exact hinsert handle

theorem allocateStepBuffers_ends {useIntermediatePool : Bool} :
    Ends (HostedOk d) (allocateStepBuffers driver useIntermediatePool)
      (fun _ => HostedOk d) (fun _ _ => True) := by
  refine Ends.bind (Ends.get fun hosted h => h) fun hosted => ?_
  exact Ends.weaken (Ends.forM fun entry _ => checkoutBuffer_ends) (fun _ h => h) (fun _ _ h => h)
    fun _ _ h => h

/-- In every state a session reaches it has the plan of its descriptor, and only program
    buffers share handles. -/
theorem reached_ok (h : Reached driver d device inner) :
    PlanOf d inner ∧ HandlesApart d device inner := by
  induction h with
  | created share device device' inner hoffered hrun =>
    obtain ⟨hplan, hpool, hbelow, hprogram⟩ := newWithShare_ok hoffered hrun
    have hlive : ∀ key handle, inner.Has key handle → inner.buffers[key]? = some handle := by
      intro key handle hheld
      rcases hheld with hheld | hheld
      · exact hheld
      · rw [hpool] at hheld
        simp at hheld
    refine ⟨hplan, fun key handle hheld => hbelow key handle (hlive key handle hheld), ?_⟩
    intro key _ handle _ hheld _ _ _
    exact hprogram key handle (hlive key handle hheld)
  | allocated device device' inner inner' pool _ hrun ih =>
    exact allocateStepBuffers_ends.of_ok (s := ⟨device, inner⟩) ih hrun
  | returned device inner key _ ih =>
    obtain ⟨hplan, hapart⟩ := ih
    unfold returnBufferToPool
    cases hlive : inner.buffers[key]? with
    | none => exact ⟨hplan, hapart⟩
    | some handle =>
      refine ⟨⟨hplan.kernels, hplan.launches, hplan.bufferMeta⟩,
        hapart.mono (Nat.le_refl _) ?_⟩
      intro key' handle' hfound
      rcases hfound with hfound | hfound
      · rw [Std.ExtTreeMap.getElem?_erase] at hfound
        split at hfound
        · cases hfound
        · exact Or.inl hfound
      · by_cases hkey : key = key'
        · subst hkey
          rw [Std.ExtTreeMap.getElem?_insert_self] at hfound
          cases hfound
          exact Or.inl hlive
        · rw [Std.ExtTreeMap.getElem?_insert, if_neg (by simpa using hkey)] at hfound
          exact Or.inr hfound
  | released device inner key _ ih =>
    refine ⟨⟨ih.1.kernels, ih.1.launches, ih.1.bufferMeta⟩, ih.2.mono (Nat.le_refl _) ?_⟩
    intro key' handle' hfound
    rcases hfound with hfound | hfound
    · unfold forgetBuffer at hfound
      rw [Std.ExtTreeMap.getElem?_erase] at hfound
      split at hfound
      · cases hfound
      · exact Or.inl hfound
    · exact Or.inr hfound
  | elsewhere device device' inner _ hle ih => exact ⟨ih.1, ih.2.mono hle fun _ _ h => h⟩

end

end FaberHosts.Macos
