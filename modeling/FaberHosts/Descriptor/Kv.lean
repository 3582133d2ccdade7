import FaberHosts.Lib.Word64
import FaberHosts.Descriptor.Model

/-!
# The KV storage and binding plan

`KvCacheDescriptor`: persistent arenas, bounded views over them, and the ordered
launch bindings whose offsets and spans follow the invocation state.
-/

namespace FaberHosts.Descriptor
open FaberHosts.Lib

/-! ## The plan -/

/-- One persistent allocation. -/
structure DescriptorAllocation where
  bufferId : UInt32
  dtype : DeviceDataType
  capacityBytes : UInt64
  lifetime : DeviceBufferLifetime
  initialization : DeviceBufferInitialization
  deriving DecidableEq, Repr

/-- A bounded view over an allocation; several views may share one. -/
structure DescriptorView where
  allocationId : UInt32
  logicalDims : List UInt64
  strides : List UInt64
  staticBase : UInt64
  maximumSpan : UInt64
  deriving DecidableEq, Repr

/-- The live cursor uploaded for a step. -/
structure DescriptorInvocationState where
  position : UInt32
  validLenAfter : UInt32
  queryRows : UInt32
  sequenceEpoch : UInt32
  deriving DecidableEq, Repr

/-- Where a launch binding takes its offset or span from. -/
inductive DescriptorRuntimeSource where
  | constant
  | position
  | validLenAfter
  | queryRows
  | sequenceEpoch
  deriving DecidableEq, Repr

def DescriptorRuntimeSource.discriminant : DescriptorRuntimeSource → UInt32
  | .constant => 0
  | .position => 1
  | .validLenAfter => 2
  | .queryRows => 3
  | .sequenceEpoch => 4

/-- One launch binding; `handle` names the allocation. -/
structure DescriptorLaunchBinding where
  handle : UInt32
  bindingIndex : UInt32
  byteOffset : UInt64
  viewSpan : UInt64
  runtimeSource : DescriptorRuntimeSource
  deriving DecidableEq, Repr

structure KvCacheDescriptor where
  allocations : List DescriptorAllocation
  views : List DescriptorView
  invocationState : DescriptorInvocationState
  launchBindings : List DescriptorLaunchBinding
  deriving DecidableEq, Repr

/-! ## Validation -/

def checkAllocation (allocations : List DescriptorAllocation) (allocation : DescriptorAllocation) :
    Except HostError (List DescriptorAllocation) :=
  if allocation.bufferId = 0 then
    .error (.descriptor "device descriptor allocation uses the reserved zero buffer identity")
  else if allocation.capacityBytes = 0 then
    .error (.descriptor
      s!"device descriptor allocation {allocation.bufferId} has a zero byte capacity")
  else if allocations.any (·.bufferId == allocation.bufferId) then
    .error (.descriptor s!"device descriptor repeats allocation identity {allocation.bufferId}")
  else
    .ok (allocations ++ [allocation])

def checkView (allocations : List DescriptorAllocation) (view : DescriptorView) :
    Except HostError Unit :=
  if view.logicalDims = [] ∨ view.logicalDims.length ≠ view.strides.length then
    .error (.descriptor (s!"device descriptor view on allocation {view.allocationId} has " ++
      "rank-mismatched dims and strides"))
  else if 0 ∈ view.logicalDims ∨ 0 ∈ view.strides then
    .error (.descriptor
      s!"device descriptor view on allocation {view.allocationId} has a zero dim or stride")
  else if view.maximumSpan = 0 then
    .error (.descriptor
      s!"device descriptor view on allocation {view.allocationId} has a zero maximum span")
  else
    match allocations.find? (·.bufferId == view.allocationId) with
    | none =>
      .error (.descriptor s!"device descriptor view names unknown allocation {view.allocationId}")
    | some allocation =>
      match checkedAdd view.staticBase view.maximumSpan with
      | none =>
        .error (.shapeMismatch (s!"device descriptor view on allocation {view.allocationId} " ++
          "overflows its static envelope"))
      | some viewEnd =>
        if allocation.capacityBytes < viewEnd then
          .error (.shapeMismatch (s!"device descriptor view on allocation {view.allocationId} " ++
            s!"spans {view.maximumSpan} bytes from base {view.staticBase} but allocation capacity " ++
            s!"is {allocation.capacityBytes} bytes"))
        else
          .ok ()

def checkLaunchBinding (allocations : List DescriptorAllocation)
    (binding : DescriptorLaunchBinding) : Except HostError Unit :=
  if binding.viewSpan = 0 then
    .error (.descriptor
      s!"device descriptor launch binding index {binding.bindingIndex} has a zero view span")
  else
    match allocations.find? (·.bufferId == binding.handle) with
    | none =>
      .error (.descriptor (s!"device descriptor launch binding index {binding.bindingIndex} " ++
        s!"names unknown allocation handle {binding.handle}"))
    | some allocation =>
      match checkedAdd binding.byteOffset binding.viewSpan with
      | none =>
        .error (.shapeMismatch (s!"device descriptor launch binding index " ++
          s!"{binding.bindingIndex} overflows its static envelope"))
      | some bindingEnd =>
        if allocation.capacityBytes < bindingEnd then
          .error (.shapeMismatch (s!"device descriptor launch binding index " ++
            s!"{binding.bindingIndex} spans {binding.viewSpan} bytes from offset " ++
            s!"{binding.byteOffset} but allocation {binding.handle} capacity is " ++
            s!"{allocation.capacityBytes} bytes"))
        else
          .ok ()

namespace KvCacheDescriptor

def validatedAllocations (kv : KvCacheDescriptor) : Except HostError (List DescriptorAllocation) := do
  let allocations ← kv.allocations.foldlM checkAllocation []
  if allocations.isEmpty then
    .error (.descriptor "device descriptor declares no allocations")
  else
    .ok allocations

def validate (kv : KvCacheDescriptor) : Except HostError Unit := do
  let allocations ← kv.validatedAllocations
  tryEach (checkView allocations) kv.views
  tryEach (checkLaunchBinding allocations) kv.launchBindings

def Valid (kv : KvCacheDescriptor) : Prop := kv.validate = .ok ()

instance (kv : KvCacheDescriptor) : Decidable kv.Valid :=
  inferInstanceAs (Decidable (kv.validate = .ok ()))

/-! ## What validation admits -/

/-- The envelope of a span at an offset lies inside the allocation of that identity. -/
def Inside (kv : KvCacheDescriptor) (id : UInt32) (offset span : UInt64) : Prop :=
  ∃ allocation ∈ kv.allocations, allocation.bufferId = id ∧
    offset.toNat + span.toNat ≤ allocation.capacityBytes.toNat

structure ViewFits (kv : KvCacheDescriptor) (view : DescriptorView) : Prop where
  dims : view.logicalDims ≠ []
  rank : view.logicalDims.length = view.strides.length
  nonzero : 0 ∉ view.logicalDims ∧ 0 ∉ view.strides
  span : view.maximumSpan ≠ 0
  inside : kv.Inside view.allocationId view.staticBase view.maximumSpan

structure BindingFits (kv : KvCacheDescriptor) (binding : DescriptorLaunchBinding) : Prop where
  span : binding.viewSpan ≠ 0
  inside : kv.Inside binding.handle binding.byteOffset binding.viewSpan

/-- The rules of validation; none depends on the order of a list. -/
structure Rules (kv : KvCacheDescriptor) : Prop where
  allocations : kv.allocations ≠ []
  identities : ∀ allocation ∈ kv.allocations,
    allocation.bufferId ≠ 0 ∧ allocation.capacityBytes ≠ 0
  distinct : (kv.allocations.map (·.bufferId)).Nodup
  views : ∀ view ∈ kv.views, ViewFits kv view
  bindings : ∀ binding ∈ kv.launchBindings, BindingFits kv binding

end KvCacheDescriptor

theorem envelope_ok_iff {ε : Type} {offset span capacity : UInt64} {overflow : ε}
    {outside : UInt64 → ε} :
    (match checkedAdd offset span with
      | none => Except.error overflow
      | some spanEnd => if capacity < spanEnd then Except.error (outside spanEnd) else Except.ok ()) =
        Except.ok () ↔ offset.toNat + span.toNat ≤ capacity.toNat := by
  cases hsum : checkedAdd offset span with
  | none =>
    refine iff_of_false nofun (fun hle => ?_)
    have hlt := capacity.toNat_lt
    have hfit : (offset + span).toNat = offset.toNat + span.toNat := toNat_add_of_fits (by omega)
    rw [checkedAdd_eq_some_iff.mpr hfit] at hsum
    cases hsum
  | some spanEnd =>
    have hexact := checkedAdd_eq_some_iff.mp hsum
    by_cases hout : capacity < spanEnd
    · have hlt := UInt64.lt_iff_toNat_lt.mp hout
      simp only [if_pos hout]
      exact iff_of_false nofun (by omega)
    · have hle : ¬ capacity.toNat < spanEnd.toNat := fun h => hout (UInt64.lt_iff_toNat_lt.mpr h)
      simp only [if_neg hout, true_iff]
      omega

theorem checkAllocation_ok_iff {before t : List DescriptorAllocation}
    {allocation : DescriptorAllocation} :
    checkAllocation before allocation = .ok t ↔
      ((allocation.bufferId ≠ 0 ∧ allocation.capacityBytes ≠ 0) ∧
        allocation.bufferId ∉ before.map (·.bufferId)) ∧ before ++ [allocation] = t := by
  unfold checkAllocation
  by_cases hid : allocation.bufferId = 0
  · simp [hid]
  by_cases hcapacity : allocation.capacityBytes = 0
  · simp [hid, hcapacity]
  by_cases hseen : before.any (·.bufferId == allocation.bufferId) = true
  · rw [if_neg hid, if_neg hcapacity, if_pos hseen]
    refine iff_of_false nofun (fun h => h.1.2 ?_)
    simpa using hseen
  · rw [if_neg hid, if_neg hcapacity, if_neg hseen]
    have hnew : allocation.bufferId ∉ before.map (·.bufferId) := by simpa using hseen
    simp [hid, hcapacity, hnew]

namespace KvCacheDescriptor

theorem validatedAllocations_ok_iff {kv : KvCacheDescriptor} {t : List DescriptorAllocation} :
    kv.validatedAllocations = .ok t ↔
      (kv.allocations ≠ [] ∧ (∀ allocation ∈ kv.allocations,
        allocation.bufferId ≠ 0 ∧ allocation.capacityBytes ≠ 0) ∧
        (kv.allocations.map (·.bufferId)).Nodup) ∧ kv.allocations = t := by
  have hfold := fun t => foldlM_ok_iff checkAllocation (fun seen => seen)
    (fun before (allocation : DescriptorAllocation) =>
      (allocation.bufferId ≠ 0 ∧ allocation.capacityBytes ≠ 0) ∧
        allocation.bufferId ∉ before.map (·.bufferId))
    [] kv.allocations t (fun before allocation t _ => checkAllocation_ok_iff) trivial
  simp only [List.nil_append] at hfold
  unfold validatedAllocations
  rw [bind_ok_iff_of hfold, eachAfter_and, eachAfter_const, eachAfter_notMem_map]
  by_cases hnil : kv.allocations = []
  · simp [hnil]
  · simp [hnil]

/-- The allocation lookup of views and bindings, with the envelope check behind it. -/
theorem inside_of_find? {kv : KvCacheDescriptor} (hdistinct : (kv.allocations.map (·.bufferId)).Nodup)
    {id : UInt32} {offset span : UInt64} :
    kv.Inside id offset span ↔ ∃ allocation, kv.allocations.find? (·.bufferId == id) = some allocation ∧
      offset.toNat + span.toNat ≤ allocation.capacityBytes.toNat := by
  constructor
  · rintro ⟨allocation, hmem, rfl, hle⟩
    obtain ⟨first, hfind, hfirst, hid⟩ := exists_find?_key (·.bufferId) hmem
    obtain rfl := List.inj_on_of_nodup_map hdistinct hfirst hmem hid
    exact ⟨first, hfind, hle⟩
  · rintro ⟨allocation, hfind, hle⟩
    obtain ⟨hmem, hid⟩ := find?_key hfind
    exact ⟨allocation, hmem, hid, hle⟩

theorem checkView_ok_iff {kv : KvCacheDescriptor}
    (hdistinct : (kv.allocations.map (·.bufferId)).Nodup) {view : DescriptorView} :
    checkView kv.allocations view = .ok () ↔ ViewFits kv view := by
  unfold checkView
  by_cases hrank : view.logicalDims = [] ∨ view.logicalDims.length ≠ view.strides.length
  · rw [if_pos hrank]
    exact iff_of_false nofun (fun h => hrank.elim h.dims (fun hne => hne h.rank))
  by_cases hzero : 0 ∈ view.logicalDims ∨ 0 ∈ view.strides
  · rw [if_neg hrank, if_pos hzero]
    exact iff_of_false nofun (fun h => hzero.elim h.nonzero.1 h.nonzero.2)
  by_cases hspan : view.maximumSpan = 0
  · rw [if_neg hrank, if_neg hzero, if_pos hspan]
    exact iff_of_false nofun (fun h => h.span hspan)
  rw [if_neg hrank, if_neg hzero, if_neg hspan]
  push Not at hrank hzero
  have hfits : ViewFits kv view ↔ kv.Inside view.allocationId view.staticBase view.maximumSpan :=
    ⟨fun h => h.inside, fun h => ⟨hrank.1, hrank.2, hzero, hspan, h⟩⟩
  rw [hfits, inside_of_find? hdistinct]
  cases hfind : kv.allocations.find? (·.bufferId == view.allocationId) with
  | none => simp
  | some allocation => simpa using envelope_ok_iff

theorem checkLaunchBinding_ok_iff {kv : KvCacheDescriptor}
    (hdistinct : (kv.allocations.map (·.bufferId)).Nodup) {binding : DescriptorLaunchBinding} :
    checkLaunchBinding kv.allocations binding = .ok () ↔ BindingFits kv binding := by
  unfold checkLaunchBinding
  by_cases hspan : binding.viewSpan = 0
  · rw [if_pos hspan]
    exact iff_of_false nofun (fun h => h.span hspan)
  rw [if_neg hspan]
  have hfits : BindingFits kv binding ↔
      kv.Inside binding.handle binding.byteOffset binding.viewSpan :=
    ⟨fun h => h.inside, fun h => ⟨hspan, h⟩⟩
  rw [hfits, inside_of_find? hdistinct]
  cases hfind : kv.allocations.find? (·.bufferId == binding.handle) with
  | none => simp
  | some allocation => simpa using envelope_ok_iff

theorem valid_iff (kv : KvCacheDescriptor) : kv.Valid ↔ Rules kv := by
  unfold Valid validate
  rw [bind_ok_iff_of (fun _ => validatedAllocations_ok_iff), bind_ok_iff]
  constructor
  · rintro ⟨⟨hnil, hids, hdistinct⟩, ⟨⟩, hviews, hbindings⟩
    refine ⟨hnil, hids, hdistinct, fun view hview => ?_, fun binding hbinding => ?_⟩
    · exact (checkView_ok_iff hdistinct).mp (tryEach_ok_iff.mp hviews view hview)
    · exact (checkLaunchBinding_ok_iff hdistinct).mp (tryEach_ok_iff.mp hbindings binding hbinding)
  · intro h
    refine ⟨⟨h.allocations, h.identities, h.distinct⟩, (), ?_, ?_⟩
    · exact tryEach_ok_iff.mpr (fun view hview => (checkView_ok_iff h.distinct).mpr (h.views view hview))
    · exact tryEach_ok_iff.mpr
        (fun binding hbinding => (checkLaunchBinding_ok_iff h.distinct).mpr (h.bindings binding hbinding))

end KvCacheDescriptor

end FaberHosts.Descriptor
