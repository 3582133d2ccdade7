import FaberHosts.Descriptor.Validate

/-!
# What the slot checks admit

The facts the kernel pass remembers are those of the slots it walked, and the
pass succeeds exactly when each kernel and slot is well formed, any two slots
agree on the identity facts of their buffers, and no slot's role conflicts with
the *first* slot of its buffer.
-/

namespace FaberHosts.Descriptor
open FaberHosts.Lib

/-! ## The laws -/

/-- Two slots agree on what a buffer id fixes: one semantic value per id, held by
    no other id, one name, one lifetime and one initialization. -/
structure SameBuffer (a b : DescriptorBuffer) : Prop where
  semantic : a.bufferId = b.bufferId ↔ a.semanticValue = b.semanticValue
  name : a.bufferId = b.bufferId → a.bufferName = b.bufferName
  lifetime : a.bufferId = b.bufferId → a.lifetime = b.lifetime
  initialization : a.bufferId = b.bufferId → a.initialization = b.initialization

theorem SameBuffer.refl (a : DescriptorBuffer) : SameBuffer a a :=
  ⟨Iff.rfl.trans (by simp), fun _ => rfl, fun _ => rfl, fun _ => rfl⟩

theorem SameBuffer.symm {a b : DescriptorBuffer} (h : SameBuffer a b) : SameBuffer b a :=
  ⟨by rw [eq_comm, h.semantic, eq_comm], fun hid => (h.name hid.symm).symm,
    fun hid => (h.lifetime hid.symm).symm, fun hid => (h.initialization hid.symm).symm⟩

/-- The keyed metadata of the slot's buffer version carries the slot's shape. -/
def MetadataFits (versions : List DescriptorBufferVersion) (slot : DescriptorBuffer) : Prop :=
  ∃ v, versions.find? (·.key == slot.key) = some v ∧ v.elementTy = slot.elementTy ∧
    v.elementCount = slot.elementCount ∧ v.shape = slot.shape

/-- The facts of one slot that no other slot bears on. -/
structure SlotShape (versions : List DescriptorBufferVersion) (slot : DescriptorBuffer) : Prop where
  count : slot.elementCount ≠ 0
  version : slot.version ≠ 0
  semantic : slot.semanticValue ≠ 0
  metadata : MetadataFits versions slot

structure KernelShape (kernel : DescriptorKernel) : Prop where
  entry : trimsToEmpty kernel.entry = false
  buffers : kernel.buffers ≠ []
  grid : 0 ∉ kernel.grid.toList
  block : 0 ∉ kernel.block.toList
  bindings : (kernel.buffers.map (·.binding)).Nodup

/-- No slot's role conflicts with the first slot of its buffer. -/
def FirstRolesFit (slots : List DescriptorBuffer) : Prop :=
  ∀ slot ∈ slots, ∀ first, slots.find? (·.bufferId == slot.bufferId) = some first →
    roleConflict first.role slot.role = false

/-- What the slot checks ask of a slot after the slots before it. -/
structure SlotFits (versions : List DescriptorBufferVersion) (before : List DescriptorBuffer)
    (slot : DescriptorBuffer) : Prop where
  shape : SlotShape versions slot
  agrees : ∀ b ∈ before, SameBuffer b slot
  firstRole : ∀ first, before.find? (·.bufferId == slot.bufferId) = some first →
    roleConflict first.role slot.role = false

@[simp] theorem roleConflict_self (role : DeviceBufferRole) : roleConflict role role = false := by
  cases role <;> rfl

/-! ## The facts remembered -/

/-- The `perStep` slots the host fills. -/
def isPerStepInput (slot : DescriptorBuffer) : Bool :=
  slot.lifetime = .perStep ∧ slot.role = .input

/-- The `perStep` slots a kernel writes. -/
def isPerStepWrite (slot : DescriptorBuffer) : Bool :=
  slot.lifetime = .perStep ∧ slot.role ≠ .input

/-- What the kernel pass remembers after walking some slots. -/
def factsOf (slots : List DescriptorBuffer) : DescriptorValidationFacts where
  identities := firstFacts (·.bufferId) (fun slot => (slot.bufferName, slot.role)) slots
  semanticValues := firstFacts (·.bufferId) (·.semanticValue) slots
  lifetimes := firstFacts (·.bufferId) (·.lifetime) slots
  initializations := firstFacts (·.bufferId) (·.initialization) slots
  perStepInputs := firstKeys (·.bufferId) (slots.filter isPerStepInput)
  perStepWrites := firstKeys (·.bufferId) (slots.filter isPerStepWrite)

namespace DescriptorValidationFacts

variable {facts t : DescriptorValidationFacts} {before : List DescriptorBuffer}
  {slot : DescriptorBuffer}

variable (before) in
theorem validateLifetime_ok_iff
    (hfacts : facts.lifetimes = firstFacts (·.bufferId) (·.lifetime) before) :
    facts.validateLifetime slot = .ok t ↔
      (∀ first, before.find? (·.bufferId == slot.bufferId) = some first →
        first.lifetime = slot.lifetime) ∧
      { facts with lifetimes := firstFacts (·.bufferId) (·.lifetime) (before ++ [slot]) } = t := by
  rw [validateLifetime, hfacts, find?_firstFacts]
  cases hfind : before.find? (·.bufferId == slot.bufferId) with
  | some first =>
    rw [firstFacts_append_of_find? hfind, ← hfacts]
    by_cases heq : first.lifetime = slot.lifetime <;> simp [heq]
  | none =>
    rw [firstFacts_append_of_new hfind]
    simp

variable (before) in
theorem validateInitialization_ok_iff
    (hfacts : facts.initializations = firstFacts (·.bufferId) (·.initialization) before) :
    facts.validateInitialization slot = .ok t ↔
      (∀ first, before.find? (·.bufferId == slot.bufferId) = some first →
        first.initialization = slot.initialization) ∧
      { facts with
        initializations := firstFacts (·.bufferId) (·.initialization) (before ++ [slot]) } = t := by
  rw [validateInitialization, hfacts, find?_firstFacts]
  cases hfind : before.find? (·.bufferId == slot.bufferId) with
  | some first =>
    rw [firstFacts_append_of_find? hfind, ← hfacts]
    by_cases heq : first.initialization = slot.initialization <;> simp [heq]
  | none =>
    rw [firstFacts_append_of_new hfind]
    simp

variable (before) in
theorem validateBufferIdentity_ok_iff
    (hfacts : facts.identities =
      firstFacts (·.bufferId) (fun slot => (slot.bufferName, slot.role)) before) :
    facts.validateBufferIdentity slot = .ok t ↔
      (∀ first, before.find? (·.bufferId == slot.bufferId) = some first →
        roleConflict first.role slot.role = false ∧ first.bufferName = slot.bufferName) ∧
      { facts with
        identities := firstFacts (·.bufferId) (fun slot => (slot.bufferName, slot.role))
          (before ++ [slot]) } = t := by
  rw [validateBufferIdentity, hfacts, find?_firstFacts]
  cases hfind : before.find? (·.bufferId == slot.bufferId) with
  | some first =>
    rw [firstFacts_append_of_find? hfind, ← hfacts]
    cases hrole : roleConflict first.role slot.role with
    | true => simp [hrole]
    | false => by_cases heq : first.bufferName = slot.bufferName <;> simp [hrole, heq]
  | none =>
    rw [firstFacts_append_of_new hfind]
    simp

/-- Where the slots walked agree pairwise, comparing with the first fact of the
    id and looking the value up among the first facts compares with all of them. -/
theorem validateSemanticIdentity_ok_iff
    (hfacts : facts.semanticValues = firstFacts (·.bufferId) (·.semanticValue) before)
    (hagree : ∀ a ∈ before, ∀ b ∈ before,
      a.bufferId = b.bufferId ↔ a.semanticValue = b.semanticValue) :
    facts.validateSemanticIdentity slot = .ok t ↔
      (slot.semanticValue ≠ 0 ∧
        ∀ b ∈ before, b.bufferId = slot.bufferId ↔ b.semanticValue = slot.semanticValue) ∧
      { facts with
        semanticValues := firstFacts (·.bufferId) (·.semanticValue) (before ++ [slot]) } = t := by
  rw [validateSemanticIdentity]
  by_cases hzero : slot.semanticValue = 0
  · simp [hzero]
  rw [if_neg hzero, hfacts, find?_firstFacts]
  cases hfind : before.find? (·.bufferId == slot.bufferId) with
  | some first =>
    obtain ⟨hmem, hid⟩ := find?_key hfind
    have hall : (∀ b ∈ before,
        b.bufferId = slot.bufferId ↔ b.semanticValue = slot.semanticValue) ↔
        first.semanticValue = slot.semanticValue := by
      constructor
      · exact fun h => (h first hmem).mp hid
      · intro hsem b hb
        rw [← hid, ← hsem, eq_comm, hagree first hmem b hb, eq_comm]
    rw [firstFacts_append_of_find? hfind, ← hfacts, hall]
    by_cases heq : first.semanticValue = slot.semanticValue <;> simp [hzero, heq]
  | none =>
    have hnew := find?_key_eq_none_iff.mp hfind
    have hall : (∀ b ∈ before,
        b.bufferId = slot.bufferId ↔ b.semanticValue = slot.semanticValue) ↔
        (firstFacts (·.bufferId) (·.semanticValue) before).find?
          (·.2 == slot.semanticValue) = none := by
      rw [List.find?_eq_none]
      constructor
      · rintro h ⟨k, v⟩ hmem
        obtain ⟨b, hb, rfl⟩ := mem_firstFacts.mp hmem
        have hmem := List.mem_of_find?_eq_some hb
        simpa using fun hsem => hnew b hmem ((h b hmem).mpr hsem)
      · intro h b hb
        refine ⟨fun hid => absurd hid (hnew b hb), fun hsem => ?_⟩
        -- the first slot of b's buffer carries b's value, and it is recorded
        obtain ⟨first, hfirst, hmem, hid⟩ := exists_find?_key (·.bufferId) hb
        have hvalue := (hagree first hmem b hb).mp hid
        have hrecorded := mem_firstFacts.mpr ⟨first, hfirst, hvalue⟩
        exact absurd hsem (by simpa using h _ hrecorded)
    rw [firstFacts_append_of_new hfind, hall]
    simp only [Option.map_none]
    cases halias : (firstFacts (·.bufferId) (·.semanticValue) before).find?
        (·.2 == slot.semanticValue) with
    | some entry => simp
    | none => simp [hzero]

variable (before) in
theorem recordPerStepAccess_eq
    (hinputs : facts.perStepInputs = firstKeys (·.bufferId) (before.filter isPerStepInput))
    (hwrites : facts.perStepWrites = firstKeys (·.bufferId) (before.filter isPerStepWrite)) :
    facts.recordPerStepAccess slot =
      { facts with
        perStepInputs := firstKeys (·.bufferId) ((before ++ [slot]).filter isPerStepInput)
        perStepWrites := firstKeys (·.bufferId) ((before ++ [slot]).filter isPerStepWrite) } := by
  obtain ⟨identities, semanticValues, lifetimes, initializations, inputs, writes⟩ := facts
  subst hinputs hwrites
  simp only [recordPerStepAccess, List.filter_append]
  by_cases hlifetime : slot.lifetime = .perStep
  · rw [if_pos hlifetime]
    cases hrole : slot.role with
    | input =>
      have hinput : [slot].filter isPerStepInput = [slot] := by
        simp [isPerStepInput, hlifetime, hrole]
      have hwrite : [slot].filter isPerStepWrite = [] := by simp [isPerStepWrite, hrole]
      rw [hinput, hwrite, firstKeys_append_singleton, List.append_nil]
      dsimp only
      split <;> rfl
    | output | inOut =>
      have hinput : [slot].filter isPerStepInput = [] := by simp [isPerStepInput, hrole]
      have hwrite : [slot].filter isPerStepWrite = [slot] := by
        simp [isPerStepWrite, hlifetime, hrole]
      rw [hinput, hwrite, firstKeys_append_singleton, List.append_nil]
      dsimp only
      split <;> rfl
  · have hinput : [slot].filter isPerStepInput = [] := by simp [isPerStepInput, hlifetime]
    have hwrite : [slot].filter isPerStepWrite = [] := by simp [isPerStepWrite, hlifetime]
    rw [hinput, hwrite, List.append_nil, List.append_nil, if_neg hlifetime]

theorem validateVersionMetadata_ok_iff {versions : List DescriptorBufferVersion} :
    validateVersionMetadata slot versions = .ok () ↔ MetadataFits versions slot := by
  unfold validateVersionMetadata MetadataFits
  cases hfind : versions.find? (·.key == slot.key) with
  | none => simp
  | some v =>
    by_cases hty : v.elementTy = slot.elementTy
    · by_cases hcount : v.elementCount = slot.elementCount
      · by_cases hshape : v.shape = slot.shape <;> simp [hty, hcount, hshape]
      · simp [hty, hcount]
    · simp [hty]

end DescriptorValidationFacts

/-! ## One slot, one kernel, all kernels -/

/-- The identity laws one slot adds, read against the first slot of its buffer,
    are the laws against every slot before it. -/
theorem sameBuffer_all_iff {before : List DescriptorBuffer} {slot : DescriptorBuffer}
    (hagree : ∀ a ∈ before, ∀ b ∈ before, SameBuffer a b) :
    (∀ b ∈ before, SameBuffer b slot) ↔
      (∀ b ∈ before, b.bufferId = slot.bufferId ↔ b.semanticValue = slot.semanticValue) ∧
      ∀ first, before.find? (·.bufferId == slot.bufferId) = some first →
        first.bufferName = slot.bufferName ∧ first.lifetime = slot.lifetime ∧
          first.initialization = slot.initialization := by
  constructor
  · intro h
    refine ⟨fun b hb => (h b hb).semantic, fun first hfirst => ?_⟩
    obtain ⟨hmem, hid⟩ := find?_key hfirst
    have hsame := h first hmem
    exact ⟨hsame.name hid, hsame.lifetime hid, hsame.initialization hid⟩
  · rintro ⟨hsemantic, hfirst⟩ b hb
    have hvia : b.bufferId = slot.bufferId → ∃ first, SameBuffer b first ∧
        b.bufferId = first.bufferId ∧ first.bufferName = slot.bufferName ∧
          first.lifetime = slot.lifetime ∧ first.initialization = slot.initialization := by
      intro hid
      obtain ⟨first, hfind, hmem, hfirstId⟩ := exists_find?_key (·.bufferId) hb
      rw [hid] at hfind
      exact ⟨first, hagree b hb first hmem, hfirstId.symm, hfirst first hfind⟩
    refine ⟨hsemantic b hb, fun hid => ?_, fun hid => ?_, fun hid => ?_⟩
    · obtain ⟨first, hsame, heq, hname, -, -⟩ := hvia hid
      rw [hsame.name heq, hname]
    · obtain ⟨first, hsame, heq, -, hlifetime, -⟩ := hvia hid
      rw [hsame.lifetime heq, hlifetime]
    · obtain ⟨first, hsame, heq, -, -, hinit⟩ := hvia hid
      rw [hsame.initialization heq, hinit]

theorem sameBuffer_of_eachAfter (versions : List DescriptorBufferVersion)
    {slots : List DescriptorBuffer} (h : EachAfter (SlotFits versions) [] slots) :
    ∀ a ∈ slots, ∀ b ∈ slots, SameBuffer a b :=
  (eachAfter_symm SameBuffer.refl (fun _ _ => SameBuffer.symm)).mp
    (eachAfter_mono (fun _ _ hfits => hfits.agrees) h)

theorem validateSlot_ok_iff {kernel : DescriptorKernel} {versions : List DescriptorBufferVersion}
    {before : List DescriptorBuffer} {bindings : List UInt32} {slot : DescriptorBuffer}
    {t : DescriptorValidationFacts × List UInt32}
    (hagree : ∀ a ∈ before, ∀ b ∈ before, SameBuffer a b) :
    DescriptorValidationFacts.validateSlot kernel versions (factsOf before, bindings) slot = .ok t ↔
      (SlotFits versions before slot ∧ slot.binding ∉ bindings) ∧
        (factsOf (before ++ [slot]), bindings ++ [slot.binding]) = t := by
  have hsemantic : ∀ a ∈ before, ∀ b ∈ before,
      a.bufferId = b.bufferId ↔ a.semanticValue = b.semanticValue :=
    fun a ha b hb => (hagree a ha b hb).semantic
  simp only [DescriptorValidationFacts.validateSlot]
  by_cases hcount : slot.elementCount = 0
  · rw [if_pos hcount]
    exact iff_of_false nofun (fun h => h.1.1.shape.count hcount)
  by_cases hversion : slot.version = 0
  · rw [if_neg hcount, if_pos hversion]
    exact iff_of_false nofun (fun h => h.1.1.shape.version hversion)
  by_cases hbinding : slot.binding ∈ bindings
  · rw [if_neg hcount, if_neg hversion, if_pos hbinding]
    exact iff_of_false nofun (fun h => h.1.2 hbinding)
  rw [if_neg hcount, if_neg hversion, if_neg hbinding,
    bind_ok_iff_of (fun _ => DescriptorValidationFacts.validateSemanticIdentity_ok_iff rfl hsemantic),
    bind_ok_iff_of (fun _ => DescriptorValidationFacts.validateBufferIdentity_ok_iff
      before rfl),
    DescriptorValidationFacts.recordPerStepAccess_eq before rfl rfl,
    bind_ok_iff_of (v := ()) (P := MetadataFits versions slot) (fun _ =>
      DescriptorValidationFacts.validateVersionMetadata_ok_iff.trans (by simp)),
    bind_ok_iff_of (fun _ => DescriptorValidationFacts.validateLifetime_ok_iff
      before rfl),
    bind_ok_iff_of (fun _ => DescriptorValidationFacts.validateInitialization_ok_iff
      before rfl)]
  constructor
  · rintro ⟨⟨hzero, hsem⟩, hidentity, hmetadata, hlifetime, hinit, hok⟩
    refine ⟨⟨⟨⟨hcount, hversion, hzero, hmetadata⟩, ?_, ?_⟩, hbinding⟩, Except.ok.inj hok⟩
    · refine (sameBuffer_all_iff hagree).mpr ⟨hsem, fun first hf => ?_⟩
      exact ⟨(hidentity first hf).2, hlifetime first hf, hinit first hf⟩
    · exact fun first hf => (hidentity first hf).1
  · rintro ⟨⟨⟨hshape, hagrees, hroles⟩, -⟩, rfl⟩
    obtain ⟨hsem, hfirst⟩ := (sameBuffer_all_iff hagree).mp hagrees
    exact ⟨⟨hshape.semantic, hsem⟩, fun first hf => ⟨hroles first hf, (hfirst first hf).1⟩,
      hshape.metadata, fun first hf => (hfirst first hf).2.1,
      fun first hf => (hfirst first hf).2.2, rfl⟩

namespace DeviceDescriptor

theorem checkKernel_ok_iff {versions : List DescriptorBufferVersion}
    {before : List DescriptorBuffer} {kernel : DescriptorKernel} {t : DescriptorValidationFacts}
    (hbefore : EachAfter (SlotFits versions) [] before) :
    checkKernel versions (factsOf before) kernel = .ok t ↔
      (KernelShape kernel ∧ EachAfter (SlotFits versions) before kernel.buffers) ∧
        factsOf (before ++ kernel.buffers) = t := by
  -- the inner walk remembers the facts of all slots and the bindings of this kernel
  have hwalk : ∀ state, kernel.buffers.foldlM
      (DescriptorValidationFacts.validateSlot kernel versions) (factsOf before, []) = .ok state ↔
      (EachAfter (SlotFits versions) before kernel.buffers ∧
        (kernel.buffers.map (·.binding)).Nodup) ∧
      (factsOf (before ++ kernel.buffers), kernel.buffers.map (·.binding)) = state := by
    intro state
    have hfold := foldlM_ok_iff (DescriptorValidationFacts.validateSlot kernel versions)
      (fun seen : List DescriptorBuffer => (factsOf (before ++ seen), seen.map (·.binding)))
      (fun seen slot => SlotFits versions (before ++ seen) slot ∧
        slot.binding ∉ seen.map (·.binding))
      [] kernel.buffers state ?_ trivial
    · simp only [List.append_nil, List.map_nil, List.nil_append] at hfold
      rw [hfold, eachAfter_and, eachAfter_shift (P := SlotFits versions), List.append_nil,
        eachAfter_notMem_map]
    · intro seen slot t hseen
      rw [eachAfter_and, eachAfter_shift (P := SlotFits versions), List.append_nil] at hseen
      rw [validateSlot_ok_iff (sameBuffer_of_eachAfter versions
        (eachAfter_append.mpr ⟨hbefore, by simpa using hseen.1⟩))]
      simp
  unfold checkKernel
  by_cases hentry : trimsToEmpty kernel.entry
  · rw [if_pos hentry]
    exact iff_of_false nofun (fun h => by simp [h.1.1.entry] at hentry)
  by_cases hbuffers : kernel.buffers.isEmpty
  · rw [if_neg hentry, if_pos hbuffers]
    exact iff_of_false nofun (fun h => h.1.1.buffers (List.isEmpty_iff.mp hbuffers))
  by_cases haxes : 0 ∈ kernel.grid.toList ∨ 0 ∈ kernel.block.toList
  · rw [if_neg hentry, if_neg hbuffers, if_pos haxes]
    exact iff_of_false nofun (fun h => haxes.elim h.1.1.grid h.1.1.block)
  rw [if_neg hentry, if_neg hbuffers, if_neg haxes, bind_ok_iff_of hwalk]
  push Not at haxes
  constructor
  · rintro ⟨⟨hslots, hnodup⟩, hok⟩
    exact ⟨⟨⟨by simpa using hentry, by simpa using hbuffers, haxes.1, haxes.2, hnodup⟩, hslots⟩,
      Except.ok.inj hok⟩
  · rintro ⟨⟨hshape, hslots⟩, rfl⟩
    exact ⟨⟨hslots, hshape.bindings⟩, rfl⟩

theorem validatedKernels_ok_iff {d : DeviceDescriptor} {versions : List DescriptorBufferVersion}
    {t : DescriptorValidationFacts} :
    d.validatedKernels versions = .ok t ↔
      ((∀ kernel ∈ d.kernels, KernelShape kernel) ∧ EachAfter (SlotFits versions) [] d.slots) ∧
        factsOf d.slots = t := by
  have hfold := foldlM_ok_iff (checkKernel versions)
    (fun kernels : List DescriptorKernel => factsOf (kernels.flatMap (·.buffers)))
    (fun seen kernel => KernelShape kernel ∧
      EachAfter (SlotFits versions) (seen.flatMap (·.buffers)) kernel.buffers)
    [] d.kernels t ?_ trivial
  · rw [eachAfter_and, eachAfter_const, eachAfter_flatMap] at hfold
    exact hfold
  · intro seen kernel t hseen
    rw [eachAfter_and, eachAfter_flatMap] at hseen
    rw [checkKernel_ok_iff hseen.2, List.flatMap_append, List.flatMap_singleton]

/-- The slot walk, without its order: only the roles are compared with the first
    slot of the buffer alone. -/
theorem eachAfter_slotFits_iff {versions : List DescriptorBufferVersion}
    {slots : List DescriptorBuffer} :
    EachAfter (SlotFits versions) [] slots ↔
      (∀ slot ∈ slots, SlotShape versions slot) ∧
      (∀ a ∈ slots, ∀ b ∈ slots, SameBuffer a b) ∧ FirstRolesFit slots := by
  have hroles := eachAfter_first slots (·.bufferId)
    (fun first slot => roleConflict first.role slot.role = false)
    (fun slot => roleConflict_self slot.role)
  rw [FirstRolesFit, ← hroles, ← eachAfter_symm SameBuffer.refl (fun _ _ => SameBuffer.symm),
    ← @eachAfter_const _ [] slots (SlotShape versions), ← eachAfter_and, ← eachAfter_and]
  constructor
  · exact eachAfter_mono (fun _ _ h => ⟨h.shape, h.agrees, h.firstRole⟩)
  · exact eachAfter_mono (fun _ _ h => ⟨h.1, h.2.1, h.2.2⟩)

end DeviceDescriptor

end FaberHosts.Descriptor
