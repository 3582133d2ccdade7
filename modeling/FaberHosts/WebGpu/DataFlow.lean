import FaberHosts.WebGpu.Chain
import FaberHosts.Lib.Scan
import Mathlib.Logic.Relation

/-!
# The data flow of a chain

A binding gets the intermediate of the last identity that touches its slot, or the caller's buffer
when none does.  The identities are carried by the buffers exactly when the last one is always the
right one.
-/

namespace FaberHosts.WebGpu
open FaberHosts.Lib

section Chains

variable {device : GpuDevice} {made : Nat} {externals : Nat → Option GpuBuffer}
  {descriptor : KernelChainDescriptor} {identities : List BufferIdentity}

/-! ## Slots -/

/-- The slot of a binding: its kernel and the position of its buffer. -/
def slotOf (descriptor : KernelChainDescriptor) (binding : KernelSlot) : Option KernelSlot :=
  (descriptor.chain[binding.1]?).bind (fun kernel =>
    (bufferIndexByBinding kernel binding.2).map (fun index => (binding.1, index)))

/-- The number under which the caller has the buffer of a binding. -/
def numberOf (descriptor : KernelChainDescriptor) (binding : KernelSlot) : Option Nat :=
  (descriptor.chain[binding.1]?).bind (fun kernel =>
    (storageBufferByBinding kernel binding.2).map (·.binding))

def Touches (descriptor : KernelChainDescriptor) (slot : KernelSlot) (identity : BufferIdentity) :
    Prop :=
  slotOf descriptor identity.producer = some slot ∨ slotOf descriptor identity.consumer = some slot

instance (slot : KernelSlot) (identity : BufferIdentity) :
    Decidable (Touches descriptor slot identity) := inferInstanceAs (Decidable (_ ∨ _))

/-- The producer of the last identity that touches a slot. -/
def lastProducer (descriptor : KernelChainDescriptor) (identities : List BufferIdentity)
    (slot : KernelSlot) : Option KernelSlot :=
  (identities.reverse.find? (Touches descriptor slot)).map (·.producer)

theorem lastProducer_concat (identity : BufferIdentity) (slot : KernelSlot) :
    lastProducer descriptor (identities ++ [identity]) slot =
      if Touches descriptor slot identity then some identity.producer
      else lastProducer descriptor identities slot := by
  unfold lastProducer
  rw [List.reverse_append, List.reverse_singleton, List.cons_append, List.nil_append,
    List.find?_cons]
  by_cases htouches : Touches descriptor slot identity <;> simp [htouches]

theorem exists_touching {slot key : KernelSlot}
    (h : lastProducer descriptor identities slot = some key) :
    ∃ identity ∈ identities, Touches descriptor slot identity ∧ identity.producer = key := by
  obtain ⟨identity, hfound, hkey⟩ := Option.map_eq_some_iff.mp h
  exact ⟨identity, List.mem_reverse.mp (List.mem_of_find?_eq_some hfound),
    by simpa using List.find?_some hfound, hkey⟩

theorem lastProducer_of_touches {slot : KernelSlot} {identity : BufferIdentity}
    (hmem : identity ∈ identities) (htouches : Touches descriptor slot identity) :
    ∃ key, lastProducer descriptor identities slot = some key := by
  cases hlast : lastProducer descriptor identities slot with
  | some key => exact ⟨key, rfl⟩
  | none =>
    have := List.find?_eq_none.mp (Option.map_eq_none_iff.mp hlast) identity
      (List.mem_reverse.mpr hmem)
    simp [htouches] at this

/-! ## The two passes over the identities -/

/-- The intermediates after the first pass has walked `seen`. -/
structure Allocated (descriptor : KernelChainDescriptor) (made : Nat)
    (seen : List BufferIdentity) (intermediates : Intermediates) : Prop where
  present : ∀ identity ∈ seen, identity.outputKernelIndex < descriptor.chain.length →
    (intermediates.buffers.lookup identity.producer).isSome
  fresh : ∀ key buffer, intermediates.buffers.lookup key = some buffer →
    made ≤ buffer.id ∧ buffer.id < intermediates.made
  apart : ∀ key key' buffer, intermediates.buffers.lookup key = some buffer →
    intermediates.buffers.lookup key' = some buffer → key = key'
  later : made ≤ intermediates.made

theorem allocated_step {seen : List BufferIdentity} {identity : BufferIdentity}
    {intermediates next : Intermediates} (h : Allocated descriptor made seen intermediates)
    (hstep : allocateIntermediate device descriptor intermediates identity = .ok next) :
    Allocated descriptor made (seen ++ [identity]) next := by
  unfold allocateIntermediate at hstep
  split at hstep
  · next hnone =>
    cases hstep
    refine { h with present := ?_ }
    intro other hother hkernel
    rcases List.mem_append.mp hother with hseen | hlast
    · exact h.present other hseen hkernel
    · rw [List.mem_singleton.mp hlast] at hkernel
      rw [List.getElem?_eq_none_iff] at hnone
      omega
  · split at hstep
    · cases hstep
    · split at hstep
      · next hsome =>
        cases hstep
        refine { h with present := ?_ }
        intro other hother hkernel
        rcases List.mem_append.mp hother with hseen | hlast
        · exact h.present other hseen hkernel
        · rw [List.mem_singleton.mp hlast]
          exact hsome
      · next hnew =>
        obtain ⟨buffer, hbuffer, hnext⟩ := bind_ok_iff.mp hstep
        cases hnext
        have hid : buffer.id = intermediates.made := by
          unfold GpuDevice.createBuffer at hbuffer
          split at hbuffer
          · rw [← Except.ok.inj hbuffer]
          · cases hbuffer
        have hlookup : ∀ key, List.lookup key ((identity.producer, buffer) ::
            intermediates.buffers) = if key = identity.producer then some buffer
              else intermediates.buffers.lookup key := by
          intro key
          rw [List.lookup_cons]
          by_cases hkey : key = identity.producer
          · simp [hkey]
          · rw [beq_false_of_ne hkey, if_neg hkey]
        have hlater := h.later
        refine ⟨?_, ?_, ?_, by show made ≤ intermediates.made + 1; omega⟩
        · intro other hother hkernel
          show (List.lookup other.producer (_ :: _)).isSome
          rw [hlookup]
          split
          · rfl
          · next hkey =>
            rcases List.mem_append.mp hother with hseen | hlast
            · exact h.present other hseen hkernel
            · rw [List.mem_singleton.mp hlast] at hkey
              exact (hkey rfl).elim
        · intro key found hfound
          change List.lookup key (_ :: _) = _ at hfound
          rw [hlookup] at hfound
          show made ≤ found.id ∧ found.id < intermediates.made + 1
          split at hfound
          · cases hfound
            omega
          · have := h.fresh key found hfound
            omega
        · intro key key' found hfound hfound'
          change List.lookup key (_ :: _) = _ at hfound
          change List.lookup key' (_ :: _) = _ at hfound'
          rw [hlookup] at hfound hfound'
          split at hfound <;> split at hfound'
          · next hkey hkey' => rw [hkey, hkey']
          · cases hfound
            have := (h.fresh key' _ hfound').2
            omega
          · cases hfound'
            have := (h.fresh key _ hfound).2
            omega
          · exact h.apart key key' found hfound hfound'

theorem allocated_of_run {intermediates : Intermediates}
    (h : descriptor.bufferIdentities.foldlM (allocateIntermediate device descriptor) ⟨[], made⟩ =
      .ok intermediates) :
    Allocated descriptor made descriptor.bufferIdentities intermediates := by
  have hnone : Allocated descriptor made [] ⟨[], made⟩ :=
    ⟨nofun, fun _ _ hlookup => (nomatch hlookup), fun _ _ _ hlookup => (nomatch hlookup),
      le_refl _⟩
  simpa using foldlM_preserves (fun _ _ _ _ _ => allocated_step) hnone h

/-- The kernels of every identity are there. -/
def KernelsExist (descriptor : KernelChainDescriptor) : Prop :=
  ∀ identity ∈ descriptor.bufferIdentities,
    identity.outputKernelIndex < descriptor.chain.length ∧
      identity.inputKernelIndex < descriptor.chain.length

/-- The slots after the second pass has walked `seen`. -/
structure Mapped (descriptor : KernelChainDescriptor) (intermediates : Intermediates)
    (seen : List BufferIdentity) (slots : ChainedSlots) : Prop where
  lookup : ∀ slot, slots.lookup slot =
    (lastProducer descriptor seen slot).bind (intermediates.buffers.lookup ·)
  slots : ∀ identity ∈ seen, (slotOf descriptor identity.producer).isSome ∧
    (slotOf descriptor identity.consumer).isSome

theorem mapped_step {seen : List BufferIdentity} {identity : BufferIdentity}
    {intermediates : Intermediates} {slots next : ChainedSlots}
    (hpresent : (intermediates.buffers.lookup identity.producer).isSome)
    (hkernels : identity.outputKernelIndex < descriptor.chain.length ∧
      identity.inputKernelIndex < descriptor.chain.length)
    (h : Mapped descriptor intermediates seen slots)
    (hstep : mapIdentity descriptor intermediates slots identity = .ok next) :
    Mapped descriptor intermediates (seen ++ [identity]) next := by
  obtain ⟨buffer, hbuffer⟩ := Option.isSome_iff_exists.mp hpresent
  have hproducer := List.getElem?_eq_getElem hkernels.1
  have hconsumer := List.getElem?_eq_getElem hkernels.2
  unfold mapIdentity at hstep
  simp only [hbuffer, hproducer, hconsumer] at hstep
  split at hstep
  · cases hstep
  · next producerIndex hproducerIndex =>
    split at hstep
    · cases hstep
    · next consumerIndex hconsumerIndex =>
      cases hstep
      have hout : slotOf descriptor identity.producer =
          some (identity.outputKernelIndex, producerIndex) := by
        simp [slotOf, BufferIdentity.producer, hproducer, hproducerIndex]
      have hin : slotOf descriptor identity.consumer =
          some (identity.inputKernelIndex, consumerIndex) := by
        simp [slotOf, BufferIdentity.consumer, hconsumer, hconsumerIndex]
      constructor
      · intro slot
        rw [lastProducer_concat, List.lookup_cons, List.lookup_cons, h.lookup slot]
        have htouches : Touches descriptor slot identity ↔
            (identity.outputKernelIndex, producerIndex) = slot ∨
              (identity.inputKernelIndex, consumerIndex) = slot := by
          unfold Touches
          rw [hout, hin, Option.some.injEq, Option.some.injEq]
        by_cases hconsumerSlot : slot = (identity.inputKernelIndex, consumerIndex)
        · rw [if_pos (htouches.mpr (.inr hconsumerSlot.symm))]
          simp [hconsumerSlot, hbuffer]
        · by_cases hproducerSlot : slot = (identity.outputKernelIndex, producerIndex)
          · rw [if_pos (htouches.mpr (.inl hproducerSlot.symm))]
            rw [beq_false_of_ne hconsumerSlot]
            simp [hproducerSlot, hbuffer]
          · rw [if_neg, beq_false_of_ne hconsumerSlot, beq_false_of_ne hproducerSlot]
            rw [htouches]
            rintro (heq | heq)
            · exact hproducerSlot heq.symm
            · exact hconsumerSlot heq.symm
      · intro other hother
        rcases List.mem_append.mp hother with hseen | hlast
        · exact h.slots other hseen
        · rw [List.mem_singleton.mp hlast, hout, hin]
          exact ⟨rfl, rfl⟩

theorem mapped_of_run {intermediates : Intermediates} {slots : ChainedSlots}
    (hallocated : Allocated descriptor made descriptor.bufferIdentities intermediates)
    (hkernels : KernelsExist descriptor)
    (h : descriptor.bufferIdentities.foldlM (mapIdentity descriptor intermediates) [] =
      .ok slots) : Mapped descriptor intermediates descriptor.bufferIdentities slots := by
  have hnone : Mapped descriptor intermediates [] [] := ⟨fun _ => rfl, nofun⟩
  simpa using foldlM_preserves (fun _ _ identity hmem _ =>
    mapped_step (hallocated.present identity hmem (hkernels identity hmem).1)
      (hkernels identity hmem)) hnone h

/-! ## The bind groups -/

/-- The buffer that a binding of the chain is bound to. -/
def boundTo (chain : List ChainEntry) (binding : KernelSlot) : Option GpuBuffer :=
  (chain[binding.1]?).bind (fun entry =>
    ((entry.bindGroups.flatMap Prod.snd).find? (·.binding = binding.2)).map (·.buffer))

/-- No kernel has two layout entries of one binding number. -/
def UniqueBindings (descriptor : KernelChainDescriptor) : Prop :=
  ∀ kernel ∈ descriptor.chain, (kernel.bindGroupLayout.map (·.binding)).Nodup

theorem mem_pushEntry {groups : List (Nat × List ChainBinding)} {entry : Nat × ChainBinding}
    {binding : ChainBinding} : binding ∈ (pushEntry groups entry).flatMap Prod.snd ↔
      binding ∈ groups.flatMap Prod.snd ∨ binding = entry.2 := by
  induction groups with
  | nil => simp [pushEntry]
  | cons first rest ih =>
    obtain ⟨group, entries⟩ := first
    unfold pushEntry
    split
    · simp only [List.flatMap_cons, List.mem_append, List.mem_singleton]
      tauto
    · simp only [List.flatMap_cons, List.mem_append, ih]
      tauto

theorem mem_foldl_pushEntry {entries : List (Nat × ChainBinding)}
    {groups : List (Nat × List ChainBinding)} {binding : ChainBinding} :
    binding ∈ (entries.foldl pushEntry groups).flatMap Prod.snd ↔
      binding ∈ groups.flatMap Prod.snd ∨ binding ∈ entries.map Prod.snd := by
  induction entries generalizing groups with
  | nil => simp
  | cons entry rest ih =>
    rw [List.foldl_cons, ih, mem_pushEntry]
    simp only [List.map_cons, List.mem_cons]
    tauto

theorem resolveBinding_eq {slots : ChainedSlots} {kernelIndex : Nat} {kernel : ChainKernel}
    {layout : LayoutBinding} {entry : Nat × ChainBinding}
    (h : resolveBinding slots externals kernelIndex kernel layout = .ok entry) :
    ∃ decl buffer, kernel.storageBuffers[layout.bufferIndex]? = some decl ∧
      (slots.lookup (kernelIndex, layout.bufferIndex)).or (externals decl.binding) = some buffer ∧
      entry.2 = ⟨layout.binding, buffer⟩ := by
  unfold resolveBinding at h
  split at h
  · cases h
  · next decl hdecl =>
    split at h
    · cases h
    · next buffer hbuffer =>
      cases h
      exact ⟨decl, buffer, hdecl, hbuffer, rfl⟩

theorem bufferIndexByBinding_eq {kernel : ChainKernel}
    (hunique : (kernel.bindGroupLayout.map (·.binding)).Nodup) {layout : LayoutBinding}
    (hlayout : layout ∈ kernel.bindGroupLayout) :
    bufferIndexByBinding kernel layout.binding = some layout.bufferIndex := by
  unfold bufferIndexByBinding
  cases hfound : kernel.bindGroupLayout.find? (·.binding = layout.binding) with
  | none =>
    have := List.find?_eq_none.mp hfound layout hlayout
    simp at this
  | some other =>
    have hsame : other.binding = layout.binding := by simpa using List.find?_some hfound
    have := List.inj_on_of_nodup_map hunique (List.mem_of_find?_eq_some hfound) hlayout hsame
    rw [this]
    rfl

theorem exists_layout {kernel : ChainKernel} {binding index : Nat}
    (h : bufferIndexByBinding kernel binding = some index) :
    ∃ layout ∈ kernel.bindGroupLayout, layout.binding = binding ∧ layout.bufferIndex = index := by
  obtain ⟨layout, hfound, hindex⟩ := Option.map_eq_some_iff.mp h
  exact ⟨layout, List.mem_of_find?_eq_some hfound, by simpa using List.find?_some hfound, hindex⟩

theorem buildEntry_eq {slots : ChainedSlots} {kernel : ChainKernel × Nat} {entry : ChainEntry}
    (h : buildEntry slots externals kernel = .ok entry) : ∃ entries,
      List.Forall₂ (fun layout bound => resolveBinding slots externals kernel.2 kernel.1 layout =
        .ok bound) kernel.1.bindGroupLayout entries ∧
      entry.bindGroups = entries.foldl pushEntry [] := by
  obtain ⟨entries, hentries, h⟩ := bind_ok_iff.mp h
  obtain ⟨outputs, houtputs, h⟩ := bind_ok_iff.mp h
  cases h
  exact ⟨entries, forall₂_of_mapM_ok hentries, rfl⟩

/-- The passes of a chain that is submitted. -/
structure Issued (device : GpuDevice) (made : Nat) (externals : Nat → Option GpuBuffer)
    (descriptor : KernelChainDescriptor) (intermediates : Intermediates) (slots : ChainedSlots)
    (chain : List ChainEntry) : Prop where
  allocated : descriptor.bufferIdentities.foldlM (allocateIntermediate device descriptor)
    ⟨[], made⟩ = .ok intermediates
  mapped : descriptor.bufferIdentities.foldlM (mapIdentity descriptor intermediates) [] = .ok slots
  built : List.Forall₂ (fun kernel entry => buildEntry slots externals kernel = .ok entry)
    descriptor.chain.zipIdx chain

theorem runKernelChain_eq {chain submitted : List ChainEntry}
    (h : runKernelChain device externals chain = .ok submitted) : submitted = chain := by
  unfold runKernelChain at h
  dsimp only at h
  split at h
  · cases h
  · obtain ⟨_, _, h⟩ := bind_ok_iff.mp h
    obtain ⟨_, _, h⟩ := bind_ok_iff.mp h
    exact (Except.ok.inj h).symm

theorem issued_of_dispatch {chain : List ChainEntry}
    (h : dispatchChainFromDescriptor device made externals descriptor = .ok chain) :
    ∃ intermediates slots, Issued device made externals descriptor intermediates slots chain := by
  unfold dispatchChainFromDescriptor at h
  dsimp only at h
  split at h
  · cases h
  · obtain ⟨intermediates, hallocated, h⟩ := bind_ok_iff.mp h
    obtain ⟨slots, hmapped, h⟩ := bind_ok_iff.mp h
    obtain ⟨built, hbuilt, h⟩ := bind_ok_iff.mp h
    rw [runKernelChain_eq h]
    exact ⟨intermediates, slots, hallocated, hmapped, forall₂_of_mapM_ok hbuilt⟩

theorem boundTo_eq {intermediates : Intermediates} {slots : ChainedSlots} {chain : List ChainEntry}
    (hunique : UniqueBindings descriptor)
    (h : Issued device made externals descriptor intermediates slots chain)
    (binding : KernelSlot) :
    boundTo chain binding = (slotOf descriptor binding).bind (fun slot =>
      (slots.lookup slot).or ((numberOf descriptor binding).bind externals)) := by
  obtain ⟨kernelIndex, number⟩ := binding
  unfold boundTo slotOf numberOf
  dsimp only
  rcases getElem?_of_forall₂ h.built kernelIndex with ⟨hnone, hchain⟩ |
    ⟨⟨kernel, position⟩, entry, hkernel, hchain, hbuilt⟩
  · rw [List.getElem?_zipIdx, Option.map_eq_none_iff] at hnone
    simp [hnone, hchain]
  · rw [List.getElem?_zipIdx, Option.map_eq_some_iff] at hkernel
    obtain ⟨found, hkernel, heq⟩ := hkernel
    simp only [Nat.zero_add, Prod.mk.injEq] at heq
    obtain ⟨rfl, rfl⟩ := heq
    obtain ⟨entries, hentries, hgroups⟩ := buildEntry_eq hbuilt
    have hnodup := hunique found (List.mem_of_getElem? hkernel)
    have hmem : ∀ bound, bound ∈ entry.bindGroups.flatMap Prod.snd ↔
        bound ∈ entries.map Prod.snd := by
      intro bound
      rw [hgroups, mem_foldl_pushEntry]
      simp
    -- the bindings of the groups are those of the layout
    have hfrom : ∀ bound ∈ entry.bindGroups.flatMap Prod.snd, ∃ layout ∈ found.bindGroupLayout,
        ∃ decl, found.storageBuffers[layout.bufferIndex]? = some decl ∧
          (slots.lookup (kernelIndex, layout.bufferIndex)).or (externals decl.binding) =
            some bound.buffer ∧ bound.binding = layout.binding := by
      intro bound hbound
      obtain ⟨pair, hpair, rfl⟩ := List.mem_map.mp ((hmem bound).mp hbound)
      obtain ⟨layout, hlayout, hresolved⟩ := exists_left_of_forall₂ hentries pair hpair
      obtain ⟨decl, buffer, hdecl, hbuffer, heq⟩ := resolveBinding_eq hresolved
      rw [heq]
      exact ⟨layout, hlayout, decl, hdecl, hbuffer, rfl⟩
    simp only [hkernel, hchain, Option.bind_some]
    cases hindex : bufferIndexByBinding found number with
    | none =>
      have hmissing : (entry.bindGroups.flatMap Prod.snd).find? (·.binding = number) = none := by
        refine List.find?_eq_none.mpr (fun bound hbound => ?_)
        obtain ⟨layout, hlayout, -, -, -, hbinding⟩ := hfrom bound hbound
        have := bufferIndexByBinding_eq hnodup hlayout
        simp only [decide_eq_true_eq]
        rintro rfl
        rw [hbinding, this] at hindex
        cases hindex
      rw [hmissing]
      rfl
    | some index =>
      obtain ⟨layout, hlayout, hbinding, rfl⟩ := exists_layout hindex
      obtain ⟨pair, hpair, hresolved⟩ := exists_right_of_forall₂ hentries layout hlayout
      obtain ⟨decl, buffer, hdecl, hbuffer, heq⟩ := resolveBinding_eq hresolved
      have hin : pair.2 ∈ entry.bindGroups.flatMap Prod.snd :=
        (hmem pair.2).mpr (List.mem_map_of_mem hpair)
      cases hfound : (entry.bindGroups.flatMap Prod.snd).find? (·.binding = number) with
      | none =>
        have := List.find?_eq_none.mp hfound pair.2 hin
        simp [heq, hbinding] at this
      | some bound =>
        have hsame : bound.binding = number := by simpa using List.find?_some hfound
        obtain ⟨other, hother, otherDecl, hotherDecl, hotherBuffer, hotherBinding⟩ :=
          hfrom bound (List.mem_of_find?_eq_some hfound)
        have hlayouts : other = layout := List.inj_on_of_nodup_map hnodup hother hlayout
          (by rw [← hotherBinding, hsame, hbinding])
        subst hlayouts
        rw [hdecl] at hotherDecl
        cases hotherDecl
        simp [storageBufferByBinding, hindex, hdecl, hotherBuffer]

theorem bound_of_slot {intermediates : Intermediates} {slots : ChainedSlots}
    {chain : List ChainEntry} (hunique : UniqueBindings descriptor)
    (h : Issued device made externals descriptor intermediates slots chain)
    {binding slot : KernelSlot} (hslot : slotOf descriptor binding = some slot) :
    ∃ buffer, boundTo chain binding = some buffer := by
  rw [boundTo_eq hunique h, hslot, Option.bind_some]
  obtain ⟨kernel, hkernel, hmap⟩ := Option.bind_eq_some_iff.mp hslot
  obtain ⟨index, hindex, rfl⟩ := Option.map_eq_some_iff.mp hmap
  rcases getElem?_of_forall₂ h.built binding.1 with ⟨hnone, -⟩ |
    ⟨⟨found, position⟩, entry, hfound, -, hbuilt⟩
  · rw [List.getElem?_zipIdx, hkernel] at hnone
    cases hnone
  · rw [List.getElem?_zipIdx, hkernel] at hfound
    cases hfound
    obtain ⟨entries, hentries, -⟩ := buildEntry_eq hbuilt
    obtain ⟨layout, hlayout, hbinding, rfl⟩ := exists_layout hindex
    obtain ⟨pair, -, hresolved⟩ := exists_right_of_forall₂ hentries layout hlayout
    obtain ⟨decl, buffer, hdecl, hbuffer, -⟩ := resolveBinding_eq hresolved
    have hnumber : numberOf descriptor binding = some decl.binding := by
      simp [numberOf, hkernel, storageBufferByBinding, hindex, hdecl]
    rw [hnumber]
    simp only [Nat.zero_add] at hbuffer
    exact ⟨buffer, hbuffer⟩

/-! ## Data flow -/

/-- An identity says that its two bindings are one buffer. -/
def Identified (descriptor : KernelChainDescriptor) (p q : KernelSlot) : Prop :=
  ∃ identity ∈ descriptor.bufferIdentities, identity.producer = p ∧ identity.consumer = q

/-- Two bindings are connected by a chain of identities. -/
def Connected (descriptor : KernelChainDescriptor) : KernelSlot → KernelSlot → Prop :=
  Relation.EqvGen (Identified descriptor)

/-- An identity names the binding. -/
def Named (descriptor : KernelChainDescriptor) (p : KernelSlot) : Prop :=
  ∃ identity ∈ descriptor.bufferIdentities, identity.producer = p ∨ identity.consumer = p

/-- Two bindings of the caller's buffer under one number. -/
def SameExternal (descriptor : KernelChainDescriptor) (p q : KernelSlot) : Prop :=
  ¬ Named descriptor p ∧ ¬ Named descriptor q ∧ numberOf descriptor p = numberOf descriptor q

/-- The chain binds both ends of an identity to one buffer, and other bindings apart. -/
structure CarriesDataFlow (descriptor : KernelChainDescriptor) (chain : List ChainEntry) : Prop where
  carried : ∀ identity ∈ descriptor.bufferIdentities, ∃ buffer,
    boundTo chain identity.producer = some buffer ∧ boundTo chain identity.consumer = some buffer
  separate : ∀ p q buffer, p ≠ q → boundTo chain p = some buffer → boundTo chain q = some buffer →
    Connected descriptor p q ∨ SameExternal descriptor p q

/-- The producer whose intermediate a binding gets. -/
def producerOf (descriptor : KernelChainDescriptor) (p : KernelSlot) : Option KernelSlot :=
  (slotOf descriptor p).bind (lastProducer descriptor descriptor.bufferIdentities)

/-- The number of a binding whose slot no identity touches. -/
def externalNumber (descriptor : KernelChainDescriptor) (p : KernelSlot) : Option Nat :=
  if producerOf descriptor p = none then numberOf descriptor p else none

/-- Identities between existing kernels, whose ends are last touched by identities of one producer;
    bindings that share a slot with a named one are connected with it; and the caller's buffers
    under different numbers are different. -/
structure Consistent (externals : Nat → Option GpuBuffer) (descriptor : KernelChainDescriptor) :
    Prop where
  kernels : KernelsExist descriptor
  producers : ∀ identity ∈ descriptor.bufferIdentities,
    producerOf descriptor identity.producer = producerOf descriptor identity.consumer
  aliases : ∀ p q slot, Named descriptor p → slotOf descriptor p = some slot →
    slotOf descriptor q = some slot → Connected descriptor p q
  externals : ∀ p q n m buffer, externalNumber descriptor p = some n →
    externalNumber descriptor q = some m → externals n = some buffer →
    externals m = some buffer → n = m

theorem connected_named {p q : KernelSlot} (h : Connected descriptor p q) :
    p = q ∨ (Named descriptor p ∧ Named descriptor q) := by
  induction h with
  | rel p q hrel =>
    obtain ⟨identity, hmem, hp, hq⟩ := hrel
    exact .inr ⟨⟨identity, hmem, .inl hp⟩, ⟨identity, hmem, .inr hq⟩⟩
  | refl p => exact .inl rfl
  | symm p q _ ih => exact ih.imp Eq.symm And.symm
  | trans p q r _ _ ihpq ihqr =>
    rcases ihpq with rfl | ⟨hp, hq⟩
    · exact ihqr
    · rcases ihqr with rfl | ⟨-, hr⟩
      · exact .inr ⟨hp, hq⟩
      · exact .inr ⟨hp, hr⟩

section Equivalence

variable {intermediates : Intermediates} {slots : ChainedSlots} {chain : List ChainEntry}

theorem bound_producer (hunique : UniqueBindings descriptor)
    (h : Issued device made externals descriptor intermediates slots chain)
    (hkernels : KernelsExist descriptor) {p key : KernelSlot}
    (hkey : producerOf descriptor p = some key) :
    ∃ buffer, intermediates.buffers.lookup key = some buffer ∧ boundTo chain p = some buffer := by
  have hallocated := allocated_of_run h.allocated
  have hmapped := mapped_of_run hallocated hkernels h.mapped
  obtain ⟨slot, hslot, hlast⟩ := Option.bind_eq_some_iff.mp hkey
  obtain ⟨identity, hmem, -, rfl⟩ := exists_touching hlast
  obtain ⟨buffer, hbuffer⟩ := Option.isSome_iff_exists.mp
    (hallocated.present identity hmem (hkernels identity hmem).1)
  refine ⟨buffer, hbuffer, ?_⟩
  rw [boundTo_eq hunique h, hslot, Option.bind_some, hmapped.lookup, hlast, Option.bind_some,
    hbuffer]
  rfl

theorem bound_external (hunique : UniqueBindings descriptor)
    (h : Issued device made externals descriptor intermediates slots chain)
    (hkernels : KernelsExist descriptor) {p : KernelSlot} {buffer : GpuBuffer}
    (hnone : producerOf descriptor p = none) (hbound : boundTo chain p = some buffer) :
    ∃ number, externalNumber descriptor p = some number ∧ externals number = some buffer := by
  have hmapped := mapped_of_run (allocated_of_run h.allocated) hkernels h.mapped
  rw [boundTo_eq hunique h] at hbound
  obtain ⟨slot, hslot, hbuffer⟩ := Option.bind_eq_some_iff.mp hbound
  have hlast : lastProducer descriptor descriptor.bufferIdentities slot = none := by
    unfold producerOf at hnone
    rwa [hslot] at hnone
  rw [hmapped.lookup, hlast] at hbuffer
  obtain ⟨number, hnumber, hexternal⟩ := Option.bind_eq_some_iff.mp hbuffer
  exact ⟨number, by rw [externalNumber, if_pos hnone, hnumber], hexternal⟩

theorem producer_of_named
    (h : Issued device made externals descriptor intermediates slots chain)
    (hkernels : KernelsExist descriptor) {p : KernelSlot} (hnamed : Named descriptor p) :
    ∃ slot key, slotOf descriptor p = some slot ∧ producerOf descriptor p = some key := by
  have hmapped := mapped_of_run (allocated_of_run h.allocated) hkernels h.mapped
  obtain ⟨identity, hmem, hend⟩ := hnamed
  have hslots := hmapped.slots identity hmem
  obtain ⟨slot, hslot⟩ : ∃ slot, slotOf descriptor p = some slot := by
    rcases hend with rfl | rfl
    · exact Option.isSome_iff_exists.mp hslots.1
    · exact Option.isSome_iff_exists.mp hslots.2
  have htouches : Touches descriptor slot identity := by
    rcases hend with rfl | rfl
    · exact .inl hslot
    · exact .inr hslot
  obtain ⟨key, hkey⟩ := lastProducer_of_touches hmem htouches
  exact ⟨slot, key, hslot, by rw [producerOf, hslot, Option.bind_some, hkey]⟩

theorem connected_producer (hconsistent : Consistent externals descriptor) {p key : KernelSlot}
    (hkey : producerOf descriptor p = some key) : Connected descriptor key p := by
  obtain ⟨slot, hslot, hlast⟩ := Option.bind_eq_some_iff.mp hkey
  obtain ⟨identity, hmem, htouches, rfl⟩ := exists_touching hlast
  rcases htouches with hproducer | hconsumer
  · exact hconsistent.aliases identity.producer p slot ⟨identity, hmem, .inl rfl⟩ hproducer hslot
  · have hend := hconsistent.aliases identity.consumer p slot ⟨identity, hmem, .inr rfl⟩
      hconsumer hslot
    exact .trans _ _ _ (.rel _ _ ⟨identity, hmem, rfl, rfl⟩) hend

theorem carries_of_consistent (hunique : UniqueBindings descriptor)
    (hold : ∀ number buffer, externals number = some buffer → buffer.id < made)
    (h : Issued device made externals descriptor intermediates slots chain)
    (hconsistent : Consistent externals descriptor) : CarriesDataFlow descriptor chain := by
  have hkernels := hconsistent.kernels
  have hallocated := allocated_of_run h.allocated
  have hexternal : ∀ p buffer, producerOf descriptor p = none → boundTo chain p = some buffer →
      buffer.id < made := by
    intro p buffer hnone hbound
    obtain ⟨number, -, hbuffer⟩ := bound_external hunique h hkernels hnone hbound
    exact hold number buffer hbuffer
  constructor
  · intro identity hmem
    obtain ⟨-, key, -, hkey⟩ := producer_of_named h hkernels ⟨identity, hmem, .inl rfl⟩
    obtain ⟨buffer, hbuffer, hbound⟩ := bound_producer hunique h hkernels hkey
    rw [hconsistent.producers identity hmem] at hkey
    obtain ⟨other, hother, hbound'⟩ := bound_producer hunique h hkernels hkey
    rw [hbuffer] at hother
    cases hother
    exact ⟨buffer, hbound, hbound'⟩
  · intro p q buffer hne hp hq
    cases hproducer : producerOf descriptor p with
    | some key =>
      obtain ⟨found, hfound, hbound⟩ := bound_producer hunique h hkernels hproducer
      rw [hp] at hbound
      cases hbound
      cases hproducer' : producerOf descriptor q with
      | some key' =>
        obtain ⟨found', hfound', hbound'⟩ := bound_producer hunique h hkernels hproducer'
        rw [hq] at hbound'
        cases hbound'
        have hsame := hallocated.apart key key' buffer hfound hfound'
        subst hsame
        exact .inl (.trans _ _ _ (.symm _ _ (connected_producer hconsistent hproducer))
          (connected_producer hconsistent hproducer'))
      | none =>
        have := hexternal q buffer hproducer' hq
        have := (hallocated.fresh key buffer hfound).1
        omega
    | none =>
      cases hproducer' : producerOf descriptor q with
      | some key' =>
        obtain ⟨found', hfound', hbound'⟩ := bound_producer hunique h hkernels hproducer'
        rw [hq] at hbound'
        cases hbound'
        have := hexternal p buffer hproducer hp
        have := (hallocated.fresh key' buffer hfound').1
        omega
      | none =>
        obtain ⟨n, hn, hbuffer⟩ := bound_external hunique h hkernels hproducer hp
        obtain ⟨m, hm, hbuffer'⟩ := bound_external hunique h hkernels hproducer' hq
        have hsame := hconsistent.externals p q n m buffer hn hm hbuffer hbuffer'
        have hunnamed : ∀ r, producerOf descriptor r = none → ¬ Named descriptor r := by
          intro r hnone hnamed
          obtain ⟨-, key, -, hkey⟩ := producer_of_named h hkernels hnamed
          rw [hnone] at hkey
          cases hkey
        refine .inr ⟨hunnamed p hproducer, hunnamed q hproducer', ?_⟩
        rw [externalNumber, if_pos hproducer] at hn
        rw [externalNumber, if_pos hproducer'] at hm
        rw [hn, hm, hsame]

theorem consistent_of_carries (hunique : UniqueBindings descriptor)
    (h : Issued device made externals descriptor intermediates slots chain)
    (hcarries : CarriesDataFlow descriptor chain) : Consistent externals descriptor := by
  have hexists : ∀ (p : KernelSlot) buffer, boundTo chain p = some buffer →
      p.1 < descriptor.chain.length := by
    intro p buffer hbound
    rw [boundTo_eq hunique h] at hbound
    obtain ⟨slot, hslot, -⟩ := Option.bind_eq_some_iff.mp hbound
    obtain ⟨kernel, hkernel, -⟩ := Option.bind_eq_some_iff.mp hslot
    exact (List.getElem?_eq_some_iff.mp hkernel).1
  have hkernels : KernelsExist descriptor := by
    intro identity hmem
    obtain ⟨buffer, hproducer, hconsumer⟩ := hcarries.carried identity hmem
    exact ⟨hexists _ buffer hproducer, hexists _ buffer hconsumer⟩
  have hallocated := allocated_of_run h.allocated
  refine ⟨hkernels, ?_, ?_, ?_⟩
  · intro identity hmem
    obtain ⟨-, key, -, hkey⟩ := producer_of_named h hkernels ⟨identity, hmem, .inl rfl⟩
    obtain ⟨-, key', -, hkey'⟩ := producer_of_named h hkernels ⟨identity, hmem, .inr rfl⟩
    obtain ⟨buffer, hbuffer, hbound⟩ := bound_producer hunique h hkernels hkey
    obtain ⟨buffer', hbuffer', hbound'⟩ := bound_producer hunique h hkernels hkey'
    obtain ⟨carried, hcarried, hcarried'⟩ := hcarries.carried identity hmem
    rw [hbound] at hcarried
    rw [hbound'] at hcarried'
    cases hcarried
    cases hcarried'
    rw [hkey, hkey', hallocated.apart key key' _ hbuffer hbuffer']
  · intro p q slot hnamed hp hq
    by_cases hne : p = q
    · exact hne ▸ .refl p
    · obtain ⟨-, key, -, hkey⟩ := producer_of_named h hkernels hnamed
      have hkey' : producerOf descriptor q = some key := by
        rw [producerOf, hq, ← hp]
        exact hkey
      obtain ⟨buffer, hbuffer, hbound⟩ := bound_producer hunique h hkernels hkey
      obtain ⟨buffer', hbuffer', hbound'⟩ := bound_producer hunique h hkernels hkey'
      rw [hbuffer] at hbuffer'
      cases hbuffer'
      rcases hcarries.separate p q buffer hne hbound hbound' with hconnected | hexternal
      · exact hconnected
      · exact (hexternal.1 hnamed).elim
  · intro p q n m buffer hn hm hbuffer hbuffer'
    have hbound : ∀ r number, externalNumber descriptor r = some number →
        externals number = some buffer → producerOf descriptor r = none ∧
          numberOf descriptor r = some number ∧ boundTo chain r = some buffer := by
      intro r number hnumber hexternal
      unfold externalNumber at hnumber
      split at hnumber
      · next hnone =>
        obtain ⟨kernel, hkernel, hdecl⟩ := Option.bind_eq_some_iff.mp hnumber
        obtain ⟨decl, hdecl, -⟩ := Option.map_eq_some_iff.mp hdecl
        obtain ⟨index, hindex, -⟩ := Option.bind_eq_some_iff.mp hdecl
        have hslot : slotOf descriptor r = some (r.1, index) := by
          simp [slotOf, hkernel, hindex]
        obtain ⟨found, hfound⟩ := bound_of_slot hunique h hslot
        obtain ⟨other, hother, hfoundExternal⟩ := bound_external hunique h hkernels hnone hfound
        rw [externalNumber, if_pos hnone, hnumber] at hother
        cases hother
        rw [hexternal] at hfoundExternal
        cases hfoundExternal
        exact ⟨hnone, hnumber, hfound⟩
      · cases hnumber
    obtain ⟨hnone, hnumber, hp⟩ := hbound p n hn hbuffer
    obtain ⟨-, hnumber', hq⟩ := hbound q m hm hbuffer'
    by_cases hne : p = q
    · subst hne
      rw [hnumber] at hnumber'
      exact Option.some.inj hnumber'
    · rcases hcarries.separate p q buffer hne hp hq with hconnected | ⟨-, -, hsame⟩
      · rcases connected_named hconnected with heq | ⟨hnamed, -⟩
        · exact (hne heq).elim
        · obtain ⟨-, key, -, hkey⟩ := producer_of_named h hkernels hnamed
          rw [hnone] at hkey
          cases hkey
      · rw [hnumber, hnumber'] at hsame
        exact Option.some.inj hsame

end Equivalence

/-- A submitted chain carries the data flow of its identities exactly when they are consistent; the
    device's new buffers are none of the caller's. -/
theorem chain_carries_iff {chain : List ChainEntry} (hunique : UniqueBindings descriptor)
    (hold : ∀ number buffer, externals number = some buffer → buffer.id < made)
    (hissued : dispatchChainFromDescriptor device made externals descriptor = .ok chain) :
    CarriesDataFlow descriptor chain ↔ Consistent externals descriptor := by
  obtain ⟨intermediates, slots, h⟩ := issued_of_dispatch hissued
  exact ⟨consistent_of_carries hunique h, carries_of_consistent hunique hold h⟩

end Chains

namespace KernelChains

/-- A kernel whose buffers stand in the order of its bindings. -/
def kernel (bindings : List Nat) : ChainKernel where
  entryPoint := "main"
  source := ""
  storageBuffers := bindings.map (⟨·, 16⟩)
  bindGroupLayout := bindings.zipIdx.map (fun binding => ⟨binding.1, 0, binding.2⟩)
  outputBindings := []
  workgroupSize := ⟨1, 1, 1⟩

def device : GpuDevice := ⟨none, none, fun _ => true, true⟩

/-- The caller has one buffer, under number 0. -/
def externals : Nat → Option GpuBuffer
  | 0 => some ⟨0, .ofNat 16, .ofNat 128, none⟩
  | _ => none

theorem externals_old : ∀ number buffer, externals number = some buffer → buffer.id < 1 := by
  intro number buffer h
  match number with
  | 0 =>
    cases h
    exact Nat.one_pos
  | _ + 1 => cases h

/-- The second kernel reads what the first writes. -/
def twoKernels : KernelChainDescriptor where
  chain := [kernel [0, 1], kernel [2]]
  bufferIdentities := [⟨0, 1, 1, 2⟩]

/-- The second kernel works in place: its binding is input and output. -/
def inPlace : KernelChainDescriptor where
  chain := [kernel [0, 1], kernel [2], kernel [3]]
  bufferIdentities := [⟨0, 1, 1, 2⟩, ⟨1, 2, 2, 3⟩]

instance (descriptor : KernelChainDescriptor) : Decidable (UniqueBindings descriptor) :=
  inferInstanceAs (Decidable (∀ kernel ∈ descriptor.chain, _))

end KernelChains

open KernelChains in
theorem two_kernels_carry_iff : ∃ chain,
    dispatchChainFromDescriptor device 1 externals twoKernels = .ok chain ∧
      (CarriesDataFlow twoKernels chain ↔ Consistent externals twoKernels) := by
  have hissued : (dispatchChainFromDescriptor device 1 externals twoKernels).toOption.isSome := by
    decide +kernel
  obtain ⟨chain, hchain⟩ := Option.isSome_iff_exists.mp hissued
  have hchain := toOption_eq_some_iff.mp hchain
  exact ⟨chain, hchain, chain_carries_iff (by decide) externals_old hchain⟩

open KernelChains in
/-- The later identity takes the slot of the kernel that works in place: what the first kernel
    writes is not what it reads. -/
theorem in_place_loses_data_flow : UniqueBindings inPlace ∧ ∃ chain,
    dispatchChainFromDescriptor device 1 externals inPlace = .ok chain ∧
      boundTo chain (0, 1) ≠ boundTo chain (1, 2) ∧ ¬ CarriesDataFlow inPlace chain := by
  have hissued : (dispatchChainFromDescriptor device 1 externals inPlace).toOption.any (fun chain =>
      decide (boundTo chain (0, 1) ≠ boundTo chain (1, 2))) = true := by
    decide +kernel
  obtain ⟨chain, hchain, hdiffer⟩ := (Option.any_eq_true _ _).mp hissued
  have hdiffer := of_decide_eq_true hdiffer
  refine ⟨by decide, chain, toOption_eq_some_iff.mp hchain, hdiffer, fun hcarries => ?_⟩
  obtain ⟨buffer, hproducer, hconsumer⟩ := hcarries.carried ⟨0, 1, 1, 2⟩ (by decide)
  exact hdiffer (hproducer.trans hconsumer.symm)

end FaberHosts.WebGpu
