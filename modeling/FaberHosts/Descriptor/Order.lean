import FaberHosts.Descriptor.Graph

/-!
# Admission and declaration order

Rearranging the kernel table, the slots inside a kernel or any of the carried
lists keeps every rule of validation but the two the first slots decide.  Those
give the same answer in every order exactly when no order can change them: no
buffer is split between `input` and `output` and no end-of-run buffer version has
an `input` slot, or no order of the kernels makes the first slots fit.
-/

namespace FaberHosts.Descriptor
open FaberHosts.Lib
namespace DeviceDescriptor

/-! ## Rearrangements -/

/-- The kernels at the places `order` lists. -/
def inOrder (d : DeviceDescriptor) (order : List Nat) : List DescriptorKernel :=
  order.filterMap (d.kernels[·]?)

/-- The same kernel with its slots permuted. -/
structure SameKernel (kernel kernel' : DescriptorKernel) : Prop where
  entry : kernel'.entry = kernel.entry
  grid : kernel'.grid = kernel.grid
  block : kernel'.block = kernel.block
  buffers : kernel'.buffers.Perm kernel.buffers

/-- The launch with its kernel index moved to the kernel's new place; an index
    that names no kernel stays. -/
structure Relaunched (order : List Nat) (launch launch' : DescriptorLaunch) : Prop where
  id : launch'.id = launch.id
  kernelIndex : order[launch'.kernelIndex.toNat]? = some launch.kernelIndex.toNat ∨
    order.length ≤ launch.kernelIndex.toNat ∧ launch'.kernelIndex = launch.kernelIndex

/-- `d'` declares what `d` declares in another order: the kernel table permuted with
    the launches remapped, the slots of any kernel and the carried lists permuted. -/
structure Rearranged (d d' : DeviceDescriptor) : Prop where
  backend : d'.backend = d.backend
  moduleImage : d'.moduleImage = d.moduleImage
  programLifetime : d'.programLifetime = d.programLifetime
  kernels : ∃ order : List Nat, order.Perm (List.range d.kernels.length) ∧
    List.Forall₂ SameKernel (d.inOrder order) d'.kernels ∧
    List.Forall₂ (Relaunched order) d.launches d'.launches
  bufferVersions : d'.bufferVersions.Perm d.bufferVersions
  dataFlow : d'.dataFlow.Perm d.dataFlow
  roots : d'.roots.Perm d.roots
  results : d'.results.Perm d.results
  endOfRunResults : d'.endOfRunResults.Perm d.endOfRunResults

/-- What two rearrangements of one descriptor share, as the rules see it. -/
structure SameFacts (d d' : DeviceDescriptor) : Prop where
  moduleImage : d'.moduleImage = d.moduleImage
  programLifetime : d'.programLifetime = d.programLifetime
  kernelCount : d'.kernels.length = d.kernels.length
  launchIds : d'.launchIds = d.launchIds
  kernelIndex : (∀ launch ∈ d'.launches, launch.kernelIndex.toNat < d'.kernels.length) ↔
    ∀ launch ∈ d.launches, launch.kernelIndex.toNat < d.kernels.length
  kernelShape : (∀ kernel ∈ d'.kernels, KernelShape kernel) ↔
    ∀ kernel ∈ d.kernels, KernelShape kernel
  slots : d'.slots.Perm d.slots
  bufferVersions : d'.bufferVersions.Perm d.bufferVersions
  dataFlow : d'.dataFlow.Perm d.dataFlow
  roots : d'.roots.Perm d.roots
  results : d'.results.Perm d.results
  endOfRunResults : d'.endOfRunResults.Perm d.endOfRunResults

theorem SameFacts.symm {d d' : DeviceDescriptor} (h : SameFacts d d') : SameFacts d' d :=
  ⟨h.moduleImage.symm, h.programLifetime.symm, h.kernelCount.symm, h.launchIds.symm,
    h.kernelIndex.symm, h.kernelShape.symm, h.slots.symm, h.bufferVersions.symm, h.dataFlow.symm,
    h.roots.symm, h.results.symm, h.endOfRunResults.symm⟩

theorem SameKernel.shape_iff {kernel kernel' : DescriptorKernel} (h : SameKernel kernel kernel') :
    KernelShape kernel' ↔ KernelShape kernel := by
  have hbindings := (h.buffers.map (·.binding)).nodup_iff
  constructor
  · rintro ⟨hentry, hbuffers, hgrid, hblock, hdistinct⟩
    refine ⟨h.entry ▸ hentry, fun hnil => hbuffers ?_, h.grid ▸ hgrid, h.block ▸ hblock,
      hbindings.mp hdistinct⟩
    exact (hnil ▸ h.buffers).eq_nil
  · rintro ⟨hentry, hbuffers, hgrid, hblock, hdistinct⟩
    refine ⟨h.entry.symm ▸ hentry, fun hnil => hbuffers ?_, h.grid.symm ▸ hgrid,
      h.block.symm ▸ hblock, hbindings.mpr hdistinct⟩
    exact (hnil ▸ h.buffers).symm.eq_nil

theorem filterMap_getElem?_range (l : List DescriptorKernel) :
    (List.range l.length).filterMap (l[·]?) = l := by
  induction l using List.reverseRecOn with
  | nil => rfl
  | append_singleton l a ih =>
    have hinit : (List.range l.length).filterMap ((l ++ [a])[·]?) =
        (List.range l.length).filterMap (l[·]?) := by
      refine List.filterMap_congr (fun i hi => ?_)
      exact List.getElem?_append_left (List.mem_range.mp hi)
    rw [List.length_append, List.length_singleton, List.range_succ, List.filterMap_append, hinit,
      ih]
    simp

theorem inOrder_perm {d : DeviceDescriptor} {order : List Nat}
    (horder : order.Perm (List.range d.kernels.length)) : (d.inOrder order).Perm d.kernels := by
  have hperm := horder.filterMap (d.kernels[·]?)
  rwa [filterMap_getElem?_range] at hperm

theorem Rearranged.refl (d : DeviceDescriptor) : Rearranged d d := by
  refine ⟨rfl, rfl, rfl, ⟨List.range d.kernels.length, .refl _, ?_, ?_⟩, .refl _, .refl _, .refl _,
    .refl _, .refl _⟩
  · rw [inOrder, filterMap_getElem?_range]
    exact List.forall₂_same.mpr (fun kernel _ => ⟨rfl, rfl, rfl, .refl _⟩)
  · refine List.forall₂_same.mpr (fun launch _ => ⟨rfl, ?_⟩)
    by_cases hlt : launch.kernelIndex.toNat < d.kernels.length
    · exact Or.inl (List.getElem?_range hlt)
    · exact Or.inr ⟨by simpa using hlt, rfl⟩

theorem forall₂_sameKernel_slots {kernels kernels' : List DescriptorKernel}
    (h : List.Forall₂ SameKernel kernels kernels') :
    (kernels'.flatMap (·.buffers)).Perm (kernels.flatMap (·.buffers)) := by
  induction h with
  | nil => exact .refl _
  | cons hkernel _ ih =>
    rw [List.flatMap_cons, List.flatMap_cons]
    exact hkernel.buffers.append ih

theorem forall₂_sameKernel_shape {kernels kernels' : List DescriptorKernel}
    (h : List.Forall₂ SameKernel kernels kernels') :
    (∀ kernel ∈ kernels', KernelShape kernel) ↔ ∀ kernel ∈ kernels, KernelShape kernel := by
  induction h with
  | nil => exact .rfl
  | cons hkernel _ ih => rw [List.forall_mem_cons, List.forall_mem_cons, hkernel.shape_iff, ih]

theorem Relaunched.index_lt_iff {order : List Nat} {n : Nat} (horder : order.Perm (List.range n))
    {launch launch' : DescriptorLaunch} (h : Relaunched order launch launch') :
    launch'.kernelIndex.toNat < n ↔ launch.kernelIndex.toNat < n := by
  have hlength : order.length = n := by simpa using horder.length_eq
  rcases h.kernelIndex with hmoved | ⟨hout, hsame⟩
  · obtain ⟨hlt, hget⟩ := List.getElem?_eq_some_iff.mp hmoved
    have hmem : launch.kernelIndex.toNat ∈ List.range n :=
      horder.mem_iff.mp (hget ▸ List.getElem_mem hlt)
    exact iff_of_true (hlength ▸ hlt) (List.mem_range.mp hmem)
  · rw [hsame]

theorem forall₂_relaunched {order : List Nat} {n : Nat} (horder : order.Perm (List.range n))
    {launches launches' : List DescriptorLaunch}
    (h : List.Forall₂ (Relaunched order) launches launches') :
    launches'.map (·.id) = launches.map (·.id) ∧
      ((∀ launch ∈ launches', launch.kernelIndex.toNat < n) ↔
        ∀ launch ∈ launches, launch.kernelIndex.toNat < n) := by
  induction h with
  | nil => exact ⟨rfl, .rfl⟩
  | cons hlaunch _ ih =>
    rw [List.map_cons, List.map_cons, hlaunch.id, ih.1, List.forall_mem_cons,
      List.forall_mem_cons, hlaunch.index_lt_iff horder, ih.2]
    exact ⟨rfl, .rfl⟩

theorem Rearranged.sameFacts {d d' : DeviceDescriptor} (h : Rearranged d d') : SameFacts d d' := by
  obtain ⟨order, horder, hkernels, hlaunches⟩ := h.kernels
  have hperm := inOrder_perm horder
  have hcount : d'.kernels.length = d.kernels.length :=
    hkernels.length_eq.symm.trans hperm.length_eq
  have hrelaunched := forall₂_relaunched horder hlaunches
  refine ⟨h.moduleImage, h.programLifetime, hcount, hrelaunched.1, ?_, ?_, ?_, h.bufferVersions,
    h.dataFlow, h.roots, h.results, h.endOfRunResults⟩
  · rw [hcount]
    exact hrelaunched.2
  · rw [forall₂_sameKernel_shape hkernels]
    exact forall_congr' (fun kernel => by rw [hperm.mem_iff])
  · exact (forall₂_sameKernel_slots hkernels).trans (hperm.flatMap_right _)

/-! ## The rules do not depend on the order -/

theorem metadataFits_iff {versions : List DescriptorBufferVersion}
    (hdistinct : (versions.map (·.key)).Nodup) {slot : DescriptorBuffer} :
    MetadataFits versions slot ↔ ∃ v ∈ versions, v.key = slot.key ∧ v.elementTy = slot.elementTy ∧
      v.elementCount = slot.elementCount ∧ v.shape = slot.shape := by
  constructor
  · rintro ⟨v, hfind, hfits⟩
    obtain ⟨hv, hkey⟩ := find?_key hfind
    exact ⟨v, hv, hkey, hfits⟩
  · rintro ⟨v, hv, hkey, hfits⟩
    obtain ⟨w, hfind, hw, hwkey⟩ := exists_find?_key (·.key) hv
    rw [← List.inj_on_of_nodup_map hdistinct hw hv hwkey] at hfits
    exact ⟨w, hkey ▸ hfind, hfits⟩

theorem rulesHold_of_sameFacts {d d' : DeviceDescriptor} (h : SameFacts d d') (hr : RulesHold d) :
    RulesHold d' := by
  have hslot : ∀ {slot}, slot ∈ d'.slots ↔ slot ∈ d.slots := h.slots.mem_iff
  have hversion : ∀ {v}, v ∈ d'.bufferVersions ↔ v ∈ d.bufferVersions := h.bufferVersions.mem_iff
  have hindex : ∀ id, d'.launchIndex id = d.launchIndex id := fun id => by
    rw [launchIndex, launchIndex, h.launchIds]
  have hversions : VersionsFit d' :=
    ⟨fun hnil => hr.versions.versions (hnil ▸ h.bufferVersions).symm.eq_nil,
      fun v hv => hr.versions.shape v (hversion.mp hv),
      ((h.bufferVersions.map (·.key)).nodup_iff).mpr hr.versions.distinct⟩
  have hflows : ∀ {a b}, d.FlowsTo a b → d'.FlowsTo a b := by
    rintro a b ⟨edge, hedge, hends⟩
    exact ⟨edge, h.dataFlow.mem_iff.mpr hedge, hends⟩
  constructor
  · refine ⟨h.moduleImage ▸ hr.launches.moduleImage, fun hnil => hr.launches.kernels ?_,
      fun hnil => hr.launches.launches ?_, fun launch hlaunch => ?_,
      h.launchIds ▸ hr.launches.distinct, h.kernelIndex.mpr hr.launches.kernelIndex⟩
    · rw [← List.length_eq_zero_iff, ← h.kernelCount, hnil]
      rfl
    · rw [← List.map_eq_nil_iff (f := (·.id)), ← launchIds, ← h.launchIds, launchIds, hnil]
      rfl
    · have hid : launch.id ∈ d.launchIds := h.launchIds ▸ List.mem_map_of_mem hlaunch
      obtain ⟨original, horiginal, heq⟩ := List.mem_map.mp hid
      exact heq ▸ hr.launches.nonzero original horiginal
  · exact ⟨fun hnil => hr.roots.roots (hnil ▸ h.roots).symm.eq_nil,
      fun root hroot => hr.roots.nonzero root (h.roots.mem_iff.mp hroot),
      h.roots.nodup_iff.mpr hr.roots.distinct,
      fun root hroot => h.launchIds ▸ hr.roots.launched root (h.roots.mem_iff.mp hroot)⟩
  · exact hversions
  · intro edge hedge
    obtain ⟨hver, hprod0, hcons0, hdistinct, hproducer, hconsumer, v, hv, hkey⟩ :=
      hr.edges edge (h.dataFlow.mem_iff.mp hedge)
    exact ⟨hver, hprod0, hcons0, hdistinct, h.launchIds ▸ hproducer, h.launchIds ▸ hconsumer,
      v, hversion.mpr hv, hkey⟩
  · refine ⟨fun a ha b hb => ?_, fun edge hedge => ?_, fun id hid => ?_⟩
    · exact hr.schedule.oneProducer a (h.dataFlow.mem_iff.mp ha) b (h.dataFlow.mem_iff.mp hb)
    · rw [hindex, hindex]
      exact hr.schedule.forward edge (h.dataFlow.mem_iff.mp hedge)
    · obtain ⟨root, hroot, hpath⟩ := hr.schedule.reachable id (h.launchIds ▸ hid)
      exact ⟨root, h.roots.mem_iff.mpr hroot, Relation.ReflTransGen.mono (fun _ _ => hflows) _ _ hpath⟩
  · exact h.kernelShape.mpr hr.kernels
  · intro slot hmem
    obtain ⟨hcount, hver, hsemantic, hmetadata⟩ := hr.slots slot (hslot.mp hmem)
    refine ⟨hcount, hver, hsemantic, (metadataFits_iff hversions.distinct).mpr ?_⟩
    obtain ⟨v, hv, hfits⟩ := (metadataFits_iff hr.versions.distinct).mp hmetadata
    exact ⟨v, hversion.mpr hv, hfits⟩
  · exact fun a ha b hb => hr.buffers a (hslot.mp ha) b (hslot.mp hb)
  · exact fun a ha b hb => hr.inputs a (hslot.mp ha) b (hslot.mp hb)
  · exact fun hregime slot hmem =>
      hr.onceInit (h.programLifetime.symm.trans hregime) slot (hslot.mp hmem)
  · intro result hresult
    obtain ⟨hver, hprod0, hat0, hproduced, hat, hafter, ⟨slot, hmem, hslotFits⟩, v, hv, hkey⟩ :=
      hr.results result (h.results.mem_iff.mp hresult)
    exact ⟨hver, hprod0, hat0, h.launchIds ▸ hproduced, h.launchIds ▸ hat,
      by rw [hindex, hindex]; exact hafter, ⟨slot, hslot.mpr hmem, hslotFits⟩, v,
      hversion.mpr hv, hkey⟩
  · exact ((h.results.map (·.bufferId)).nodup_iff).mpr hr.resultsDistinct
  · intro endOfRun hend
    obtain ⟨hver, hunobserved, ⟨slot, hmem, hslotFits⟩, v, hv, hkey⟩ :=
      hr.endOfRun endOfRun (h.endOfRunResults.mem_iff.mp hend)
    exact ⟨hver, fun hid => hunobserved ((h.results.map _).mem_iff.mp hid), ⟨slot, hslot.mpr hmem, hslotFits⟩, v,
      hversion.mpr hv, hkey⟩
  · exact ((h.endOfRunResults.map (·.bufferId)).nodup_iff).mpr hr.endOfRunDistinct

theorem rulesHold_iff_of_rearranged {d d' : DeviceDescriptor} (h : Rearranged d d') :
    RulesHold d' ↔ RulesHold d :=
  ⟨rulesHold_of_sameFacts h.sameFacts.symm, rulesHold_of_sameFacts h.sameFacts⟩

end DeviceDescriptor

end FaberHosts.Descriptor
