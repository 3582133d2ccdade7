import FaberHosts.Descriptor.GraphBytes

/-!
# The program-graph identity

Two admitted descriptors share their canonical bytes exactly when they execute the
same facts.  The order of the kernel declarations, of the slots and of the version
metadata is no such fact; the order of the roots, the edges, the results and the
end-of-run results is.  The carried shapes are not part of the bytes.
-/

namespace FaberHosts.Descriptor
open FaberHosts.Lib FaberHosts.Coordinator
namespace DeviceDescriptor

/-! ## Rearranged descriptors execute one graph -/

theorem SameKernel.facts_eq {kernel kernel' : DescriptorKernel} (h : SameKernel kernel kernel') :
    kernel'.facts = kernel.facts := by
  have hbindings := List.toFinset_eq_of_perm _ _ (h.buffers.map (·.bindingFacts))
  rw [DescriptorKernel.facts, DescriptorKernel.facts, h.entry, h.grid, h.block, hbindings]

theorem inOrder_getElem? (d : DeviceDescriptor) {order : List Nat}
    (horder : ∀ i ∈ order, i < d.kernels.length) (place : Nat) :
    (d.inOrder order)[place]? = order[place]?.bind (d.kernels[·]?) := by
  induction order generalizing place with
  | nil => rfl
  | cons i order ih =>
    obtain ⟨hi, hrest⟩ := List.forall_mem_cons.mp horder
    have hcons : d.inOrder (i :: order) = d.kernels[i] :: d.inOrder order := by
      rw [inOrder, List.filterMap_cons, List.getElem?_eq_getElem hi]
      rfl
    rw [hcons]
    cases place with
    | zero => simp [hi]
    | succ place => simpa using ih hrest place

theorem forall₂_getElem? {kernels kernels' : List DescriptorKernel}
    (h : List.Forall₂ SameKernel kernels kernels') (i : Nat) :
    kernels'[i]?.map (·.facts) = kernels[i]?.map (·.facts) := by
  induction h generalizing i with
  | nil => rfl
  | cons hkernel _ ih =>
    cases i with
    | zero => simp [hkernel.facts_eq]
    | succ i => simpa using ih i

theorem launchFacts_of_relaunched {d d' : DeviceDescriptor} {order : List Nat}
    (horder : order.Perm (List.range d.kernels.length))
    (hkernels : List.Forall₂ SameKernel (d.inOrder order) d'.kernels)
    {launch launch' : DescriptorLaunch} (h : Relaunched order launch launch')
    (hindex : launch.kernelIndex.toNat < d.kernels.length) :
    d'.launchFacts launch' = d.launchFacts launch := by
  have hplace : order[launch'.kernelIndex.toNat]? = some launch.kernelIndex.toNat := by
    rcases h.kernelIndex with hplace | ⟨hout, -⟩
    · exact hplace
    · rw [horder.length_eq, List.length_range] at hout
      omega
  have hrange : ∀ i ∈ order, i < d.kernels.length :=
    fun i hi => List.mem_range.mp (horder.mem_iff.mp hi)
  rw [launchFacts, launchFacts, h.id, launched, launched, forall₂_getElem? hkernels,
    inOrder_getElem? d hrange, hplace]
  rfl

theorem launches_facts_of_rearranged {d d' : DeviceDescriptor} (h : Rearranged d d')
    (hrules : RulesHold d) : d'.launches.map d'.launchFacts = d.launches.map d.launchFacts := by
  obtain ⟨order, horder, hkernels, hlaunches⟩ := h.kernels
  have hindex := hrules.launches.kernelIndex
  generalize d.launches = launches at hlaunches hindex ⊢
  generalize d'.launches = launches' at hlaunches ⊢
  induction hlaunches with
  | nil => rfl
  | cons hlaunch _ ih =>
    obtain ⟨hhead, hrest⟩ := List.forall_mem_cons.mp hindex
    rw [List.map_cons, List.map_cons, ih hrest,
      launchFacts_of_relaunched horder hkernels hlaunch hhead]

theorem executedFacts_of_rearranged {d d' : DeviceDescriptor} (h : Rearranged d d')
    (hrules : RulesHold d) :
    d.executedFacts = d'.executedFacts ↔ d'.roots = d.roots ∧ d'.dataFlow = d.dataFlow ∧
      d'.results = d.results ∧ d'.endOfRunResults = d.endOfRunResults := by
  have hbuffers : (d'.slots.map (·.bufferFacts)).toFinset = (d.slots.map (·.bufferFacts)).toFinset :=
    List.toFinset_eq_of_perm _ _ (h.sameFacts.slots.map _)
  rw [executedFacts, executedFacts, launches_facts_of_rearranged h hrules, hbuffers,
    h.programLifetime]
  simp only [ExecutedFacts.mk.injEq, true_and]
  constructor
  · rintro ⟨hroots, hedges, hresults, hends⟩
    exact ⟨hroots.symm, hedges.symm, hresults.symm, hends.symm⟩
  · rintro ⟨hroots, hedges, hresults, hends⟩
    exact ⟨hroots.symm, hedges.symm, hresults.symm, hends.symm⟩

/-- The identity is the executed facts, and of two declarations of one program it
    tells the order of the carried lists alone. -/
theorem program_graph_identity (d d' : DeviceDescriptor) (haccepted : d.Accepted)
    (haccepted' : d'.Accepted) (haddr : Addressable d) (haddr' : Addressable d') :
    (d.programGraphBytes = d'.programGraphBytes ↔ d.executedFacts = d'.executedFacts) ∧
      (Rearranged d d' → (d.programGraphBytes = d'.programGraphBytes ↔
        d'.roots = d.roots ∧ d'.dataFlow = d.dataFlow ∧ d'.results = d.results ∧
          d'.endOfRunResults = d.endOfRunResults)) := by
  have hrules := ((accepted_iff d).mp haccepted).1
  have hrules' := ((accepted_iff d').mp haccepted').1
  have hidentity := programGraphBytes_eq_iff hrules hrules' haddr haddr'
  refine ⟨hidentity, fun h => ?_⟩
  rw [hidentity, executedFacts_of_rearranged h hrules]

theorem sample_addressable : Addressable sampleDescriptor := by
  constructor
  · decide +kernel
  · decide +kernel

theorem program_graph_identity_sample :
    sampleDescriptor.programGraphBytes = sampleDescriptor.programGraphBytes :=
  ((program_graph_identity sampleDescriptor sampleDescriptor (by decide +kernel) (by decide +kernel)
    sample_addressable sample_addressable).2 (Rearranged.refl _)).mpr ⟨rfl, rfl, rfl, rfl⟩

/-! ## What the identity tells apart and what it does not -/

/-- Both launches are roots. -/
def rootedTwice : DeviceDescriptor := { sampleDescriptor with roots := [1, 2] }

def rootedTwiceReversed : DeviceDescriptor := { sampleDescriptor with roots := [2, 1] }

/-- Buffer 1 with a carried shape. -/
def shaped : DeviceDescriptor :=
  { sampleDescriptor with
    kernels := [plainKernel "scale" [{ plainSlot 1 .input .perProgram 0 with shape := some [2, 2] },
      plainSlot 2 .inOut .perProgram 1]]
    bufferVersions := [{ plainVersion 1 with shape := some [2, 2] }, plainVersion 2] }

theorem rootedTwice_rearranged : Rearranged rootedTwice rootedTwiceReversed where
  backend := rfl
  moduleImage := rfl
  programLifetime := rfl
  kernels := (Rearranged.refl sampleDescriptor).kernels
  bufferVersions := .refl _
  dataFlow := .refl _
  roots := List.Perm.swap 1 2 []
  results := .refl _
  endOfRunResults := .refl _

theorem rootedTwice_addressable (roots : List UInt32) :
    Addressable { sampleDescriptor with roots } :=
  ⟨sample_addressable.entries, sample_addressable.dataFlow⟩

theorem shaped_addressable : Addressable shaped := by
  constructor
  · decide +kernel
  · decide +kernel

/-- The order of the roots shows, the shape of a buffer does not. -/
theorem root_order_shows_shape_hidden :
    (rootedTwice.Accepted ∧ rootedTwiceReversed.Accepted ∧
      Rearranged rootedTwice rootedTwiceReversed ∧
      rootedTwice.programGraphBytes ≠ rootedTwiceReversed.programGraphBytes) ∧
    sampleDescriptor.Accepted ∧ shaped.Accepted ∧
      sampleDescriptor.programGraphBytes = shaped.programGraphBytes ∧
      sampleDescriptor.slots.map (·.shape) = [none, none] ∧
      shaped.slots.map (·.shape) = [some [2, 2], none] := by
  have hrooted : rootedTwice.Accepted := by decide +kernel
  have hreversed : rootedTwiceReversed.Accepted := by decide +kernel
  have hsample : sampleDescriptor.Accepted := by decide +kernel
  have hshaped : shaped.Accepted := by decide +kernel
  refine ⟨⟨hrooted, hreversed, rootedTwice_rearranged, ?_⟩, hsample, hshaped, ?_, rfl, rfl⟩
  · rw [Ne, programGraphBytes_eq_iff ((accepted_iff _).mp hrooted).1
      ((accepted_iff _).mp hreversed).1 (rootedTwice_addressable [1, 2])
      (rootedTwice_addressable [2, 1])]
    decide
  · rw [programGraphBytes_eq_iff ((accepted_iff _).mp hsample).1 ((accepted_iff _).mp hshaped).1
      sample_addressable shaped_addressable]
    decide

end DeviceDescriptor

end FaberHosts.Descriptor
