import FaberHosts.WebGpu.Created

/-!
# What admission establishes

Admission compares every layout with the first group of its index, one entry at a time.  That and
its index lists let `createWebGpuResources` create a session for every accepted kernel whose groups
have layouts.
-/

namespace FaberHosts.WebGpu
open FaberHosts.Lib

/-! ## The checks that passed -/

theorem equals_ofNat {a b : Nat} : (JsValue.ofNat a).equals (.num b) = true ↔ a = b := by
  simp [JsValue.ofNat, JsValue.equals, JsNumber.equals, JsNumber.ofNat]

theorem expectValue_ok {value : JsValue} {expected : JsPrimitive} {path : String}
    (h : expectValue value expected path = .ok ()) : value.equals expected = true := by
  unfold expectValue at h
  split at h
  · next hequals => exact hequals
  · cases h

theorem expectCount_ok {count expected : Nat} {path : String}
    (h : expectCount (.ofNat count) expected path = .ok ()) : count = expected := by
  obtain ⟨read, hread, hvalue⟩ := bind_ok_iff.mp h
  unfold expectNonNegativeInteger at hread
  rw [JsValue.index_ofNat] at hread
  cases hread
  exact equals_ofNat.mp (expectValue_ok hvalue)

theorem forall₂_expectNonNegativeInteger {items : List (JsValue × Nat)} {read : List Nat}
    {path : Nat → String}
    (h : List.Forall₂ (fun item n => expectNonNegativeInteger item.1 (path item.2) = .ok n)
      items read) : items.map (·.1.index) = read.map some := by
  induction h with
  | nil => rfl
  | cons hhead _ ih =>
    unfold expectNonNegativeInteger at hhead
    split at hhead
    · next found =>
      cases hhead
      rw [List.map_cons, List.map_cons, found, ih]
    · cases hhead

theorem expectIndexList_ok {indexes expected : List Nat} {path : String}
    (h : expectIndexList (.arr (indexes.map JsValue.ofNat)) expected path = .ok ()) :
    indexes = expected := by
  obtain ⟨items, hitems, h⟩ := bind_ok_iff.mp h
  cases hitems
  obtain ⟨actual, hactual, h⟩ := bind_ok_iff.mp h
  obtain ⟨_, hcount, h⟩ := bind_ok_iff.mp h
  have hread : indexes = actual := by
    have hmap := @forall₂_expectNonNegativeInteger _ _ (fun n => s!"{path}[{n}]")
      (forall₂_of_mapM_ok hactual)
    have hzip : ((indexes.map JsValue.ofNat).zipIdx).map (fun item => item.1.index) =
        ((indexes.map JsValue.ofNat).zipIdx.map Prod.fst).map JsValue.index := by
      rw [List.map_map]
      rfl
    rw [hzip, List.zipIdx_map_fst, List.map_map] at hmap
    have hindexes : indexes.map (JsValue.index ∘ JsValue.ofNat) = indexes.map some :=
      List.map_congr_left (fun n _ => JsValue.index_ofNat n)
    rw [hindexes] at hmap
    exact List.map_injective_iff.mpr (Option.some_injective _) hmap
  subst hread
  have hlength := expectCount_ok hcount
  apply List.ext_getElem hlength
  intro n hn hn'
  have hmem : ((indexes[n], expected[n]), n) ∈ (indexes.zip expected).zipIdx := by
    rw [List.mk_mem_zipIdx_iff_getElem?, List.getElem?_zip_eq_some]
    exact ⟨List.getElem?_eq_getElem hn, List.getElem?_eq_getElem hn'⟩
  exact equals_ofNat.mp (expectValue_ok (forM_ok h _ hmem))

/-- A layout entry agrees with the entry that it was compared with. -/
structure PairsWith (layoutEntry : LayoutEntry) (entry : BindGroupEntry) : Prop where
  binding : entry.binding = layoutEntry.binding
  resourceIndex : entry.resourceIndex = layoutEntry.resourceIndex
  bufferByteLen : entry.bufferByteLen = layoutEntry.bufferByteLen
  bufferByteOffset : entry.bufferByteOffset = layoutEntry.bufferByteOffset
  bindingByteLen : entry.bindingByteLen = layoutEntry.bindingByteLen
  minBindingSize : entry.minBindingSize = layoutEntry.minBindingSize

theorem validateEntryPair_ok {layoutEntry : LayoutEntry} {entry : BindGroupEntry}
    (h : validateEntryPair layoutEntry entry = .ok ()) : PairsWith layoutEntry entry := by
  obtain ⟨_, hbinding, h⟩ := bind_ok_iff.mp h
  obtain ⟨_, hresource, h⟩ := bind_ok_iff.mp h
  obtain ⟨_, _, h⟩ := bind_ok_iff.mp h
  obtain ⟨_, hlength, h⟩ := bind_ok_iff.mp h
  obtain ⟨_, hoffset, h⟩ := bind_ok_iff.mp h
  obtain ⟨_, hbound, hmin⟩ := bind_ok_iff.mp h
  exact ⟨equals_ofNat.mp (expectValue_ok hbinding), equals_ofNat.mp (expectValue_ok hresource),
    equals_ofNat.mp (expectValue_ok hlength), equals_ofNat.mp (expectValue_ok hoffset),
    equals_ofNat.mp (expectValue_ok hbound), equals_ofNat.mp (expectValue_ok hmin)⟩

/-- The first group of an index. -/
def KernelDescriptor.firstGroup (descriptor : KernelDescriptor) (index : Nat) : Option BindGroup :=
  descriptor.bindGroups.find? (·.bindGroupIndex = index)

/-- What an accepted reflection is known to satisfy. -/
structure Admitted (descriptor : KernelDescriptor) : Prop where
  indexes : descriptor.bindGroupLayoutIndexes = descriptor.bindGroupLayouts.map (·.bindGroupIndex)
  paired : ∀ layout ∈ descriptor.bindGroupLayouts, ∃ group,
    descriptor.firstGroup layout.bindGroupIndex = some group ∧
      ∀ layoutEntry ∈ layout.entries, ∃ entry ∈ group.entries, PairsWith layoutEntry entry

theorem validateLayout_ok {groups : List BindGroup} {layout : BindGroupLayout}
    (h : validateLayout groups layout = .ok ()) : ∃ group,
      groups.find? (·.bindGroupIndex = layout.bindGroupIndex) = some group ∧
        ∀ layoutEntry ∈ layout.entries, ∃ entry ∈ group.entries, PairsWith layoutEntry entry := by
  unfold validateLayout at h
  split at h
  · cases h
  · next group hgroup =>
    refine ⟨group, hgroup, fun layoutEntry hmem => ?_⟩
    dsimp only at h
    split at h
    · cases h
    · have hentry := forM_ok h layoutEntry hmem
      unfold validateLayoutEntry at hentry
      split at hentry
      · cases hentry
      · next entry hfound =>
        exact ⟨entry, List.mem_of_find?_eq_some hfound, validateEntryPair_ok hentry⟩

theorem admitted_of_load {jsonParse : String → Except String JsValue} {wgsl reflection : JsValue}
    {descriptor : KernelDescriptor}
    (h : loadFaberKernel jsonParse wgsl reflection = .ok descriptor) : Admitted descriptor := by
  obtain ⟨document, hdocument, h⟩ := bind_ok_iff.mp h
  dsimp only at h
  split at h
  · cases h
  obtain ⟨_, _, h⟩ := bind_ok_iff.mp h
  obtain ⟨_, _, h⟩ := bind_ok_iff.mp h
  obtain ⟨kernels, _, h⟩ := bind_ok_iff.mp h
  split at h
  · obtain ⟨kernel, _, h⟩ := bind_ok_iff.mp h
    obtain ⟨launch, _, h⟩ := bind_ok_iff.mp h
    obtain ⟨adapter, _, h⟩ := bind_ok_iff.mp h
    obtain ⟨_, _, h⟩ := bind_ok_iff.mp h
    obtain ⟨_, _, h⟩ := bind_ok_iff.mp h
    obtain ⟨entryName, _, h⟩ := bind_ok_iff.mp h
    obtain ⟨_, _, h⟩ := bind_ok_iff.mp h
    obtain ⟨indexes, _, h⟩ := bind_ok_iff.mp h
    obtain ⟨layouts, _, h⟩ := bind_ok_iff.mp h
    obtain ⟨groups, _, h⟩ := bind_ok_iff.mp h
    obtain ⟨dispatch, _, h⟩ := bind_ok_iff.mp h
    obtain ⟨_, hindexes, h⟩ := bind_ok_iff.mp h
    obtain ⟨_, hvalidated, h⟩ := bind_ok_iff.mp h
    obtain ⟨text, _, h⟩ := bind_ok_iff.mp h
    cases h
    obtain ⟨_, _, hindexes⟩ := bind_ok_iff.mp hindexes
    obtain ⟨_, _, hindexes⟩ := bind_ok_iff.mp hindexes
    obtain ⟨_, _, hindexes⟩ := bind_ok_iff.mp hindexes
    obtain ⟨_, _, hindexes⟩ := bind_ok_iff.mp hindexes
    refine ⟨expectIndexList_ok hindexes, fun layout hlayout => ?_⟩
    unfold validateLayoutAndGroupEntries at hvalidated
    dsimp only at hvalidated
    split at hvalidated
    · cases hvalidated
    · exact validateLayout_ok (forM_ok hvalidated layout hlayout)
  · cases h

/-! ## What is created -/

/-- The last layout of an index. -/
def KernelDescriptor.layoutInEffect (descriptor : KernelDescriptor) (index : Nat) :
    Option BindGroupLayout :=
  descriptor.bindGroupLayouts.reverse.find? (·.bindGroupIndex = index)

theorem getElem?_createBindGroupLayouts (descriptor : KernelDescriptor) (index : Nat) :
    (createBindGroupLayouts descriptor)[index]? =
      (descriptor.layoutInEffect index).map (fun layout => layout.entries.map LayoutEntry.toGpu) := by
  unfold createBindGroupLayouts KernelDescriptor.layoutInEffect
  induction descriptor.bindGroupLayouts using List.reverseRecOn with
  | nil => simp
  | append_singleton layouts layout ih =>
    rw [List.foldl_append, List.reverse_append, List.foldl_cons, List.foldl_nil,
      Std.ExtTreeMap.getElem?_insert, ih]
    simp only [Nat.compare_eq_eq, List.reverse_singleton, List.cons_append, List.nil_append,
      List.find?_cons]
    by_cases hindex : layout.bindGroupIndex = index <;> simp [hindex]

/-- The initial inputs have the declared kinds and sizes. -/
def DeclaredInputs (descriptor : KernelDescriptor) (initialInputs : String → InputValue) : Prop :=
  ∀ entry ∈ descriptor.inputBindings, ∃ words,
    expectInput entry (initialInputs (inputName entry)) = .ok words ∧
      4 * words.length = entry.bufferByteLen

/-- The device can allocate the buffers that are asked for. -/
def AllocatesBuffers (device : GpuDevice) (descriptor : KernelDescriptor) : Prop :=
  ∀ entry ∈ descriptor.entries, device.maxBufferSize.all (fun maxSize =>
    !maxSize.lt (.ofNat entry.bufferByteLen)) = true ∧ device.allocates (bufferRequest entry) = true

variable {device : GpuDevice} {made : Nat} {descriptor : KernelDescriptor}
  {initialInputs : String → InputValue}

theorem mem_inputBindings {entry : BindGroupEntry} :
    entry ∈ descriptor.inputBindings ↔ entry ∈ descriptor.entries ∧ entry.role = .input := by
  simp only [KernelDescriptor.inputBindings, KernelDescriptor.entries, List.mem_flatMap,
    List.mem_filter, decide_eq_true_eq]
  constructor
  · rintro ⟨group, hgroup, hentry, hrole⟩
    exact ⟨⟨group, hgroup, hentry⟩, hrole⟩
  · rintro ⟨⟨group, hgroup, hentry⟩, hrole⟩
    exact ⟨group, hgroup, hentry, hrole⟩

theorem mem_outputBindings {entry : BindGroupEntry} :
    entry ∈ descriptor.outputBindings ↔ entry ∈ descriptor.entries ∧ entry.role = .output := by
  simp only [KernelDescriptor.outputBindings, KernelDescriptor.entries, List.mem_flatMap,
    List.mem_filter, decide_eq_true_eq]
  constructor
  · rintro ⟨group, hgroup, hentry, hrole⟩
    exact ⟨⟨group, hgroup, hentry⟩, hrole⟩
  · rintro ⟨⟨group, hgroup, hentry⟩, hrole⟩
    exact ⟨group, hgroup, hentry, hrole⟩

theorem declareBuffer_returns (hinputs : DeclaredInputs descriptor initialInputs)
    (hdevice : AllocatesBuffers device descriptor) (id : Nat) {entry : BindGroupEntry}
    (hentry : entry ∈ descriptor.entries) :
    ∃ buffer, declareBuffer device initialInputs id entry = .ok buffer := by
  obtain ⟨hlimit, hallocates⟩ := hdevice entry hentry
  have hsize : ∀ label, validateBufferSize device (.ofNat entry.bufferByteLen) label = .ok () := by
    intro label
    unfold validateBufferSize
    cases hmax : device.maxBufferSize with
    | none => rfl
    | some maxSize =>
      simp only [hmax, Option.all_some, Bool.not_eq_true'] at hlimit
      simp [hlimit]
  let raw : GpuBuffer := ⟨id, (bufferRequest entry).size, (bufferRequest entry).usage, none⟩
  have hcreate : device.createBuffer id (bufferRequest entry) = .ok raw := if_pos hallocates
  cases hrole : entry.role with
  | input =>
    obtain ⟨words, hwords, hlength⟩ := hinputs entry (mem_inputBindings.mpr ⟨hentry, hrole⟩)
    refine ⟨{ raw with initial := some words },
      bind_ok_iff.mpr ⟨(), hsize _, bind_ok_iff.mpr ⟨raw, hcreate, ?_⟩⟩⟩
    rw [hrole]
    exact bind_ok_iff.mpr ⟨words, hwords, if_neg (not_not_intro hlength)⟩
  | output =>
    refine ⟨raw, bind_ok_iff.mpr ⟨(), hsize _, bind_ok_iff.mpr ⟨raw, hcreate, ?_⟩⟩⟩
    rw [hrole]
    rfl

theorem createBuffers_returns (hinputs : DeclaredInputs descriptor initialInputs)
    (hdevice : AllocatesBuffers device descriptor) :
    ∃ created, createBuffers device made descriptor initialInputs = .ok created := by
  refine foldlM_returns (fun created entry hentry => ?_) _
  unfold createBuffersStep
  split
  · exact ⟨created, rfl⟩
  · obtain ⟨buffer, hbuffer⟩ := declareBuffer_returns hinputs hdevice created.made hentry
    exact ⟨_, bind_ok_iff.mpr ⟨buffer, hbuffer, rfl⟩⟩

theorem createPipelineLayout_returns (hadmitted : Admitted descriptor) :
    ∃ layouts, createPipelineLayout descriptor (createBindGroupLayouts descriptor) =
      .ok layouts := by
  refine mapM_returns (fun index hindex => ?_)
  rw [hadmitted.indexes] at hindex
  obtain ⟨layout, hlayout, rfl⟩ := List.mem_map.mp hindex
  rw [getElem?_createBindGroupLayouts]
  cases hfound : descriptor.layoutInEffect layout.bindGroupIndex with
  | none =>
    have := List.find?_eq_none.mp hfound layout (List.mem_reverse.mpr hlayout)
    simp at this
  | some found => exact ⟨_, rfl⟩

theorem createWebGpuResources_returns (hadmitted : Admitted descriptor)
    (hinputs : DeclaredInputs descriptor initialInputs)
    (hdevice : AllocatesBuffers device descriptor)
    (hlayouts : ∀ group ∈ descriptor.bindGroups,
      ∃ layout, descriptor.layoutInEffect group.bindGroupIndex = some layout) :
    ∃ session, createWebGpuResources device made descriptor initialInputs = .ok session := by
  obtain ⟨created, hcreated⟩ := @createBuffers_returns _ made _ _ hinputs hdevice
  obtain ⟨pipelineLayout, hpipeline⟩ := createPipelineLayout_returns hadmitted
  have hdeclares := declares_createBuffers hcreated
  have hgroups : ∃ groups, createBindGroups descriptor (createBindGroupLayouts descriptor)
      created.buffers = .ok groups := by
    refine mapM_returns (fun group hgroup => ?_)
    obtain ⟨layout, hlayout⟩ := hlayouts group hgroup
    unfold createBindGroup
    rw [getElem?_createBindGroupLayouts, hlayout]
    obtain ⟨entries, hentries⟩ : ∃ entries,
        group.entries.mapM (bindEntry created.buffers) = .ok entries := by
      refine mapM_returns (fun entry hentry => ?_)
      obtain ⟨first, hfirst⟩ := exists_declaring
        (List.mem_flatMap.mpr ⟨group, hgroup, hentry⟩ : entry ∈ descriptor.entries)
      obtain ⟨buffer, hbuffer, -⟩ := hdeclares.present _ first hfirst
      unfold bindEntry
      rw [hbuffer]
      exact ⟨_, rfl⟩
    exact ⟨_, bind_ok_iff.mpr ⟨entries, hentries, rfl⟩⟩
  obtain ⟨groups, hgroups⟩ := hgroups
  exact ⟨_, bind_ok_iff.mpr ⟨created, hcreated, bind_ok_iff.mpr ⟨pipelineLayout, hpipeline,
    bind_ok_iff.mpr ⟨groups, hgroups, rfl⟩⟩⟩⟩

end FaberHosts.WebGpu
