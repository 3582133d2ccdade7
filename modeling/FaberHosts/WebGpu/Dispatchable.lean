import FaberHosts.WebGpu.Admitted
import FaberHosts.Lib.Runs

/-!
# Which admitted kernels are dispatchable

What admission leaves open, and a session relies on, is `Coherent`.
-/

namespace FaberHosts.WebGpu
open FaberHosts.Lib

section Descriptors

variable {device : GpuDevice} {made : Nat} {descriptor : KernelDescriptor}
  {initialInputs : String → InputValue}

/-! ## Dispatchable sessions -/

/-- The buffer was created with a usage. -/
def GpuBuffer.HasUsage (buffer : GpuBuffer) (flag : Nat) : Prop :=
  ∃ usage : Nat, buffer.usage = .ofNat usage ∧ usage &&& flag ≠ 0

/-- A buffer has at least as many bytes. -/
def GpuBuffer.HasBytes (buffer : GpuBuffer) (bytes : Nat) : Prop :=
  ∃ size : Nat, buffer.size = .ofNat size ∧ bytes ≤ size

/-- The bind groups fit their layouts and their buffers, inputs are initialised and writable, and
    outputs can be copied out whole. -/
structure Dispatchable (descriptor : KernelDescriptor) (resources : ComputeResources) : Prop where
  bindings : ∀ bindGroup ∈ resources.bindGroups, (bindGroup.entries.map (·.binding)).Nodup ∧
    (bindGroup.entries.map (·.binding)).Perm (bindGroup.layout.map (·.binding))
  inside : ∀ bindGroup ∈ resources.bindGroups, ∀ range ∈ bindGroup.entries,
    range.buffer.HasBytes (range.offset + range.size)
  long : ∀ bindGroup ∈ resources.bindGroups, ∀ range ∈ bindGroup.entries,
    ∀ layoutEntry ∈ bindGroup.layout, layoutEntry.binding = range.binding →
      layoutEntry.minBindingSize ≤ range.size
  writable : ∀ entry ∈ descriptor.inputBindings, ∃ computeEntry : ComputeEntry,
    resources.buffers[entry.resourceIndex]? = some computeEntry ∧
      computeEntry.buffer.initial.isSome ∧ computeEntry.buffer.HasUsage GpuBufferUsage.COPY_DST
  copyable : ∀ entry ∈ descriptor.outputBindings, ∃ computeEntry : ComputeEntry,
    resources.buffers[entry.resourceIndex]? = some computeEntry ∧
      computeEntry.buffer.HasUsage GpuBufferUsage.COPY_SRC ∧
      computeEntry.buffer.HasBytes entry.bufferByteLen

/-- Every binding of a layout is one of the group. -/
def Covers (layout : BindGroupLayout) (group : BindGroup) : Prop :=
  ∀ layoutEntry ∈ layout.entries, ∃ entry ∈ group.entries, entry.binding = layoutEntry.binding

/-- A group and the layout in effect for it: as many entries, no binding repeated.  Only a group
    behind another of its index may miss bindings. -/
def FitsLayout (descriptor : KernelDescriptor) (group : BindGroup) (layout : BindGroupLayout) :
    Prop :=
  (layout.entries.map (·.binding)).Nodup ∧ layout.entries.length = group.entries.length ∧
    (descriptor.firstGroup group.bindGroupIndex = some group ∨ Covers layout group) ∧
    ∀ entry ∈ group.entries, ∀ layoutEntry ∈ layout.entries,
      layoutEntry.binding = entry.binding → layoutEntry.minBindingSize ≤ entry.bindingByteLen

/-- The first entry of a resource has the role of this one, holds its range, and is not shorter than
    an output. -/
def FitsResource (descriptor : KernelDescriptor) (entry : BindGroupEntry) : Prop :=
  ∀ first, declaring descriptor.entries entry.resourceIndex = some first →
    first.role = entry.role ∧
      entry.bufferByteOffset + entry.bindingByteLen ≤ first.bufferByteLen ∧
      (entry.role = .output → entry.bufferByteLen ≤ first.bufferByteLen)

/-- What admission does not check. -/
structure Coherent (descriptor : KernelDescriptor) : Prop where
  layouts : ∀ group ∈ descriptor.bindGroups, ∃ layout,
    descriptor.layoutInEffect group.bindGroupIndex = some layout ∧
      FitsLayout descriptor group layout
  resources : ∀ entry ∈ descriptor.entries, FitsResource descriptor entry

instance (group : BindGroup) (layout : BindGroupLayout) :
    Decidable (FitsLayout descriptor group layout) := by
  unfold FitsLayout Covers
  infer_instance

instance (entry : BindGroupEntry) : Decidable (FitsResource descriptor entry) :=
  inferInstanceAs (Decidable (∀ first,
    declaring descriptor.entries entry.resourceIndex = some first → _))

instance : Decidable (Coherent descriptor) :=
  decidable_of_iff ((∀ group ∈ descriptor.bindGroups,
      ∃ layout ∈ descriptor.layoutInEffect group.bindGroupIndex,
        FitsLayout descriptor group layout) ∧
      ∀ entry ∈ descriptor.entries, FitsResource descriptor entry)
    ⟨fun h => ⟨h.1, h.2⟩, fun h => ⟨h.layouts, h.resources⟩⟩

theorem ofNat_injective {a b : Nat} (h : JsNumber.ofNat a = JsNumber.ofNat b) : a = b := by
  have := congrArg JsNumber.index h
  simpa using this

theorem hasBytes_iff {buffer : GpuBuffer} {size bytes : Nat} (hsize : buffer.size = .ofNat size) :
    buffer.HasBytes bytes ↔ bytes ≤ size := by
  constructor
  · rintro ⟨other, hother, hle⟩
    rw [hsize] at hother
    rwa [ofNat_injective hother]
  · exact fun hle => ⟨size, hsize, hle⟩

theorem hasUsage_iff {buffer : GpuBuffer} {usage flag : Nat} (husage : buffer.usage = .ofNat usage) :
    buffer.HasUsage flag ↔ usage &&& flag ≠ 0 := by
  constructor
  · rintro ⟨other, hother, hflag⟩
    rw [husage] at hother
    rwa [ofNat_injective hother]
  · exact fun hflag => ⟨usage, husage, hflag⟩

/-- Inputs can be written to and outputs copied from, and nothing else. -/
theorem usage_of_role (role : Role) :
    (bufferUsageForRole role &&& GpuBufferUsage.COPY_DST ≠ 0 ↔ role = .input) ∧
      (bufferUsageForRole role &&& GpuBufferUsage.COPY_SRC ≠ 0 ↔ role = .output) := by
  cases role <;> decide

/-- The first group of an index has every binding of the layouts of that index. -/
theorem covers_of_firstGroup (hadmitted : Admitted descriptor) {layout : BindGroupLayout}
    {group : BindGroup} (hlayout : descriptor.layoutInEffect group.bindGroupIndex = some layout)
    (hfirst : descriptor.firstGroup group.bindGroupIndex = some group) : Covers layout group := by
  have hmem := List.mem_reverse.mp (List.mem_of_find?_eq_some hlayout)
  have hindex : layout.bindGroupIndex = group.bindGroupIndex := by
    simpa using List.find?_some hlayout
  obtain ⟨other, hother, hpaired⟩ := hadmitted.paired layout hmem
  rw [hindex, hfirst] at hother
  cases hother
  intro layoutEntry hentry
  obtain ⟨entry, hentry, hpair⟩ := hpaired layoutEntry hentry
  exact ⟨entry, hentry, hpair.binding⟩

theorem perm_iff_covers {layout : BindGroupLayout} {group : BindGroup} :
    ((group.entries.map (·.binding)).Nodup ∧
      (group.entries.map (·.binding)).Perm (layout.entries.map (·.binding))) ↔
    ((layout.entries.map (·.binding)).Nodup ∧ layout.entries.length = group.entries.length ∧
      Covers layout group) := by
  constructor
  · rintro ⟨hnodup, hperm⟩
    refine ⟨hperm.nodup_iff.mp hnodup, by simpa using hperm.length_eq.symm, ?_⟩
    intro layoutEntry hentry
    have hmem := hperm.mem_iff.mpr (List.mem_map_of_mem (f := (·.binding)) hentry)
    obtain ⟨entry, hentry, hbinding⟩ := List.mem_map.mp hmem
    exact ⟨entry, hentry, hbinding⟩
  · rintro ⟨hnodup, hlength, hcovers⟩
    have hsub : layout.entries.map (·.binding) ⊆ group.entries.map (·.binding) := by
      intro binding hbinding
      obtain ⟨layoutEntry, hentry, rfl⟩ := List.mem_map.mp hbinding
      obtain ⟨entry, hentry, heq⟩ := hcovers layoutEntry hentry
      exact heq ▸ List.mem_map_of_mem hentry
    have hperm : (layout.entries.map (·.binding)).Perm (group.entries.map (·.binding)) :=
      (hnodup.subperm hsub).perm_of_length_le (by simp [hlength])
    exact ⟨hperm.nodup_iff.mp hnodup, hperm.symm⟩

section Equivalence

variable {resources : ComputeResources}

theorem CreatedFrom.declared (h : CreatedFrom device initialInputs descriptor resources made)
    {entry : BindGroupEntry} (hentry : entry ∈ descriptor.entries) :
    ∃ (first : BindGroupEntry) (computeEntry : ComputeEntry),
      declaring descriptor.entries entry.resourceIndex = some first ∧
      resources.buffers[entry.resourceIndex]? = some computeEntry ∧
      computeEntry.buffer.size = .ofNat first.bufferByteLen ∧
      computeEntry.buffer.usage = .ofNat (bufferUsageForRole first.role) ∧
      (computeEntry.buffer.initial.isSome ↔ first.role = .input) := by
  obtain ⟨first, hfirst⟩ := exists_declaring hentry
  obtain ⟨buffer, hbuffer, hdeclared, -⟩ := h.buffers.present _ first hfirst
  obtain ⟨-, hsize, husage, hinitial⟩ := declareBuffer_eq hdeclared
  exact ⟨first, _, hfirst, hbuffer, hsize, husage, hinitial⟩

/-- What a bind group was created from. -/
structure BoundFrom (descriptor : KernelDescriptor) (resources : ComputeResources)
    (group : BindGroup) (bindGroup : GpuBindGroup) : Prop where
  layout : ∃ layout, descriptor.layoutInEffect group.bindGroupIndex = some layout ∧
    bindGroup.layout = layout.entries.map LayoutEntry.toGpu
  entries : List.Forall₂ (fun entry range => bindEntry resources.buffers entry = .ok range)
    group.entries bindGroup.entries

theorem CreatedFrom.bound (h : CreatedFrom device initialInputs descriptor resources made) :
    List.Forall₂ (BoundFrom descriptor resources) descriptor.bindGroups resources.bindGroups := by
  refine h.bindGroups.imp (fun group bindGroup hgroup => ?_)
  obtain ⟨-, hlayout, hentries⟩ := createBindGroup_eq hgroup
  rw [h.layouts, getElem?_createBindGroupLayouts] at hlayout
  obtain ⟨layout, hfound, heq⟩ := Option.map_eq_some_iff.mp hlayout
  exact ⟨⟨layout, hfound, heq.symm⟩, hentries⟩

theorem range_bindings {buffers : ComputeEntries} {entries : List BindGroupEntry}
    {ranges : List BoundRange}
    (h : List.Forall₂ (fun entry range => bindEntry buffers entry = .ok range) entries ranges) :
    ranges.map (·.binding) = entries.map (·.binding) := by
  induction h with
  | nil => rfl
  | cons hhead _ ih =>
    obtain ⟨computeEntry, -, rfl⟩ := bindEntry_eq hhead
    rw [List.map_cons, List.map_cons, ih]

theorem toGpu_bindings (entries : List LayoutEntry) :
    (entries.map LayoutEntry.toGpu).map (·.binding) = entries.map (·.binding) := by
  rw [List.map_map]
  rfl

theorem fitsLayout_iff (hadmitted : Admitted descriptor) {group : BindGroup}
    {layout : BindGroupLayout} {bindGroup : GpuBindGroup}
    (hlayout : descriptor.layoutInEffect group.bindGroupIndex = some layout)
    (hgpu : bindGroup.layout = layout.entries.map LayoutEntry.toGpu)
    (hentries : List.Forall₂ (fun entry range => bindEntry resources.buffers entry = .ok range)
      group.entries bindGroup.entries) :
    FitsLayout descriptor group layout ↔
      ((bindGroup.entries.map (·.binding)).Nodup ∧
        (bindGroup.entries.map (·.binding)).Perm (bindGroup.layout.map (·.binding))) ∧
      ∀ range ∈ bindGroup.entries, ∀ layoutEntry ∈ bindGroup.layout,
        layoutEntry.binding = range.binding → layoutEntry.minBindingSize ≤ range.size := by
  have hcovers : (descriptor.firstGroup group.bindGroupIndex = some group ∨ Covers layout group) ↔
      Covers layout group :=
    ⟨fun h => h.elim (covers_of_firstGroup hadmitted hlayout) id, .inr⟩
  rw [range_bindings hentries, hgpu, toGpu_bindings, perm_iff_covers]
  unfold FitsLayout
  rw [hcovers]
  constructor
  · rintro ⟨hnodup, hlength, hcover, hlong⟩
    refine ⟨⟨hnodup, hlength, hcover⟩, fun range hrange layoutEntry hlayoutEntry => ?_⟩
    obtain ⟨entry, hentry, hbound⟩ := exists_left_of_forall₂ hentries range hrange
    obtain ⟨computeEntry, -, rfl⟩ := bindEntry_eq hbound
    obtain ⟨declared, hdeclared, rfl⟩ := List.mem_map.mp hlayoutEntry
    exact hlong entry hentry declared hdeclared
  · rintro ⟨⟨hnodup, hlength, hcover⟩, hlong⟩
    refine ⟨hnodup, hlength, hcover, fun entry hentry layoutEntry hlayoutEntry => ?_⟩
    obtain ⟨range, hrange, hbound⟩ := exists_right_of_forall₂ hentries entry hentry
    obtain ⟨computeEntry, -, rfl⟩ := bindEntry_eq hbound
    exact hlong _ hrange layoutEntry.toGpu (List.mem_map_of_mem hlayoutEntry)

/-- A bound range lies in its buffer exactly when its first entry is long enough. -/
theorem inside_iff (h : CreatedFrom device initialInputs descriptor resources made)
    {entry : BindGroupEntry} (hentry : entry ∈ descriptor.entries) {range : BoundRange}
    (hbound : bindEntry resources.buffers entry = .ok range) :
    range.buffer.HasBytes (range.offset + range.size) ↔
      ∀ first, declaring descriptor.entries entry.resourceIndex = some first →
        entry.bufferByteOffset + entry.bindingByteLen ≤ first.bufferByteLen := by
  obtain ⟨first, computeEntry, hfirst, hbuffer, hsize, -, -⟩ := h.declared hentry
  obtain ⟨other, hother, rfl⟩ := bindEntry_eq hbound
  rw [hbuffer] at hother
  cases hother
  rw [hasBytes_iff hsize, hfirst]
  simp

/-- A resource can be used as an entry wants it exactly when its first entry has the role. -/
theorem usable_iff (h : CreatedFrom device initialInputs descriptor resources made)
    {entry : BindGroupEntry} (hentry : entry ∈ descriptor.entries) :
    ((entry.role = .input → ∃ computeEntry : ComputeEntry,
        resources.buffers[entry.resourceIndex]? = some computeEntry ∧
          computeEntry.buffer.initial.isSome ∧
          computeEntry.buffer.HasUsage GpuBufferUsage.COPY_DST) ∧
      (entry.role = .output → ∃ computeEntry : ComputeEntry,
        resources.buffers[entry.resourceIndex]? = some computeEntry ∧
          computeEntry.buffer.HasUsage GpuBufferUsage.COPY_SRC ∧
          computeEntry.buffer.HasBytes entry.bufferByteLen)) ↔
      ∀ first, declaring descriptor.entries entry.resourceIndex = some first →
        first.role = entry.role ∧
          (entry.role = .output → entry.bufferByteLen ≤ first.bufferByteLen) := by
  obtain ⟨first, computeEntry, hfirst, hbuffer, hsize, husage, hinitial⟩ := h.declared hentry
  obtain ⟨hinput, houtput⟩ := usage_of_role first.role
  simp only [hbuffer, hfirst, Option.some.injEq, exists_eq_left', forall_eq', hasBytes_iff hsize,
    hasUsage_iff husage, hinitial, hinput, houtput]
  cases entry.role with
  | input => simp
  | output => simp

theorem dispatchable_iff (hadmitted : Admitted descriptor)
    (h : CreatedFrom device initialInputs descriptor resources made) :
    Dispatchable descriptor resources ↔ Coherent descriptor := by
  have hbound := h.bound
  have hmem : ∀ group ∈ descriptor.bindGroups, ∀ entry ∈ group.entries,
      entry ∈ descriptor.entries :=
    fun group hgroup entry hentry => List.mem_flatMap.mpr ⟨group, hgroup, hentry⟩
  constructor
  · intro hdispatch
    constructor
    · intro group hgroup
      obtain ⟨bindGroup, hbindGroup, ⟨layout, hlayout, hgpu⟩, hentries⟩ :=
        exists_right_of_forall₂ hbound group hgroup
      exact ⟨layout, hlayout, (fitsLayout_iff hadmitted hlayout hgpu hentries).mpr
        ⟨hdispatch.bindings bindGroup hbindGroup, hdispatch.long bindGroup hbindGroup⟩⟩
    · intro entry hentry first hfirst
      obtain ⟨group, hgroup, hin⟩ := List.mem_flatMap.mp hentry
      obtain ⟨bindGroup, hbindGroup, -, hentries⟩ := exists_right_of_forall₂ hbound group hgroup
      obtain ⟨range, hrange, hrangeBound⟩ := exists_right_of_forall₂ hentries entry hin
      have hinside := (inside_iff h hentry hrangeBound).mp
        (hdispatch.inside bindGroup hbindGroup range hrange) first hfirst
      have husable := (usable_iff h hentry).mp
        ⟨fun hrole => hdispatch.writable entry (mem_inputBindings.mpr ⟨hentry, hrole⟩),
          fun hrole => hdispatch.copyable entry (mem_outputBindings.mpr ⟨hentry, hrole⟩)⟩
        first hfirst
      exact ⟨husable.1, hinside, husable.2⟩
  · intro hcoherent
    have hfits : ∀ bindGroup ∈ resources.bindGroups,
        ((bindGroup.entries.map (·.binding)).Nodup ∧
          (bindGroup.entries.map (·.binding)).Perm (bindGroup.layout.map (·.binding))) ∧
        ∀ range ∈ bindGroup.entries, ∀ layoutEntry ∈ bindGroup.layout,
          layoutEntry.binding = range.binding → layoutEntry.minBindingSize ≤ range.size := by
      intro bindGroup hbindGroup
      obtain ⟨group, hgroup, ⟨layout, hlayout, hgpu⟩, hentries⟩ :=
        exists_left_of_forall₂ hbound bindGroup hbindGroup
      obtain ⟨found, hfound, hfit⟩ := hcoherent.layouts group hgroup
      rw [hlayout] at hfound
      cases hfound
      exact (fitsLayout_iff hadmitted hlayout hgpu hentries).mp hfit
    have husable : ∀ entry ∈ descriptor.entries, _ := fun entry hentry =>
      (usable_iff h hentry).mpr (fun first hfirst =>
        have hfit := hcoherent.resources entry hentry first hfirst
        ⟨hfit.1, hfit.2.2⟩)
    refine ⟨fun bindGroup hb => (hfits bindGroup hb).1, ?_, fun bindGroup hb => (hfits bindGroup hb).2,
      ?_, ?_⟩
    · intro bindGroup hbindGroup range hrange
      obtain ⟨group, hgroup, -, hentries⟩ := exists_left_of_forall₂ hbound bindGroup hbindGroup
      obtain ⟨entry, hentry, hrangeBound⟩ := exists_left_of_forall₂ hentries range hrange
      have hin := hmem group hgroup entry hentry
      exact (inside_iff h hin hrangeBound).mpr (fun first hfirst =>
        (hcoherent.resources entry hin first hfirst).2.1)
    · intro entry hentry
      obtain ⟨hin, hrole⟩ := mem_inputBindings.mp hentry
      exact (husable entry hin).1 hrole
    · intro entry hentry
      obtain ⟨hin, hrole⟩ := mem_outputBindings.mp hentry
      exact (husable entry hin).2 hrole

end Equivalence

/-- An accepted kernel with its declared inputs gets a dispatchable session exactly when its
    descriptor is coherent. -/
theorem admitted_dispatchable_iff {jsonParse : String → Except String JsValue}
    {wgsl reflection : JsValue} (hload : loadFaberKernel jsonParse wgsl reflection = .ok descriptor)
    (hinputs : DeclaredInputs descriptor initialInputs)
    (hdevice : AllocatesBuffers device descriptor) (made : Nat) :
    (∃ session, createWebGpuResources device made descriptor initialInputs = .ok session ∧
      Dispatchable descriptor session.1) ↔ Coherent descriptor := by
  have hadmitted := admitted_of_load hload
  constructor
  · rintro ⟨session, hsession, hdispatch⟩
    exact (dispatchable_iff hadmitted (createdFrom_of_create hsession)).mp hdispatch
  · intro hcoherent
    have hlayouts : ∀ group ∈ descriptor.bindGroups,
        ∃ layout, descriptor.layoutInEffect group.bindGroupIndex = some layout := by
      intro group hgroup
      obtain ⟨layout, hlayout, -⟩ := hcoherent.layouts group hgroup
      exact ⟨layout, hlayout⟩
    obtain ⟨session, hsession⟩ :=
      @createWebGpuResources_returns _ made _ _ hadmitted hinputs hdevice hlayouts
    exact ⟨session, hsession,
      (dispatchable_iff hadmitted (createdFrom_of_create hsession)).mpr hcoherent⟩

end Descriptors

namespace Reflections

/-- A binding of one word, as its number, its resource, its role and its offset. -/
structure Binding where
  binding : Nat
  resource : Nat
  role : Role
  offset : Nat

namespace Binding

def bufferType (binding : Binding) : String :=
  match binding.role with
  | .input => "read-only-storage"
  | .output => "storage"

/-- The fields that layout entries and group entries share. -/
def fields (binding : Binding) : List (String × JsValue) :=
  [("binding", .ofNat binding.binding), ("binding_index", .ofNat binding.binding),
    ("resource_index", .ofNat binding.resource), ("buffer_byte_len", .ofNat 4),
    ("buffer_byte_offset", .ofNat binding.offset), ("binding_byte_len", .ofNat 4),
    ("min_binding_size", .ofNat 4), ("has_dynamic_offset", .bool false),
    ("buffer_type", .str binding.bufferType)]

def layoutEntry (binding : Binding) : JsValue :=
  .obj (binding.fields ++ [("visibility", .str "compute"),
    ("layout_entry_index", .ofNat binding.binding)])

def entry (binding : Binding) : JsValue :=
  .obj (binding.fields ++ [("kind", .str "storage-buffer"), ("element_layout", .str "f32"),
    ("element_byte_width", .ofNat 4), ("element_count", .ofNat 1),
    ("shader_visibility", .str "compute")] ++
    match binding.role with
    | .input => [("role", .str "input"), ("access", .str "read"), ("shader_access", .str "read")]
    | .output =>
      [("role", .str "output"), ("access", .str "write"), ("shader_access", .str "read_write")])

end Binding

def indexes (bindings : List Binding) : JsValue := .arr (bindings.map (fun b => .ofNat b.binding))

/-- One kernel with one group, whose layout has the first of its bindings. -/
def reflection (bindings : List Binding) (declared : Nat) : JsValue :=
  let layout := bindings.take declared
  let workgroups : JsValue := .obj [("x", .ofNat 1), ("y", .ofNat 1), ("z", .ofNat 1)]
  let adapter : JsValue := .obj [
    ("pipeline_layout_descriptor", .obj [("bind_group_layout_indexes", .arr [.ofNat 0]),
      ("bind_group_layout_count", .ofNat 1), ("bind_group_layout_index_count", .ofNat 1)]),
    ("bind_group_layout_descriptor_count", .ofNat 1),
    ("bind_group_layout_descriptor_index_count", .ofNat 1),
    ("bind_group_layout_descriptor_indexes", .arr [.ofNat 0]),
    ("bind_group_layout_descriptors", .arr [.obj [("bind_group_index", .ofNat 0),
      ("group", .ofNat 0), ("entry_count", .ofNat layout.length),
      ("layout_entry_index_count", .ofNat layout.length),
      ("layout_entry_indexes", indexes layout),
      ("entries", .arr (layout.map Binding.layoutEntry))]]),
    ("bind_group_descriptor_count", .ofNat 1), ("bind_group_descriptor_index_count", .ofNat 1),
    ("bind_group_descriptor_indexes", .arr [.ofNat 0]),
    ("bind_group_descriptors", .arr [.obj [("bind_group_index", .ofNat 0), ("group", .ofNat 0),
      ("entry_count", .ofNat bindings.length), ("entry_index_count", .ofNat bindings.length),
      ("entry_indexes", indexes bindings), ("entries", .arr (bindings.map Binding.entry))]]),
    ("dispatch_workgroup_dimension_count", .ofNat 3), ("dispatch_workgroups", workgroups)]
  .obj [("schema_version", .ofNat 1), ("target", .str "wgsl-text"),
    ("kernels", .arr [.obj [("shader_stage", .str "compute"), ("entry_name", .str "main"),
      ("launch", .obj [("shader_stage", .str "compute"), ("entry_name", .str "main"),
        ("webgpu_adapter", adapter)])]])]

def load (bindings : List Binding) (declared : Nat) : Except Thrown KernelDescriptor :=
  loadFaberKernel (fun _ => .error "") (.str "") (reflection bindings declared)

def device : GpuDevice := ⟨none, none, fun _ => true, true⟩

/-- One word for every input. -/
def inputs : String → InputValue := fun _ => .float32Array [0]

theorem declaredInputs_of_words {descriptor : KernelDescriptor}
    (h : ∀ entry ∈ descriptor.inputBindings,
      entry.kind = .storageBuffer ∧ entry.bufferByteLen = 4) :
    DeclaredInputs descriptor inputs := by
  intro entry hentry
  obtain ⟨hkind, hlength⟩ := h entry hentry
  refine ⟨[0], ?_, hlength.symm⟩
  simp [expectInput, hkind, inputs]

theorem allocates_device (descriptor : KernelDescriptor) : AllocatesBuffers device descriptor :=
  fun _ _ => ⟨rfl, rfl⟩

end Reflections

open Reflections in
theorem input_and_output_dispatchable : ∃ descriptor,
    load [⟨0, 0, .input, 0⟩, ⟨1, 1, .output, 0⟩] 2 = .ok descriptor ∧
    ((∃ session, createWebGpuResources device 0 descriptor inputs = .ok session ∧
      Dispatchable descriptor session.1) ↔ Coherent descriptor) := by
  have hload : (load [⟨0, 0, .input, 0⟩, ⟨1, 1, .output, 0⟩] 2).toOption.any (fun descriptor =>
      decide (∀ entry ∈ descriptor.inputBindings,
        entry.kind = .storageBuffer ∧ entry.bufferByteLen = 4)) = true := by
    decide +kernel
  obtain ⟨descriptor, hload, hwords⟩ := (Option.any_eq_true _ _).mp hload
  have hloaded := toOption_eq_some_iff.mp hload
  exact ⟨descriptor, hloaded, admitted_dispatchable_iff hloaded
    (declaredInputs_of_words (of_decide_eq_true hwords)) (allocates_device descriptor) 0⟩

namespace Reflections

/-- Accepted and its resources built, but not dispatchable. -/
def Stuck (bindings : List Binding) (layoutBindings : Nat) : Prop :=
  ∃ descriptor session, load bindings layoutBindings = .ok descriptor ∧
    DeclaredInputs descriptor inputs ∧
    createWebGpuResources device 0 descriptor inputs = .ok session ∧
    ¬ Dispatchable descriptor session.1

theorem stuck_of_incoherent {bindings : List Binding} {layoutBindings : Nat}
    (h : (load bindings layoutBindings).toOption.any (fun descriptor =>
      decide (∀ entry ∈ descriptor.inputBindings,
        entry.kind = .storageBuffer ∧ entry.bufferByteLen = 4) &&
      (createWebGpuResources device 0 descriptor inputs).toOption.isSome &&
      !decide (Coherent descriptor)) = true) : Stuck bindings layoutBindings := by
  obtain ⟨descriptor, hfound, hends⟩ := (Option.any_eq_true _ _).mp h
  simp only [Bool.and_eq_true, decide_eq_true_eq, Bool.not_eq_true', decide_eq_false_iff_not]
    at hends
  obtain ⟨⟨hwords, hcreated⟩, hincoherent⟩ := hends
  obtain ⟨session, hsession⟩ := Option.isSome_iff_exists.mp hcreated
  have hloaded := toOption_eq_some_iff.mp hfound
  have hsession := toOption_eq_some_iff.mp hsession
  refine ⟨descriptor, session, hloaded, declaredInputs_of_words hwords, hsession, ?_⟩
  rw [dispatchable_iff (admitted_of_load hloaded) (createdFrom_of_create hsession)]
  exact hincoherent

end Reflections

open Reflections in
/-- A binding the layout does not have, a range behind the end of its buffer, and an input of a
    resource whose first entry is an output. -/
theorem admitted_not_dispatchable :
    Stuck [⟨0, 0, .input, 0⟩, ⟨1, 1, .output, 0⟩] 1 ∧ Stuck [⟨0, 0, .output, 4⟩] 1 ∧
      Stuck [⟨0, 0, .output, 0⟩, ⟨1, 0, .input, 0⟩] 2 := by
  refine ⟨stuck_of_incoherent ?_, stuck_of_incoherent ?_, stuck_of_incoherent ?_⟩ <;>
    decide +kernel

end FaberHosts.WebGpu
