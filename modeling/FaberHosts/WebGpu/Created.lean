import FaberHosts.WebGpu.Runtime
import FaberHosts.Lib.Scan

/-!
# What `createWebGpuResources` creates

One buffer for each resource, made from the first entry of the resource, and one bind group for
each group.
-/

namespace FaberHosts.WebGpu
open FaberHosts.Lib

variable {device : GpuDevice} {initialInputs : String → InputValue} {descriptor : KernelDescriptor}
  {seen : List BindGroupEntry} {made : Nat} {created : CreatedBuffers}

theorem getElem?_insert_entry {buffers : ComputeEntries} {i j : Nat} {entry : ComputeEntry} :
    (buffers.insert i entry)[j]? = if i = j then some entry else buffers[j]? := by
  rw [Std.ExtTreeMap.getElem?_insert]
  simp only [Nat.compare_eq_eq]

/-- The first entry of a resource. -/
def declaring (entries : List BindGroupEntry) (resourceIndex : Nat) : Option BindGroupEntry :=
  entries.find? (·.resourceIndex = resourceIndex)

theorem exists_declaring {entry : BindGroupEntry} (h : entry ∈ seen) :
    ∃ first, declaring seen entry.resourceIndex = some first := by
  cases hfound : declaring seen entry.resourceIndex with
  | none =>
    have := List.find?_eq_none.mp hfound entry h
    simp at this
  | some first => exact ⟨first, rfl⟩

theorem declaring_concat (entry : BindGroupEntry) (index : Nat) :
    declaring (seen ++ [entry]) index = (declaring seen index).or
      (if entry.resourceIndex = index then some entry else none) := by
  unfold declaring
  rw [List.find?_append]
  congr 1
  by_cases h : entry.resourceIndex = index <;> simp [h]

/-- The buffers after the loops have walked `seen`. -/
structure Declares (device : GpuDevice) (initialInputs : String → InputValue)
    (seen : List BindGroupEntry) (created : CreatedBuffers) : Prop where
  absent : ∀ index, declaring seen index = none → created.buffers[index]? = none
  present : ∀ index entry, declaring seen index = some entry → ∃ buffer,
    created.buffers[index]? = some ⟨buffer, 0, index, none⟩ ∧
      declareBuffer device initialInputs buffer.id entry = .ok buffer ∧ buffer.id < created.made
  apart : ∀ (i j : Nat) (e e' : ComputeEntry), created.buffers[i]? = some e → created.buffers[j]? = some e' →
    e.buffer.id = e'.buffer.id → i = j

theorem createBuffer_id {id : Nat} {request : BufferRequest} {buffer : GpuBuffer}
    (h : device.createBuffer id request = .ok buffer) :
    buffer = ⟨id, request.size, request.usage, none⟩ := by
  unfold GpuDevice.createBuffer at h
  split at h
  · exact (Except.ok.inj h).symm
  · cases h

theorem writeInitialInput_eq {buffer written : GpuBuffer} {entry : BindGroupEntry}
    (h : writeInitialInput buffer entry initialInputs = .ok written) :
    ∃ words, expectInput entry (initialInputs (inputName entry)) = .ok words ∧
      written = { buffer with initial := some words } := by
  obtain ⟨words, hwords, hrest⟩ := bind_ok_iff.mp h
  split at hrest
  · cases hrest
  · exact ⟨words, hwords, (Except.ok.inj hrest).symm⟩

theorem declareBuffer_eq {id : Nat} {entry : BindGroupEntry} {buffer : GpuBuffer}
    (h : declareBuffer device initialInputs id entry = .ok buffer) :
    buffer.id = id ∧ buffer.size = .ofNat entry.bufferByteLen ∧
      buffer.usage = .ofNat (bufferUsageForRole entry.role) ∧
      (buffer.initial.isSome ↔ entry.role = .input) := by
  obtain ⟨-, -, hrest⟩ := bind_ok_iff.mp h
  obtain ⟨raw, hraw, hrest⟩ := bind_ok_iff.mp hrest
  have heq := createBuffer_id hraw
  cases hrole : entry.role with
  | input =>
    rw [hrole] at hrest
    obtain ⟨words, -, rfl⟩ := writeInitialInput_eq hrest
    simp [heq, bufferRequest, hrole]
  | output =>
    rw [hrole] at hrest
    cases hrest
    simp [heq, bufferRequest, hrole]

theorem Declares.fresh (h : Declares device initialInputs seen created) {index : Nat}
    {entry : ComputeEntry} (hentry : created.buffers[index]? = some entry) :
    entry.buffer.id < created.made := by
  cases hfound : declaring seen index with
  | none =>
    rw [h.absent index hfound] at hentry
    cases hentry
  | some first =>
    obtain ⟨buffer, hbuffer, -, hold⟩ := h.present index first hfound
    rw [hbuffer] at hentry
    cases hentry
    exact hold

theorem declares_step {entry : BindGroupEntry} {next : CreatedBuffers}
    (h : Declares device initialInputs seen created)
    (hstep : createBuffersStep device initialInputs created entry = .ok next) :
    Declares device initialInputs (seen ++ [entry]) next := by
  unfold createBuffersStep at hstep
  split at hstep
  · next hmem =>
    -- the resource is declared by an earlier entry
    cases hstep
    have hsame : ∀ index, declaring (seen ++ [entry]) index = declaring seen index := by
      intro index
      rw [declaring_concat]
      cases hfound : declaring seen index with
      | some first => rfl
      | none =>
        by_cases hindex : entry.resourceIndex = index
        · have hnone := h.absent index hfound
          rw [hindex, Std.ExtTreeMap.mem_iff_isSome_getElem?, hnone] at hmem
          cases hmem
        · simp [hindex]
    exact ⟨fun index hindex => h.absent index (by rw [← hsame, hindex]),
      fun index first hindex => h.present index first (by rw [← hsame, hindex]), h.apart⟩
  · next hmem =>
    obtain ⟨buffer, hbuffer, hnext⟩ := bind_ok_iff.mp hstep
    cases hnext
    have hid := (declareBuffer_eq hbuffer).1
    have hnone : created.buffers[entry.resourceIndex]? = none := by
      rw [Std.ExtTreeMap.mem_iff_isSome_getElem?, Option.not_isSome_iff_eq_none] at hmem
      exact hmem
    have hfirst : declaring seen entry.resourceIndex = none := by
      cases hfound : declaring seen entry.resourceIndex with
      | none => rfl
      | some first =>
        obtain ⟨other, hother, -⟩ := h.present _ first hfound
        rw [hother] at hnone
        cases hnone
    refine ⟨?_, ?_, ?_⟩
    · intro index hindex
      rw [declaring_concat, Option.or_eq_none_iff] at hindex
      have hne : entry.resourceIndex ≠ index := by
        intro heq
        rw [if_pos heq] at hindex
        exact nomatch hindex.2
      show (created.buffers.insert _ _)[index]? = none
      rw [getElem?_insert_entry, if_neg hne, h.absent index hindex.1]
    · intro index first hindex
      rw [declaring_concat] at hindex
      by_cases heq : entry.resourceIndex = index
      · subst heq
        rw [hfirst] at hindex
        simp only [if_true, Option.none_or, Option.some.injEq] at hindex
        subst hindex
        refine ⟨buffer, by simp, by rw [hid]; exact hbuffer, ?_⟩
        show buffer.id < created.made + 1
        omega
      · simp only [heq, if_false, Option.or_none] at hindex
        obtain ⟨other, hother, hdeclared, hold⟩ := h.present index first hindex
        refine ⟨other, ?_, hdeclared, ?_⟩
        · show (created.buffers.insert _ _)[index]? = _
          rw [getElem?_insert_entry, if_neg heq, hother]
        · show other.id < created.made + 1
          omega
    · intro i j e e' hi hj hsame
      simp only [getElem?_insert_entry] at hi hj
      by_cases hi' : entry.resourceIndex = i
      · by_cases hj' : entry.resourceIndex = j
        · omega
        · rw [if_pos hi', Option.some.injEq] at hi
          rw [if_neg hj'] at hj
          have := h.fresh hj
          simp only [← hi] at hsame
          omega
      · rw [if_neg hi'] at hi
        by_cases hj' : entry.resourceIndex = j
        · rw [if_pos hj', Option.some.injEq] at hj
          have := h.fresh hi
          simp only [← hj] at hsame
          omega
        · rw [if_neg hj'] at hj
          exact h.apart i j e e' hi hj hsame

theorem declares_createBuffers
    (h : createBuffers device made descriptor initialInputs = .ok created) :
    Declares device initialInputs descriptor.entries created := by
  have hnone : Declares device initialInputs [] ⟨∅, made⟩ :=
    ⟨fun _ _ => by simp, nofun, fun _ _ _ _ hi => by simp at hi⟩
  simpa using foldlM_preserves (fun _ _ _ _ _ => declares_step) hnone h

/-! ## The session -/

/-- What a session is created from. -/
structure CreatedFrom (device : GpuDevice) (initialInputs : String → InputValue)
    (descriptor : KernelDescriptor) (resources : ComputeResources) (made : Nat) : Prop where
  buffers : Declares device initialInputs descriptor.entries ⟨resources.buffers, made⟩
  layouts : resources.bindGroupLayouts = createBindGroupLayouts descriptor
  bindGroups : List.Forall₂ (fun group bindGroup =>
    createBindGroup resources.bindGroupLayouts resources.buffers group = .ok bindGroup)
    descriptor.bindGroups resources.bindGroups
  pendingRetire : resources.pendingRetire = []
  counters : resources.counters = ⟨0, 0, 0, 0⟩

theorem createdFrom_of_create {session : ComputeResources × Nat}
    (h : createWebGpuResources device made descriptor initialInputs = .ok session) :
    CreatedFrom device initialInputs descriptor session.1 session.2 := by
  obtain ⟨created, hcreated, hrest⟩ := bind_ok_iff.mp h
  obtain ⟨pipelineLayout, -, hrest⟩ := bind_ok_iff.mp hrest
  obtain ⟨bindGroups, hgroups, hrest⟩ := bind_ok_iff.mp hrest
  cases hrest
  exact ⟨declares_createBuffers hcreated, rfl, forall₂_of_mapM_ok hgroups, rfl, rfl⟩

theorem createBindGroup_eq {layouts : Std.ExtTreeMap Nat GpuBindGroupLayout}
    {buffers : ComputeEntries} {group : BindGroup} {bindGroup : GpuBindGroup}
    (h : createBindGroup layouts buffers group = .ok bindGroup) :
    bindGroup.bindGroupIndex = group.bindGroupIndex ∧
      layouts[group.bindGroupIndex]? = some bindGroup.layout ∧
      List.Forall₂ (fun entry range => bindEntry buffers entry = .ok range) group.entries
        bindGroup.entries := by
  unfold createBindGroup at h
  split at h
  · cases h
  · next layout hlayout =>
    obtain ⟨entries, hentries, hrest⟩ := bind_ok_iff.mp h
    cases hrest
    exact ⟨rfl, hlayout, forall₂_of_mapM_ok hentries⟩

theorem bindEntry_eq {buffers : ComputeEntries} {entry : BindGroupEntry} {range : BoundRange}
    (h : bindEntry buffers entry = .ok range) : ∃ computeEntry,
      buffers[entry.resourceIndex]? = some computeEntry ∧
      range = ⟨entry.binding, computeEntry.buffer, entry.bufferByteOffset, entry.bindingByteLen⟩ := by
  unfold bindEntry at h
  split at h
  · next computeEntry hentry => exact ⟨computeEntry, hentry, (Except.ok.inj h).symm⟩
  · cases h

end FaberHosts.WebGpu
