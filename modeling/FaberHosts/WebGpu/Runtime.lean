import FaberHosts.WebGpu.Admission
import Std.Data.ExtTreeMap

/-!
# Compute resources

`public/src/backend/webgpu-runtime.js`: the buffers, layouts and bind groups of a compute session.
The GPU objects are records of what they were created with; buffers are numbered in the order of
their creation.
-/

namespace FaberHosts.WebGpu
open FaberHosts.Lib

/-! ## The device -/

/-- The argument of `createBuffer`. -/
structure BufferRequest where
  size : JsNumber
  usage : JsNumber
  mappedAtCreation : JsValue

/-- What the host asks of a device; `allocates` says when `createBuffer` returns. -/
structure GpuDevice where
  maxBufferSize : Option JsNumber
  maxComputeWorkgroupsPerDimension : Option Nat
  allocates : BufferRequest → Bool
  onSubmittedWorkDone : Bool

/-- A buffer, with the words written to it while it was mapped at its creation. -/
structure GpuBuffer where
  id : Nat
  size : JsNumber
  usage : JsNumber
  initial : Option (List UInt32)
  deriving DecidableEq

/-- `device.createBuffer`, as the device's next buffer. -/
def GpuDevice.createBuffer (device : GpuDevice) (id : Nat) (request : BufferRequest) :
    Except Thrown GpuBuffer :=
  if device.allocates request then .ok ⟨id, request.size, request.usage, none⟩ else .error .builtin

namespace GpuBufferUsage

def COPY_SRC : Nat := 0x4
def COPY_DST : Nat := 0x8
def STORAGE : Nat := 0x80

end GpuBufferUsage

open GpuBufferUsage

/-- `bufferUsageForRole`. -/
def bufferUsageForRole : Role → Nat
  | .input => STORAGE ||| COPY_DST
  | .output => STORAGE ||| COPY_SRC

def validateBufferSize (device : GpuDevice) (size : JsNumber) (label : String) :
    Except Thrown Unit :=
  match device.maxBufferSize with
  | none => .ok ()
  | some maxSize =>
    if maxSize.lt size then .error (.contract ⟨label, .exceedsMaxBufferSize size maxSize, .webgpu⟩)
    else .ok ()

/-! ## Buffers -/

/-- A value given as an initial input. -/
inductive InputValue where
  | float32Array (words : List UInt32)
  | uint32Array (words : List UInt32)
  | other

/-- An entry of the buffer map; those of `createBuffers` have no list of buffers. -/
structure ComputeEntry where
  buffer : GpuBuffer
  generation : Nat
  logicalId : Nat
  buffers : Option (List GpuBuffer)
  deriving DecidableEq

abbrev ComputeEntries := Std.ExtTreeMap Nat ComputeEntry

def inputName (entry : BindGroupEntry) : String :=
  entry.sourceName.getD s!"resource_{entry.resourceIndex}"

/-- The words of an input of the kind that the entry wants. -/
def expectInput (entry : BindGroupEntry) (value : InputValue) : Except Thrown (List UInt32) :=
  match entry.kind, value with
  | .runtimeExtent, .uint32Array words => .ok words
  | .runtimeExtent, _ =>
    .error (contractError s!"initialInputs.{inputName entry}"
      "expected Uint32Array for runtime-extent")
  | .storageBuffer, .float32Array words => .ok words
  | .storageBuffer, _ =>
    .error (contractError s!"initialInputs.{inputName entry}" "expected Float32Array")

def writeInitialInput (buffer : GpuBuffer) (entry : BindGroupEntry)
    (initialInputs : String → InputValue) : Except Thrown GpuBuffer := do
  let words ← expectInput entry (initialInputs (inputName entry))
  if 4 * words.length ≠ entry.bufferByteLen then
    throw (contractError s!"initialInputs.{inputName entry}"
      s!"expected {entry.bufferByteLen} bytes, got {4 * words.length}")
  return { buffer with initial := some words }

/-- The request of `createBuffers` for an entry. -/
def bufferRequest (entry : BindGroupEntry) : BufferRequest where
  size := .ofNat entry.bufferByteLen
  usage := .ofNat (bufferUsageForRole entry.role)
  mappedAtCreation := .bool (entry.role = .input)

/-- The buffer of a resource, created from the entry that declares it. -/
def declareBuffer (device : GpuDevice) (initialInputs : String → InputValue) (id : Nat)
    (entry : BindGroupEntry) : Except Thrown GpuBuffer := do
  validateBufferSize device (.ofNat entry.bufferByteLen)
    s!"createBuffers.resource[{entry.resourceIndex}].bufferByteLen"
  let buffer ← device.createBuffer id (bufferRequest entry)
  match entry.role with
  | .input => writeInitialInput buffer entry initialInputs
  | .output => return buffer

/-- The buffers so far, and the number of buffers the device has created. -/
structure CreatedBuffers where
  buffers : ComputeEntries
  made : Nat

/-- One turn of the loops of `createBuffers`: the first entry of a resource declares it. -/
def createBuffersStep (device : GpuDevice) (initialInputs : String → InputValue)
    (created : CreatedBuffers) (entry : BindGroupEntry) : Except Thrown CreatedBuffers :=
  if entry.resourceIndex ∈ created.buffers then .ok created
  else do
    let buffer ← declareBuffer device initialInputs created.made entry
    return {
      buffers := created.buffers.insert entry.resourceIndex ⟨buffer, 0, entry.resourceIndex, none⟩
      made := created.made + 1 }

/-- The entries of all groups, in order. -/
def KernelDescriptor.entries (descriptor : KernelDescriptor) : List BindGroupEntry :=
  descriptor.bindGroups.flatMap (·.entries)

def createBuffers (device : GpuDevice) (made : Nat) (descriptor : KernelDescriptor)
    (initialInputs : String → InputValue) : Except Thrown CreatedBuffers :=
  descriptor.entries.foldlM (createBuffersStep device initialInputs) ⟨∅, made⟩

/-! ## Layouts and bind groups -/

/-- An entry of `createBindGroupLayout`. -/
structure GpuLayoutEntry where
  binding : Nat
  visibility : Visibility
  bufferType : BufferType
  minBindingSize : Nat
  deriving DecidableEq

abbrev GpuBindGroupLayout := List GpuLayoutEntry

def LayoutEntry.toGpu (entry : LayoutEntry) : GpuLayoutEntry :=
  ⟨entry.binding, entry.visibility, entry.bufferType, entry.minBindingSize⟩

/-- A later layout of an index replaces an earlier one. -/
def createBindGroupLayouts (descriptor : KernelDescriptor) :
    Std.ExtTreeMap Nat GpuBindGroupLayout :=
  descriptor.bindGroupLayouts.foldl (fun layouts layout =>
    layouts.insert layout.bindGroupIndex (layout.entries.map LayoutEntry.toGpu)) ∅

def createPipelineLayout (descriptor : KernelDescriptor)
    (bindGroupLayouts : Std.ExtTreeMap Nat GpuBindGroupLayout) :
    Except Thrown (List GpuBindGroupLayout) :=
  descriptor.bindGroupLayoutIndexes.mapM (fun index =>
    match bindGroupLayouts[index]? with
    | some layout => .ok layout
    | none => .error (contractError "pipelineLayout.bindGroupLayoutIndexes"
        s!"missing layout {index}"))

/-- A binding of a bind group: the bytes `[offset, offset + size)` of a buffer. -/
structure BoundRange where
  binding : Nat
  buffer : GpuBuffer
  offset : Nat
  size : Nat
  deriving DecidableEq

structure GpuBindGroup where
  bindGroupIndex : Nat
  layout : GpuBindGroupLayout
  entries : List BoundRange
  deriving DecidableEq

def bindEntry (buffers : ComputeEntries) (entry : BindGroupEntry) : Except Thrown BoundRange :=
  match buffers[entry.resourceIndex]? with
  | some computeEntry =>
    .ok ⟨entry.binding, computeEntry.buffer, entry.bufferByteOffset, entry.bindingByteLen⟩
  | none => .error (contractError "buffers" s!"missing resource {entry.resourceIndex}")

def createBindGroup (bindGroupLayouts : Std.ExtTreeMap Nat GpuBindGroupLayout)
    (buffers : ComputeEntries) (group : BindGroup) : Except Thrown GpuBindGroup :=
  match bindGroupLayouts[group.bindGroupIndex]? with
  | none => .error (contractError "bindGroupLayouts" s!"missing layout {group.bindGroupIndex}")
  | some layout => do
    let entries ← group.entries.mapM (bindEntry buffers)
    return ⟨group.bindGroupIndex, layout, entries⟩

def createBindGroups (descriptor : KernelDescriptor)
    (bindGroupLayouts : Std.ExtTreeMap Nat GpuBindGroupLayout) (buffers : ComputeEntries) :
    Except Thrown (List GpuBindGroup) :=
  descriptor.bindGroups.mapM (createBindGroup bindGroupLayouts buffers)

/-! ## The session -/

/-- A group of buffers that waits for its destruction. -/
structure RetireGroup where
  logicalId : Nat
  generation : Nat
  buffers : List GpuBuffer
  deriving DecidableEq

structure Counters where
  created : Int
  live : Int
  retired : Int
  destroyed : Int
  deriving DecidableEq

structure ComputeResources where
  buffers : ComputeEntries
  bindGroupLayouts : Std.ExtTreeMap Nat GpuBindGroupLayout
  pipelineLayout : List GpuBindGroupLayout
  bindGroups : List GpuBindGroup
  pendingRetire : List RetireGroup
  counters : Counters

/-- The session, with the number of buffers the device has created. -/
def createWebGpuResources (device : GpuDevice) (made : Nat) (descriptor : KernelDescriptor)
    (initialInputs : String → InputValue) : Except Thrown (ComputeResources × Nat) := do
  let created ← createBuffers device made descriptor initialInputs
  let bindGroupLayouts := createBindGroupLayouts descriptor
  let pipelineLayout ← createPipelineLayout descriptor bindGroupLayouts
  let bindGroups ← createBindGroups descriptor bindGroupLayouts created.buffers
  return ({
    buffers := created.buffers
    bindGroupLayouts := bindGroupLayouts
    pipelineLayout := pipelineLayout
    bindGroups := bindGroups
    pendingRetire := []
    counters := ⟨0, 0, 0, 0⟩ }, created.made)

end FaberHosts.WebGpu
