import FaberHosts.WebGpu.Lifecycle

/-!
# Chains of kernels

`dispatchChainFromDescriptor` of `webgpu-runtime.js`, up to the submission: the buffers of the
identities, the slots they are bound to, and the bind groups of every kernel.  A map of the source
that is only read by key is a list with the latest entry first.
-/

namespace FaberHosts.WebGpu
open FaberHosts.Lib

/-! ## The descriptor -/

structure StorageBuffer where
  binding : Nat
  size : Nat
  deriving DecidableEq

/-- An entry of `bind_group_layout`. -/
structure LayoutBinding where
  binding : Nat
  group : Nat
  bufferIndex : Nat
  deriving DecidableEq

structure ChainKernel where
  entryPoint : String
  source : String
  storageBuffers : List StorageBuffer
  bindGroupLayout : List LayoutBinding
  outputBindings : List Nat
  workgroupSize : DispatchWorkgroups
  deriving DecidableEq

structure BufferIdentity where
  outputKernelIndex : Nat
  outputBinding : Nat
  inputKernelIndex : Nat
  inputBinding : Nat
  deriving DecidableEq

/-- A descriptor without identities has the empty list of them. -/
structure KernelChainDescriptor where
  chain : List ChainKernel
  bufferIdentities : List BufferIdentity
  deriving DecidableEq

def bufferIndexByBinding (kernel : ChainKernel) (binding : Nat) : Option Nat :=
  (kernel.bindGroupLayout.find? (·.binding = binding)).map (·.bufferIndex)

def storageBufferByBinding (kernel : ChainKernel) (binding : Nat) : Option StorageBuffer :=
  (bufferIndexByBinding kernel binding).bind (kernel.storageBuffers[·]?)

/-! ## Identities -/

/-- A kernel and one of its binding numbers, or a kernel and one of its buffer positions. -/
abbrev KernelSlot := Nat × Nat

def BufferIdentity.producer (identity : BufferIdentity) : KernelSlot :=
  (identity.outputKernelIndex, identity.outputBinding)

def BufferIdentity.consumer (identity : BufferIdentity) : KernelSlot :=
  (identity.inputKernelIndex, identity.inputBinding)

def identityError (role : String) (binding kernelIndex : Nat) (kernel : ChainKernel) : Thrown :=
  contractError "dispatchChainFromDescriptor.buffer_identities"
    (s!"buffer_identity {role} {binding} of kernel {kernelIndex} (\"{kernel.entryPoint}\") " ++
      "is not present in bind_group_layout")

/-- The intermediates by producer binding, and the number of buffers the device has created. -/
structure Intermediates where
  buffers : List (KernelSlot × GpuBuffer)
  made : Nat

def intermediateRequest (decl : StorageBuffer) : BufferRequest where
  size := .ofNat decl.size
  usage := .ofNat (GpuBufferUsage.STORAGE ||| GpuBufferUsage.COPY_SRC ||| GpuBufferUsage.COPY_DST)
  mappedAtCreation := .undefined

/-- One turn of the first loop: an intermediate for each producer binding. -/
def allocateIntermediate (device : GpuDevice) (descriptor : KernelChainDescriptor)
    (intermediates : Intermediates) (identity : BufferIdentity) : Except Thrown Intermediates :=
  match descriptor.chain[identity.outputKernelIndex]? with
  | none => .ok intermediates
  | some producer =>
    match storageBufferByBinding producer identity.outputBinding with
    | none => .error (identityError "output_binding" identity.outputBinding
        identity.outputKernelIndex producer)
    | some decl =>
      if (intermediates.buffers.lookup identity.producer).isSome then .ok intermediates
      else do
        let buffer ← device.createBuffer intermediates.made (intermediateRequest decl)
        return {
          buffers := (identity.producer, buffer) :: intermediates.buffers
          made := intermediates.made + 1 }

/-- The intermediates by kernel and buffer position. -/
abbrev ChainedSlots := List (KernelSlot × GpuBuffer)

/-- One turn of the second loop: the slots of producer and consumer get the intermediate. -/
def mapIdentity (descriptor : KernelChainDescriptor) (intermediates : Intermediates)
    (slots : ChainedSlots) (identity : BufferIdentity) : Except Thrown ChainedSlots :=
  match intermediates.buffers.lookup identity.producer with
  | none => .ok slots
  | some buffer =>
    match descriptor.chain[identity.outputKernelIndex]?,
        descriptor.chain[identity.inputKernelIndex]? with
    | some producer, some consumer =>
      match bufferIndexByBinding producer identity.outputBinding with
      | none => .error (identityError "output_binding" identity.outputBinding
          identity.outputKernelIndex producer)
      | some producerIndex =>
        match bufferIndexByBinding consumer identity.inputBinding with
        | none => .error (identityError "input_binding" identity.inputBinding
            identity.inputKernelIndex consumer)
        | some consumerIndex =>
          .ok (((identity.inputKernelIndex, consumerIndex), buffer) ::
            ((identity.outputKernelIndex, producerIndex), buffer) :: slots)
    | _, _ => .ok slots

/-! ## Kernels -/

/-- A binding with its buffer. -/
structure ChainBinding where
  binding : Nat
  buffer : GpuBuffer
  deriving DecidableEq

structure ChainOutput where
  resourceIndex : Nat
  bufferByteLen : Nat
  deriving DecidableEq

structure ChainEntry where
  bindGroups : List (Nat × List ChainBinding)
  dispatchWorkgroups : DispatchWorkgroups
  outputBindings : List ChainOutput
  deriving DecidableEq

/-- The buffer of a layout entry: the intermediate of its slot, or the caller's buffer under the
    number of its declaration. -/
def resolveBinding (slots : ChainedSlots) (externals : Nat → Option GpuBuffer) (kernelIndex : Nat)
    (kernel : ChainKernel) (layout : LayoutBinding) : Except Thrown (Nat × ChainBinding) :=
  match kernel.storageBuffers[layout.bufferIndex]? with
  | none => .error (contractError "dispatchChainFromDescriptor"
      (s!"kernel \"{kernel.entryPoint}\": bind_group_layout buffer_index {layout.bufferIndex} " ++
        s!"(binding {layout.binding}, group {layout.group}) has no storage_buffers declaration"))
  | some bufDecl =>
    match (slots.lookup (kernelIndex, layout.bufferIndex)).or (externals bufDecl.binding) with
    | none => .error (contractError "dispatchChainFromDescriptor"
        (s!"kernel \"{kernel.entryPoint}\": no buffer for buffer_index {layout.bufferIndex} " ++
          s!"(binding {layout.binding}, group {layout.group})"))
    | some buffer => .ok (layout.group, ⟨layout.binding, buffer⟩)

/-- Push an entry onto the list of its group; a new group comes last. -/
def pushEntry (entriesByGroup : List (Nat × List ChainBinding)) (entry : Nat × ChainBinding) :
    List (Nat × List ChainBinding) :=
  match entriesByGroup with
  | [] => [(entry.1, [entry.2])]
  | (group, entries) :: rest =>
    if group = entry.1 then (group, entries ++ [entry.2]) :: rest
    else (group, entries) :: pushEntry rest entry

/-- The outputs of a kernel that are not chained. -/
def outputBinding (slots : ChainedSlots) (kernelIndex : Nat) (kernel : ChainKernel)
    (bufferIndex : Nat) : Except Thrown (Option ChainOutput) :=
  match kernel.storageBuffers[bufferIndex]? with
  | none => .error (contractError "dispatchChainFromDescriptor"
      (s!"kernel \"{kernel.entryPoint}\": output_bindings buffer_index {bufferIndex} " ++
        "has no storage_buffers declaration"))
  | some bufDecl =>
    if (slots.lookup (kernelIndex, bufferIndex)).isSome then .ok none
    else .ok (some ⟨bufDecl.binding, bufDecl.size⟩)

def buildEntry (slots : ChainedSlots) (externals : Nat → Option GpuBuffer)
    (kernel : ChainKernel × Nat) : Except Thrown ChainEntry := do
  let entries ← kernel.1.bindGroupLayout.mapM (resolveBinding slots externals kernel.2 kernel.1)
  let outputs ← kernel.1.outputBindings.mapM (outputBinding slots kernel.2 kernel.1)
  return {
    bindGroups := entries.foldl pushEntry []
    dispatchWorkgroups := kernel.1.workgroupSize
    outputBindings := outputs.filterMap id }

/-! ## Dispatch -/

def validateOutputs (externals : Nat → Option GpuBuffer) (entry : ChainEntry × Nat) :
    Except Thrown Unit :=
  entry.1.outputBindings.forM (fun binding =>
    if (externals binding.resourceIndex).isSome then .ok ()
    else .error (contractError "resources.buffers"
      s!"chain[{entry.2}]: missing output resource {binding.resourceIndex}"))

/-- `runKernelChain` up to the submission of the chain. -/
def runKernelChain (device : GpuDevice) (externals : Nat → Option GpuBuffer)
    (chain : List ChainEntry) : Except Thrown (List ChainEntry) := do
  if chain = [] then
    throw (contractError "runKernelChain" "chain must be a non-empty array of kernel descriptors")
  chain.zipIdx.forM (validateOutputs externals)
  chain.zipIdx.forM (fun entry => validateDispatchWorkgroups device entry.1.dispatchWorkgroups
    s!"runKernelChain.chain[{entry.2}].dispatchWorkgroups")
  return chain

/-- The chain that is submitted, unless something throws before. -/
def dispatchChainFromDescriptor (device : GpuDevice) (made : Nat)
    (externals : Nat → Option GpuBuffer) (descriptor : KernelChainDescriptor) :
    Except Thrown (List ChainEntry) := do
  if descriptor.chain = [] then
    throw (contractError "dispatchChainFromDescriptor" "descriptor.chain must be a non-empty array")
  let intermediates ←
    descriptor.bufferIdentities.foldlM (allocateIntermediate device descriptor) ⟨[], made⟩
  let slots ← descriptor.bufferIdentities.foldlM (mapIdentity descriptor intermediates) []
  let chain ← descriptor.chain.zipIdx.mapM (buildEntry slots externals)
  runKernelChain device externals chain

end FaberHosts.WebGpu
