import FaberHosts.Lib.JsValue
import Mathlib.Data.List.Basic

/-!
# Admission of a compute kernel

`public/src/contract/artifact-admission.js`: the checks on an untrusted reflection, in their order,
and the kernel descriptor they return.  `jsonParse` stands for `JSON.parse`.
-/

namespace FaberHosts.WebGpu
open FaberHosts.Lib

/-! ## Errors -/

inductive ErrorKind where
  | artifactFetch
  | reflection
  | webgpu
  | product
  deriving DecidableEq

/-- The text of a message, or the values that are printed in it. -/
inductive ErrorMessage where
  | text (message : String)
  | expected (expected : JsPrimitive) (got : JsValue)
  | expectedOneOf (accepted : List String) (got : JsValue)
  | expectedNonNegativeInteger (got : JsValue)
  | exceedsMaxBufferSize (size maxSize : JsNumber)
  | exceedsMaxWorkgroups (dimension : String) (value maxPerDim : Nat)

/-- `FaberKernelContractError`. -/
structure ContractError where
  path : String
  message : ErrorMessage
  kind : ErrorKind

/-- What a function of the host throws; `builtin` is an exception of the platform. -/
inductive Thrown where
  | contract (error : ContractError)
  | builtin

def contractError (path message : String) : Thrown := .contract ⟨path, .text message, .reflection⟩

/-! ## Checks on one value -/

def expectObject (value : JsValue) (path : String) : Except Thrown JsValue :=
  match value with
  | .obj _ => .ok value
  | _ => .error (contractError path "expected object")

def expectArray (value : JsValue) (path : String) : Except Thrown (List JsValue) :=
  match value with
  | .arr items => .ok items
  | _ => .error (contractError path "expected array")

def expectString (value : JsValue) (path : String) : Except Thrown String :=
  match value with
  | .str text => .ok text
  | _ => .error (contractError path "expected string")

def nullableString (value : JsValue) (path : String) : Except Thrown (Option String) :=
  if value.isNullish then .ok none else (expectString value path).map some

def expectNonNegativeInteger (value : JsValue) (path : String) : Except Thrown Nat :=
  match value.index with
  | some integer => .ok integer
  | none => .error (contractError path "expected non-negative integer")

def expectPositiveInteger (value : JsValue) (path : String) : Except Thrown Nat := do
  let integer ← expectNonNegativeInteger value path
  if integer = 0 then throw (contractError path "expected positive integer")
  return integer

def nullableInteger (value : JsValue) (path : String) : Except Thrown (Option Nat) :=
  if value.isNullish then .ok none else (expectNonNegativeInteger value path).map some

def expectValue (value : JsValue) (expected : JsPrimitive) (path : String) : Except Thrown Unit :=
  if value.equals expected then .ok ()
  else .error (.contract ⟨path, .expected expected value, .reflection⟩)

/-- The value that one of the accepted texts stands for. -/
def expectOneOf {α : Type} (value : JsValue) (accepted : List (String × α)) (path : String) :
    Except Thrown α :=
  match accepted.find? (fun choice => value.equals (.str choice.1)) with
  | some choice => .ok choice.2
  | none => .error (.contract ⟨path, .expectedOneOf (accepted.map Prod.fst) value, .reflection⟩)

def expectCount (value : JsValue) (expected : Nat) (path : String) : Except Thrown Unit := do
  let count ← expectNonNegativeInteger value path
  expectValue (.ofNat count) (.num expected) path

def expectIndexList (value : JsValue) (expected : List Nat) (path : String) :
    Except Thrown Unit := do
  let items ← expectArray value path
  let actual ← items.zipIdx.mapM (fun item =>
    expectNonNegativeInteger item.1 s!"{path}[{item.2}]")
  expectCount (.ofNat actual.length) expected.length s!"{path}.length"
  (actual.zip expected).zipIdx.forM (fun pair =>
    expectValue (.ofNat pair.1.1) (.num pair.1.2) s!"{path}[{pair.2}]")

/-! ## The descriptor -/

inductive Visibility where
  | compute
  | vertex
  | fragment
  deriving DecidableEq

/-- `VISIBILITY_VALUES`. -/
def visibilityValues : List (String × Visibility) :=
  [("compute", .compute), ("vertex", .vertex), ("fragment", .fragment)]

inductive BufferType where
  | readOnlyStorage
  | storage
  deriving DecidableEq

def BufferType.name : BufferType → String
  | .readOnlyStorage => "read-only-storage"
  | .storage => "storage"

def bufferTypes : List (String × BufferType) :=
  [("read-only-storage", .readOnlyStorage), ("storage", .storage)]

inductive Role where
  | input
  | output
  deriving DecidableEq

def roles : List (String × Role) := [("input", .input), ("output", .output)]

inductive ResourceKind where
  | storageBuffer
  | runtimeExtent
  deriving DecidableEq

def resourceKinds : List (String × ResourceKind) :=
  [("storage-buffer", .storageBuffer), ("runtime-extent", .runtimeExtent)]

structure LayoutEntry where
  binding : Nat
  bindingIndex : Nat
  resourceIndex : Nat
  layoutEntryIndex : Nat
  bufferByteLen : Nat
  bufferByteOffset : Nat
  bindingByteLen : Nat
  minBindingSize : Nat
  bufferType : BufferType
  visibility : Visibility
  sourceLocal : Option Nat
  sourceName : Option String
  deriving DecidableEq

structure BindGroupLayout where
  bindGroupIndex : Nat
  group : Nat
  layoutEntryIndexes : List Nat
  entries : List LayoutEntry
  deriving DecidableEq

structure BindGroupEntry where
  binding : Nat
  bindingIndex : Nat
  resourceIndex : Nat
  kind : ResourceKind
  role : Role
  shaderVisibility : Visibility
  bufferType : BufferType
  elementCount : Nat
  bufferByteLen : Nat
  bufferByteOffset : Nat
  bindingByteLen : Nat
  minBindingSize : Nat
  sourceLocal : Option Nat
  sourceName : Option String
  deriving DecidableEq

structure BindGroup where
  bindGroupIndex : Nat
  group : Nat
  entryIndexes : List Nat
  entries : List BindGroupEntry
  deriving DecidableEq

structure DispatchWorkgroups where
  x : Nat
  y : Nat
  z : Nat
  deriving DecidableEq

structure KernelDescriptor where
  wgsl : String
  entryName : String
  bindGroupLayoutIndexes : List Nat
  bindGroupLayouts : List BindGroupLayout
  bindGroups : List BindGroup
  dispatchWorkgroups : DispatchWorkgroups
  deriving DecidableEq

namespace KernelDescriptor

def inputBindings (descriptor : KernelDescriptor) : List BindGroupEntry :=
  descriptor.bindGroups.flatMap (fun group => group.entries.filter (·.role = .input))

def outputBindings (descriptor : KernelDescriptor) : List BindGroupEntry :=
  descriptor.bindGroups.flatMap (fun group => group.entries.filter (·.role = .output))

end KernelDescriptor

/-! ## Parsing -/

def parseReflection (jsonParse : String → Except String JsValue) (reflection : JsValue) :
    Except Thrown JsValue :=
  match reflection with
  | .str text =>
    match jsonParse text with
    | .ok document => .ok document
    | .error message => .error (contractError "reflection" s!"invalid JSON: {message}")
  | _ => expectObject reflection "reflection"

def parsePipelineLayout (rawLayout : JsValue) : Except Thrown (List Nat) := do
  let path := "webgpu_adapter.pipeline_layout_descriptor"
  let layout ← expectObject rawLayout path
  let indexes ← expectArray (layout.get "bind_group_layout_indexes")
    s!"{path}.bind_group_layout_indexes"
  expectCount (layout.get "bind_group_layout_count") indexes.length
    s!"{path}.bind_group_layout_count"
  expectCount (layout.get "bind_group_layout_index_count") indexes.length
    s!"{path}.bind_group_layout_index_count"
  indexes.zipIdx.mapM (fun index =>
    expectNonNegativeInteger index.1 s!"{path}.bind_group_layout_indexes[{index.2}]")

def parseLayoutEntry (entry : JsValue) (path : String) : Except Thrown LayoutEntry := do
  let object ← expectObject entry path
  let visibility ← expectOneOf (object.get "visibility") visibilityValues s!"{path}.visibility"
  expectValue (object.get "has_dynamic_offset") (.bool false) s!"{path}.has_dynamic_offset"
  let bufferType ← expectOneOf (object.get "buffer_type") bufferTypes s!"{path}.buffer_type"
  return {
    binding := ← expectNonNegativeInteger (object.get "binding") s!"{path}.binding"
    bindingIndex := ← expectNonNegativeInteger (object.get "binding_index") s!"{path}.binding_index"
    resourceIndex :=
      ← expectNonNegativeInteger (object.get "resource_index") s!"{path}.resource_index"
    layoutEntryIndex :=
      ← expectNonNegativeInteger (object.get "layout_entry_index") s!"{path}.layout_entry_index"
    bufferByteLen :=
      ← expectPositiveInteger (object.get "buffer_byte_len") s!"{path}.buffer_byte_len"
    bufferByteOffset :=
      ← expectNonNegativeInteger (object.get "buffer_byte_offset") s!"{path}.buffer_byte_offset"
    bindingByteLen :=
      ← expectPositiveInteger (object.get "binding_byte_len") s!"{path}.binding_byte_len"
    minBindingSize :=
      ← expectPositiveInteger (object.get "min_binding_size") s!"{path}.min_binding_size"
    bufferType := bufferType
    visibility := visibility
    sourceLocal := ← nullableInteger (object.get "source_local") s!"{path}.source_local"
    sourceName := ← nullableString (object.get "source_name") s!"{path}.source_name" }

def parseBindGroupLayout (layout : JsValue) (path : String) : Except Thrown BindGroupLayout := do
  let object ← expectObject layout path
  let items ← expectArray (object.get "entries") s!"{path}.entries"
  let entries ← items.zipIdx.mapM (fun item => parseLayoutEntry item.1 s!"{path}.entries[{item.2}]")
  expectCount (object.get "entry_count") entries.length s!"{path}.entry_count"
  expectCount (object.get "layout_entry_index_count") entries.length
    s!"{path}.layout_entry_index_count"
  expectIndexList (object.get "layout_entry_indexes") (entries.map (·.layoutEntryIndex))
    s!"{path}.layout_entry_indexes"
  return {
    bindGroupIndex :=
      ← expectNonNegativeInteger (object.get "bind_group_index") s!"{path}.bind_group_index"
    group := ← expectNonNegativeInteger (object.get "group") s!"{path}.group"
    layoutEntryIndexes := entries.map (·.layoutEntryIndex)
    entries := entries }

def parseBindGroupLayouts (adapter : JsValue) : Except Thrown (List BindGroupLayout) := do
  let path := "webgpu_adapter.bind_group_layout_descriptors"
  let layouts ← expectArray (adapter.get "bind_group_layout_descriptors") path
  expectCount (adapter.get "bind_group_layout_descriptor_count") layouts.length
    "webgpu_adapter.bind_group_layout_descriptor_count"
  layouts.zipIdx.mapM (fun layout => parseBindGroupLayout layout.1 s!"{path}[{layout.2}]")

def validateRolePolicy (object : JsValue) (role : Role) (path : String) : Except Thrown Unit := do
  match role with
  | .input =>
    expectValue (object.get "access") (.str "read") s!"{path}.access"
    expectValue (object.get "shader_access") (.str "read") s!"{path}.shader_access"
    expectValue (object.get "buffer_type") (.str "read-only-storage") s!"{path}.buffer_type"
  | .output =>
    expectValue (object.get "access") (.str "write") s!"{path}.access"
    expectValue (object.get "shader_access") (.str "read_write") s!"{path}.shader_access"
    expectValue (object.get "buffer_type") (.str "storage") s!"{path}.buffer_type"

def parseBindGroupEntry (entry : JsValue) (path : String) : Except Thrown BindGroupEntry := do
  let object ← expectObject entry path
  let kind ← expectOneOf (object.get "kind") resourceKinds s!"{path}.kind"
  let role ← expectOneOf (object.get "role") roles s!"{path}.role"
  let _ ← expectOneOf (object.get "access") [("read", ()), ("write", ())] s!"{path}.access"
  let _ ← expectOneOf (object.get "shader_access") [("read", ()), ("read_write", ())]
    s!"{path}.shader_access"
  let shaderVisibility ← expectOneOf (object.get "shader_visibility") visibilityValues
    s!"{path}.shader_visibility"
  let bufferType ← expectOneOf (object.get "buffer_type") bufferTypes s!"{path}.buffer_type"
  match kind with
  | .runtimeExtent =>
    expectValue (object.get "element_layout") (.str "u32") s!"{path}.element_layout"
  | .storageBuffer =>
    expectValue (object.get "element_layout") (.str "f32") s!"{path}.element_layout"
  expectValue (object.get "element_byte_width") (.num 4) s!"{path}.element_byte_width"
  expectValue (object.get "has_dynamic_offset") (.bool false) s!"{path}.has_dynamic_offset"
  validateRolePolicy object role path
  return {
    binding := ← expectNonNegativeInteger (object.get "binding") s!"{path}.binding"
    bindingIndex := ← expectNonNegativeInteger (object.get "binding_index") s!"{path}.binding_index"
    resourceIndex :=
      ← expectNonNegativeInteger (object.get "resource_index") s!"{path}.resource_index"
    kind := kind
    role := role
    shaderVisibility := shaderVisibility
    bufferType := bufferType
    elementCount := ← expectPositiveInteger (object.get "element_count") s!"{path}.element_count"
    bufferByteLen :=
      ← expectPositiveInteger (object.get "buffer_byte_len") s!"{path}.buffer_byte_len"
    bufferByteOffset :=
      ← expectNonNegativeInteger (object.get "buffer_byte_offset") s!"{path}.buffer_byte_offset"
    bindingByteLen :=
      ← expectPositiveInteger (object.get "binding_byte_len") s!"{path}.binding_byte_len"
    minBindingSize :=
      ← expectPositiveInteger (object.get "min_binding_size") s!"{path}.min_binding_size"
    sourceLocal := ← nullableInteger (object.get "source_local") s!"{path}.source_local"
    sourceName := ← nullableString (object.get "source_name") s!"{path}.source_name" }

def parseBindGroup (group : JsValue) (path : String) : Except Thrown BindGroup := do
  let object ← expectObject group path
  let items ← expectArray (object.get "entries") s!"{path}.entries"
  let entries ← items.zipIdx.mapM (fun item =>
    parseBindGroupEntry item.1 s!"{path}.entries[{item.2}]")
  expectCount (object.get "entry_count") entries.length s!"{path}.entry_count"
  expectCount (object.get "entry_index_count") entries.length s!"{path}.entry_index_count"
  expectIndexList (object.get "entry_indexes") (entries.map (·.bindingIndex))
    s!"{path}.entry_indexes"
  return {
    bindGroupIndex :=
      ← expectNonNegativeInteger (object.get "bind_group_index") s!"{path}.bind_group_index"
    group := ← expectNonNegativeInteger (object.get "group") s!"{path}.group"
    entryIndexes := entries.map (·.bindingIndex)
    entries := entries }

def parseBindGroups (adapter : JsValue) : Except Thrown (List BindGroup) := do
  let path := "webgpu_adapter.bind_group_descriptors"
  let groups ← expectArray (adapter.get "bind_group_descriptors") path
  expectCount (adapter.get "bind_group_descriptor_count") groups.length
    "webgpu_adapter.bind_group_descriptor_count"
  groups.zipIdx.mapM (fun group => parseBindGroup group.1 s!"{path}[{group.2}]")

def parseDispatchWorkgroups (adapter : JsValue) : Except Thrown DispatchWorkgroups := do
  let path := "webgpu_adapter.dispatch_workgroups"
  expectValue (adapter.get "dispatch_workgroup_dimension_count") (.num 3)
    "webgpu_adapter.dispatch_workgroup_dimension_count"
  let dispatch ← expectObject (adapter.get "dispatch_workgroups") path
  return {
    x := ← expectPositiveInteger (dispatch.get "x") s!"{path}.x"
    y := ← expectPositiveInteger (dispatch.get "y") s!"{path}.y"
    z := ← expectPositiveInteger (dispatch.get "z") s!"{path}.z" }

/-! ## Validation -/

def validateDescriptorIndexes (adapter : JsValue) (layouts : List BindGroupLayout)
    (groups : List BindGroup) (bindGroupLayoutIndexes : List Nat) : Except Thrown Unit := do
  expectCount (adapter.get "bind_group_layout_descriptor_index_count") layouts.length
    "webgpu_adapter.bind_group_layout_descriptor_index_count"
  expectIndexList (adapter.get "bind_group_layout_descriptor_indexes")
    (layouts.map (·.bindGroupIndex)) "webgpu_adapter.bind_group_layout_descriptor_indexes"
  expectCount (adapter.get "bind_group_descriptor_index_count") groups.length
    "webgpu_adapter.bind_group_descriptor_index_count"
  expectIndexList (adapter.get "bind_group_descriptor_indexes") (groups.map (·.bindGroupIndex))
    "webgpu_adapter.bind_group_descriptor_indexes"
  expectIndexList (.arr (bindGroupLayoutIndexes.map JsValue.ofNat)) (layouts.map (·.bindGroupIndex))
    "webgpu_adapter.pipeline_layout_descriptor.bind_group_layout_indexes"

def validateEntryPair (layoutEntry : LayoutEntry) (bindingEntry : BindGroupEntry) :
    Except Thrown Unit := do
  let path := s!"webgpu_adapter.bind_group_descriptors[*].entries[{bindingEntry.bindingIndex}]"
  expectValue (.ofNat bindingEntry.binding) (.num layoutEntry.binding) s!"{path}.binding"
  expectValue (.ofNat bindingEntry.resourceIndex) (.num layoutEntry.resourceIndex)
    s!"{path}.resource_index"
  expectValue (.str bindingEntry.bufferType.name) (.str layoutEntry.bufferType.name)
    s!"{path}.buffer_type"
  expectValue (.ofNat bindingEntry.bufferByteLen) (.num layoutEntry.bufferByteLen)
    s!"{path}.buffer_byte_len"
  expectValue (.ofNat bindingEntry.bufferByteOffset) (.num layoutEntry.bufferByteOffset)
    s!"{path}.buffer_byte_offset"
  expectValue (.ofNat bindingEntry.bindingByteLen) (.num layoutEntry.bindingByteLen)
    s!"{path}.binding_byte_len"
  expectValue (.ofNat bindingEntry.minBindingSize) (.num layoutEntry.minBindingSize)
    s!"{path}.min_binding_size"

/-- One turn of the inner loop of `validateLayoutAndGroupEntries`. -/
def validateLayoutEntry (group : BindGroup) (layoutEntry : LayoutEntry) : Except Thrown Unit :=
  match group.entries.find? (·.bindingIndex = layoutEntry.bindingIndex) with
  | none => .error (contractError
      s!"webgpu_adapter.bind_group_descriptors[{group.bindGroupIndex}].entries"
      s!"missing binding entry {layoutEntry.bindingIndex}")
  | some bindingEntry => validateEntryPair layoutEntry bindingEntry

/-- One turn of the outer loop. -/
def validateLayout (groups : List BindGroup) (layout : BindGroupLayout) : Except Thrown Unit :=
  match groups.find? (·.bindGroupIndex = layout.bindGroupIndex) with
  | none => .error (contractError "webgpu_adapter.bind_group_descriptors"
      s!"missing bind group descriptor for layout {layout.bindGroupIndex}")
  | some group => do
    if group.group ≠ layout.group then
      throw (contractError s!"webgpu_adapter.bind_group_descriptors[{group.bindGroupIndex}].group"
        s!"expected group {layout.group}, got {group.group}")
    layout.entries.forM (validateLayoutEntry group)

def validateLayoutAndGroupEntries (layouts : List BindGroupLayout) (groups : List BindGroup) :
    Except Thrown Unit := do
  if layouts.length ≠ groups.length then
    throw (contractError "webgpu_adapter"
      "layout descriptor count must match bind group descriptor count")
  layouts.forM (validateLayout groups)

/-! ## The entry point -/

def loadFaberKernel (jsonParse : String → Except String JsValue) (wgsl reflection : JsValue) :
    Except Thrown KernelDescriptor := do
  let document ← parseReflection jsonParse reflection
  if document.isNullish then throw .builtin
  expectValue (document.get "schema_version") (.num 1) "reflection.schema_version"
  expectValue (document.get "target") (.str "wgsl-text") "reflection.target"
  let kernels ← expectArray (document.get "kernels") "reflection.kernels"
  match kernels with
  | [kernel] =>
    let path := "reflection.kernels[0]"
    let kernel ← expectObject kernel path
    let launch ← expectObject (kernel.get "launch") s!"{path}.launch"
    let adapter ← expectObject (launch.get "webgpu_adapter") s!"{path}.launch.webgpu_adapter"
    expectValue (kernel.get "shader_stage") (.str "compute") s!"{path}.shader_stage"
    expectValue (launch.get "shader_stage") (.str "compute") s!"{path}.launch.shader_stage"
    let entryName ← expectString (kernel.get "entry_name") s!"{path}.entry_name"
    expectValue (launch.get "entry_name") (.str entryName) s!"{path}.launch.entry_name"
    let bindGroupLayoutIndexes ← parsePipelineLayout (adapter.get "pipeline_layout_descriptor")
    let bindGroupLayouts ← parseBindGroupLayouts adapter
    let bindGroups ← parseBindGroups adapter
    let dispatchWorkgroups ← parseDispatchWorkgroups adapter
    validateDescriptorIndexes adapter bindGroupLayouts bindGroups bindGroupLayoutIndexes
    validateLayoutAndGroupEntries bindGroupLayouts bindGroups
    let wgsl ← expectString wgsl "wgsl"
    return {
      wgsl := wgsl
      entryName := entryName
      bindGroupLayoutIndexes := bindGroupLayoutIndexes
      bindGroupLayouts := bindGroupLayouts
      bindGroups := bindGroups
      dispatchWorkgroups := dispatchWorkgroups }
  | _ => throw (contractError "reflection.kernels" s!"expected one kernel, got {kernels.length}")

end FaberHosts.WebGpu
