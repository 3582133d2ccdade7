import FaberHosts.Lib.Scan
import FaberHosts.Coordinator.Identity

/-!
# The device descriptor

`device_descriptor.rs`: the typed contract of one device program that a host
validates before any launch, and the error constructors its checks use.
-/

namespace FaberHosts.Descriptor
open FaberHosts.Lib FaberHosts.Coordinator

/-! ## Errors -/

structure HostError where
  code : String
  message : String
  retryable : Bool
  deriving DecidableEq, Repr

/-- A structurally bad or missing device descriptor. -/
def eDeviceDescriptor : String := "E_DEVICE_DESCRIPTOR"

/-- A binding or role conflict across the kernel slots. -/
def eDeviceAbiMismatch : String := "E_DEVICE_ABI_MISMATCH"

/-- A buffer referenced with two different shapes. -/
def eDeviceShapeMismatch : String := "E_DEVICE_SHAPE_MISMATCH"

/-- A buffer referenced with two different element types. -/
def eDeviceDtypeMismatch : String := "E_DEVICE_DTYPE_MISMATCH"

namespace HostError

def shapeMismatch (message : String) : HostError := ⟨eDeviceShapeMismatch, message, false⟩

def descriptor (message : String) : HostError := ⟨eDeviceDescriptor, message, false⟩

def abiMismatch (message : String) : HostError := ⟨eDeviceAbiMismatch, message, false⟩

def dtypeMismatch (message : String) : HostError := ⟨eDeviceDtypeMismatch, message, false⟩

end HostError

/-! ## Buffer facts -/

inductive DeviceDataType where
  | f32
  | f64
  | i32
  | i64
  | u8
  | f16
  | bf16
  deriving DecidableEq, Repr

namespace DeviceDataType

def spelling : DeviceDataType → String
  | .f32 => "f32"
  | .f64 => "f64"
  | .i32 => "i32"
  | .i64 => "i64"
  | .u8 => "u8"
  | .f16 => "f16"
  | .bf16 => "bf16"

instance : ToString DeviceDataType := ⟨spelling⟩

/-- Byte width of one element. -/
def byteWidth : DeviceDataType → Nat
  | .f32 | .i32 => 4
  | .f64 | .i64 => 8
  | .u8 => 1
  | .f16 | .bf16 => 2

/-- The number `as u32` gives the variant. -/
def discriminant : DeviceDataType → UInt32
  | .f32 => 0
  | .f64 => 1
  | .i32 => 2
  | .i64 => 3
  | .u8 => 4
  | .f16 => 5
  | .bf16 => 6

end DeviceDataType

/-- Slot role of a device buffer at a kernel. -/
inductive DeviceBufferRole where
  | input
  | output
  | inOut
  deriving DecidableEq, Repr

namespace DeviceBufferRole

def spelling : DeviceBufferRole → String
  | .input => "input"
  | .output => "output"
  | .inOut => "in-out"

instance : ToString DeviceBufferRole := ⟨spelling⟩

def discriminant : DeviceBufferRole → UInt32
  | .input => 0
  | .output => 1
  | .inOut => 2

end DeviceBufferRole

/-- Whether two slot roles contradict at a shared buffer identity: a direct
    `input`/`output` split.  `inOut` composes with anything. -/
def roleConflict : DeviceBufferRole → DeviceBufferRole → Bool
  | .input, .output => true
  | .output, .input => true
  | _, _ => false

/-- How long the storage of a buffer lives in the device program. -/
inductive DeviceBufferLifetime where
  | perProgram
  | perStep
  | observationPoint
  deriving DecidableEq, Repr

namespace DeviceBufferLifetime

def spelling : DeviceBufferLifetime → String
  | .perProgram => "per-program"
  | .perStep => "per-step"
  | .observationPoint => "observation-point"

instance : ToString DeviceBufferLifetime := ⟨spelling⟩

def discriminant : DeviceBufferLifetime → UInt32
  | .perProgram => 0
  | .perStep => 1
  | .observationPoint => 2

end DeviceBufferLifetime

/-- How the storage of a buffer is brought to its first defined state. -/
inductive DeviceBufferInitialization where
  | zeroFill
  | hostProvided
  | kernelInitialized
  deriving DecidableEq, Repr

namespace DeviceBufferInitialization

def spelling : DeviceBufferInitialization → String
  | .zeroFill => "zero-fill"
  | .hostProvided => "host-provided"
  | .kernelInitialized => "kernel-initialized"

instance : ToString DeviceBufferInitialization := ⟨spelling⟩

def discriminant : DeviceBufferInitialization → UInt32
  | .zeroFill => 0
  | .hostProvided => 1
  | .kernelInitialized => 2

end DeviceBufferInitialization

/-- Whether the program runs once or repeats as a training step. -/
inductive DeviceProgramLifetime where
  | singleRun
  | repeatingStep
  deriving DecidableEq, Repr

def DeviceProgramLifetime.discriminant : DeviceProgramLifetime → UInt32
  | .singleRun => 0
  | .repeatingStep => 1

/-- The largest `usize`: the hosts the descriptor is validated on have 64-bit pointers. -/
def usizeMax : Nat := 2 ^ 64 - 1

/-- `checked_byte_length`: `u64::checked_mul` of the count and the element width. -/
def checkedByteLength (elementCount : UInt64) (elementTy : DeviceDataType) : Option UInt64 :=
  if elementCount.toNat * elementTy.byteWidth < 2 ^ 64
    then some (elementCount * UInt64.ofNat elementTy.byteWidth)
    else none

/-- What `{:?}` prints of a carried shape. -/
def debugShape : Option (List UInt64) → String
  | none => "None"
  | some dims => "Some([" ++ ", ".intercalate (dims.map toString) ++ "])"

/-! ## The descriptor -/

/-- A content version of a buffer. -/
abbrev BufferKey := UInt32 × UInt32

/-- One typed buffer slot of a kernel. -/
structure DescriptorBuffer where
  bufferId : UInt32
  bufferName : String
  semanticValue : UInt32
  role : DeviceBufferRole
  lifetime : DeviceBufferLifetime
  initialization : DeviceBufferInitialization
  binding : UInt32
  elementTy : DeviceDataType
  elementCount : UInt64
  shape : Option (List UInt64)
  version : UInt32
  deriving DecidableEq, Repr

namespace DescriptorBuffer

def byteLength (slot : DescriptorBuffer) : Option UInt64 :=
  checkedByteLength slot.elementCount slot.elementTy

/-- The buffer version the slot names. -/
def key (slot : DescriptorBuffer) : BufferKey := (slot.bufferId, slot.version)

end DescriptorBuffer

/-- A 3D launch shape. -/
structure Axes where
  x : UInt32
  y : UInt32
  z : UInt32
  deriving DecidableEq, Repr

def Axes.toList (axes : Axes) : List UInt32 := [axes.x, axes.y, axes.z]

structure DescriptorKernel where
  entry : String
  buffers : List DescriptorBuffer
  grid : Axes
  block : Axes
  deriving DecidableEq, Repr

/-- One entry of the ordered launch sequence. -/
structure DescriptorLaunch where
  id : UInt32
  kernelIndex : UInt32
  deriving DecidableEq, Repr

/-- One version-keyed buffer shape. -/
structure DescriptorBufferVersion where
  bufferId : UInt32
  version : UInt32
  elementTy : DeviceDataType
  elementCount : UInt64
  shape : Option (List UInt64)
  deriving DecidableEq, Repr

/-- The buffer version the metadata is about. -/
def DescriptorBufferVersion.key (v : DescriptorBufferVersion) : BufferKey := (v.bufferId, v.version)

/-- One carried edge: a buffer version produced by one launch and consumed by another. -/
structure DescriptorDataFlow where
  bufferId : UInt32
  version : UInt32
  producer : UInt32
  consumer : UInt32
  deriving DecidableEq, Repr

/-- The buffer version that flows along the edge. -/
def DescriptorDataFlow.key (edge : DescriptorDataFlow) : BufferKey := (edge.bufferId, edge.version)

/-- One declared observation point, read back in every step. -/
structure DescriptorResult where
  bufferId : UInt32
  version : UInt32
  producedBy : UInt32
  atLaunch : UInt32
  deriving DecidableEq, Repr

def DescriptorResult.key (result : DescriptorResult) : BufferKey :=
  (result.bufferId, result.version)

/-- One buffer read back exactly once, after the step loop. -/
structure DescriptorEndOfRunResult where
  bufferId : UInt32
  version : UInt32
  deriving DecidableEq, Repr

def DescriptorEndOfRunResult.key (result : DescriptorEndOfRunResult) : BufferKey :=
  (result.bufferId, result.version)

/-- The contract of one device program: module image, kernel declarations,
    ordered launches and the carried graph and observation facts. -/
structure DeviceDescriptor where
  backend : DeviceBackend
  moduleImage : List UInt8
  kernels : List DescriptorKernel
  launches : List DescriptorLaunch
  bufferVersions : List DescriptorBufferVersion
  programLifetime : DeviceProgramLifetime
  dataFlow : List DescriptorDataFlow
  roots : List UInt32
  results : List DescriptorResult
  endOfRunResults : List DescriptorEndOfRunResult
  deriving DecidableEq, Repr

namespace DeviceDescriptor

/-- Every slot of every kernel, in declaration order. -/
def slots (d : DeviceDescriptor) : List DescriptorBuffer := d.kernels.flatMap (·.buffers)

def launchIds (d : DeviceDescriptor) : List UInt32 := d.launches.map (·.id)

end DeviceDescriptor

end FaberHosts.Descriptor
