import FaberHosts.Lib.Scan
import FaberHosts.Lib.Word64
import FaberHosts.Descriptor.Validate

/-!
# The kernel sidecar

`cuda_launch_adapter.rs`: a parsed NVVM descriptor, the checks on its one kernel, and the launch
plan they leave.
-/

namespace FaberHosts.Cuda
open FaberHosts.Lib FaberHosts.Descriptor

/-! ## Launch plans -/

inductive NvvmElementType where
  | f32
  | i32
  | u32
  deriving DecidableEq, Repr

namespace NvvmElementType

def spelling : NvvmElementType → String
  | .f32 => "f32"
  | .i32 => "i32"
  | .u32 => "u32"

def byteWidth : NvvmElementType → UInt32
  | .f32 | .i32 | .u32 => 4

end NvvmElementType

inductive AdapterBufferRole where
  | input
  | extraInput
  | output
  | extraOutput
  | accumulation
  deriving DecidableEq, Repr

namespace AdapterBufferRole

def isInput : AdapterBufferRole → Bool
  | .input | .extraInput => true
  | _ => false

def isOutput : AdapterBufferRole → Bool
  | .output | .extraOutput => true
  | _ => false

def tag : AdapterBufferRole → String
  | .input => "input"
  | .extraInput => "extra-input"
  | .output => "output"
  | .extraOutput => "extra-output"
  | .accumulation => "accumulation"

instance : ToString AdapterBufferRole := ⟨tag⟩

end AdapterBufferRole

structure NvvmLaunchBuffer where
  role : AdapterBufferRole
  binding : UInt32
  elementCount : UInt64
  shape : List UInt64
  deriving DecidableEq, Repr

structure NvvmLaunchPlan where
  entry : String
  elementTy : NvvmElementType
  buffers : List NvvmLaunchBuffer
  grid : Axes
  block : Axes
  planKind : Option String
  deriving DecidableEq, Repr

end FaberHosts.Cuda
