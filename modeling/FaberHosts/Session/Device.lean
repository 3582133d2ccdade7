import FaberHosts.Lib.BTree
import FaberHosts.Lib.Outcomes
import FaberHosts.Descriptor.Kv

/-!
# The device runtime

`device_registry.rs`, `metal_host.rs`, `cuda_host.rs`, `device_host.rs`: the
registry of opaque handles and the operations of a device session over a driver
that may refuse any call.  The contents of a buffer stand beside its
registration; what a launch leaves in its buffers is the driver's.
-/

namespace FaberHosts.Descriptor

namespace HostError

def invalidArgs (message : String) : HostError := ⟨"E_INVALID_ARGS", message, false⟩

def internal (message : String) : HostError := ⟨"E_INTERNAL", message, false⟩

end HostError

end FaberHosts.Descriptor

namespace FaberHosts.Session
open FaberHosts.Lib FaberHosts.Coordinator FaberHosts.Descriptor

/-! ## Handles and launch bindings -/

inductive DeviceHandleKind where
  | module
  | buffer (lenBytes : UInt64)
  deriving DecidableEq, Repr

/-- An opaque handle: backend, kind and the id the registry gave it. -/
structure DeviceHandle where
  backend : DeviceBackend
  kind : DeviceHandleKind
  id : Nat
  deriving DecidableEq, Repr

def DeviceHandle.lenBytes (handle : DeviceHandle) : Option UInt64 :=
  match handle.kind with
  | .module => none
  | .buffer lenBytes => some lenBytes

/-- One launch binding at the device surface. -/
structure DeviceLaunchBinding where
  handle : DeviceHandle
  bindingIndex : UInt32
  byteOffset : UInt64
  viewSpan : UInt64
  runtimeSource : DescriptorRuntimeSource
  deriving DecidableEq, Repr

/-- A handle of another backend. -/
def deviceInvalidHandle (handle : DeviceHandle) : HostError where
  code := "E_DEVICE_INVALID_HANDLE"
  message := s!"device handle {handle.id} from backend {handle.backend} cannot be used on a " ++
    "session for a different backend"
  retryable := false

/-- The name the messages of a backend's session carry. -/
def backendTitle : DeviceBackend → String
  | .metal => "Metal"
  | .cuda => "CUDA"

/-- A stale or unknown handle id. -/
def invalidHandle (backend : DeviceBackend) (id : Nat) : HostError where
  code := match backend with
    | .metal => "E_METAL_INVALID_HANDLE"
    | .cuda => "E_CUDA_INVALID_HANDLE"
  message := s!"unknown or released {backendTitle backend} handle {id}"
  retryable := false

/-! ## The driver and the registry -/

/-- What a driver call is made for. -/
inductive Stage where
  | loadModule
  | alloc
  | zeroFill
  | copyIn
  | launch
  | sync
  | copyOut
  | free
  deriving DecidableEq, Repr

/-- A driver: which calls it refuses, by their number, what fresh storage holds, and
    what a launch leaves at each byte of its buffers. -/
structure Driver where
  fails : Nat → Stage → Option HostError
  fresh : Nat → Nat → UInt8
  effect : Nat → String → Axes → Axes → List (List UInt8) → Nat → Nat → UInt8

/-- A registered object and, for a buffer, its contents. -/
structure Registered where
  kind : DeviceHandleKind
  bytes : List UInt8
  deriving DecidableEq, Repr

/-- A device session: the registry hands out ids from a counter. -/
structure Device where
  backend : DeviceBackend
  handles : BTreeMap Nat Registered
  nextId : Nat
  calls : Nat

abbrev DeviceM := EStateM HostError Device

namespace Device

/-- Number of live handles. -/
def liveHandleCount (device : Device) : Nat := device.handles.size

/-- The contents a handle's buffer has. -/
def contents (device : Device) (handle : DeviceHandle) : Option (List UInt8) :=
  device.handles[handle.id]?.map (·.bytes)

end Device

section Operations

variable (driver : Driver)

/-- One driver call; its number tells later calls apart. -/
def call (stage : Stage) : DeviceM Nat := fun device =>
  match driver.fails device.calls stage with
  | some error => .error error { device with calls := device.calls + 1 }
  | none => .ok device.calls { device with calls := device.calls + 1 }

/-- Register an object under the next id. -/
def register (kind : DeviceHandleKind) (bytes : List UInt8) : DeviceM DeviceHandle := fun device =>
  .ok ⟨device.backend, kind, device.nextId⟩
    { device with
      handles := device.handles.insert device.nextId ⟨kind, bytes⟩
      nextId := device.nextId + 1 }

def loadModule (image : List UInt8) : DeviceM DeviceHandle := do
  let device ← get
  if image = [] then
    throw (.invalidArgs s!"{backendTitle device.backend} module image is empty")
  else
    let _ ← call driver .loadModule
    register .module []

def allocBytes (lenBytes : UInt64) : DeviceM DeviceHandle := do
  let device ← get
  if lenBytes = 0 then
    throw (.invalidArgs s!"{backendTitle device.backend} buffer length must be non-zero")
  else
    let number ← call driver .alloc
    register (.buffer lenBytes) ((List.range lenBytes.toNat).map (driver.fresh number))

/-- The registration of a handle of this backend. -/
def resolve (handle : DeviceHandle) : DeviceM Registered := fun device =>
  if handle.backend ≠ device.backend then
    .error (deviceInvalidHandle handle) device
  else
    match device.handles[handle.id]? with
    | none => .error (invalidHandle device.backend handle.id) device
    | some registered => .ok registered device

/-- The length and contents of a live buffer. -/
def bufferToken (handle : DeviceHandle) : DeviceM (UInt64 × List UInt8) := do
  let device ← get
  let registered ← resolve handle
  match registered.kind with
  | .module => throw (.invalidArgs s!"handle is not a {backendTitle device.backend} buffer")
  | .buffer lenBytes => pure (lenBytes, registered.bytes)

def moduleToken (handle : DeviceHandle) : DeviceM Unit := do
  let device ← get
  let registered ← resolve handle
  match registered.kind with
  | .module => pure ()
  | .buffer _ => throw (.invalidArgs s!"handle is not a {backendTitle device.backend} module")

/-- Replace the contents of a registered object. -/
def Device.write (device : Device) (id : Nat) (bytes : List UInt8) : Device :=
  { device with
    handles := device.handles.modify id (fun registered => { registered with bytes }) }

/-- Whether a backend takes this many bytes for a buffer, and the bytes it then holds:
    CUDA wants the exact length, Metal pads a tail of up to three bytes. -/
def admittedBytes (backend : DeviceBackend) (lenBytes : UInt64) (bytes : List UInt8)
    (dtype : DeviceDataType) : Except HostError (List UInt8) :=
  match backend with
  | .cuda =>
    if bytes.length % dtype.byteWidth ≠ 0 then
      .error (.invalidArgs
        s!"CUDA copy rejects a misaligned {dtype} tail of {bytes.length} bytes")
    else if bytes.length ≠ lenBytes.toNat then
      .error (.invalidArgs s!"copy_in size mismatch: buffer {lenBytes} bytes, got {bytes.length}")
    else
      .ok bytes
  | .metal =>
    if bytes.length = lenBytes.toNat then
      .ok bytes
    else if lenBytes.toNat < bytes.length ∨ 4 ≤ lenBytes.toNat - bytes.length then
      .error (.invalidArgs
        s!"packed-region size mismatch: buffer {lenBytes} bytes, got {bytes.length}")
    else
      .ok (bytes ++ List.replicate (lenBytes.toNat - bytes.length) 0)

/-- `Except` answers of pure code inside a device computation. -/
def lift {α : Type} : Except HostError α → DeviceM α
  | .ok a => pure a
  | .error error => throw error

/-- Copy bytes into a buffer. -/
def copyInBytes (stage : Stage) (handle : DeviceHandle) (bytes : List UInt8)
    (dtype : DeviceDataType) : DeviceM Unit := do
  let device ← get
  let (lenBytes, _) ← bufferToken handle
  let admitted ← lift (admittedBytes device.backend lenBytes bytes dtype)
  let _ ← call driver stage
  modify (·.write handle.id admitted)

/-- Copy `f32` values in; a value is its bits. -/
def copyInF32 (stage : Stage) (handle : DeviceHandle) (values : List UInt32) : DeviceM Unit :=
  copyInBytes driver stage handle (values.flatMap pushU32) .f32

/-- Little-endian words of whole groups of four bytes. -/
def wordsOf : List UInt8 → List UInt32
  | a :: b :: c :: d :: rest =>
    UInt32.ofNat (a.toNat + 256 * (b.toNat + 256 * (c.toNat + 256 * d.toNat))) :: wordsOf rest
  | _ => []

def readbackF32 (handle : DeviceHandle) : DeviceM (List UInt32) := do
  let device ← get
  let (lenBytes, bytes) ← bufferToken handle
  if device.backend = .cuda ∧ lenBytes.toNat % 4 ≠ 0 then
    throw (.invalidArgs s!"CUDA copy rejects a misaligned f32 tail of {lenBytes} bytes")
  else
    let _ ← call driver .copyOut
    if bytes.length % 4 ≠ 0 then
      throw (.internal "f32 readback returned an unexpected byte length")
    else
      pure (wordsOf bytes)

def sync : DeviceM Unit := do
  let _ ← call driver .sync

/-- Release a handle: the registration goes first, whatever the driver answers. -/
def release (handle : DeviceHandle) : DeviceM Unit := do
  let _ ← resolve handle
  modify (fun device => { device with handles := device.handles.erase handle.id })
  let _ ← call driver .free

/-! ## Launches -/

/-- A binding of the whole buffer at the caller's slice position. -/
def wholeHandle (handle : DeviceHandle) (bindingIndex : UInt32) :
    Except HostError DeviceLaunchBinding :=
  match handle.lenBytes with
  | none => .error (deviceInvalidHandle handle)
  | some viewSpan => .ok ⟨handle, bindingIndex, 0, viewSpan, .constant⟩

/-- Number the handles by their position. -/
def wholeHandleBindings (start : Nat) : List DeviceHandle → Except HostError (List DeviceLaunchBinding)
  | [] => .ok []
  | handle :: rest => do
    if 2 ^ 32 ≤ start then
      .error (.descriptor "launch buffer count exceeds a u32 binding index")
    else
      let binding ← wholeHandle handle (UInt32.ofNat start)
      let bindings ← wholeHandleBindings (start + 1) rest
      .ok (binding :: bindings)

def DeviceLaunchBinding.isCudaDynamic (binding : DeviceLaunchBinding) : Bool :=
  binding.byteOffset ≠ 0 ∨ binding.runtimeSource ≠ .constant

def runtimeSourceSpelling : DescriptorRuntimeSource → String
  | .constant => "constant"
  | .position => "position"
  | .validLenAfter => "valid_len_after"
  | .queryRows => "query_rows"
  | .sequenceEpoch => "sequence_epoch"

def validateDispatchBinding (backend : DeviceBackend) (binding : DeviceLaunchBinding) :
    Except HostError Unit :=
  if binding.handle.backend ≠ backend then
    .error (deviceInvalidHandle binding.handle)
  else if binding.viewSpan = 0 then
    .error (.descriptor s!"launch binding index {binding.bindingIndex} has a zero view span")
  else
    match binding.handle.lenBytes, checkedAdd binding.byteOffset binding.viewSpan with
    | none, _ => .error (deviceInvalidHandle binding.handle)
    | some _, none =>
      .error (.shapeMismatch
        s!"launch binding index {binding.bindingIndex} overflows its static envelope")
    | some capacity, some spanEnd =>
      if capacity < spanEnd then
        .error (.shapeMismatch (s!"launch binding index {binding.bindingIndex} spans " ++
          s!"{binding.viewSpan} bytes from offset {binding.byteOffset} but the allocation is " ++
          s!"{capacity} bytes"))
      else if backend = .cuda ∧ binding.isCudaDynamic then
        .error ⟨"E_CUDA_UNSUPPORTED", s!"CUDA rejects KV-dynamic launch binding index " ++
          s!"{binding.bindingIndex} (offset {binding.byteOffset}, source " ++
          s!"{runtimeSourceSpelling binding.runtimeSource}); this campaign does not bind it at " ++
          "offset zero", false⟩
      else
        .ok ()

/-- Put a binding at its index. -/
def placeBinding (slots : List (Option DeviceLaunchBinding)) (binding : DeviceLaunchBinding) :
    Except HostError (List (Option DeviceLaunchBinding)) :=
  match slots[binding.bindingIndex.toNat]? with
  | none =>
    .error (.abiMismatch s!"launch binding index {binding.bindingIndex} is outside 0..{slots.length}")
  | some (some _) =>
    .error (.abiMismatch s!"launch binding index {binding.bindingIndex} is declared twice")
  | some none => .ok (slots.set binding.bindingIndex.toNat (some binding))

/-- Every index holds a binding. -/
def placedBindings (index : Nat) : List (Option DeviceLaunchBinding) →
    Except HostError (List DeviceLaunchBinding)
  | [] => .ok []
  | none :: _ =>
    .error (.abiMismatch s!"launch binding index {index} was validated then dropped before launch")
  | some binding :: rest => do
    let bindings ← placedBindings (index + 1) rest
    .ok (binding :: bindings)

/-- Bindings at their declared indices (`ordered_launch_bindings`,
    `handles_in_binding_order`). -/
def orderedLaunchBindings (bindings : List DeviceLaunchBinding) :
    Except HostError (List DeviceLaunchBinding) := do
  let slots ← bindings.foldlM placeBinding (List.replicate bindings.length none)
  placedBindings 0 slots

/-- What a launch leaves in its buffers, argument by argument. -/
def Device.launched (device : Device) (effect : Nat → Nat → UInt8) (args : List DeviceHandle) :
    Device :=
  args.zipIdx.foldl (fun device arg =>
    device.write arg.1.id
      ((List.range ((device.contents arg.1).getD []).length).map (effect arg.2))) device

/-- Dispatch the handles in binding order. -/
def dispatchKernel (module : DeviceHandle) (entry : String) (args : List DeviceHandle)
    (grid block : Axes) : DeviceM Unit := do
  let device ← get
  moduleToken module
  if entry = "" then
    throw (.invalidArgs s!"{backendTitle device.backend} kernel entry name is empty")
  else
    let tokens ← args.mapM bufferToken
    let number ← call driver .launch
    modify (·.launched (driver.effect number entry grid block (tokens.map Prod.snd)) args)
    match device.backend with
    | .metal => pure ()
    | .cuda => sync driver

def launchKernelBound (module : DeviceHandle) (entry : String) (bindings : List DeviceLaunchBinding)
    (grid block : Axes) : DeviceM Unit := do
  let device ← get
  lift (tryEach (validateDispatchBinding device.backend) bindings)
  let ordered ← lift (orderedLaunchBindings bindings)
  dispatchKernel driver module entry (ordered.map (·.handle)) grid block

/-- Launch over whole buffers, bound by position. -/
def launchKernel (module : DeviceHandle) (entry : String) (buffers : List DeviceHandle)
    (grid block : Axes) : DeviceM Unit := do
  let bindings ← lift (wholeHandleBindings 0 buffers)
  launchKernelBound driver module entry bindings grid block

end Operations

end FaberHosts.Session
