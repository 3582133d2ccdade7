import FaberHosts.WebGpu.Runtime
import FaberHosts.Lib.Runs

/-!
# Replacement of compute resources

The compute resource lifecycle of `webgpu-runtime.js`.  A step is one call, or the settling of a
fence; `destroyRetiredComputeResources` is two steps, before and after it waits for its fence.  The
log records what a session retires, waits for, destroys and submits.
-/

namespace FaberHosts.WebGpu
open FaberHosts.Lib

/-- What happens to the buffers of a session. -/
inductive Observation where
  | retired (group : RetireGroup)
  | fence (number : Nat)
  | destroyed (buffer : GpuBuffer) (fence : Nat)
  | dispatched (bindGroups : List GpuBindGroup)

/-- A session with the waiting calls of `destroyRetiredComputeResources`, each with its fence and
    the groups it owns. -/
structure Session where
  resources : ComputeResources
  made : Nat
  fences : List (Nat × List RetireGroup)
  fencesMade : Nat
  log : List Observation

/-- The session that `createWebGpuResources` returned. -/
def Session.opened (created : ComputeResources × Nat) : Session where
  resources := created.1
  made := created.2
  fences := []
  fencesMade := 0
  log := []

/-- The buffers on which `destroy` was called, in order. -/
def destroyedBuffers (log : List Observation) : List GpuBuffer :=
  log.filterMap (fun observation =>
    match observation with
    | .destroyed buffer _ => some buffer
    | _ => none)

def retiredGroups (log : List Observation) : List RetireGroup :=
  log.filterMap (fun observation =>
    match observation with
    | .retired group => some group
    | _ => none)

/-! ## Transitions -/

def productError (path message : String) : Thrown := .contract ⟨path, .text message, .product⟩

def expectNonNegativeInt (value : JsValue) (path : String) : Except Thrown Nat :=
  match value.index with
  | some integer => .ok integer
  | none => .error (.contract ⟨path, .expectedNonNegativeInteger value, .product⟩)

/-- `typeof value === "number" && !(value <= 0)`. -/
def positiveNumber : JsValue → Option JsNumber
  | .num value => if value.le (.ofNat 0) then none else some value
  | _ => none

def normalizeComputePayload (device : GpuDevice) (descriptor : JsValue) (resourceIndex : Nat) :
    Except Thrown BufferRequest :=
  match descriptor with
  | .obj _ | .arr _ =>
    match positiveNumber (descriptor.get "size") with
    | none => .error (productError "transition.buffer_descriptor.size"
        s!"resource {resourceIndex}: size must be a positive number")
    | some size =>
      match positiveNumber (descriptor.get "usage") with
      | none => .error (productError "transition.buffer_descriptor.usage"
          s!"resource {resourceIndex}: usage must be a positive number")
      | some usage => do
        validateBufferSize device size
          s!"transition.buffer_descriptor.size for resource {resourceIndex}"
        let mapped := descriptor.get "mappedAtCreation"
        return ⟨size, usage, if mapped.isNullish then .bool false else mapped⟩
  | _ => .error (productError "transition.buffer_descriptor"
      s!"resource {resourceIndex}: buffer descriptor is required")

/-- The entry, and the session with its counters. -/
def createComputeGpuEntry (device : GpuDevice) (session : Session) (logicalId generation : Nat)
    (request : BufferRequest) : Except Thrown (Session × ComputeEntry) := do
  validateBufferSize device request.size s!"createComputeGpuEntry.resource[{logicalId}].size"
  let buffer ← device.createBuffer session.made request
  let counters := session.resources.counters
  return ({ session with
    made := session.made + 1
    resources := { session.resources with
      counters := { counters with created := counters.created + 1, live := counters.live + 1 } } },
    ⟨buffer, generation, logicalId, some [buffer]⟩)

/-- `entry.buffers.slice()` throws before anything is changed when there is no such list. -/
def enqueueComputeRetire (session : Session) (entry : ComputeEntry) : Except Thrown Session :=
  match entry.buffers with
  | none => .error .builtin
  | some buffers =>
    let group : RetireGroup := ⟨entry.logicalId, entry.generation, buffers⟩
    let counters := session.resources.counters
    .ok { session with
      log := session.log ++ [.retired group]
      resources := { session.resources with
        pendingRetire := session.resources.pendingRetire ++ [group]
        counters := { counters with live := counters.live - 1, retired := counters.retired + 1 } } }

def Session.setEntry (session : Session) (resourceIndex : Nat) (entry : ComputeEntry) : Session :=
  { session with resources := { session.resources with
    buffers := session.resources.buffers.insert resourceIndex entry } }

def Session.deleteEntry (session : Session) (resourceIndex : Nat) : Session :=
  { session with resources := { session.resources with
    buffers := session.resources.buffers.erase resourceIndex } }

inductive Change where
  | created (resourceIndex generation : Nat)
  | replaced (resourceIndex generation previousGeneration : Nat)
  | removed (resourceIndex generation previousGeneration : Nat)
  deriving DecidableEq

def removeResource (session : Session) (resourceIndex generation : Nat) (current : ComputeEntry) :
    Session × Except Thrown Change :=
  match enqueueComputeRetire session current with
  | .error thrown => (session, .error thrown)
  | .ok session =>
    (session.deleteEntry resourceIndex, .ok (.removed resourceIndex generation current.generation))

def createResource (device : GpuDevice) (session : Session) (resourceIndex generation : Nat)
    (request : BufferRequest) : Session × Except Thrown Change :=
  match createComputeGpuEntry device session resourceIndex generation request with
  | .error thrown => (session, .error thrown)
  | .ok (session, entry) =>
    (session.setEntry resourceIndex entry, .ok (.created resourceIndex generation))

/-- Allocate the new buffer, then retire the old one. -/
def replaceResource (device : GpuDevice) (session : Session) (resourceIndex generation : Nat)
    (request : BufferRequest) (current : ComputeEntry) : Session × Except Thrown Change :=
  match createComputeGpuEntry device session resourceIndex generation request with
  | .error thrown => (session, .error thrown)
  | .ok (session, next) =>
    match enqueueComputeRetire session current with
    | .error thrown => (session, .error thrown)
    | .ok session =>
      (session.setEntry resourceIndex next,
        .ok (.replaced resourceIndex generation current.generation))

/-- A transition whose index and generation are integers. -/
def applyTransition (device : GpuDevice) (session : Session) (resourceIndex generation : Nat)
    (descriptor : JsValue) : Session × Except Thrown Change :=
  let current := session.resources.buffers[resourceIndex]?
  if descriptor.isNullish then
    match current with
    | none => (session, .error (productError "transition"
        s!"cannot remove resource {resourceIndex}: no live resource"))
    | some current =>
      if generation ≠ current.generation then
        (session, .error (productError "transition.generation"
          s!"remove requires generation {current.generation}, got {generation}"))
      else
        removeResource session resourceIndex generation current
  else
    match normalizeComputePayload device descriptor resourceIndex with
    | .error thrown => (session, .error thrown)
    | .ok request =>
      match current with
      | none => createResource device session resourceIndex generation request
      | some current =>
        if generation ≤ current.generation then
          (session, .error (productError "transition.generation"
            s!"replace requires generation > {current.generation}, got {generation}"))
        else
          replaceResource device session resourceIndex generation request current

/-- The session after the call, and what it returned or threw. -/
def applyComputeResourceReplace (device : Option GpuDevice) (session : Session)
    (transition : JsValue) : Session × Except Thrown Change :=
  match device with
  | none => (session, .error (productError "device" "device is required for compute replace"))
  | some device =>
    match expectNonNegativeInt (transition.get "resource_index") "transition.resource_index" with
    | .error thrown => (session, .error thrown)
    | .ok resourceIndex =>
      match expectNonNegativeInt (transition.get "generation") "transition.generation" with
      | .error thrown => (session, .error thrown)
      | .ok generation =>
        applyTransition device session resourceIndex generation (transition.get "buffer_descriptor")

/-! ## Destruction -/

/-- `destroyRetiredComputeResources` up to its fence; it throws where the queue has none. -/
def destroyRetiredComputeResources (device : GpuDevice) (session : Session) : Session :=
  if session.resources.pendingRetire = [] then session
  else if device.onSubmittedWorkDone then
    { session with
      resources := { session.resources with pendingRetire := [] }
      fences := session.fences ++ [(session.fencesMade, session.resources.pendingRetire)]
      fencesMade := session.fencesMade + 1
      log := session.log ++ [.fence session.fencesMade] }
  else session

/-- Destroy a buffer, unless it is already marked as destroyed. -/
def destroyBuffer (number : Nat) (session : Session) (buffer : GpuBuffer) : Session :=
  if buffer ∈ destroyedBuffers session.log then session
  else
    { session with
      log := session.log ++ [.destroyed buffer number]
      resources := { session.resources with
        counters := { session.resources.counters with
          destroyed := session.resources.counters.destroyed + 1 } } }

/-- A waiting call goes on when its fence is settled: it destroys its groups, or puts them back. -/
def settleFence (session : Session) (number : Nat) (resolved : Bool) : Option Session :=
  (session.fences.find? (fun fence => fence.1 = number)).map (fun fence =>
    let session := { session with fences := session.fences.erase fence }
    if resolved then
      (fence.2.flatMap (·.buffers)).foldl (destroyBuffer number) session
    else
      { session with resources := { session.resources with
        pendingRetire := fence.2 ++ session.resources.pendingRetire } })

/-! ## Dispatch -/

def validateDispatchWorkgroups (device : GpuDevice) (dispatch : DispatchWorkgroups)
    (label : String) : Except Thrown Unit :=
  match device.maxComputeWorkgroupsPerDimension with
  | none => .ok ()
  | some maxPerDim =>
    [("x", dispatch.x), ("y", dispatch.y), ("z", dispatch.z)].forM (fun dim =>
      if maxPerDim < dim.2 then
        .error (.contract ⟨s!"{label}.{dim.1}", .exceedsMaxWorkgroups dim.1 dim.2 maxPerDim,
          .webgpu⟩)
      else .ok ())

/-- Submit a pass with the bind groups of the session; it throws where a dimension is too large. -/
def placementDispatch (device : GpuDevice) (session : Session) (dispatch : DispatchWorkgroups) :
    Session :=
  match validateDispatchWorkgroups device dispatch "placementDispatch.dispatchWorkgroups" with
  | .error _ => session
  | .ok () =>
    { session with log := session.log ++ [.dispatched session.resources.bindGroups] }

/-! ## Tasks -/

inductive Task where
  | replace (device : Option GpuDevice) (transition : JsValue)
  | destroyRetired (device : GpuDevice)
  | fence (number : Nat) (resolved : Bool)
  | dispatch (device : GpuDevice) (dispatch : DispatchWorkgroups)

/-- The session after a task; none when there is no such fence. -/
def runTask (session : Session) : Task → Option Session
  | .replace device transition => some (applyComputeResourceReplace device session transition).1
  | .destroyRetired device => some (destroyRetiredComputeResources device session)
  | .fence number resolved => settleFence session number resolved
  | .dispatch device dispatch => some (placementDispatch device session dispatch)

end FaberHosts.WebGpu
