import FaberHosts.Lib.Runs

/-!
# The engine session of the browser host

`public/src/engine/engine.js`: the state machine and the session facade over it.  A step is one
task of the event loop: a call up to its first `await`, or a continuation up to the next one.  What
code outside the session answers (admission, the pipeline artifacts, pixel readbacks, the scene) is
part of the event.
-/

namespace FaberHosts.Engine
open FaberHosts.Lib

/-! ## The state machine -/

inductive EngineState where
  | startup
  | ready
  | suspended
  | deviceLost
  | recovering
  | failed
  deriving DecidableEq, Repr

namespace EngineState

def name : EngineState → String
  | .startup => "startup"
  | .ready => "ready"
  | .suspended => "suspended"
  | .deviceLost => "device-lost"
  | .recovering => "recovering"
  | .failed => "failed"

/-- `ENGINE_STATE_TRANSITIONS`. -/
def transitions : EngineState → List EngineState
  | .startup => [.ready, .failed]
  | .ready => [.suspended, .deviceLost, .failed]
  | .suspended => [.ready, .deviceLost, .failed]
  | .deviceLost => [.recovering, .failed]
  | .recovering => [.ready, .failed]
  | .failed => []

/-- `RENDER_STATUS_BY_STATE`. -/
def renderStatus : EngineState → String
  | .startup => "starting"
  | .ready => "ready"
  | .suspended => "suspended"
  | .deviceLost => "device-lost"
  | .recovering => "recovering"
  | .failed => "failed"

/-- `DEVICE_STATUS_BY_STATE`. -/
def deviceStatus : EngineState → String
  | .startup => "pending"
  | .ready => "active"
  | .suspended => "suspended"
  | .deviceLost => "lost"
  | .recovering => "recovering"
  | .failed => "failed"

end EngineState

/-- What `publishSessionError` tells apart. -/
inductive ErrorKind where
  | capability
  | contract (kind : String)
  | engine
  deriving DecidableEq, Repr

structure EngineError where
  kind : ErrorKind
  message : String
  deriving DecidableEq, Repr

/-- The error of a transition that the machine does not admit. -/
def engineStateError (source target : EngineState) : EngineError where
  kind := .engine
  message := s!"engine state transition {source.name} → {target.name} is not admitted by the " ++
    "state machine"

structure EngineStateMachine where
  state : EngineState
  history : List (EngineState × EngineState)
  deriving DecidableEq

def EngineStateMachine.transition (machine : EngineStateMachine) (next : EngineState) :
    Except EngineError EngineStateMachine :=
  if next ∈ machine.state.transitions then
    .ok ⟨next, machine.history ++ [(machine.state, next)]⟩
  else
    .error (engineStateError machine.state next)

/-! ## The session -/

/-- Where a running `start` waits. -/
inductive Await where
  | pipeline
  | pixels
  | scene
  deriving DecidableEq, Repr

/-- A running `start`; `recover` waits for the one it called. -/
structure PendingStart where
  await : Await
  recovering : Bool
  deriving DecidableEq, Repr

/-- The optional parts of `start`. -/
structure SessionOptions where
  pixelSamples : Bool
  waitForSceneBlob : Bool
  deriving DecidableEq, Repr

/-- The session.  Schedulers and buffers are numbered as they are created; `scheduled` lists the
    schedulers that have an animation frame requested. -/
structure EngineSession where
  machine : EngineStateMachine
  currentDevice : Nat
  scheduler : Option Nat
  scheduled : List Nat
  mirrorBuffer : Option Nat
  lossCallbacks : List Nat
  started : Bool
  destroyed : Bool
  pipelineLoaded : Bool
  pending : Option PendingStart
  rejectedRecovers : List EngineError
  sessionError : Option EngineError
  facts : List (String × String)
  schedulersMade : Nat
  buffersMade : Nat
  lossCallbacksMade : Nat
  deriving DecidableEq

namespace EngineSession

abbrev state (session : EngineSession) : EngineState := session.machine.state

/-- `createEngineSession`. -/
def new (device : Nat) : EngineSession where
  machine := ⟨.startup, []⟩
  currentDevice := device
  scheduler := none
  scheduled := []
  mirrorBuffer := none
  lossCallbacks := []
  started := false
  destroyed := false
  pipelineLoaded := false
  pending := none
  rejectedRecovers := []
  sessionError := none
  facts := []
  schedulersMade := 0
  buffersMade := 0
  lossCallbacksMade := 0

def setFacts (session : EngineSession) (published : List (String × String)) : EngineSession :=
  { session with facts := session.facts ++ published }

/-- A transition with the facts it publishes. -/
def transition (session : EngineSession) (next : EngineState) : Except EngineError EngineSession :=
  (session.machine.transition next).map (fun machine =>
    { session with machine := machine }.setFacts
      [("data-render-status", next.renderStatus), ("data-device-status", next.deviceStatus)])

/-- A transition whose refusal is swallowed. -/
def tryTransition (session : EngineSession) (next : EngineState) : EngineSession :=
  match session.transition next with
  | .ok moved => moved
  | .error _ => session

def publishSessionError (session : EngineSession) (error : EngineError) : EngineSession :=
  { session with sessionError := some error }.setFacts
    ([("data-render-status", "failed"), ("data-render-gate", "blocked-session"),
      ("data-render-error", error.message)] ++
    match error.kind with
    | .capability =>
      [("data-render-error-kind", "capability"), ("data-capability-admission", "rejected")]
    | .contract kind =>
      ("data-render-error-kind", kind) ::
        if session.pipelineLoaded then []
        else [("data-pipeline-status", "failed"), ("data-pipeline-error", error.message)]
    | .engine => [("data-render-error-kind", "engine")])

def destroyMirrorBuffer (session : EngineSession) : EngineSession :=
  { session with mirrorBuffer := none }

def buildMirrorBuffer (session : EngineSession) : EngineSession :=
  { session with
    mirrorBuffer := some session.buffersMade
    buffersMade := session.buffersMade + 1 }

/-- Cancel the frame of the session's scheduler and drop the scheduler. -/
def stopScheduler (session : EngineSession) : EngineSession :=
  match session.scheduler with
  | none => session
  | some scheduler =>
    { session with
      scheduled := session.scheduled.filter (· ≠ scheduler)
      scheduler := none }

def buildScheduler (session : EngineSession) : EngineSession :=
  { session with
    scheduler := some session.schedulersMade
    schedulersMade := session.schedulersMade + 1 }

/-- `scheduler.start()`: request the first frame. -/
def startScheduler (session : EngineSession) : EngineSession :=
  { session with scheduled := session.scheduled ++ session.scheduler.toList }

def registerDeviceLoss (session : EngineSession) : EngineSession :=
  { session with
    lossCallbacks := session.lossCallbacks ++ [session.currentDevice]
    lossCallbacksMade := session.lossCallbacksMade + 1 }

/-! ### `start` -/

/-- The `catch` of `start`: its promise is rejected, and a `recover` that waits for it is told. -/
def failStart (session : EngineSession) (recovering : Bool) (error : EngineError) :
    EngineSession :=
  { (session.tryTransition .failed).publishSessionError error with
    pending := none
    rejectedRecovers :=
      if recovering then session.rejectedRecovers ++ [error] else session.rejectedRecovers }

/-- The end of `start`: the frame loop and its lifecycle. -/
def startLoop (session : EngineSession) (recovering : Bool) : EngineSession :=
  let session :=
    session.buildMirrorBuffer.buildScheduler.registerDeviceLoss.startScheduler
  match session.transition .ready with
  | .ok moved => { moved with pending := none }
  | .error error => session.failStart recovering error

/-- Wait for the scene, if there is one to wait for. -/
def awaitScene (options : SessionOptions) (session : EngineSession) (recovering : Bool) :
    EngineSession :=
  if options.waitForSceneBlob then
    { session with pending := some ⟨.scene, recovering⟩ }
  else
    session.startLoop recovering

/-- `start` up to its first `await`; `admission` is the answer of `admitCapabilities`. -/
def start (session : EngineSession) (recovering : Bool) (admission : Except EngineError Unit) :
    EngineSession :=
  if session.started then session
  else
    let session := { session with started := true }
    match admission with
    | .error error => session.failStart recovering error
    | .ok () =>
      { session.setFacts [("data-capability-admission", "ok")] with
        pending := some ⟨.pipeline, recovering⟩ }

/-- The central sample of a readback. -/
structure PixelCenter where
  nonClear : Bool
  hex : Option String
  deriving DecidableEq, Repr

/-- How an `await` of `start` completes, with the answers of the calls after it. -/
inductive Completion where
  | pipelineRejected (error : EngineError)
  | pipelineLoaded (cacheKey : String) (renderer : Except EngineError Unit)
      (samples : Except String Unit)
  | pixelsMapped (center : Except String PixelCenter)
  | sceneReady (mounted : Except String Nat)

def readbackFailed (session : EngineSession) (message : String) : EngineSession :=
  session.setFacts [("data-pixel-readback", "failed"), ("data-pixel-readback-error", message)]

def readbackDone (session : EngineSession) (center : PixelCenter) : EngineSession :=
  session.setFacts (("data-pixel-readback", if center.nonClear then "verified" else "clear-only") ::
    (center.hex.toList.map (fun hex => ("data-pixel-center-hex", hex))))

/-- Mounted with a number of objects, or rejected without failing the session. -/
def mountScene (session : EngineSession) : Except String Nat → EngineSession
  | .ok objectCount =>
    session.setFacts [("data-scene-upload", "ok"),
      ("data-scene-object-count", toString objectCount),
      ("data-render-gate", "pending-first-frame")]
  | .error message =>
    session.setFacts [("data-scene-upload", "failed"), ("data-scene-upload-error", message),
      ("data-render-gate", "blocked-geometry")]

/-- A continuation of `start`; none when `start` does not wait for this. -/
def continueStart (options : SessionOptions) (session : EngineSession) (completion : Completion) :
    Option EngineSession :=
  session.pending.bind (fun pending =>
    match pending.await, completion with
    | .pipeline, .pipelineRejected error => some (session.failStart pending.recovering error)
    | .pipeline, .pipelineLoaded cacheKey renderer samples =>
      let session := { session with pipelineLoaded := true }.setFacts
        [("data-pipeline-status", "loaded"), ("data-pipeline-cache-key", cacheKey)]
      match renderer with
      | .error error => some (session.failStart pending.recovering error)
      | .ok () =>
        if options.pixelSamples then
          match samples with
          | .error message =>
            some (awaitScene options (session.readbackFailed message) pending.recovering)
          | .ok () => some { session with pending := some ⟨.pixels, pending.recovering⟩ }
        else
          some (awaitScene options session pending.recovering)
    | .pixels, .pixelsMapped (.ok center) =>
      some (awaitScene options (session.readbackDone center) pending.recovering)
    | .pixels, .pixelsMapped (.error message) =>
      some (awaitScene options (session.readbackFailed message) pending.recovering)
    | .scene, .sceneReady mounted =>
      some ((session.mountScene mounted).startLoop pending.recovering)
    | _, _ => none)

/-! ### The other entry points -/

/-- A call that is refused throws and changes nothing. -/
def suspend (session : EngineSession) : EngineSession :=
  if session.state = .ready then session.stopScheduler.tryTransition .suspended else session

def resume (session : EngineSession) : EngineSession :=
  if session.state = .suspended then
    session.buildMirrorBuffer.buildScheduler.startScheduler.tryTransition .ready
  else
    session

/-- `recover` up to its first `await`. -/
def recover (session : EngineSession) (device : Nat) (admission : Except EngineError Unit) :
    EngineSession :=
  if session.state = .deviceLost ∨ session.state = .recovering then
    match session.transition .recovering with
    | .error error => (session.tryTransition .failed).publishSessionError error
    | .ok session =>
      start { session.stopScheduler.destroyMirrorBuffer with
        currentDevice := device
        started := false } true admission
  else
    session

/-- The `catch` of a `recover` whose `start` was rejected. -/
def recoverRejected (session : EngineSession) : Option EngineSession :=
  match session.rejectedRecovers with
  | [] => none
  | error :: rest =>
    some (({ session with rejectedRecovers := rest }.tryTransition .failed).publishSessionError
      error)

def handleDeviceLoss (session : EngineSession) (reason : String) : EngineSession :=
  ((session.setFacts [("data-device-status", "lost"),
    ("data-device-loss-reason", reason)]).tryTransition .deviceLost).stopScheduler

/-- A registered callback runs when its device is lost. -/
def deviceLost (session : EngineSession) (device : Nat) (reason : String) : Option EngineSession :=
  if device ∈ session.lossCallbacks then
    let session := { session with lossCallbacks := session.lossCallbacks.erase device }
    some (if session.destroyed then session else session.handleDeviceLoss reason)
  else
    none

def destroy (session : EngineSession) : EngineSession :=
  if session.destroyed then session
  else { session with destroyed := true }.stopScheduler.destroyMirrorBuffer.tryTransition .failed

end EngineSession

/-! ## Tasks -/

/-- One task: a call, a completion, or a loss notification. -/
inductive SessionTask where
  | start (admission : Except EngineError Unit)
  | completed (completion : EngineSession.Completion)
  | suspend
  | resume
  | recover (device : Nat) (admission : Except EngineError Unit)
  | recoverRejected
  | handleDeviceLoss (reason : String)
  | lost (device : Nat) (reason : String)
  | destroy

/-- The session after a task; none when the task cannot happen. -/
def runTask (options : SessionOptions) (session : EngineSession) : SessionTask → Option EngineSession
  | .start admission => some (session.start false admission)
  | .completed completion => session.continueStart options completion
  | .suspend => some session.suspend
  | .resume => some session.resume
  | .recover device admission => some (session.recover device admission)
  | .recoverRejected => session.recoverRejected
  | .handleDeviceLoss reason => some (session.handleDeviceLoss reason)
  | .lost device reason => session.deviceLost device reason
  | .destroy => some session.destroy

end FaberHosts.Engine
