import FaberHosts.Transaction.State

/-!
# Host-staged transport

`transport.rs`: the typed and ranged transfer facts, what a copy is rejected for before a byte
moves, and the host-staged adapter with its declared budget and per-copy timeout.
-/

namespace FaberHosts.Coordinator
open FaberHosts.Lib FaberHosts.Transaction

/-! ## Rates -/

def t1SmallCopyBytes : UInt64 := 16 * 1024

def t1SmallCopyLatencyNanos : UInt64 := 1300

def t1LargeCopyLatencyNanos : UInt64 := 5000

def MeasuredRates.t1 : MeasuredRates := ⟨9800000000, 11000000000, 12100000000⟩

def MeasuredRates.rateFor (rates : MeasuredRates) : TransferDirectionMirror → UInt64
  | .h2d => rates.h2dBytesPerSec
  | .d2h => rates.d2hBytesPerSec
  | .bidi => rates.bidiBytesPerSec

/-- `a.saturating_mul(b)`. -/
def saturatingMul (a b : UInt64) : UInt64 :=
  if a.toNat * b.toNat < 2 ^ 64 then a * b else UInt64.ofNat (2 ^ 64 - 1)

/-- The fixed latency of a copy and its bytes at the measured rate. -/
def expectedCopyTimeNanos (bytes : UInt64) (direction : TransferDirectionMirror)
    (rates : MeasuredRates) : UInt64 :=
  let fixed := if bytes ≤ t1SmallCopyBytes then t1SmallCopyLatencyNanos else t1LargeCopyLatencyNanos
  let rate := rates.rateFor direction
  let transfer := if rate = 0 then 0 else saturatingMul bytes 1000000000 / rate
  saturatingAdd fixed transfer

/-! ## Declared and actual facts -/

structure ByteRange where
  offset : UInt64
  length : UInt64
  deriving DecidableEq, Repr

/-- The exclusive end offset; the ranges of the backend start at 0. -/
def ByteRange.endOffset (range : ByteRange) : UInt64 := range.offset + range.length

/-- The declared facts of a transfer. -/
structure TransferSpec where
  transferRef : TransferRef
  sourceOwner : LogicalPartitionId
  destination : LogicalPartitionId
  range : ByteRange
  direction : TransferDirectionMirror
  dtype : MirroredDtype
  layout : MirroredStorageLayout
  generation : UInt64
  pathLabel : TransportPathMirror
  timeoutNanos : Nat
  deriving DecidableEq, Repr

def TransferSpec.fromMirror (mirror : TransferOperationMirror) (timeoutNanos : Nat) :
    TransferSpec where
  transferRef := mirror.id
  sourceOwner := mirror.source
  destination := mirror.destination
  range := ⟨0, mirror.byteCount⟩
  direction := mirror.direction
  dtype := mirror.elementDtype
  layout := mirror.layout
  generation := mirror.producerGeneration
  pathLabel := mirror.pathLabel
  timeoutNanos := timeoutNanos

/-- The actual facts of the content a copy would move. -/
structure SourceValue where
  owner : LogicalPartitionId
  dtype : MirroredDtype
  layout : MirroredStorageLayout
  generation : UInt64
  bytes : List UInt8
  deriving DecidableEq, Repr

def SourceValue.totalBytes (source : SourceValue) : UInt64 := UInt64.ofNat source.bytes.length

/-- The bytes of a range that passed `validateBeforeCopy`. -/
def SourceValue.slice (source : SourceValue) (range : ByteRange) : List UInt8 :=
  (source.bytes.take range.endOffset.toNat).drop range.offset.toNat

/-! ## Rejections -/

inductive TransferRejection where
  | dtypeMismatch (transfer : TransferRef) (declared actual : MirroredDtype)
  | layoutMismatch (transfer : TransferRef) (declared actual : MirroredStorageLayout)
  | rangeOutOfBounds (transfer : TransferRef) (range : ByteRange) (sourceBytes : UInt64)
  | generationMismatch (transfer : TransferRef) (declared actual : UInt64)
  | ownerMismatch (transfer : TransferRef) (declared actual : LogicalPartitionId)
  | destinationMismatch (transfer : TransferRef) (declared actual : LogicalPartitionId)
  deriving DecidableEq, Repr

def dtypeSpelling : MirroredDtype → String
  | .f32 => "f32"
  | .f64 => "f64"
  | .f16 => "f16"
  | .bf16 => "bf16"
  | .i8 => "i8"
  | .i32 => "i32"

def layoutSpelling : MirroredStorageLayout → String
  | .dense => "dense"
  | .blockPacked => "block-packed"

instance : ToString TransferRejection where
  toString
    | .dtypeMismatch transfer declared actual =>
      s!"dtype mismatch: transfer {transfer} declared {dtypeSpelling declared} but the source " ++
        s!"content is {dtypeSpelling actual}"
    | .layoutMismatch transfer declared actual =>
      s!"layout mismatch: transfer {transfer} declared {layoutSpelling declared} but the " ++
        s!"source content is {layoutSpelling actual}"
    | .rangeOutOfBounds transfer range sourceBytes =>
      s!"out-of-bounds range: transfer {transfer} declares range ByteRange \x7b offset: " ++
        s!"{range.offset}, length: {range.length} \x7d which exceeds the source's " ++
        s!"{sourceBytes} bytes"
    | .generationMismatch transfer declared actual =>
      s!"generation mismatch: transfer {transfer} declares generation {declared} but the " ++
        s!"source content is generation {actual}"
    | .ownerMismatch transfer declared actual =>
      s!"owner mismatch: transfer {transfer} declares owner {declared} but the source content " ++
        s!"belongs to {actual}"
    | .destinationMismatch transfer declared actual =>
      s!"destination mismatch: transfer {transfer} declares destination {declared} but the " ++
        s!"copy would land on {actual}"

/-- The checks before a copy, in the order dtype, layout, bounds, generation, owner,
    destination. -/
def validateBeforeCopy (spec : TransferSpec) (source : SourceValue)
    (destination : LogicalPartitionId) : Except TransferRejection Unit :=
  if spec.dtype ≠ source.dtype then
    .error (.dtypeMismatch spec.transferRef spec.dtype source.dtype)
  else if spec.layout ≠ source.layout then
    .error (.layoutMismatch spec.transferRef spec.layout source.layout)
  else if source.totalBytes < spec.range.endOffset then
    .error (.rangeOutOfBounds spec.transferRef spec.range source.totalBytes)
  else if spec.generation ≠ source.generation then
    .error (.generationMismatch spec.transferRef spec.generation source.generation)
  else if spec.sourceOwner ≠ source.owner then
    .error (.ownerMismatch spec.transferRef spec.sourceOwner source.owner)
  else if spec.destination ≠ destination then
    .error (.destinationMismatch spec.transferRef spec.destination destination)
  else
    .ok ()

/-- What a host-staged copy fails with. -/
inductive TransferError where
  | rejected (rejection : TransferRejection)
  | timeout (transfer : TransferRef) (declaredTimeoutNanos : Nat) (elapsedNanos : UInt64)
  | failed (transfer : TransferRef) (detail : String)
  | budgetExceeded (transfer : TransferRef) (budgetBytes usedBytes neededBytes : UInt64)
  deriving DecidableEq, Repr

/-- What a copy takes from the clock and from the rendering of durations. -/
structure CopyClock where
  /-- The measured time of a staged copy, by the number of copies staged before it. -/
  elapsedNanos : Nat → Nat
  /-- `format!("{duration:?}")`. -/
  debugDuration : Nat → String

/-- A timeout stays one; every other transfer error is an operation error. -/
def TransferError.intoBackendError (clock : CopyClock) (error : TransferError)
    (partition : LogicalPartitionId) : BackendError :=
  match error with
  | .rejected rejection =>
    .operation partition s!"typed/ranged transfer rejected before copy: {rejection}"
  | .timeout transfer declaredTimeoutNanos elapsedNanos =>
    .timeout partition (s!"transfer {transfer} exceeded its declared " ++
      s!"{clock.debugDuration declaredTimeoutNanos} timeout ({elapsedNanos} ns elapsed)")
  | .failed transfer detail => .operation partition s!"transfer {transfer} failed: {detail}"
  | .budgetExceeded transfer budgetBytes usedBytes neededBytes =>
    .operation partition (s!"transfer {transfer} exceeds the declared transfer budget (used " ++
      s!"{usedBytes} of {budgetBytes} bytes, needs {neededBytes} more)")

/-! ## The host-staged adapter -/

structure StagingPool where
  nextId : UInt64
  allocations : Nat
  active : List StagingBufferRecord
  deriving DecidableEq, Repr

def StagingPool.new : StagingPool := ⟨0, 0, []⟩

/-- A pinned buffer of the full size, under the next id. -/
def StagingPool.allocate (pool : StagingPool) (bytes : UInt64) :
    StagingBufferRecord × StagingPool :=
  let record : StagingBufferRecord := ⟨⟨pool.nextId + 1⟩, bytes, true⟩
  (record, ⟨pool.nextId + 1, pool.allocations + 1, record :: pool.active⟩)

def StagingPool.release (pool : StagingPool) (id : StagingBufferId) : StagingPool :=
  { pool with active := pool.active.filter (fun record => record.id ≠ id) }

/-- A declared transfer budget. -/
structure TransferBudget where
  bytes : UInt64
  timeNanos : UInt64
  deriving DecidableEq, Repr

structure HostStagedAdapter where
  declaredBudget : TransferBudget
  usedBytes : UInt64
  usedTimeNanos : UInt64
  stagingPool : StagingPool
  rates : MeasuredRates
  nextEngine : UInt64
  nextEvent : UInt64
  records : List SelectedTransferRecord
  simulatedFailure : Option String
  deriving DecidableEq, Repr

def HostStagedAdapter.new (declaredBudget : TransferBudget) : HostStagedAdapter :=
  ⟨declaredBudget, 0, 0, .new, .t1, 0, 0, [], none⟩

/-- The record of a copy and the bytes that landed. -/
structure TransferOutcome where
  record : SelectedTransferRecord
  destinationBytes : List UInt8
  deriving DecidableEq, Repr

abbrev AdapterM := EStateM TransferError HostStagedAdapter

namespace HostStagedAdapter

/-- Stage the validated range; the staging buffer is released on every path. -/
def runStagedCopy (clock : CopyClock) (spec : TransferSpec) (source : SourceValue)
    (bytes : UInt64) : AdapterM (StagingBufferRecord × List UInt8 × Nat) := do
  let adapter ← get
  let elapsed := clock.elapsedNanos adapter.stagingPool.allocations
  let (staging, pool) := adapter.stagingPool.allocate bytes
  set { adapter with stagingPool := pool.release staging.id }
  match adapter.simulatedFailure with
  | some detail => throw (.failed spec.transferRef detail)
  | none =>
    if spec.timeoutNanos < elapsed then
      throw (.timeout spec.transferRef spec.timeoutNanos (durationAsNanosU64 elapsed))
    else
      pure (staging, source.slice spec.range, elapsed)

/-- The copy does not fit what is left of the declared budget. -/
def exceedsBudget (adapter : HostStagedAdapter) (bytes expected : UInt64) : Bool :=
  adapter.declaredBudget.bytes < saturatingAdd adapter.usedBytes bytes ∨
    adapter.declaredBudget.timeNanos < saturatingAdd adapter.usedTimeNanos expected

/-- Validate, check the budget, stage the copy and account for it. -/
def copy (clock : CopyClock) (spec : TransferSpec) (source : SourceValue)
    (destination : LogicalPartitionId) : AdapterM TransferOutcome := do
  match validateBeforeCopy spec source destination with
  | .error rejection => throw (.rejected rejection)
  | .ok () =>
    let adapter ← get
    let bytes := spec.range.length
    let expected := expectedCopyTimeNanos bytes spec.direction adapter.rates
    if adapter.exceedsBudget bytes expected then
      throw (.budgetExceeded spec.transferRef adapter.declaredBudget.bytes adapter.usedBytes bytes)
    else
      let (staging, destinationBytes, elapsed) ← runStagedCopy clock spec source bytes
      let adapter ← get
      let record : SelectedTransferRecord := {
        transferRef := spec.transferRef
        copyPath := .hostStaged
        staging := staging
        engine := ⟨adapter.nextEngine + 1⟩
        event := ⟨adapter.nextEvent + 1⟩
        timeoutNanos := spec.timeoutNanos
        bytes := bytes
        elapsedNanos := durationAsNanosU64 elapsed
        expectedNanos := expected
        direction := spec.direction
        destination := destination }
      set { adapter with
        usedBytes := saturatingAdd adapter.usedBytes bytes
        usedTimeNanos := saturatingAdd adapter.usedTimeNanos expected
        nextEngine := adapter.nextEngine + 1
        nextEvent := adapter.nextEvent + 1
        records := adapter.records ++ [record] }
      pure ⟨record, destinationBytes⟩

end HostStagedAdapter

end FaberHosts.Coordinator
