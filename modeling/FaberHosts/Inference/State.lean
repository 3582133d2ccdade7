import FaberHosts.Toolchain
import FaberHosts.Lib.Calls
import FaberHosts.Lib.Words

/-!
# The inference sequence state

`inference_state.rs`: the committed length, the epoch and the phase of one model
sequence, and the invocation transactions that advance it.
-/

namespace FaberHosts.Inference
open FaberHosts.Lib

/-! ## Errors, modes and phases -/

inductive SessionErrorCode where
  | kvOverflow
  | kvPhase
  | kvPoisoned
  | kvReleased
  | kvStale
  | invalidArgs
  deriving DecidableEq, Repr

def SessionErrorCode.spelling : SessionErrorCode → String
  | .kvOverflow => "E_KV_OVERFLOW"
  | .kvPhase => "E_KV_PHASE"
  | .kvPoisoned => "E_KV_POISONED"
  | .kvReleased => "E_KV_RELEASED"
  | .kvStale => "E_KV_STALE"
  | .invalidArgs => "E_INVALID_ARGS"

structure SessionError where
  code : SessionErrorCode
  message : String
  deriving DecidableEq, Repr

inductive InvocationMode where
  | prefill
  | scalarDecode
  | verification
  deriving DecidableEq, Repr

/-- Post-dispatch stage of a possible partial device mutation. -/
inductive FailureStage where
  | cursorUpload
  | dispatch
  | sync
  | readback
  deriving DecidableEq, Repr

/-- The derived `Debug` rendering. -/
instance : ToString FailureStage where
  toString
    | .cursorUpload => "CursorUpload"
    | .dispatch => "Dispatch"
    | .sync => "Sync"
    | .readback => "Readback"

inductive SequencePhase where
  | fresh
  | prefill
  | decode
  | poisoned (epoch : UInt32) (failureStage : FailureStage)
  deriving DecidableEq, Repr

namespace SequencePhase

def isPoisoned : SequencePhase → Bool
  | .poisoned _ _ => true
  | _ => false

instance : ToString SequencePhase where
  toString
    | .fresh => "Fresh"
    | .prefill => "Prefill"
    | .decode => "Decode"
    | .poisoned epoch stage => "Poisoned \x7b epoch: " ++ toString epoch ++
        ", failure_stage: " ++ toString stage ++ " \x7d"

end SequencePhase

namespace SessionError

def overflow (prefixBefore queryRows capacity : UInt32) : SessionError where
  code := .kvOverflow
  message := s!"KV overflow: prefix_before={prefixBefore} + query_rows={queryRows} exceeds " ++
    s!"capacity={capacity}"

def phase (message : String) : SessionError := ⟨.kvPhase, message⟩

def poisoned (epoch : UInt32) (failureStage : FailureStage) : SessionError where
  code := .kvPoisoned
  message := s!"sequence epoch {epoch} is poisoned at {failureStage}; only receipt inspection " ++
    "and release are legal"

def released : SessionError :=
  ⟨.kvReleased, "sequence is released; only receipt inspection is legal"⟩

def stale (message : String) : SessionError := ⟨.kvStale, message⟩

def invalidArgs (message : String) : SessionError := ⟨.invalidArgs, message⟩

end SessionError

/-! ## Plans and transactions -/

structure CursorFacts where
  prefixBefore : UInt32
  queryRows : UInt32
  writePosition : UInt32
  validLenAfter : UInt32
  capacity : UInt32
  queryStart : UInt32
  deriving DecidableEq, Repr

/-- Exclusive end of the causal window of one query row. -/
def CursorFacts.causalEndExclusive (facts : CursorFacts) (queryRow : UInt32) :
    Except SessionError UInt32 :=
  if facts.queryRows ≤ queryRow then
    .error (.invalidArgs s!"query row {queryRow} is outside query_rows={facts.queryRows}")
  else
    match (checkedAdd32 facts.prefixBefore queryRow).bind (checkedAdd32 · 1) with
    | some position => .ok position
    | none => .error (.overflow facts.prefixBefore facts.queryRows facts.capacity)

/-- An admitted invocation that has not yet committed or poisoned. -/
structure PlannedInvocation where
  mode : InvocationMode
  coordinates : CursorFacts
  sequenceEpoch : UInt32
  deriving DecidableEq, Repr

structure CandidateRows where
  start : UInt32
  rows : UInt32
  capacity : UInt32
  deriving DecidableEq, Repr

/-- Absolute position of one candidate row. -/
def CandidateRows.position (T : Toolchain) (candidate : CandidateRows) (row : UInt32) :
    MayPanic (Except SessionError UInt32) :=
  if candidate.rows ≤ row then
    some (.error (.invalidArgs s!"candidate row {row} is outside rows={candidate.rows}"))
  else (addU32 T.overflowChecks candidate.start row).map .ok

inductive VerificationCommit where
  | abortedZero
  | committed (acceptedRows : UInt32) (committed : CursorFacts)
  deriving DecidableEq, Repr

/-- An open invocation transaction; `possibleMutation` is `none` before dispatch. -/
structure InvocationTransaction where
  plan : PlannedInvocation
  possibleMutation : Option FailureStage
  deriving DecidableEq, Repr

namespace InvocationTransaction

def candidateRows (tx : InvocationTransaction) : CandidateRows :=
  ⟨tx.plan.coordinates.queryStart, tx.plan.coordinates.queryRows, tx.plan.coordinates.capacity⟩

def recordPossibleMutation (tx : InvocationTransaction) (stage : FailureStage) :
    InvocationTransaction :=
  { tx with possibleMutation := some stage }

end InvocationTransaction

structure ResetReceipt where
  previousEpoch : UInt32
  sequenceEpoch : UInt32
  previousValidLen : UInt32
  validLen : UInt32
  capacity : UInt32
  cacheCleared : Bool
  buffersZeroFilled : Bool
  uploads : UInt32
  deriving DecidableEq, Repr

inductive FailureOutcome where
  | unchanged
  | poisoned (epoch : UInt32) (failureStage : FailureStage)
  deriving DecidableEq, Repr

/-! ## The state machine -/

structure InferenceSessionState where
  capacity : UInt32
  validLen : UInt32
  sequenceEpoch : UInt32
  phase : SequencePhase
  released : Bool
  lastCommit : Option CursorFacts
  poisonedInvocation : Option PlannedInvocation
  deriving DecidableEq, Repr

namespace InferenceSessionState

/-- Fresh sequence at epoch 1. -/
def new (capacity : UInt32) : Except SessionError InferenceSessionState :=
  if capacity = 0 then .error (.invalidArgs "sequence capacity must be at least 1")
  else
    .ok
      { capacity := capacity
        validLen := 0
        sequenceEpoch := 1
        phase := .fresh
        released := false
        lastCommit := none
        poisonedInvocation := none }

def ensureMutable (s : InferenceSessionState) : Except SessionError Unit :=
  if s.released then .error .released
  else
    match s.phase with
    | .poisoned epoch failureStage => .error (.poisoned epoch failureStage)
    | _ => .ok ()

/-- The plan was admitted at the live epoch, cursor and capacity. -/
def ensurePlanMatches (s : InferenceSessionState) (plan : PlannedInvocation) :
    Except SessionError Unit :=
  if plan.sequenceEpoch ≠ s.sequenceEpoch then
    .error (.stale (s!"plan epoch {plan.sequenceEpoch} does not match live epoch " ++
      s!"{s.sequenceEpoch}"))
  else if plan.coordinates.prefixBefore ≠ s.validLen then
    .error (.stale (s!"plan prefix_before {plan.coordinates.prefixBefore} does not match live " ++
      s!"valid_len {s.validLen}"))
  else if plan.coordinates.capacity ≠ s.capacity then
    .error (.stale (s!"plan capacity {plan.coordinates.capacity} does not match live capacity " ++
      s!"{s.capacity}"))
  else .ok ()

/-- The phase a mode that follows a committed prefill requires. -/
def ensureCommittedPrefill (s : InferenceSessionState) (freshMessage : String) :
    Except SessionError Unit :=
  match s.phase with
  | .prefill | .decode => .ok ()
  | .fresh => .error (.phase freshMessage)
  | .poisoned epoch failureStage => .error (.poisoned epoch failureStage)

/-- What each mode requires of the sequence. -/
def admitMode (s : InferenceSessionState) (queryRows : UInt32) :
    InvocationMode → Except SessionError Unit
  | .prefill =>
    if s.phase ≠ .fresh ∨ s.validLen ≠ 0 then
      .error (.phase "prefill requires a fresh sequence with prefix_before=0")
    else .ok ()
  | .scalarDecode =>
    if queryRows ≠ 1 then
      .error (.invalidArgs "scalar decode is M=1; query_rows must be 1")
    else
      s.ensureCommittedPrefill
        "scalar decode requires a committed prefill; mode is not inferred from length"
  | .verification => do
    if queryRows < 2 then
      .error (.invalidArgs "verification is M=k>1; use scalar decode for a single row")
    else
      s.ensureCommittedPrefill
        ("verification requires a committed prefill at nonzero L; a fresh-prefill masquerade " ++
          "is rejected")
      if s.validLen = 0 then
        .error (.phase "verification requires a committed nonzero prefix_before=L")
      else .ok ()

/-- Pre-dispatch admission; the machine is not mutated. -/
def beginInvocation (s : InferenceSessionState) (mode : InvocationMode) (queryRows : UInt32) :
    Except SessionError PlannedInvocation := do
  s.ensureMutable
  if queryRows = 0 then .error (.invalidArgs "query_rows must be at least 1")
  else
    s.admitMode queryRows mode
    match checkedAdd32 s.validLen queryRows with
    | none => .error (.overflow s.validLen queryRows s.capacity)
    | some validLenAfter =>
      if validLenAfter ≤ s.capacity then
        .ok
          { mode := mode
            coordinates :=
              { prefixBefore := s.validLen
                queryRows := queryRows
                writePosition := s.validLen
                validLenAfter := validLenAfter
                capacity := s.capacity
                queryStart := s.validLen }
            sequenceEpoch := s.sequenceEpoch }
      else .error (.overflow s.validLen queryRows s.capacity)

def beginTransaction (s : InferenceSessionState) (mode : InvocationMode) (queryRows : UInt32) :
    Except SessionError InvocationTransaction := do
  let plan ← s.beginInvocation mode queryRows
  return { plan := plan, possibleMutation := none }

/-- The state after committing these rows in a phase. -/
def advance (s : InferenceSessionState) (rows : CursorFacts) (phase : SequencePhase) :
    InferenceSessionState :=
  { s with validLen := rows.validLenAfter, phase := phase, lastCommit := some rows }

/-- Contiguous commit of every planned row. -/
def commit (plan : PlannedInvocation) : Call InferenceSessionState SessionError CursorFacts := do
  let s ← Call.get
  Call.lift (some s.ensureMutable)
  Call.lift (some (s.ensurePlanMatches plan))
  if plan.mode = .verification then
    Call.throw (.invalidArgs
      "verification commits exactly r accepted rows, not k; use commit_verification")
  else do
    Call.modify (fun s => s.advance plan.coordinates
      (match plan.mode with
      | .prefill => .prefill
      | .scalarDecode | .verification => .decode))
    return plan.coordinates

def commitTransaction (tx : InvocationTransaction) :
    Call InferenceSessionState SessionError CursorFacts :=
  commit tx.plan

/-- Commit of exactly the accepted rows of a verification. -/
def commitVerification (T : Toolchain) (tx : InvocationTransaction) (acceptedRows : UInt32) :
    Call InferenceSessionState SessionError VerificationCommit := do
  let s ← Call.get
  Call.lift (some s.ensureMutable)
  if tx.plan.mode ≠ .verification then
    Call.throw (.invalidArgs "commit_verification requires a Verification transaction")
  else do
    Call.lift (some (s.ensurePlanMatches tx.plan))
    let coordinates := tx.plan.coordinates
    if coordinates.queryRows < acceptedRows then
      Call.throw (.invalidArgs (s!"accepted_rows={acceptedRows} exceeds candidate " ++
        s!"query_rows={coordinates.queryRows}"))
    else if acceptedRows = 0 then return .abortedZero
    else do
      let validLenAfter ← Call.value
        (addU32 T.overflowChecks coordinates.prefixBefore acceptedRows)
      let committed : CursorFacts :=
        { prefixBefore := coordinates.prefixBefore
          queryRows := acceptedRows
          writePosition := coordinates.prefixBefore
          validLenAfter := validLenAfter
          capacity := coordinates.capacity
          queryStart := coordinates.prefixBefore }
      Call.modify (fun s => s.advance committed .decode)
      return .committed acceptedRows committed

/-- Possible partial device mutation; the committed cursor is left unchanged. -/
def poison (plan : PlannedInvocation) (failureStage : FailureStage) :
    Call InferenceSessionState SessionError SequencePhase := do
  let s ← Call.get
  Call.lift (some s.ensureMutable)
  Call.lift (some (s.ensurePlanMatches plan))
  let phase := SequencePhase.poisoned s.sequenceEpoch failureStage
  Call.modify (fun s => { s with phase := phase, poisonedInvocation := some plan })
  return phase

/-- Pre-dispatch abort; the machine is not mutated. -/
def abortPreDispatch (s : InferenceSessionState) (tx : InvocationTransaction) :
    Except SessionError Unit := do
  s.ensureMutable
  s.ensurePlanMatches tx.plan
  match tx.possibleMutation with
  | some stage =>
    .error (.invalidArgs (s!"abort_pre_dispatch after possible mutation at {stage}; poison " ++
      "because rollback is not proven"))
  | none => .ok ()

/-- Possible partial mutation without proven rollback. -/
def failUnproven (tx : InvocationTransaction) :
    Call InferenceSessionState SessionError SequencePhase :=
  match tx.possibleMutation with
  | none =>
    Call.throw (.invalidArgs ("fail_unproven requires a possible mutation stage; " ++
      "abort_pre_dispatch if still pre-dispatch"))
  | some stage => poison tx.plan stage

/-- Close a failed transaction. -/
def fail (tx : InvocationTransaction) :
    Call InferenceSessionState SessionError FailureOutcome :=
  if tx.possibleMutation.isNone then do
    let s ← Call.get
    Call.lift (some (s.abortPreDispatch tx))
    return .unchanged
  else do
    let phase ← failUnproven tx
    match phase with
    | .poisoned epoch failureStage => return .poisoned epoch failureStage
    | other =>
      Call.throw (.invalidArgs s!"expected poison after unproven mutation, got {other}")

/-- Logical prompt reset: the epoch advances, the capacity stays. -/
def logicalReset : Call InferenceSessionState SessionError ResetReceipt := do
  let s ← Call.get
  Call.lift (some s.ensureMutable)
  match checkedAdd32 s.sequenceEpoch 1 with
  | none => Call.throw (.invalidArgs "sequence epoch overflow")
  | some nextEpoch => do
    Call.modify (fun s =>
      { s with
        validLen := 0
        sequenceEpoch := nextEpoch
        phase := .fresh
        lastCommit := none
        poisonedInvocation := none })
    return {
      previousEpoch := s.sequenceEpoch
      sequenceEpoch := nextEpoch
      previousValidLen := s.validLen
      validLen := 0
      capacity := s.capacity
      cacheCleared := false
      buffersZeroFilled := false
      uploads := 0 }

def reset : Call InferenceSessionState SessionError UInt32 := do
  let receipt ← logicalReset
  return receipt.sequenceEpoch

/-- Terminal release; legal after poison. -/
def release : Call InferenceSessionState SessionError Unit := do
  let s ← Call.get
  if s.released then Call.throw .released
  else Call.modify (fun s => { s with released := true })

end InferenceSessionState

end FaberHosts.Inference
