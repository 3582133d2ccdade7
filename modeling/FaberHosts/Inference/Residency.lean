import FaberHosts.Descriptor.KvViews
import FaberHosts.Inference.Sequence

/-!
# Model and sequence residency

`residency.rs`: the weights and artifacts of one model, the two arenas of one
sequence with their prefix and append views, and the cache plan read back from
them.  Every resident allocation gets an identity from a process-wide counter,
which is the state the preparing calls run on.
-/

namespace FaberHosts.Inference
open FaberHosts.Lib FaberHosts.Descriptor

/-! ## Resident allocations -/

/-- The derived `Debug` rendering of a lifetime. -/
def debugLifetime : DeviceBufferLifetime → String
  | .perProgram => "PerProgram"
  | .perStep => "PerStep"
  | .observationPoint => "ObservationPoint"

structure AllocationIdentity where
  value : UInt64
  deriving DecidableEq, Repr

/-- `fetch_add` on the process-wide counter. -/
def mintIdentity : Call UInt64 SessionError AllocationIdentity := do
  let next ← Call.get
  Call.modify (· + 1)
  return ⟨next⟩

structure ResidentAllocation where
  identity : AllocationIdentity
  descriptor : DescriptorAllocation
  deriving DecidableEq, Repr

namespace ResidentAllocation

def bufferId (resident : ResidentAllocation) : UInt32 := resident.descriptor.bufferId

def capacityBytes (resident : ResidentAllocation) : UInt64 := resident.descriptor.capacityBytes

end ResidentAllocation

def expectPersistent (allocation : DescriptorAllocation) (what : String) :
    Except SessionError Unit :=
  if allocation.bufferId = 0 then
    .error (.invalidArgs s!"{what} uses the reserved zero buffer identity")
  else if allocation.capacityBytes = 0 then
    .error (.invalidArgs s!"{what} has a zero byte capacity")
  else if allocation.lifetime ≠ .perProgram then
    .error (.invalidArgs
      s!"{what} must have PerProgram lifetime; got {debugLifetime allocation.lifetime}")
  else
    .ok ()

def ResidentAllocation.new (descriptor : DescriptorAllocation) :
    Call UInt64 SessionError ResidentAllocation := do
  Call.lift (some (expectPersistent descriptor "allocation"))
  let identity ← mintIdentity
  return ⟨identity, descriptor⟩

def expectView (view : DescriptorView) (allocation : DescriptorAllocation) (what : String) :
    Except SessionError Unit :=
  if view.allocationId ≠ allocation.bufferId then
    .error (.invalidArgs (s!"{what} allocation_id {view.allocationId} does not match allocation " ++
      s!"{allocation.bufferId}"))
  else if view.logicalDims = [] ∨ view.logicalDims.length ≠ view.strides.length then
    .error (.invalidArgs s!"{what} has rank-mismatched dims and strides")
  else
    match checkedAdd view.staticBase view.maximumSpan with
    | none => .error (.invalidArgs s!"{what} overflows its static envelope")
    | some viewEnd =>
      if allocation.capacityBytes < viewEnd then
        .error (.invalidArgs (s!"{what} spans {viewEnd} bytes but allocation capacity is " ++
          s!"{allocation.capacityBytes}"))
      else
        .ok ()

/-- The identities after those already seen. -/
def expectUniqueAfter (before : List UInt32) : List UInt32 → Except SessionError Unit
  | [] => .ok ()
  | id :: rest =>
    if id ∈ before then .error (.invalidArgs s!"allocation buffer identity {id} is repeated")
    else expectUniqueAfter (before ++ [id]) rest

def expectUniqueBufferIds (ids : List UInt32) : Except SessionError Unit := expectUniqueAfter [] ids

/-! ## Model residency -/

structure ModelIdentity where
  name : String
  epoch : UInt32
  deriving DecidableEq, Repr

/-- The modules of the three invocation graphs. -/
structure PreparedArtifacts where
  prefill : List UInt8
  scalarDecode : List UInt8
  verification : List UInt8
  deriving DecidableEq, Repr

def PreparedArtifacts.forMode (artifacts : PreparedArtifacts) : InvocationMode → List UInt8
  | .prefill => artifacts.prefill
  | .scalarDecode => artifacts.scalarDecode
  | .verification => artifacts.verification

structure ModelSpec where
  identity : ModelIdentity
  prefillArtifact : List UInt8
  decodeArtifact : List UInt8
  verificationArtifact : List UInt8
  weights : List DescriptorAllocation
  deriving DecidableEq, Repr

structure ModelResidency where
  identity : ModelIdentity
  artifacts : PreparedArtifacts
  weights : List ResidentAllocation
  weightUploads : UInt32
  artifactPrepares : UInt32
  deriving DecidableEq, Repr

/-- Resident weights in declared order, up to the first that is refused. -/
def residentWeights : List DescriptorAllocation → Call UInt64 SessionError (List ResidentAllocation)
  | [] => return []
  | weight :: rest => do
    let resident ← ResidentAllocation.new weight
    let residents ← residentWeights rest
    return resident :: residents

/-- Both program artifacts and the weights, uploaded once. -/
def ModelResidency.prepare (spec : ModelSpec) : Call UInt64 SessionError ModelResidency :=
  if spec.identity.name = "" then
    Call.throw (.invalidArgs "model identity name must not be empty")
  else if spec.prefillArtifact = [] then
    Call.throw (.invalidArgs "prefill artifact must be prepared before first invocation")
  else if spec.decodeArtifact = [] then
    Call.throw (.invalidArgs "scalar-decode artifact must be prepared before first invocation")
  else if spec.verificationArtifact = [] then
    Call.throw (.invalidArgs "verification artifact must be prepared before first invocation")
  else if spec.weights = [] then
    Call.throw (.invalidArgs "model residency requires at least one weight allocation")
  else do
    let weights ← residentWeights spec.weights
    Call.lift (some (expectUniqueBufferIds (spec.weights.map (·.bufferId))))
    return {
      identity := spec.identity
      artifacts := ⟨spec.prefillArtifact, spec.decodeArtifact, spec.verificationArtifact⟩
      weights := weights
      weightUploads := 1
      artifactPrepares := 1 }

/-! ## Sequence residency -/

structure SequenceSpec where
  kArena : DescriptorAllocation
  vArena : DescriptorAllocation
  kPrefix : DescriptorView
  kAppend : DescriptorView
  vPrefix : DescriptorView
  vAppend : DescriptorView
  invocationState : DescriptorAllocation
  capacity : UInt32
  deriving DecidableEq, Repr

structure SequenceResidency where
  kArena : ResidentAllocation
  vArena : ResidentAllocation
  kPrefix : DescriptorView
  kAppend : DescriptorView
  vPrefix : DescriptorView
  vAppend : DescriptorView
  invocationStateAllocation : ResidentAllocation
  invocationState : DescriptorInvocationState
  state : InferenceSessionState
  deriving DecidableEq, Repr

namespace SequenceResidency

/-- One K and one V arena and the invocation-state buffer; the views share the arenas. -/
def prepare (spec : SequenceSpec) : Call UInt64 SessionError SequenceResidency := do
  Call.lift (some (expectView spec.kPrefix spec.kArena "K prefix view"))
  Call.lift (some (expectView spec.kAppend spec.kArena "K append view"))
  Call.lift (some (expectView spec.vPrefix spec.vArena "V prefix view"))
  Call.lift (some (expectView spec.vAppend spec.vArena "V append view"))
  Call.lift (some (expectUniqueBufferIds
    [spec.kArena.bufferId, spec.vArena.bufferId, spec.invocationState.bufferId]))
  let state ← Call.lift (some (InferenceSessionState.new spec.capacity))
  let kArena ← ResidentAllocation.new spec.kArena
  let vArena ← ResidentAllocation.new spec.vArena
  let invocationStateAllocation ← ResidentAllocation.new spec.invocationState
  return {
    kArena := kArena
    vArena := vArena
    kPrefix := spec.kPrefix
    kAppend := spec.kAppend
    vPrefix := spec.vPrefix
    vAppend := spec.vAppend
    invocationStateAllocation := invocationStateAllocation
    invocationState := ⟨0, 0, 0, state.sequenceEpoch⟩
    state := state }

/-- The storage plan of the two arenas; launch bindings are not part of a residency. -/
def cachePlan (r : SequenceResidency) : KvCacheDescriptor where
  allocations := [r.kArena.descriptor, r.vArena.descriptor]
  views := [r.kPrefix, r.kAppend, r.vPrefix, r.vAppend]
  invocationState := r.invocationState
  launchBindings := []

def syncInvocationState (r : SequenceResidency) (facts : CursorFacts) : SequenceResidency :=
  { r with invocationState :=
    ⟨facts.writePosition, facts.validLenAfter, facts.queryRows, r.state.sequenceEpoch⟩ }

def syncInvocationStateReset (r : SequenceResidency) : SequenceResidency :=
  { r with invocationState := ⟨0, 0, 0, r.state.sequenceEpoch⟩ }

def onState {α : Type} (c : Call InferenceSessionState SessionError α) :
    Call SequenceResidency SessionError α :=
  Call.within SequenceResidency.state (fun r s => { r with state := s }) c

def commit (plan : PlannedInvocation) : Call SequenceResidency SessionError CursorFacts := do
  let facts ← onState (InferenceSessionState.commit plan)
  Call.modify (·.syncInvocationState facts)
  return facts

/-- Logical reset: the arenas and views stay. -/
def logicalReset : Call SequenceResidency SessionError ResetReceipt := do
  let receipt ← onState InferenceSessionState.logicalReset
  Call.modify syncInvocationStateReset
  return receipt

/-- Poison leaves the last committed cursor. -/
def fail (tx : InvocationTransaction) : Call SequenceResidency SessionError FailureOutcome :=
  onState (InferenceSessionState.fail tx)

def release : Call SequenceResidency SessionError Unit := onState InferenceSessionState.release

end SequenceResidency

/-! ## Session residency -/

/-- The shared handles of one program. -/
structure ResolvedHandles where
  mode : InvocationMode
  modelIdentity : ModelIdentity
  artifact : List UInt8
  weights : List ResidentAllocation
  kArena : ResidentAllocation
  vArena : ResidentAllocation
  invocationState : ResidentAllocation
  deriving DecidableEq, Repr

/-- The model and the sequence of one session; the byte counters stay at zero. -/
structure SessionResidency where
  model : ModelResidency
  sequence : SequenceResidency
  releasedAllocations : UInt64
  liveHandles : Bool
  cacheClearBytes : UInt64
  bufferZeroFillBytes : UInt64
  oldPrefixCopyBytes : UInt64
  resetCount : UInt32
  deriving DecidableEq, Repr

namespace SessionResidency

/-- Buffer identities are unique across weights, arenas and invocation state. -/
def compose (model : ModelResidency) (sequence : SequenceResidency) :
    Except SessionError SessionResidency := do
  expectUniqueBufferIds (model.weights.map ResidentAllocation.bufferId ++
    [sequence.kArena.bufferId, sequence.vArena.bufferId,
      sequence.invocationStateAllocation.bufferId])
  return {
    model := model
    sequence := sequence
    releasedAllocations := 0
    liveHandles := true
    cacheClearBytes := 0
    bufferZeroFillBytes := 0
    oldPrefixCopyBytes := 0
    resetCount := 0 }

def prepare (model : ModelSpec) (sequence : SequenceSpec) :
    Call UInt64 SessionError SessionResidency := do
  let model ← ModelResidency.prepare model
  let sequence ← SequenceResidency.prepare sequence
  Call.lift (some (compose model sequence))

/-- The mode picks the artifact; nothing is allocated or loaded. -/
def resolve (r : SessionResidency) (mode : InvocationMode) : ResolvedHandles where
  mode := mode
  modelIdentity := r.model.identity
  artifact := r.model.artifacts.forMode mode
  weights := r.model.weights
  kArena := r.sequence.kArena
  vArena := r.sequence.vArena
  invocationState := r.sequence.invocationStateAllocation

def beginInvocation (r : SessionResidency) (mode : InvocationMode) (queryRows : UInt32) :
    Except SessionError PlannedInvocation :=
  r.sequence.state.beginInvocation mode queryRows

def beginTransaction (r : SessionResidency) (mode : InvocationMode) (queryRows : UInt32) :
    Except SessionError InvocationTransaction :=
  r.sequence.state.beginTransaction mode queryRows

def onSequence {α : Type} (c : Call SequenceResidency SessionError α) :
    Call SessionResidency SessionError α :=
  Call.within SessionResidency.sequence (fun r s => { r with sequence := s }) c

def commit (plan : PlannedInvocation) : Call SessionResidency SessionError CursorFacts :=
  onSequence (SequenceResidency.commit plan)

def commitTransaction (tx : InvocationTransaction) :
    Call SessionResidency SessionError CursorFacts :=
  commit tx.plan

def logicalReset : Call SessionResidency SessionError ResetReceipt := do
  let receipt ← onSequence SequenceResidency.logicalReset
  Call.modify (fun r => { r with resetCount := saturatingAdd32 r.resetCount 1 })
  return receipt

def abortPreDispatch (r : SessionResidency) (tx : InvocationTransaction) :
    Except SessionError Unit :=
  r.sequence.state.abortPreDispatch tx

def fail (tx : InvocationTransaction) : Call SessionResidency SessionError FailureOutcome :=
  onSequence (SequenceResidency.fail tx)

/-- Terminal release: every live handle is dropped, with no device work. -/
def release : Call SessionResidency SessionError Unit := do
  onSequence SequenceResidency.release
  Call.modify (fun r =>
    if r.liveHandles then
      { r with
        releasedAllocations :=
          saturatingAdd r.releasedAllocations (UInt64.ofNat (r.model.weights.length + 3))
        liveHandles := false }
    else r)

end SessionResidency

/-! ## What preparation admits -/

theorem expectPersistent_ok_iff {allocation : DescriptorAllocation} {what : String} :
    expectPersistent allocation what = .ok () ↔ allocation.bufferId ≠ 0 ∧
      allocation.capacityBytes ≠ 0 ∧ allocation.lifetime = .perProgram := by
  unfold expectPersistent
  by_cases hid : allocation.bufferId = 0
  · simp [hid]
  by_cases hcapacity : allocation.capacityBytes = 0
  · simp [hid, hcapacity]
  by_cases hlifetime : allocation.lifetime = .perProgram
  · simp [hid, hcapacity, hlifetime]
  · simp [hid, hcapacity, hlifetime]

/-- What `expect_view` asks of a view over an arena. -/
structure ViewOver (view : DescriptorView) (allocation : DescriptorAllocation) : Prop where
  owner : view.allocationId = allocation.bufferId
  dims : view.logicalDims ≠ []
  rank : view.logicalDims.length = view.strides.length
  inside : view.staticBase.toNat + view.maximumSpan.toNat ≤ allocation.capacityBytes.toNat

theorem expectView_ok_iff {view : DescriptorView} {allocation : DescriptorAllocation}
    {what : String} : expectView view allocation what = .ok () ↔ ViewOver view allocation := by
  unfold expectView
  by_cases howner : view.allocationId = allocation.bufferId
  · by_cases hrank : view.logicalDims = [] ∨ view.logicalDims.length ≠ view.strides.length
    · rw [if_neg (not_not.mpr howner), if_pos hrank]
      exact iff_of_false nofun (fun h => hrank.elim h.dims (fun hne => hne h.rank))
    · rw [if_neg (not_not.mpr howner), if_neg hrank]
      push Not at hrank
      have hover : ViewOver view allocation ↔
          view.staticBase.toNat + view.maximumSpan.toNat ≤ allocation.capacityBytes.toNat :=
        ⟨fun h => h.inside, fun h => ⟨howner, hrank.1, hrank.2, h⟩⟩
      rw [hover]
      exact envelope_ok_iff
  · rw [if_pos howner]
    exact iff_of_false nofun (fun h => howner h.owner)

theorem expectUniqueAfter_ok_iff {before ids : List UInt32} (hbefore : before.Nodup) :
    expectUniqueAfter before ids = .ok () ↔ (before ++ ids).Nodup := by
  induction ids generalizing before with
  | nil => simpa [expectUniqueAfter] using hbefore
  | cons id rest ih =>
    rw [expectUniqueAfter]
    by_cases hseen : id ∈ before
    · rw [if_pos hseen]
      refine iff_of_false nofun (fun hnodup => ?_)
      exact (List.disjoint_of_nodup_append hnodup) hseen List.mem_cons_self
    · rw [if_neg hseen, ih, List.append_assoc, List.singleton_append]
      refine List.nodup_append.mpr ⟨hbefore, List.nodup_singleton id, ?_⟩
      intro seen hmem new hnew hsame
      rw [List.mem_singleton.mp hnew] at hsame
      exact hseen (hsame ▸ hmem)

theorem expectUniqueBufferIds_ok_iff {ids : List UInt32} :
    expectUniqueBufferIds ids = .ok () ↔ ids.Nodup :=
  expectUniqueAfter_ok_iff List.nodup_nil

theorem ResidentAllocation.new_spec (descriptor : DescriptorAllocation) (next : UInt64) :
    Call.wp False (ResidentAllocation.new descriptor)
      (fun resident _ => resident.descriptor = descriptor ∧
        expectPersistent descriptor "allocation" = .ok ()) (fun _ _ => True) next := by
  rw [ResidentAllocation.new]
  apply Call.wp_of_check
  · intro _ hpersistent
    exact ⟨rfl, hpersistent⟩
  · exact fun _ _ => trivial

namespace SequenceResidency

/-- The cache plan of a residency before any invocation. -/
def storagePlan (spec : SequenceSpec) : KvCacheDescriptor where
  allocations := [spec.kArena, spec.vArena]
  views := [spec.kPrefix, spec.kAppend, spec.vPrefix, spec.vAppend]
  invocationState := ⟨0, 0, 0, 1⟩
  launchBindings := []

/-- What an accepted specification meets, and the residency made of it. -/
structure Prepared (spec : SequenceSpec) (r : SequenceResidency) : Prop where
  plan : r.cachePlan = storagePlan spec
  fresh : InferenceSessionState.new spec.capacity = .ok r.state
  kArena : spec.kArena.bufferId ≠ 0 ∧ spec.kArena.capacityBytes ≠ 0
  vArena : spec.vArena.bufferId ≠ 0 ∧ spec.vArena.capacityBytes ≠ 0
  distinct : spec.kArena.bufferId ≠ spec.vArena.bufferId
  kPrefix : ViewOver spec.kPrefix spec.kArena
  kAppend : ViewOver spec.kAppend spec.kArena
  vPrefix : ViewOver spec.vPrefix spec.vArena
  vAppend : ViewOver spec.vAppend spec.vArena

theorem prepare_spec (spec : SequenceSpec) (next : UInt64) :
    Call.wp False (prepare spec) (fun r _ => Prepared spec r) (fun _ _ => True) next := by
  rw [prepare]
  refine Call.wp_of_check (fun _ hkPrefix => ?_) (fun _ _ => trivial)
  refine Call.wp_of_check (fun _ hkAppend => ?_) (fun _ _ => trivial)
  refine Call.wp_of_check (fun _ hvPrefix => ?_) (fun _ _ => trivial)
  refine Call.wp_of_check (fun _ hvAppend => ?_) (fun _ _ => trivial)
  refine Call.wp_of_check (fun _ hunique => ?_) (fun _ _ => trivial)
  refine Call.wp_of_check (fun state hstate => ?_) (fun _ _ => trivial)
  rw [Call.wp_bind]
  refine Call.wp_mono (ResidentAllocation.new_spec spec.kArena next) ?_ (fun _ _ h => h)
  intro kArena next hkArena
  rw [Call.wp_bind]
  refine Call.wp_mono (ResidentAllocation.new_spec spec.vArena next) ?_ (fun _ _ h => h)
  intro vArena next hvArena
  rw [Call.wp_bind]
  refine Call.wp_mono (ResidentAllocation.new_spec spec.invocationState next) ?_ (fun _ _ h => h)
  intro invocationStateAllocation next _
  have hepoch : state.sequenceEpoch = 1 := by
    rw [InferenceSessionState.new] at hstate
    split at hstate
    · cases hstate
    · cases hstate
      rfl
  have hkPersistent := expectPersistent_ok_iff.mp hkArena.2
  have hvPersistent := expectPersistent_ok_iff.mp hvArena.2
  have hnodup := expectUniqueBufferIds_ok_iff.mp hunique
  rw [Call.wp_pure]
  exact {
    plan := by rw [cachePlan, storagePlan, hkArena.1, hvArena.1, hepoch]
    fresh := hstate
    kArena := ⟨hkPersistent.1, hkPersistent.2.1⟩
    vArena := ⟨hvPersistent.1, hvPersistent.2.1⟩
    distinct := fun hsame => (List.nodup_cons.mp hnodup).1 (hsame ▸ List.mem_cons_self)
    kPrefix := expectView_ok_iff.mp hkPrefix
    kAppend := expectView_ok_iff.mp hkAppend
    vPrefix := expectView_ok_iff.mp hvPrefix
    vAppend := expectView_ok_iff.mp hvAppend }

/-! ## When the cache plan is admissible -/

/-- What validation asks of a view beyond `expect_view`. -/
structure Nonzero (view : DescriptorView) : Prop where
  dims : 0 ∉ view.logicalDims
  strides : 0 ∉ view.strides
  span : view.maximumSpan ≠ 0

theorem viewFits_iff {spec : SequenceSpec} {view : DescriptorView}
    {allocation : DescriptorAllocation} (hmem : allocation ∈ (storagePlan spec).allocations)
    (hover : ViewOver view allocation) :
    (storagePlan spec).ViewFits view ↔ Nonzero view := by
  constructor
  · intro h
    exact ⟨h.nonzero.1, h.nonzero.2, h.span⟩
  · intro h
    exact ⟨hover.dims, hover.rank, ⟨h.dims, h.strides⟩, h.span,
      allocation, hmem, hover.owner.symm, hover.inside⟩

end SequenceResidency

/-! ## Two arenas -/

/-- The four words of the cursor. -/
def stateBuffer : DescriptorAllocation := ⟨3, .u8, 16, .perProgram, .zeroFill⟩

open TwoArenas in
/-- Eight positions, with the span of the K append view left open. -/
def arenasSpec (span : UInt64) : SequenceSpec where
  kArena := arena 1
  vArena := arena 2
  kPrefix := prefixView 1
  kAppend := { appendView 1 with maximumSpan := span }
  vPrefix := prefixView 2
  vAppend := appendView 2
  invocationState := stateBuffer
  capacity := 8

namespace SequenceResidency

end SequenceResidency

end FaberHosts.Inference
