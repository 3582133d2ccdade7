import FaberHosts.Lib.BTree
import FaberHosts.Lib.Worklist
import FaberHosts.Descriptor.Model

/-!
# Descriptor validation

`DeviceDescriptor::validate` and its passes, in the order the host runs them.
A pass that indexes the launch positions may panic; the others cannot.
-/

namespace FaberHosts.Descriptor
open FaberHosts.Lib

/-! ## Launches, roots and version metadata -/

namespace DeviceDescriptor

/-- One step of the launch loop: the ids walked so far become those after it. -/
def checkLaunch (kernels : List DescriptorKernel) (launchIds : List UInt32)
    (launch : DescriptorLaunch) : Except HostError (List UInt32) :=
  if launch.id = 0 then
    .error (.descriptor "device descriptor has a launch with the reserved zero identity")
  else if launch.id ∈ launchIds then
    .error (.descriptor s!"device descriptor repeats launch identity {launch.id}")
  else if kernels[launch.kernelIndex.toNat]?.isNone then
    .error (.descriptor (s!"device descriptor launch {launch.id} references unknown kernel " ++
      s!"index {launch.kernelIndex}"))
  else
    .ok (launchIds ++ [launch.id])

def checkRoot (launchIds rootIds : List UInt32) (root : UInt32) :
    Except HostError (List UInt32) :=
  if root = 0 then
    .error (.descriptor "device descriptor has a root with the reserved zero identity")
  else if root ∈ rootIds then
    .error (.descriptor s!"device descriptor repeats legal execution root {root}")
  else if root ∉ launchIds then
    .error (.descriptor s!"device descriptor root {root} names an unknown launch")
  else
    .ok (rootIds ++ [root])

def validatedLaunchesAndRoots (d : DeviceDescriptor) :
    Except HostError (List UInt32 × List UInt32) :=
  if d.moduleImage.isEmpty then
    .error (.descriptor "device descriptor carries an empty module image")
  else if d.kernels.isEmpty then
    .error (.descriptor "device descriptor declares no kernels")
  else if d.launches.isEmpty then
    .error (.descriptor "device descriptor declares no launches")
  else do
    let launchIds ← d.launches.foldlM (checkLaunch d.kernels) []
    let rootIds ← d.roots.foldlM (checkRoot launchIds) []
    if rootIds.isEmpty then
      .error (.descriptor "device descriptor declares no legal execution roots")
    else
      .ok (launchIds, rootIds)

/-- Why a second metadata row for one key is refused. -/
def repeatedVersion (first version : DescriptorBufferVersion) : HostError :=
  if first.elementTy ≠ version.elementTy then
    .dtypeMismatch (s!"device buffer {version.bufferId} version {version.version} carries " ++
      s!"conflicting element types {first.elementTy} and {version.elementTy}")
  else if first.elementCount ≠ version.elementCount then
    .shapeMismatch (s!"device buffer {version.bufferId} version {version.version} carries " ++
      s!"conflicting element counts {first.elementCount} and {version.elementCount}")
  else if first.shape ≠ version.shape then
    .shapeMismatch (s!"device buffer {version.bufferId} version {version.version} carries " ++
      s!"conflicting shapes {debugShape first.shape} and {debugShape version.shape}")
  else
    .descriptor (s!"device descriptor repeats buffer {version.bufferId} version " ++
      s!"{version.version} metadata")

def checkVersion (versions : List DescriptorBufferVersion) (version : DescriptorBufferVersion) :
    Except HostError (List DescriptorBufferVersion) :=
  if version.version = 0 then
    .error (.descriptor s!"device descriptor buffer {version.bufferId} uses the reserved zero version")
  else if version.elementCount = 0 then
    .error (.descriptor (s!"device descriptor buffer {version.bufferId} version " ++
      s!"{version.version} has a zero element count"))
  else
    match checkedByteLength version.elementCount version.elementTy with
    | none =>
      .error (.shapeMismatch (s!"device descriptor buffer {version.bufferId} version " ++
        s!"{version.version} has an overflowing element count {version.elementCount} for " ++
        s!"{version.elementTy}"))
    | some byteLength =>
      if usizeMax < byteLength.toNat then
        .error (.shapeMismatch (s!"device descriptor buffer {version.bufferId} version " ++
          s!"{version.version} needs {byteLength} bytes, which overflows the host address space"))
      else
        match versions.find? (·.key == version.key) with
        | some first => .error (repeatedVersion first version)
        | none => .ok (versions ++ [version])

def validatedBufferVersions (d : DeviceDescriptor) :
    Except HostError (List DescriptorBufferVersion) := do
  let versions ← d.bufferVersions.foldlM checkVersion []
  if versions.isEmpty then
    .error (.descriptor "device descriptor declares no version-keyed buffer metadata")
  else
    .ok versions

/-! ## The carried graph -/

def checkDataFlow (launchIds : List UInt32) (versions : List DescriptorBufferVersion)
    (edge : DescriptorDataFlow) : Except HostError Unit :=
  if edge.version = 0 ∨ edge.producer = 0 ∨ edge.consumer = 0 then
    .error (.descriptor "device descriptor data-flow edge uses a reserved zero identity")
  else if edge.producer = edge.consumer then
    .error (.descriptor (s!"device descriptor data-flow edge for buffer {edge.bufferId} version " ++
      s!"{edge.version} is self-referential at launch {edge.producer}"))
  else if edge.producer ∉ launchIds ∨ edge.consumer ∉ launchIds then
    .error (.descriptor (s!"device descriptor data-flow edge for buffer {edge.bufferId} version " ++
      s!"{edge.version} references an unknown launch"))
  else if !versions.any (·.key == edge.key) then
    .error (.descriptor (s!"device descriptor data-flow edge references unknown buffer " ++
      s!"{edge.bufferId} version {edge.version}"))
  else
    .ok ()

def validateDataFlowReferences (d : DeviceDescriptor) (launchIds : List UInt32)
    (versions : List DescriptorBufferVersion) : Except HostError Unit :=
  tryEach (checkDataFlow launchIds versions) d.dataFlow

/-- One producer per buffer version; an edge that repeats it is fan-out. -/
def checkProducer (producers : List (BufferKey × UInt32)) (edge : DescriptorDataFlow) :
    Except HostError (List (BufferKey × UInt32)) :=
  match producers.find? (·.1 == edge.key) with
  | some (_, firstProducer) =>
    if firstProducer = edge.producer then
      .ok producers
    else
      .error (.descriptor (s!"device descriptor defines buffer {edge.bufferId} version " ++
        s!"{edge.version} twice (producers {firstProducer} and {edge.producer}); one value " ++
        "generation has exactly one producer"))
  | none => .ok (producers ++ [(edge.key, edge.producer)])

/-- Where each launch stands in the launch order. -/
def launchPositions (launches : List DescriptorLaunch) : BTreeMap UInt32 Nat :=
  (launches.zipIdx.map (fun entry => (entry.1.id, entry.2))).foldl
    (fun position entry => position.insert entry.1 entry.2) ∅

/-- An edge runs forward in the launch order.  Indexing an unknown launch panics. -/
def checkForward (position : BTreeMap UInt32 Nat) (edge : DescriptorDataFlow) :
    MayPanic (Except HostError Unit) := do
  let producerAt ← position[edge.producer]?
  let consumerAt ← position[edge.consumer]?
  if consumerAt ≤ producerAt then
    some (.error (.descriptor ("device descriptor launch order violates the carried dependency " ++
      s!"graph: launch {edge.producer} (producer of buffer {edge.bufferId} version " ++
      s!"{edge.version}) is not scheduled before launch {edge.consumer} (its consumer)")))
  else
    some (.ok ())

/-- The launches reached from the roots.  The source pops its stack at the end, so
    the last root is the top; every pop follows the edges of one launch at most once. -/
def reachableLaunches (edges : List DescriptorDataFlow) (rootIds : List UInt32) :
    Option (List UInt32) :=
  worklist (·.producer) (·.consumer) edges (rootIds.length + edges.length) rootIds.reverse []

def checkReachable (reachable : List UInt32) (launch : UInt32) : Except HostError Unit :=
  if launch ∈ reachable then
    .ok ()
  else
    .error (.descriptor (s!"device descriptor launch {launch} is not reachable from any declared " ++
      "root; the carried graph is incomplete"))

def validatedSchedule (d : DeviceDescriptor) (launchIds rootIds : List UInt32) :
    MayPanic (Except HostError (BTreeMap UInt32 Nat)) :=
  andThen (some (d.dataFlow.foldlM checkProducer [])) fun _ =>
  let position := launchPositions d.launches
  andThen (tryEachM (checkForward position) d.dataFlow) fun _ => do
    let reachable ← reachableLaunches d.dataFlow rootIds
    some (do
      tryEach (checkReachable reachable) launchIds
      .ok position)

end DeviceDescriptor

/-! ## Kernels and slots -/

/-- What the slot checks remember: the first fact recorded for each buffer id. -/
structure DescriptorValidationFacts where
  identities : List (UInt32 × String × DeviceBufferRole)
  semanticValues : List (UInt32 × UInt32)
  lifetimes : List (UInt32 × DeviceBufferLifetime)
  initializations : List (UInt32 × DeviceBufferInitialization)
  perStepInputs : List UInt32
  perStepWrites : List UInt32
  deriving DecidableEq, Repr

namespace DescriptorValidationFacts

/-- `DescriptorValidationFacts::default`. -/
def empty : DescriptorValidationFacts := ⟨[], [], [], [], [], []⟩

/-- One stable semantic value per buffer id, with no aliasing across ids. -/
def validateSemanticIdentity (facts : DescriptorValidationFacts) (slot : DescriptorBuffer) :
    Except HostError DescriptorValidationFacts :=
  if slot.semanticValue = 0 then
    .error (.descriptor (s!"device buffer `{slot.bufferName}` (id {slot.bufferId}) carries the " ++
      "reserved zero semantic value identity"))
  else
    match facts.semanticValues.find? (·.1 == slot.bufferId) with
    | some (_, firstSemantic) =>
      if firstSemantic ≠ slot.semanticValue then
        .error (.abiMismatch (s!"device buffer `{slot.bufferName}` (id {slot.bufferId}) is " ++
          s!"referenced with conflicting semantic value identities {firstSemantic} and " ++
          s!"{slot.semanticValue}"))
      else
        .ok facts
    | none =>
      -- The source names the aliased *value* in the place of the other id.
      match facts.semanticValues.find? (·.2 == slot.semanticValue) with
      | some (_, otherId) =>
        .error (.abiMismatch (s!"device buffers `{slot.bufferName}` (id {slot.bufferId}) and id " ++
          s!"{otherId} alias the same semantic value {slot.semanticValue}; each value is held " ++
          "by exactly one buffer"))
      | none =>
        .ok { facts with
          semanticValues := facts.semanticValues ++ [(slot.bufferId, slot.semanticValue)] }

def validateBufferIdentity (facts : DescriptorValidationFacts) (slot : DescriptorBuffer) :
    Except HostError DescriptorValidationFacts :=
  match facts.identities.find? (·.1 == slot.bufferId) with
  | some (_, name, role) =>
    if roleConflict role slot.role then
      .error (.abiMismatch (s!"device buffer `{slot.bufferName}` (id {slot.bufferId}) is " ++
        s!"referenced with conflicting roles {role} and {slot.role}"))
    else if name ≠ slot.bufferName then
      .error (.abiMismatch (s!"device buffer id {slot.bufferId} is referenced with conflicting " ++
        s!"names `{name}` and `{slot.bufferName}`"))
    else
      .ok facts
  | none =>
    .ok { facts with
      identities := facts.identities ++ [(slot.bufferId, slot.bufferName, slot.role)] }

def recordPerStepAccess (facts : DescriptorValidationFacts) (slot : DescriptorBuffer) :
    DescriptorValidationFacts :=
  if slot.lifetime = .perStep then
    match slot.role with
    | .input =>
      if slot.bufferId ∈ facts.perStepInputs then facts
      else { facts with perStepInputs := facts.perStepInputs ++ [slot.bufferId] }
    | .output | .inOut =>
      if slot.bufferId ∈ facts.perStepWrites then facts
      else { facts with perStepWrites := facts.perStepWrites ++ [slot.bufferId] }
  else
    facts

def validateVersionMetadata (slot : DescriptorBuffer) (versions : List DescriptorBufferVersion) :
    Except HostError Unit :=
  match versions.find? (·.key == slot.key) with
  | none =>
    .error (.descriptor (s!"device buffer `{slot.bufferName}` (id {slot.bufferId}) version " ++
      s!"{slot.version} has no keyed metadata"))
  | some version =>
    if version.elementTy ≠ slot.elementTy then
      .error (.dtypeMismatch (s!"device buffer `{slot.bufferName}` (id {slot.bufferId}) version " ++
        s!"{slot.version} is referenced with conflicting element types {version.elementTy} and " ++
        s!"{slot.elementTy}"))
    else if version.elementCount ≠ slot.elementCount then
      .error (.shapeMismatch (s!"device buffer `{slot.bufferName}` (id {slot.bufferId}) version " ++
        s!"{slot.version} is referenced with conflicting element counts {version.elementCount} " ++
        s!"and {slot.elementCount}"))
    else if version.shape ≠ slot.shape then
      .error (.shapeMismatch (s!"device buffer `{slot.bufferName}` (id {slot.bufferId}) version " ++
        s!"{slot.version} is referenced with conflicting shapes {debugShape version.shape} and " ++
        s!"{debugShape slot.shape}"))
    else
      .ok ()

def validateLifetime (facts : DescriptorValidationFacts) (slot : DescriptorBuffer) :
    Except HostError DescriptorValidationFacts :=
  match facts.lifetimes.find? (·.1 == slot.bufferId) with
  | some (_, firstLifetime) =>
    if firstLifetime ≠ slot.lifetime then
      .error (.abiMismatch (s!"device buffer `{slot.bufferName}` (id {slot.bufferId}) is " ++
        s!"referenced with conflicting lifetimes {firstLifetime} and {slot.lifetime}"))
    else
      .ok facts
  | none => .ok { facts with lifetimes := facts.lifetimes ++ [(slot.bufferId, slot.lifetime)] }

def validateInitialization (facts : DescriptorValidationFacts) (slot : DescriptorBuffer) :
    Except HostError DescriptorValidationFacts :=
  match facts.initializations.find? (·.1 == slot.bufferId) with
  | some (_, firstInit) =>
    if firstInit ≠ slot.initialization then
      .error (.abiMismatch (s!"device buffer `{slot.bufferName}` (id {slot.bufferId}) is " ++
        s!"referenced with conflicting initialization policies {firstInit} and " ++
        s!"{slot.initialization}"))
    else
      .ok facts
  | none =>
    .ok { facts with
      initializations := facts.initializations ++ [(slot.bufferId, slot.initialization)] }

def validateSlot (kernel : DescriptorKernel) (versions : List DescriptorBufferVersion)
    (state : DescriptorValidationFacts × List UInt32) (slot : DescriptorBuffer) :
    Except HostError (DescriptorValidationFacts × List UInt32) :=
  let (facts, seenBindings) := state
  if slot.elementCount = 0 then
    .error (.descriptor (s!"device descriptor kernel `{kernel.entry}` binds a zero-count buffer " ++
      s!"`{slot.bufferName}`"))
  else if slot.version = 0 then
    .error (.descriptor (s!"device descriptor kernel `{kernel.entry}` binds buffer " ++
      s!"`{slot.bufferName}` with the reserved zero version"))
  else if slot.binding ∈ seenBindings then
    .error (.abiMismatch (s!"device descriptor kernel `{kernel.entry}` binds index " ++
      s!"{slot.binding} more than once"))
  else do
    let facts ← facts.validateSemanticIdentity slot
    let facts ← facts.validateBufferIdentity slot
    let facts := facts.recordPerStepAccess slot
    validateVersionMetadata slot versions
    let facts ← facts.validateLifetime slot
    let facts ← facts.validateInitialization slot
    .ok (facts, seenBindings ++ [slot.binding])

end DescriptorValidationFacts

/-- `char::is_whitespace`: the Unicode `White_Space` property. -/
def isWhitespace (c : Char) : Bool :=
  (9 ≤ c.toNat && c.toNat ≤ 13) || c.toNat = 0x20 || c.toNat = 0x85 || c.toNat = 0xA0 ||
    c.toNat = 0x1680 || (0x2000 ≤ c.toNat && c.toNat ≤ 0x200A) || c.toNat = 0x2028 ||
    c.toNat = 0x2029 || c.toNat = 0x202F || c.toNat = 0x205F || c.toNat = 0x3000

/-- `str::trim` leaves nothing. -/
def trimsToEmpty (s : String) : Bool := s.toList.all isWhitespace

namespace DeviceDescriptor
open DescriptorValidationFacts

def checkKernel (versions : List DescriptorBufferVersion) (facts : DescriptorValidationFacts)
    (kernel : DescriptorKernel) : Except HostError DescriptorValidationFacts :=
  if trimsToEmpty kernel.entry then
    .error (.descriptor "device descriptor has a kernel with an empty entry name")
  else if kernel.buffers.isEmpty then
    .error (.descriptor s!"device descriptor kernel `{kernel.entry}` binds no buffers")
  else if 0 ∈ kernel.grid.toList ∨ 0 ∈ kernel.block.toList then
    .error (.descriptor s!"device descriptor kernel `{kernel.entry}` has a zero grid or block axis")
  else do
    let state ← kernel.buffers.foldlM (validateSlot kernel versions) (facts, [])
    .ok state.1

def validatedKernels (d : DeviceDescriptor) (versions : List DescriptorBufferVersion) :
    Except HostError DescriptorValidationFacts :=
  d.kernels.foldlM (checkKernel versions) .empty

/-- The name recorded for a buffer id, as the diagnostics print it. -/
def recordedName (facts : DescriptorValidationFacts) (id : UInt32) : String :=
  match facts.identities.find? (·.1 == id) with
  | some (_, name, _) => name
  | none => "<unknown>"

/-- A `perStep` input is copied once, so no kernel may write it. -/
def checkPerStepInput (facts : DescriptorValidationFacts) (id : UInt32) : Except HostError Unit :=
  if id ∈ facts.perStepWrites then
    .error (.descriptor (s!"device buffer `{recordedName facts id}` (id {id}) is a PerStep input " ++
      "written mid-graph; resident steps copy PerStep inputs once, so a later kernel write " ++
      "would clobber the host value"))
  else
    .ok ()

/-- A repeating step copies its host-provided buffers once, so they must be `perProgram`. -/
def checkOnceInit (facts : DescriptorValidationFacts)
    (entry : UInt32 × DeviceBufferInitialization) : Except HostError Unit :=
  if entry.2 = .hostProvided then
    let lifetime := (facts.lifetimes.find? (·.1 == entry.1)).map (·.2)
    if lifetime ≠ some .perProgram then
      .error (.descriptor (s!"RepeatingStep buffer `{recordedName facts entry.1}` (id " ++
        s!"{entry.1}) is host-provided but has lifetime `" ++
        (match lifetime with
          | none => "(no declared lifetime)"
          | some lifetime => lifetime.spelling) ++
        "`; a repeating step once-inits its host-provided params at session creation, which is " ++
        "defined only for per-program storage"))
    else
      .ok ()
  else
    .ok ()

def validateOnceInit (d : DeviceDescriptor) (facts : DescriptorValidationFacts) :
    Except HostError Unit :=
  if d.programLifetime = .repeatingStep then
    tryEach (checkOnceInit facts) facts.initializations
  else
    .ok ()

/-! ## Observations -/

/-- The launch checks of one result, up to the position lookup. -/
def checkResultLaunches (launchIds : List UInt32) (result : DescriptorResult) :
    Except HostError Unit :=
  if result.version = 0 then
    .error (.descriptor (s!"device descriptor result for buffer {result.bufferId} uses the " ++
      "reserved zero version"))
  else if result.producedBy = 0 ∨ result.atLaunch = 0 then
    .error (.descriptor (s!"device descriptor result for buffer {result.bufferId} uses a reserved " ++
      "zero launch identity"))
  else if result.producedBy ∉ launchIds then
    .error (.descriptor (s!"device descriptor result for buffer {result.bufferId} names unknown " ++
      s!"producing launch {result.producedBy}"))
  else if result.atLaunch ∉ launchIds then
    .error (.descriptor (s!"device descriptor result for buffer {result.bufferId} names unknown " ++
      s!"observation launch {result.atLaunch}"))
  else
    .ok ()

/-- An observation is valid only at or after the producer. -/
def checkObservedAfter (position : BTreeMap UInt32 Nat) (result : DescriptorResult) :
    MayPanic (Except HostError Unit) := do
  let atPosition ← position[result.atLaunch]?
  let producedPosition ← position[result.producedBy]?
  if atPosition < producedPosition then
    some (.error (.descriptor (s!"device descriptor result for buffer {result.bufferId} is " ++
      s!"observed at launch {result.atLaunch} before its producing launch {result.producedBy}; " ++
      "an observation is valid only at or after the producer")))
  else
    some (.ok ())

/-- The storage checks of one result. -/
def checkResultBuffer (lifetimes : List (UInt32 × DeviceBufferLifetime))
    (versions : List DescriptorBufferVersion) (resultBufferIds : List UInt32)
    (result : DescriptorResult) : Except HostError (List UInt32) :=
  if result.bufferId ∈ resultBufferIds then
    .error (.descriptor (s!"device descriptor repeats observation buffer {result.bufferId}; " ++
      "results must be unique in the host receipt"))
  else
    match lifetimes.find? (·.1 == result.bufferId) with
    | none =>
      .error (.descriptor (s!"device descriptor result names buffer {result.bufferId} which no " ++
        "kernel slot allocates"))
    | some (_, lifetime) =>
      if lifetime ≠ .observationPoint then
        .error (.descriptor (s!"device descriptor result names buffer {result.bufferId} with " ++
          s!"lifetime `{lifetime}`; only declared observation-point buffers are read back (no " ++
          "undeclared readback)"))
      else if !versions.any (·.key == result.key) then
        .error (.descriptor (s!"device descriptor result names buffer {result.bufferId} version " ++
          s!"{result.version} which has no keyed metadata"))
      else
        .ok (resultBufferIds ++ [result.bufferId])

/-- The result loop: the buffer ids walked so far become those after it. -/
def checkResults (launchIds : List UInt32) (position : BTreeMap UInt32 Nat)
    (lifetimes : List (UInt32 × DeviceBufferLifetime)) (versions : List DescriptorBufferVersion) :
    List UInt32 → List DescriptorResult → MayPanic (Except HostError (List UInt32))
  | resultBufferIds, [] => some (.ok resultBufferIds)
  | resultBufferIds, result :: rest =>
    andThen (some (checkResultLaunches launchIds result)) fun _ =>
    andThen (checkObservedAfter position result) fun _ =>
    andThen (some (checkResultBuffer lifetimes versions resultBufferIds result)) fun ids =>
    checkResults launchIds position lifetimes versions ids rest

def validatedResults (d : DeviceDescriptor) (launchIds : List UInt32)
    (position : BTreeMap UInt32 Nat) (lifetimes : List (UInt32 × DeviceBufferLifetime))
    (versions : List DescriptorBufferVersion) : MayPanic (Except HostError (List UInt32)) :=
  checkResults launchIds position lifetimes versions [] d.results

def checkEndOfRun (slots : List DescriptorBuffer) (versions : List DescriptorBufferVersion)
    (resultBufferIds endOfRunBufferIds : List UInt32) (endOfRun : DescriptorEndOfRunResult) :
    Except HostError (List UInt32) :=
  if endOfRun.version = 0 then
    .error (.descriptor (s!"device descriptor end-of-run observation for buffer " ++
      s!"{endOfRun.bufferId} uses the reserved zero version"))
  else if endOfRun.bufferId ∈ resultBufferIds then
    .error (.descriptor (s!"device descriptor end-of-run observation names per-step observation " ++
      s!"buffer {endOfRun.bufferId}; a buffer is never read both per step and at the end"))
  else if endOfRun.bufferId ∈ endOfRunBufferIds then
    .error (.descriptor (s!"device descriptor end-of-run observation repeats buffer " ++
      s!"{endOfRun.bufferId}; the set must be unique in the host receipt"))
  else
    match slots.find? (·.key == endOfRun.key) with
    | none =>
      .error (.descriptor (s!"device descriptor end-of-run observation names buffer " ++
        s!"{endOfRun.bufferId} version {endOfRun.version} which no kernel slot allocates"))
    | some slotMeta =>
      if slotMeta.role = .input then
        .error (.descriptor (s!"device descriptor end-of-run observation names input buffer " ++
          s!"{endOfRun.bufferId}; a final value must be written by the program"))
      else if slotMeta.lifetime ≠ .perStep ∧ slotMeta.lifetime ≠ .perProgram then
        .error (.descriptor (s!"device descriptor end-of-run observation names buffer " ++
          s!"{endOfRun.bufferId} with lifetime `{slotMeta.lifetime}`; only per-step and " ++
          "per-program buffers are read back once at the end (observation-point buffers are " ++
          "the per-step results)"))
      else if !versions.any (·.key == endOfRun.key) then
        .error (.descriptor (s!"device descriptor end-of-run observation names buffer " ++
          s!"{endOfRun.bufferId} version {endOfRun.version} which has no keyed metadata"))
      else
        .ok (endOfRunBufferIds ++ [endOfRun.bufferId])

def validateEndOfRunResults (d : DeviceDescriptor) (versions : List DescriptorBufferVersion)
    (resultBufferIds : List UInt32) : Except HostError Unit := do
  let _ ← d.endOfRunResults.foldlM (checkEndOfRun d.slots versions resultBufferIds) []
  .ok ()

/-! ## The whole validation -/

def validate (d : DeviceDescriptor) : MayPanic (Except HostError Unit) :=
  andThen (some d.validatedLaunchesAndRoots) fun (launchIds, rootIds) =>
  andThen (some d.validatedBufferVersions) fun versions =>
  andThen (some (d.validateDataFlowReferences launchIds versions)) fun _ =>
  andThen (d.validatedSchedule launchIds rootIds) fun position =>
  andThen (some (d.validatedKernels versions)) fun facts =>
  andThen (some (tryEach (checkPerStepInput facts) facts.perStepInputs)) fun _ =>
  andThen (some (d.validateOnceInit facts)) fun _ =>
  andThen (d.validatedResults launchIds position facts.lifetimes versions) fun resultBufferIds =>
  some (d.validateEndOfRunResults versions resultBufferIds)

/-- The descriptor is admitted. -/
def Accepted (d : DeviceDescriptor) : Prop := d.validate = some (.ok ())

instance (d : DeviceDescriptor) : Decidable d.Accepted :=
  inferInstanceAs (Decidable (_ = _))

end DeviceDescriptor

end FaberHosts.Descriptor
