import FaberHosts.Toolchain
import FaberHosts.Coordinator.DeviceSet
import FaberHosts.Coordinator.Partition

/-!
# Bound distributed plans

`bound_plan.rs`: the admitted logical plan, the per-partition bindings and
`bind`, which ties them to a device set over a frozen discovery snapshot.
-/

namespace FaberHosts.Coordinator
open FaberHosts.Lib

/-! ## Logical partitions and declared facts -/

/-- Opaque identity of one logical partition of the admitted plan. -/
structure LogicalPartitionId where
  id : String
  deriving DecidableEq, Repr

namespace LogicalPartitionId

theorem id_injective : Function.Injective LogicalPartitionId.id := by
  rintro ⟨a⟩ ⟨b⟩ h
  exact congrArg LogicalPartitionId.mk h

instance : Ord LogicalPartitionId := ⟨compareOn LogicalPartitionId.id⟩

instance : Std.TransOrd LogicalPartitionId :=
  inferInstanceAs (Std.TransCmp (compareOn LogicalPartitionId.id))

instance : Std.LawfulEqOrd LogicalPartitionId := lawfulEq_compareOn id_injective

instance : ToString LogicalPartitionId := ⟨LogicalPartitionId.id⟩

end LogicalPartitionId

inductive DeclaredPlacementConstraint where
  | distinctPhysicalDevices
  | colocated (partitions : BTreeSet LogicalPartitionId)
  | requiredBackend (partitions : BTreeSet LogicalPartitionId) (backend : DeviceBackend)
  deriving DecidableEq

structure LaunchResourceDemand where
  threadsPerWorkgroup : Option UInt32
  workgroupSharedMemoryBytes : Option UInt32
  deriving DecidableEq, Repr

inductive AdmitError where
  | unadmittedLogicalHash (given : String)
  | noDeclaredPartitions
  | constraintReferencesUnknownPartition (partition : LogicalPartitionId)
  deriving DecidableEq, Repr

/-- The `sha256:` prefix followed by 64 lowercase hex digits. -/
def isSha256Hex (hash : String) : Bool :=
  let digest := hash.toList.drop 7
  hash.toList.take 7 = "sha256:".toList && digest.length = 64 &&
    digest.all (fun c => "0123456789abcdef".toList.contains c)

/-- The first undeclared partition a constraint references, if any. -/
def constraintUnknownPartition (declared : BTreeSet LogicalPartitionId) :
    DeclaredPlacementConstraint → Option LogicalPartitionId
  | .distinctPhysicalDevices => none
  | .colocated partitions => partitions.toList.find? (fun p => !declared.contains p)
  | .requiredBackend partitions _ => partitions.toList.find? (fun p => !declared.contains p)

/-- The admitted-hash marker.  Only admission builds one, so its constraints name
    declared partitions. -/
structure AdmittedLogicalPlan where
  logicalDistributedPlanHash : String
  declaredPartitions : BTreeSet LogicalPartitionId
  declaredConstraints : List DeclaredPlacementConstraint
  launchResourceDemand : LaunchResourceDemand
  declared_nonempty : declaredPartitions.isEmpty = false
  constraints_declared :
    ∀ c ∈ declaredConstraints, constraintUnknownPartition declaredPartitions c = none
  deriving DecidableEq

def AdmittedLogicalPlan.admit (hash : String) (declaredPartitions : List LogicalPartitionId)
    (declaredConstraints : List DeclaredPlacementConstraint) :
    Except AdmitError AdmittedLogicalPlan :=
  if !isSha256Hex hash then .error (.unadmittedLogicalHash hash)
  else
    let partitions := setOf declaredPartitions
    if hne : partitions.isEmpty = true then .error .noDeclaredPartitions
    else
      match hunknown : declaredConstraints.findSome? (constraintUnknownPartition partitions) with
      | some partition => .error (.constraintReferencesUnknownPartition partition)
      | none =>
        .ok {
          logicalDistributedPlanHash := hash
          declaredPartitions := partitions
          declaredConstraints := declaredConstraints
          launchResourceDemand := ⟨none, none⟩
          declared_nonempty := by simpa using hne
          constraints_declared := List.findSome?_eq_none_iff.mp hunknown }

namespace AdmittedLogicalPlan

def withLaunchResourceDemand (plan : AdmittedLogicalPlan) (demand : LaunchResourceDemand) :
    AdmittedLogicalPlan :=
  { plan with launchResourceDemand := demand }

/-- Exactly one declared partition: the degenerate shape. -/
def isSinglePartition (plan : AdmittedLogicalPlan) : Bool := plan.declaredPartitions.size = 1

end AdmittedLogicalPlan

/-! ## Bindings and bound plans -/

/-- A logical partition bound to one physical device, optionally carrying an
    admitted virtual partition. -/
structure PartitionBinding where
  device : PhysicalDeviceId
  virtualPartition : Option VirtualDevicePartition
  deriving DecidableEq

abbrev Bindings := BTreeMap LogicalPartitionId PartitionBinding

inductive BoundPlanKind where
  | implicitLocal (device : PhysicalDeviceId) (virtualPartition : Option VirtualDevicePartition)
  | distributed (bindings : Bindings)
  deriving DecidableEq

inductive BindError where
  | staleSnapshot (snapshotId : DeviceDiscoverySnapshotId) (current : DeviceHealthGeneration)
  | membership (error : MembershipError)
  | topologyMismatch (detail : String)
  | invalidPartitionBinding (partition : LogicalPartitionId) (detail : String)
  | budgetExceeded (partition : LogicalPartitionId) (declaredTotalBytes : Option UInt64)
      (policyLimitBytes : UInt64)
  | constraintViolation (constraint : DeclaredPlacementConstraint) (detail : String)
  | launchResourceLimit (device : PhysicalDeviceId) (detail : String)
  deriving DecidableEq

structure BoundDistributedPlan where
  logicalDistributedPlanHash : String
  kind : BoundPlanKind
  deviceSet : DeviceSet
  snapshotId : DeviceDiscoverySnapshotId
  fixtureIdentityClass : FixtureIdentityClass
  transportClass : TransportClass
  boundDistributedPlanHash : String
  deriving DecidableEq

namespace BoundDistributedPlan

def isDegenerate (plan : BoundDistributedPlan) : Bool :=
  match plan.kind with
  | .implicitLocal _ _ => true
  | .distributed _ => false

def bindings (plan : BoundDistributedPlan) : Option Bindings :=
  match plan.kind with
  | .distributed bindings => some bindings
  | .implicitLocal _ _ => none

/-- The values of the bindings, in partition order. -/
def bindingValues (bindings : Bindings) : List PartitionBinding := bindings.toList.map Prod.snd

/-- The receipt taxonomy of the bound plan. -/
def receipt (plan : BoundDistributedPlan) : PartitionReceipt :=
  match plan.kind with
  | .implicitLocal device virtualPartition =>
    .new (setOf [device]) (setOf (virtualPartition.toList.map (·.id)))
      plan.fixtureIdentityClass plan.transportClass
  | .distributed bindings =>
    .new (setOf ((bindingValues bindings).map (·.device)))
      (setOf ((bindingValues bindings).filterMap (fun b => b.virtualPartition.map (·.id))))
      plan.fixtureIdentityClass plan.transportClass

/-- The bytes of an optionally attached virtual partition. -/
def attachedBytes (virtualPartition : Option VirtualDevicePartition) : List UInt8 :=
  match virtualPartition with
  | some p => [1] ++ pushU64 p.id.seed
  | none => [0]

def canonicalBytes (plan : BoundDistributedPlan) : List UInt8 :=
  pushStr plan.logicalDistributedPlanHash ++
    (match plan.kind with
    | .implicitLocal device virtualPartition =>
      [0] ++ device.canonicalBytes ++ attachedBytes virtualPartition
    | .distributed bindings =>
      [1] ++ pushLen bindings.size ++
        bindings.toList.flatMap (fun bound =>
          pushStr bound.1.id ++ bound.2.device.canonicalBytes ++
            attachedBytes bound.2.virtualPartition)) ++
    pushLen plan.deviceSet.len ++
    plan.deviceSet.members.toList.flatMap PhysicalDeviceId.canonicalBytes ++
    plan.snapshotId.bytes ++
    pushU64 plan.fixtureIdentityClass.tag ++ pushU64 plan.transportClass.tag

end BoundDistributedPlan

/-! ## Checks of `bind` -/

/-- A zero launch-resource field is a missing measurement.  `policy.rs` has the
    same function. -/
def evaluableLaunchLimit (value : UInt32) (field : String) : Except String UInt32 :=
  if value = 0 then .error s!"{field} is unevaluable (device reports 0)" else .ok value

/-- An attached virtual partition must bind the same device and be active. -/
def checkBindingConsistency (bound : LogicalPartitionId × PartitionBinding) :
    Except BindError Unit :=
  match bound.2.virtualPartition with
  | none => .ok ()
  | some instance_ =>
    if instance_.boundDevice ≠ bound.2.device then
      .error (.invalidPartitionBinding bound.1
        (s!"attached partition {instance_.id} binds {instance_.boundDevice}, " ++
          s!"but the binding names {bound.2.device}"))
    else if !instance_.isActive then
      .error (.invalidPartitionBinding bound.1
        s!"attached partition {instance_.id} is not active")
    else .ok ()

/-- Evaluate one declared placement constraint against the bindings.  A lookup
    of a partition that has no binding panics. -/
def checkConstraint (bindings : Bindings) (constraint : DeclaredPlacementConstraint) :
    MayPanic (Except String Unit) :=
  match constraint with
  | .distinctPhysicalDevices =>
    let distinct := setOf ((BoundDistributedPlan.bindingValues bindings).map (·.device))
    if distinct.size ≠ bindings.size then
      some (.error
        (s!"{bindings.size} partition(s) must each bind a distinct physical device; " ++
          s!"{distinct.size} distinct device(s) referenced"))
    else some (.ok ())
  | .colocated partitions => do
    let bound ← partitions.toList.mapM (fun partition => bindings[partition]?)
    let devices := setOf (bound.map (·.device))
    if 1 < devices.size then
      some (.error
        s!"colocated partitions must bind exactly one physical device; found {devices.size}")
    else some (.ok ())
  | .requiredBackend partitions backend =>
    tryEachM (fun partition =>
      (bindings[partition]?).map (fun binding =>
        if binding.device.backend ≠ backend then
          .error (s!"partition {partition} bound to a {binding.device.backend} device; " ++
            s!"declared backend is {backend}")
        else .ok ())) partitions.toList

/-- One limit of the launch-resource check: the demand, the device's ceiling, the
    ceiling's name and the message of a demand above it. -/
def checkLaunchLimit (device : PhysicalDeviceId) (demand : Option UInt32) (ceiling : UInt32)
    (field : String) (exceeds : UInt32 → UInt32 → String) : Except BindError Unit :=
  match demand with
  | none => .ok ()
  | some demanded =>
    match evaluableLaunchLimit ceiling field with
    | .error detail => .error (.launchResourceLimit device detail)
    | .ok limit =>
      if limit < demanded then .error (.launchResourceLimit device (exceeds demanded limit))
      else .ok ()

/-- Fail-closed launch-resource check of one bound device. -/
def checkDeviceLaunchLimits (demand : LaunchResourceDemand) (snapshot : DeviceDiscoverySnapshot)
    (device : PhysicalDeviceId) : Except BindError Unit :=
  match snapshot.findEntry device with
  | none =>
    .error (.launchResourceLimit device
      s!"no capability facts recorded for {device} in the snapshot")
  | some entry =>
    match checkLaunchLimit device demand.threadsPerWorkgroup
      entry.capabilities.maxThreadsPerWorkgroup "max_threads_per_workgroup"
      (fun threads limit =>
        s!"threads per workgroup {threads} exceeds device max_threads_per_workgroup {limit}") with
    | .error e => .error e
    | .ok () =>
      checkLaunchLimit device demand.workgroupSharedMemoryBytes
        entry.capabilities.workgroupSharedMemoryMaxBytes "workgroup_shared_memory_max_bytes"
        (fun bytes limit =>
          s!"workgroup shared memory {bytes} bytes exceeds device max {limit} bytes")

/-- `check_launch_resource_limits`: undeclared fields skip their check. -/
def checkLaunchResourceLimits (demand : LaunchResourceDemand)
    (boundDevices : BTreeSet PhysicalDeviceId) (snapshot : DeviceDiscoverySnapshot) :
    Except BindError Unit :=
  if demand.threadsPerWorkgroup.isNone && demand.workgroupSharedMemoryBytes.isNone then .ok ()
  else tryEach (checkDeviceLaunchLimits demand snapshot) boundDevices.toList

/-- The shape of the plan: a single partition binds the implicit/local one. -/
def boundPlanKind (admitted : AdmittedLogicalPlan) (bindings : Bindings) :
    MayPanic BoundPlanKind :=
  if admitted.isSinglePartition then
    (BoundDistributedPlan.bindingValues bindings).head?.map
      (fun binding => .implicitLocal binding.device binding.virtualPartition)
  else some (.distributed bindings)

/-- Everything `bind` checks before it builds the plan, in order. -/
def bindChecks (admitted : AdmittedLogicalPlan) (bindings : Bindings) (deviceSet : DeviceSet)
    (snapshot : DeviceDiscoverySnapshot) (currentGeneration : DeviceHealthGeneration) :
    MayPanic (Except BindError Unit) :=
  let boundDevices := setOf ((BoundDistributedPlan.bindingValues bindings).map (·.device))
  if snapshot.isStale currentGeneration then
    some (.error (.staleSnapshot snapshot.id currentGeneration))
  else
    match deviceSet.validate snapshot currentGeneration with
    | .error e => some (.error (.membership e))
    | .ok () =>
      if admitted.declaredPartitions ≠ keySet bindings then
        some (.error (.topologyMismatch
          ("binding set does not match the declared partition set: " ++
            s!"declared {admitted.declaredPartitions.size} partition(s), " ++
            s!"{bindings.size} binding(s)")))
      else if boundDevices ≠ deviceSet.members then
        some (.error (.topologyMismatch
          ("the device set does not match the bound device set: " ++
            s!"set has {deviceSet.len} member(s), bindings reference {boundDevices.size}")))
      else
        match tryEach checkBindingConsistency bindings.toList with
        | .error e => some (.error e)
        | .ok () => do
          let placed ← tryEachM (fun constraint =>
            (checkConstraint bindings constraint).map
              (Except.mapError (.constraintViolation constraint))) admitted.declaredConstraints
          match placed with
          | .error e => some (.error e)
          | .ok () =>
            some (checkLaunchResourceLimits admitted.launchResourceDemand boundDevices snapshot)

/-- Bind an admitted logical plan to a physical topology. -/
def bind (T : Toolchain) (admitted : AdmittedLogicalPlan) (bindings : Bindings)
    (deviceSet : DeviceSet) (snapshot : DeviceDiscoverySnapshot)
    (currentGeneration : DeviceHealthGeneration) (fixtureIdentityClass : FixtureIdentityClass)
    (transportClass : TransportClass) : MayPanic (Except BindError BoundDistributedPlan) := do
  let checked ← bindChecks admitted bindings deviceSet snapshot currentGeneration
  match checked with
  | .error e => some (.error e)
  | .ok () =>
    let kind ← boundPlanKind admitted bindings
    let plan : BoundDistributedPlan := {
      logicalDistributedPlanHash := admitted.logicalDistributedPlanHash
      kind := kind
      deviceSet := deviceSet
      snapshotId := snapshot.id
      fixtureIdentityClass := fixtureIdentityClass
      transportClass := transportClass
      boundDistributedPlanHash := "" }
    some (.ok { plan with
      boundDistributedPlanHash := "sha256:" ++ hexLower (T.sha256 plan.canonicalBytes) })

/-! ## Two partitions on two devices -/

namespace TwoPartitions

/-- A ledger with the given class-3 and class-6 budgets and nothing else. -/
def ledger (activationScratchBytes transferStagingBytes : UInt64) : PartitionBudgetLedger :=
  ⟨0, 0, activationScratchBytes, 0, 0, transferStagingBytes, 0⟩

def device (n : Nat) : PhysicalDeviceId := ⟨.cuda ⟨s!"GPU-{n}", none⟩⟩

def partition (n : Nat) : LogicalPartitionId := ⟨s!"partition-{n}"⟩

def entry (n : Nat) (ordinal : UInt32) : DeviceDiscoveryEntry where
  ordinal := ⟨ordinal⟩
  identity := device n
  deviceModel := none
  capabilities := ⟨⟨12, 0⟩, 48, ⟨true, true, true, true, true, true⟩, 1024, 49152, 101376, 32, false⟩
  memory := ⟨none, 12343705600⟩
  health := .healthy
  healthGeneration := ⟨0⟩
  probeProvenance := ⟨"synthetic", "synthetic"⟩

/-- A binding to a device with an admitted virtual partition. -/
def binding (seed : UInt64) (device : PhysicalDeviceId) (declared : PartitionBudgetLedger) :
    Option PartitionBinding := do
  let admitted ← ( VirtualDevicePartition.admit ⟨⟨seed⟩, device, declared⟩
    ⟨UInt64.ofNat (2 ^ 64 - 1)⟩).toOption
  some ⟨device, some admitted⟩

/-- The plan `bind` answers for `partition-0` and `partition-1`, each with its
    virtual partition, device and budgets. -/
def plan (T : Toolchain) (seeds : UInt64 × UInt64) (devices : PhysicalDeviceId × PhysicalDeviceId)
    (ledgers : PartitionBudgetLedger × PartitionBudgetLedger) : Option BoundDistributedPlan := do
  let snapshot ← DeviceDiscoverySnapshot.new 0
    (Std.ExtTreeMap.ofList [(⟨0⟩, entry 0 0), (⟨1⟩, entry 1 1)] compare) .notAttempted
  let admitted ← ( AdmittedLogicalPlan.admit
    "sha256:aaaaaaaaaaaaaaaaaaaaaaaaaaaaaaaaaaaaaaaaaaaaaaaaaaaaaaaaaaaaaaaa"
    [partition 0, partition 1] []).toOption
  let first ← binding seeds.1 devices.1 ledgers.1
  let second ← binding seeds.2 devices.2 ledgers.2
  okValue (bind T admitted
    (Std.ExtTreeMap.ofList [(partition 0, first), (partition 1, second)] compare)
    (.fromMembers [devices.1, devices.2]) snapshot ⟨0⟩ .synthetic .hostStaged)

end TwoPartitions

end FaberHosts.Coordinator
