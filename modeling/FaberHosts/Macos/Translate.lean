import FaberHosts.Lib.Blocks
import FaberHosts.Coordinator.BoundPlan

/-!
# Binding a translated plan

`distributed_translate.rs`: the logical partitions of a distributed image are bound to the
devices of a discovery snapshot, all to one, each to its own, or in equal blocks.
-/

namespace FaberHosts.Macos
open FaberHosts.Lib FaberHosts.Coordinator

inductive TranslateError where
  | unsupported (detail : String)
  deriving DecidableEq, Repr

/-- How virtual partitions bind onto a discovery snapshot. -/
inductive BindPolicy where
  | colocateOnSnapshot
  | onePhysicalPerPartition
  | splitAcrossMembership (bindCount : UInt32)
  deriving DecidableEq, Repr

def bindPolicyForDeclaredCount (partitionCount : Nat) (bindCount : UInt32) :
    Except TranslateError BindPolicy :=
  if bindCount = 0 then
    .error (.unsupported "declared bind count 0 is not a legal bind")
  else if bindCount = 1 then
    .ok .colocateOnSnapshot
  else
    let count := bindCount.toNat
    if count = partitionCount then
      .ok .onePhysicalPerPartition
    else if count < partitionCount ∧ partitionCount % count = 0 then
      .ok (.splitAcrossMembership bindCount)
    else
      .error (.unsupported (s!"declared bind count {bindCount} for {partitionCount} partitions " ++
        s!"is not 1 (colocate), {partitionCount} (one physical per partition), or a divisor " ++
        "(split); richer bind negotiation waits for MD5"))

/-- What a bind reads of a translated plan. -/
structure TranslatedDistributedPlan where
  logicalDistributedPlanHash : String
  partitions : List LogicalPartitionId
  partitionBudgetBytes : BTreeMap LogicalPartitionId UInt64
  deriving DecidableEq

def defaultPartitionBudgetBytes : UInt64 := 160 * 1024 * 1024

/-- Nine tenths of the driver's memory total. -/
def oq2DefaultHeadroomPolicyBytes (apiTotalBytes : UInt64) : UInt64 :=
  apiTotalBytes / 10 * 9 + apiTotalBytes % 10 * 9 / 10

def snapshotPhysicalIds (snapshot : DeviceDiscoverySnapshot) : List PhysicalDeviceId :=
  snapshot.entries.map (·.identity)

def partitionBudget (plan : TranslatedDistributedPlan) (partition : LogicalPartitionId) : UInt64 :=
  (plan.partitionBudgetBytes[partition]?).getD defaultPartitionBudgetBytes

def safeLimitBytesFor (snapshot : DeviceDiscoverySnapshot) (device : PhysicalDeviceId) :
    Except BindError UInt64 :=
  match snapshot.findEntry device with
  | some entry => .ok (oq2DefaultHeadroomPolicyBytes entry.memory.apiTotalBytes)
  | none => .error (.topologyMismatch (s!"bound device {device} has no snapshot memory facts; " ++
      "the OQ-2 safe limit cannot be derived"))

def partitionLedger (budgetBytes : UInt64) : PartitionBudgetLedger :=
  ⟨0, 0, budgetBytes / 4, 0, 0, budgetBytes / 4, 0⟩

def admitVirtual (seed : UInt64) (device : PhysicalDeviceId) (budgetBytes safeLimitBytes : UInt64) :
    Except BindError VirtualDevicePartition :=
  match VirtualDevicePartition.admit ⟨⟨seed⟩, device, partitionLedger budgetBytes⟩
      ⟨safeLimitBytes⟩ with
  | .ok partition => .ok partition
  | .error (.budgetExceeded declaredTotalBytes policyLimitBytes) =>
    .error (.budgetExceeded ⟨s!"vp:{seed}"⟩ declaredTotalBytes policyLimitBytes)

/-- The loop of the three binds: admit each partition in plan order on the device of its
    index. -/
def bindEach (plan : TranslatedDistributedPlan) (snapshot : DeviceDiscoverySnapshot)
    (deviceAt : Nat → PhysicalDeviceId) :
    Nat → List LogicalPartitionId → Bindings → Except BindError Bindings
  | _, [], bindings => .ok bindings
  | index, partition :: rest, bindings => do
    let device := deviceAt index
    let safeLimit ← safeLimitBytesFor snapshot device
    let vp ← admitVirtual (UInt64.ofNat (index + 1)) device (partitionBudget plan partition)
      safeLimit
    bindEach plan snapshot deviceAt (index + 1) rest
      (bindings.insert partition ⟨device, some vp⟩)

/-- `{error:?}` of an admission error. -/
def debugAdmitError (T : Toolchain) : AdmitError → String
  | .unadmittedLogicalHash given =>
    "UnadmittedLogicalHash \x7b given: " ++ T.debugStr given ++ " \x7d"
  | .noDeclaredPartitions => "NoDeclaredPartitions"
  | .constraintReferencesUnknownPartition partition =>
    "ConstraintReferencesUnknownPartition \x7b partition: LogicalPartitionId(" ++
      T.debugStr partition.id ++ ") \x7d"

def finishBind (T : Toolchain) (plan : TranslatedDistributedPlan) (bindings : Bindings)
    (deviceSet : DeviceSet) (snapshot : DeviceDiscoverySnapshot)
    (constraints : List DeclaredPlacementConstraint) :
    MayPanic (Except BindError BoundDistributedPlan) :=
  match AdmittedLogicalPlan.admit plan.logicalDistributedPlanHash plan.partitions constraints with
  | .error e => some (.error (.topologyMismatch
      ("translated plan failed logical admission: " ++ debugAdmitError T e)))
  | .ok admitted => bind T admitted bindings deviceSet snapshot ⟨0⟩ .virtual .hostStaged

def noPhysicalDevices : BindError := .topologyMismatch "discovery snapshot has no physical devices"

def bindColocate (T : Toolchain) (plan : TranslatedDistributedPlan)
    (snapshot : DeviceDiscoverySnapshot) (constraints : List DeclaredPlacementConstraint) :
    MayPanic (Except BindError BoundDistributedPlan) :=
  match snapshotPhysicalIds snapshot with
  | [] => some (.error noPhysicalDevices)
  | device :: _ =>
    match bindEach plan snapshot (fun _ => device) 0 plan.partitions ∅ with
    | .error e => some (.error e)
    | .ok bindings => finishBind T plan bindings (.fromMembers [device]) snapshot constraints

/-- The identity for a rank the snapshot has no device for. -/
def promotedDevice (index : Nat) : PhysicalDeviceId := ⟨.cuda ⟨s!"GPU-promoted-{index}", none⟩⟩

def bindOnePhysicalPerPartition (T : Toolchain) (plan : TranslatedDistributedPlan)
    (snapshot : DeviceDiscoverySnapshot) (constraints : List DeclaredPlacementConstraint) :
    MayPanic (Except BindError BoundDistributedPlan) :=
  let devices := snapshotPhysicalIds snapshot
  if devices = [] then
    some (.error noPhysicalDevices)
  else
    match bindEach plan snapshot (fun index => devices.getD index (promotedDevice index)) 0
        plan.partitions ∅ with
    | .error e => some (.error e)
    | .ok bindings => finishBind T plan bindings (.fromMembers devices) snapshot constraints

def bindSplitAcrossMembership (T : Toolchain) (plan : TranslatedDistributedPlan)
    (snapshot : DeviceDiscoverySnapshot) (bindCount : UInt32)
    (constraints : List DeclaredPlacementConstraint) :
    MayPanic (Except BindError BoundDistributedPlan) :=
  let members := bindCount.toNat
  let partitionCount := plan.partitions.length
  let devices := snapshotPhysicalIds snapshot
  if members = 0 ∨ partitionCount ≤ members ∨ partitionCount % members ≠ 0 then
    some (.error (.topologyMismatch
      (s!"split bind count {bindCount} is not a legal split of {partitionCount} partitions " ++
        s!"(1 < m < {partitionCount}, {partitionCount} % m == 0)")))
  else if devices.length ≠ members then
    some (.error (.topologyMismatch
      (s!"split bind count {bindCount} requires exactly {bindCount} physical device(s); " ++
        s!"snapshot has {devices.length}")))
  else
    let chunk := partitionCount / members
    match bindEach plan snapshot (fun index => devices.getD (index / chunk) (promotedDevice index))
        0 plan.partitions ∅ with
    | .error e => some (.error e)
    | .ok bindings => finishBind T plan bindings (.fromMembers devices) snapshot constraints

def bindTranslatedWithConstraints (T : Toolchain) (plan : TranslatedDistributedPlan)
    (snapshot : DeviceDiscoverySnapshot) (policy : BindPolicy)
    (constraints : List DeclaredPlacementConstraint) :
    MayPanic (Except BindError BoundDistributedPlan) :=
  match policy with
  | .colocateOnSnapshot => bindColocate T plan snapshot constraints
  | .onePhysicalPerPartition => bindOnePhysicalPerPartition T plan snapshot constraints
  | .splitAcrossMembership bindCount =>
    bindSplitAcrossMembership T plan snapshot bindCount constraints

def bindTranslated (T : Toolchain) (plan : TranslatedDistributedPlan)
    (snapshot : DeviceDiscoverySnapshot) (policy : BindPolicy) :
    MayPanic (Except BindError BoundDistributedPlan) :=
  bindTranslatedWithConstraints T plan snapshot policy []

end FaberHosts.Macos
