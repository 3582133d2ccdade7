import FaberHosts.Coordinator.BoundPlan

/-!
# The policy evaluator

`policy.rs`: four gates reject candidate plans, seven objectives rank the plans
that passed them, and the explained receipt records both.
-/

namespace FaberHosts.Policy
open FaberHosts.Lib FaberHosts.Coordinator

/-! ## Gates and objectives -/

inductive GateClass where
  | healthEpochMembership
  | compatibility
  | requiredMemory
  | topology
  deriving DecidableEq, Repr

def GateClass.tag : GateClass → UInt64
  | .healthEpochMembership => 0
  | .compatibility => 1
  | .requiredMemory => 2
  | .topology => 3

/-- `device` is `none` for plan-level violations. -/
structure GateViolation where
  gate : GateClass
  device : Option PhysicalDeviceId
  failingFact : String
  deriving DecidableEq, Repr

structure PlanRejection where
  plan : String
  violations : List GateViolation
  deriving DecidableEq, Repr

inductive Objective where
  | latency
  | throughput
  | capacityReserve
  | cacheAffinity
  | expertHotness
  | transferBudget
  | power
  deriving DecidableEq, Repr

inductive ObjectiveDirection where
  | minimize
  | maximize
  deriving DecidableEq, Repr

namespace Objective

def tag : Objective → UInt64
  | .latency => 0
  | .throughput => 1
  | .capacityReserve => 2
  | .cacheAffinity => 3
  | .expertHotness => 4
  | .transferBudget => 5
  | .power => 6

def direction : Objective → ObjectiveDirection
  | .latency | .transferBudget | .power => .minimize
  | .throughput | .capacityReserve | .cacheAffinity | .expertHotness => .maximize

end Objective

structure ObjectiveScore where
  objective : Objective
  value : UInt64
  deriving DecidableEq, Repr

structure RankedPlan where
  rank : Nat
  plan : String
  devices : List PhysicalDeviceId
  scores : List ObjectiveScore
  deriving DecidableEq, Repr

/-! ## Requests -/

structure DeclaredConstraints where
  currentGeneration : DeviceHealthGeneration
  topology : DeviceTopologySnapshot
  perDeviceBudget : BTreeMap PhysicalDeviceId SafePhysicalLimit
  totalBudget : Option SafePhysicalLimit
  deriving DecidableEq

structure RequiredCapabilities where
  minComputeCapability : Option ComputeCapability
  minSmCount : Option UInt32
  requiredDtypes : DtypeSurface
  threadsPerWorkgroup : Option UInt32
  workgroupSharedMemoryBytes : Option UInt32
  minCollectiveWidth : Option UInt32
  requireUnifiedMemory : Bool
  deriving DecidableEq, Repr

/-- `RequiredCapabilities::default`: nothing is required. -/
def RequiredCapabilities.default : RequiredCapabilities where
  minComputeCapability := none
  minSmCount := none
  requiredDtypes := .empty
  threadsPerWorkgroup := none
  workgroupSharedMemoryBytes := none
  minCollectiveWidth := none
  requireUnifiedMemory := false

structure ObjectiveFacts where
  latencyNanos : Option UInt64
  throughputTokensPerSec : Option UInt64
  cacheAffinityHitRateMilli : Option UInt64
  expertHotnessScore : Option UInt64
  transferBytes : Option UInt64
  estimatedPowerMilliwatts : Option UInt64
  deriving DecidableEq, Repr

structure DeviceAssignment where
  device : PhysicalDeviceId
  required : PartitionBudgetLedger
  requiredCapabilities : RequiredCapabilities
  deriving DecidableEq, Repr

/-- A directed transfer the plan requires. -/
structure Transfer where
  source : PhysicalDeviceId
  target : PhysicalDeviceId
  deriving DecidableEq, Repr

structure CandidatePlan where
  name : String
  assignments : List DeviceAssignment
  transfers : List Transfer
  declaredTotalBytes : UInt64
  facts : ObjectiveFacts
  deriving DecidableEq, Repr

structure PolicyRequest where
  discovery : DeviceDiscoverySnapshot
  selection : DeviceSetSelection
  constraints : DeclaredConstraints
  objectives : List Objective
  plans : List CandidatePlan
  deriving DecidableEq

/-! ## Gate 1: health-epoch membership -/

/-- The violation a selection that does not resolve turns into. -/
def selectionViolation : SelectionError → GateViolation
  | .membership (.unknownDevice id) =>
    { gate := .healthEpochMembership
      device := some id
      failingFact := s!"device {id} is not recorded in the snapshot (unknown or replaced)" }
  | .membership (.staleEpoch id recorded current) =>
    { gate := .healthEpochMembership
      device := some id
      failingFact := s!"device {id} recorded at generation {recorded}, current is {current}" }
  | .belowMinimum min actual =>
    { gate := .healthEpochMembership
      device := none
      failingFact := s!"selection resolved {actual} member(s), below declared minimum {min}" }
  | .aboveMaximum max actual =>
    { gate := .healthEpochMembership
      device := none
      failingFact := s!"selection resolved {actual} member(s), above declared maximum {max}" }

/-- Selection level: a stale snapshot or an unresolvable selection. -/
def gateHealthEpochSelection (request : PolicyRequest) : Except GateViolation DeviceSet :=
  let current := request.constraints.currentGeneration
  if request.discovery.isStale current then
    let staleEntries :=
      (request.discovery.entries.filter
        (fun entry => current.isStale entry.healthGeneration)).map
        (fun entry => s!"{entry.identity} recorded at generation {entry.healthGeneration}")
    .error
      { gate := .healthEpochMembership
        device := none
        failingFact :=
          s!"snapshot {request.discovery.id} carries stale health generation(s): " ++
            "; ".intercalate staleEntries }
  else (request.selection.resolve request.discovery current).mapError selectionViolation

/-- Per plan: every assigned device is a member of the resolved selection. -/
def gateMembership (plan : CandidatePlan) (set : DeviceSet) : List GateViolation :=
  plan.assignments.flatMap (fun assignment =>
    if set.contains assignment.device then []
    else
      [{ gate := .healthEpochMembership
         device := some assignment.device
         failingFact := s!"device {assignment.device} is not a current-epoch member of the " ++
           "resolved selection" }])

/-! ## Gate 2: compatibility -/

def compatViolation (device : Option PhysicalDeviceId) (failingFact : String) : GateViolation :=
  ⟨.compatibility, device, failingFact⟩

/-- Only a CUDA device with a populated compute capability is compared. -/
def evaluableComputeCapability (backend : DeviceBackend) (got : ComputeCapability) :
    Except String ComputeCapability :=
  if backend ≠ .cuda then
    .error s!"compute capability is unevaluable on {backend.spelling} (CUDA identity fact)"
  else if got.major = 0 ∧ got.minor = 0 then
    .error "compute capability is unevaluable (device reports 0.0)"
  else .ok got

/-- Only a CUDA device with a populated SM count is compared. -/
def evaluableSmCount (backend : DeviceBackend) (got : UInt32) : Except String UInt32 :=
  if backend ≠ .cuda then
    .error s!"sm count is unevaluable on {backend.spelling} (CUDA identity fact)"
  else if got = 0 then .error "sm count is unevaluable (device reports 0)"
  else .ok got

/-- `DTYPE_NAMES`. -/
def dtypeNames : List String := ["f32", "f64", "f16", "bf16", "i8", "i32"]

def dtypeSupported (surface : DtypeSurface) (name : String) : Bool :=
  match name with
  | "f32" => surface.f32
  | "f64" => surface.f64
  | "f16" => surface.f16
  | "bf16" => surface.bf16
  | "i8" => surface.i8
  | "i32" => surface.i32
  | _ => false

/-- A declared demand against an evaluable fact: the texts the gate pushes when the
    fact cannot be evaluated, or is evaluated and does not satisfy the demand. -/
def demandFacts {D V : Type} (demand : Option D) (evaluated : Except String V)
    (fails : D → V → Bool) (text : D → V → String) : List String :=
  match demand with
  | none => []
  | some demanded =>
    match evaluated with
    | .error fact => [fact]
    | .ok got => if fails demanded got then [text demanded got] else []

/-- `gate_generic_launch_resources`, the failing facts in order. -/
def genericLaunchFacts (device : PhysicalDeviceId) (caps : DeviceCapabilities)
    (required : RequiredCapabilities) : List String :=
  demandFacts required.threadsPerWorkgroup
      (evaluableLaunchLimit caps.maxThreadsPerWorkgroup "max_threads_per_workgroup")
      (fun demand limit => limit < demand)
      (fun demand limit => s!"threads per workgroup {demand} exceeds device " ++
        s!"max_threads_per_workgroup {limit}") ++
    demandFacts required.workgroupSharedMemoryBytes
      (evaluableLaunchLimit caps.workgroupSharedMemoryMaxBytes
        "workgroup_shared_memory_max_bytes")
      (fun demand limit => limit < demand)
      (fun demand limit => s!"workgroup shared memory {demand} bytes exceeds device max " ++
        s!"{limit} bytes") ++
    demandFacts required.minCollectiveWidth
      (evaluableLaunchLimit caps.collectiveWidth "collective_width")
      (fun width got => got < width)
      (fun width got => s!"collective width {got} is below required {width}") ++
    (if required.requireUnifiedMemory && !caps.unifiedMemory then
      [s!"device {device} does not provide required unified memory"]
    else [])

/-- The failing facts of one assignment on a recorded device, in order. -/
def compatibilityFacts (assignment : DeviceAssignment) (entry : DeviceDiscoveryEntry) :
    List String :=
  let caps := entry.capabilities
  let required := assignment.requiredCapabilities
  let device := assignment.device
  demandFacts required.minComputeCapability
      (evaluableComputeCapability entry.backend caps.computeCapability)
      (fun cc got => got.major < cc.major || got.major = cc.major && got.minor < cc.minor)
      (fun cc got => s!"compute capability {got.major}.{got.minor} is below required " ++
        s!"{cc.major}.{cc.minor}") ++
    (dtypeNames.filter (fun name => dtypeSupported required.requiredDtypes name &&
      !dtypeSupported caps.dtypeSurface name)).map
      (fun name => s!"device {device} lacks required dtype {name}") ++
    demandFacts required.minSmCount (evaluableSmCount entry.backend caps.smCount)
      (fun sms got => got < sms)
      (fun sms got => s!"sm count {got} is below required {sms}") ++
    genericLaunchFacts device caps required

/-- The violations of one assignment. -/
def assignmentCompatibility (discovery : DeviceDiscoverySnapshot)
    (assignment : DeviceAssignment) : List GateViolation :=
  match discovery.findEntry assignment.device with
  | none =>
    [compatViolation (some assignment.device)
      s!"no capability facts recorded for {assignment.device} in the snapshot"]
  | some entry => (compatibilityFacts assignment entry).map (compatViolation assignment.device)

def gateCompatibility (plan : CandidatePlan) (discovery : DeviceDiscoverySnapshot) :
    List GateViolation :=
  plan.assignments.flatMap (assignmentCompatibility discovery)

/-! ## Gate 3: required memory -/

/-- The violation of one assignment against its device's declared budget. -/
def assignmentMemory (constraints : DeclaredConstraints) (assignment : DeviceAssignment) :
    List GateViolation :=
  match constraints.perDeviceBudget[assignment.device]? with
  | none =>
    [{ gate := .requiredMemory
       device := some assignment.device
       failingFact :=
         s!"no declared admitted budget for device {assignment.device} (fail-closed)" }]
  | some limit =>
    match assignment.required.totalBytes with
    | some total =>
      if total ≤ limit.policyLimitBytes then []
      else
        [{ gate := .requiredMemory
           device := some assignment.device
           failingFact := s!"budget_exceeded: declared {total} bytes exceeds policy limit " ++
             s!"{limit.policyLimitBytes} bytes (SafePhysicalLimit)" }]
    | none =>
      [{ gate := .requiredMemory
         device := some assignment.device
         failingFact := s!"budget_exceeded: declared ledger overflow; policy limit " ++
           s!"{limit.policyLimitBytes} bytes" }]

/-- The violation of the declared total. -/
def totalMemory (constraints : DeclaredConstraints) (plan : CandidatePlan) : List GateViolation :=
  match constraints.totalBudget with
  | none => []
  | some totalBudget =>
    if totalBudget.policyLimitBytes < plan.declaredTotalBytes then
      [{ gate := .requiredMemory
         device := none
         failingFact := s!"declared total {plan.declaredTotalBytes} bytes exceeds declared " ++
           s!"total budget {totalBudget.policyLimitBytes} bytes" }]
    else []

def gateMemory (plan : CandidatePlan) (constraints : DeclaredConstraints) : List GateViolation :=
  plan.assignments.flatMap (assignmentMemory constraints) ++ totalMemory constraints plan

/-! ## Gate 4: topology -/

/-- The text of a traversal the topology refuses. -/
def linkFailingFact (transfer : Transfer) : LinkGateError → String
  | .unknownEndpoint endpoint =>
    s!"transfer {transfer.source} → {transfer.target}: endpoint {endpoint} is not a device " ++
      "in the topology"
  | .noLinkRecorded source target =>
    s!"transfer {source} → {target}: no directed link recorded; unmeasured pairs are never " ++
      "assumed"
  | .notAttempted source target =>
    s!"transfer {source} → {target}: directed link is NOT ATTEMPTED"
  | .rejected source target reason =>
    s!"transfer {source} → {target}: directed link rejected ({reason})"

def transferTopology (topology : DeviceTopologySnapshot) (transfer : Transfer) :
    List GateViolation :=
  match topology.traversalAllowed transfer.source transfer.target with
  | .ok () => []
  | .error err => [⟨.topology, none, linkFailingFact transfer err⟩]

def gateTopology (plan : CandidatePlan) (topology : DeviceTopologySnapshot) :
    List GateViolation :=
  plan.transfers.flatMap (transferTopology topology)

/-! ## Ranking -/

def maxU64 : UInt64 := UInt64.ofNat (2 ^ 64 - 1)

/-- Headroom of one assignment; nothing without a budget or with an overflowing ledger. -/
def assignmentReserve (constraints : DeclaredConstraints) (reserve : UInt64)
    (assignment : DeviceAssignment) : UInt64 :=
  match constraints.perDeviceBudget[assignment.device]? with
  | none => reserve
  | some limit =>
    match assignment.required.totalBytes with
    | none => reserve
    | some required =>
      saturatingAdd reserve (saturatingSub limit.policyLimitBytes required)

def capacityReserveBytes (plan : CandidatePlan) (constraints : DeclaredConstraints) : UInt64 :=
  plan.assignments.foldl (assignmentReserve constraints) 0

/-- Missing facts are least-favored. -/
def objectiveValue (plan : CandidatePlan) (constraints : DeclaredConstraints) :
    Objective → UInt64
  | .latency => plan.facts.latencyNanos.getD maxU64
  | .throughput => plan.facts.throughputTokensPerSec.getD 0
  | .capacityReserve => capacityReserveBytes plan constraints
  | .cacheAffinity => plan.facts.cacheAffinityHitRateMilli.getD 0
  | .expertHotness => plan.facts.expertHotnessScore.getD 0
  | .transferBudget => plan.facts.transferBytes.getD maxU64
  | .power => plan.facts.estimatedPowerMilliwatts.getD maxU64

/-- A gate-passing plan with its objective values and its devices. -/
structure ScoredPlan where
  plan : CandidatePlan
  values : List UInt64
  devices : BTreeSet PhysicalDeviceId

def scorePlan (objectives : List Objective) (constraints : DeclaredConstraints)
    (plan : CandidatePlan) : ScoredPlan where
  plan := plan
  values := objectives.map (objectiveValue plan constraints)
  devices := setOf (plan.assignments.map (·.device))

/-- Values in declared objective order, each in its objective's direction. -/
def compareValues : List Objective → List UInt64 → List UInt64 → Ordering
  | objective :: objectives, a :: aValues, b :: bValues =>
    (match objective.direction with
    | .minimize => compare a b
    | .maximize => compare b a).then (compareValues objectives aValues bValues)
  | _, _, _ => .eq

/-- The comparator of the sort: the values, then the stable identity order. -/
def compareScored (objectives : List Objective) (a b : ScoredPlan) : Ordering :=
  (compareValues objectives a.values b.values).then (compare a.devices.toList b.devices.toList)

/-- The passers in ranked order (`sort_by` is stable). -/
def sortScored (passers : List CandidatePlan) (objectives : List Objective)
    (constraints : DeclaredConstraints) : List ScoredPlan :=
  (passers.map (scorePlan objectives constraints)).mergeSort
    (fun a b => (compareScored objectives a b).isLE)

/-- The output row of the plan at position `rank`. -/
def rankRow (objectives : List Objective) (scored : ScoredPlan) (rank : Nat) : RankedPlan where
  rank := rank + 1
  plan := scored.plan.name
  devices := scored.devices.toList
  scores := (objectives.zip scored.values).map (fun s => ⟨s.1, s.2⟩)

def rankPlans (passers : List CandidatePlan) (objectives : List Objective)
    (constraints : DeclaredConstraints) : List RankedPlan :=
  if passers.isEmpty then []
  else
    (sortScored passers objectives constraints).zipIdx.map
      (fun row => rankRow objectives row.1 row.2)

/-! ## Receipt -/

structure ExplainedReceipt where
  snapshotIdHex : String
  currentGeneration : DeviceHealthGeneration
  perDeviceBudget : List (PhysicalDeviceId × SafePhysicalLimit)
  totalBudget : Option SafePhysicalLimit
  objectives : List Objective
  rejected : List PlanRejection
  ranked : List RankedPlan
  determinismFingerprint : String
  deriving DecidableEq, Repr

/-- Every field except the fingerprint. -/
def ExplainedReceipt.canonicalBytes (receipt : ExplainedReceipt) : List UInt8 :=
  pushStr receipt.snapshotIdHex ++ pushU64 receipt.currentGeneration.epoch ++
    pushLen receipt.perDeviceBudget.length ++
    receipt.perDeviceBudget.flatMap (fun budget =>
      budget.1.canonicalBytes ++ pushU64 budget.2.policyLimitBytes) ++
    pushBool receipt.totalBudget.isSome ++
    receipt.totalBudget.elim [] (fun total => pushU64 total.policyLimitBytes) ++
    pushLen receipt.objectives.length ++
    receipt.objectives.flatMap (fun objective => pushU64 objective.tag) ++
    pushLen receipt.rejected.length ++
    receipt.rejected.flatMap (fun rejection =>
      pushStr rejection.plan ++ pushLen rejection.violations.length ++
        rejection.violations.flatMap (fun violation =>
          pushU64 violation.gate.tag ++ pushBool violation.device.isSome ++
            violation.device.elim [] PhysicalDeviceId.canonicalBytes ++
            pushStr violation.failingFact)) ++
    pushLen receipt.ranked.length ++
    receipt.ranked.flatMap (fun ranked =>
      pushLen ranked.rank ++ pushStr ranked.plan ++ pushLen ranked.devices.length ++
        ranked.devices.flatMap PhysicalDeviceId.canonicalBytes ++
        pushLen ranked.scores.length ++
        ranked.scores.flatMap (fun score =>
          pushU64 score.objective.tag ++ pushU64 score.value))

def fnv1a64 (bytes : List UInt8) : UInt64 :=
  bytes.foldl (fun hash byte => (hash ^^^ byte.toUInt64) * 0x00000100000001b3)
    0xcbf29ce484222325

/-- Lowercase 16-digit hex of a 64-bit value. -/
def hex64 (value : UInt64) : String := hexLower (leBytes 8 value.toNat).reverse

/-! ## Evaluation -/

structure PolicyOutcome where
  rejected : List PlanRejection
  ranked : List RankedPlan
  receipt : ExplainedReceipt
  deriving DecidableEq, Repr

/-- The violations of the four gates against one plan, in gate order. -/
def planViolations (request : PolicyRequest) (set : DeviceSet) (plan : CandidatePlan) :
    List GateViolation :=
  gateMembership plan set ++ gateCompatibility plan request.discovery ++
    gateMemory plan request.constraints ++ gateTopology plan request.constraints.topology

/-- One turn of the gate loop: the plan joins the passers or is rejected. -/
def gateStep (request : PolicyRequest) (set : DeviceSet)
    (result : List CandidatePlan × List PlanRejection) (plan : CandidatePlan) :
    List CandidatePlan × List PlanRejection :=
  let violations := planViolations request set plan
  if violations.isEmpty then (result.1 ++ [plan], result.2)
  else (result.1, result.2 ++ [⟨plan.name, violations⟩])

/-- The gate pass: the plans that passed, and the rejections, both in input order. -/
def gatePass (request : PolicyRequest) : List CandidatePlan × List PlanRejection :=
  match gateHealthEpochSelection request with
  | .ok set => request.plans.foldl (gateStep request set) ([], [])
  | .error violation => ([], request.plans.map (fun plan => ⟨plan.name, [violation]⟩))

/-- Panics when the topology was not measured from the discovery snapshot. -/
def evaluate (request : PolicyRequest) : MayPanic PolicyOutcome :=
  if request.constraints.topology.discovery ≠ request.discovery then none
  else
    let (passers, rejected) := gatePass request
    let ranked := rankPlans passers request.objectives request.constraints
    let receipt : ExplainedReceipt :=
      { snapshotIdHex := request.discovery.id.hex
        currentGeneration := request.constraints.currentGeneration
        perDeviceBudget := request.constraints.perDeviceBudget.toList
        totalBudget := request.constraints.totalBudget
        objectives := request.objectives
        rejected := rejected
        ranked := ranked
        determinismFingerprint := "" }
    some
      { rejected := rejected
        ranked := ranked
        receipt :=
          { receipt with determinismFingerprint := hex64 (fnv1a64 receipt.canonicalBytes) } }

end FaberHosts.Policy
