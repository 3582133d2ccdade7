import FaberHosts.Policy.Ranking

/-!
# Ordinals and policy decisions

A snapshot is keyed by ordinal and every gate finds a device by scanning it in
ordinal order.  When two ordinals record one identity with different capability
facts, the scan finds whichever comes first.
-/

namespace FaberHosts.Policy
open FaberHosts.Lib FaberHosts.Coordinator

/-! ## Renaming ordinals -/

def renameEntry (rename : DeviceOrdinal → DeviceOrdinal) (entry : DeviceDiscoveryEntry) :
    DeviceDiscoveryEntry :=
  { entry with ordinal := rename entry.ordinal }

/-- The entries of a snapshot under their new ordinals. -/
def renamedEntries (rename : DeviceOrdinal → DeviceOrdinal)
    (snapshot : DeviceDiscoverySnapshot) : List (DeviceOrdinal × DeviceDiscoveryEntry) :=
  snapshot.devices.toList.map (fun keyed => (rename keyed.1, renameEntry rename keyed.2))

/-- The snapshot rebuilt under renamed ordinals. -/
def renameOrdinals (rename : DeviceOrdinal → DeviceOrdinal)
    (snapshot : DeviceDiscoverySnapshot) : MayPanic DeviceDiscoverySnapshot :=
  DeviceDiscoverySnapshot.new snapshot.probeUtcNanos
    ((renamedEntries rename snapshot).foldl (fun m entry => m.insert entry.1 entry.2) ∅)
    snapshot.p2p

/-- No two ordinals of the snapshot are renamed to the same one. -/
def InjectiveOn (rename : DeviceOrdinal → DeviceOrdinal)
    (snapshot : DeviceDiscoverySnapshot) : Prop :=
  ∀ a ∈ snapshot.devices, ∀ b ∈ snapshot.devices, rename a = rename b → a = b

/-! ## Requests over a snapshot -/

/-- A policy request without the snapshot it is asked over. -/
structure PolicyQuestion where
  selection : DeviceSetSelection
  currentGeneration : DeviceHealthGeneration
  links : List DeviceLink
  perDeviceBudget : BTreeMap PhysicalDeviceId SafePhysicalLimit
  totalBudget : Option SafePhysicalLimit
  objectives : List Objective
  plans : List CandidatePlan

/-- The request of a question over a snapshot and a topology measured from it. -/
def requestWith (snapshot : DeviceDiscoverySnapshot) (topology : DeviceTopologySnapshot)
    (question : PolicyQuestion) : PolicyRequest where
  discovery := snapshot
  selection := question.selection
  constraints :=
    { currentGeneration := question.currentGeneration
      topology := topology
      perDeviceBudget := question.perDeviceBudget
      totalBudget := question.totalBudget }
  objectives := question.objectives
  plans := question.plans

/-- Build the topology over the snapshot, then evaluate. -/
def evaluateOver (snapshot : DeviceDiscoverySnapshot) (question : PolicyQuestion) :
    MayPanic PolicyOutcome :=
  (DeviceTopologySnapshot.new snapshot question.links).bind
    (fun topology => evaluate (requestWith snapshot topology question))

/-- The gate and the device of each violation. -/
def violationPairs (violations : List GateViolation) : List (GateClass × Option PhysicalDeviceId) :=
  violations.map (fun violation => (violation.gate, violation.device))

/-- What an outcome decides: the ranked rows, and each rejected plan with the gates
    and devices it failed on. -/
def decisions (outcome : PolicyOutcome) :
    List RankedPlan × List (String × List (GateClass × Option PhysicalDeviceId)) :=
  (outcome.ranked, outcome.rejected.map (fun r => (r.plan, violationPairs r.violations)))

/-- Renaming its ordinals changes no decision over the snapshot. -/
def OrdinalFree (snapshot : DeviceDiscoverySnapshot) : Prop :=
  ∀ rename, InjectiveOn rename snapshot → ∀ renamed, renameOrdinals rename snapshot = some renamed →
    ∀ question, (evaluateOver renamed question).map decisions =
      (evaluateOver snapshot question).map decisions

/-! ## The facts the compatibility gate reads -/

/-- The facts of an entry the gate reads: the CUDA identity facts on CUDA only. -/
def gateFacts (entry : DeviceDiscoveryEntry) :
    Option (ComputeCapability × UInt32) × DtypeSurface × UInt32 × UInt32 × UInt32 × Bool :=
  let caps := entry.capabilities
  (if entry.backend = .cuda then some (caps.computeCapability, caps.smCount) else none,
    caps.dtypeSurface, caps.maxThreadsPerWorkgroup, caps.workgroupSharedMemoryMaxBytes,
    caps.collectiveWidth, caps.unifiedMemory)

/-- Entries of one identity agree on what the gate reads. -/
def IdentityFactsAgree (snapshot : DeviceDiscoverySnapshot) : Prop :=
  ∀ a ∈ snapshot.entries, ∀ b ∈ snapshot.entries, a.identity = b.identity →
    gateFacts a = gateFacts b

/-- Two entries carry different health generations, so some entry is stale under any
    current one. -/
def MixedGenerations (snapshot : DeviceDiscoverySnapshot) : Prop :=
  ∃ a ∈ snapshot.entries, ∃ b ∈ snapshot.entries, a.healthGeneration ≠ b.healthGeneration

theorem compatibilityFacts_congr {a b : DeviceDiscoveryEntry} (hidentity : a.identity = b.identity)
    (hfacts : gateFacts a = gateFacts b) (assignment : DeviceAssignment) :
    compatibilityFacts assignment a = compatibilityFacts assignment b := by
  have hbackend : a.backend = b.backend := congrArg PhysicalDeviceId.backend hidentity
  simp only [gateFacts, Prod.mk.injEq] at hfacts
  obtain ⟨hcuda, hdtypes, hthreads, hshared, hwidth, hunified⟩ := hfacts
  have hcompute : evaluableComputeCapability a.backend a.capabilities.computeCapability =
      evaluableComputeCapability b.backend b.capabilities.computeCapability := by
    by_cases hb : b.backend = .cuda
    · simp only [hbackend, hb, if_true, Option.some.injEq, Prod.mk.injEq] at hcuda
      rw [hbackend, hcuda.1]
    · simp only [evaluableComputeCapability, hbackend, ne_eq, hb, not_false_eq_true, if_true]
  have hsm : evaluableSmCount a.backend a.capabilities.smCount =
      evaluableSmCount b.backend b.capabilities.smCount := by
    by_cases hb : b.backend = .cuda
    · simp only [hbackend, hb, if_true, Option.some.injEq, Prod.mk.injEq] at hcuda
      rw [hbackend, hcuda.2]
    · simp only [evaluableSmCount, hbackend, ne_eq, hb, not_false_eq_true, if_true]
  simp only [compatibilityFacts, genericLaunchFacts, hcompute, hsm, hdtypes, hthreads, hshared,
    hwidth, hunified]

/-! ## A renamed snapshot -/

section Renamed

variable {snapshot renamed : DeviceDiscoverySnapshot} {rename : DeviceOrdinal → DeviceOrdinal}

theorem mem_entries_iff {entry : DeviceDiscoveryEntry} :
    entry ∈ snapshot.entries ↔ (entry.ordinal, entry) ∈ snapshot.devices.toList := by
  constructor
  · intro h
    obtain ⟨keyed, hkeyed, rfl⟩ := List.mem_map.mp h
    rwa [← snapshot.ordinals_match keyed hkeyed]
  · exact fun h => List.mem_map.mpr ⟨_, h, rfl⟩

theorem mem_devices_of_toList {keyed : DeviceOrdinal × DeviceDiscoveryEntry}
    (h : keyed ∈ snapshot.devices.toList) : keyed.1 ∈ snapshot.devices := by
  rw [mem_iff_getElem?]
  exact ⟨keyed.2, Std.ExtTreeMap.mem_toList_iff_getElem?_eq_some.mp h⟩

theorem nodup_renamedEntries (hrename : InjectiveOn rename snapshot) :
    ((renamedEntries rename snapshot).map Prod.fst).Nodup := by
  have hkeys := nodup_keys_toList snapshot.devices
  rw [renamedEntries, List.map_map]
  rw [List.Nodup, List.pairwise_map] at hkeys ⊢
  refine hkeys.imp_of_mem (fun ha hb hne heq => hne ?_)
  exact hrename _ (mem_devices_of_toList ha) _ (mem_devices_of_toList hb) heq

theorem mem_entries_renamed (hrename : InjectiveOn rename snapshot)
    (h : renameOrdinals rename snapshot = some renamed) {entry : DeviceDiscoveryEntry} :
    entry ∈ renamed.entries ↔ ∃ e ∈ snapshot.entries, renameEntry rename e = entry := by
  unfold renameOrdinals DeviceDiscoverySnapshot.new at h
  split at h
  · cases h
    rw [mem_entries_iff, mem_toList_foldl_insert (nodup_renamedEntries hrename),
      renamedEntries, List.mem_map]
    constructor
    · rintro ⟨keyed, hkeyed, heq⟩
      exact ⟨keyed.2, List.mem_map_of_mem hkeyed, congrArg Prod.snd heq⟩
    · rintro ⟨e, he, rfl⟩
      exact ⟨_, mem_entries_iff.mp he, rfl⟩
  · cases h

theorem renameOrdinals_returns (hrename : InjectiveOn rename snapshot) :
    ∃ renamed, renameOrdinals rename snapshot = some renamed := by
  unfold renameOrdinals DeviceDiscoverySnapshot.new
  rw [dif_pos]
  · exact ⟨_, rfl⟩
  · intro keyed hkeyed
    rw [mem_toList_foldl_insert (nodup_renamedEntries hrename)] at hkeyed
    obtain ⟨original, horiginal, rfl⟩ := List.mem_map.mp hkeyed
    exact congrArg rename (snapshot.ordinals_match original horiginal)

/-- A lookup finds the entry of least ordinal among those of the identity. -/
theorem findEntry_eq_some_iff {id : PhysicalDeviceId} {entry : DeviceDiscoveryEntry} :
    snapshot.findEntry id = some entry ↔
      entry ∈ snapshot.entries ∧ entry.identity = id ∧
        ∀ other ∈ snapshot.entries, other.identity = id →
          entry = other ∨ compare entry.ordinal other.ordinal = .lt := by
  have hordered : snapshot.entries.Pairwise
      (fun a b => compare a.ordinal b.ordinal = .lt) := by
    rw [DeviceDiscoverySnapshot.entries, List.pairwise_map]
    refine Std.ExtTreeMap.ordered_keys_toList.imp_of_mem (fun {a b} ha hb hlt => ?_)
    rwa [← snapshot.ordinals_match a ha, ← snapshot.ordinals_match b hb]
  constructor
  · intro h
    obtain ⟨hmem, hid⟩ := DeviceDiscoverySnapshot.findEntry_some h
    refine ⟨hmem, hid, ?_⟩
    intro other hother hotherId
    obtain ⟨-, before, after, hsplit, hbefore⟩ := List.find?_eq_some_iff_append.mp h
    rw [hsplit, List.pairwise_append] at hordered
    rw [hsplit, List.mem_append, List.mem_cons] at hother
    rcases hother with hother | rfl | hother
    · exact absurd hotherId (by simpa using hbefore other hother)
    · exact .inl rfl
    · exact .inr (List.rel_of_pairwise_cons hordered.2.1 hother)
  · rintro ⟨hmem, hid, hleast⟩
    cases hfound : snapshot.findEntry id with
    | none => exact absurd hid (DeviceDiscoverySnapshot.findEntry_eq_none_iff.mp hfound entry hmem)
    | some found =>
      obtain ⟨hfoundMem, hfoundId⟩ := DeviceDiscoverySnapshot.findEntry_some hfound
      obtain ⟨-, before, after, hsplit, hbefore⟩ := List.find?_eq_some_iff_append.mp hfound
      rw [hsplit, List.pairwise_append] at hordered
      rw [hsplit, List.mem_append, List.mem_cons] at hmem
      rcases hmem with hmem | rfl | hmem
      · exact absurd hid (by simpa using hbefore entry hmem)
      · rfl
      · have hlt := List.rel_of_pairwise_cons hordered.2.1 hmem
        rcases hleast found hfoundMem hfoundId with rfl | hgt
        · rfl
        · rw [Std.OrientedCmp.gt_of_lt hlt] at hgt
          cases hgt

theorem findEntry_isNone_renamed (hrename : InjectiveOn rename snapshot)
    (h : renameOrdinals rename snapshot = some renamed) (id : PhysicalDeviceId) :
    (renamed.findEntry id).isNone = (snapshot.findEntry id).isNone := by
  rw [Bool.eq_iff_iff, Option.isNone_iff_eq_none, Option.isNone_iff_eq_none,
    DeviceDiscoverySnapshot.findEntry_eq_none_iff, DeviceDiscoverySnapshot.findEntry_eq_none_iff]
  constructor
  · intro hall e he
    exact hall (renameEntry rename e) ((mem_entries_renamed hrename h).mpr ⟨e, he, rfl⟩)
  · rintro hall entry hentry
    obtain ⟨e, he, rfl⟩ := (mem_entries_renamed hrename h).mp hentry
    exact hall e he

theorem findEntry_isSome_renamed (hrename : InjectiveOn rename snapshot)
    (h : renameOrdinals rename snapshot = some renamed) (id : PhysicalDeviceId) :
    (renamed.findEntry id).isSome = (snapshot.findEntry id).isSome := by
  rw [← Option.not_isNone, ← Option.not_isNone, findEntry_isNone_renamed hrename h]

theorem isStale_renamed (hrename : InjectiveOn rename snapshot)
    (h : renameOrdinals rename snapshot = some renamed) (current : DeviceHealthGeneration) :
    renamed.isStale current = snapshot.isStale current := by
  rw [Bool.eq_iff_iff]
  simp only [DeviceDiscoverySnapshot.isStale, List.any_eq_true]
  constructor
  · rintro ⟨entry, hentry, hstale⟩
    obtain ⟨e, he, rfl⟩ := (mem_entries_renamed hrename h).mp hentry
    exact ⟨e, he, hstale⟩
  · rintro ⟨e, he, hstale⟩
    exact ⟨renameEntry rename e, (mem_entries_renamed hrename h).mpr ⟨e, he, rfl⟩, hstale⟩

/-- A topology is rebuilt over a renamed snapshot exactly when it was built before. -/
theorem topology_new_renamed (hrename : InjectiveOn rename snapshot)
    (h : renameOrdinals rename snapshot = some renamed) (links : List DeviceLink) :
    DeviceTopologySnapshot.new renamed links =
      (DeviceTopologySnapshot.new snapshot links).map
        (fun topology => { topology with discovery := renamed }) := by
  have hendpoints : DeviceTopologySnapshot.endpointsRecorded renamed =
      DeviceTopologySnapshot.endpointsRecorded snapshot := by
    funext link
    simp only [DeviceTopologySnapshot.endpointsRecorded, findEntry_isSome_renamed hrename h]
  unfold DeviceTopologySnapshot.new
  rw [hendpoints]
  split
  · rfl
  · rfl

/-- The topology gate reads the snapshot only to know which devices it records. -/
theorem traversalAllowed_renamed (hrename : InjectiveOn rename snapshot)
    (h : renameOrdinals rename snapshot = some renamed) {topology : DeviceTopologySnapshot}
    (hmeasured : topology.discovery = snapshot) (source target : PhysicalDeviceId) :
    ({ topology with discovery := renamed } : DeviceTopologySnapshot).traversalAllowed
      source target = topology.traversalAllowed source target := by
  simp only [DeviceTopologySnapshot.traversalAllowed, hmeasured,
    findEntry_isNone_renamed hrename h]

end Renamed

/-! ## Snapshots whose entries agree -/

section Agree

variable {snapshot renamed : DeviceDiscoverySnapshot} {rename : DeviceOrdinal → DeviceOrdinal}
  (hrename : InjectiveOn rename snapshot)
  (h : renameOrdinals rename snapshot = some renamed)
include hrename h

/-- A lookup in the renamed snapshot finds some entry of the same identity. -/
theorem findEntry_renamed_some {id : PhysicalDeviceId} {entry : DeviceDiscoveryEntry}
    (hfound : renamed.findEntry id = some entry) :
    ∃ e ∈ snapshot.entries, e.identity = id ∧ renameEntry rename e = entry := by
  obtain ⟨hmem, hid⟩ := DeviceDiscoverySnapshot.findEntry_some hfound
  obtain ⟨e, he, rfl⟩ := (mem_entries_renamed hrename h).mp hmem
  exact ⟨e, he, hid, rfl⟩

theorem assignmentCompatibility_renamed (hagree : IdentityFactsAgree snapshot)
    (assignment : DeviceAssignment) :
    assignmentCompatibility renamed assignment = assignmentCompatibility snapshot assignment := by
  have hnone := findEntry_isNone_renamed hrename h assignment.device
  unfold assignmentCompatibility
  cases hfound : renamed.findEntry assignment.device with
  | none =>
    rw [hfound, Option.isNone_none, eq_comm, Option.isNone_iff_eq_none] at hnone
    rw [hnone]
  | some entry =>
    cases horiginal : snapshot.findEntry assignment.device with
    | none =>
      rw [hfound, horiginal] at hnone
      cases hnone
    | some original =>
      obtain ⟨e, he, hid, rfl⟩ := findEntry_renamed_some hrename h hfound
      obtain ⟨hmem, horiginalId⟩ := DeviceDiscoverySnapshot.findEntry_some horiginal
      have hfacts : gateFacts (renameEntry rename e) = gateFacts original :=
        hagree e he original hmem (hid.trans horiginalId.symm)
      have hidentity : (renameEntry rename e).identity = original.identity :=
        hid.trans horiginalId.symm
      simp only [compatibilityFacts_congr hidentity hfacts]

/-- Under one generation a selection resolves to the same set or the same error. -/
theorem resolve_renamed {current : DeviceHealthGeneration}
    (hfresh : snapshot.isStale current = false) (selection : DeviceSetSelection) :
    selection.resolve renamed current = selection.resolve snapshot current := by
  have hcurrent := DeviceDiscoverySnapshot.isStale_eq_false_iff.mp hfresh
  have hcurrent' : ∀ entry ∈ renamed.entries, entry.healthGeneration = current := by
    rw [← DeviceDiscoverySnapshot.isStale_eq_false_iff, isStale_renamed hrename h, hfresh]
  cases selection with
  | explicit ids =>
    have hmember : validateMember renamed current = validateMember snapshot current := by
      funext id
      have hnone := findEntry_isNone_renamed hrename h id
      unfold validateMember
      cases hfound : renamed.findEntry id with
      | none =>
        rw [hfound, Option.isNone_none, eq_comm, Option.isNone_iff_eq_none] at hnone
        rw [hnone]
      | some entry =>
        cases horiginal : snapshot.findEntry id with
        | none =>
          rw [hfound, horiginal] at hnone
          cases hnone
        | some original =>
          have hentry := hcurrent' entry (DeviceDiscoverySnapshot.findEntry_some hfound).1
          have hbefore := hcurrent original (DeviceDiscoverySnapshot.findEntry_some horiginal).1
          simp only [hentry, hbefore]
    simp only [DeviceSetSelection.resolve, DeviceSet.validate, hmember]
  | constraints declared =>
    have hset : DeviceSet.fromMembers
          ((renamed.entries.filter (declared.selects current)).map (·.identity)) =
        DeviceSet.fromMembers
          ((snapshot.entries.filter (declared.selects current)).map (·.identity)) := by
      refine congrArg DeviceSet.mk (Std.ExtTreeSet.ext_mem (fun id => ?_))
      simp only [mem_setOf, List.mem_map, List.mem_filter]
      constructor
      · rintro ⟨entry, ⟨hentry, hselects⟩, rfl⟩
        obtain ⟨e, he, rfl⟩ := (mem_entries_renamed hrename h).mp hentry
        exact ⟨e, ⟨he, hselects⟩, rfl⟩
      · rintro ⟨e, ⟨he, hselects⟩, rfl⟩
        exact ⟨renameEntry rename e,
          ⟨(mem_entries_renamed hrename h).mpr ⟨e, he, rfl⟩, hselects⟩, rfl⟩
    simp only [DeviceSetSelection.resolve, hset]

/-- Over a fresh snapshot whose entries agree, a plan keeps its violations. -/
theorem violationsOf_renamed (hagree : IdentityFactsAgree snapshot)
    {topology : DeviceTopologySnapshot} (hmeasured : topology.discovery = snapshot)
    {question : PolicyQuestion} (hfresh : snapshot.isStale question.currentGeneration = false) :
    violationsOf (requestWith renamed { topology with discovery := renamed } question) =
      violationsOf (requestWith snapshot topology question) := by
  have hgate : gateHealthEpochSelection
        (requestWith renamed { topology with discovery := renamed } question) =
      gateHealthEpochSelection (requestWith snapshot topology question) := by
    simp only [gateHealthEpochSelection, requestWith, isStale_renamed hrename h, hfresh,
      resolve_renamed hrename h hfresh, Bool.false_eq_true, if_false]
  have hcompatibility : assignmentCompatibility renamed = assignmentCompatibility snapshot :=
    funext (assignmentCompatibility_renamed hrename h hagree)
  have htopology : transferTopology { topology with discovery := renamed } =
      transferTopology topology := by
    funext transfer
    simp only [transferTopology, traversalAllowed_renamed hrename h hmeasured]
  funext plan
  unfold violationsOf
  rw [hgate]
  simp only [planViolations, requestWith, gateCompatibility, gateTopology, gateMemory,
    hcompatibility, htopology]
  rfl

/-- Two evaluations over one topology modulo its snapshot decide the same when the
    violations have the same gates and devices. -/
theorem evaluateOver_renamed {question : PolicyQuestion}
    (hviolations : ∀ topology : DeviceTopologySnapshot, topology.discovery = snapshot → ∀ plan,
      violationPairs (violationsOf
        (requestWith renamed { topology with discovery := renamed } question) plan) =
      violationPairs (violationsOf (requestWith snapshot topology question) plan)) :
    (evaluateOver renamed question).map decisions =
      (evaluateOver snapshot question).map decisions := by
  unfold evaluateOver
  rw [topology_new_renamed hrename h]
  cases htopology : DeviceTopologySnapshot.new snapshot question.links with
  | none => rfl
  | some topology =>
    have hmeasured : topology.discovery = snapshot := by
      unfold DeviceTopologySnapshot.new at htopology
      split at htopology
      · cases htopology
        rfl
      · cases htopology
    obtain ⟨outcome, houtcome⟩ :=
      evaluate_returns (requestWith snapshot topology question) hmeasured
    obtain ⟨outcome', houtcome'⟩ := evaluate_returns
      (requestWith renamed { topology with discovery := renamed } question) rfl
    obtain ⟨-, hrejected, hranked⟩ := evaluate_some houtcome
    obtain ⟨-, hrejected', hranked'⟩ := evaluate_some houtcome'
    have hpasses : passesGates
          (requestWith renamed { topology with discovery := renamed } question) =
        passesGates (requestWith snapshot topology question) := by
      funext plan
      have := congrArg List.isEmpty (hviolations topology hmeasured plan)
      simpa [violationPairs, passesGates] using this
    have hrank : ∀ passers objectives, rankPlans passers objectives
          (requestWith renamed { topology with discovery := renamed } question).constraints =
        rankPlans passers objectives (requestWith snapshot topology question).constraints :=
      fun _ _ => rfl
    simp only [Option.map_some, Option.bind_some, houtcome, houtcome', decisions, hrejected,
      hrejected', hranked, hranked', hrank, passersOf, rejectedPlansOf, hpasses, List.map_map]
    congr 2
    refine List.map_congr_left (fun plan _ => ?_)
    simp only [Function.comp_apply, rejectionOf, hviolations topology hmeasured plan]

end Agree

/-- A stale snapshot rejects every plan with the one selection-level violation. -/
theorem violationPairs_of_stale {request : PolicyRequest} (plan : CandidatePlan)
    (hstale : request.discovery.isStale request.constraints.currentGeneration = true) :
    violationPairs (violationsOf request plan) = [(.healthEpochMembership, none)] := by
  simp [violationsOf, gateHealthEpochSelection, hstale, violationPairs]

theorem ordinalFree_of_agree {snapshot : DeviceDiscoverySnapshot}
    (hagree : MixedGenerations snapshot ∨ IdentityFactsAgree snapshot) :
    OrdinalFree snapshot := by
  intro rename hrename renamed h question
  refine evaluateOver_renamed hrename h (fun topology hmeasured plan => ?_)
  cases hstale : snapshot.isStale question.currentGeneration with
  | true =>
    rw [violationPairs_of_stale, violationPairs_of_stale]
    · exact hstale
    · exact (isStale_renamed hrename h _).trans hstale
  | false =>
    rcases hagree with ⟨a, ha, b, hb, hne⟩ | hagree
    · have hcurrent := DeviceDiscoverySnapshot.isStale_eq_false_iff.mp hstale
      exact absurd ((hcurrent a ha).trans (hcurrent b hb).symm) hne
    · rw [violationsOf_renamed hrename h hagree hmeasured hstale]

/-! ## Probing one device -/

/-- An assignment of nothing but a capability requirement. -/
def probeAssignment (device : PhysicalDeviceId) (required : RequiredCapabilities) :
    DeviceAssignment where
  device := device
  required := ⟨0, 0, 0, 0, 0, 0, 0⟩
  requiredCapabilities := required

/-- One plan with that assignment, under an empty selection and no budget. -/
def probeQuestion (generation : DeviceHealthGeneration) (device : PhysicalDeviceId)
    (required : RequiredCapabilities) : PolicyQuestion where
  selection := .explicit ∅
  currentGeneration := generation
  links := []
  perDeviceBudget := ∅
  totalBudget := none
  objectives := []
  plans :=
    [{ name := "probe"
       assignments := [probeAssignment device required]
       transfers := []
       declaredTotalBytes := 0
       facts := ⟨none, none, none, none, none, none⟩ }]

/-- The number of violations of each rejected plan. -/
def violationCounts (outcome : PolicyOutcome) : List Nat :=
  (decisions outcome).2.map (fun rejected => rejected.2.length)

/-- The probe fails membership, memory and whatever the compatibility gate finds. -/
theorem evaluateOver_probe {snapshot : DeviceDiscoverySnapshot}
    {generation : DeviceHealthGeneration} {device : PhysicalDeviceId}
    {entry : DeviceDiscoveryEntry} (hfresh : snapshot.isStale generation = false)
    (hfound : snapshot.findEntry device = some entry) (required : RequiredCapabilities) :
    (evaluateOver snapshot (probeQuestion generation device required)).map violationCounts =
      some [(compatibilityFacts (probeAssignment device required) entry).length + 2] := by
  let topology : DeviceTopologySnapshot := ⟨snapshot, ∅⟩
  let request := requestWith snapshot topology (probeQuestion generation device required)
  have hnew : DeviceTopologySnapshot.new snapshot [] = some topology := rfl
  obtain ⟨outcome, houtcome⟩ := evaluate_returns request rfl
  have hset : gateHealthEpochSelection request = .ok ⟨∅⟩ := by
    simp [gateHealthEpochSelection, request, requestWith, probeQuestion, hfresh,
      DeviceSetSelection.resolve, DeviceSet.validate, tryEach, Except.mapError]
  have hviolations : ∀ plan ∈ request.plans, (violationsOf request plan).length =
      (compatibilityFacts (probeAssignment device required) entry).length + 2 := by
    intro plan hplan
    cases List.mem_singleton.mp hplan
    rw [violationsOf_of_resolved hset]
    simp [planViolations, gateMembership, gateCompatibility, gateMemory, gateTopology,
      assignmentMemory, totalMemory, DeviceSet.contains, assignmentCompatibility,
      probeAssignment, hfound, request, requestWith, probeQuestion]
  have hrejected : rejectedPlansOf request = request.plans := by
    refine List.filter_eq_self.mpr (fun plan hplan => ?_)
    have := hviolations plan hplan
    cases hcase : violationsOf request plan with
    | nil => rw [hcase] at this; cases this
    | cons violation rest => simp [passesGates, hcase]
  rw [evaluateOver, show (probeQuestion generation device required).links = [] from rfl, hnew,
    Option.bind_some, houtcome]
  obtain ⟨-, hreported, -⟩ := evaluate_some houtcome
  simp only [Option.map_some, violationCounts, decisions, hreported, hrejected]
  simpa [request, requestWith, probeQuestion, violationPairs, rejectionOf] using hviolations

/-! ## The count of violations tells the facts apart -/

section Counts

variable {device : PhysicalDeviceId} {a b : DeviceDiscoveryEntry}

theorem eq_of_rejects {v w : UInt32}
    (h : ∀ demand : UInt32, (v = 0 ∨ v < demand) ↔ (w = 0 ∨ w < demand)) : v = w := by
  have hv := h v
  have hw := h w
  simp only [UInt32.lt_iff_toNat_lt, ← UInt32.toNat_inj, UInt32.toNat_zero, lt_self_iff_false,
    or_false] at hv hw ⊢
  omega

theorem eq_of_counts {v w : UInt32} (required : UInt32 → RequiredCapabilities)
    (ha : ∀ demand, (compatibilityFacts (probeAssignment device (required demand)) a).length =
      if v = 0 ∨ v < demand then 1 else 0)
    (hb : ∀ demand, (compatibilityFacts (probeAssignment device (required demand)) b).length =
      if w = 0 ∨ w < demand then 1 else 0)
    (h : ∀ required, (compatibilityFacts (probeAssignment device required) a).length =
      (compatibilityFacts (probeAssignment device required) b).length) : v = w := by
  refine eq_of_rejects (fun demand => ?_)
  have := h (required demand)
  rw [ha, hb] at this
  by_cases hv : v = 0 ∨ v < demand
  · by_cases hw : w = 0 ∨ w < demand
    · exact iff_of_true hv hw
    · simp [hv, hw] at this
  · by_cases hw : w = 0 ∨ w < demand
    · simp [hv, hw] at this
    · exact iff_of_false hv hw

@[simp] theorem demandFacts_none {D V : Type} (evaluated : Except String V)
    (fails : D → V → Bool) (text : D → V → String) :
    demandFacts none evaluated fails text = [] := rfl

theorem length_demandFacts {D V : Type} {demand : D} {value : V} {fails : D → V → Bool}
    {text : D → V → String} :
    (demandFacts (some demand) (.ok value) fails text).length =
      if fails demand value then 1 else 0 := by
  cases h : fails demand value with
  | true => simp [demandFacts, h]
  | false => simp [demandFacts, h]

@[simp] theorem length_demandFacts_limit {demand value : UInt32} {field : String}
    {text : UInt32 → UInt32 → String} :
    (demandFacts (some demand) (evaluableLaunchLimit value field)
      (fun demand limit => limit < demand) text).length =
      if value = 0 ∨ value < demand then 1 else 0 := by
  by_cases hzero : value = 0
  · simp [demandFacts, evaluableLaunchLimit, hzero]
  · simp [length_demandFacts, evaluableLaunchLimit, hzero]

@[simp] theorem length_demandFacts_sm {demand value : UInt32}
    {text : UInt32 → UInt32 → String} :
    (demandFacts (some demand) (evaluableSmCount .cuda value)
      (fun sms got => got < sms) text).length =
      if value = 0 ∨ value < demand then 1 else 0 := by
  by_cases hzero : value = 0
  · simp [demandFacts, evaluableSmCount, hzero]
  · simp [length_demandFacts, evaluableSmCount, hzero]

@[simp] theorem dtypes_default (surface : DtypeSurface) :
    dtypeNames.filter (fun name => dtypeSupported .empty name &&
      !dtypeSupported surface name) = [] := by
  simp [dtypeNames, dtypeSupported, DtypeSurface.empty]

variable (h : ∀ required, (compatibilityFacts (probeAssignment device required) a).length =
  (compatibilityFacts (probeAssignment device required) b).length)
include h

theorem maxThreads_of_counts :
    a.capabilities.maxThreadsPerWorkgroup = b.capabilities.maxThreadsPerWorkgroup := by
  refine eq_of_counts (fun demand =>
    { RequiredCapabilities.default with threadsPerWorkgroup := some demand }) ?_ ?_ h
  all_goals
    intro demand
    simp [compatibilityFacts, genericLaunchFacts, probeAssignment, RequiredCapabilities.default]

theorem sharedMemory_of_counts : a.capabilities.workgroupSharedMemoryMaxBytes =
    b.capabilities.workgroupSharedMemoryMaxBytes := by
  refine eq_of_counts (fun demand =>
    { RequiredCapabilities.default with workgroupSharedMemoryBytes := some demand }) ?_ ?_ h
  all_goals
    intro demand
    simp [compatibilityFacts, genericLaunchFacts, probeAssignment, RequiredCapabilities.default]

theorem collectiveWidth_of_counts :
    a.capabilities.collectiveWidth = b.capabilities.collectiveWidth := by
  refine eq_of_counts (fun demand =>
    { RequiredCapabilities.default with minCollectiveWidth := some demand }) ?_ ?_ h
  all_goals
    intro demand
    simp [compatibilityFacts, genericLaunchFacts, probeAssignment, RequiredCapabilities.default]

theorem smCount_of_counts (ha : a.backend = .cuda) (hb : b.backend = .cuda) :
    a.capabilities.smCount = b.capabilities.smCount := by
  refine eq_of_counts (fun demand =>
    { RequiredCapabilities.default with minSmCount := some demand }) ?_ ?_ h
  all_goals
    intro demand
    simp [compatibilityFacts, genericLaunchFacts, probeAssignment, RequiredCapabilities.default,
      ha, hb]

theorem unifiedMemory_of_counts :
    a.capabilities.unifiedMemory = b.capabilities.unifiedMemory := by
  have := h { RequiredCapabilities.default with requireUnifiedMemory := true }
  simp only [compatibilityFacts, genericLaunchFacts, probeAssignment,
    RequiredCapabilities.default, demandFacts_none, dtypes_default] at this
  cases ha : a.capabilities.unifiedMemory with
  | true => cases hb : b.capabilities.unifiedMemory with
    | true => rfl
    | false => simp [ha, hb] at this
  | false => cases hb : b.capabilities.unifiedMemory with
    | true => simp [ha, hb] at this
    | false => rfl

theorem dtypeSurface_of_counts :
    a.capabilities.dtypeSurface = b.capabilities.dtypeSurface := by
  have hdtype : ∀ surface : DtypeSurface,
      (dtypeNames.filter (fun name => dtypeSupported surface name &&
        !dtypeSupported a.capabilities.dtypeSurface name)).length =
      (dtypeNames.filter (fun name => dtypeSupported surface name &&
        !dtypeSupported b.capabilities.dtypeSurface name)).length := by
    intro surface
    have := h { RequiredCapabilities.default with requiredDtypes := surface }
    simpa [compatibilityFacts, genericLaunchFacts, probeAssignment,
      RequiredCapabilities.default] using this
  generalize a.capabilities.dtypeSurface = x at hdtype ⊢
  generalize b.capabilities.dtypeSurface = y at hdtype ⊢
  have hf32 := hdtype { DtypeSurface.empty with f32 := true }
  have hf64 := hdtype { DtypeSurface.empty with f64 := true }
  have hf16 := hdtype { DtypeSurface.empty with f16 := true }
  have hbf16 := hdtype { DtypeSurface.empty with bf16 := true }
  have hi8 := hdtype { DtypeSurface.empty with i8 := true }
  have hi32 := hdtype { DtypeSurface.empty with i32 := true }
  simp only [dtypeNames, dtypeSupported, DtypeSurface.empty, List.filter_cons, List.filter_nil,
    Bool.true_and, Bool.false_and, Bool.false_eq_true, if_false] at hf32 hf64 hf16 hbf16 hi8 hi32
  have hbit : ∀ {p q : Bool} {n : String},
      (if (!p) = true then [n] else []).length = (if (!q) = true then [n] else []).length →
        p = q := by
    intro p q n hlength
    cases p <;> cases q <;> simp_all
  cases x
  cases y
  rw [DtypeSurface.mk.injEq]
  exact ⟨hbit hf32, hbit hf64, hbit hf16, hbit hbf16, hbit hi8, hbit hi32⟩

theorem computeCapability_of_counts (ha : a.backend = .cuda) (hb : b.backend = .cuda) :
    a.capabilities.computeCapability = b.capabilities.computeCapability := by
  have hcc : ∀ cc : ComputeCapability,
      (demandFacts (some cc)
        (evaluableComputeCapability .cuda a.capabilities.computeCapability)
        (fun cc got => got.major < cc.major || got.major = cc.major && got.minor < cc.minor)
        (fun cc got => s!"compute capability {got.major}.{got.minor} is below required " ++
          s!"{cc.major}.{cc.minor}")).length =
      (demandFacts (some cc)
        (evaluableComputeCapability .cuda b.capabilities.computeCapability)
        (fun cc got => got.major < cc.major || got.major = cc.major && got.minor < cc.minor)
        (fun cc got => s!"compute capability {got.major}.{got.minor} is below required " ++
          s!"{cc.major}.{cc.minor}")).length := by
    intro cc
    have := h { RequiredCapabilities.default with minComputeCapability := some cc }
    simpa [compatibilityFacts, genericLaunchFacts, probeAssignment,
      RequiredCapabilities.default, ha, hb] using this
  generalize a.capabilities.computeCapability = x at hcc ⊢
  generalize b.capabilities.computeCapability = y at hcc ⊢
  obtain ⟨xMajor, xMinor⟩ := x
  obtain ⟨yMajor, yMinor⟩ := y
  have hx := hcc ⟨xMajor, xMinor⟩
  have hy := hcc ⟨yMajor, yMinor⟩
  by_cases hxZero : xMajor = 0 ∧ xMinor = 0
  · by_cases hyZero : yMajor = 0 ∧ yMinor = 0
    · rw [hxZero.1, hxZero.2, hyZero.1, hyZero.2]
    · simp [demandFacts, evaluableComputeCapability, hxZero, hyZero] at hy
  · by_cases hyZero : yMajor = 0 ∧ yMinor = 0
    · simp [demandFacts, evaluableComputeCapability, hxZero, hyZero] at hx
    · simp only [evaluableComputeCapability, ne_eq, not_true_eq_false, if_false, hxZero, hyZero,
        length_demandFacts] at hx hy
      simp only [ComputeCapability.mk.injEq, ← UInt32.toNat_inj]
      simp only [UInt32.lt_iff_toNat_lt, ← UInt32.toNat_inj, lt_self_iff_false, decide_false,
        Bool.and_false, Bool.or_false, Bool.false_eq_true, if_false, decide_true,
        Bool.true_and] at hx hy
      simp only [right_eq_ite_iff, left_eq_ite_iff] at hx hy
      simp at hx hy
      omega

theorem gateFacts_of_counts (hidentity : a.identity = b.identity) :
    gateFacts a = gateFacts b := by
  have hbackend : a.backend = b.backend := congrArg PhysicalDeviceId.backend hidentity
  have hcuda : (if a.backend = .cuda then
        some (a.capabilities.computeCapability, a.capabilities.smCount) else none) =
      (if b.backend = .cuda then
        some (b.capabilities.computeCapability, b.capabilities.smCount) else none) := by
    by_cases hb : b.backend = .cuda
    · have ha := hbackend.trans hb
      rw [if_pos ha, if_pos hb, computeCapability_of_counts h ha hb, smCount_of_counts h ha hb]
    · rw [if_neg (hbackend ▸ hb), if_neg hb]
  simp only [gateFacts, hcuda, dtypeSurface_of_counts h, maxThreads_of_counts h,
    sharedMemory_of_counts h, collectiveWidth_of_counts h, unifiedMemory_of_counts h]

end Counts

/-! ## Exchanging two ordinals -/

section Exchange

variable {snapshot : DeviceDiscoverySnapshot} {first other : DeviceDiscoveryEntry}

def exchange (a b : DeviceOrdinal) : DeviceOrdinal → DeviceOrdinal := Equiv.swap a b

theorem exchange_injectiveOn (a b : DeviceOrdinal) : InjectiveOn (exchange a b) snapshot :=
  fun _ _ _ _ heq => (Equiv.swap a b).injective heq

theorem eq_of_ordinal {a b : DeviceDiscoveryEntry} (ha : a ∈ snapshot.entries)
    (hb : b ∈ snapshot.entries) (h : a.ordinal = b.ordinal) : a = b := by
  have hgetA := Std.ExtTreeMap.mem_toList_iff_getElem?_eq_some.mp (mem_entries_iff.mp ha)
  have hgetB := Std.ExtTreeMap.mem_toList_iff_getElem?_eq_some.mp (mem_entries_iff.mp hb)
  rw [h, hgetB] at hgetA
  exact (Option.some.inj hgetA).symm

/-- After the exchange the lookup finds the other entry of the identity. -/
theorem findEntry_exchanged {renamed : DeviceDiscoverySnapshot}
    (hfirst : snapshot.findEntry other.identity = some first) (hother : other ∈ snapshot.entries)
    (h : renameOrdinals (exchange first.ordinal other.ordinal) snapshot = some renamed) :
    renamed.findEntry other.identity =
      some (renameEntry (exchange first.ordinal other.ordinal) other) := by
  obtain ⟨hmem, -, hleast⟩ := findEntry_eq_some_iff.mp hfirst
  have hrenamed : ∀ entry, entry ∈ renamed.entries ↔
      ∃ e ∈ snapshot.entries, renameEntry (exchange first.ordinal other.ordinal) e = entry :=
    fun _ => mem_entries_renamed (exchange_injectiveOn first.ordinal other.ordinal) h
  refine findEntry_eq_some_iff.mpr ⟨(hrenamed _).mpr ⟨other, hother, rfl⟩, rfl, ?_⟩
  intro entry hentry hid
  obtain ⟨e, he, rfl⟩ := (hrenamed entry).mp hentry
  by_cases heOther : e = other
  · exact .inl (by rw [heOther])
  right
  have hordinal : (renameEntry (exchange first.ordinal other.ordinal) other).ordinal =
      first.ordinal := Equiv.swap_apply_right _ _
  rw [hordinal]
  by_cases heFirst : e = first
  · have hswapped : (renameEntry (exchange first.ordinal other.ordinal) e).ordinal =
        other.ordinal := by
      rw [heFirst]
      exact Equiv.swap_apply_left _ _
    rw [hswapped]
    exact (hleast other hother rfl).resolve_left (fun heq => heOther (heFirst.trans heq))
  · have hkept : (renameEntry (exchange first.ordinal other.ordinal) e).ordinal = e.ordinal :=
      Equiv.swap_apply_of_ne_of_ne (fun heq => heFirst (eq_of_ordinal he hmem heq))
        (fun heq => heOther (eq_of_ordinal he hother heq))
    rw [hkept]
    exact (hleast e he hid).resolve_left (Ne.symm heFirst)

/-- When no decision changes, an entry agrees with the one the lookup finds. -/
theorem gateFacts_eq_of_ordinalFree {generation : DeviceHealthGeneration}
    (hfree : OrdinalFree snapshot) (hfresh : snapshot.isStale generation = false)
    (hfirst : snapshot.findEntry other.identity = some first)
    (hother : other ∈ snapshot.entries) : gateFacts other = gateFacts first := by
  have hinjective : InjectiveOn (exchange first.ordinal other.ordinal) snapshot :=
    exchange_injectiveOn first.ordinal other.ordinal
  obtain ⟨renamed, hrenamed⟩ := renameOrdinals_returns hinjective
  have hfresh' : renamed.isStale generation = false :=
    (isStale_renamed hinjective hrenamed generation).trans hfresh
  have hfound := findEntry_exchanged hfirst hother hrenamed
  have hidentity : other.identity = first.identity := (findEntry_eq_some_iff.mp hfirst).2.1.symm
  have hcounts : ∀ required, (compatibilityFacts (probeAssignment other.identity required)
      (renameEntry (exchange first.ordinal other.ordinal) other)).length =
      (compatibilityFacts (probeAssignment other.identity required) first).length := by
    intro required
    have hsame := congrArg (Option.map (fun decided => decided.2.map (fun r => r.2.length)))
      (hfree _ hinjective renamed hrenamed (probeQuestion generation other.identity required))
    rw [Option.map_map, Option.map_map] at hsame
    have hlengths := (evaluateOver_probe hfresh' hfound required).symm.trans
      (hsame.trans (evaluateOver_probe hfresh hfirst required))
    simpa using hlengths
  exact gateFacts_of_counts hcounts hidentity

end Exchange

/-- The ordinals of a snapshot take no part in the decisions over it exactly when some
    entry is stale under any current generation, or the entries of each identity agree on
    the facts the compatibility gate reads. -/
theorem ordinalFree_iff (snapshot : DeviceDiscoverySnapshot) :
    OrdinalFree snapshot ↔ MixedGenerations snapshot ∨ IdentityFactsAgree snapshot := by
  refine ⟨fun hfree => ?_, ordinalFree_of_agree⟩
  by_cases hmixed : MixedGenerations snapshot
  · exact .inl hmixed
  right
  intro a ha b hb hidentity
  have hfresh : snapshot.isStale a.healthGeneration = false := by
    refine DeviceDiscoverySnapshot.isStale_eq_false_iff.mpr (fun entry hentry => ?_)
    by_contra hne
    exact hmixed ⟨entry, hentry, a, ha, hne⟩
  cases hfirst : snapshot.findEntry a.identity with
  | none => exact absurd rfl (DeviceDiscoverySnapshot.findEntry_eq_none_iff.mp hfirst a ha)
  | some first =>
    have hfacts := gateFacts_eq_of_ordinalFree hfree hfresh hfirst ha
    rw [hidentity] at hfirst
    exact hfacts.trans (gateFacts_eq_of_ordinalFree hfree hfresh hfirst hb).symm

/-! ## One identity at two ordinals -/

section Twice

/-- The sample device again at ordinal 1, this time with unified memory. -/
def secondEntry : DeviceDiscoveryEntry :=
  { sampleEntry with
    ordinal := ⟨1⟩
    capabilities := { sampleEntry.capabilities with unifiedMemory := true } }

def twiceDevices : BTreeMap DeviceOrdinal DeviceDiscoveryEntry :=
  ((∅ : BTreeMap DeviceOrdinal DeviceDiscoveryEntry).insert ⟨0⟩ sampleEntry).insert ⟨1⟩ secondEntry

/-- The constructor accepts one identity at two ordinals. -/
def twiceRecorded : DeviceDiscoverySnapshot where
  id := .fromCanonicalBytes (DeviceDiscoverySnapshot.canonicalBytesOf 0 twiceDevices .notAttempted)
  probeUtcNanos := 0
  devices := twiceDevices
  p2p := .notAttempted
  ordinals_match := by decide +kernel

/-- Exchanging the two ordinals changes what a plan requiring unified memory fails on. -/
theorem exchanged_ordinals_decide_differently :
    DeviceDiscoverySnapshot.new 0 twiceDevices .notAttempted = some twiceRecorded ∧
      ¬ OrdinalFree twiceRecorded := by
  refine ⟨dif_pos (by decide +kernel), fun hfree => ?_⟩
  have hfresh : twiceRecorded.isStale sampleGeneration = false := by decide +kernel
  have hfirst : twiceRecorded.findEntry secondEntry.identity = some sampleEntry := by
    decide +kernel
  have hother : secondEntry ∈ twiceRecorded.entries := by decide +kernel
  have hfacts : gateFacts secondEntry = gateFacts sampleEntry :=
    gateFacts_eq_of_ordinalFree hfree hfresh hfirst hother
  exact absurd hfacts (by decide +kernel)

end Twice

end FaberHosts.Policy
