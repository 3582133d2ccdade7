import FaberHosts.Lib.Scan
import FaberHosts.Macos.Translate
import FaberHosts.Transaction.Mirror

/-!
# Translating a distributed section

`distributed_translate.rs`: an admitted distributed section becomes the operations
and the commit boundary of a transaction plan.  The section is a wire schema of
another crate; its types hold what the translation reads.
-/

namespace FaberHosts.Macos
open FaberHosts.Lib FaberHosts.Coordinator FaberHosts.Transaction

/-! ## The wire section -/

structure WireExecutionCommitBoundary where
  barriers : List UInt32
  launches : List UInt32

inductive WireTransferDirection where
  | h2d
  | d2h
  | bidi
  deriving DecidableEq, Repr

structure WireLaunch where
  partition : UInt32
  launch : UInt32

/-- A transfer, but for its storage layout: every layout is translated to dense. -/
structure WireTransfer where
  id : UInt32
  source : UInt32
  destination : UInt32
  byteCount : UInt64
  direction : WireTransferDirection
  elementTy : String
  producerGeneration : UInt32
  consumerGeneration : UInt32
  completionBoundary : WireExecutionCommitBoundary

/-- A collective; broadcast is its only kind. -/
structure WireCollective where
  id : UInt32
  source : UInt32
  participants : List UInt32
  byteCount : UInt64

structure WireBarrier where
  id : UInt32
  partitions : List UInt32

inductive WireExecutionOperation where
  | launch (launch : WireLaunch)
  | transfer (transfer : WireTransfer)
  | collective (collective : WireCollective)
  | barrier (barrier : WireBarrier)

/-- A buffer a partition results in, and the launch that produces it. -/
structure WireResult where
  buffer : UInt32
  producedBy : UInt32
  deriving DecidableEq, Repr

structure WirePartition where
  id : UInt32
  results : List WireResult

structure WirePlacementFact where
  buffer : UInt32
  byteCount : UInt64

/-- A placement constraint; only the budgets are translated. -/
inductive WirePlacementConstraint where
  | partitionBudgetBytes (partition : UInt32) (budgetBytes : UInt64)
  | other

structure FmirDistributedExecutionSection where
  logicalDistributedPlanHash : String
  declaredPlacement : List WirePlacementFact
  partitions : List WirePartition
  operations : List WireExecutionOperation
  commitBoundary : WireExecutionCommitBoundary
  constraints : List WirePlacementConstraint

/-! ## The translation -/

/-- A translated plan, with what a bind does not read of it. -/
structure TranslatedPlan extends TranslatedDistributedPlan where
  operations : List TransactionOperation
  commitBoundary : TransactionCommitBoundary

def logicalPartition (id : UInt32) : LogicalPartitionId := ⟨s!"partition-{id}"⟩

def launchRef (id : UInt32) : LaunchRef := ⟨s!"launch-{id}"⟩

def barrierRef (id : UInt32) : BarrierRef := ⟨s!"barrier-{id}"⟩

def translateCommitBoundary (boundary : WireExecutionCommitBoundary) : TransactionCommitBoundary :=
  ⟨setOf (boundary.barriers.map barrierRef), setOf (boundary.launches.map launchRef)⟩

def translateDirection : WireTransferDirection → TransferDirectionMirror
  | .h2d => .h2d
  | .d2h => .d2h
  | .bidi => .bidi

def translateDtype (spelling : String) : Except TranslateError MirroredDtype :=
  if spelling = "f32" then .ok .f32
  else if spelling = "f64" then .ok .f64
  else if spelling = "f16" then .ok .f16
  else if spelling = "bf16" then .ok .bf16
  else if spelling = "i8" then .ok .i8
  else if spelling = "i32" then .ok .i32
  else .error (.unsupported s!"element type `{spelling}` is outside the mirrored dtype surface")

def translateOperation (launchOutputBytes : BTreeMap UInt32 UInt64) :
    WireExecutionOperation → Except TranslateError TransactionOperation
  | .launch launch =>
    .ok (.launch (logicalPartition launch.partition) (launchRef launch.launch)
      ((launchOutputBytes[launch.launch]?).getD 0))
  | .transfer wire => do
    let dtype ← translateDtype wire.elementTy
    return .transfer {
        id := ⟨s!"transfer-{wire.id}"⟩
        source := logicalPartition wire.source
        destination := logicalPartition wire.destination
        byteCount := wire.byteCount
        direction := translateDirection wire.direction
        elementDtype := dtype
        layout := .dense
        pathLabel := .hostStaged
        producerGeneration := wire.producerGeneration.toUInt64
        consumerGeneration := wire.consumerGeneration.toUInt64
        completionBoundary := translateCommitBoundary wire.completionBoundary }
  | .collective collective =>
    .ok (.collectiveBroadcast
      { id := ⟨s!"collective-{collective.id}"⟩
        source := logicalPartition collective.source
        participants := setOf (collective.participants.map logicalPartition)
        byteCount := collective.byteCount })
  | .barrier barrier =>
    .ok (.barrier (barrierRef barrier.id) (setOf (barrier.partitions.map logicalPartition)))

namespace FmirDistributedExecutionSection

/-- The declared bytes of each placed buffer. -/
def bufferBytes (wire : FmirDistributedExecutionSection) : BTreeMap UInt32 UInt64 :=
  wire.declaredPlacement.foldl (fun bytes fact => bytes.insert fact.buffer fact.byteCount) ∅

def byteCount (wire : FmirDistributedExecutionSection) (buffer : UInt32) : UInt64 :=
  (wire.bufferBytes[buffer]?).getD 0

/-- The bytes each launch is taken to write. -/
def launchOutputBytes (wire : FmirDistributedExecutionSection) : BTreeMap UInt32 UInt64 :=
  wire.partitions.foldl (fun outputs partition =>
    partition.results.foldl (fun outputs result =>
      outputs.insert result.producedBy (wire.byteCount result.buffer)) outputs) ∅

def partitionBudgetBytes (wire : FmirDistributedExecutionSection) :
    BTreeMap LogicalPartitionId UInt64 :=
  let defaults := wire.partitions.foldl
    (fun budgets partition => budgets.insert (logicalPartition partition.id)
      defaultPartitionBudgetBytes) ∅
  wire.constraints.foldl (fun budgets limit => match limit with
    | .partitionBudgetBytes partition budgetBytes =>
      budgets.insert (logicalPartition partition) budgetBytes
    | .other => budgets) defaults

end FmirDistributedExecutionSection

def translateAdmittedSection (wire : FmirDistributedExecutionSection) :
    Except TranslateError TranslatedPlan := do
  let operations ← wire.operations.mapM (translateOperation wire.launchOutputBytes)
  return {
      logicalDistributedPlanHash := wire.logicalDistributedPlanHash
      partitions := wire.partitions.map (fun partition => logicalPartition partition.id)
      partitionBudgetBytes := wire.partitionBudgetBytes
      operations
      commitBoundary := translateCommitBoundary wire.commitBoundary }

/-! ## The output bytes of a launch -/

namespace FmirDistributedExecutionSection

variable {wire : FmirDistributedExecutionSection}

/-- The results the partitions list. -/
def results (wire : FmirDistributedExecutionSection) : List WireResult :=
  wire.partitions.flatMap (·.results)

/-- The buffers listed as results of a launch. -/
def resultBuffers (wire : FmirDistributedExecutionSection) (launch : UInt32) : List UInt32 :=
  (wire.results.filter (fun result => result.producedBy = launch)).map (·.buffer)

theorem getElem?_launchOutputBytes (launch : UInt32) :
    wire.launchOutputBytes[launch]? = (wire.resultBuffers launch).getLast?.map wire.byteCount := by
  have hentries : wire.launchOutputBytes =
      (wire.results.map (fun result => (result.producedBy, wire.byteCount result.buffer))).foldl
        (fun outputs entry => outputs.insert entry.1 entry.2) ∅ := by
    rw [List.foldl_map, results, List.foldl_flatMap]
    rfl
  rw [hentries, getElem?_foldl_insert, List.filter_map, List.getLast?_map, resultBuffers,
    List.getLast?_map]
  simp [Function.comp_def]

/-- Every launch declares the bytes of all the buffers it results in. -/
def OutputsAccounted (wire : FmirDistributedExecutionSection) (plan : TranslatedPlan) : Prop :=
  ∀ (index : Nat) launch, wire.operations[index]? = some (.launch launch) → ∃ outputBytes : UInt64,
    plan.operations[index]? = some
      (.launch (logicalPartition launch.partition) (launchRef launch.launch) outputBytes) ∧
    outputBytes.toNat =
      ∑ buffer ∈ (wire.resultBuffers launch.launch).toFinset, (wire.byteCount buffer).toNat

/-- Every buffer a launch results in, but for the one listed last, is of no bytes. -/
def LastResultOnly (wire : FmirDistributedExecutionSection) : Prop :=
  ∀ launch, .launch launch ∈ wire.operations →
    ∀ last ∈ (wire.resultBuffers launch.launch).getLast?,
      ∀ buffer ∈ wire.resultBuffers launch.launch, buffer ≠ last → wire.byteCount buffer = 0

/-- The last value of a list is the sum over its different elements exactly when the
    others are zero. -/
theorem last_eq_sum_iff {α : Type} [DecidableEq α] {value : α → Nat} {l : List α} :
    ((l.getLast?.map value).getD 0 = ∑ a ∈ l.toFinset, value a) ↔
      ∀ last ∈ l.getLast?, ∀ a ∈ l, a ≠ last → value a = 0 := by
  cases hlast : l.getLast? with
  | none =>
    rw [List.getLast?_eq_none_iff] at hlast
    subst hlast
    simp
  | some last =>
    have hmem : last ∈ l.toFinset := List.mem_toFinset.mpr (List.mem_of_getLast? hlast)
    rw [← Finset.add_sum_erase _ _ hmem]
    simp only [Option.map_some, Option.getD_some, Option.mem_some_iff, forall_eq']
    constructor
    · intro h a ha hne
      have hrest : ∑ b ∈ l.toFinset.erase last, value b = 0 := by omega
      exact Finset.sum_eq_zero_iff.mp hrest a
        (Finset.mem_erase.mpr ⟨hne, List.mem_toFinset.mpr ha⟩)
    · intro h
      rw [Finset.sum_eq_zero, Nat.add_zero]
      intro b hb
      obtain ⟨hne, hb⟩ := Finset.mem_erase.mp hb
      exact h b (List.mem_toFinset.mp hb) hne

theorem translated_operations {plan : TranslatedPlan}
    (h : translateAdmittedSection wire = .ok plan) :
    wire.operations.mapM (translateOperation wire.launchOutputBytes) = .ok plan.operations := by
  obtain ⟨operations, hoperations, hplan⟩ := bind_ok_iff.mp h
  cases hplan
  exact hoperations

theorem translated_launch {plan : TranslatedPlan} (h : translateAdmittedSection wire = .ok plan)
    {index : Nat} {launch : WireLaunch} (hlaunch : wire.operations[index]? = some (.launch launch)) :
    plan.operations[index]? = some (.launch (logicalPartition launch.partition)
      (launchRef launch.launch) ((wire.launchOutputBytes[launch.launch]?).getD 0)) := by
  have hrelated := forall₂_of_mapM_ok (translated_operations h)
  rcases getElem?_of_forall₂ hrelated index with ⟨hnone, -⟩ | ⟨wired, operation, hwired, hfound, hop⟩
  · rw [hlaunch] at hnone
    cases hnone
  · rw [hlaunch] at hwired
    cases hwired
    cases hop
    exact hfound

/-- Output accounting holds of exactly the sections where only the last result of a
    launch has bytes. -/
theorem outputs_accounted_iff (wire : FmirDistributedExecutionSection) (plan : TranslatedPlan)
    (h : translateAdmittedSection wire = .ok plan) :
    OutputsAccounted wire plan ↔ LastResultOnly wire := by
  have hone : ∀ launch : WireLaunch, ((wire.launchOutputBytes[launch.launch]?).getD 0).toNat =
      ((wire.resultBuffers launch.launch).getLast?.map
        (fun buffer => (wire.byteCount buffer).toNat)).getD 0 := by
    intro launch
    rw [getElem?_launchOutputBytes]
    cases (wire.resultBuffers launch.launch).getLast? <;> rfl
  constructor
  · intro haccounted launch hlaunch last hlast buffer hbuffer hne
    obtain ⟨index, hindex⟩ := List.getElem?_of_mem hlaunch
    obtain ⟨outputBytes, hfound, hsum⟩ := haccounted index launch hindex
    rw [translated_launch h hindex] at hfound
    cases hfound
    rw [hone] at hsum
    have hzero := last_eq_sum_iff.mp hsum last hlast buffer hbuffer hne
    exact UInt64.toNat_inj.mp hzero
  · intro honly index launch hindex
    refine ⟨_, translated_launch h hindex, ?_⟩
    rw [hone, last_eq_sum_iff]
    intro last hlast buffer hbuffer hne
    rw [honly launch (List.mem_of_getElem? hindex) last hlast buffer hbuffer hne]
    rfl

/-- One launch, with these results. -/
def oneLaunch (results : List WireResult) : FmirDistributedExecutionSection where
  logicalDistributedPlanHash := "plan"
  declaredPlacement := [⟨1, 64⟩, ⟨2, 32⟩]
  partitions := [⟨0, results⟩]
  operations := [.launch ⟨0, 7⟩]
  commitBoundary := ⟨[], [7]⟩
  constraints := []

theorem one_result_accounted : ∃ plan, translateAdmittedSection (oneLaunch [⟨1, 7⟩]) = .ok plan ∧
    OutputsAccounted (oneLaunch [⟨1, 7⟩]) plan := by
  refine ⟨_, rfl, ?_⟩
  refine (outputs_accounted_iff _ _ rfl).mpr ?_
  intro launch hlaunch last hlast buffer hbuffer hne
  cases List.mem_singleton.mp hlaunch
  cases hlast
  exact absurd (List.mem_singleton.mp hbuffer) hne

/-- A launch with two results declares the bytes of the second one alone. -/
theorem two_results_one_counted : ∃ plan,
    translateAdmittedSection (oneLaunch [⟨1, 7⟩, ⟨2, 7⟩]) = .ok plan ∧
      plan.operations = [.launch (logicalPartition 0) (launchRef 7) 32] ∧
        ¬ OutputsAccounted (oneLaunch [⟨1, 7⟩, ⟨2, 7⟩]) plan := by
  refine ⟨_, rfl, rfl, ?_⟩
  intro h
  obtain ⟨outputBytes, hfound, hsum⟩ := h 0 ⟨0, 7⟩ rfl
  cases hfound
  exact absurd hsum (by decide)

end FmirDistributedExecutionSection

end FaberHosts.Macos
