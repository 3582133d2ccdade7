import FaberHosts.Lib.Calls
import FaberHosts.Coordinator.Transport

/-!
# Copies near the end of the address space

`transport.rs` as a build of it runs: the end of a range is an unchecked `u64`
sum, a slice bound must lie in order, and the counters of the adapter are `u64`
as well.  Beside the host-staged adapter stands the peer adapter, which never
copies.
-/

namespace FaberHosts.Coordinator
open FaberHosts.Lib FaberHosts.Transaction

/-! ## Ranges -/

/-- `ByteRange::end` -/
def ByteRange.endIn (T : Toolchain) (range : ByteRange) : MayPanic UInt64 :=
  addU64 T.overflowChecks range.offset range.length

/-- `SourceValue::slice`: the bounds must be in order and inside the bytes.  Its debug
    assertion asks for less. -/
def SourceValue.sliceIn (T : Toolchain) (source : SourceValue) (range : ByteRange) :
    MayPanic (List UInt8) :=
  match range.endIn T with
  | none => none
  | some rangeEnd =>
    if range.offset ≤ rangeEnd ∧ rangeEnd.toNat ≤ source.bytes.length then
      some ((source.bytes.take rangeEnd.toNat).drop range.offset.toNat)
    else none

/-- `validate_before_copy`: the end of the range is asked for once dtype and layout match. -/
def validateBeforeCopyIn (T : Toolchain) (spec : TransferSpec) (source : SourceValue)
    (destination : LogicalPartitionId) : MayPanic (Except TransferRejection Unit) :=
  if spec.dtype ≠ source.dtype then
    some (.error (.dtypeMismatch spec.transferRef spec.dtype source.dtype))
  else if spec.layout ≠ source.layout then
    some (.error (.layoutMismatch spec.transferRef spec.layout source.layout))
  else
    match spec.range.endIn T with
    | none => none
    | some rangeEnd =>
      if source.totalBytes < rangeEnd then
        some (.error (.rangeOutOfBounds spec.transferRef spec.range source.totalBytes))
      else if spec.generation ≠ source.generation then
        some (.error (.generationMismatch spec.transferRef spec.generation source.generation))
      else if spec.sourceOwner ≠ source.owner then
        some (.error (.ownerMismatch spec.transferRef spec.sourceOwner source.owner))
      else if spec.destination ≠ destination then
        some (.error (.destinationMismatch spec.transferRef spec.destination destination))
      else
        some (.ok ())

/-! ## The host-staged adapter -/

/-- `StagingPool::allocate` -/
def StagingPool.allocateIn (T : Toolchain) (pool : StagingPool) (bytes : UInt64) :
    MayPanic (StagingBufferRecord × StagingPool) :=
  (addU64 T.overflowChecks pool.nextId 1).map (fun _ => pool.allocate bytes)

namespace HostStagedAdapter

def releaseStaging (id : StagingBufferId) : Call HostStagedAdapter TransferError Unit :=
  .modify (fun adapter => { adapter with stagingPool := adapter.stagingPool.release id })

/-- `run_staged_copy` -/
def runStagedCopyIn (T : Toolchain) (clock : CopyClock) (spec : TransferSpec)
    (source : SourceValue) (bytes : UInt64) :
    Call HostStagedAdapter TransferError (StagingBufferRecord × List UInt8 × Nat) := do
  let adapter ← .get
  let elapsed := clock.elapsedNanos adapter.stagingPool.allocations
  let (staging, pool) ← .value (adapter.stagingPool.allocateIn T bytes)
  .modify (fun adapter => { adapter with stagingPool := pool })
  match adapter.simulatedFailure with
  | some detail =>
    releaseStaging staging.id
    .throw (.failed spec.transferRef detail)
  | none =>
    let destinationBytes ← .value (source.sliceIn T spec.range)
    releaseStaging staging.id
    if spec.timeoutNanos < elapsed then
      .throw (.timeout spec.transferRef spec.timeoutNanos (durationAsNanosU64 elapsed))
    else
      pure (staging, destinationBytes, elapsed)

/-- The last two steps of `copy`: account the budget, then label and record the transport. -/
def recordCopyIn (T : Toolchain) (spec : TransferSpec) (destination : LogicalPartitionId)
    (expected : UInt64) (staged : StagingBufferRecord × List UInt8 × Nat) :
    Call HostStagedAdapter TransferError TransferOutcome := do
  .modify (fun adapter => { adapter with
    usedBytes := saturatingAdd adapter.usedBytes spec.range.length
    usedTimeNanos := saturatingAdd adapter.usedTimeNanos expected })
  let adapter ← .get
  let engine ← .value (addU64 T.overflowChecks adapter.nextEngine 1)
  let event ← .value (addU64 T.overflowChecks adapter.nextEvent 1)
  let record : SelectedTransferRecord := {
    transferRef := spec.transferRef
    copyPath := .hostStaged
    staging := staged.1
    engine := ⟨engine⟩
    event := ⟨event⟩
    timeoutNanos := spec.timeoutNanos
    bytes := spec.range.length
    elapsedNanos := durationAsNanosU64 staged.2.2
    expectedNanos := expected
    direction := spec.direction
    destination := destination }
  .modify (fun adapter => { adapter with
    nextEngine := engine
    nextEvent := event
    records := adapter.records ++ [record] })
  pure ⟨record, staged.2.1⟩

/-- `copy` -/
def copyIn (T : Toolchain) (clock : CopyClock) (spec : TransferSpec) (source : SourceValue)
    (destination : LogicalPartitionId) : Call HostStagedAdapter TransferError TransferOutcome := do
  let validated ← .value (validateBeforeCopyIn T spec source destination)
  match validated with
  | .error rejection => .throw (.rejected rejection)
  | .ok () =>
    let adapter ← .get
    let bytes := spec.range.length
    let expected := expectedCopyTimeNanos bytes spec.direction adapter.rates
    if adapter.exceedsBudget bytes expected then
      .throw (.budgetExceeded spec.transferRef adapter.declaredBudget.bytes adapter.usedBytes bytes)
    else
      let staged ← runStagedCopyIn T clock spec source bytes
      recordCopyIn T spec destination expected staged

end HostStagedAdapter

/-! ## The peer adapter -/

/-- A directed pair of partitions, ordered by source and then by destination. -/
structure DirectedPair where
  source : LogicalPartitionId
  destination : LogicalPartitionId
  deriving DecidableEq, Repr

namespace DirectedPair

def orderKey (pair : DirectedPair) : String × String := (pair.source.id, pair.destination.id)

instance : Ord DirectedPair := ⟨compareOn orderKey⟩

instance : Std.TransOrd DirectedPair := inferInstanceAs (Std.TransCmp (compareOn orderKey))

end DirectedPair

structure PeerPairMeasurement where
  pair : DirectedPair
  probeProvenance : String
  directionalBandwidthBytesPerSec : UInt64
  latencyNanos : UInt64
  evidenceReference : String
  deriving DecidableEq, Repr

inductive PairAdmissionError where
  | selfPair (pair : DirectedPair)
  | missingBandwidthOrLatency (pair : DirectedPair)
  | missingEvidence (pair : DirectedPair)
  deriving DecidableEq, Repr

/-- The measured and admitted pairs. -/
structure PeerPairRegistry where
  admitted : BTreeMap DirectedPair PeerPairMeasurement

/-- A measurement without a rate is not admitted. -/
def PeerPairRegistry.admit (registry : PeerPairRegistry) (measurement : PeerPairMeasurement) :
    Except PairAdmissionError PeerPairRegistry :=
  if measurement.pair.source = measurement.pair.destination then
    .error (.selfPair measurement.pair)
  else if measurement.directionalBandwidthBytesPerSec = 0 ∨ measurement.latencyNanos = 0 then
    .error (.missingBandwidthOrLatency measurement.pair)
  else if measurement.evidenceReference = "" then
    .error (.missingEvidence measurement.pair)
  else
    .ok ⟨registry.admitted.insert measurement.pair measurement⟩

inductive PeerTransferError where
  | rejected (rejection : TransferRejection)
  | peerNotAdmitted (pair : DirectedPair)
  | peerNotAttempted (pair : DirectedPair) (detail : String)
  deriving DecidableEq, Repr

/-- `PeerAdapter::copy`: validation, then no copy whether the pair is admitted or not. -/
def peerCopy (T : Toolchain) (registry : PeerPairRegistry) (spec : TransferSpec)
    (source : SourceValue) (destination : LogicalPartitionId) :
    MayPanic (Except PeerTransferError TransferOutcome) :=
  (validateBeforeCopyIn T spec source destination).map (fun validated =>
    match validated with
    | .error rejection => .error (.rejected rejection)
    | .ok () =>
      let pair : DirectedPair := ⟨spec.sourceOwner, destination⟩
      if !registry.admitted.contains pair then .error (.peerNotAdmitted pair)
      else
        .error (.peerNotAttempted pair ("real peer copies require a real same-host ≥2-GPU " ++
          "topology (lane queue §5b); never fabricated")))

/-! ## What a copy does -/

section Steps

variable {T : Toolchain} {clock : CopyClock} {spec : TransferSpec} {source : SourceValue}
  {destination : LogicalPartitionId} {adapter : HostStagedAdapter} {panics : Prop}

theorem runStagedCopyIn_wp {bytes : UInt64}
    {Q : StagingBufferRecord × List UInt8 × Nat → HostStagedAdapter → Prop}
    {E : TransferError → HostStagedAdapter → Prop} :
    Call.wp panics (HostStagedAdapter.runStagedCopyIn T clock spec source bytes) Q E adapter ↔
      (adapter.stagingPool.allocateIn T bytes = none → panics) ∧
      ∀ staging pool, adapter.stagingPool.allocateIn T bytes = some (staging, pool) →
        (∀ detail, adapter.simulatedFailure = some detail →
          E (.failed spec.transferRef detail)
            { adapter with stagingPool := pool.release staging.id }) ∧
        (adapter.simulatedFailure = none →
          (source.sliceIn T spec.range = none → panics) ∧
          ∀ landed, source.sliceIn T spec.range = some landed →
            let elapsed := clock.elapsedNanos adapter.stagingPool.allocations
            (spec.timeoutNanos < elapsed →
              E (.timeout spec.transferRef spec.timeoutNanos (durationAsNanosU64 elapsed))
                { adapter with stagingPool := pool.release staging.id }) ∧
            (¬ spec.timeoutNanos < elapsed →
              Q (staging, landed, elapsed)
                { adapter with stagingPool := pool.release staging.id })) := by
  rw [HostStagedAdapter.runStagedCopyIn, Call.wp_bind, Call.wp_get, Call.wp_bind, Call.wp_value]
  refine and_congr_right' ?_
  rw [Prod.forall]
  refine forall_congr' (fun staging => forall_congr' (fun pool => imp_congr_right (fun _ => ?_)))
  rw [Call.wp_bind, Call.wp_modify]
  cases hfailure : adapter.simulatedFailure with
  | some detail => simp [HostStagedAdapter.releaseStaging]
  | none =>
    simp only [HostStagedAdapter.releaseStaging, Call.wp_bind, Call.wp_value, Call.wp_modify]
    refine ⟨fun h => ⟨by intros; contradiction, fun _ => ⟨h.1, fun landed hlanded => ?_⟩⟩, fun h => ⟨(h.2 trivial).1,
      fun landed hlanded => ?_⟩⟩
    · have hrest := h.2 landed hlanded
      split_ifs at hrest with hlate
      · exact ⟨fun _ => hrest, fun hin => (hin hlate).elim⟩
      · exact ⟨fun hin => (hlate hin).elim, fun _ => hrest⟩
    · have hrest := (h.2 trivial).2 landed hlanded
      split_ifs with hlate
      · exact hrest.1 hlate
      · exact hrest.2 hlate

/-- The record of a copy. -/
def copyRecord (spec : TransferSpec) (destination : LogicalPartitionId) (expected : UInt64)
    (staging : StagingBufferRecord) (elapsed : Nat) (engine event : UInt64) :
    SelectedTransferRecord :=
  ⟨spec.transferRef, .hostStaged, staging, ⟨engine⟩, ⟨event⟩, spec.timeoutNanos,
    spec.range.length, durationAsNanosU64 elapsed, expected, spec.direction, destination⟩

/-- The adapter once a copy is accounted for and recorded. -/
def HostStagedAdapter.recorded (adapter : HostStagedAdapter) (record : SelectedTransferRecord) :
    HostStagedAdapter :=
  { adapter with
    usedBytes := saturatingAdd adapter.usedBytes record.bytes
    usedTimeNanos := saturatingAdd adapter.usedTimeNanos record.expectedNanos
    nextEngine := record.engine.id
    nextEvent := record.event.id
    records := adapter.records ++ [record] }

theorem recordCopyIn_wp {expected : UInt64} {staged : StagingBufferRecord × List UInt8 × Nat}
    {Q : TransferOutcome → HostStagedAdapter → Prop}
    {E : TransferError → HostStagedAdapter → Prop} :
    Call.wp panics (HostStagedAdapter.recordCopyIn T spec destination expected staged) Q E adapter ↔
      (addU64 T.overflowChecks adapter.nextEngine 1 = none → panics) ∧
      ∀ engine, addU64 T.overflowChecks adapter.nextEngine 1 = some engine →
        (addU64 T.overflowChecks adapter.nextEvent 1 = none → panics) ∧
        ∀ event, addU64 T.overflowChecks adapter.nextEvent 1 = some event →
          Q ⟨copyRecord spec destination expected staged.1 staged.2.2 engine event, staged.2.1⟩
            (adapter.recorded
              (copyRecord spec destination expected staged.1 staged.2.2 engine event)) := by
  simp only [HostStagedAdapter.recordCopyIn, Call.wp_bind, Call.wp_modify, Call.wp_get,
    Call.wp_value, Call.wp_pure]
  exact Iff.rfl

theorem copyIn_wp {Q : TransferOutcome → HostStagedAdapter → Prop}
    {E : TransferError → HostStagedAdapter → Prop} :
    Call.wp panics (HostStagedAdapter.copyIn T clock spec source destination) Q E adapter ↔
      (validateBeforeCopyIn T spec source destination = none → panics) ∧
      (∀ rejection, validateBeforeCopyIn T spec source destination = some (.error rejection) →
        E (.rejected rejection) adapter) ∧
      (validateBeforeCopyIn T spec source destination = some (.ok ()) →
        let expected := expectedCopyTimeNanos spec.range.length spec.direction adapter.rates
        (adapter.exceedsBudget spec.range.length expected = true →
          E (.budgetExceeded spec.transferRef adapter.declaredBudget.bytes adapter.usedBytes
            spec.range.length) adapter) ∧
        (adapter.exceedsBudget spec.range.length expected = false →
          Call.wp panics (HostStagedAdapter.runStagedCopyIn T clock spec source spec.range.length)
            (fun staged => Call.wp panics
              (HostStagedAdapter.recordCopyIn T spec destination expected staged) Q E)
            E adapter)) := by
  rw [HostStagedAdapter.copyIn, Call.wp_bind, Call.wp_value]
  refine and_congr_right' ?_
  constructor
  · intro h
    refine ⟨fun rejection hrejected => h _ hrejected, fun hvalid => ?_⟩
    have hrest := h _ hvalid
    simp only [Call.wp_bind, Call.wp_get] at hrest
    split_ifs at hrest with hbudget
    · exact ⟨fun _ => hrest, fun hin => absurd hbudget (by simp [hin])⟩
    · exact ⟨fun hover => (hbudget hover).elim, fun _ => by simpa only [Call.wp_bind] using hrest⟩
  · rintro ⟨hrejected, hvalid⟩ validated hanswer
    cases validated with
    | error rejection => exact hrejected rejection hanswer
    | ok _ =>
      obtain ⟨hover, hin⟩ := hvalid hanswer
      simp only [Call.wp_bind, Call.wp_get]
      split_ifs with hbudget
      · exact hover hbudget
      · simpa only [Call.wp_bind] using hin (by simpa using hbudget)

end Steps

/-! ## Ranges that overflow -/

/-- Every fact matches, and the range ends inside the source. -/
structure Fits (spec : TransferSpec) (source : SourceValue) (destination : LogicalPartitionId) :
    Prop where
  dtype : spec.dtype = source.dtype
  layout : spec.layout = source.layout
  range : spec.range.offset.toNat + spec.range.length.toNat ≤ source.bytes.length
  generation : spec.generation = source.generation
  owner : spec.sourceOwner = source.owner
  destination : spec.destination = destination

/-- The end of the range fits 64 bits, or a check before it fails, or the end wraps and a
    check from it on fails all the same. -/
def RangeAnswers (T : Toolchain) (spec : TransferSpec) (source : SourceValue)
    (destination : LogicalPartitionId) : Prop :=
  spec.range.offset.toNat + spec.range.length.toNat < 2 ^ 64 ∨
    spec.dtype ≠ source.dtype ∨ spec.layout ≠ source.layout ∨
    T.overflowChecks = false ∧ (source.totalBytes < spec.range.endOffset ∨
      spec.generation ≠ source.generation ∨ spec.sourceOwner ≠ source.owner ∨
      spec.destination ≠ destination)

/-- No counter that the copy advances is at its end, in a build that checks. -/
def CountersFit (T : Toolchain) (clock : CopyClock) (spec : TransferSpec)
    (adapter : HostStagedAdapter) : Prop :=
  T.overflowChecks = true →
    adapter.stagingPool.nextId.toNat + 1 < 2 ^ 64 ∧
    (adapter.simulatedFailure = none →
      clock.elapsedNanos adapter.stagingPool.allocations ≤ spec.timeoutNanos →
      adapter.nextEngine.toNat + 1 < 2 ^ 64 ∧ adapter.nextEvent.toNat + 1 < 2 ^ 64)

section Ranges

variable {T : Toolchain} {clock : CopyClock} {spec : TransferSpec} {source : SourceValue}
  {destination : LogicalPartitionId} {adapter : HostStagedAdapter}

theorem addU64_eq_none_iff {checks : Bool} {a b : UInt64} :
    addU64 checks a b = none ↔ checks = true ∧ 2 ^ 64 ≤ a.toNat + b.toNat := by
  unfold addU64
  split_ifs with h
  · exact iff_of_true rfl h
  · exact iff_of_false nofun h

theorem validateBeforeCopy_ok_iff : validateBeforeCopy spec source destination = .ok () ↔
    spec.dtype = source.dtype ∧ spec.layout = source.layout ∧
      ¬ source.totalBytes < spec.range.endOffset ∧ spec.generation = source.generation ∧
      spec.sourceOwner = source.owner ∧ spec.destination = destination := by
  unfold validateBeforeCopy
  split_ifs <;> simp_all

theorem validateIn_of_end {rangeEnd : UInt64} (hend : spec.range.endIn T = some rangeEnd) :
    validateBeforeCopyIn T spec source destination =
      some (validateBeforeCopy spec source destination) := by
  have hexact : rangeEnd = spec.range.endOffset := addU64_some hend
  unfold validateBeforeCopyIn validateBeforeCopy
  rw [hend, hexact]
  split_ifs <;> simp_all

theorem validateIn_eq (hanswers : RangeAnswers T spec source destination) :
    validateBeforeCopyIn T spec source destination =
      some (validateBeforeCopy spec source destination) := by
  cases hend : spec.range.endIn T with
  | some rangeEnd => exact validateIn_of_end hend
  | none =>
    obtain ⟨hchecks, hover⟩ := addU64_eq_none_iff.mp hend
    rcases hanswers with hfit | hdtype | hlayout | ⟨hunchecked, -⟩
    · omega
    · simp [validateBeforeCopyIn, validateBeforeCopy, hdtype]
    · by_cases hdtype : spec.dtype = source.dtype
      · simp [validateBeforeCopyIn, validateBeforeCopy, hdtype, hlayout]
      · simp [validateBeforeCopyIn, validateBeforeCopy, hdtype]
    · rw [hchecks] at hunchecked
      cases hunchecked

theorem validateIn_ok_iff (hbytes : source.bytes.length < 2 ^ 64)
    (hanswers : RangeAnswers T spec source destination) :
    validateBeforeCopyIn T spec source destination = some (.ok ()) ↔
      Fits spec source destination := by
  rw [validateIn_eq hanswers, Option.some.injEq, validateBeforeCopy_ok_iff]
  have htotal : source.totalBytes.toNat = source.bytes.length := UInt64.toNat_ofNat_of_lt' hbytes
  have hfits : ∀ (_ : spec.range.offset.toNat + spec.range.length.toNat < 2 ^ 64),
      ¬ source.totalBytes < spec.range.endOffset ↔
        spec.range.offset.toNat + spec.range.length.toNat ≤ source.bytes.length := by
    intro hfit
    rw [UInt64.lt_iff_toNat_lt, htotal, ByteRange.endOffset, toNat_add_of_fits hfit, not_lt]
  constructor
  · rintro ⟨hdtype, hlayout, hend, hgeneration, howner, hdestination⟩
    rcases hanswers with hfit | hne | hne | ⟨-, hlate⟩
    · exact ⟨hdtype, hlayout, (hfits hfit).mp hend, hgeneration, howner, hdestination⟩
    · exact (hne hdtype).elim
    · exact (hne hlayout).elim
    · rcases hlate with hlt | hne | hne | hne
      · exact (hend hlt).elim
      · exact (hne hgeneration).elim
      · exact (hne howner).elim
      · exact (hne hdestination).elim
  · intro h
    have hfit : spec.range.offset.toNat + spec.range.length.toNat < 2 ^ 64 := by
      have := h.range
      omega
    exact ⟨h.dtype, h.layout, (hfits hfit).mpr h.range, h.generation, h.owner, h.destination⟩

theorem Fits.sliceIn (h : Fits spec source destination) (hbytes : source.bytes.length < 2 ^ 64) :
    source.sliceIn T spec.range = some
      ((source.bytes.drop spec.range.offset.toNat).take spec.range.length.toNat) := by
  have hrange := h.range
  have hfit : spec.range.offset.toNat + spec.range.length.toNat < 2 ^ 64 := by omega
  have hend : spec.range.endIn T = some (spec.range.offset + spec.range.length) :=
    addU64_of_fits _ hfit
  have hexact := toNat_add_of_fits hfit
  unfold SourceValue.sliceIn
  rw [hend]
  simp only
  rw [if_pos ⟨UInt64.le_iff_toNat_le.mpr (by omega), by omega⟩, hexact, List.drop_take,
    Nat.add_sub_cancel_left]

theorem answers_iff {c : Call HostStagedAdapter TransferError TransferOutcome} :
    c adapter ≠ none ↔ Call.wp False c (fun _ _ => True) (fun _ _ => True) adapter := by
  unfold Call.wp
  match c adapter with
  | none => simp
  | some (.ok a, t) => simp
  | some (.error e, t) => simp

theorem one_le_counter {checks : Bool} {counter : UInt64} :
    addU64 checks counter 1 ≠ none ↔ (checks = true → counter.toNat + 1 < 2 ^ 64) := by
  rw [Ne, addU64_eq_none_iff, not_and, show (1 : UInt64).toNat = 1 from rfl, not_le]

/-! What the transport's own monad does with a state. -/

/-- A copy whose facts are answered panics only at the end of a counter. -/
theorem copyIn_answers_iff (hbytes : source.bytes.length < 2 ^ 64)
    (hanswers : RangeAnswers T spec source destination) :
    HostStagedAdapter.copyIn T clock spec source destination adapter ≠ none ↔
      (Fits spec source destination → adapter.exceedsBudget spec.range.length
        (expectedCopyTimeNanos spec.range.length spec.direction adapter.rates) = false →
        CountersFit T clock spec adapter) := by
  have hvalid := validateIn_ok_iff hbytes hanswers
  rw [answers_iff, copyIn_wp]
  constructor
  · rintro ⟨-, -, hrun⟩ hfits hbudget hchecks
    have hstaged := (hrun (hvalid.mpr hfits)).2 hbudget
    rw [runStagedCopyIn_wp] at hstaged
    obtain ⟨hallocated, hstaged⟩ := hstaged
    have hnext : addU64 T.overflowChecks adapter.stagingPool.nextId 1 ≠ none := by
      intro hnone
      exact hallocated (by rw [StagingPool.allocateIn, hnone]; rfl)
    refine ⟨one_le_counter.mp hnext hchecks, fun hfailure htime => ?_⟩
    obtain ⟨next, hnext⟩ := Option.ne_none_iff_exists'.mp hnext
    have hpool : adapter.stagingPool.allocateIn T spec.range.length =
        some (adapter.stagingPool.allocate spec.range.length) := by
      rw [StagingPool.allocateIn, hnext]
      rfl
    have hlanded := ((hstaged _ _ hpool).2 hfailure).2 _ (hfits.sliceIn hbytes)
    have hrecorded := hlanded.2 (by omega)
    rw [recordCopyIn_wp] at hrecorded
    obtain ⟨hengine, hevent⟩ := hrecorded
    refine ⟨one_le_counter.mp hengine hchecks, ?_⟩
    obtain ⟨engine, hengine⟩ := Option.ne_none_iff_exists'.mp hengine
    exact one_le_counter.mp (hevent engine hengine).1 hchecks
  · intro hcounters
    refine ⟨?_, fun _ _ => trivial, fun hok => ⟨fun _ => trivial, fun hbudget => ?_⟩⟩
    · rw [validateIn_eq hanswers]
      nofun
    · have hfits := hvalid.mp hok
      have hroom := hcounters hfits hbudget
      rw [runStagedCopyIn_wp]
      refine ⟨fun hnone => ?_, fun staging pool _ => ⟨fun _ _ => trivial, fun hfailure => ?_⟩⟩
      · rw [StagingPool.allocateIn, Option.map_eq_none_iff] at hnone
        exact one_le_counter.mpr (fun hchecks => (hroom hchecks).1) hnone
      · refine ⟨fun hnone => ?_, fun landed _ => ⟨fun _ => trivial, fun htime => ?_⟩⟩
        · rw [hfits.sliceIn hbytes] at hnone
          cases hnone
        · have hends := fun hchecks => (hroom hchecks).2 hfailure (not_lt.mp htime)
          rw [recordCopyIn_wp]
          exact ⟨one_le_counter.mpr (fun hchecks => (hends hchecks).1), fun engine _ =>
            ⟨one_le_counter.mpr (fun hchecks => (hends hchecks).2), fun _ _ => trivial⟩⟩

theorem copyIn_lands (hbytes : source.bytes.length < 2 ^ 64) (hfits : Fits spec source destination)
    (hbudget : adapter.exceedsBudget spec.range.length
      (expectedCopyTimeNanos spec.range.length spec.direction adapter.rates) = false)
    (hfailure : adapter.simulatedFailure = none)
    (htime : clock.elapsedNanos adapter.stagingPool.allocations ≤ spec.timeoutNanos)
    (hcounters : CountersFit T clock spec adapter) :
    ∃ outcome, outcome.record = copyRecord spec destination
        (expectedCopyTimeNanos spec.range.length spec.direction adapter.rates)
        (adapter.stagingPool.allocate spec.range.length).1
        (clock.elapsedNanos adapter.stagingPool.allocations) (adapter.nextEngine + 1)
        (adapter.nextEvent + 1) ∧
      HostStagedAdapter.copyIn T clock spec source destination adapter = some (.ok outcome,
        { adapter with
          stagingPool := (adapter.stagingPool.allocate spec.range.length).2.release
            (adapter.stagingPool.allocate spec.range.length).1.id }.recorded outcome.record) := by
  have hanswers : RangeAnswers T spec source destination := .inl (by have := hfits.range; omega)
  have hok := (validateIn_ok_iff hbytes hanswers).mpr hfits
  have hwp : Call.wp False (HostStagedAdapter.copyIn T clock spec source destination)
      (fun outcome t => outcome.record = copyRecord spec destination
          (expectedCopyTimeNanos spec.range.length spec.direction adapter.rates)
          (adapter.stagingPool.allocate spec.range.length).1
          (clock.elapsedNanos adapter.stagingPool.allocations) (adapter.nextEngine + 1)
          (adapter.nextEvent + 1) ∧
        t = { adapter with
          stagingPool := (adapter.stagingPool.allocate spec.range.length).2.release
            (adapter.stagingPool.allocate spec.range.length).1.id }.recorded outcome.record)
      (fun _ _ => False) adapter := by
    rw [copyIn_wp, hok]
    refine ⟨nofun, nofun, fun _ => ⟨fun hover => ?_, fun _ => ?_⟩⟩
    · rw [hbudget] at hover
      cases hover
    rw [runStagedCopyIn_wp]
    refine ⟨fun hnone => ?_, fun staging pool hpool => ⟨fun detail hsome => ?_, fun _ => ?_⟩⟩
    · rw [StagingPool.allocateIn, Option.map_eq_none_iff] at hnone
      exact one_le_counter.mpr (fun hchecks => (hcounters hchecks).1) hnone
    · rw [hfailure] at hsome
      cases hsome
    · obtain ⟨next, -, hallocated⟩ := Option.map_eq_some_iff.mp hpool
      refine ⟨fun hnone => ?_, fun landed _ => ⟨fun hlate => by omega, fun _ => ?_⟩⟩
      · rw [hfits.sliceIn hbytes] at hnone
        cases hnone
      · have hends := fun hchecks => (hcounters hchecks).2 hfailure htime
        rw [recordCopyIn_wp, hallocated]
        refine ⟨one_le_counter.mpr (fun hchecks => (hends hchecks).1), fun engine hengine =>
          ⟨one_le_counter.mpr (fun hchecks => (hends hchecks).2), fun event hevent => ?_⟩⟩
        rw [addU64_some hengine, addU64_some hevent]
        exact ⟨rfl, rfl⟩
  obtain ⟨outcome, t, hcopied, hrecord, rfl⟩ := Call.wp_ok hwp
  exact ⟨outcome, hrecord, hcopied⟩

theorem copyIn_fails {detail : String} (hbytes : source.bytes.length < 2 ^ 64)
    (hfits : Fits spec source destination)
    (hbudget : adapter.exceedsBudget spec.range.length
      (expectedCopyTimeNanos spec.range.length spec.direction adapter.rates) = false)
    (hfailure : adapter.simulatedFailure = some detail)
    (hcounters : CountersFit T clock spec adapter) :
    HostStagedAdapter.copyIn T clock spec source destination adapter =
      some (.error (.failed spec.transferRef detail), { adapter with
        stagingPool := (adapter.stagingPool.allocate spec.range.length).2.release
          (adapter.stagingPool.allocate spec.range.length).1.id }) := by
  have hanswers : RangeAnswers T spec source destination := .inl (by have := hfits.range; omega)
  have hok := (validateIn_ok_iff hbytes hanswers).mpr hfits
  have hwp : Call.wp False (HostStagedAdapter.copyIn T clock spec source destination)
      (fun _ _ => False)
      (fun e t => e = .failed spec.transferRef detail ∧ t = { adapter with
        stagingPool := (adapter.stagingPool.allocate spec.range.length).2.release
          (adapter.stagingPool.allocate spec.range.length).1.id }) adapter := by
    rw [copyIn_wp, hok]
    refine ⟨nofun, nofun, fun _ => ⟨fun hover => ?_, fun _ => ?_⟩⟩
    · rw [hbudget] at hover
      cases hover
    rw [runStagedCopyIn_wp]
    refine ⟨fun hnone => ?_, fun staging pool hpool => ⟨fun detail' hsome => ?_, fun hnone => ?_⟩⟩
    · rw [StagingPool.allocateIn, Option.map_eq_none_iff] at hnone
      exact one_le_counter.mpr (fun hchecks => (hcounters hchecks).1) hnone
    · obtain ⟨next, -, hallocated⟩ := Option.map_eq_some_iff.mp hpool
      rw [hfailure] at hsome
      cases hsome
      rw [hallocated]
      exact ⟨rfl, rfl⟩
    · rw [hfailure] at hnone
      cases hnone
  obtain ⟨e, t, hcopied, rfl, rfl⟩ := Call.wp_error hwp
  exact hcopied

end Ranges

/-! ## The guarantee -/

/-- Validation admits exactly what fits, no copy panics, and what lands are the bytes of the
    range. -/
structure CopySafe (T : Toolchain) (clock : CopyClock) (spec : TransferSpec) (source : SourceValue)
    (destination : LogicalPartitionId) (adapter : HostStagedAdapter)
    (registry : PeerPairRegistry) : Prop where
  validated : validateBeforeCopyIn T spec source destination = some (.ok ()) ↔
    Fits spec source destination
  hostAnswers : HostStagedAdapter.copyIn T clock spec source destination adapter ≠ none
  hostBytes : ∀ outcome t,
    HostStagedAdapter.copyIn T clock spec source destination adapter = some (.ok outcome, t) →
      spec.range.offset.toNat + spec.range.length.toNat ≤ source.bytes.length ∧
      outcome.destinationBytes =
        (source.bytes.drop spec.range.offset.toNat).take spec.range.length.toNat
  peerAnswers : peerCopy T registry spec source destination ≠ none
  peerBytes : ∀ outcome, peerCopy T registry spec source destination = some (.ok outcome) →
    spec.range.offset.toNat + spec.range.length.toNat ≤ source.bytes.length ∧
    outcome.destinationBytes =
      (source.bytes.drop spec.range.offset.toNat).take spec.range.length.toNat

namespace FourBytes

def clock : CopyClock := ⟨fun _ => 0, fun _ => ""⟩

def source : SourceValue := ⟨⟨"partition-0"⟩, .f32, .dense, 1, [1, 2, 3, 4]⟩

def destination : LogicalPartitionId := ⟨"partition-1"⟩

def spec (offset length : UInt64) : TransferSpec :=
  ⟨⟨"transfer-0"⟩, ⟨"partition-0"⟩, destination, ⟨offset, length⟩, .h2d, .f32, .dense, 1,
    .hostStaged, 1000⟩

def adapter : HostStagedAdapter := .new ⟨64, 1000000⟩

def registry : PeerPairRegistry := ⟨∅⟩

end FourBytes

/-- The peer adapter answers whenever validation does, never with a copy. -/
theorem peerCopy_refuses {T : Toolchain} {registry : PeerPairRegistry} {spec : TransferSpec}
    {source : SourceValue} {destination : LogicalPartitionId} {outcome : TransferOutcome} :
    peerCopy T registry spec source destination ≠ some (.ok outcome) := by
  unfold peerCopy
  cases validateBeforeCopyIn T spec source destination with
  | none => nofun
  | some validated =>
    cases validated with
    | error rejection => nofun
    | ok _ =>
      simp only [Option.map_some]
      split_ifs <;> nofun

/-- Copies are safe exactly for ranges whose end is told apart from a wrapped one, while the
    counters last. -/
theorem copySafe_iff (T : Toolchain) (clock : CopyClock) (spec : TransferSpec)
    (source : SourceValue) (destination : LogicalPartitionId) (adapter : HostStagedAdapter)
    (registry : PeerPairRegistry) (hbytes : source.bytes.length < 2 ^ 64) :
    CopySafe T clock spec source destination adapter registry ↔
      RangeAnswers T spec source destination ∧
      (Fits spec source destination → adapter.exceedsBudget spec.range.length
        (expectedCopyTimeNanos spec.range.length spec.direction adapter.rates) = false →
        CountersFit T clock spec adapter) := by
  constructor
  · intro h
    have hanswers : RangeAnswers T spec source destination := by
      by_contra hnot
      simp only [RangeAnswers, not_or, not_and, not_not, not_lt] at hnot
      obtain ⟨hover, hdtype, hlayout, hrest⟩ := hnot
      cases hchecks : T.overflowChecks with
      | true =>
        have hend : spec.range.endIn T = none := addU64_eq_none_iff.mpr ⟨hchecks, hover⟩
        have hnone : validateBeforeCopyIn T spec source destination = none := by
          simp [validateBeforeCopyIn, hdtype, hlayout, hend]
        apply h.peerAnswers
        rw [peerCopy, hnone]
        rfl
      | false =>
        obtain ⟨hend, hgeneration, howner, hdestination⟩ := hrest hchecks
        have hvalid : validateBeforeCopyIn T spec source destination = some (.ok ()) := by
          have hexact : spec.range.endIn T = some spec.range.endOffset := by
            rw [ByteRange.endIn, hchecks, addU64_unchecked]
            rfl
          rw [validateIn_of_end hexact, validateBeforeCopy_ok_iff.mpr
            ⟨hdtype, hlayout, hend, hgeneration, howner, hdestination⟩]
        have hrange := (h.validated.mp hvalid).range
        omega
    exact ⟨hanswers, (copyIn_answers_iff hbytes hanswers).mp h.hostAnswers⟩
  · rintro ⟨hanswers, hcounters⟩
    have hvalid := validateIn_ok_iff hbytes hanswers
    refine ⟨hvalid, (copyIn_answers_iff hbytes hanswers).mpr hcounters, ?_, ?_,
      fun outcome hcopied => (peerCopy_refuses hcopied).elim⟩
    · intro outcome t hcopied
      have hspec : Call.wp True (HostStagedAdapter.copyIn T clock spec source destination)
          (fun outcome _ => Fits spec source destination ∧ outcome.destinationBytes =
            (source.bytes.drop spec.range.offset.toNat).take spec.range.length.toNat)
          (fun _ _ => True) adapter := by
        rw [copyIn_wp]
        refine ⟨fun _ => trivial, fun _ _ => trivial, fun hok => ⟨fun _ => trivial, fun _ => ?_⟩⟩
        have hfits := hvalid.mp hok
        rw [runStagedCopyIn_wp]
        refine ⟨fun _ => trivial, fun _ _ _ => ⟨fun _ _ => trivial, fun _ =>
          ⟨fun _ => trivial, fun landed hlanded => ⟨fun _ => trivial, fun _ => ?_⟩⟩⟩⟩
        rw [hfits.sliceIn hbytes, Option.some.injEq] at hlanded
        rw [recordCopyIn_wp]
        exact ⟨fun _ => trivial, fun _ _ => ⟨fun _ => trivial, fun _ _ => ⟨hfits, hlanded.symm⟩⟩⟩
      obtain ⟨hfits, hbytes⟩ := Call.wp_of_ok hspec hcopied
      exact ⟨hfits.range, hbytes⟩
    · rw [peerCopy, validateIn_eq hanswers]
      nofun

open FourBytes in
theorem two_of_four_bytes :
    CopySafe .dev clock (spec 1 2) source destination adapter registry := by
  rw [copySafe_iff _ _ _ _ _ _ _ (by decide)]
  refine ⟨.inl (by decide), fun _ _ _ => ⟨by decide, fun _ _ => by decide⟩⟩

open FourBytes in
/-- Four bytes from two before the end of the address space.  With overflow checks validation
    itself panics; without them it admits the range, and the host-staged copy panics. -/
theorem wrapped_range_not_safe :
    validateBeforeCopyIn .dev (spec (UInt64.ofNat (2 ^ 64 - 2)) 4) source destination = none ∧
      validateBeforeCopyIn .release (spec (UInt64.ofNat (2 ^ 64 - 2)) 4) source destination =
        some (.ok ()) ∧
      HostStagedAdapter.copyIn .release clock (spec (UInt64.ofNat (2 ^ 64 - 2)) 4) source
        destination adapter = none ∧
      ¬ CopySafe .dev clock (spec (UInt64.ofNat (2 ^ 64 - 2)) 4) source destination adapter
        registry ∧
      ¬ CopySafe .release clock (spec (UInt64.ofNat (2 ^ 64 - 2)) 4) source destination adapter
        registry := by
  have hdev : validateBeforeCopyIn .dev (spec (UInt64.ofNat (2 ^ 64 - 2)) 4) source destination =
      none := by decide
  have hcopy : HostStagedAdapter.copyIn .release clock (spec (UInt64.ofNat (2 ^ 64 - 2)) 4) source
      destination adapter = none := by rfl
  refine ⟨hdev, by decide, hcopy, fun h => ?_, fun h => h.hostAnswers hcopy⟩
  apply h.peerAnswers
  rw [peerCopy, hdev]
  rfl

end FaberHosts.Coordinator
