import FaberHosts.Coordinator.RangedCopy

/-!
# The transfer budget

`transport.rs`: what the host-staged adapter charges for a copy at the measured
rates, and its accounts over any sequence of copies, fixture measurements and
uses of the two injection seams.
-/

namespace FaberHosts.Coordinator
open FaberHosts.Lib FaberHosts.Transaction

/-! ## Measured rates -/

def MeasuredRates.withRate (rates : MeasuredRates) (direction : TransferDirectionMirror)
    (rate : UInt64) : MeasuredRates :=
  match direction with
  | .h2d => { rates with h2dBytesPerSec := rate }
  | .d2h => { rates with d2hBytesPerSec := rate }
  | .bidi => { rates with bidiBytesPerSec := rate }

/-- The adapter with its observations and the delay of its copies.  A delay shows in the
    clock only. -/
structure InstrumentedAdapter extends HostStagedAdapter where
  rateObservations : List RateObservation
  simulatedDelay : Nat
  deriving DecidableEq, Repr

namespace InstrumentedAdapter

def new (declaredBudget : TransferBudget) : InstrumentedAdapter :=
  { HostStagedAdapter.new declaredBudget with
    rateObservations := []
    simulatedDelay := 0 }

/-- Re-budget one direction at the measured rate. -/
def recordFixtureMeasurement (adapter : InstrumentedAdapter) (direction : TransferDirectionMirror)
    (bytes elapsedNanos : UInt64) : InstrumentedAdapter :=
  if elapsedNanos = 0 then adapter
  else
    let measured := saturatingMul bytes 1000000000 / elapsedNanos
    { adapter with
      rateObservations :=
        adapter.rateObservations ++ [⟨direction, bytes, elapsedNanos, measured⟩]
      rates := adapter.rates.withRate direction measured }

end InstrumentedAdapter

/-- `L(S)`: the fixed latency of a copy of that size. -/
def fixedLatencyNanos (bytes : UInt64) : UInt64 :=
  if bytes ≤ t1SmallCopyBytes then t1SmallCopyLatencyNanos else t1LargeCopyLatencyNanos

section Rates

variable {bytes more rate faster : UInt64} {direction : TransferDirectionMirror}
  {rates : MeasuredRates}

@[simp] theorem rateFor_withRate : (rates.withRate direction rate).rateFor direction = rate := by
  cases direction <;> rfl

theorem toNat_saturatingMul (a b : UInt64) :
    (saturatingMul a b).toNat = min (a.toNat * b.toNat) (2 ^ 64 - 1) := by
  unfold saturatingMul
  split_ifs with hfit
  · rw [UInt64.toNat_mul, Nat.mod_eq_of_lt hfit]
    omega
  · rw [UInt64.toNat_ofNat_of_lt' (by decide)]
    omega

theorem fixedLatency_le (bytes : UInt64) : (fixedLatencyNanos bytes).toNat ≤ 5000 := by
  unfold fixedLatencyNanos
  split_ifs <;> decide

theorem fixedLatency_mono (h : bytes ≤ more) :
    (fixedLatencyNanos bytes).toNat ≤ (fixedLatencyNanos more).toNat := by
  unfold fixedLatencyNanos
  split_ifs with hsmall hlarge
  · exact le_rfl
  · decide
  · rename_i hsmall'
    exact (hsmall (UInt64.le_trans h hsmall')).elim
  · exact le_rfl

/-- What a copy is charged: the latency and the capped product over the rate. -/
theorem toNat_expectedCopyTime (bytes : UInt64) (direction : TransferDirectionMirror)
    (rates : MeasuredRates) :
    (expectedCopyTimeNanos bytes direction rates).toNat =
      min ((fixedLatencyNanos bytes).toNat +
        min (bytes.toNat * 1000000000) (2 ^ 64 - 1) / (rates.rateFor direction).toNat)
        (2 ^ 64 - 1) := by
  unfold expectedCopyTimeNanos fixedLatencyNanos
  simp only
  rw [toNat_saturatingAdd]
  split_ifs with hsmall hzero
  · simp [hzero]
  · rw [UInt64.toNat_div, toNat_saturatingMul]
    rfl
  · simp_all
  · rw [UInt64.toNat_div, toNat_saturatingMul]
    rfl

theorem expectedCopyTime_mono (h : bytes ≤ more) :
    expectedCopyTimeNanos bytes direction rates ≤ expectedCopyTimeNanos more direction rates := by
  rw [UInt64.le_iff_toNat_le, toNat_expectedCopyTime, toNat_expectedCopyTime]
  have hfixed := fixedLatency_mono h
  have hbytes : bytes.toNat * 1000000000 ≤ more.toNat * 1000000000 :=
    Nat.mul_le_mul_right _ (UInt64.le_iff_toNat_le.mp h)
  have hquotient : min (bytes.toNat * 1000000000) (2 ^ 64 - 1) / (rates.rateFor direction).toNat ≤
      min (more.toNat * 1000000000) (2 ^ 64 - 1) / (rates.rateFor direction).toNat :=
    Nat.div_le_div_right (min_le_min_right _ hbytes)
  omega

theorem expectedCopyTime_antitone (hrate : rates.rateFor direction ≠ 0)
    (h : rates.rateFor direction ≤ faster) :
    expectedCopyTimeNanos bytes direction (rates.withRate direction faster) ≤
      expectedCopyTimeNanos bytes direction rates := by
  rw [UInt64.le_iff_toNat_le, toNat_expectedCopyTime, toNat_expectedCopyTime, rateFor_withRate]
  have hpos : 0 < (rates.rateFor direction).toNat :=
    Nat.pos_of_ne_zero (fun hzero => hrate (UInt64.toNat_inj.mp hzero))
  have hquotient := @Nat.div_le_div_left _ _ (min (bytes.toNat * 1000000000) (2 ^ 64 - 1))
    (UInt64.le_iff_toNat_le.mp h) hpos
  omega

/-- The charge of a copy is not below `L(S) + S / B`, grows with the copy and shrinks with the
    rate, and no rate makes the transfer itself free. -/
structure ChargesEnough (bytes : UInt64) (direction : TransferDirectionMirror)
    (rates : MeasuredRates) : Prop where
  atLeast : min ((fixedLatencyNanos bytes).toNat +
      bytes.toNat * 1000000000 / (rates.rateFor direction).toNat) (2 ^ 64 - 1) ≤
    (expectedCopyTimeNanos bytes direction rates).toNat
  monotone : ∀ more, bytes ≤ more →
    expectedCopyTimeNanos bytes direction rates ≤ expectedCopyTimeNanos more direction rates
  antitone : ∀ faster, rates.rateFor direction ≤ faster →
    expectedCopyTimeNanos bytes direction (rates.withRate direction faster) ≤
      expectedCopyTimeNanos bytes direction rates
  notFree : rates.rateFor direction = 0 →
    (fixedLatencyNanos bytes).toNat < (expectedCopyTimeNanos bytes direction rates).toNat

/-- The rate is not zero, and capping the product at 64 bits loses nothing of the quotient. -/
def RateCharges (bytes rate : UInt64) : Prop :=
  rate ≠ 0 ∧ (bytes.toNat * 1000000000 < 2 ^ 64 ∨ rate = 1 ∨
    bytes.toNat * 1000000000 / rate.toNat = (2 ^ 64 - 1) / rate.toNat)

theorem chargesEnough_iff (bytes : UInt64) (direction : TransferDirectionMirror)
    (rates : MeasuredRates) :
    ChargesEnough bytes direction rates ↔ RateCharges bytes (rates.rateFor direction) := by
  have hcharge := toNat_expectedCopyTime bytes direction rates
  have hfixed := fixedLatency_le bytes
  constructor
  · intro h
    have hrate : rates.rateFor direction ≠ 0 := by
      intro hzero
      have hfree := h.notFree hzero
      rw [hcharge, hzero] at hfree
      simp only [UInt64.toNat_zero, Nat.div_zero, Nat.add_zero] at hfree
      omega
    refine ⟨hrate, ?_⟩
    by_cases hfit : bytes.toNat * 1000000000 < 2 ^ 64
    · exact .inl hfit
    by_cases hone : rates.rateFor direction = 1
    · exact .inr (.inl hone)
    refine .inr (.inr ?_)
    have htwo : 2 ≤ (rates.rateFor direction).toNat := by
      have hne : (rates.rateFor direction).toNat ≠ 0 := fun hn => hrate (UInt64.toNat_inj.mp hn)
      have hne' : (rates.rateFor direction).toNat ≠ 1 := fun hn => hone (UInt64.toNat_inj.mp hn)
      omega
    have hcapped : min (bytes.toNat * 1000000000) (2 ^ 64 - 1) = 2 ^ 64 - 1 := by omega
    have hsmall : (2 ^ 64 - 1) / (rates.rateFor direction).toNat ≤ (2 ^ 64 - 1) / 2 :=
      Nat.div_le_div_left htwo (by decide)
    have hlower : (2 ^ 64 - 1) / (rates.rateFor direction).toNat ≤
        bytes.toNat * 1000000000 / (rates.rateFor direction).toNat :=
      Nat.div_le_div_right (by omega)
    have hleast := h.atLeast
    rw [hcharge, hcapped] at hleast
    omega
  · rintro ⟨hrate, hexact⟩
    refine ⟨?_, fun more hmore => expectedCopyTime_mono hmore,
      fun faster hfaster => expectedCopyTime_antitone hrate hfaster, fun hzero => (hrate hzero).elim⟩
    rw [hcharge]
    rcases hexact with hfit | hone | hsame
    · rw [Nat.min_eq_left (by omega : bytes.toNat * 1000000000 ≤ 2 ^ 64 - 1)]
    · rw [hone, UInt64.toNat_one, Nat.div_one, Nat.div_one]
      omega
    · by_cases hfit : bytes.toNat * 1000000000 < 2 ^ 64
      · rw [Nat.min_eq_left (by omega : bytes.toNat * 1000000000 ≤ 2 ^ 64 - 1)]
      · rw [Nat.min_eq_right (by omega : 2 ^ 64 - 1 ≤ bytes.toNat * 1000000000), hsame]

end Rates

/-- The rates after a sequence of fixture measurements: direction, bytes and elapsed time. -/
def ratesAfter (measurements : List (TransferDirectionMirror × UInt64 × UInt64)) : MeasuredRates :=
  (measurements.foldl (fun (adapter : InstrumentedAdapter) measured =>
    adapter.recordFixtureMeasurement measured.1 measured.2.1 measured.2.2) (.new ⟨0, 0⟩)).rates

/-- From any measurements on, the charge is enough exactly at rates above zero and at sizes whose
    nanosecond product keeps its quotient. -/
theorem measured_chargesEnough_iff
    (measurements : List (TransferDirectionMirror × UInt64 × UInt64)) (bytes : UInt64)
    (direction : TransferDirectionMirror) :
    ChargesEnough bytes direction (ratesAfter measurements) ↔
      RateCharges bytes ((ratesAfter measurements).rateFor direction) := by
  exact chargesEnough_iff bytes direction (ratesAfter measurements)

/-- One byte in two seconds measures as a rate of zero, at which a megabyte is free; and at the
    first rates a terabyte is charged two seconds instead of two minutes. -/
theorem undercharged :
    (ratesAfter [(.h2d, 1, 2000000000)]).rateFor .h2d = 0 ∧
      expectedCopyTimeNanos 1048576 .h2d (ratesAfter [(.h2d, 1, 2000000000)]) = 5000 ∧
      ¬ ChargesEnough 1048576 .h2d (ratesAfter [(.h2d, 1, 2000000000)]) ∧
      expectedCopyTimeNanos 1099511627776 .h2d (ratesAfter []) = 1882325823 ∧
      5000 + 1099511627776 * 1000000000 / 9800000000 = 112195069058 ∧
      ¬ ChargesEnough 1099511627776 .h2d (ratesAfter []) := by
  refine ⟨by decide, by decide, ?_, by decide, by decide, ?_⟩
  · rw [chargesEnough_iff, RateCharges]
    decide
  · rw [chargesEnough_iff, RateCharges]
    decide

/-! ## Accounts -/

/-- One call on the adapter, a copy with the clock it reads. -/
inductive AdapterOp where
  | copy (clock : CopyClock) (spec : TransferSpec) (source : SourceValue)
      (destination : LogicalPartitionId)
  | recordFixtureMeasurement (direction : TransferDirectionMirror) (bytes elapsedNanos : UInt64)
  | setSimulatedDelay (delay : Nat)
  | setSimulatedFailure (detail : Option String)

namespace InstrumentedAdapter

/-- One call; whatever a copy answers, the adapter goes on. -/
def step (T : Toolchain) (adapter : InstrumentedAdapter) : AdapterOp → MayPanic InstrumentedAdapter
  | .copy clock spec source destination =>
    (HostStagedAdapter.copyIn T clock spec source destination adapter.toHostStagedAdapter).map
      (fun answered => { adapter with toHostStagedAdapter := answered.2 })
  | .recordFixtureMeasurement direction bytes elapsedNanos =>
    some (adapter.recordFixtureMeasurement direction bytes elapsedNanos)
  | .setSimulatedDelay delay => some { adapter with simulatedDelay := delay }
  | .setSimulatedFailure detail => some { adapter with simulatedFailure := detail }

def run (T : Toolchain) (adapter : InstrumentedAdapter) (ops : List AdapterOp) :
    MayPanic InstrumentedAdapter :=
  ops.foldlM (step T) adapter

end InstrumentedAdapter

/-- The copies among the calls. -/
def copies : List AdapterOp → Nat
  | [] => 0
  | .copy .. :: ops => copies ops + 1
  | _ :: ops => copies ops

/-- What a copy leaves of the adapter: nothing but its staging counters change, or a record is
    made and charged within the budget. -/
inductive CopyStep (T : Toolchain) (adapter : HostStagedAdapter) :
    Except TransferError TransferOutcome → HostStagedAdapter → Prop where
  | refused (e : TransferError) : CopyStep T adapter (.error e) adapter
  | staged (e : TransferError) (bytes : UInt64) (staging : StagingBufferRecord)
      (pool : StagingPool) (h : adapter.stagingPool.allocateIn T bytes = some (staging, pool)) :
      CopyStep T adapter (.error e) { adapter with stagingPool := pool.release staging.id }
  | recorded (outcome : TransferOutcome) (pool : StagingPool)
      (h : adapter.stagingPool.allocateIn T outcome.record.bytes =
        some (outcome.record.staging, pool))
      (engine : addU64 T.overflowChecks adapter.nextEngine 1 = some outcome.record.engine.id)
      (event : addU64 T.overflowChecks adapter.nextEvent 1 = some outcome.record.event.id)
      (budget : adapter.exceedsBudget outcome.record.bytes outcome.record.expectedNanos = false) :
      CopyStep T adapter (.ok outcome)
        ({ adapter with stagingPool := pool.release outcome.record.staging.id }.recorded
          outcome.record)

section Steps

variable {T : Toolchain} {adapter t : HostStagedAdapter} {answer : Except TransferError TransferOutcome}

theorem copyIn_step {clock : CopyClock} {spec : TransferSpec} {source : SourceValue}
    {destination : LogicalPartitionId}
    (h : HostStagedAdapter.copyIn T clock spec source destination adapter = some (answer, t)) :
    CopyStep T adapter answer t := by
  have hspec : Call.wp True (HostStagedAdapter.copyIn T clock spec source destination)
      (fun outcome t => CopyStep T adapter (.ok outcome) t)
      (fun e t => CopyStep T adapter (.error e) t) adapter := by
    rw [copyIn_wp]
    refine ⟨fun _ => trivial, fun rejection _ => .refused _, fun _ => ⟨fun _ => .refused _,
      fun hbudget => ?_⟩⟩
    rw [runStagedCopyIn_wp]
    refine ⟨fun _ => trivial, fun staging pool hpool => ⟨fun detail _ => .staged _ _ _ _ hpool,
      fun _ => ⟨fun _ => trivial, fun landed _ => ⟨fun _ => .staged _ _ _ _ hpool,
        fun _ => ?_⟩⟩⟩⟩
    rw [recordCopyIn_wp]
    exact ⟨fun _ => trivial, fun engine hengine => ⟨fun _ => trivial, fun event hevent =>
      .recorded ⟨copyRecord _ _ _ staging _ engine event, landed⟩ pool hpool hengine hevent
        hbudget⟩⟩
  cases answer with
  | ok outcome =>
    have hok := Call.wp_of_ok hspec h
    exact hok
  | error e =>
    have herr := Call.wp_of_error hspec h
    exact herr

theorem CopyStep.error_unchanged {e : TransferError} (h : CopyStep T adapter (.error e) t) :
    t.usedBytes = adapter.usedBytes ∧ t.usedTimeNanos = adapter.usedTimeNanos ∧
      t.records = adapter.records := by
  cases h with
  | refused => exact ⟨rfl, rfl, rfl⟩
  | staged => exact ⟨rfl, rfl, rfl⟩

/-- What the adapter has charged is what its records say, capped, and within the budget. -/
structure Accounts (adapter : HostStagedAdapter) : Prop where
  bytes : adapter.usedBytes.toNat = min (adapter.records.map (·.bytes.toNat)).sum (2 ^ 64 - 1)
  time : adapter.usedTimeNanos.toNat =
    min (adapter.records.map (·.expectedNanos.toNat)).sum (2 ^ 64 - 1)
  bytesWithin : adapter.usedBytes.toNat ≤ adapter.declaredBudget.bytes.toNat
  timeWithin : adapter.usedTimeNanos.toNat ≤ adapter.declaredBudget.timeNanos.toNat
  idle : adapter.stagingPool.active = []

/-- Ids in ascending order, up to the counter they come from. -/
def Ascending (ids : List Nat) (counter : UInt64) : Prop :=
  ids.Pairwise (· < ·) ∧ ∀ id ∈ ids, id ≤ counter.toNat

theorem Ascending.mono {ids : List Nat} {counter next : UInt64} (h : Ascending ids counter)
    (hle : counter.toNat ≤ next.toNat) : Ascending ids next :=
  ⟨h.1, fun id hid => (h.2 id hid).trans hle⟩

theorem Ascending.snoc {ids : List Nat} {counter next : UInt64} (h : Ascending ids counter)
    (hlt : counter.toNat < next.toNat) : Ascending (ids ++ [next.toNat]) next := by
  refine ⟨?_, ?_⟩
  · apply List.pairwise_append.mpr
    refine ⟨h.1, List.pairwise_singleton _ _, fun id hid last hlast => ?_⟩
    rw [List.mem_singleton] at hlast
    have := h.2 id hid
    omega
  · intro id hid
    rcases List.mem_append.mp hid with hid | hid
    · have := h.2 id hid
      omega
    · rw [List.mem_singleton] at hid
      omega

/-- The ids of the records ascend, and after `n` copies no counter is above `n` unless additions
    are checked. -/
structure Labels (T : Toolchain) (n : Nat) (adapter : HostStagedAdapter) : Prop where
  staging : Ascending (adapter.records.map (·.staging.id.id.toNat)) adapter.stagingPool.nextId
  engine : Ascending (adapter.records.map (·.engine.id.toNat)) adapter.nextEngine
  event : Ascending (adapter.records.map (·.event.id.toNat)) adapter.nextEvent
  counters : T.overflowChecks = true ∨ adapter.stagingPool.nextId.toNat ≤ n ∧
    adapter.nextEngine.toNat ≤ n ∧ adapter.nextEvent.toNat ≤ n

theorem mem_active_allocate {pool released : StagingPool} {bytes : UInt64}
    {staging : StagingBufferRecord} (hidle : pool.active = [])
    (h : pool.allocateIn T bytes = some (staging, released)) :
    (released.release staging.id).active = [] ∧
      (released.release staging.id).nextId = staging.id.id ∧
      addU64 T.overflowChecks pool.nextId 1 = some staging.id.id := by
  obtain ⟨next, hnext, hallocated⟩ := Option.map_eq_some_iff.mp h
  cases hallocated
  rw [addU64_some hnext] at hnext
  refine ⟨?_, rfl, hnext⟩
  simp [StagingPool.release, hidle]

theorem CopyStep.accounts (h : CopyStep T adapter answer t) (hadapter : Accounts adapter) :
    Accounts t ∧ t.declaredBudget = adapter.declaredBudget := by
  cases h with
  | refused e => exact ⟨hadapter, rfl⟩
  | staged e bytes staging pool hpool =>
    have hreleased := mem_active_allocate hadapter.idle hpool
    exact ⟨⟨hadapter.bytes, hadapter.time, hadapter.bytesWithin, hadapter.timeWithin,
      hreleased.1⟩, rfl⟩
  | recorded outcome pool hpool hengine hevent hbudget =>
    have hreleased := mem_active_allocate hadapter.idle hpool
    have hbytes := hadapter.bytes
    have htime := hadapter.time
    simp only [HostStagedAdapter.exceedsBudget, decide_eq_false_iff_not, not_or,
      UInt64.lt_iff_toNat_lt, not_lt] at hbudget
    refine ⟨⟨?_, ?_, hbudget.1, hbudget.2, hreleased.1⟩, rfl⟩
    · show (saturatingAdd adapter.usedBytes outcome.record.bytes).toNat = _
      rw [toNat_saturatingAdd, HostStagedAdapter.recorded, List.map_append, List.sum_append]
      simp only [List.map_cons, List.map_nil, List.sum_cons, List.sum_nil]
      omega
    · show (saturatingAdd adapter.usedTimeNanos outcome.record.expectedNanos).toNat = _
      rw [toNat_saturatingAdd, HostStagedAdapter.recorded, List.map_append, List.sum_append]
      simp only [List.map_cons, List.map_nil, List.sum_cons, List.sum_nil]
      omega

theorem counter_step {n : Nat} {counter next : UInt64}
    (h : addU64 T.overflowChecks counter 1 = some next)
    (hroom : T.overflowChecks = true ∨ n + 1 < 2 ^ 64)
    (hle : T.overflowChecks = true ∨ counter.toNat ≤ n) : next.toNat = counter.toNat + 1 := by
  have hfit : counter.toNat + 1 < 2 ^ 64 := by
    rcases hroom with hchecks | hroom
    · rw [hchecks] at h
      exact (addU64_checked_some h).1
    · rcases hle with hchecks | hle
      · rw [hchecks] at h
        exact (addU64_checked_some h).1
      · omega
  rw [addU64_some h, toNat_add_of_fits hfit]
  rfl

theorem CopyStep.labels {n : Nat} (h : CopyStep T adapter answer t) (hidle : Accounts adapter)
    (hadapter : Labels T n adapter) (hroom : T.overflowChecks = true ∨ n + 1 < 2 ^ 64) :
    Labels T (n + 1) t := by
  have hcounters := hadapter.counters
  cases h with
  | refused e =>
    refine ⟨hadapter.staging, hadapter.engine, hadapter.event, ?_⟩
    rcases hcounters with hchecks | hcounters
    · exact .inl hchecks
    · exact .inr (by omega)
  | staged e bytes staging pool hpool =>
    obtain ⟨-, hnext, hallocated⟩ := mem_active_allocate hidle.idle hpool
    have hstaging := counter_step hallocated hroom (hcounters.imp_right And.left)
    rw [← hnext] at hstaging
    refine ⟨hadapter.staging.mono ?_, hadapter.engine, hadapter.event, ?_⟩
    · show adapter.stagingPool.nextId.toNat ≤ (pool.release staging.id).nextId.toNat
      omega
    · rcases hcounters with hchecks | hcounters
      · exact .inl hchecks
      · refine .inr ⟨?_, Nat.le_succ_of_le hcounters.2.1, Nat.le_succ_of_le hcounters.2.2⟩
        show (pool.release staging.id).nextId.toNat ≤ n + 1
        omega
  | recorded outcome pool hpool hengine hevent hbudget =>
    obtain ⟨-, hnext, hallocated⟩ := mem_active_allocate hidle.idle hpool
    have hstaging := counter_step hallocated hroom (hcounters.imp_right And.left)
    have hengine := counter_step hengine hroom (hcounters.imp_right (·.2.1))
    have hevent := counter_step hevent hroom (hcounters.imp_right (·.2.2))
    refine ⟨?_, ?_, ?_, ?_⟩
    · show Ascending (List.map _ (adapter.records ++ [outcome.record]))
        (pool.release outcome.record.staging.id).nextId
      rw [List.map_append, hnext]
      exact hadapter.staging.snoc (by omega)
    · show Ascending (List.map _ (adapter.records ++ [outcome.record])) outcome.record.engine.id
      rw [List.map_append]
      exact hadapter.engine.snoc (by omega)
    · show Ascending (List.map _ (adapter.records ++ [outcome.record])) outcome.record.event.id
      rw [List.map_append]
      exact hadapter.event.snoc (by omega)
    · rcases hcounters with hchecks | hcounters
      · exact .inl hchecks
      · refine .inr ⟨?_, ?_, ?_⟩
        · show (pool.release outcome.record.staging.id).nextId.toNat ≤ n + 1
          rw [hnext]
          omega
        · show outcome.record.engine.id.toNat ≤ n + 1
          omega
        · show outcome.record.event.id.toNat ≤ n + 1
          omega

end Steps

/-! ## Runs -/

section Runs

variable {T : Toolchain} {adapter ended : InstrumentedAdapter}

theorem step_accounts {op : AdapterOp} {n : Nat} (h : adapter.step T op = some ended)
    (hadapter : Accounts adapter.toHostStagedAdapter) :
    Accounts ended.toHostStagedAdapter ∧ ended.declaredBudget = adapter.declaredBudget ∧
      (Labels T n adapter.toHostStagedAdapter →
        (T.overflowChecks = true ∨ n + copies [op] < 2 ^ 64) →
        Labels T (n + copies [op]) ended.toHostStagedAdapter) := by
  cases op with
  | copy clock spec source destination =>
    obtain ⟨⟨answer, t⟩, hcopied, rfl⟩ := Option.map_eq_some_iff.mp h
    have hstep := copyIn_step hcopied
    obtain ⟨haccounts, hbudget⟩ := hstep.accounts hadapter
    exact ⟨haccounts, hbudget, fun hlabels hroom => hstep.labels hadapter hlabels hroom⟩
  | recordFixtureMeasurement direction bytes elapsedNanos =>
    cases h
    unfold InstrumentedAdapter.recordFixtureMeasurement
    split_ifs
    · exact ⟨hadapter, rfl, fun hlabels _ => hlabels⟩
    · exact ⟨⟨hadapter.bytes, hadapter.time, hadapter.bytesWithin, hadapter.timeWithin,
        hadapter.idle⟩, rfl, fun hlabels _ => ⟨hlabels.staging, hlabels.engine, hlabels.event,
        hlabels.counters⟩⟩
  | setSimulatedDelay delay =>
    cases h
    exact ⟨hadapter, rfl, fun hlabels _ => hlabels⟩
  | setSimulatedFailure detail =>
    cases h
    exact ⟨⟨hadapter.bytes, hadapter.time, hadapter.bytesWithin, hadapter.timeWithin,
      hadapter.idle⟩, rfl, fun hlabels _ => ⟨hlabels.staging, hlabels.engine, hlabels.event,
      hlabels.counters⟩⟩

theorem run_cons {op : AdapterOp} {ops : List AdapterOp} {next : InstrumentedAdapter}
    (h : adapter.step T op = some next) : adapter.run T (op :: ops) = next.run T ops := by
  rw [InstrumentedAdapter.run, List.foldlM_cons, h]
  rfl

theorem run_append {ops ops' : List AdapterOp} {next : InstrumentedAdapter}
    (h : adapter.run T ops = some next) : adapter.run T (ops ++ ops') = next.run T ops' := by
  rw [InstrumentedAdapter.run] at h ⊢
  rw [List.foldlM_append, h]
  rfl

theorem copies_cons (op : AdapterOp) (ops : List AdapterOp) :
    copies (op :: ops) = copies [op] + copies ops := by
  cases op <;> simp [copies, Nat.add_comm]

theorem run_accounts {ops : List AdapterOp} {n : Nat} (h : adapter.run T ops = some ended)
    (hadapter : Accounts adapter.toHostStagedAdapter) :
    Accounts ended.toHostStagedAdapter ∧ ended.declaredBudget = adapter.declaredBudget ∧
      (Labels T n adapter.toHostStagedAdapter →
        (T.overflowChecks = true ∨ n + copies ops < 2 ^ 64) →
        Labels T (n + copies ops) ended.toHostStagedAdapter) := by
  induction ops generalizing adapter n with
  | nil =>
    cases h
    exact ⟨hadapter, rfl, fun hlabels _ => hlabels⟩
  | cons op ops ih =>
    obtain ⟨next, hstep, hrest⟩ := Option.bind_eq_some_iff.mp h
    obtain ⟨haccounts, hbudget, hlabels⟩ := @step_accounts _ _ _ _ n hstep hadapter
    obtain ⟨haccounts', hbudget', hlabels'⟩ := @ih _ (n + copies [op]) hrest haccounts
    refine ⟨haccounts', hbudget'.trans hbudget, fun hstart hroom => ?_⟩
    rw [copies_cons, ← Nat.add_assoc] at hroom ⊢
    refine hlabels' (hlabels hstart ?_) hroom
    rcases hroom with hchecks | hroom
    · exact .inl hchecks
    · exact .inr (by omega)

theorem Ascending.nodup {α : Type} {ids : List α} {value : α → Nat} {counter : UInt64}
    (h : Ascending (ids.map value) counter) : ids.Nodup := by
  have hvalues : (ids.map value).Nodup := h.1.imp (fun hlt => Nat.ne_of_lt hlt)
  exact hvalues.of_map value

end Runs

/-- The accounts over any calls: what is charged is the capped sum of the records and within the
    budget, nothing stays staged, labels repeat only once a counter wraps, and a copy that fails
    changes no account. -/
theorem run_keeps_accounts (T : Toolchain) (budget : TransferBudget) (ops : List AdapterOp)
    {adapter : InstrumentedAdapter}
    (h : (InstrumentedAdapter.new budget).run T ops = some adapter) :
    (adapter.usedBytes.toNat = min (adapter.records.map (·.bytes.toNat)).sum (2 ^ 64 - 1) ∧
      adapter.usedTimeNanos.toNat =
        min (adapter.records.map (·.expectedNanos.toNat)).sum (2 ^ 64 - 1)) ∧
    (adapter.usedBytes.toNat ≤ budget.bytes.toNat ∧
      adapter.usedTimeNanos.toNat ≤ budget.timeNanos.toNat) ∧
    adapter.stagingPool.active = [] ∧
    (T.overflowChecks = true ∨ copies ops < 2 ^ 64 →
      (adapter.records.map (·.staging.id)).Nodup ∧ (adapter.records.map (·.engine)).Nodup ∧
        (adapter.records.map (·.event)).Nodup) ∧
    ∀ clock spec source destination e t,
      HostStagedAdapter.copyIn T clock spec source destination adapter.toHostStagedAdapter =
        some (.error e, t) →
      t.usedBytes = adapter.usedBytes ∧ t.usedTimeNanos = adapter.usedTimeNanos ∧
        t.records = adapter.records := by
  have hstart : Accounts (InstrumentedAdapter.new budget).toHostStagedAdapter :=
    ⟨rfl, rfl, Nat.zero_le _, Nat.zero_le _, rfl⟩
  obtain ⟨haccounts, hbudget, hlabels⟩ := @run_accounts T _ _ _ 0 h hstart
  have hnew : (InstrumentedAdapter.new budget).declaredBudget = budget := rfl
  rw [hnew] at hbudget
  refine ⟨⟨haccounts.bytes, haccounts.time⟩, ?_, haccounts.idle, fun hroom => ?_, ?_⟩
  · rw [← hbudget]
    exact ⟨haccounts.bytesWithin, haccounts.timeWithin⟩
  · have hnone : Ascending [] 0 := ⟨List.Pairwise.nil, nofun⟩
    have hends := hlabels ⟨hnone, hnone, hnone, .inr ⟨le_rfl, le_rfl, le_rfl⟩⟩ (by simpa using hroom)
    refine ⟨?_, ?_, ?_⟩
    · apply @Ascending.nodup _ _ (·.id.toNat) adapter.stagingPool.nextId
      rw [List.map_map]
      exact hends.staging
    · apply @Ascending.nodup _ _ (·.id.toNat) adapter.nextEngine
      rw [List.map_map]
      exact hends.engine
    · apply @Ascending.nodup _ _ (·.id.toNat) adapter.nextEvent
      rw [List.map_map]
      exact hends.event
  · intro clock spec source destination e t hcopied
    exact (copyIn_step hcopied).error_unchanged

open FourBytes in
/-- One copy, and one that is made to fail. -/
theorem two_copies_accounts : ∃ adapter,
    (InstrumentedAdapter.new ⟨64, 1000000⟩).run .dev [.copy clock (spec 0 4) source destination,
      .setSimulatedFailure (some "link down"), .copy clock (spec 0 4) source destination] =
        some adapter ∧
      adapter.records.length = 1 ∧ adapter.usedBytes.toNat = 4 ∧
      (adapter.records.map (·.staging.id)).Nodup := by
  have hruns : ((InstrumentedAdapter.new ⟨64, 1000000⟩).run .dev
      [.copy clock (spec 0 4) source destination, .setSimulatedFailure (some "link down"),
        .copy clock (spec 0 4) source destination]).any
      (fun adapter => decide (adapter.records.map (·.bytes.toNat) = [4])) = true := by decide
  obtain ⟨adapter, hrun, hrecords⟩ := (Option.any_eq_true _ _).mp hruns
  have hrecords := of_decide_eq_true hrecords
  have hkept := run_keeps_accounts .dev ⟨64, 1000000⟩ _ hrun
  refine ⟨adapter, hrun, ?_, ?_, (hkept.2.2.2.1 (.inl rfl)).1⟩
  · simpa using congrArg List.length hrecords
  · rw [hkept.1.1, hrecords]
    rfl

/-! ## Where sums and labels part -/

namespace Unlimited

/-- A budget that refuses nothing. -/
def budget : TransferBudget := ⟨UInt64.ofNat (2 ^ 64 - 1), UInt64.ofNat (2 ^ 64 - 1)⟩

theorem not_exceeds {adapter : HostStagedAdapter} (h : adapter.declaredBudget = budget)
    (bytes expected : UInt64) : adapter.exceedsBudget bytes expected = false := by
  have hmax : ∀ v : UInt64, v.toNat ≤ 2 ^ 64 - 1 := fun v => by have := v.toNat_lt; omega
  simp only [HostStagedAdapter.exceedsBudget, h, budget, decide_eq_false_iff_not, not_or,
    UInt64.lt_iff_toNat_lt, not_lt]
  exact ⟨hmax _, hmax _⟩

/-- Zeros in the place of the four bytes. -/
def zeros (n : Nat) : SourceValue := { FourBytes.source with bytes := List.replicate n 0 }

theorem length_zeros (n : Nat) : (zeros n).bytes.length = n := List.length_replicate

theorem zeros_fit {n : Nat} (h : n < 2 ^ 64) :
    Fits (FourBytes.spec 0 (UInt64.ofNat n)) (zeros n) FourBytes.destination := by
  refine ⟨rfl, rfl, ?_, rfl, rfl, rfl⟩
  have hlength : (FourBytes.spec 0 (UInt64.ofNat n)).range.length.toNat = n :=
    UInt64.toNat_ofNat_of_lt' h
  have hoffset : (FourBytes.spec 0 (UInt64.ofNat n)).range.offset.toNat = 0 := rfl
  rw [length_zeros, hlength, hoffset]
  omega

/-- A copy of `n` zeros. -/
def zeroCopy (n : Nat) : AdapterOp :=
  .copy FourBytes.clock (FourBytes.spec 0 (UInt64.ofNat n)) (zeros n) FourBytes.destination

/-- An adapter that refuses no copy. -/
structure Open (adapter : HostStagedAdapter) : Prop where
  budget : adapter.declaredBudget = budget
  idle : adapter.stagingPool.active = []

/-- What a copy of `n` zeros adds in a release build, when none is made to fail. -/
theorem step_lands {adapter : InstrumentedAdapter} {n : Nat}
    (hadapter : Open adapter.toHostStagedAdapter)
    (hfailure : adapter.simulatedFailure = none) (hn : n < 2 ^ 64) :
    ∃ t, adapter.step .release (zeroCopy n) = some t ∧
      Open t.toHostStagedAdapter ∧ t.simulatedFailure = none ∧ t.rates = adapter.rates ∧
      t.stagingPool.nextId = adapter.stagingPool.nextId + 1 ∧
      t.records.map (·.staging.id) = adapter.records.map (·.staging.id) ++
        [⟨adapter.stagingPool.nextId + 1⟩] ∧
      t.records.map (·.expectedNanos) = adapter.records.map (·.expectedNanos) ++
        [expectedCopyTimeNanos (UInt64.ofNat n) .h2d adapter.rates] := by
  have hbytes : (zeros n).bytes.length < 2 ^ 64 := by rwa [length_zeros]
  obtain ⟨outcome, hrecord, hcopied⟩ := @copyIn_lands .release FourBytes.clock _ _ _
    adapter.toHostStagedAdapter hbytes (zeros_fit hn) (not_exceeds hadapter.budget _ _) hfailure
    (Nat.zero_le _) nofun
  let next : InstrumentedAdapter := { adapter with
    toHostStagedAdapter := { adapter.toHostStagedAdapter with
      stagingPool := (adapter.stagingPool.allocate (UInt64.ofNat n)).2.release
        (adapter.stagingPool.allocate (UInt64.ofNat n)).1.id }.recorded outcome.record }
  have hstep : adapter.step .release (zeroCopy n) = some next := by
    rw [zeroCopy, InstrumentedAdapter.step, hcopied]
    rfl
  refine ⟨next, hstep, ⟨hadapter.budget, ?_⟩, hfailure, rfl, rfl, ?_, ?_⟩
  · simp [next, HostStagedAdapter.recorded, StagingPool.release, StagingPool.allocate,
      hadapter.idle]
  · show List.map _ (adapter.records ++ [outcome.record]) = _
    rw [List.map_append, hrecord]
    rfl
  · show List.map _ (adapter.records ++ [outcome.record]) = _
    rw [List.map_append, hrecord]
    rfl

/-- Any number of copies that are made to fail use up as many staging ids. -/
theorem run_failing (m : Nat) {n : Nat} {detail : String} (hn : n < 2 ^ 64)
    {adapter : InstrumentedAdapter} (hadapter : Open adapter.toHostStagedAdapter)
    (hfailure : adapter.simulatedFailure = some detail) :
    ∃ ended, adapter.run .release (List.replicate m (zeroCopy n)) = some ended ∧
      Open ended.toHostStagedAdapter ∧ ended.records = adapter.records ∧
      ended.stagingPool.nextId = adapter.stagingPool.nextId + UInt64.ofNat m := by
  have hbytes : (zeros n).bytes.length < 2 ^ 64 := by rwa [length_zeros]
  induction m generalizing adapter with
  | zero => exact ⟨adapter, rfl, hadapter, rfl, (UInt64.add_zero _).symm⟩
  | succ m ih =>
    have hcopied := @copyIn_fails .release FourBytes.clock _ _ _ adapter.toHostStagedAdapter detail
      hbytes (zeros_fit hn) (not_exceeds hadapter.budget _ _) hfailure nofun
    let next : InstrumentedAdapter := { adapter with
      stagingPool := (adapter.stagingPool.allocate (UInt64.ofNat n)).2.release
        (adapter.stagingPool.allocate (UInt64.ofNat n)).1.id }
    have hstep : adapter.step .release (zeroCopy n) = some next := by
      rw [zeroCopy, InstrumentedAdapter.step, hcopied]
      rfl
    have hnext : Open next.toHostStagedAdapter := by
      refine ⟨hadapter.budget, ?_⟩
      simp [next, StagingPool.release, StagingPool.allocate, hadapter.idle]
    obtain ⟨ended, hrun, hopen, hrecords, hid⟩ := @ih next hnext hfailure
    refine ⟨ended, ?_, hopen, hrecords, ?_⟩
    · rw [List.replicate_succ, run_cons hstep]
      exact hrun
    · rw [hid]
      show adapter.stagingPool.nextId + 1 + UInt64.ofNat m = _
      rw [UInt64.add_assoc, UInt64.add_comm 1, UInt64.ofNat_add]
      rfl

/-- Two slow copies, each charged most of what a `u64` holds. -/
def slowOps : List AdapterOp :=
  [.recordFixtureMeasurement .h2d 1 1000000000, zeroCopy 17179869184, zeroCopy 17179869184]

/-- Two copies, with as many failing ones between them as bring the staging counter around. -/
def manyOps : List AdapterOp :=
  [zeroCopy 4, .setSimulatedFailure (some "link down")] ++
    (List.replicate (2 ^ 64 - 1) (zeroCopy 4) ++ [.setSimulatedFailure none, zeroCopy 4])

theorem slowOps_part : ∃ adapter,
    (InstrumentedAdapter.new budget).run .release slowOps = some adapter ∧
      adapter.usedTimeNanos.toNat ≠ (adapter.records.map (·.expectedNanos.toNat)).sum := by
  let start := (InstrumentedAdapter.new budget).recordFixtureMeasurement .h2d 1 1000000000
  have hstart : Open start.toHostStagedAdapter := ⟨rfl, rfl⟩
  have hsize : 17179869184 < 2 ^ 64 := by decide
  obtain ⟨t, hfirst, ht, hquiet, hrates, -, -, hcharged⟩ := step_lands hstart rfl hsize
  obtain ⟨u, hsecond, hu, -, -, -, -, hcharged'⟩ := step_lands ht hquiet hsize
  refine ⟨u, ?_, ?_⟩
  · have hmeasured : (InstrumentedAdapter.new budget).step .release
        (.recordFixtureMeasurement .h2d 1 1000000000) = some start := rfl
    rw [slowOps, run_cons hmeasured, run_cons hfirst, run_cons hsecond]
    rfl
  · rw [hcharged, hrates] at hcharged'
    have hsum := congrArg (fun l => (l.map UInt64.toNat).sum) hcharged'
    rw [List.map_map] at hsum
    have hcharge : (expectedCopyTimeNanos (UInt64.ofNat 17179869184) .h2d start.rates).toNat =
        17179869184000005000 := by decide
    simp only [List.map_append, List.map_cons, List.map_nil, List.sum_append, List.sum_cons,
      List.sum_nil, hcharge] at hsum
    have hlt := u.usedTimeNanos.toNat_lt
    intro heq
    rw [heq] at hlt
    have hfunction : (List.map (UInt64.toNat ∘ fun record => record.expectedNanos) u.records).sum =
        (u.records.map (·.expectedNanos.toNat)).sum := rfl
    omega

theorem manyOps_repeat : ∃ adapter,
    (InstrumentedAdapter.new budget).run .release manyOps = some adapter ∧
      ¬ (adapter.records.map (·.staging.id)).Nodup := by
  have hsize : 4 < 2 ^ 64 := by decide
  have hstart : Open (InstrumentedAdapter.new budget).toHostStagedAdapter := ⟨rfl, rfl⟩
  obtain ⟨t, hfirst, ht, -, -, hnext, hids, -⟩ := step_lands hstart rfl hsize
  let failing : InstrumentedAdapter := { t with simulatedFailure := some "link down" }
  obtain ⟨u, hrun, hu, hrecords, hwrapped⟩ := @run_failing (2 ^ 64 - 1) 4 "link down" hsize failing
    ⟨ht.budget, ht.idle⟩ rfl
  let quiet : InstrumentedAdapter := { u with simulatedFailure := none }
  obtain ⟨v, hsecond, hv, -, -, -, hids', -⟩ := @step_lands quiet 4 ⟨hu.budget, hu.idle⟩ rfl hsize
  refine ⟨v, ?_, ?_⟩
  · have hbroken : t.step .release (.setSimulatedFailure (some "link down")) = some failing := rfl
    have hmended : u.step .release (.setSimulatedFailure none) = some quiet := rfl
    have hprelude : (InstrumentedAdapter.new budget).run .release
        [zeroCopy 4, .setSimulatedFailure (some "link down")] = some failing := by
      rw [run_cons hfirst, run_cons hbroken]
      rfl
    rw [manyOps, run_append hprelude, run_append hrun, run_cons hmended, run_cons hsecond]
    rfl
  · have hsame : quiet.stagingPool.nextId + 1 = (InstrumentedAdapter.new budget).stagingPool.nextId + 1 := by
      show u.stagingPool.nextId + 1 = _
      rw [hwrapped]
      show t.stagingPool.nextId + _ + 1 = _
      rw [hnext]
      decide
    have hquiet : quiet.records = t.records := hrecords
    have hnone : (InstrumentedAdapter.new budget).records = [] := rfl
    rw [hids', hquiet, hids, hsame, hnone]
    simp

end Unlimited

open Unlimited in
/-- Under an unlimited budget the charged time stops at the end of a `u64`, and a counter that
    wraps gives a staging id twice. -/
theorem sums_and_labels_part :
    (∃ adapter, (InstrumentedAdapter.new budget).run .release slowOps = some adapter ∧
      adapter.usedTimeNanos.toNat ≠ (adapter.records.map (·.expectedNanos.toNat)).sum) ∧
    ∃ adapter, (InstrumentedAdapter.new budget).run .release manyOps = some adapter ∧
      ¬ (adapter.records.map (·.staging.id)).Nodup := by
  exact ⟨slowOps_part, manyOps_repeat⟩

end FaberHosts.Coordinator
