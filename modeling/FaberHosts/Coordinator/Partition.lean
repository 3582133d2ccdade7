import FaberHosts.Lib.Word64
import FaberHosts.Coordinator.Identity

/-!
# Virtual device partitions

`partition.rs`: the seven-class byte ledger, the admission that accepts it under
a safe physical limit, and the partition and receipt that come out.
-/

namespace FaberHosts.Coordinator
open FaberHosts.Lib

/-- Machine-local identity of one virtual partition. -/
structure VirtualDevicePartitionId where
  seed : UInt64
  deriving DecidableEq, Repr

namespace VirtualDevicePartitionId

theorem toNat_injective :
    Function.Injective (fun id : VirtualDevicePartitionId => id.seed.toNat) := by
  rintro ⟨a⟩ ⟨b⟩ h
  exact congrArg VirtualDevicePartitionId.mk (UInt64.toNat.inj h)

instance : Ord VirtualDevicePartitionId := ⟨compareOn (fun id => id.seed.toNat)⟩

instance : Std.TransOrd VirtualDevicePartitionId :=
  inferInstanceAs (Std.TransCmp (compareOn (fun id : VirtualDevicePartitionId => id.seed.toNat)))

instance : Std.LawfulEqOrd VirtualDevicePartitionId := lawfulEq_compareOn toNat_injective

instance : ToString VirtualDevicePartitionId := ⟨fun id => s!"vp:{id.seed.toNat}"⟩

end VirtualDevicePartitionId

/-! ## Ledger -/

/-- The seven declared byte classes of one admission. -/
structure PartitionBudgetLedger where
  weightBytes : UInt64
  kvCacheBytes : UInt64
  activationScratchBytes : UInt64
  moduleStorageBytes : UInt64
  allocatorOverheadBytes : UInt64
  transferStagingBytes : UInt64
  concurrentStateBytes : UInt64
  deriving DecidableEq, Repr

namespace PartitionBudgetLedger

/-- The checked sum of the seven classes; `none` on overflow. -/
def totalBytes (ledger : PartitionBudgetLedger) : Option UInt64 := do
  let total := 0
  let total ← checkedAdd total ledger.weightBytes
  let total ← checkedAdd total ledger.kvCacheBytes
  let total ← checkedAdd total ledger.activationScratchBytes
  let total ← checkedAdd total ledger.moduleStorageBytes
  let total ← checkedAdd total ledger.allocatorOverheadBytes
  let total ← checkedAdd total ledger.transferStagingBytes
  let total ← checkedAdd total ledger.concurrentStateBytes
  return total

/-- The sum of the seven classes as integers. -/
def exactTotal (ledger : PartitionBudgetLedger) : Nat :=
  ledger.weightBytes.toNat + ledger.kvCacheBytes.toNat + ledger.activationScratchBytes.toNat +
    ledger.moduleStorageBytes.toNat + ledger.allocatorOverheadBytes.toNat +
    ledger.transferStagingBytes.toNat + ledger.concurrentStateBytes.toNat

theorem totalBytes_some {ledger : PartitionBudgetLedger} {total : UInt64}
    (h : ledger.totalBytes = some total) : total.toNat = ledger.exactTotal := by
  simp only [totalBytes, checkedAdd, Option.bind_eq_bind, Option.bind_eq_some_iff] at h
  obtain ⟨t1, h1, t2, h2, t3, h3, t4, h4, t5, h5, t6, h6, h7⟩ := h
  have e1 := (addU64_checked_some h1).2
  have e2 := (addU64_checked_some h2).2
  have e3 := (addU64_checked_some h3).2
  have e4 := (addU64_checked_some h4).2
  have e5 := (addU64_checked_some h5).2
  have e6 := (addU64_checked_some h6).2
  have e7 := (addU64_checked_some h7).2
  simp only [exactTotal]
  have e0 : (0 : UInt64).toNat = 0 := rfl
  omega

end PartitionBudgetLedger

/-! ## Admission -/

/-- A policy-declared byte ceiling. -/
structure SafePhysicalLimit where
  policyLimitBytes : UInt64
  deriving DecidableEq, Repr

structure AdmissionRequest where
  partitionId : VirtualDevicePartitionId
  boundDevice : PhysicalDeviceId
  declared : PartitionBudgetLedger
  deriving DecidableEq, Repr

inductive AdmissionError where
  | budgetExceeded (declaredTotalBytes : Option UInt64) (policyLimitBytes : UInt64)
  deriving DecidableEq, Repr

inductive PartitionFailure where
  | allocationFailure (detail : String)
  | deviceLoss (detail : String)
  deriving DecidableEq, Repr

inductive PartitionState where
  | active
  | failed (failure : PartitionFailure)
  | tornDown
  deriving DecidableEq, Repr

/-- The ledger's total is defined and within the limit. -/
def PartitionBudgetLedger.Within (ledger : PartitionBudgetLedger) (limit : SafePhysicalLimit) :
    Prop :=
  ∃ total, ledger.totalBytes = some total ∧ total ≤ limit.policyLimitBytes

/-- A partition bound to exactly one device.  Only admission builds one, so its
    ledger is within its limit. -/
structure VirtualDevicePartition where
  id : VirtualDevicePartitionId
  boundDevice : PhysicalDeviceId
  ledger : PartitionBudgetLedger
  safeLimit : SafePhysicalLimit
  state : PartitionState
  within_limit : ledger.Within safeLimit
  deriving DecidableEq

def VirtualDevicePartition.admit (request : AdmissionRequest) (safeLimit : SafePhysicalLimit) :
    Except AdmissionError VirtualDevicePartition :=
  match h : request.declared.totalBytes with
  | some total =>
    if hle : total ≤ safeLimit.policyLimitBytes then
      .ok {
        id := request.partitionId
        boundDevice := request.boundDevice
        ledger := request.declared
        safeLimit := safeLimit
        state := .active
        within_limit := ⟨total, h, hle⟩ }
    else .error (.budgetExceeded (some total) safeLimit.policyLimitBytes)
  | none => .error (.budgetExceeded none safeLimit.policyLimitBytes)

def VirtualDevicePartition.isActive (partition : VirtualDevicePartition) : Bool := partition.state = .active

/-! ## Receipts -/

inductive HardwareIsolationClaim where
  | notClaimed
  deriving DecidableEq, Repr

inductive FixtureIdentityClass where
  | physical
  | virtual
  | synthetic
  deriving DecidableEq, Repr

def FixtureIdentityClass.tag : FixtureIdentityClass → UInt64
  | .physical => 0
  | .virtual => 1
  | .synthetic => 2

inductive TransportClass where
  | none
  | hostStaged
  | directedPeerNotAttempted
  deriving DecidableEq, Repr

def TransportClass.tag : TransportClass → UInt64
  | .none => 0
  | .hostStaged => 1
  | .directedPeerNotAttempted => 2

structure PartitionReceipt where
  physicalDeviceCount : UInt64
  physicalDeviceIds : BTreeSet PhysicalDeviceId
  virtualPartitionCount : UInt64
  virtualPartitionIds : BTreeSet VirtualDevicePartitionId
  fixtureIdentityClass : FixtureIdentityClass
  transportClass : TransportClass
  hardwareIsolationClaimed : HardwareIsolationClaim
  deriving DecidableEq

/-- Counts are derived from the id sets. -/
def PartitionReceipt.new (physicalDeviceIds : BTreeSet PhysicalDeviceId)
    (virtualPartitionIds : BTreeSet VirtualDevicePartitionId)
    (fixtureIdentityClass : FixtureIdentityClass) (transportClass : TransportClass) :
    PartitionReceipt where
  physicalDeviceCount := UInt64.ofNat physicalDeviceIds.size
  physicalDeviceIds := physicalDeviceIds
  virtualPartitionCount := UInt64.ofNat virtualPartitionIds.size
  virtualPartitionIds := virtualPartitionIds
  fixtureIdentityClass := fixtureIdentityClass
  transportClass := transportClass
  hardwareIsolationClaimed := .notClaimed

end FaberHosts.Coordinator
