import FaberHosts.Lib.Word64
import FaberHosts.Coordinator.Sha256

/-!
# Discovery snapshots

`discovery.rs`: the facts a probe records for each device, and the snapshot that
keys them by ordinal and is named by the digest of its canonical bytes.
-/

namespace FaberHosts.Coordinator
open FaberHosts.Lib

/-! ## Facts of one device -/

structure ComputeCapability where
  major : UInt32
  minor : UInt32
  deriving DecidableEq, Repr

structure DtypeSurface where
  f32 : Bool
  f64 : Bool
  f16 : Bool
  bf16 : Bool
  i8 : Bool
  i32 : Bool
  deriving DecidableEq, Repr

/-- No dtype measured. -/
def DtypeSurface.empty : DtypeSurface := ⟨false, false, false, false, false, false⟩

structure DeviceCapabilities where
  computeCapability : ComputeCapability
  smCount : UInt32
  dtypeSurface : DtypeSurface
  maxThreadsPerWorkgroup : UInt32
  workgroupSharedMemoryMinBytes : UInt32
  workgroupSharedMemoryMaxBytes : UInt32
  collectiveWidth : UInt32
  unifiedMemory : Bool
  deriving DecidableEq, Repr

structure DeviceMemory where
  toolReportTotalMib : Option UInt64
  apiTotalBytes : UInt64
  deriving DecidableEq, Repr

inductive DeviceHealth where
  | healthy
  | degraded (reason : String)
  deriving DecidableEq, Repr

structure ProbeProvenance where
  probe : String
  toolVersions : String
  deriving DecidableEq, Repr

structure DeviceDiscoveryEntry where
  ordinal : DeviceOrdinal
  identity : PhysicalDeviceId
  deviceModel : Option String
  capabilities : DeviceCapabilities
  memory : DeviceMemory
  health : DeviceHealth
  healthGeneration : DeviceHealthGeneration
  probeProvenance : ProbeProvenance
  deriving DecidableEq, Repr

def DeviceDiscoveryEntry.backend (entry : DeviceDiscoveryEntry) : DeviceBackend :=
  entry.identity.backend

/-- The bytes one entry contributes after its ordinal. -/
def DeviceDiscoveryEntry.canonicalBytes (entry : DeviceDiscoveryEntry) : List UInt8 :=
  let caps := entry.capabilities
  entry.identity.canonicalBytes ++
    pushBool entry.deviceModel.isSome ++ entry.deviceModel.elim [] pushStr ++
    pushU32 caps.computeCapability.major ++ pushU32 caps.computeCapability.minor ++
    pushU32 caps.smCount ++
    pushBool caps.dtypeSurface.f32 ++ pushBool caps.dtypeSurface.f64 ++
    pushBool caps.dtypeSurface.f16 ++ pushBool caps.dtypeSurface.bf16 ++
    pushBool caps.dtypeSurface.i8 ++ pushBool caps.dtypeSurface.i32 ++
    pushU32 caps.maxThreadsPerWorkgroup ++
    pushU32 caps.workgroupSharedMemoryMinBytes ++
    pushU32 caps.workgroupSharedMemoryMaxBytes ++
    pushU32 caps.collectiveWidth ++ pushBool caps.unifiedMemory ++
    pushBool entry.memory.toolReportTotalMib.isSome ++
    entry.memory.toolReportTotalMib.elim [] pushU64 ++ pushU64 entry.memory.apiTotalBytes ++
    (match entry.health with
    | .healthy => [0]
    | .degraded reason => [1] ++ pushStr reason) ++
    pushU64 entry.healthGeneration.epoch ++
    pushStr entry.probeProvenance.probe ++ pushStr entry.probeProvenance.toolVersions

/-! ## Snapshots -/

inductive P2pProbeState where
  | notAttempted
  | attempted
  deriving DecidableEq, Repr

/-- Content-addressed id of one discovery sample. -/
structure DeviceDiscoverySnapshotId where
  bytes : List UInt8
  deriving DecidableEq, Repr

def hexDigit (n : Nat) : Char := "0123456789abcdef".toList.getD n '0'

/-- Lowercase hex of a byte slice. -/
def hexLower (bytes : List UInt8) : String :=
  String.ofList (bytes.flatMap (fun b => [hexDigit (b.toNat / 16), hexDigit (b.toNat % 16)]))

namespace DeviceDiscoverySnapshotId

def fromCanonicalBytes (bytes : List UInt8) : DeviceDiscoverySnapshotId := ⟨Sha256.digest bytes⟩

def hex (id : DeviceDiscoverySnapshotId) : String := hexLower id.bytes

instance : ToString DeviceDiscoverySnapshotId := ⟨hex⟩

end DeviceDiscoverySnapshotId

/-- A timestamped discovery sample.  Every entry is keyed by its own ordinal. -/
structure DeviceDiscoverySnapshot where
  id : DeviceDiscoverySnapshotId
  probeUtcNanos : UInt64
  devices : BTreeMap DeviceOrdinal DeviceDiscoveryEntry
  p2p : P2pProbeState
  ordinals_match : ∀ keyed ∈ devices.toList, keyed.1 = keyed.2.ordinal
  deriving DecidableEq

namespace DeviceDiscoverySnapshot

/-- `canonical_bytes_without_id` of the fields given. -/
def canonicalBytesOf (probeUtcNanos : UInt64)
    (devices : BTreeMap DeviceOrdinal DeviceDiscoveryEntry) (p2p : P2pProbeState) : List UInt8 :=
  pushU64 probeUtcNanos ++ pushLen devices.toList.length ++
    devices.toList.flatMap (fun keyed =>
      pushU32 keyed.1.ordinal ++ keyed.2.canonicalBytes) ++
    (match p2p with
    | .notAttempted => [0]
    | .attempted => [1])

/-- Panics when an entry's ordinal is not its key. -/
def new (probeUtcNanos : UInt64) (devices : BTreeMap DeviceOrdinal DeviceDiscoveryEntry)
    (p2p : P2pProbeState) : MayPanic DeviceDiscoverySnapshot :=
  if h : ∀ keyed ∈ devices.toList, keyed.1 = keyed.2.ordinal then
    some {
      id := .fromCanonicalBytes (canonicalBytesOf probeUtcNanos devices p2p)
      probeUtcNanos := probeUtcNanos
      devices := devices
      p2p := p2p
      ordinals_match := h }
  else none

/-- `devices().values()`: the entries in ordinal order. -/
def entries (s : DeviceDiscoverySnapshot) : List DeviceDiscoveryEntry :=
  s.devices.toList.map Prod.snd

/-- Some entry carries a stale health generation. -/
def isStale (s : DeviceDiscoverySnapshot) (current : DeviceHealthGeneration) : Bool :=
  s.entries.any (fun entry => current.isStale entry.healthGeneration)

/-- The first entry recorded for an identity, in ordinal order: `find_entry` of
    `device_set.rs` and `find_device` of `policy.rs`. -/
def findEntry (s : DeviceDiscoverySnapshot) (id : PhysicalDeviceId) :
    Option DeviceDiscoveryEntry :=
  s.entries.find? (fun entry => entry.identity = id)

theorem isStale_eq_false_iff {s : DeviceDiscoverySnapshot} {current : DeviceHealthGeneration} :
    s.isStale current = false ↔ ∀ entry ∈ s.entries, entry.healthGeneration = current := by
  simp [isStale, DeviceHealthGeneration.isStale]

theorem findEntry_some {s : DeviceDiscoverySnapshot} {id : PhysicalDeviceId}
    {entry : DeviceDiscoveryEntry} (h : s.findEntry id = some entry) :
    entry ∈ s.entries ∧ entry.identity = id :=
  ⟨List.mem_of_find?_eq_some h, by simpa using List.find?_some h⟩

theorem findEntry_eq_none_iff {s : DeviceDiscoverySnapshot} {id : PhysicalDeviceId} :
    s.findEntry id = none ↔ ∀ entry ∈ s.entries, entry.identity ≠ id := by
  simp [findEntry, List.find?_eq_none]

end DeviceDiscoverySnapshot

end FaberHosts.Coordinator
