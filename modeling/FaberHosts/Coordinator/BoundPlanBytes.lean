import FaberHosts.Coordinator.BoundPlan
import FaberHosts.Coordinator.Identity

/-!
# Canonical bytes of snapshots and bound plans

What `canonical_bytes` of a discovery snapshot and of a bound plan tell.  The
bytes of a device identity carry no length of their own, but delimit it all the
same.
-/

namespace FaberHosts.Coordinator
open FaberHosts.Lib

/-! ## Device identities -/

theorem pushBool_delimits : Delimits (fun _ => True) id pushBool := by
  intro a b _ _ r s
  cases a <;> cases b <;> simp [pushBool]

theorem pushBool_append_inj (a b : Bool) (r s : List UInt8) :
    pushBool a ++ r = pushBool b ++ s ↔ a = b ∧ r = s :=
  pushBool_delimits a b trivial trivial r s

/-- Every string of the identity is short. -/
def PhysicalDeviceId.Short (device : PhysicalDeviceId) : Prop :=
  match device.facts with
  | .cuda facts => Coordinator.Short facts.pciUuid ∧ ∀ uuid ∈ facts.driverUuid, Coordinator.Short uuid
  | .metal facts => Coordinator.Short facts.registryId

/-- A value that may be absent, behind a byte that says whether it is there. -/
def pushOptional {α : Type} (code : α → List UInt8) (o : Option α) : List UInt8 :=
  pushBool o.isSome ++ o.elim [] code

theorem optionalStr_append_inj {a b : Option String} (ha : ∀ s ∈ a, Short s) (hb : ∀ s ∈ b, Short s)
    (r s : List UInt8) :
    pushOptional pushStr a ++ r = pushOptional pushStr b ++ s ↔ a = b ∧ r = s := by
  have h := pushStr_delimits.optional pushBool_delimits a b ha hb r s
  rwa [Option.map_id] at h

theorem optionalU64_append_inj (a b : Option UInt64) (r s : List UInt8) :
    pushOptional pushU64 a ++ r = pushOptional pushU64 b ++ s ↔ a = b ∧ r = s := by
  have h := pushU64_delimits.optional pushBool_delimits a b (fun _ _ => trivial)
    (fun _ _ => trivial) r s
  rwa [Option.map_id] at h

theorem deviceBytes_delimits :
    Delimits PhysicalDeviceId.Short id PhysicalDeviceId.canonicalBytes := by
  intro a b ha hb r s
  obtain ⟨facts⟩ := a
  obtain ⟨facts'⟩ := b
  cases facts with
  | cuda c =>
    cases facts' with
    | cuda c' =>
      obtain ⟨pci, driver⟩ := c
      obtain ⟨pci', driver'⟩ := c'
      have hbytes : ∀ (p : String) (d : Option String) (t : List UInt8),
          PhysicalDeviceId.canonicalBytes ⟨.cuda ⟨p, d⟩⟩ ++ t =
            0 :: (pushStr p ++ (pushOptional pushStr d ++ t)) := by
        intro p d t
        cases d <;> simp [PhysicalDeviceId.canonicalBytes, pushOptional]
      rw [hbytes, hbytes, List.cons_inj_right, pushStr_append_inj ha.1 hb.1,
        optionalStr_append_inj ha.2 hb.2]
      simp [and_assoc]
    | metal m' => simp [PhysicalDeviceId.canonicalBytes]
  | metal m =>
    cases facts' with
    | cuda c' => simp [PhysicalDeviceId.canonicalBytes]
    | metal m' =>
      obtain ⟨registry⟩ := m
      obtain ⟨registry'⟩ := m'
      simp only [PhysicalDeviceId.canonicalBytes, List.cons_append, List.nil_append,
        List.cons.injEq, true_and, pushStr_append_inj ha hb]
      simp

/-! ## Discovery snapshots -/

/-- Every string of the entry is short. -/
structure DeviceDiscoveryEntry.Short (entry : DeviceDiscoveryEntry) : Prop where
  identity : entry.identity.Short
  deviceModel : ∀ model ∈ entry.deviceModel, Coordinator.Short model
  health : ∀ reason, entry.health = .degraded reason → Coordinator.Short reason
  probe : Coordinator.Short entry.probeProvenance.probe
  toolVersions : Coordinator.Short entry.probeProvenance.toolVersions

/-- `health` of the encoding: a tag, and the reason of a degraded device. -/
def DeviceHealth.bytes : DeviceHealth → List UInt8
  | .healthy => [0]
  | .degraded reason => [1] ++ pushStr reason

theorem healthBytes_delimits :
    Delimits (fun health => ∀ reason, health = .degraded reason → Short reason) id
      DeviceHealth.bytes := by
  intro a b ha hb r s
  cases a with
  | healthy => cases b <;> simp [DeviceHealth.bytes]
  | degraded reason =>
    cases b with
    | healthy => simp [DeviceHealth.bytes]
    | degraded reason' =>
      simp [DeviceHealth.bytes, pushStr_append_inj (ha reason rfl) (hb reason' rfl)]

theorem entryBytes_eq (entry : DeviceDiscoveryEntry) :
    entry.canonicalBytes =
    entry.identity.canonicalBytes ++
      pushOptional pushStr entry.deviceModel ++
      pushU32 entry.capabilities.computeCapability.major ++
      pushU32 entry.capabilities.computeCapability.minor ++
      pushU32 entry.capabilities.smCount ++
      pushBool entry.capabilities.dtypeSurface.f32 ++
      pushBool entry.capabilities.dtypeSurface.f64 ++
      pushBool entry.capabilities.dtypeSurface.f16 ++
      pushBool entry.capabilities.dtypeSurface.bf16 ++
      pushBool entry.capabilities.dtypeSurface.i8 ++
      pushBool entry.capabilities.dtypeSurface.i32 ++
      pushU32 entry.capabilities.maxThreadsPerWorkgroup ++
      pushU32 entry.capabilities.workgroupSharedMemoryMinBytes ++
      pushU32 entry.capabilities.workgroupSharedMemoryMaxBytes ++
      pushU32 entry.capabilities.collectiveWidth ++
      pushBool entry.capabilities.unifiedMemory ++
      pushOptional pushU64 entry.memory.toolReportTotalMib ++ pushU64 entry.memory.apiTotalBytes ++
      entry.health.bytes ++ pushU64 entry.healthGeneration.epoch ++
      pushStr entry.probeProvenance.probe ++ pushStr entry.probeProvenance.toolVersions := by
  unfold DeviceDiscoveryEntry.canonicalBytes
  dsimp only
  unfold pushOptional
  rw [← List.append_assoc, ← List.append_assoc]
  rfl

theorem entryBytes_delimits :
    Delimits (fun keyed : DeviceOrdinal × DeviceDiscoveryEntry =>
        keyed.1 = keyed.2.ordinal ∧ keyed.2.Short) id
      (fun keyed => pushU32 keyed.1.ordinal ++ keyed.2.canonicalBytes) := by
  rintro ⟨⟨key⟩, entry⟩ ⟨⟨key'⟩, entry'⟩ ⟨hkey, ha⟩ ⟨hkey', hb⟩ r s
  simp only [entryBytes_eq, List.append_assoc, pushU32_append_inj, pushU64_append_inj,
    deviceBytes_delimits _ _ ha.identity hb.identity,
    optionalStr_append_inj ha.deviceModel hb.deviceModel, pushBool_append_inj,
    optionalU64_append_inj, healthBytes_delimits _ _ ha.health hb.health,
    pushStr_append_inj ha.probe hb.probe, pushStr_append_inj ha.toolVersions hb.toolVersions, id_eq]
  obtain ⟨ordinal, identity, model, ⟨⟨_, _⟩, _, ⟨_, _, _, _, _, _⟩, _, _, _, _, _⟩, ⟨_, _⟩, health,
    ⟨_⟩, ⟨_, _⟩⟩ := entry
  obtain ⟨ordinal', identity', model', ⟨⟨_, _⟩, _, ⟨_, _, _, _, _, _⟩, _, _, _, _, _⟩, ⟨_, _⟩,
    health', ⟨_⟩, ⟨_, _⟩⟩ := entry'
  obtain rfl : ⟨key⟩ = ordinal := hkey
  obtain rfl : ⟨key'⟩ = ordinal' := hkey'
  simp only [Prod.mk.injEq, DeviceOrdinal.mk.injEq, DeviceDiscoveryEntry.mk.injEq,
    DeviceCapabilities.mk.injEq, ComputeCapability.mk.injEq, DtypeSurface.mk.injEq,
    DeviceMemory.mk.injEq, DeviceHealthGeneration.mk.injEq, ProbeProvenance.mk.injEq, and_assoc,
    and_self_left]

namespace DeviceDiscoverySnapshot

/-- `canonical_bytes` -/
def canonicalBytes (snapshot : DeviceDiscoverySnapshot) : List UInt8 :=
  canonicalBytesOf snapshot.probeUtcNanos snapshot.devices snapshot.p2p

/-- The bounds of a Rust map and of the strings in it. -/
structure Addressable (snapshot : DeviceDiscoverySnapshot) : Prop where
  devices : snapshot.devices.toList.length < 2 ^ 64
  entries : ∀ keyed ∈ snapshot.devices.toList, keyed.2.Short

theorem canonicalBytes_eq_iff {a b : DeviceDiscoverySnapshot} (ha : a.Addressable)
    (hb : b.Addressable) :
    a.canonicalBytes = b.canonicalBytes ↔
      a.probeUtcNanos = b.probeUtcNanos ∧ a.devices = b.devices ∧ a.p2p = b.p2p := by
  have hdevices := entryBytes_delimits.counted pushLen_delimits a.devices.toList b.devices.toList
    ⟨ha.devices, fun keyed hkeyed => ⟨a.ordinals_match keyed hkeyed, ha.entries keyed hkeyed⟩⟩
    ⟨hb.devices, fun keyed hkeyed => ⟨b.ordinals_match keyed hkeyed, hb.entries keyed hkeyed⟩⟩
  simp only [counted, List.append_assoc, List.map_id, Std.ExtTreeMap.toList_inj] at hdevices
  simp only [canonicalBytes, canonicalBytesOf, List.append_assoc, pushU64_append_inj, hdevices]
  refine and_congr_right' (and_congr_right' ?_)
  cases a.p2p <;> cases b.p2p <;> simp

end DeviceDiscoverySnapshot

/-! ## Bound plans -/

/-- What a bound plan binds: the devices, and the ids of the virtual partitions. -/
inductive BindingFacts where
  | implicitLocal (device : PhysicalDeviceId) (virtualPartition : Option VirtualDevicePartitionId)
  | distributed (bindings : List (LogicalPartitionId × PhysicalDeviceId ×
      Option VirtualDevicePartitionId))
  deriving DecidableEq

/-- One binding of a distributed plan, the attached partition known by its id. -/
def bindingFacts (bound : LogicalPartitionId × PartitionBinding) :
    LogicalPartitionId × PhysicalDeviceId × Option VirtualDevicePartitionId :=
  (bound.1, bound.2.device, bound.2.virtualPartition.map (·.id))

def BoundPlanKind.facts : BoundPlanKind → BindingFacts
  | .implicitLocal device virtualPartition => .implicitLocal device (virtualPartition.map (·.id))
  | .distributed bindings => .distributed (bindings.toList.map bindingFacts)

theorem attachedBytes_append_inj (a b : Option VirtualDevicePartition) (r s : List UInt8) :
    BoundDistributedPlan.attachedBytes a ++ r = BoundDistributedPlan.attachedBytes b ++ s ↔
      a.map (·.id) = b.map (·.id) ∧ r = s := by
  cases a with
  | none => cases b <;> simp [BoundDistributedPlan.attachedBytes]
  | some p =>
    cases b with
    | none => simp [BoundDistributedPlan.attachedBytes]
    | some q =>
      have hid : p.id = q.id ↔ p.id.seed = q.id.seed :=
        ⟨congrArg _, fun h => VirtualDevicePartitionId.toNat_injective (congrArg UInt64.toNat h)⟩
      simp [BoundDistributedPlan.attachedBytes, hid]

/-- The bytes of one binding. -/
def bindingBytes (bound : LogicalPartitionId × PartitionBinding) : List UInt8 :=
  pushStr bound.1.id ++ bound.2.device.canonicalBytes ++
    BoundDistributedPlan.attachedBytes bound.2.virtualPartition

theorem bindingBytes_delimits :
    Delimits (fun bound => Short bound.1.id ∧ bound.2.device.Short) bindingFacts bindingBytes := by
  rintro a b ⟨hid, hdevice⟩ ⟨hid', hdevice'⟩ r s
  simp only [bindingBytes, List.append_assoc, pushStr_append_inj hid hid',
    deviceBytes_delimits _ _ hdevice hdevice', attachedBytes_append_inj, id_eq, bindingFacts,
    Prod.mk.injEq, LogicalPartitionId.id_injective.eq_iff, and_assoc]

namespace BoundDistributedPlan

def kindBytes : BoundPlanKind → List UInt8
  | .implicitLocal device virtualPartition =>
    [0] ++ device.canonicalBytes ++ attachedBytes virtualPartition
  | .distributed bindings =>
    [1] ++ pushLen bindings.size ++ bindings.toList.flatMap bindingBytes

def ShortKind : BoundPlanKind → Prop
  | .implicitLocal device _ => device.Short
  | .distributed bindings => bindings.toList.length < 2 ^ 64 ∧
      ∀ bound ∈ bindings.toList, Short bound.1.id ∧ bound.2.device.Short

theorem kindBytes_delimits : Delimits ShortKind BoundPlanKind.facts kindBytes := by
  intro a b ha hb r s
  cases a with
  | implicitLocal device attached =>
    cases b with
    | implicitLocal device' attached' =>
      simp only [kindBytes, BoundPlanKind.facts, List.append_assoc, List.append_cancel_left_eq,
        deviceBytes_delimits _ _ ha hb, attachedBytes_append_inj, id_eq,
        BindingFacts.implicitLocal.injEq, and_assoc]
    | distributed bindings => simp [kindBytes, BoundPlanKind.facts]
  | distributed bindings =>
    cases b with
    | implicitLocal device attached => simp [kindBytes, BoundPlanKind.facts]
    | distributed bindings' =>
      have hcounted := bindingBytes_delimits.counted pushLen_delimits bindings.toList
        bindings'.toList ha hb r s
      simp only [counted, List.append_assoc, Std.ExtTreeMap.length_toList] at hcounted
      simp only [kindBytes, BoundPlanKind.facts, List.append_assoc, List.append_cancel_left_eq,
        hcounted, BindingFacts.distributed.injEq]

/-- The bounds of a Rust set and of the strings in the plan. -/
structure Addressable (plan : BoundDistributedPlan) : Prop where
  hash : Short plan.logicalDistributedPlanHash
  kind : ShortKind plan.kind
  devices : plan.deviceSet.members.toList.length < 2 ^ 64
  members : ∀ device ∈ plan.deviceSet.members.toList, device.Short

theorem fixtureTag_inj (a b : FixtureIdentityClass) : a.tag = b.tag ↔ a = b := by
  cases a <;> cases b <;> decide

theorem transportTag_inj (a b : TransportClass) : a.tag = b.tag ↔ a = b := by
  cases a <;> cases b <;> decide

theorem length_pushU64 (v : UInt64) : (pushU64 v).length = 8 := rfl

theorem snapshotId_append_inj (x y : List UInt8) (a b c d : UInt64) :
    x ++ (pushU64 a ++ pushU64 b) = y ++ (pushU64 c ++ pushU64 d) ↔ x = y ∧ a = c ∧ b = d := by
  have htail : pushU64 a ++ pushU64 b = pushU64 c ++ pushU64 d ↔ a = c ∧ b = d := by
    have hlast := pushU64_append_inj b d [] []
    simp only [List.append_nil, and_true] at hlast
    rw [pushU64_append_inj, hlast]
  rw [← htail]
  constructor
  · intro h
    exact List.append_inj' h (by simp [length_pushU64])
  · rintro ⟨rfl, h⟩
    rw [h]

theorem canonicalBytes_eq_iff {a b : BoundDistributedPlan} (ha : a.Addressable)
    (hb : b.Addressable) :
    a.canonicalBytes = b.canonicalBytes ↔
      a.logicalDistributedPlanHash = b.logicalDistributedPlanHash ∧ a.kind.facts = b.kind.facts ∧
        a.deviceSet = b.deviceSet ∧ a.snapshotId = b.snapshotId ∧
        a.fixtureIdentityClass = b.fixtureIdentityClass ∧ a.transportClass = b.transportClass := by
  have hbytes : ∀ plan : BoundDistributedPlan, plan.canonicalBytes =
      pushStr plan.logicalDistributedPlanHash ++ kindBytes plan.kind ++
        pushLen plan.deviceSet.len ++
        plan.deviceSet.members.toList.flatMap PhysicalDeviceId.canonicalBytes ++
        plan.snapshotId.bytes ++
        pushU64 plan.fixtureIdentityClass.tag ++ pushU64 plan.transportClass.tag := by
    intro plan
    obtain ⟨_, kind, _, _, _, _, _⟩ := plan
    cases kind <;> rfl
  have hdevices := deviceBytes_delimits.counted pushLen_delimits a.deviceSet.members.toList
    b.deviceSet.members.toList ⟨ha.devices, ha.members⟩ ⟨hb.devices, hb.members⟩
  simp only [counted, List.append_assoc, List.map_id, Std.ExtTreeSet.toList_inj,
    Std.ExtTreeSet.length_toList] at hdevices
  obtain ⟨_, _, ⟨members⟩, ⟨id⟩, _, _, _⟩ := a
  obtain ⟨_, _, ⟨members'⟩, ⟨id'⟩, _, _, _⟩ := b
  simp only [hbytes, List.append_assoc, DeviceSet.len, pushStr_append_inj ha.hash hb.hash,
    kindBytes_delimits _ _ ha.kind hb.kind, hdevices, snapshotId_append_inj, fixtureTag_inj,
    transportTag_inj, DeviceSet.mk.injEq, DeviceDiscoverySnapshotId.mk.injEq]

end BoundDistributedPlan

/-- What the bytes of a snapshot and of a bound plan tell. -/
theorem snapshot_and_plan_bytes_eq_iff :
    (∀ a b : DeviceDiscoverySnapshot, a.Addressable → b.Addressable →
      (a.canonicalBytes = b.canonicalBytes ↔
        a.probeUtcNanos = b.probeUtcNanos ∧ a.devices = b.devices ∧ a.p2p = b.p2p)) ∧
    ∀ a b : BoundDistributedPlan, a.Addressable → b.Addressable →
      (a.canonicalBytes = b.canonicalBytes ↔
        a.logicalDistributedPlanHash = b.logicalDistributedPlanHash ∧ a.kind.facts = b.kind.facts ∧
          a.deviceSet = b.deviceSet ∧ a.snapshotId = b.snapshotId ∧
          a.fixtureIdentityClass = b.fixtureIdentityClass ∧
          a.transportClass = b.transportClass) := by
  refine ⟨fun a b ha hb => ?_, fun a b ha hb => ?_⟩
  · exact DeviceDiscoverySnapshot.canonicalBytes_eq_iff ha hb
  · exact BoundDistributedPlan.canonicalBytes_eq_iff ha hb

namespace TwoPartitions

/-- The first device alone, probed at the given time. -/
def probedAt (time : UInt64) : DeviceDiscoverySnapshot where
  id := .fromCanonicalBytes (DeviceDiscoverySnapshot.canonicalBytesOf time
    (Std.ExtTreeMap.ofList [(⟨0⟩, entry 0 0)] compare) .notAttempted)
  probeUtcNanos := time
  devices := Std.ExtTreeMap.ofList [(⟨0⟩, entry 0 0)] compare
  p2p := .notAttempted
  ordinals_match := by decide +kernel

theorem probedAt_addressable (time : UInt64) : (probedAt time).Addressable := by
  have hlist : (probedAt time).devices.toList = [(⟨0⟩, entry 0 0)] := rfl
  refine ⟨?_, ?_⟩
  · rw [hlist]
    decide
  · intro keyed hkeyed
    rw [hlist, List.mem_singleton] at hkeyed
    subst hkeyed
    exact ⟨⟨by decide, nofun⟩, nofun, nofun, by decide, by decide⟩

/-- The first device bound on its own, with or without a virtual partition. -/
def boundAlone (attached : Option VirtualDevicePartition) : BoundDistributedPlan where
  logicalDistributedPlanHash := "sha256:aa"
  kind := .implicitLocal (device 0) attached
  deviceSet := .fromMembers [device 0]
  snapshotId := (probedAt 0).id
  fixtureIdentityClass := .synthetic
  transportClass := .none
  boundDistributedPlanHash := ""

theorem boundAlone_addressable (attached : Option VirtualDevicePartition) :
    (boundAlone attached).Addressable := by
  have hlist : (boundAlone attached).deviceSet.members.toList = [device 0] := rfl
  have hdevice : (device 0).Short := ⟨by decide, nofun⟩
  refine ⟨(by decide : Short "sha256:aa"), hdevice, ?_, ?_⟩
  · rw [hlist]
    decide
  · intro member hmember
    rw [hlist, List.mem_singleton] at hmember
    subst hmember
    exact hdevice

end TwoPartitions

open TwoPartitions in
/-- Two probe times, and one device bound with and without a virtual partition. -/
theorem probed_and_bound_bytes_ne :
    (probedAt 0).canonicalBytes ≠ (probedAt 1).canonicalBytes ∧
      ∃ binding, binding ∈ TwoPartitions.binding 1 (device 0) (ledger 64 0) ∧
        (boundAlone none).canonicalBytes ≠ (boundAlone binding.virtualPartition).canonicalBytes := by
  refine ⟨?_, ?_⟩
  · rw [Ne, snapshot_and_plan_bytes_eq_iff.1 _ _ (probedAt_addressable 0) (probedAt_addressable 1)]
    rintro ⟨htime, -, -⟩
    exact absurd htime (by decide)
  · have hbinding : (TwoPartitions.binding 1 (device 0) (ledger 64 0)).any
        (·.virtualPartition.isSome) = true := by decide +kernel
    obtain ⟨binding, hbinding, hsome⟩ := (Option.any_eq_true _ _).mp hbinding
    refine ⟨binding, hbinding, ?_⟩
    rw [Ne, snapshot_and_plan_bytes_eq_iff.2 _ _ (boundAlone_addressable _)
      (boundAlone_addressable _)]
    rintro ⟨-, hkind, -⟩
    obtain ⟨p, hp⟩ := Option.isSome_iff_exists.mp hsome
    simp [boundAlone, BoundPlanKind.facts, hp] at hkind

end FaberHosts.Coordinator
