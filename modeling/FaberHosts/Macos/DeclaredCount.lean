import FaberHosts.Lib.Scan
import FaberHosts.Macos.Translate

/-!
# Declared device counts

A plan bound under a declared count uses so many devices and gives each the same number of
partitions, side by side in plan order, as long as the snapshot lists different devices.
-/

namespace FaberHosts.Macos
open FaberHosts.Lib FaberHosts.Coordinator

variable {T : Toolchain} {plan : TranslatedDistributedPlan} {snapshot : DeviceDiscoverySnapshot}
  {bound : BoundDistributedPlan}

/-- The device a bound plan puts a partition on. -/
def deviceOf (plan : TranslatedDistributedPlan) (bound : BoundDistributedPlan)
    (partition : LogicalPartitionId) : Option PhysicalDeviceId :=
  match bound.kind with
  | .distributed bindings => (bindings[partition]?).map (·.device)
  | .implicitLocal device _ => if partition ∈ plan.partitions then some device else none

/-- The bound plan uses so many devices, every partition is on one of them, and each has the
    same number of partitions, side by side in plan order. -/
structure Honoured (plan : TranslatedDistributedPlan) (bound : BoundDistributedPlan)
    (count : Nat) : Prop where
  counted : bound.deviceSet.len = count
  placed : ∀ partition ∈ plan.partitions, ∃ device ∈ bound.deviceSet.members,
    deviceOf plan bound partition = some device
  held : ∀ device ∈ bound.deviceSet.members,
    Holds plan.partitions (deviceOf plan bound) (plan.partitions.length / count) device

/-! ## What a bind that succeeds says -/

theorem bindEach_ok {deviceAt : Nat → PhysicalDeviceId} {index : Nat}
    {rest : List LogicalPartitionId} {before bindings : Bindings}
    (h : bindEach plan snapshot deviceAt index rest before = .ok bindings) :
    ∃ entries : List (LogicalPartitionId × PartitionBinding),
      bindings = entries.foldl (fun m entry => m.insert entry.1 entry.2) before ∧
      entries.map Prod.fst = rest ∧
      entries.map (·.2.device) = (List.range' index rest.length).map deviceAt := by
  induction rest generalizing index before with
  | nil =>
    obtain rfl : before = bindings := by simpa [bindEach] using h
    exact ⟨[], rfl, rfl, rfl⟩
  | cons partition rest ih =>
    obtain ⟨safeLimit, -, h⟩ := bind_ok_iff.mp h
    obtain ⟨vp, -, h⟩ := bind_ok_iff.mp h
    obtain ⟨entries, hbindings, hkeys, hdevices⟩ := ih h
    refine ⟨(partition, ⟨deviceAt index, some vp⟩) :: entries, hbindings, ?_, ?_⟩
    · rw [List.map_cons, hkeys]
    · rw [List.map_cons, hdevices, List.length_cons, List.range'_succ, List.map_cons]

/-- What a bound plan says of its bindings. -/
structure BoundBy (plan : TranslatedDistributedPlan) (bindings : Bindings)
    (bound : BoundDistributedPlan) : Prop where
  keys : ∀ partition, partition ∈ bindings ↔ partition ∈ plan.partitions
  devices : ∀ device, device ∈ bound.deviceSet.members ↔
    ∃ binding ∈ BoundDistributedPlan.bindingValues bindings, binding.device = device
  device : ∀ partition ∈ plan.partitions,
    deviceOf plan bound partition = (bindings[partition]?).map (·.device)
  nonempty : plan.partitions ≠ []

theorem bind_ok {admitted : AdmittedLogicalPlan} {bindings : Bindings} {deviceSet : DeviceSet}
    {generation : DeviceHealthGeneration} {fixture : FixtureIdentityClass}
    {transport : TransportClass}
    (h : Coordinator.bind T admitted bindings deviceSet snapshot generation fixture transport =
      some (.ok bound)) :
    bound.deviceSet = deviceSet ∧ admitted.declaredPartitions = keySet bindings ∧
      setOf ((BoundDistributedPlan.bindingValues bindings).map (·.device)) = deviceSet.members ∧
      boundPlanKind admitted bindings = some bound.kind := by
  unfold Coordinator.bind at h
  obtain ⟨checked, hchecked, h⟩ := Option.bind_eq_some_iff.mp h
  cases checked with
  | error e => simp at h
  | ok u =>
    obtain ⟨kind, hkind, h⟩ := Option.bind_eq_some_iff.mp h
    simp only [Option.some.injEq, Except.ok.injEq] at h
    subst h
    unfold bindChecks at hchecked
    simp only at hchecked
    split at hchecked
    · simp at hchecked
    · split at hchecked
      · simp at hchecked
      · split at hchecked
        · simp at hchecked
        · rename_i hkeys
          split at hchecked
          · simp at hchecked
          · rename_i hdevices
            exact ⟨rfl, not_not.mp hkeys, not_not.mp hdevices, hkind⟩

theorem finishBind_ok {bindings : Bindings} {deviceSet : DeviceSet}
    {constraints : List DeclaredPlacementConstraint}
    (h : finishBind T plan bindings deviceSet snapshot constraints = some (.ok bound)) :
    bound.deviceSet = deviceSet ∧ BoundBy plan bindings bound := by
  unfold finishBind at h
  split at h
  · simp at h
  · rename_i admitted hadmit
    obtain ⟨hset, hkeys, hdevices, hkind⟩ := bind_ok h
    have hdeclared : admitted.declaredPartitions = setOf plan.partitions := by
      unfold AdmittedLogicalPlan.admit at hadmit
      split at hadmit
      · cases hadmit
      · simp only at hadmit
        split at hadmit
        · cases hadmit
        · split at hadmit
          · cases hadmit
          · cases hadmit
            rfl
    have hmem : ∀ partition, partition ∈ bindings ↔ partition ∈ plan.partitions := by
      intro partition
      rw [← mem_keySet, ← hkeys, hdeclared, mem_setOf]
    refine ⟨hset, hmem, ?_, ?_, ?_⟩
    · intro device
      rw [hset, ← hdevices, mem_setOf, List.mem_map]
    · intro partition hpartition
      unfold deviceOf
      unfold boundPlanKind at hkind
      split at hkind
      · rename_i hsingle
        obtain ⟨binding, hfirst, hlocal⟩ := Option.map_eq_some_iff.mp hkind
        rw [← hlocal]
        have hsize : plan.partitions.toFinset.card = 1 := by
          rw [← size_setOf, ← hdeclared]
          simpa [AdmittedLogicalPlan.isSinglePartition] using hsingle
        obtain ⟨only, honly⟩ := Finset.card_eq_one.mp hsize
        have halone : ∀ other ∈ plan.partitions, other = only := by
          intro other hother
          simpa [honly] using List.mem_toFinset.mpr hother
        obtain ⟨keyed, hkeyed, rfl⟩ : ∃ keyed ∈ bindings.toList, keyed.2 = binding := by
          have hvalue : binding ∈ BoundDistributedPlan.bindingValues bindings :=
            List.mem_of_mem_head? hfirst
          exact List.mem_map.mp hvalue
        have hget := Std.ExtTreeMap.mem_toList_iff_getElem?_eq_some.mp hkeyed
        have hkey : keyed.1 = partition := by
          rw [halone partition hpartition]
          refine halone keyed.1 ((hmem keyed.1).mp ?_)
          exact (mem_iff_getElem? bindings keyed.1).mpr ⟨_, hget⟩
        have hfound : bindings[partition]? = some keyed.2 := hkey ▸ hget
        simp only [hpartition, if_true, hfound, Option.map_some]
      · obtain hlocal := Option.some.inj hkind
        rw [← hlocal]
    · intro hempty
      have hnone := admitted.declared_nonempty
      rw [hdeclared, hempty] at hnone
      exact absurd hnone (by decide)

/-! ## The three policies -/

/-- What a bind under a declared count does: it deals the devices out in plan order, each to
    the same number of partitions. -/
structure Dealt (plan : TranslatedDistributedPlan) (snapshot : DeviceDiscoverySnapshot)
    (bound : BoundDistributedPlan) (count : Nat) : Prop where
  positive : 0 < count
  divides : count * (plan.partitions.length / count) = plan.partitions.length
  dealt : ∃ entries : List (LogicalPartitionId × PartitionBinding),
    BoundBy plan (entries.foldl (fun m entry => m.insert entry.1 entry.2) ∅) bound ∧
    entries.map Prod.fst = plan.partitions ∧
    ∀ i (h : i < entries.length), count ≤ (snapshotPhysicalIds snapshot).length →
      (snapshotPhysicalIds snapshot)[i / (plan.partitions.length / count)]? =
        some entries[i].2.device
  listed : count = 1 ∧ snapshotPhysicalIds snapshot ≠ [] ∨
    bound.deviceSet.members = setOf (snapshotPhysicalIds snapshot)

theorem device_getElem {entries : List (LogicalPartitionId × PartitionBinding)} {n : Nat}
    {deviceAt : Nat → PhysicalDeviceId}
    (h : entries.map (·.2.device) = (List.range' 0 n).map deviceAt) (i : Nat)
    (hi : i < entries.length) : entries[i].2.device = deviceAt i := by
  have hlength : entries.length = n := by simpa using congrArg List.length h
  have hget := congrArg (fun devices => devices[i]?) h
  simpa [hi, hlength ▸ hi] using hget

theorem dealt_of_colocate
    (hbind : bindColocate T plan snapshot [] = some (.ok bound)) :
    Dealt plan snapshot bound 1 := by
  simp only [bindColocate] at hbind
  split at hbind
  · cases hbind
  rename_i device others hids
  split at hbind
  · cases hbind
  rename_i bindings hbindings
  obtain ⟨-, hbound⟩ := finishBind_ok hbind
  obtain ⟨entries, rfl, hkeys, hdevices⟩ := bindEach_ok hbindings
  refine ⟨Nat.one_pos, by simp, ⟨entries, hbound, hkeys, ?_⟩, Or.inl ⟨rfl, by simp [hids]⟩⟩
  intro i hi _
  have hlength : entries.length = plan.partitions.length := by rw [← hkeys, List.length_map]
  have hfirst : i / (plan.partitions.length / 1) = 0 := by
    rw [Nat.div_one]
    exact Nat.div_eq_of_lt (hlength ▸ hi)
  rw [hfirst, device_getElem hdevices i hi, hids]
  rfl

theorem dealt_of_onePhysicalPerPartition
    (hbind : bindOnePhysicalPerPartition T plan snapshot [] = some (.ok bound)) :
    Dealt plan snapshot bound plan.partitions.length := by
  simp only [bindOnePhysicalPerPartition] at hbind
  split at hbind
  · cases hbind
  split at hbind
  · cases hbind
  rename_i bindings hbindings
  obtain ⟨hset, hbound⟩ := finishBind_ok hbind
  obtain ⟨entries, rfl, hkeys, hdevices⟩ := bindEach_ok hbindings
  have hpositive : 0 < plan.partitions.length := List.length_pos_iff.mpr hbound.nonempty
  have hsingle : plan.partitions.length / plan.partitions.length = 1 := Nat.div_self hpositive
  refine ⟨hpositive, by rw [hsingle, Nat.mul_one], ⟨entries, hbound, hkeys, ?_⟩, Or.inr ?_⟩
  · intro i hi hmany
    have hlength : entries.length = plan.partitions.length := by rw [← hkeys, List.length_map]
    have hlisted : i < (snapshotPhysicalIds snapshot).length := by omega
    rw [hsingle, Nat.div_one, device_getElem hdevices i hi, List.getElem?_eq_getElem hlisted,
      List.getD_eq_getElem _ _ hlisted]
  · rw [hset]
    rfl

theorem dealt_of_splitAcrossMembership {count : UInt32}
    (hbind : bindSplitAcrossMembership T plan snapshot count [] = some (.ok bound)) :
    Dealt plan snapshot bound count.toNat := by
  simp only [bindSplitAcrossMembership] at hbind
  split at hbind
  · cases hbind
  rename_i hlegal
  rw [not_or, not_or, not_not] at hlegal
  split at hbind
  · cases hbind
  split at hbind
  · cases hbind
  rename_i bindings hbindings
  obtain ⟨hset, hbound⟩ := finishBind_ok hbind
  obtain ⟨entries, rfl, hkeys, hdevices⟩ := bindEach_ok hbindings
  have hdivides : count.toNat * (plan.partitions.length / count.toNat) =
      plan.partitions.length := Nat.mul_div_cancel' (Nat.dvd_of_mod_eq_zero hlegal.2.2)
  refine ⟨Nat.pos_of_ne_zero hlegal.1, hdivides, ⟨entries, hbound, hkeys, ?_⟩, Or.inr ?_⟩
  · intro i hi hmany
    have hlength : entries.length = plan.partitions.length := by rw [← hkeys, List.length_map]
    have hlisted : i / (plan.partitions.length / count.toNat) <
        (snapshotPhysicalIds snapshot).length := by
      apply lt_of_lt_of_le _ hmany
      apply Nat.div_lt_of_lt_mul
      rw [Nat.mul_comm, hdivides, ← hlength]
      exact hi
    rw [device_getElem hdevices i hi, List.getElem?_eq_getElem hlisted,
      List.getD_eq_getElem _ _ hlisted]
  · rw [hset]
    rfl

theorem dealt_of_bind {count : UInt32} {policy : BindPolicy}
    (hpolicy : bindPolicyForDeclaredCount plan.partitions.length count = .ok policy)
    (hbind : bindTranslated T plan snapshot policy = some (.ok bound)) :
    Dealt plan snapshot bound count.toNat := by
  unfold bindPolicyForDeclaredCount at hpolicy
  simp only at hpolicy
  split at hpolicy
  · cases hpolicy
  split at hpolicy
  · rename_i hone
    cases hpolicy
    subst hone
    exact dealt_of_colocate hbind
  split at hpolicy
  · rename_i hall
    cases hpolicy
    rw [hall]
    exact dealt_of_onePhysicalPerPartition hbind
  split at hpolicy
  · cases hpolicy
    exact dealt_of_splitAcrossMembership hbind
  · cases hpolicy

/-! ## What the snapshot has to list -/

section Dealt

variable {count : Nat}

/-- Every partition is bound, in plan order, to one of the first devices of the snapshot. -/
theorem Dealt.deviceOf_getElem (h : Dealt plan snapshot bound count)
    (hpartitions : plan.partitions.Nodup)
    (hlong : count ≤ (snapshotPhysicalIds snapshot).length) (i : Nat)
    (hi : i < plan.partitions.length) :
    deviceOf plan bound plan.partitions[i] =
      ((snapshotPhysicalIds snapshot).take count)[i / (plan.partitions.length / count)]? := by
  obtain ⟨entries, hbound, hkeys, hdealt⟩ := h.dealt
  have hlength : entries.length = plan.partitions.length := by rw [← hkeys, List.length_map]
  have hentry : i < entries.length := hlength ▸ hi
  have hkey : entries[i].1 = plan.partitions[i] := by simp [← hkeys]
  have hchunk : i / (plan.partitions.length / count) < count := by
    apply Nat.div_lt_of_lt_mul
    rw [Nat.mul_comm, h.divides]
    exact hi
  rw [hbound.device _ (List.getElem_mem hi), ← hkey,
    getElem?_foldl_insert_of_mem (hkeys ▸ hpartitions) (List.getElem_mem hentry),
    List.getElem?_take_of_lt hchunk, hdealt i hentry hlong]
  rfl

theorem Dealt.mem_members_iff (h : Dealt plan snapshot bound count)
    (device : PhysicalDeviceId) :
    device ∈ bound.deviceSet.members ↔
      ∃ partition ∈ plan.partitions, deviceOf plan bound partition = some device := by
  obtain ⟨entries, hbound, -, -⟩ := h.dealt
  rw [hbound.devices]
  constructor
  · rintro ⟨binding, hbinding, rfl⟩
    obtain ⟨keyed, hkeyed, rfl⟩ := List.mem_map.mp hbinding
    have hget := Std.ExtTreeMap.mem_toList_iff_getElem?_eq_some.mp hkeyed
    have hkey := (hbound.keys keyed.1).mp ((mem_iff_getElem? _ _).mpr ⟨_, hget⟩)
    refine ⟨keyed.1, hkey, ?_⟩
    rw [hbound.device keyed.1 hkey, hget]
    rfl
  · rintro ⟨partition, hpartition, hdevice⟩
    rw [hbound.device partition hpartition] at hdevice
    obtain ⟨binding, hget, hsame⟩ := Option.map_eq_some_iff.mp hdevice
    refine ⟨binding, List.mem_map.mpr ⟨(partition, binding), ?_, rfl⟩, hsame⟩
    exact Std.ExtTreeMap.mem_toList_iff_getElem?_eq_some.mpr hget

theorem Dealt.chunk_pos (h : Dealt plan snapshot bound count) :
    0 < plan.partitions.length / count := by
  obtain ⟨entries, hbound, -, -⟩ := h.dealt
  have hsome : 0 < plan.partitions.length := List.length_pos_iff.mpr hbound.nonempty
  apply Nat.pos_of_ne_zero
  intro hzero
  have hdivides := h.divides
  rw [hzero] at hdivides
  omega

/-- Over distinct partitions the members are the first devices of the snapshot. -/
theorem Dealt.mem_members_iff_take (h : Dealt plan snapshot bound count)
    (hpartitions : plan.partitions.Nodup)
    (hlong : count ≤ (snapshotPhysicalIds snapshot).length) (device : PhysicalDeviceId) :
    device ∈ bound.deviceSet.members ↔ device ∈ (snapshotPhysicalIds snapshot).take count := by
  rw [h.mem_members_iff]
  constructor
  · rintro ⟨partition, hpartition, hdevice⟩
    obtain ⟨i, hi, rfl⟩ := List.mem_iff_getElem.mp hpartition
    rw [h.deviceOf_getElem hpartitions hlong] at hdevice
    exact List.mem_of_getElem? hdevice
  · intro hdevice
    obtain ⟨j, hj, rfl⟩ := List.mem_iff_getElem.mp hdevice
    have hcount : j < count := by
      rw [List.length_take] at hj
      omega
    have hindex : j * (plan.partitions.length / count) < plan.partitions.length := by
      calc j * (plan.partitions.length / count)
          < count * (plan.partitions.length / count) :=
            Nat.mul_lt_mul_of_pos_right hcount h.chunk_pos
        _ = plan.partitions.length := h.divides
    refine ⟨plan.partitions[j * (plan.partitions.length / count)], List.getElem_mem hindex, ?_⟩
    rw [h.deviceOf_getElem hpartitions hlong, Nat.mul_div_cancel _ h.chunk_pos,
      List.getElem?_eq_getElem hj]

theorem Dealt.listed_of_counted (h : Dealt plan snapshot bound count)
    (hcounted : bound.deviceSet.len = count) :
    count ≤ (snapshotPhysicalIds snapshot).length := by
  rcases h.listed with ⟨hone, hids⟩ | hmembers
  · rw [hone]
    exact List.length_pos_iff.mpr hids
  · rw [DeviceSet.len, hmembers, size_setOf] at hcounted
    rw [← hcounted]
    exact List.toFinset_card_le _

theorem Dealt.honoured (h : Dealt plan snapshot bound count) (hpartitions : plan.partitions.Nodup)
    (hlong : count ≤ (snapshotPhysicalIds snapshot).length)
    (hdevices : ((snapshotPhysicalIds snapshot).take count).Nodup) :
    Honoured plan bound count := by
  have hmembers := h.mem_members_iff_take hpartitions hlong
  have htaken : ((snapshotPhysicalIds snapshot).take count).length = count :=
    List.length_take_of_le hlong
  have hholds := holds_of_dealt hpartitions hdevices h.chunk_pos (by rw [htaken, h.divides])
    (h.deviceOf_getElem hpartitions hlong)
  refine ⟨?_, ?_, fun device hdevice => hholds device ((hmembers device).mp hdevice)⟩
  · have hsame : bound.deviceSet.members = setOf ((snapshotPhysicalIds snapshot).take count) := by
      apply Std.ExtTreeSet.ext_mem
      intro device
      rw [hmembers, mem_setOf]
    rw [DeviceSet.len, hsame, size_setOf, List.toFinset_card_of_nodup hdevices, htaken]
  · intro partition hpartition
    obtain ⟨i, hi, rfl⟩ := List.mem_iff_getElem.mp hpartition
    have hplaced := h.deviceOf_getElem hpartitions hlong i hi
    have hchunk : i / (plan.partitions.length / count) <
        ((snapshotPhysicalIds snapshot).take count).length := by
      rw [htaken]
      apply Nat.div_lt_of_lt_mul
      rw [Nat.mul_comm, h.divides]
      exact hi
    rw [List.getElem?_eq_getElem hchunk] at hplaced
    exact ⟨_, (hmembers _).mpr (List.getElem_mem hchunk), hplaced⟩

theorem Dealt.partitions_nodup (h : Dealt plan snapshot bound count)
    (hheld : Honoured plan bound count) : plan.partitions.Nodup := by
  refine @nodup_of_holds _ _ plan.partitions (deviceOf plan bound)
    (plan.partitions.length / count) _ _ bound.deviceSet.members.toList.toFinset ?_ ?_ ?_
  · rw [List.toFinset_card_of_nodup (nodup_toList _), Std.ExtTreeSet.length_toList]
    rw [show bound.deviceSet.members.size = count from hheld.counted, h.divides]
  · intro partition hpartition
    obtain ⟨device, hdevice, hplaced⟩ := hheld.placed partition hpartition
    exact ⟨device, by simpa using hdevice, hplaced⟩
  · intro device hdevice
    exact hheld.held device (by simpa using hdevice)

theorem Dealt.devices_nodup (h : Dealt plan snapshot bound count)
    (hheld : Honoured plan bound count) :
    ((snapshotPhysicalIds snapshot).take count).Nodup := by
  have hlong := h.listed_of_counted hheld.counted
  have hmembers := h.mem_members_iff_take (h.partitions_nodup hheld) hlong
  have hsame : bound.deviceSet.members = setOf ((snapshotPhysicalIds snapshot).take count) := by
    apply Std.ExtTreeSet.ext_mem
    intro device
    rw [hmembers, mem_setOf]
  have hcard : ((snapshotPhysicalIds snapshot).take count).toFinset.card =
      ((snapshotPhysicalIds snapshot).take count).length := by
    rw [← size_setOf, ← hsame, List.length_take_of_le hlong]
    exact hheld.counted
  exact Multiset.toFinset_card_eq_card_iff_nodup.mp hcard

end Dealt

/-- A snapshot with devices at ordinals 0 and 1. -/
def pairOf (first second : DeviceDiscoveryEntry) : Option DeviceDiscoverySnapshot :=
  DeviceDiscoverySnapshot.new 0 (Std.ExtTreeMap.ofList [(⟨0⟩, first), (⟨1⟩, second)] compare)
    .notAttempted

def pairPlan : TranslatedDistributedPlan :=
  ⟨"sha256:aaaaaaaaaaaaaaaaaaaaaaaaaaaaaaaaaaaaaaaaaaaaaaaaaaaaaaaaaaaaaaaa",
    [TwoPartitions.partition 0, TwoPartitions.partition 1], ∅⟩

/-- The plan bound one device each onto such a snapshot. -/
def pairBound (first second : DeviceDiscoveryEntry) :
    Option (DeviceDiscoverySnapshot × BoundDistributedPlan) := do
  let snapshot ← pairOf first second
  let bound ← okValue (bindTranslated .dev pairPlan snapshot .onePhysicalPerPartition)
  return (snapshot, bound)

theorem pairBound_some {first second : DeviceDiscoveryEntry} {snapshot : DeviceDiscoverySnapshot}
    {bound : BoundDistributedPlan} (h : pairBound first second = some (snapshot, bound)) :
    pairOf first second = some snapshot ∧
      bindTranslated .dev pairPlan snapshot .onePhysicalPerPartition = some (.ok bound) := by
  obtain ⟨found, hfound, h⟩ := Option.bind_eq_some_iff.mp h
  obtain ⟨answer, hanswer, h⟩ := Option.bind_eq_some_iff.mp h
  cases h
  obtain ⟨result, hresult, hok⟩ := Option.bind_eq_some_iff.mp hanswer
  cases result with
  | error e => cases hok
  | ok answer =>
    cases hok
    exact ⟨hfound, hresult⟩

end FaberHosts.Macos
