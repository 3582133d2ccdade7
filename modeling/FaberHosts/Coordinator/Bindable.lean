import FaberHosts.Coordinator.BoundPlan

/-!
# What binds

The condition under which `bind` answers a plan, told without the order of its checks.  The
lookups that would panic are those of partitions that no binding names: admission checks that a
constraint names declared partitions only, and the keys are compared before a constraint is
looked at.
-/

namespace FaberHosts.Coordinator
open FaberHosts.Lib

/-! ## The condition -/

/-- The bindings place the partitions as the constraint declares. -/
def DeclaredPlacementConstraint.HoldsOf (bindings : Bindings) :
    DeclaredPlacementConstraint → Prop
  | .distinctPhysicalDevices => ∀ (p q : LogicalPartitionId) (b c : PartitionBinding),
      bindings[p]? = some b → bindings[q]? = some c → b.device = c.device → p = q
  | .colocated partitions => ∀ p ∈ partitions, ∀ q ∈ partitions, ∀ b c : PartitionBinding,
      bindings[p]? = some b → bindings[q]? = some c → b.device = c.device
  | .requiredBackend partitions backend => ∀ p ∈ partitions, ∀ b : PartitionBinding,
      bindings[p]? = some b → b.device.backend = backend

/-- A declared demand is within a limit that the device has measured. -/
def WithinLimit (demand : Option UInt32) (limit : UInt32) : Prop :=
  ∀ demanded, demand = some demanded → limit ≠ 0 ∧ demanded ≤ limit

/-- What `bind` demands of its arguments. -/
structure Bindable (admitted : AdmittedLogicalPlan) (bindings : Bindings) (deviceSet : DeviceSet)
    (snapshot : DeviceDiscoverySnapshot) (generation : DeviceHealthGeneration) : Prop where
  entries : ∀ entry ∈ snapshot.entries, entry.healthGeneration = generation
  members : ∀ device ∈ deviceSet.members, ∃ entry ∈ snapshot.entries,
    entry.identity = device ∧ entry.healthGeneration = generation
  partitions : ∀ partition, partition ∈ bindings ↔ partition ∈ admitted.declaredPartitions
  devices : ∀ device, device ∈ deviceSet.members ↔
    ∃ (partition : LogicalPartitionId) (binding : PartitionBinding),
      bindings[partition]? = some binding ∧ binding.device = device
  attached : ∀ (partition : LogicalPartitionId) (binding : PartitionBinding)
    (instance_ : VirtualDevicePartition), bindings[partition]? = some binding →
    binding.virtualPartition = some instance_ →
    instance_.isActive = true ∧ instance_.boundDevice = binding.device
  constraints : ∀ constraint ∈ admitted.declaredConstraints, constraint.HoldsOf bindings
  limits : ∀ (partition : LogicalPartitionId) (binding : PartitionBinding)
    (entry : DeviceDiscoveryEntry), bindings[partition]? = some binding →
    snapshot.findEntry binding.device = some entry →
    WithinLimit admitted.launchResourceDemand.threadsPerWorkgroup
        entry.capabilities.maxThreadsPerWorkgroup ∧
      WithinLimit admitted.launchResourceDemand.workgroupSharedMemoryBytes
        entry.capabilities.workgroupSharedMemoryMaxBytes

/-! ## One check at a time -/

section Checks

variable {bindings : Bindings} {snapshot : DeviceDiscoverySnapshot}
  {generation : DeviceHealthGeneration}

theorem mem_bindingValues {binding : PartitionBinding} :
    binding ∈ BoundDistributedPlan.bindingValues bindings ↔
      ∃ partition : LogicalPartitionId, bindings[partition]? = some binding := by
  unfold BoundDistributedPlan.bindingValues
  rw [List.mem_map]
  constructor
  · rintro ⟨⟨partition, binding⟩, hmem, rfl⟩
    exact ⟨partition, Std.ExtTreeMap.mem_toList_iff_getElem?_eq_some.mp hmem⟩
  · rintro ⟨partition, hget⟩
    exact ⟨(partition, binding), Std.ExtTreeMap.mem_toList_iff_getElem?_eq_some.mpr hget, rfl⟩

theorem mem_boundDevices {device : PhysicalDeviceId} :
    device ∈ setOf ((BoundDistributedPlan.bindingValues bindings).map (·.device)) ↔
      ∃ (partition : LogicalPartitionId) (binding : PartitionBinding),
      bindings[partition]? = some binding ∧ binding.device = device := by
  rw [mem_setOf, List.mem_map]
  constructor
  · rintro ⟨binding, hbinding, hdevice⟩
    obtain ⟨partition, hget⟩ := mem_bindingValues.mp hbinding
    exact ⟨partition, binding, hget, hdevice⟩
  · rintro ⟨partition, binding, hget, hdevice⟩
    exact ⟨binding, mem_bindingValues.mpr ⟨partition, hget⟩, hdevice⟩

theorem exists_findEntry {device : PhysicalDeviceId} {entry : DeviceDiscoveryEntry}
    (hentry : entry ∈ snapshot.entries) (hidentity : entry.identity = device) :
    ∃ found, snapshot.findEntry device = some found := by
  cases hfound : snapshot.findEntry device with
  | none =>
    exact absurd hidentity (DeviceDiscoverySnapshot.findEntry_eq_none_iff.mp hfound entry hentry)
  | some found => exact ⟨found, rfl⟩

/-- In a current snapshot a member is recorded when some entry is its own. -/
theorem validate_current_iff {deviceSet : DeviceSet}
    (hcurrent : ∀ entry ∈ snapshot.entries, entry.healthGeneration = generation) :
    deviceSet.validate snapshot generation = .ok () ↔
      ∀ device ∈ deviceSet.members, ∃ entry ∈ snapshot.entries,
        entry.identity = device ∧ entry.healthGeneration = generation := by
  unfold DeviceSet.validate
  rw [tryEach_ok_iff]
  simp only [Std.ExtTreeSet.mem_toList, validateMember_ok_iff]
  refine forall₂_congr fun device _ => ?_
  constructor
  · rintro ⟨entry, hfound, hgeneration⟩
    obtain ⟨hmem, hidentity⟩ := DeviceDiscoverySnapshot.findEntry_some hfound
    exact ⟨entry, hmem, hidentity, hgeneration⟩
  · rintro ⟨entry, hmem, hidentity, -⟩
    obtain ⟨found, hfound⟩ := exists_findEntry hmem hidentity
    exact ⟨found, hfound, hcurrent found (DeviceDiscoverySnapshot.findEntry_some hfound).1⟩

theorem checkBindingConsistency_ok_iff {bound : LogicalPartitionId × PartitionBinding} :
    checkBindingConsistency bound = .ok () ↔
      ∀ instance_, bound.2.virtualPartition = some instance_ →
        instance_.isActive = true ∧ instance_.boundDevice = bound.2.device := by
  unfold checkBindingConsistency
  cases bound.2.virtualPartition with
  | none => simp
  | some instance_ =>
    by_cases hdevice : instance_.boundDevice = bound.2.device
    · by_cases hactive : instance_.isActive = true
      · simp [hdevice, hactive]
      · simp [hdevice, hactive]
    · simp [hdevice]

theorem consistent_iff : tryEach checkBindingConsistency bindings.toList = .ok () ↔
    ∀ (partition : LogicalPartitionId) (binding : PartitionBinding)
      (instance_ : VirtualDevicePartition), bindings[partition]? = some binding →
      binding.virtualPartition = some instance_ →
      instance_.isActive = true ∧ instance_.boundDevice = binding.device := by
  rw [tryEach_ok_iff]
  simp only [checkBindingConsistency_ok_iff, Prod.forall,
    Std.ExtTreeMap.mem_toList_iff_getElem?_eq_some]
  exact forall_congr' fun partition => forall_congr' fun binding => forall_comm

theorem checkLaunchLimit_ok_iff {device : PhysicalDeviceId} {demand : Option UInt32}
    {ceiling : UInt32} {field : String} {exceeds : UInt32 → UInt32 → String} :
    checkLaunchLimit device demand ceiling field exceeds = .ok () ↔ WithinLimit demand ceiling := by
  unfold checkLaunchLimit WithinLimit evaluableLaunchLimit
  cases demand with
  | none => simp
  | some demanded =>
    by_cases hzero : ceiling = 0
    · simp [hzero]
    · by_cases hover : ceiling < demanded
      · simp [hzero, hover]
      · simp [hzero, hover, UInt32.not_lt.mp hover]

theorem checkDeviceLaunchLimits_ok_iff {demand : LaunchResourceDemand}
    {device : PhysicalDeviceId} {entry : DeviceDiscoveryEntry}
    (hfound : snapshot.findEntry device = some entry) :
    checkDeviceLaunchLimits demand snapshot device = .ok () ↔
      WithinLimit demand.threadsPerWorkgroup entry.capabilities.maxThreadsPerWorkgroup ∧
        WithinLimit demand.workgroupSharedMemoryBytes
          entry.capabilities.workgroupSharedMemoryMaxBytes := by
  unfold checkDeviceLaunchLimits
  rw [hfound]
  dsimp only
  split
  next e hthreads =>
    have hrefused := checkLaunchLimit_ok_iff.not.mp (fun hok => nomatch hthreads.symm.trans hok)
    simp [hrefused]
  next hthreads =>
    have hwithin := checkLaunchLimit_ok_iff.mp hthreads
    rw [checkLaunchLimit_ok_iff]
    simp [hwithin]

/-- The devices of the set are recorded, so no lookup of the limits fails. -/
theorem checkLaunchResourceLimits_ok_iff {demand : LaunchResourceDemand}
    {devices : BTreeSet PhysicalDeviceId}
    (hrecorded : ∀ device ∈ devices, ∃ entry, snapshot.findEntry device = some entry) :
    checkLaunchResourceLimits demand devices snapshot = .ok () ↔
      ∀ device ∈ devices, ∀ entry, snapshot.findEntry device = some entry →
        WithinLimit demand.threadsPerWorkgroup entry.capabilities.maxThreadsPerWorkgroup ∧
          WithinLimit demand.workgroupSharedMemoryBytes
            entry.capabilities.workgroupSharedMemoryMaxBytes := by
  unfold checkLaunchResourceLimits
  split
  next hundeclared =>
    rw [Bool.and_eq_true, Option.isNone_iff_eq_none, Option.isNone_iff_eq_none] at hundeclared
    refine iff_of_true rfl fun device _ entry _ => ⟨?_, ?_⟩
    · rintro demanded hdemanded
      exact nomatch hundeclared.1.symm.trans hdemanded
    · rintro demanded hdemanded
      exact nomatch hundeclared.2.symm.trans hdemanded
  next hdeclared =>
    rw [tryEach_ok_iff]
    simp only [Std.ExtTreeSet.mem_toList]
    refine forall₂_congr fun device hdevice => ?_
    obtain ⟨entry, hfound⟩ := hrecorded device hdevice
    rw [checkDeviceLaunchLimits_ok_iff hfound]
    simp [hfound]

/-! ## Placement constraints -/

/-- The partitions that a constraint names. -/
def DeclaredPlacementConstraint.Names (partition : LogicalPartitionId) :
    DeclaredPlacementConstraint → Prop
  | .distinctPhysicalDevices => False
  | .colocated partitions => partition ∈ partitions
  | .requiredBackend partitions _ => partition ∈ partitions

theorem constraintUnknownPartition_eq_none_iff {declared : BTreeSet LogicalPartitionId}
    {constraint : DeclaredPlacementConstraint} :
    constraintUnknownPartition declared constraint = none ↔
      ∀ partition, constraint.Names partition → partition ∈ declared := by
  cases constraint with
  | distinctPhysicalDevices => simp [constraintUnknownPartition, DeclaredPlacementConstraint.Names]
  | colocated partitions =>
    simp [constraintUnknownPartition, DeclaredPlacementConstraint.Names, List.find?_eq_none]
  | requiredBackend partitions backend =>
    simp [constraintUnknownPartition, DeclaredPlacementConstraint.Names, List.find?_eq_none]

theorem mapM_getElem? {partitions : List LogicalPartitionId}
    (hnamed : ∀ partition ∈ partitions, partition ∈ bindings) :
    ∃ bound, partitions.mapM (fun partition => bindings[partition]?) = some bound ∧
      ∀ binding, binding ∈ bound ↔ ∃ partition ∈ partitions, bindings[partition]? = some binding := by
  induction partitions with
  | nil => exact ⟨[], rfl, by simp⟩
  | cons partition rest ih =>
    obtain ⟨first, hfirst⟩ := (mem_iff_getElem? _ _).mp (hnamed partition List.mem_cons_self)
    obtain ⟨bound, hbound, hmem⟩ := ih fun p hp => hnamed p (List.mem_cons_of_mem partition hp)
    refine ⟨first :: bound, by simp [List.mapM_cons, hfirst, hbound], fun binding => ?_⟩
    rw [List.mem_cons, hmem]
    simp [hfirst, eq_comm]

theorem distinct_iff :
    (setOf ((BoundDistributedPlan.bindingValues bindings).map (·.device))).size = bindings.size ↔
      DeclaredPlacementConstraint.distinctPhysicalDevices.HoldsOf bindings := by
  have hnodup : bindings.toList.Nodup := List.Nodup.of_map _ (nodup_keys_toList bindings)
  rw [size_setOf, ← Std.ExtTreeMap.length_toList, BoundDistributedPlan.bindingValues,
    List.map_map]
  have hcard : ((bindings.toList.map ((·.device) ∘ Prod.snd)).toFinset.card =
      bindings.toList.length) ↔ (bindings.toList.map ((·.device) ∘ Prod.snd)).Nodup := by
    rw [← Multiset.coe_nodup, ← Multiset.toFinset_card_eq_card_iff_nodup]
    simp
  rw [hcard, List.nodup_map_iff_inj_on hnodup]
  constructor
  · intro hinj p q b c hp hq hdevice
    exact congrArg Prod.fst (hinj (p, b) (Std.ExtTreeMap.mem_toList_iff_getElem?_eq_some.mpr hp)
      (q, c) (Std.ExtTreeMap.mem_toList_iff_getElem?_eq_some.mpr hq) hdevice)
  · rintro hdistinct ⟨p, b⟩ hp ⟨q, c⟩ hq hdevice
    have hp := Std.ExtTreeMap.mem_toList_iff_getElem?_eq_some.mp hp
    have hq := Std.ExtTreeMap.mem_toList_iff_getElem?_eq_some.mp hq
    obtain rfl := hdistinct p q b c hp hq hdevice
    obtain rfl : b = c := Option.some.inj (hp.symm.trans hq)
    rfl

theorem size_setOf_le_one_iff {devices : List PhysicalDeviceId} :
    (setOf devices).size ≤ 1 ↔ ∀ d ∈ devices, ∀ e ∈ devices, d = e := by
  rw [size_setOf, Finset.card_le_one]
  simp

/-- Where the named partitions are bound, a constraint is checked without a panic, and the check
    passes exactly when the constraint holds. -/
theorem checkConstraint_spec {constraint : DeclaredPlacementConstraint}
    (hnamed : ∀ partition, constraint.Names partition → partition ∈ bindings) :
    ∃ answer, checkConstraint bindings constraint = some answer ∧
      (answer = .ok () ↔ constraint.HoldsOf bindings) := by
  cases constraint with
  | distinctPhysicalDevices =>
    rw [← distinct_iff]
    unfold checkConstraint
    dsimp only
    split
    next hsize => exact ⟨_, rfl, by simp [hsize]⟩
    next hsize => exact ⟨_, rfl, by simp [not_not.mp hsize]⟩
  | colocated partitions =>
    have hbound : ∀ partition ∈ partitions.toList, partition ∈ bindings :=
      fun partition hp => hnamed partition (Std.ExtTreeSet.mem_toList.mp hp)
    obtain ⟨bound, hbound, hmem⟩ := mapM_getElem? hbound
    have hsize : (setOf (bound.map (·.device))).size ≤ 1 ↔
        (DeclaredPlacementConstraint.colocated partitions).HoldsOf bindings := by
      rw [size_setOf_le_one_iff]
      simp only [List.mem_map, hmem, Std.ExtTreeSet.mem_toList]
      constructor
      · intro h p hp q hq b c hb hc
        exact h _ ⟨b, ⟨p, hp, hb⟩, rfl⟩ _ ⟨c, ⟨q, hq, hc⟩, rfl⟩
      · rintro h _ ⟨b, ⟨p, hp, hb⟩, rfl⟩ _ ⟨c, ⟨q, hq, hc⟩, rfl⟩
        exact h p hp q hq b c hb hc
    unfold checkConstraint
    rw [← hsize]
    simp only [hbound, Option.bind_eq_bind, Option.bind_some]
    split
    next hmany => exact ⟨_, rfl, by simp [hmany]⟩
    next hone => exact ⟨_, rfl, by simp [not_lt.mp hone]⟩
  | requiredBackend partitions backend =>
    obtain ⟨answer, hanswer⟩ :
        ∃ answer, checkConstraint bindings (.requiredBackend partitions backend) = some answer := by
      refine tryEachM_isSome fun partition hp => ?_
      obtain ⟨binding, hbinding⟩ :=
        (mem_iff_getElem? _ _).mp (hnamed partition (Std.ExtTreeSet.mem_toList.mp hp))
      simp [hbinding]
    refine ⟨answer, hanswer, ?_⟩
    have hok : answer = .ok () ↔ some answer = some (.ok ()) := Option.some_inj.symm
    rw [hok, ← hanswer, checkConstraint, tryEachM_ok_iff]
    simp only [Std.ExtTreeSet.mem_toList, DeclaredPlacementConstraint.HoldsOf]
    refine forall₂_congr fun p hp => ?_
    obtain ⟨binding, hbinding⟩ := (mem_iff_getElem? _ _).mp (hnamed p hp)
    simp [hbinding]

end Checks

/-! ## Binding -/

section Binding

variable {admitted : AdmittedLogicalPlan} {bindings : Bindings} {deviceSet : DeviceSet}
  {snapshot : DeviceDiscoverySnapshot} {generation : DeviceHealthGeneration}

/-- With every declared partition bound, the constraints are checked without a panic. -/
theorem placed_spec (hkeys : admitted.declaredPartitions = keySet bindings) :
    ∃ answer, tryEachM (fun constraint => (checkConstraint bindings constraint).map
        (Except.mapError (BindError.constraintViolation constraint))) admitted.declaredConstraints =
        some answer ∧
      (answer = .ok () ↔ ∀ constraint ∈ admitted.declaredConstraints,
        constraint.HoldsOf bindings) := by
  have hspec : ∀ constraint ∈ admitted.declaredConstraints,
      ∃ answer, checkConstraint bindings constraint = some answer ∧
        (answer = .ok () ↔ constraint.HoldsOf bindings) := by
    intro constraint hconstraint
    refine checkConstraint_spec fun partition hnamed => ?_
    rw [← mem_keySet, ← hkeys]
    exact constraintUnknownPartition_eq_none_iff.mp
      (admitted.constraints_declared constraint hconstraint) partition hnamed
  obtain ⟨answer, hanswer⟩ := tryEachM_isSome (l := admitted.declaredConstraints)
    (fun constraint hconstraint => by
      obtain ⟨checked, hchecked, -⟩ := hspec constraint hconstraint
      exact ⟨_, congrArg (Option.map (Except.mapError (BindError.constraintViolation constraint)))
        hchecked⟩)
  refine ⟨answer, hanswer, ?_⟩
  have hok : answer = .ok () ↔ some answer = some (.ok ()) := Option.some_inj.symm
  rw [hok, ← hanswer, tryEachM_ok_iff]
  refine forall₂_congr fun constraint hconstraint => ?_
  obtain ⟨checked, hchecked, hholds⟩ := hspec constraint hconstraint
  rw [← hholds, hchecked]
  cases checked with
  | error e => simp [Except.mapError]
  | ok u => simp [Except.mapError]

theorem keySet_eq_iff {declared : BTreeSet LogicalPartitionId} :
    declared = keySet bindings ↔ ∀ partition, partition ∈ bindings ↔ partition ∈ declared := by
  rw [Std.ExtTreeSet.ext_mem_iff]
  simp only [mem_keySet]
  exact forall_congr' fun partition => Iff.comm

/-- The checks of `bind` never panic, and pass exactly on what is bindable. -/
theorem bindChecks_spec :
    ∃ answer, bindChecks admitted bindings deviceSet snapshot generation = some answer ∧
      (answer = .ok () ↔ Bindable admitted bindings deviceSet snapshot generation) := by
  unfold bindChecks
  dsimp only
  split
  next hstale =>
    refine ⟨_, rfl, iff_of_false nofun fun h => ?_⟩
    exact absurd hstale (Bool.eq_false_iff.mp
      (DeviceDiscoverySnapshot.isStale_eq_false_iff.mpr h.entries))
  next hcurrent =>
    have hentries := DeviceDiscoverySnapshot.isStale_eq_false_iff.mp (Bool.eq_false_iff.mpr hcurrent)
    split
    next e hmembers =>
      refine ⟨_, rfl, iff_of_false nofun fun h => ?_⟩
      exact nomatch hmembers.symm.trans ((validate_current_iff hentries).mpr h.members)
    next hmembers =>
      have hmembers := (validate_current_iff hentries).mp hmembers
      split
      next hkeys =>
        exact ⟨_, rfl, iff_of_false nofun fun h => hkeys (keySet_eq_iff.mpr h.partitions)⟩
      next hkeys =>
        have hkeys := not_not.mp hkeys
        split
        next hdevices =>
          refine ⟨_, rfl, iff_of_false nofun fun h => hdevices ?_⟩
          rw [Std.ExtTreeSet.ext_mem_iff]
          exact fun device => mem_boundDevices.trans (h.devices device).symm
        next hdevices =>
          have hdevices := not_not.mp hdevices
          have hset : ∀ device, device ∈ deviceSet.members ↔
              ∃ (partition : LogicalPartitionId) (binding : PartitionBinding),
                bindings[partition]? = some binding ∧ binding.device = device :=
            fun device => by rw [← hdevices, mem_boundDevices]
          split
          next e hbroken =>
            exact ⟨_, rfl, iff_of_false nofun fun h =>
              nomatch hbroken.symm.trans (consistent_iff.mpr h.attached)⟩
          next hconsistent =>
            have hconsistent := consistent_iff.mp hconsistent
            obtain ⟨placed, hplaced, hholds⟩ := placed_spec hkeys
            simp only [hplaced, Option.bind_eq_bind, Option.bind_some]
            cases placed with
            | error e =>
              exact ⟨_, rfl, iff_of_false nofun fun h => nomatch hholds.mpr h.constraints⟩
            | ok u =>
              have hrecorded : ∀ device ∈ setOf ((BoundDistributedPlan.bindingValues bindings).map
                  (·.device)), ∃ entry, snapshot.findEntry device = some entry := by
                intro device hdevice
                rw [hdevices] at hdevice
                obtain ⟨entry, hentry, hidentity, -⟩ := hmembers device hdevice
                exact exists_findEntry hentry hidentity
              refine ⟨_, rfl, ?_⟩
              rw [checkLaunchResourceLimits_ok_iff hrecorded]
              constructor
              · intro hlimits
                refine ⟨hentries, hmembers, keySet_eq_iff.mp hkeys, hset, hconsistent,
                  hholds.mp rfl, fun partition binding entry hbinding hfound => ?_⟩
                exact hlimits binding.device (mem_boundDevices.mpr ⟨partition, binding, hbinding, rfl⟩)
                  entry hfound
              · intro h device hdevice entry hfound
                obtain ⟨partition, binding, hbinding, rfl⟩ := mem_boundDevices.mp hdevice
                exact h.limits partition binding entry hbinding hfound

/-- A single declared partition has its binding, so the plan has a shape. -/
theorem boundPlanKind_spec
    (hkeys : ∀ partition, partition ∈ bindings ↔ partition ∈ admitted.declaredPartitions) :
    ∃ kind, boundPlanKind admitted bindings = some kind ∧
      ((∃ device virtualPartition, kind = .implicitLocal device virtualPartition) ↔
        admitted.declaredPartitions.size = 1) := by
  unfold boundPlanKind AdmittedLogicalPlan.isSinglePartition
  by_cases hsingle : admitted.declaredPartitions.size = 1
  · obtain ⟨partition, honly⟩ :=
      List.length_eq_one_iff.mp (Std.ExtTreeSet.length_toList.trans hsingle)
    have hpartition : partition ∈ admitted.declaredPartitions :=
      Std.ExtTreeSet.mem_toList.mp (honly ▸ List.mem_singleton_self partition)
    obtain ⟨binding, hbinding⟩ := (mem_iff_getElem? _ _).mp ((hkeys partition).mpr hpartition)
    have hvalue : binding ∈ BoundDistributedPlan.bindingValues bindings :=
      mem_bindingValues.mpr ⟨partition, hbinding⟩
    cases hvalues : BoundDistributedPlan.bindingValues bindings with
    | nil => exact absurd hvalue (by simp [hvalues])
    | cons first rest =>
      exact ⟨.implicitLocal first.device first.virtualPartition, by simp [hsingle],
        by simp [hsingle]⟩
  · exact ⟨.distributed bindings, by simp [hsingle], by simp [hsingle]⟩

end Binding

/-- `bind` never panics.  It answers a plan exactly when its arguments are bindable, and the plan
    is the implicit-local one exactly when a single partition was declared. -/
theorem bind_iff (T : Toolchain) (admitted : AdmittedLogicalPlan) (bindings : Bindings)
    (deviceSet : DeviceSet) (snapshot : DeviceDiscoverySnapshot)
    (generation : DeviceHealthGeneration) (fixture : FixtureIdentityClass)
    (transport : TransportClass) :
    ∃ answer,
      bind T admitted bindings deviceSet snapshot generation fixture transport = some answer ∧
      ((∃ plan, answer = .ok plan) ↔ Bindable admitted bindings deviceSet snapshot generation) ∧
      ∀ plan, answer = .ok plan →
        (plan.isDegenerate = true ↔ admitted.declaredPartitions.size = 1) := by
  obtain ⟨checked, hchecked, hbindable⟩ :
      ∃ checked, bindChecks admitted bindings deviceSet snapshot generation = some checked ∧
        (checked = .ok () ↔ Bindable admitted bindings deviceSet snapshot generation) :=
    bindChecks_spec
  cases checked with
  | error e =>
    refine ⟨.error e, by simp [bind, hchecked], iff_of_false nofun fun h => ?_, nofun⟩
    exact nomatch hbindable.mpr h
  | ok u =>
    have hbindable := hbindable.mp rfl
    obtain ⟨kind, hkind, hlocal⟩ := boundPlanKind_spec hbindable.partitions
    refine ⟨.ok _, by simp [bind, hchecked, hkind]; rfl, iff_of_true ⟨_, rfl⟩ hbindable, ?_⟩
    rintro plan hplan
    obtain rfl := Except.ok.inj hplan
    rw [← hlocal]
    cases kind with
    | implicitLocal device virtualPartition => simp [BoundDistributedPlan.isDegenerate]
    | distributed bindings => simp [BoundDistributedPlan.isDegenerate]

end FaberHosts.Coordinator
