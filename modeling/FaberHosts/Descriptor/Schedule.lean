import FaberHosts.Descriptor.Validate

/-!
# What the graph checks admit

The launch, root, metadata and edge checks as laws of the descriptor, and the
schedule check: one producer per buffer version, every edge forward in the
launch order, every launch reachable from a root.
-/

namespace FaberHosts.Descriptor
open FaberHosts.Lib
namespace DeviceDescriptor

/-! ## Launches and roots -/

structure LaunchesFit (d : DeviceDescriptor) : Prop where
  moduleImage : d.moduleImage ≠ []
  kernels : d.kernels ≠ []
  launches : d.launches ≠ []
  nonzero : ∀ launch ∈ d.launches, launch.id ≠ 0
  distinct : d.launchIds.Nodup
  kernelIndex : ∀ launch ∈ d.launches, launch.kernelIndex.toNat < d.kernels.length

structure RootsFit (d : DeviceDescriptor) : Prop where
  roots : d.roots ≠ []
  nonzero : ∀ root ∈ d.roots, root ≠ 0
  distinct : d.roots.Nodup
  launched : ∀ root ∈ d.roots, root ∈ d.launchIds

theorem checkLaunch_ok_iff {kernels : List DescriptorKernel} {ids t : List UInt32}
    {launch : DescriptorLaunch} :
    checkLaunch kernels ids launch = .ok t ↔
      (launch.id ≠ 0 ∧ launch.id ∉ ids ∧ launch.kernelIndex.toNat < kernels.length) ∧
        ids ++ [launch.id] = t := by
  unfold checkLaunch
  by_cases hzero : launch.id = 0
  · simp [hzero]
  by_cases hmem : launch.id ∈ ids
  · simp [hzero, hmem]
  by_cases hindex : launch.kernelIndex.toNat < kernels.length
  · simp [hzero, hmem, hindex]
  · simp [hzero, hmem, hindex]

theorem checkRoot_ok_iff {launchIds ids t : List UInt32} {root : UInt32} :
    checkRoot launchIds ids root = .ok t ↔
      (root ≠ 0 ∧ root ∉ ids ∧ root ∈ launchIds) ∧ ids ++ [root] = t := by
  unfold checkRoot
  by_cases hzero : root = 0
  · simp [hzero]
  by_cases hmem : root ∈ ids
  · simp [hzero, hmem]
  by_cases hlaunch : root ∈ launchIds
  · simp [hzero, hmem, hlaunch]
  · simp [hzero, hmem, hlaunch]

theorem foldlM_checkLaunch_ok_iff {kernels : List DescriptorKernel}
    {launches : List DescriptorLaunch} {t : List UInt32} :
    launches.foldlM (checkLaunch kernels) [] = .ok t ↔
      ((∀ launch ∈ launches, launch.id ≠ 0) ∧ (launches.map (·.id)).Nodup ∧
        ∀ launch ∈ launches, launch.kernelIndex.toNat < kernels.length) ∧
      launches.map (·.id) = t := by
  have hfold := foldlM_ok_iff (checkLaunch kernels)
    (fun launches : List DescriptorLaunch => launches.map (·.id))
    (fun before launch => launch.id ≠ 0 ∧ launch.id ∉ before.map (·.id) ∧
      launch.kernelIndex.toNat < kernels.length)
    [] launches t
    (fun before launch t _ => by rw [checkLaunch_ok_iff, List.map_append]; rfl) trivial
  rw [eachAfter_and, eachAfter_and, eachAfter_const, eachAfter_const, eachAfter_notMem_map] at hfold
  exact hfold

theorem foldlM_checkRoot_ok_iff {launchIds roots t : List UInt32} :
    roots.foldlM (checkRoot launchIds) [] = .ok t ↔
      ((∀ root ∈ roots, root ≠ 0) ∧ roots.Nodup ∧ ∀ root ∈ roots, root ∈ launchIds) ∧
        roots = t := by
  have hfold := foldlM_ok_iff (checkRoot launchIds) id
    (fun before root => root ≠ 0 ∧ id root ∉ before.map id ∧ root ∈ launchIds)
    [] roots t
    (fun before root t _ => by simp [checkRoot_ok_iff]) trivial
  rw [eachAfter_and, eachAfter_and, eachAfter_const, eachAfter_const, eachAfter_notMem_map,
    List.map_id] at hfold
  exact hfold

theorem validatedLaunchesAndRoots_ok_iff {d : DeviceDescriptor}
    {t : List UInt32 × List UInt32} :
    d.validatedLaunchesAndRoots = .ok t ↔
      (LaunchesFit d ∧ RootsFit d) ∧ (d.launchIds, d.roots) = t := by
  unfold validatedLaunchesAndRoots
  by_cases himage : d.moduleImage.isEmpty
  · rw [if_pos himage]
    exact iff_of_false nofun (fun h => h.1.1.moduleImage (List.isEmpty_iff.mp himage))
  by_cases hkernels : d.kernels.isEmpty
  · rw [if_neg himage, if_pos hkernels]
    exact iff_of_false nofun (fun h => h.1.1.kernels (List.isEmpty_iff.mp hkernels))
  by_cases hlaunches : d.launches.isEmpty
  · rw [if_neg himage, if_neg hkernels, if_pos hlaunches]
    exact iff_of_false nofun (fun h => h.1.1.launches (List.isEmpty_iff.mp hlaunches))
  rw [if_neg himage, if_neg hkernels, if_neg hlaunches,
    bind_ok_iff_of (fun _ => foldlM_checkLaunch_ok_iff),
    bind_ok_iff_of (fun _ => foldlM_checkRoot_ok_iff)]
  rw [List.isEmpty_iff] at himage hkernels hlaunches
  by_cases hroots : d.roots.isEmpty
  · rw [if_pos hroots]
    exact iff_of_false (fun h => nomatch h.2.2) (fun h => h.1.2.roots (List.isEmpty_iff.mp hroots))
  rw [if_neg hroots]
  rw [List.isEmpty_iff] at hroots
  constructor
  · rintro ⟨⟨hzero, hdistinct, hindex⟩, ⟨hrootZero, hrootDistinct, hlaunched⟩, hok⟩
    exact ⟨⟨⟨himage, hkernels, hlaunches, hzero, hdistinct, hindex⟩,
      ⟨hroots, hrootZero, hrootDistinct, hlaunched⟩⟩, Except.ok.inj hok⟩
  · rintro ⟨⟨hfit, hroot⟩, rfl⟩
    exact ⟨⟨hfit.nonzero, hfit.distinct, hfit.kernelIndex⟩,
      ⟨hroot.nonzero, hroot.distinct, hroot.launched⟩, rfl⟩

/-! ## Version metadata -/

structure VersionShape (v : DescriptorBufferVersion) : Prop where
  version : v.version ≠ 0
  count : v.elementCount ≠ 0
  bytes : ∃ byteLength, checkedByteLength v.elementCount v.elementTy = some byteLength ∧
    byteLength.toNat ≤ usizeMax

structure VersionsFit (d : DeviceDescriptor) : Prop where
  versions : d.bufferVersions ≠ []
  shape : ∀ v ∈ d.bufferVersions, VersionShape v
  distinct : (d.bufferVersions.map (·.key)).Nodup

theorem checkVersion_ok_iff {versions t : List DescriptorBufferVersion}
    {v : DescriptorBufferVersion} :
    checkVersion versions v = .ok t ↔
      (VersionShape v ∧ v.key ∉ versions.map (·.key)) ∧ versions ++ [v] = t := by
  unfold checkVersion
  by_cases hversion : v.version = 0
  · rw [if_pos hversion]
    exact iff_of_false nofun (fun h => h.1.1.version hversion)
  by_cases hcount : v.elementCount = 0
  · rw [if_neg hversion, if_pos hcount]
    exact iff_of_false nofun (fun h => h.1.1.count hcount)
  rw [if_neg hversion, if_neg hcount]
  cases hbytes : checkedByteLength v.elementCount v.elementTy with
  | none =>
    refine iff_of_false nofun (fun h => ?_)
    obtain ⟨byteLength, hlength, -⟩ := h.1.1.bytes
    simp [hbytes] at hlength
  | some byteLength =>
    dsimp only
    by_cases hsize : usizeMax < byteLength.toNat
    · rw [if_pos hsize]
      refine iff_of_false nofun (fun h => ?_)
      obtain ⟨length, hlength, hfits⟩ := h.1.1.bytes
      rw [hbytes, Option.some.injEq] at hlength
      subst hlength
      omega
    rw [if_neg hsize]
    cases hfind : versions.find? (·.key == v.key) with
    | some first =>
      obtain ⟨hmem, hkey⟩ := find?_key hfind
      exact iff_of_false nofun (fun h => h.1.2 (List.mem_map.mpr ⟨first, hmem, hkey⟩))
    | none =>
      have hnew : v.key ∉ versions.map (·.key) := by
        simpa using find?_key_eq_none_iff.mp hfind
      have hshape : VersionShape v := ⟨hversion, hcount, byteLength, hbytes, by omega⟩
      simp [hnew, hshape]

theorem validatedBufferVersions_ok_iff {d : DeviceDescriptor} {t : List DescriptorBufferVersion} :
    d.validatedBufferVersions = .ok t ↔ VersionsFit d ∧ d.bufferVersions = t := by
  have hfold : ∀ t, d.bufferVersions.foldlM checkVersion [] = .ok t ↔
      ((∀ v ∈ d.bufferVersions, VersionShape v) ∧ (d.bufferVersions.map (·.key)).Nodup) ∧
        d.bufferVersions = t := by
    intro t
    have hfold := foldlM_ok_iff checkVersion id
      (fun before v => VersionShape v ∧ v.key ∉ before.map (·.key))
      [] d.bufferVersions t
      (fun before v t _ => checkVersion_ok_iff) trivial
    rw [eachAfter_and, eachAfter_const, eachAfter_notMem_map] at hfold
    exact hfold
  unfold validatedBufferVersions
  rw [bind_ok_iff_of hfold]
  by_cases hversions : d.bufferVersions.isEmpty
  · rw [if_pos hversions]
    exact iff_of_false (fun h => nomatch h.2) (fun h => h.1.versions (List.isEmpty_iff.mp hversions))
  rw [if_neg hversions]
  rw [List.isEmpty_iff] at hversions
  constructor
  · rintro ⟨⟨hshape, hdistinct⟩, hok⟩
    exact ⟨⟨hversions, hshape, hdistinct⟩, Except.ok.inj hok⟩
  · rintro ⟨hfit, rfl⟩
    exact ⟨⟨hfit.shape, hfit.distinct⟩, rfl⟩

/-! ## Edges -/

/-- The edge names two different launches and a keyed buffer version. -/
structure EdgeFits (launchIds : List UInt32) (versions : List DescriptorBufferVersion)
    (edge : DescriptorDataFlow) : Prop where
  version : edge.version ≠ 0
  producerNonzero : edge.producer ≠ 0
  consumerNonzero : edge.consumer ≠ 0
  distinct : edge.producer ≠ edge.consumer
  producer : edge.producer ∈ launchIds
  consumer : edge.consumer ∈ launchIds
  keyed : ∃ v ∈ versions, v.key = edge.key

theorem checkDataFlow_ok_iff {launchIds : List UInt32} {versions : List DescriptorBufferVersion}
    {edge : DescriptorDataFlow} :
    checkDataFlow launchIds versions edge = .ok () ↔ EdgeFits launchIds versions edge := by
  unfold checkDataFlow
  by_cases hzero : edge.version = 0 ∨ edge.producer = 0 ∨ edge.consumer = 0
  · rw [if_pos hzero]
    refine iff_of_false nofun (fun h => ?_)
    rcases hzero with h0 | h0 | h0
    · exact h.version h0
    · exact h.producerNonzero h0
    · exact h.consumerNonzero h0
  by_cases hself : edge.producer = edge.consumer
  · rw [if_neg hzero, if_pos hself]
    exact iff_of_false nofun (fun h => h.distinct hself)
  by_cases hlaunch : edge.producer ∉ launchIds ∨ edge.consumer ∉ launchIds
  · rw [if_neg hzero, if_neg hself, if_pos hlaunch]
    exact iff_of_false nofun (fun h => hlaunch.elim (· h.producer) (· h.consumer))
  rw [if_neg hzero, if_neg hself, if_neg hlaunch]
  push Not at hzero hlaunch
  by_cases hkeyed : versions.any (·.key == edge.key)
  · have hkey : ∃ v ∈ versions, v.key = edge.key := by simpa using hkeyed
    simp only [hkeyed, Bool.not_true, Bool.false_eq_true, if_false, true_iff]
    exact ⟨hzero.1, hzero.2.1, hzero.2.2, hself, hlaunch.1, hlaunch.2, hkey⟩
  · rw [if_pos (by simpa using hkeyed)]
    exact iff_of_false nofun (fun h => hkeyed (by simpa using h.keyed))

/-- One buffer version has one producer, however many edges carry it. -/
def OneProducer (d : DeviceDescriptor) : Prop :=
  ∀ a ∈ d.dataFlow, ∀ b ∈ d.dataFlow, a.key = b.key → a.producer = b.producer

theorem foldlM_checkProducer_ok_iff {edges : List DescriptorDataFlow} :
    (∃ producers, edges.foldlM checkProducer [] = .ok producers) ↔
      ∀ a ∈ edges, ∀ b ∈ edges, a.key = b.key → a.producer = b.producer := by
  have hfold := fun t => foldlM_ok_iff checkProducer (firstFacts (·.key) (·.producer))
    (fun before edge => ∀ first, before.find? (·.key == edge.key) = some first →
      first.producer = edge.producer)
    [] edges t ?_ trivial
  · have hfirst := eachAfter_first edges (·.key)
      (fun first edge => first.producer = edge.producer) (fun edge => rfl)
    simp only [firstFacts_nil, List.nil_append, hfirst] at hfold
    simp only [hfold, exists_and_left, exists_eq', and_true, first_eq_iff]
  · intro before edge t _
    unfold checkProducer
    rw [find?_firstFacts]
    cases hfind : before.find? (·.key == edge.key) with
    | some first =>
      rw [firstFacts_append_of_find? hfind]
      by_cases heq : first.producer = edge.producer <;> simp [heq]
    | none =>
      rw [firstFacts_append_of_new hfind]
      simp

/-! ## The schedule -/

/-- Where a launch stands in the launch order. -/
def launchIndex (d : DeviceDescriptor) (id : UInt32) : Nat := d.launchIds.idxOf id

theorem getElem?_launchIndex {d : DeviceDescriptor} {id : UInt32} (hid : id ∈ d.launchIds) :
    d.launchIds[d.launchIndex id]? = some id := by
  rw [launchIndex, List.getElem?_eq_getElem (List.idxOf_lt_length_of_mem hid),
    List.getElem_idxOf]

theorem launchPositions_getElem? {d : DeviceDescriptor} (hdistinct : d.launchIds.Nodup)
    {id : UInt32} (hid : id ∈ d.launchIds) :
    (launchPositions d.launches)[id]? = some (d.launchIndex id) := by
  have hkeys : ((d.launches.zipIdx.map (fun entry => (entry.1.id, entry.2))).map Prod.fst) =
      d.launchIds := by
    have hfst := congrArg (List.map (·.id)) (List.zipIdx_map_fst 0 d.launches)
    rw [List.map_map] at hfst ⊢
    exact hfst
  obtain ⟨launch, hlaunch⟩ : ∃ launch, d.launches[d.launchIndex id]? = some launch ∧
      launch.id = id := by
    have hget := getElem?_launchIndex hid
    rw [launchIds, List.getElem?_map] at hget
    simpa using hget
  have hmem : (id, d.launchIndex id) ∈
      d.launches.zipIdx.map (fun entry => (entry.1.id, entry.2)) := by
    refine List.mem_map.mpr ⟨(launch, d.launchIndex id), ?_, by rw [hlaunch.2]⟩
    exact List.mk_mem_zipIdx_iff_getElem?.mpr hlaunch.1
  have hget := getElem?_foldl_insert_of_mem (m := ∅) (hkeys ▸ hdistinct) hmem
  exact hget

/-- Every edge runs strictly forward in the launch order. -/
def EdgesForward (d : DeviceDescriptor) : Prop :=
  ∀ edge ∈ d.dataFlow, d.launchIndex edge.producer < d.launchIndex edge.consumer

theorem checkForward_eq {d : DeviceDescriptor} (hdistinct : d.launchIds.Nodup)
    {edge : DescriptorDataFlow} (hproducer : edge.producer ∈ d.launchIds)
    (hconsumer : edge.consumer ∈ d.launchIds) :
    (∃ r, checkForward (launchPositions d.launches) edge = some r) ∧
      (checkForward (launchPositions d.launches) edge = some (.ok ()) ↔
        d.launchIndex edge.producer < d.launchIndex edge.consumer) := by
  have hp := launchPositions_getElem? hdistinct hproducer
  have hc := launchPositions_getElem? hdistinct hconsumer
  unfold checkForward
  rw [hp, hc]
  dsimp only [Option.bind_eq_bind, Option.bind_some]
  by_cases hle : d.launchIndex edge.consumer ≤ d.launchIndex edge.producer
  · rw [if_pos hle]
    exact ⟨⟨_, rfl⟩, iff_of_false nofun (by omega)⟩
  · rw [if_neg hle]
    exact ⟨⟨_, rfl⟩, iff_of_true rfl (by omega)⟩

/-- An edge leads from one launch to another. -/
abbrev FlowsTo (d : DeviceDescriptor) : UInt32 → UInt32 → Prop :=
  Linked (·.producer) (·.consumer) d.dataFlow

/-- Every launch is reachable from a declared root along the edges. -/
def LaunchesReachable (d : DeviceDescriptor) : Prop :=
  ∀ id ∈ d.launchIds, ∃ root ∈ d.roots, Relation.ReflTransGen d.FlowsTo root id

theorem reachableLaunches_returns (edges : List DescriptorDataFlow) (roots : List UInt32) :
    ∃ r, reachableLaunches edges roots = some r := by
  refine worklist_returns ?_
  have hle := List.countP_le_length (p := fun e : DescriptorDataFlow => e.producer ∉ ([] : List UInt32))
    (l := edges)
  simp only [List.length_reverse]
  omega

theorem mem_reachableLaunches {d : DeviceDescriptor} {r : List UInt32}
    (h : reachableLaunches d.dataFlow d.roots = some r) (id : UInt32) :
    id ∈ r ↔ ∃ root ∈ d.roots, Relation.ReflTransGen d.FlowsTo root id := by
  rw [mem_worklist_nil h]
  simp [ReachedFrom]

/-- The laws the schedule check decides. -/
structure ScheduleFits (d : DeviceDescriptor) : Prop where
  oneProducer : OneProducer d
  forward : EdgesForward d
  reachable : LaunchesReachable d

theorem validatedSchedule_eq {d : DeviceDescriptor} (hdistinct : d.launchIds.Nodup)
    (hedges : ∀ edge ∈ d.dataFlow, edge.producer ∈ d.launchIds ∧ edge.consumer ∈ d.launchIds) :
    (∃ r, d.validatedSchedule d.launchIds d.roots = some r) ∧
      ∀ position, d.validatedSchedule d.launchIds d.roots = some (.ok position) ↔
        ScheduleFits d ∧ launchPositions d.launches = position := by
  obtain ⟨reachable, hreach⟩ := reachableLaunches_returns d.dataFlow d.roots
  have hmem := mem_reachableLaunches hreach
  have hforward := fun edge hedge =>
    checkForward_eq hdistinct (hedges edge hedge).1 (hedges edge hedge).2
  constructor
  · refine andThen_returns ⟨_, rfl⟩ (fun _ _ => andThen_returns ?_ (fun _ _ => ?_))
    · exact tryEachM_isSome (fun edge hedge => (hforward edge hedge).1)
    · rw [hreach]
      exact ⟨_, rfl⟩
  · intro position
    have hproducers : (∃ producers, d.dataFlow.foldlM checkProducer [] = .ok producers) ↔
        OneProducer d := foldlM_checkProducer_ok_iff
    have hall : tryEachM (checkForward (launchPositions d.launches)) d.dataFlow = some (.ok ()) ↔
        EdgesForward d :=
      tryEachM_ok_iff.trans (forall₂_congr (fun edge hedge => (hforward edge hedge).2))
    have hreached : tryEach (checkReachable reachable) d.launchIds = .ok () ↔
        LaunchesReachable d := by
      refine tryEach_ok_iff.trans (forall₂_congr (fun id _ => ?_))
      rw [← hmem, checkReachable]
      by_cases hid : id ∈ reachable <;> simp [hid]
    unfold validatedSchedule
    rw [andThen_ok_iff]
    constructor
    · rintro ⟨producers, hone, hrest⟩
      obtain ⟨_, hfor, hrest⟩ := andThen_ok_iff.mp hrest
      rw [hreach] at hrest
      obtain ⟨_, hids, hposition⟩ := bind_ok_iff.mp (Option.some.inj hrest)
      exact ⟨⟨hproducers.mp ⟨producers, Option.some.inj hone⟩, hall.mp hfor, hreached.mp hids⟩,
        Except.ok.inj hposition⟩
    · rintro ⟨hfits, rfl⟩
      obtain ⟨producers, hone⟩ := hproducers.mpr hfits.oneProducer
      refine ⟨producers, by rw [hone], ?_⟩
      refine andThen_ok_iff.mpr ⟨(), hall.mpr hfits.forward, ?_⟩
      rw [hreach]
      exact congrArg some (bind_ok_iff.mpr ⟨(), hreached.mpr hfits.reachable, rfl⟩)

end DeviceDescriptor

end FaberHosts.Descriptor
