import FaberHosts.Descriptor.Schedule
import FaberHosts.Descriptor.Slots

/-!
# What validation admits

`validate` returns on every descriptor, and it admits exactly those whose rules
hold, where all rules but two can be stated without the order of any list: the
first slot of each buffer decides the roles of the others, and the first slot of
each end-of-run buffer decides whether the program writes it.
-/

namespace FaberHosts.Descriptor
open FaberHosts.Lib
namespace DeviceDescriptor

/-! ## Per-step inputs and once-init -/

/-- No buffer filled by the host per step is written by a kernel. -/
def InputsUnwritten (d : DeviceDescriptor) : Prop :=
  ∀ a ∈ d.slots, ∀ b ∈ d.slots, a.bufferId = b.bufferId → isPerStepInput a = true →
    isPerStepWrite b = false

/-- A repeating step keeps its host-provided buffers for the whole program. -/
def OnceInitFits (d : DeviceDescriptor) : Prop :=
  d.programLifetime = .repeatingStep → ∀ slot ∈ d.slots,
    slot.initialization = .hostProvided → slot.lifetime = .perProgram

theorem mem_perStepInputs {slots : List DescriptorBuffer} {id : UInt32} :
    id ∈ (factsOf slots).perStepInputs ↔
      ∃ slot ∈ slots, isPerStepInput slot = true ∧ slot.bufferId = id := by
  simp [factsOf, mem_firstKeys, and_assoc]

theorem mem_perStepWrites {slots : List DescriptorBuffer} {id : UInt32} :
    id ∈ (factsOf slots).perStepWrites ↔
      ∃ slot ∈ slots, isPerStepWrite slot = true ∧ slot.bufferId = id := by
  simp [factsOf, mem_firstKeys, and_assoc]

theorem checkPerStepInputs_ok_iff {d : DeviceDescriptor} :
    tryEach (checkPerStepInput (factsOf d.slots)) (factsOf d.slots).perStepInputs = .ok () ↔
      InputsUnwritten d := by
  have hcheck : ∀ id, checkPerStepInput (factsOf d.slots) id = .ok () ↔
      id ∉ (factsOf d.slots).perStepWrites := by
    intro id
    unfold checkPerStepInput
    split <;> simp_all
  simp only [tryEach_ok_iff, hcheck, mem_perStepInputs, mem_perStepWrites]
  constructor
  · intro h a ha b hb hid hinput
    by_contra hwrite
    exact h a.bufferId ⟨a, ha, hinput, rfl⟩ ⟨b, hb, by simpa using hwrite, hid.symm⟩
  · rintro h id ⟨a, ha, hinput, rfl⟩ ⟨b, hb, hwrite, hid⟩
    rw [h a ha b hb hid.symm hinput] at hwrite
    cases hwrite

theorem validateOnceInit_ok_iff {d : DeviceDescriptor}
    (hsame : ∀ a ∈ d.slots, ∀ b ∈ d.slots, SameBuffer a b) :
    d.validateOnceInit (factsOf d.slots) = .ok () ↔ OnceInitFits d := by
  unfold validateOnceInit OnceInitFits
  by_cases hregime : d.programLifetime = .repeatingStep
  · rw [if_pos hregime, tryEach_ok_iff]
    -- the fact recorded for an id is that of its first slot, and so of every slot
    have hrecorded : ∀ slot ∈ d.slots, ∃ first ∈ d.slots,
        d.slots.find? (·.bufferId == slot.bufferId) = some first ∧
          first.initialization = slot.initialization ∧ first.lifetime = slot.lifetime := by
      intro slot hslot
      obtain ⟨first, hfind, hmem, hid⟩ := exists_find?_key (·.bufferId) hslot
      have hboth := hsame first hmem slot hslot
      exact ⟨first, hmem, hfind, hboth.initialization hid, hboth.lifetime hid⟩
    have hcheck : ∀ first, d.slots.find? (·.bufferId == first.bufferId) = some first →
        (checkOnceInit (factsOf d.slots) (first.bufferId, first.initialization) = .ok () ↔
          (first.initialization = .hostProvided → first.lifetime = .perProgram)) := by
      intro first hfind
      have hlifetime : (factsOf d.slots).lifetimes.find? (·.1 == first.bufferId) =
          some (first.bufferId, first.lifetime) := by
        simp [factsOf, find?_firstFacts, hfind]
      simp only [checkOnceInit, hlifetime, Option.map_some]
      by_cases hinit : first.initialization = .hostProvided
      · by_cases hprogram : first.lifetime = .perProgram <;> simp [hinit, hprogram]
      · simp [hinit]
    constructor
    · intro h _ slot hslot hinit
      obtain ⟨first, hmem, hfind, hfirstInit, hfirstLifetime⟩ := hrecorded slot hslot
      obtain ⟨-, hid⟩ := find?_key hfind
      have hentry : (slot.bufferId, first.initialization) ∈ (factsOf d.slots).initializations :=
        mem_firstFacts.mpr ⟨first, hfind, rfl⟩
      rw [← hid] at hfind hentry
      rw [← hfirstLifetime]
      exact (hcheck first hfind).mp (h _ hentry) (hfirstInit.trans hinit)
    · rintro h ⟨id, init⟩ hentry
      obtain ⟨first, hfind, rfl⟩ := mem_firstFacts.mp hentry
      obtain ⟨hmem, rfl⟩ := find?_key hfind
      exact (hcheck first hfind).mpr (h hregime first hmem)
  · rw [if_neg hregime]
    exact iff_of_true rfl (fun h => absurd h hregime)

/-! ## Observations -/

/-- What a per-step observation must name. -/
structure ResultFits (d : DeviceDescriptor) (result : DescriptorResult) : Prop where
  version : result.version ≠ 0
  producedNonzero : result.producedBy ≠ 0
  atNonzero : result.atLaunch ≠ 0
  produced : result.producedBy ∈ d.launchIds
  at' : result.atLaunch ∈ d.launchIds
  observedAfter : d.launchIndex result.producedBy ≤ d.launchIndex result.atLaunch
  allocated : ∃ slot ∈ d.slots, slot.bufferId = result.bufferId ∧
    slot.lifetime = .observationPoint
  keyed : ∃ v ∈ d.bufferVersions, v.key = result.key

/-- What an end-of-run observation must name, whatever the order of the slots. -/
structure EndOfRunFits (d : DeviceDescriptor) (endOfRun : DescriptorEndOfRunResult) : Prop where
  version : endOfRun.version ≠ 0
  unobserved : endOfRun.bufferId ∉ d.results.map (·.bufferId)
  allocated : ∃ slot ∈ d.slots, slot.key = endOfRun.key ∧
    (slot.lifetime = .perStep ∨ slot.lifetime = .perProgram)
  keyed : ∃ v ∈ d.bufferVersions, v.key = endOfRun.key

/-- The first slot of an end-of-run buffer version is written by its kernel. -/
def FirstWritersFit (d : DeviceDescriptor) : Prop :=
  ∀ endOfRun ∈ d.endOfRunResults, ∀ first, d.slots.find? (·.key == endOfRun.key) = some first →
    first.role ≠ .input

theorem checkResultLaunches_ok_iff {launchIds : List UInt32} {result : DescriptorResult}
    {u : Unit} : checkResultLaunches launchIds result = .ok u ↔
      result.version ≠ 0 ∧ (result.producedBy ≠ 0 ∧ result.atLaunch ≠ 0) ∧
        result.producedBy ∈ launchIds ∧ result.atLaunch ∈ launchIds := by
  unfold checkResultLaunches
  by_cases hversion : result.version = 0
  · simp [hversion]
  by_cases hzero : result.producedBy = 0 ∨ result.atLaunch = 0
  · rw [if_neg hversion, if_pos hzero]
    exact iff_of_false nofun (fun h => hzero.elim h.2.1.1 h.2.1.2)
  rw [if_neg hversion, if_neg hzero]
  push Not at hzero
  by_cases hproduced : result.producedBy ∈ launchIds
  · by_cases hat : result.atLaunch ∈ launchIds <;> simp [hversion, hzero, hproduced, hat]
  · simp [hproduced]

theorem checkObservedAfter_eq {d : DeviceDescriptor} (hdistinct : d.launchIds.Nodup)
    {result : DescriptorResult} (hproduced : result.producedBy ∈ d.launchIds)
    (hat : result.atLaunch ∈ d.launchIds) :
    (∃ r, checkObservedAfter (launchPositions d.launches) result = some r) ∧
      (checkObservedAfter (launchPositions d.launches) result = some (.ok ()) ↔
        d.launchIndex result.producedBy ≤ d.launchIndex result.atLaunch) := by
  have hp := launchPositions_getElem? hdistinct hproduced
  have ha := launchPositions_getElem? hdistinct hat
  unfold checkObservedAfter
  rw [hp, ha]
  dsimp only [Option.bind_eq_bind, Option.bind_some]
  by_cases hlt : d.launchIndex result.atLaunch < d.launchIndex result.producedBy
  · rw [if_pos hlt]
    exact ⟨⟨_, rfl⟩, iff_of_false nofun (by omega)⟩
  · rw [if_neg hlt]
    exact ⟨⟨_, rfl⟩, iff_of_true rfl (by omega)⟩

theorem any_key_iff {versions : List DescriptorBufferVersion} {key : BufferKey} :
    (!versions.any (·.key == key)) = true ↔ ¬ ∃ v ∈ versions, v.key = key := by
  simp

theorem checkResultBuffer_ok_iff {d : DeviceDescriptor}
    (hsame : ∀ a ∈ d.slots, ∀ b ∈ d.slots, SameBuffer a b) {ids t : List UInt32}
    {result : DescriptorResult} :
    checkResultBuffer (factsOf d.slots).lifetimes d.bufferVersions ids result = .ok t ↔
      (result.bufferId ∉ ids ∧
        (∃ slot ∈ d.slots, slot.bufferId = result.bufferId ∧
          slot.lifetime = .observationPoint) ∧
        ∃ v ∈ d.bufferVersions, v.key = result.key) ∧ ids ++ [result.bufferId] = t := by
  unfold checkResultBuffer
  by_cases hmem : result.bufferId ∈ ids
  · rw [if_pos hmem]
    exact iff_of_false nofun (fun h => h.1.1 hmem)
  rw [if_neg hmem]
  have hlookup : (factsOf d.slots).lifetimes.find? (·.1 == result.bufferId) =
      (d.slots.find? (·.bufferId == result.bufferId)).map
        (fun slot => (slot.bufferId, slot.lifetime)) := find?_firstFacts _
  rw [hlookup]
  cases hfind : d.slots.find? (·.bufferId == result.bufferId) with
  | none =>
    refine iff_of_false nofun (fun h => ?_)
    obtain ⟨slot, hslot, hid, -⟩ := h.1.2.1
    exact find?_key_eq_none_iff.mp hfind slot hslot hid
  | some first =>
    obtain ⟨hfirst, hid⟩ := find?_key hfind
    have hlifetime : (∃ slot ∈ d.slots, slot.bufferId = result.bufferId ∧
        slot.lifetime = .observationPoint) ↔ first.lifetime = .observationPoint := by
      constructor
      · rintro ⟨slot, hslot, hslotId, hobserved⟩
        rw [(hsame first hfirst slot hslot).lifetime (hid.trans hslotId.symm), hobserved]
      · exact fun h => ⟨first, hfirst, hid, h⟩
    rw [hlifetime]
    simp only [Option.map_some]
    by_cases hobserved : first.lifetime = .observationPoint
    · rw [if_neg (by simpa using hobserved)]
      by_cases hkeyed : ∃ v ∈ d.bufferVersions, v.key = result.key
      · rw [if_neg (fun h => any_key_iff.mp h hkeyed)]
        simp [hmem, hobserved, hkeyed]
      · rw [if_pos (any_key_iff.mpr hkeyed)]
        exact iff_of_false nofun (fun h => hkeyed h.1.2.2)
    · rw [if_pos hobserved]
      exact iff_of_false nofun (fun h => hobserved h.1.2.1)

/-- The result loop: it returns, and it succeeds when every result fits and no two
    name one buffer. -/
theorem checkResults_eq {d : DeviceDescriptor} (hdistinct : d.launchIds.Nodup)
    (hsame : ∀ a ∈ d.slots, ∀ b ∈ d.slots, SameBuffer a b) (results : List DescriptorResult)
    (ids : List UInt32) :
    (∃ r, checkResults d.launchIds (launchPositions d.launches) (factsOf d.slots).lifetimes
        d.bufferVersions ids results = some r) ∧
      ∀ t, checkResults d.launchIds (launchPositions d.launches) (factsOf d.slots).lifetimes
          d.bufferVersions ids results = some (.ok t) ↔
        ((∀ result ∈ results, ResultFits d result) ∧
          (∀ result ∈ results, result.bufferId ∉ ids) ∧ (results.map (·.bufferId)).Nodup) ∧
        ids ++ results.map (·.bufferId) = t := by
  induction results generalizing ids with
  | nil => exact ⟨⟨_, rfl⟩, fun t => by simp [checkResults]⟩
  | cons result rest ih =>
    constructor
    · rw [checkResults]
      refine andThen_returns ⟨_, rfl⟩ (fun _ hlaunches => andThen_returns ?_ (fun _ _ =>
        andThen_returns ⟨_, rfl⟩ (fun ids' _ => (ih ids').1)))
      obtain ⟨-, -, hproduced, hat⟩ :=
        checkResultLaunches_ok_iff.mp (Option.some.inj hlaunches)
      exact (checkObservedAfter_eq hdistinct hproduced hat).1
    · intro t
      rw [checkResults]
      simp only [andThen_ok_iff, Option.some.injEq, checkResultLaunches_ok_iff,
        checkResultBuffer_ok_iff hsame, (ih _).2]
      constructor
      · rintro ⟨-, ⟨hversion, ⟨hproduced0, hat0⟩, hproduced, hat⟩, _, hafter, _,
          ⟨⟨hnew, hallocated, hkeyed⟩, rfl⟩, ⟨⟨hfits, hnews, hnodup⟩, rfl⟩⟩
        have horder := (checkObservedAfter_eq hdistinct hproduced hat).2.mp hafter
        simp only [List.mem_append, List.mem_singleton, not_or] at hnews
        refine ⟨⟨?_, ?_, ?_⟩, by simp⟩
        · exact List.forall_mem_cons.mpr
            ⟨⟨hversion, hproduced0, hat0, hproduced, hat, horder, hallocated, hkeyed⟩, hfits⟩
        · exact List.forall_mem_cons.mpr ⟨hnew, fun r hr => (hnews r hr).1⟩
        · rw [List.map_cons, List.nodup_cons]
          refine ⟨fun hmem => ?_, hnodup⟩
          obtain ⟨other, hother, heq⟩ := List.mem_map.mp hmem
          exact (hnews other hother).2 heq
      · rintro ⟨⟨hfits, hnews, hnodup⟩, rfl⟩
        obtain ⟨hfit, hfits⟩ := List.forall_mem_cons.mp hfits
        obtain ⟨hnew, hnews⟩ := List.forall_mem_cons.mp hnews
        rw [List.map_cons, List.nodup_cons] at hnodup
        have hafter := (checkObservedAfter_eq hdistinct hfit.produced hfit.at').2.mpr
          hfit.observedAfter
        refine ⟨(), ⟨hfit.version, ⟨hfit.producedNonzero, hfit.atNonzero⟩, hfit.produced,
          hfit.at'⟩, (), hafter, _, ⟨⟨hnew, hfit.allocated, hfit.keyed⟩, rfl⟩,
          ⟨hfits, ?_, hnodup.2⟩, by simp⟩
        intro other hother hmem
        rcases List.mem_append.mp hmem with hmem | hmem
        · exact hnews other hother hmem
        · exact hnodup.1 (List.mem_map.mpr ⟨other, hother, List.mem_singleton.mp hmem⟩)

theorem checkEndOfRun_ok_iff {d : DeviceDescriptor}
    (hsame : ∀ a ∈ d.slots, ∀ b ∈ d.slots, SameBuffer a b) {ids t : List UInt32}
    {endOfRun : DescriptorEndOfRunResult} :
    checkEndOfRun d.slots d.bufferVersions (d.results.map (·.bufferId)) ids endOfRun = .ok t ↔
      (EndOfRunFits d endOfRun ∧ endOfRun.bufferId ∉ ids ∧
        ∀ first, d.slots.find? (·.key == endOfRun.key) = some first → first.role ≠ .input) ∧
      ids ++ [endOfRun.bufferId] = t := by
  unfold checkEndOfRun
  by_cases hversion : endOfRun.version = 0
  · rw [if_pos hversion]
    exact iff_of_false nofun (fun h => h.1.1.version hversion)
  by_cases hobserved : endOfRun.bufferId ∈ d.results.map (·.bufferId)
  · rw [if_neg hversion, if_pos hobserved]
    exact iff_of_false nofun (fun h => h.1.1.unobserved hobserved)
  by_cases hmem : endOfRun.bufferId ∈ ids
  · rw [if_neg hversion, if_neg hobserved, if_pos hmem]
    exact iff_of_false nofun (fun h => h.1.2.1 hmem)
  rw [if_neg hversion, if_neg hobserved, if_neg hmem]
  cases hfind : d.slots.find? (·.key == endOfRun.key) with
  | none =>
    refine iff_of_false nofun (fun h => ?_)
    obtain ⟨slot, hslot, hkey, -⟩ := h.1.1.allocated
    exact find?_key_eq_none_iff.mp hfind slot hslot hkey
  | some first =>
    obtain ⟨hfirst, hkey⟩ := find?_key hfind
    have hlifetime : (∃ slot ∈ d.slots, slot.key = endOfRun.key ∧
        (slot.lifetime = .perStep ∨ slot.lifetime = .perProgram)) ↔
        first.lifetime = .perStep ∨ first.lifetime = .perProgram := by
      constructor
      · rintro ⟨slot, hslot, hslotKey, hkept⟩
        have hid : first.bufferId = slot.bufferId := congrArg Prod.fst (hkey.trans hslotKey.symm)
        rwa [(hsame first hfirst slot hslot).lifetime hid]
      · exact fun h => ⟨first, hfirst, hkey, h⟩
    dsimp only
    by_cases hrole : first.role = .input
    · rw [if_pos hrole]
      exact iff_of_false nofun (fun h => h.1.2.2 first rfl hrole)
    by_cases hkept : first.lifetime ≠ .perStep ∧ first.lifetime ≠ .perProgram
    · rw [if_neg hrole, if_pos hkept]
      exact iff_of_false nofun (fun h => (hlifetime.mp h.1.1.allocated).elim hkept.1 hkept.2)
    rw [if_neg hrole, if_neg hkept]
    by_cases hkeyed : ∃ v ∈ d.bufferVersions, v.key = endOfRun.key
    · rw [if_neg (fun h => any_key_iff.mp h hkeyed)]
      have hallocated := hlifetime.mpr (by tauto)
      have hfits : EndOfRunFits d endOfRun := ⟨hversion, hobserved, hallocated, hkeyed⟩
      simp [hfits, hmem, hrole]
    · rw [if_pos (any_key_iff.mpr hkeyed)]
      exact iff_of_false nofun (fun h => hkeyed h.1.1.keyed)

theorem validateEndOfRunResults_ok_iff {d : DeviceDescriptor}
    (hsame : ∀ a ∈ d.slots, ∀ b ∈ d.slots, SameBuffer a b) :
    d.validateEndOfRunResults d.bufferVersions (d.results.map (·.bufferId)) = .ok () ↔
      (∀ endOfRun ∈ d.endOfRunResults, EndOfRunFits d endOfRun) ∧
        (d.endOfRunResults.map (·.bufferId)).Nodup ∧ FirstWritersFit d := by
  have hfold := fun t => foldlM_ok_iff
    (checkEndOfRun d.slots d.bufferVersions (d.results.map (·.bufferId)))
    (fun seen : List DescriptorEndOfRunResult => seen.map (·.bufferId))
    (fun before endOfRun => EndOfRunFits d endOfRun ∧
      endOfRun.bufferId ∉ before.map (·.bufferId) ∧
        ∀ first, d.slots.find? (·.key == endOfRun.key) = some first → first.role ≠ .input)
    [] d.endOfRunResults t
    (fun before endOfRun t _ => by rw [checkEndOfRun_ok_iff hsame, List.map_append]; rfl) trivial
  simp only [List.map_nil, List.nil_append] at hfold
  unfold validateEndOfRunResults
  rw [bind_ok_iff_of hfold, eachAfter_and, eachAfter_and, eachAfter_const, eachAfter_const,
    eachAfter_notMem_map]
  exact and_iff_left rfl

/-! ## The whole validation -/

/-- Every rule that does not depend on the order of any list but the launches. -/
structure RulesHold (d : DeviceDescriptor) : Prop where
  launches : LaunchesFit d
  roots : RootsFit d
  versions : VersionsFit d
  edges : ∀ edge ∈ d.dataFlow, EdgeFits d.launchIds d.bufferVersions edge
  schedule : ScheduleFits d
  kernels : ∀ kernel ∈ d.kernels, KernelShape kernel
  slots : ∀ slot ∈ d.slots, SlotShape d.bufferVersions slot
  buffers : ∀ a ∈ d.slots, ∀ b ∈ d.slots, SameBuffer a b
  inputs : InputsUnwritten d
  onceInit : OnceInitFits d
  results : ∀ result ∈ d.results, ResultFits d result
  resultsDistinct : (d.results.map (·.bufferId)).Nodup
  endOfRun : ∀ endOfRun ∈ d.endOfRunResults, EndOfRunFits d endOfRun
  endOfRunDistinct : (d.endOfRunResults.map (·.bufferId)).Nodup

/-- What the first slots decide. -/
structure FirstSlotsFit (d : DeviceDescriptor) : Prop where
  roles : FirstRolesFit d.slots
  writers : FirstWritersFit d

theorem validate_returns (d : DeviceDescriptor) : ∃ answer, d.validate = some answer := by
  refine andThen_returns ⟨_, rfl⟩ (fun ids hids => ?_)
  obtain ⟨⟨hlaunches, -⟩, rfl⟩ := validatedLaunchesAndRoots_ok_iff.mp (Option.some.inj hids)
  refine andThen_returns ⟨_, rfl⟩ (fun versions hversions => ?_)
  obtain ⟨-, rfl⟩ := validatedBufferVersions_ok_iff.mp (Option.some.inj hversions)
  refine andThen_returns ⟨_, rfl⟩ (fun _ hedges => ?_)
  have hfits := tryEach_ok_iff.mp (Option.some.inj hedges)
  have hschedule := validatedSchedule_eq hlaunches.distinct (fun edge hedge =>
    have h := checkDataFlow_ok_iff.mp (hfits edge hedge)
    ⟨h.producer, h.consumer⟩)
  refine andThen_returns hschedule.1 (fun position hposition => ?_)
  obtain ⟨-, rfl⟩ := (hschedule.2 position).mp hposition
  refine andThen_returns ⟨_, rfl⟩ (fun facts hfacts => ?_)
  obtain ⟨⟨-, hslots⟩, rfl⟩ := validatedKernels_ok_iff.mp (Option.some.inj hfacts)
  have hsame := (eachAfter_slotFits_iff.mp hslots).2.1
  refine andThen_returns ⟨_, rfl⟩ (fun _ _ => andThen_returns ⟨_, rfl⟩ (fun _ _ =>
    andThen_returns ?_ (fun _ _ => ⟨_, rfl⟩)))
  exact (checkResults_eq hlaunches.distinct hsame d.results []).1

/-- A descriptor is admitted exactly when its rules hold and its first slots fit. -/
theorem accepted_iff (d : DeviceDescriptor) : d.Accepted ↔ RulesHold d ∧ FirstSlotsFit d := by
  unfold Accepted validate
  constructor
  · intro h
    obtain ⟨ids, hids, h⟩ := andThen_ok_iff.mp h
    obtain ⟨⟨hlaunches, hroots⟩, rfl⟩ := validatedLaunchesAndRoots_ok_iff.mp (Option.some.inj hids)
    obtain ⟨versions, hvalidated, h⟩ := andThen_ok_iff.mp h
    obtain ⟨hversions, rfl⟩ := validatedBufferVersions_ok_iff.mp (Option.some.inj hvalidated)
    obtain ⟨_, hedges, h⟩ := andThen_ok_iff.mp h
    have hedges : ∀ edge ∈ d.dataFlow, EdgeFits d.launchIds d.bufferVersions edge :=
      fun edge hedge => checkDataFlow_ok_iff.mp (tryEach_ok_iff.mp (Option.some.inj hedges) edge hedge)
    obtain ⟨position, hposition, h⟩ := andThen_ok_iff.mp h
    obtain ⟨hschedule, rfl⟩ := ((validatedSchedule_eq hlaunches.distinct (fun edge hedge =>
      ⟨(hedges edge hedge).producer, (hedges edge hedge).consumer⟩)).2 position).mp hposition
    obtain ⟨facts, hfacts, h⟩ := andThen_ok_iff.mp h
    obtain ⟨⟨hkernels, hslots⟩, rfl⟩ := validatedKernels_ok_iff.mp (Option.some.inj hfacts)
    obtain ⟨hslots, hsame, hroles⟩ := eachAfter_slotFits_iff.mp hslots
    obtain ⟨_, hinputs, h⟩ := andThen_ok_iff.mp h
    obtain ⟨_, honce, h⟩ := andThen_ok_iff.mp h
    obtain ⟨ids, hobserved, h⟩ := andThen_ok_iff.mp h
    obtain ⟨⟨hresults, -, hresultsDistinct⟩, rfl⟩ :=
      ((checkResults_eq hlaunches.distinct hsame d.results []).2 ids).mp hobserved
    obtain ⟨hend, hendDistinct, hwriters⟩ :=
      (validateEndOfRunResults_ok_iff hsame).mp (Option.some.inj h)
    exact ⟨⟨hlaunches, hroots, hversions, hedges, hschedule, hkernels, hslots, hsame,
      checkPerStepInputs_ok_iff.mp (Option.some.inj hinputs),
      (validateOnceInit_ok_iff hsame).mp (Option.some.inj honce), hresults, hresultsDistinct,
      hend, hendDistinct⟩, ⟨hroles, hwriters⟩⟩
  · rintro ⟨h, hfirst⟩
    have hedgeEnds := fun edge hedge =>
      And.intro (h.edges edge hedge).producer (h.edges edge hedge).consumer
    refine andThen_ok_iff.mpr ⟨(d.launchIds, d.roots), congrArg some
      (validatedLaunchesAndRoots_ok_iff.mpr ⟨⟨h.launches, h.roots⟩, rfl⟩), ?_⟩
    refine andThen_ok_iff.mpr ⟨d.bufferVersions, congrArg some
      (validatedBufferVersions_ok_iff.mpr ⟨h.versions, rfl⟩), ?_⟩
    refine andThen_ok_iff.mpr ⟨(), congrArg some (tryEach_ok_iff.mpr
      (fun edge hedge => checkDataFlow_ok_iff.mpr (h.edges edge hedge))), ?_⟩
    refine andThen_ok_iff.mpr ⟨launchPositions d.launches,
      ((validatedSchedule_eq h.launches.distinct hedgeEnds).2 _).mpr ⟨h.schedule, rfl⟩, ?_⟩
    refine andThen_ok_iff.mpr ⟨factsOf d.slots, congrArg some (validatedKernels_ok_iff.mpr
      ⟨⟨h.kernels, eachAfter_slotFits_iff.mpr ⟨h.slots, h.buffers, hfirst.roles⟩⟩, rfl⟩), ?_⟩
    refine andThen_ok_iff.mpr ⟨(), congrArg some (checkPerStepInputs_ok_iff.mpr h.inputs), ?_⟩
    refine andThen_ok_iff.mpr ⟨(), congrArg some
      ((validateOnceInit_ok_iff h.buffers).mpr h.onceInit), ?_⟩
    refine andThen_ok_iff.mpr ⟨d.results.map (·.bufferId),
      ((checkResults_eq h.launches.distinct h.buffers d.results []).2 _).mpr
        ⟨⟨h.results, by simp, h.resultsDistinct⟩, rfl⟩, ?_⟩
    exact congrArg some ((validateEndOfRunResults_ok_iff h.buffers).mpr
      ⟨h.endOfRun, h.endOfRunDistinct, hfirst.writers⟩)

/-! ## A small admitted descriptor -/

/-- A slot of four `f32` elements at version 1, named by its buffer id. -/
def plainSlot (id : UInt32) (role : DeviceBufferRole) (lifetime : DeviceBufferLifetime)
    (binding : UInt32) : DescriptorBuffer where
  bufferId := id
  bufferName := toString id
  semanticValue := id
  role := role
  lifetime := lifetime
  initialization := .zeroFill
  binding := binding
  elementTy := .f32
  elementCount := 4
  shape := none
  version := 1

/-- The metadata of a plain slot. -/
def plainVersion (id : UInt32) : DescriptorBufferVersion := ⟨id, 1, .f32, 4, none⟩

/-- A kernel with the given slots, launched one thread at a time. -/
def plainKernel (entry : String) (buffers : List DescriptorBuffer) : DescriptorKernel :=
  ⟨entry, buffers, ⟨1, 1, 1⟩, ⟨1, 1, 1⟩⟩

/-- Launches 1 and 2 of one kernel that reads buffer 1 and writes buffer 2, where
    the second launch follows the first along the edge of buffer 2. -/
def sampleDescriptor : DeviceDescriptor where
  backend := .metal
  moduleImage := [1]
  kernels := [plainKernel "scale" [plainSlot 1 .input .perProgram 0, plainSlot 2 .inOut .perProgram 1]]
  launches := [⟨1, 0⟩, ⟨2, 0⟩]
  bufferVersions := [plainVersion 1, plainVersion 2]
  programLifetime := .repeatingStep
  dataFlow := [⟨2, 1, 1, 2⟩]
  roots := [1]
  results := []
  endOfRunResults := [⟨2, 1⟩]

example : sampleDescriptor.Accepted := by decide +kernel

end DeviceDescriptor

end FaberHosts.Descriptor
