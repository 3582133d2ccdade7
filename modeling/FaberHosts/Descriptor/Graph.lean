import FaberHosts.Descriptor.Admission

/-!
# The carried graph

Admission makes the carried graph sound as a schedule: one producer per buffer
version, edges forward in the launch order, every launch reachable from a root.
It types the edges and the observations by the metadata the slots agree with, and
does not relate either to the roles the launched kernels bind.
-/

namespace FaberHosts.Descriptor
open FaberHosts.Lib
namespace DeviceDescriptor

/-! ## Soundness of the schedule -/

/-- `id` stands at place `i` of the launch order. -/
def LaunchedAt (d : DeviceDescriptor) (i : Nat) (id : UInt32) : Prop := d.launchIds[i]? = some id

/-- The graph is a schedule of its launches. -/
structure GraphLaws (d : DeviceDescriptor) : Prop where
  nonzero : ∀ launch ∈ d.launches, launch.id ≠ 0
  distinct : d.launchIds.Nodup
  kernel : ∀ launch ∈ d.launches, ∃ kernel, d.kernels[launch.kernelIndex.toNat]? = some kernel
  oneProducer : OneProducer d
  forward : ∀ edge ∈ d.dataFlow,
    ∃ i j, i < j ∧ d.LaunchedAt i edge.producer ∧ d.LaunchedAt j edge.consumer
  reachable : LaunchesReachable d
  observed : ∀ result ∈ d.results,
    ∃ i j, i ≤ j ∧ d.LaunchedAt i result.producedBy ∧ d.LaunchedAt j result.atLaunch

theorem launchedAt_mem {d : DeviceDescriptor} {i : Nat} {id : UInt32} (h : d.LaunchedAt i id) :
    id ∈ d.launchIds := List.mem_of_getElem? h

theorem launchIndex_of_launchedAt {d : DeviceDescriptor} (hdistinct : d.launchIds.Nodup) {i : Nat}
    {id : UInt32} (h : d.LaunchedAt i id) : d.launchIndex id = i := by
  obtain ⟨hlt, rfl⟩ := List.getElem?_eq_some_iff.mp h
  exact hdistinct.idxOf_getElem i hlt

theorem launchIndex_lt_of_path {d : DeviceDescriptor} (hforward : EdgesForward d) {a b : UInt32}
    (hpath : Relation.TransGen d.FlowsTo a b) : d.launchIndex a < d.launchIndex b := by
  have hedge : ∀ {a b}, d.FlowsTo a b → d.launchIndex a < d.launchIndex b := by
    rintro a b ⟨edge, hmem, rfl, rfl⟩
    exact hforward edge hmem
  induction hpath with
  | single h => exact hedge h
  | tail _ h ih => exact ih.trans (hedge h)

theorem graphLaws_of_rulesHold {d : DeviceDescriptor} (h : RulesHold d) : GraphLaws d where
  nonzero := h.launches.nonzero
  distinct := h.launches.distinct
  kernel launch hlaunch :=
    ⟨_, List.getElem?_eq_getElem (h.launches.kernelIndex launch hlaunch)⟩
  oneProducer := h.schedule.oneProducer
  forward edge hedge := ⟨d.launchIndex edge.producer, d.launchIndex edge.consumer,
    h.schedule.forward edge hedge, getElem?_launchIndex (h.edges edge hedge).producer,
    getElem?_launchIndex (h.edges edge hedge).consumer⟩
  reachable := h.schedule.reachable
  observed result hresult := ⟨d.launchIndex result.producedBy, d.launchIndex result.atLaunch,
    (h.results result hresult).observedAfter,
    getElem?_launchIndex (h.results result hresult).produced,
    getElem?_launchIndex (h.results result hresult).at'⟩

theorem scheduleFits_of_graphLaws {d : DeviceDescriptor} (h : GraphLaws d) : ScheduleFits d where
  oneProducer := h.oneProducer
  forward edge hedge := by
    obtain ⟨i, j, hlt, hi, hj⟩ := h.forward edge hedge
    rwa [launchIndex_of_launchedAt h.distinct hi, launchIndex_of_launchedAt h.distinct hj]
  reachable := h.reachable

/-- Validation returns; what it admits is a schedule without cycles; and the
    schedule check refuses no descriptor that obeys the laws. -/
theorem validate_graph_sound (d : DeviceDescriptor) :
    (∃ answer, d.validate = some answer) ∧
      (d.Accepted → GraphLaws d ∧ ∀ id, ¬ Relation.TransGen d.FlowsTo id id) ∧
      (GraphLaws d → ∃ position, d.validatedSchedule d.launchIds d.roots = some (.ok position)) := by
  refine ⟨validate_returns d, fun haccepted => ?_, fun hlaws => ?_⟩
  · obtain ⟨hrules, -⟩ := (accepted_iff d).mp haccepted
    refine ⟨graphLaws_of_rulesHold hrules, fun id hcycle => ?_⟩
    exact absurd (launchIndex_lt_of_path hrules.schedule.forward hcycle) (lt_irrefl _)
  · have hends : ∀ edge ∈ d.dataFlow, edge.producer ∈ d.launchIds ∧ edge.consumer ∈ d.launchIds := by
      intro edge hedge
      obtain ⟨i, j, -, hi, hj⟩ := hlaws.forward edge hedge
      exact ⟨launchedAt_mem hi, launchedAt_mem hj⟩
    exact ⟨_, ((validatedSchedule_eq hlaws.distinct hends).2 _).mpr
      ⟨scheduleFits_of_graphLaws hlaws, rfl⟩⟩

theorem sample_graph_sound : GraphLaws sampleDescriptor ∧
    ∃ position, sampleDescriptor.validatedSchedule [1, 2] [1] = some (.ok position) := by
  obtain ⟨-, hsound, hcomplete⟩ := validate_graph_sound sampleDescriptor
  have hlaws := (hsound (by decide +kernel)).1
  exact ⟨hlaws, hcomplete hlaws⟩

/-! ## The carried graph and the bound slots -/

/-- Some slot of the kernel that launch `id` runs names the buffer version in a role. -/
def Binds (d : DeviceDescriptor) (id : UInt32) (key : BufferKey) (roles : List DeviceBufferRole) :
    Prop :=
  ∃ launch ∈ d.launches, launch.id = id ∧ ∃ kernel ∈ d.kernels[launch.kernelIndex.toNat]?,
    ∃ slot ∈ kernel.buffers, slot.key = key ∧ slot.role ∈ roles

instance (d : DeviceDescriptor) (id : UInt32) (key : BufferKey) (roles : List DeviceBufferRole) :
    Decidable (d.Binds id key roles) :=
  inferInstanceAs (Decidable (∃ launch ∈ d.launches, _))

/-- The carried graph is read off the bound slots: one launch writes a buffer
    version, edges run from a writer to a reader, results come from a writer. -/
structure CarriedIsExecuted (d : DeviceDescriptor) : Prop where
  oneWriter : ∀ a b key, d.Binds a key [.output] → d.Binds b key [.output] → a = b
  edges : ∀ edge ∈ d.dataFlow, d.Binds edge.producer edge.key [.output, .inOut] ∧
    d.Binds edge.consumer edge.key [.input, .inOut]
  results : ∀ result ∈ d.results, d.Binds result.producedBy result.key [.output, .inOut]

/-- Two launches of one kernel that writes buffer 1, an edge and a result about
    buffers that the launches they name do not bind. -/
def unrelatedGraph : DeviceDescriptor :=
  { sampleDescriptor with
    kernels := [plainKernel "write" [plainSlot 1 .output .perProgram 0],
      plainKernel "observe" [plainSlot 2 .output .observationPoint 0]]
    launches := [⟨1, 0⟩, ⟨2, 0⟩, ⟨3, 1⟩]
    dataFlow := [⟨2, 1, 1, 2⟩]
    roots := [1, 3]
    results := [⟨2, 1, 1, 3⟩]
    endOfRunResults := [] }

theorem unrelated_graph_accepted : unrelatedGraph.Accepted ∧ ¬ CarriedIsExecuted unrelatedGraph := by
  refine ⟨by decide +kernel, fun h => ?_⟩
  have htwice := h.oneWriter 1 2 (1, 1) (by decide +kernel) (by decide +kernel)
  exact absurd htwice (by decide)

/-- The graph is typed: its edges and results name launches in order and buffer
    versions with one metadata row, the row every slot of that version agrees with. -/
structure CarriedIsTyped (d : DeviceDescriptor) : Prop where
  oneProducer : OneProducer d
  edges : ∀ edge ∈ d.dataFlow,
    (∃ i j, i < j ∧ d.LaunchedAt i edge.producer ∧ d.LaunchedAt j edge.consumer) ∧
    ∃! v, v ∈ d.bufferVersions ∧ v.key = edge.key
  results : ∀ result ∈ d.results,
    (∃ i j, i ≤ j ∧ d.LaunchedAt i result.producedBy ∧ d.LaunchedAt j result.atLaunch) ∧
    (∃! v, v ∈ d.bufferVersions ∧ v.key = result.key) ∧
    (∃ slot ∈ d.slots, slot.bufferId = result.bufferId) ∧
    ∀ slot ∈ d.slots, slot.bufferId = result.bufferId → slot.lifetime = .observationPoint
  slots : ∀ slot ∈ d.slots, ∀ v ∈ d.bufferVersions, v.key = slot.key →
    v.elementTy = slot.elementTy ∧ v.elementCount = slot.elementCount ∧ v.shape = slot.shape

theorem existsUnique_version {d : DeviceDescriptor} (hfit : VersionsFit d) {key : BufferKey}
    (h : ∃ v ∈ d.bufferVersions, v.key = key) : ∃! v, v ∈ d.bufferVersions ∧ v.key = key := by
  obtain ⟨v, hv, rfl⟩ := h
  exact ⟨v, ⟨hv, rfl⟩, fun w hw => List.inj_on_of_nodup_map hfit.distinct hw.1 hv hw.2⟩

theorem slot_agrees {d : DeviceDescriptor} (h : RulesHold d) {slot : DescriptorBuffer}
    (hslot : slot ∈ d.slots) {v : DescriptorBufferVersion} (hv : v ∈ d.bufferVersions)
    (hkey : v.key = slot.key) :
    v.elementTy = slot.elementTy ∧ v.elementCount = slot.elementCount ∧ v.shape = slot.shape := by
  obtain ⟨w, hfind, hfits⟩ := (h.slots slot hslot).metadata
  obtain ⟨hw, hwkey⟩ := find?_key hfind
  rwa [List.inj_on_of_nodup_map h.versions.distinct hv hw (hkey.trans hwkey.symm)]

theorem accepted_carriedIsTyped (d : DeviceDescriptor) (haccepted : d.Accepted) :
    CarriedIsTyped d := by
  obtain ⟨hrules, -⟩ := (accepted_iff d).mp haccepted
  have hlaws := graphLaws_of_rulesHold hrules
  refine ⟨hlaws.oneProducer, fun edge hedge => ⟨hlaws.forward edge hedge,
    existsUnique_version hrules.versions (hrules.edges edge hedge).keyed⟩,
    fun result hresult => ?_, fun slot hslot v hv => slot_agrees hrules hslot hv⟩
  have hfits := hrules.results result hresult
  obtain ⟨first, hfirst, hid, hobserved⟩ := hfits.allocated
  refine ⟨hlaws.observed result hresult, existsUnique_version hrules.versions hfits.keyed,
    ⟨first, hfirst, hid⟩, fun slot hslot hslotId => ?_⟩
  rw [(hrules.buffers slot hslot first hfirst).lifetime (hslotId.trans hid.symm), hobserved]

theorem sample_carriedIsTyped : CarriedIsTyped sampleDescriptor :=
  accepted_carriedIsTyped sampleDescriptor (by decide +kernel)

end DeviceDescriptor

end FaberHosts.Descriptor

/-!
## Buffer identity facts across slots

An admitted descriptor fixes the name, value, lifetime and initialization of a
buffer over all its slots.  Roles are compared with the first slot only, and an
`inOut` first slot lets an `input` and an `output` slot of its buffer through.
-/

namespace FaberHosts.Descriptor
open FaberHosts.Lib
namespace DeviceDescriptor

/-- The identity facts of buffers, over every pair of slots. -/
structure BuffersGlobal (d : DeviceDescriptor) : Prop where
  identity : ∀ a ∈ d.slots, ∀ b ∈ d.slots, a.bufferId = b.bufferId →
    a.bufferName = b.bufferName ∧ a.semanticValue = b.semanticValue ∧ a.lifetime = b.lifetime ∧
      a.initialization = b.initialization
  roles : ∀ a ∈ d.slots, ∀ b ∈ d.slots, a.bufferId = b.bufferId →
    roleConflict a.role b.role = false
  values : ∀ a ∈ d.slots, ∀ b ∈ d.slots, a.bufferId ≠ b.bufferId →
    a.semanticValue ≠ b.semanticValue
  shapes : ∀ a ∈ d.slots, ∀ b ∈ d.slots, a.key = b.key →
    a.elementTy = b.elementTy ∧ a.elementCount = b.elementCount ∧ a.shape = b.shape

/-- No buffer whose first slot is `inOut` has both an `input` and an `output` slot. -/
def NoSplitBehindInOut (d : DeviceDescriptor) : Prop :=
  ∀ a ∈ d.slots, ∀ b ∈ d.slots, a.bufferId = b.bufferId → a.role = .input → b.role = .output →
    (d.slots.find? (·.bufferId == a.bufferId)).map (·.role) ≠ some .inOut

instance (d : DeviceDescriptor) : Decidable d.NoSplitBehindInOut :=
  inferInstanceAs (Decidable (∀ a ∈ d.slots, _))

theorem roleConflict_iff {a b : DeviceBufferRole} :
    roleConflict a b = true ↔ a = .input ∧ b = .output ∨ a = .output ∧ b = .input := by
  cases a <;> cases b <;> simp [roleConflict]

theorem inOut_of_fits {first a b : DeviceBufferRole} (hconflict : roleConflict a b = true)
    (ha : roleConflict first a = false) (hb : roleConflict first b = false) : first = .inOut := by
  cases first <;> cases a <;> cases b <;> simp_all [roleConflict]

theorem roles_of_noSplit {d : DeviceDescriptor} (hfirst : FirstRolesFit d.slots)
    (hsplit : d.NoSplitBehindInOut) {a b : DescriptorBuffer} (ha : a ∈ d.slots) (hb : b ∈ d.slots)
    (hid : a.bufferId = b.bufferId) : roleConflict a.role b.role = false := by
  by_contra hconflict
  rw [Bool.not_eq_false] at hconflict
  obtain ⟨first, hfind, -, -⟩ := exists_find?_key (·.bufferId) ha
  have hrole : first.role = .inOut :=
    inOut_of_fits hconflict (hfirst a ha first hfind) (hfirst b hb first (hid ▸ hfind))
  have hinOut : (d.slots.find? (·.bufferId == a.bufferId)).map (·.role) = some .inOut := by
    rw [hfind, Option.map_some, hrole]
  rcases roleConflict_iff.mp hconflict with ⟨hinput, houtput⟩ | ⟨houtput, hinput⟩
  · exact hsplit a ha b hb hid hinput houtput hinOut
  · exact hsplit b hb a ha hid.symm hinput houtput (hid ▸ hinOut)

theorem buffersGlobal_iff (d : DeviceDescriptor) (haccepted : d.Accepted) :
    BuffersGlobal d ↔ d.NoSplitBehindInOut := by
  obtain ⟨hrules, hfirst⟩ := (accepted_iff d).mp haccepted
  constructor
  · intro h a ha b hb hid hinput houtput _
    have hfits := h.roles a ha b hb hid
    rw [hinput, houtput] at hfits
    cases hfits
  · intro hsplit
    refine ⟨fun a ha b hb hid => ?_, fun a ha b hb => roles_of_noSplit hfirst.roles hsplit ha hb,
      fun a ha b hb => mt (hrules.buffers a ha b hb).semantic.mpr, fun a ha b hb hkey => ?_⟩
    · have hsame := hrules.buffers a ha b hb
      exact ⟨hsame.name hid, hsame.semantic.mp hid, hsame.lifetime hid, hsame.initialization hid⟩
    · -- both slots agree with the one metadata row of their version
      obtain ⟨v, hfind, hty, hcount, hshape⟩ := (hrules.slots a ha).metadata
      obtain ⟨hv, hvkey⟩ := find?_key hfind
      obtain ⟨hty', hcount', hshape'⟩ := slot_agrees hrules hb hv (hvkey.trans hkey)
      exact ⟨hty.symm.trans hty', hcount.symm.trans hcount', hshape.symm.trans hshape'⟩

theorem sample_buffersGlobal : BuffersGlobal sampleDescriptor :=
  (buffersGlobal_iff sampleDescriptor (by decide +kernel)).mpr (by decide)

/-- One kernel that binds buffer 1 as `inOut`, `input` and `output`, in that order. -/
def splitBehindInOut : DeviceDescriptor :=
  { sampleDescriptor with
    kernels := [plainKernel "split" [plainSlot 1 .inOut .perProgram 0,
      plainSlot 1 .input .perProgram 1, plainSlot 1 .output .perProgram 2]]
    dataFlow := []
    roots := [1, 2]
    endOfRunResults := [] }

theorem split_behind_inOut_accepted :
    splitBehindInOut.Accepted ∧ ¬ BuffersGlobal splitBehindInOut := by
  refine ⟨by decide +kernel, fun h => ?_⟩
  have hfits := h.roles (plainSlot 1 .input .perProgram 1) (by decide)
    (plainSlot 1 .output .perProgram 2) (by decide) rfl
  exact absurd hfits (by decide)

end DeviceDescriptor

end FaberHosts.Descriptor
