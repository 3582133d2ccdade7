import FaberHosts.Lib.Codes
import FaberHosts.Coordinator.Identity
import FaberHosts.Descriptor.Arrange

/-!
# The bytes of the program-graph identity

`program_graph_bytes`: the canonical bytes the program-graph hash is taken of, and
the facts of the executed graph they stand for.
-/

namespace FaberHosts.Descriptor
open FaberHosts.Lib FaberHosts.Coordinator

/-! ## The encoding -/

def hostProgramGraphDomainTag : String := "faber.host-program-graph.v2"

/-- The order of the buffer table. -/
def bufferOrder (slot : DescriptorBuffer) : Nat ×ₗ Nat :=
  toLex (slot.bufferId.toNat, slot.version.toNat)

/-- The order of the slots of a launched kernel. -/
def slotOrder (slot : DescriptorBuffer) : Nat ×ₗ Nat ×ₗ Nat :=
  toLex (slot.bufferId.toNat, toLex (slot.version.toNat, slot.binding.toNat))

/-- One row of the buffer table. -/
def bufferBytes (slot : DescriptorBuffer) : List UInt8 :=
  pushU32 slot.bufferId ++ pushU32 slot.semanticValue ++ pushU32 slot.version ++
    pushU32 slot.elementTy.discriminant ++ pushU64 slot.elementCount ++
    pushU32 slot.lifetime.discriminant ++ pushU32 slot.initialization.discriminant

/-- One slot of a launched kernel. -/
def slotBytes (slot : DescriptorBuffer) : List UInt8 :=
  pushU32 slot.bufferId ++ pushU32 slot.semanticValue ++ pushU32 slot.version ++
    pushU32 slot.role.discriminant ++ pushU32 slot.binding ++ pushU32 slot.lifetime.discriminant ++
    pushU32 slot.initialization.discriminant ++ pushU32 slot.elementTy.discriminant ++
    pushU64 slot.elementCount

def axesBytes (axes : Axes) : List UInt8 := pushU32 axes.x ++ pushU32 axes.y ++ pushU32 axes.z

def kernelBytes (kernel : DescriptorKernel) : List UInt8 :=
  pushStr kernel.entry ++ counted pushLen slotBytes (sortByKey slotOrder kernel.buffers) ++
    axesBytes kernel.grid ++ axesBytes kernel.block

def dataFlowBytes (edge : DescriptorDataFlow) : List UInt8 :=
  pushU32 edge.bufferId ++ pushU32 edge.version ++ pushU32 edge.producer ++ pushU32 edge.consumer

def resultBytes (result : DescriptorResult) : List UInt8 :=
  pushU32 result.bufferId ++ pushU32 result.version ++ pushU32 result.producedBy ++
    pushU32 result.atLaunch

def endOfRunBytes (endOfRun : DescriptorEndOfRunResult) : List UInt8 :=
  pushU32 endOfRun.bufferId ++ pushU32 endOfRun.version

namespace DeviceDescriptor

/-- The kernel a launch names. -/
def launched (d : DeviceDescriptor) (launch : DescriptorLaunch) : Option DescriptorKernel :=
  d.kernels[launch.kernelIndex.toNat]?

/-- A launch with the facts of its kernel inlined. -/
def launchBytes (d : DeviceDescriptor) (launch : DescriptorLaunch) : List UInt8 :=
  pushU32 launch.id ++ (d.launched launch).elim [] kernelBytes

/-- The canonical bytes of the program graph.  The buffer table is sorted and has no
    count; kernel facts are inlined launch by launch. -/
def programGraphBytes (d : DeviceDescriptor) : List UInt8 :=
  pushStr hostProgramGraphDomainTag ++ pushU32 d.programLifetime.discriminant ++
    (canonical bufferOrder d.slots).flatMap bufferBytes ++
    counted pushLen pushU32 d.roots ++
    counted pushLen d.launchBytes d.launches ++
    counted pushLen dataFlowBytes d.dataFlow ++
    counted pushLen resultBytes d.results ++
    counted pushLen endOfRunBytes d.endOfRunResults

end DeviceDescriptor

/-! ## The executed facts -/

/-- What the identity keeps of one buffer version. -/
structure BufferFacts where
  bufferId : UInt32
  semanticValue : UInt32
  version : UInt32
  elementTy : DeviceDataType
  elementCount : UInt64
  lifetime : DeviceBufferLifetime
  initialization : DeviceBufferInitialization
  deriving DecidableEq, Repr

/-- What the identity keeps of one slot of a launched kernel. -/
structure BindingFacts where
  bufferId : UInt32
  semanticValue : UInt32
  version : UInt32
  role : DeviceBufferRole
  binding : UInt32
  lifetime : DeviceBufferLifetime
  initialization : DeviceBufferInitialization
  elementTy : DeviceDataType
  elementCount : UInt64
  deriving DecidableEq, Repr

/-- A kernel as a launch executes it. -/
structure KernelFacts where
  entry : String
  bindings : Finset BindingFacts
  grid : Axes
  block : Axes
  deriving DecidableEq

structure LaunchFacts where
  id : UInt32
  kernel : Option KernelFacts
  deriving DecidableEq

/-- The executed graph: a set of buffer versions, the launch sequence and the carried
    lists in their declared order. -/
structure ExecutedFacts where
  programLifetime : DeviceProgramLifetime
  buffers : Finset BufferFacts
  roots : List UInt32
  launches : List LaunchFacts
  dataFlow : List DescriptorDataFlow
  results : List DescriptorResult
  endOfRunResults : List DescriptorEndOfRunResult
  deriving DecidableEq

namespace DescriptorBuffer

def bufferFacts (slot : DescriptorBuffer) : BufferFacts where
  bufferId := slot.bufferId
  semanticValue := slot.semanticValue
  version := slot.version
  elementTy := slot.elementTy
  elementCount := slot.elementCount
  lifetime := slot.lifetime
  initialization := slot.initialization

def bindingFacts (slot : DescriptorBuffer) : BindingFacts where
  bufferId := slot.bufferId
  semanticValue := slot.semanticValue
  version := slot.version
  role := slot.role
  binding := slot.binding
  lifetime := slot.lifetime
  initialization := slot.initialization
  elementTy := slot.elementTy
  elementCount := slot.elementCount

end DescriptorBuffer

def DescriptorKernel.facts (kernel : DescriptorKernel) : KernelFacts where
  entry := kernel.entry
  bindings := (kernel.buffers.map (·.bindingFacts)).toFinset
  grid := kernel.grid
  block := kernel.block

namespace DeviceDescriptor

def launchFacts (d : DeviceDescriptor) (launch : DescriptorLaunch) : LaunchFacts where
  id := launch.id
  kernel := (d.launched launch).map (·.facts)

/-- What the session executes of the descriptor. -/
def executedFacts (d : DeviceDescriptor) : ExecutedFacts where
  programLifetime := d.programLifetime
  buffers := (d.slots.map (·.bufferFacts)).toFinset
  roots := d.roots
  launches := d.launches.map d.launchFacts
  dataFlow := d.dataFlow
  results := d.results
  endOfRunResults := d.endOfRunResults

/-- The bounds Rust puts on a `String` and a `Vec`. -/
structure Addressable (d : DeviceDescriptor) : Prop where
  entries : ∀ kernel ∈ d.kernels, (utf8Bytes kernel.entry).length < 2 ^ 64
  dataFlow : d.dataFlow.length < 2 ^ 64

end DeviceDescriptor

/-! ## What each part shows -/

theorem DeviceDataType.discriminant_inj (a b : DeviceDataType) :
    a.discriminant = b.discriminant ↔ a = b := by
  cases a <;> cases b <;> decide

theorem DeviceBufferRole.discriminant_inj (a b : DeviceBufferRole) :
    a.discriminant = b.discriminant ↔ a = b := by
  cases a <;> cases b <;> decide

theorem DeviceBufferLifetime.discriminant_inj (a b : DeviceBufferLifetime) :
    a.discriminant = b.discriminant ↔ a = b := by
  cases a <;> cases b <;> decide

theorem DeviceBufferInitialization.discriminant_inj (a b : DeviceBufferInitialization) :
    a.discriminant = b.discriminant ↔ a = b := by
  cases a <;> cases b <;> decide

theorem DeviceProgramLifetime.discriminant_inj (a b : DeviceProgramLifetime) :
    a.discriminant = b.discriminant ↔ a = b := by
  cases a <;> cases b <;> decide

theorem bufferBytes_delimits : Delimits (fun _ => True) DescriptorBuffer.bufferFacts bufferBytes := by
  intro a b _ _ r s
  simp only [bufferBytes, List.append_assoc, pushU32_append_inj, pushU64_append_inj,
    DeviceDataType.discriminant_inj, DeviceBufferLifetime.discriminant_inj,
    DeviceBufferInitialization.discriminant_inj, DescriptorBuffer.bufferFacts, BufferFacts.mk.injEq,
    and_assoc]

theorem slotBytes_delimits : Delimits (fun _ => True) DescriptorBuffer.bindingFacts slotBytes := by
  intro a b _ _ r s
  simp only [slotBytes, List.append_assoc, pushU32_append_inj, pushU64_append_inj,
    DeviceDataType.discriminant_inj, DeviceBufferRole.discriminant_inj,
    DeviceBufferLifetime.discriminant_inj, DeviceBufferInitialization.discriminant_inj,
    DescriptorBuffer.bindingFacts, BindingFacts.mk.injEq, and_assoc]

theorem axesBytes_append_inj (a b : Axes) (r s : List UInt8) :
    axesBytes a ++ r = axesBytes b ++ s ↔ a = b ∧ r = s := by
  cases a
  cases b
  simp only [axesBytes, List.append_assoc, pushU32_append_inj, Axes.mk.injEq, and_assoc]

theorem dataFlowBytes_delimits : Delimits (fun _ => True) id dataFlowBytes := by
  rintro ⟨_, _, _, _⟩ ⟨_, _, _, _⟩ _ _ r s
  simp only [dataFlowBytes, List.append_assoc, pushU32_append_inj, id_eq,
    DescriptorDataFlow.mk.injEq, and_assoc]

theorem resultBytes_delimits : Delimits (fun _ => True) id resultBytes := by
  rintro ⟨_, _, _, _⟩ ⟨_, _, _, _⟩ _ _ r s
  simp only [resultBytes, List.append_assoc, pushU32_append_inj, id_eq,
    DescriptorResult.mk.injEq, and_assoc]

theorem endOfRunBytes_delimits : Delimits (fun _ => True) id endOfRunBytes := by
  rintro ⟨_, _⟩ ⟨_, _⟩ _ _ r s
  simp only [endOfRunBytes, List.append_assoc, pushU32_append_inj, id_eq,
    DescriptorEndOfRunResult.mk.injEq, and_assoc]

/-- The slots of a kernel are told apart by their bindings, so the sorted rows show
    the set of its slot facts. -/
theorem map_sortByKey_bindingFacts {a b : DescriptorKernel} (ha : KernelShape a)
    (hb : KernelShape b) :
    (sortByKey slotOrder a.buffers).map (·.bindingFacts) =
        (sortByKey slotOrder b.buffers).map (·.bindingFacts) ↔
      (a.buffers.map (·.bindingFacts)).toFinset = (b.buffers.map (·.bindingFacts)).toFinset := by
  have hstrict : ∀ {kernel}, KernelShape kernel →
      (sortByKey slotOrder kernel.buffers).Pairwise (fun a b => slotOrder a < slotOrder b) := by
    intro kernel hkernel
    apply sortByKey_strict
    refine List.Nodup.of_map (fun order : Nat ×ₗ Nat ×ₗ Nat => (ofLex (ofLex order).2).2) ?_
    have hbindings := hkernel.bindings.map (fun a b => UInt32.toNat.inj)
    simpa [slotOrder, Function.comp_def] using hbindings
  have hmem : ∀ (kernel : DescriptorKernel) x,
      x ∈ (sortByKey slotOrder kernel.buffers).map (·.bindingFacts) ↔
        x ∈ kernel.buffers.map (·.bindingFacts) :=
    fun kernel x => ((sortByKey_perm slotOrder kernel.buffers).map _).mem_iff
  rw [map_eq_map_iff_of_strict (fun facts : BindingFacts =>
    toLex (facts.bufferId.toNat, toLex (facts.version.toNat, facts.binding.toNat)))
    (fun _ => rfl) (hstrict ha) (hstrict hb), Finset.ext_iff]
  simp only [hmem, List.mem_toFinset]

theorem buffers_length_lt {kernel : DescriptorKernel} (h : KernelShape kernel) :
    kernel.buffers.length < 2 ^ 64 := by
  have hle := length_le_of_nodup32 h.bindings
  rw [List.length_map] at hle
  exact hle.trans_lt (by norm_num)

/-- A kernel a Rust host can hold. -/
structure KernelEncodes (kernel : DescriptorKernel) : Prop where
  shape : KernelShape kernel
  entry : (utf8Bytes kernel.entry).length < 2 ^ 64

theorem kernelBytes_delimits : Delimits KernelEncodes DescriptorKernel.facts kernelBytes := by
  intro a b ha hb r s
  have hslots : ∀ {kernel}, KernelEncodes kernel →
      (sortByKey slotOrder kernel.buffers).length < 2 ^ 64 ∧
        ∀ slot ∈ sortByKey slotOrder kernel.buffers, True := by
    intro kernel hkernel
    rw [(sortByKey_perm slotOrder kernel.buffers).length_eq]
    exact ⟨buffers_length_lt hkernel.shape, fun _ _ => trivial⟩
  have hrows := slotBytes_delimits.counted pushLen_delimits _ _ (hslots ha) (hslots hb)
  simp only [kernelBytes, List.append_assoc, pushStr_delimits _ _ ha.entry hb.entry, hrows,
    axesBytes_append_inj, map_sortByKey_bindingFacts ha.shape hb.shape, DescriptorKernel.facts,
    KernelFacts.mk.injEq, id_eq, and_assoc]

/-- A launch and the kernel it names, ready to be written. -/
def launchedBytes (launch : UInt32 × Option DescriptorKernel) : List UInt8 :=
  pushU32 launch.1 ++ launch.2.elim [] kernelBytes

def launchedFacts (launch : UInt32 × Option DescriptorKernel) : LaunchFacts :=
  ⟨launch.1, launch.2.map (·.facts)⟩

theorem launchedBytes_delimits :
    Delimits (fun launch : UInt32 × Option DescriptorKernel =>
      ∃ kernel, launch.2 = some kernel ∧ KernelEncodes kernel) launchedFacts launchedBytes := by
  rintro ⟨id, _⟩ ⟨id', _⟩ ⟨kernel, rfl, hkernel⟩ ⟨kernel', rfl, hkernel'⟩ r s
  simp only [launchedBytes, launchedFacts, Option.elim_some, List.append_assoc, pushU32_append_inj,
    kernelBytes_delimits _ _ hkernel hkernel', Option.map_some, LaunchFacts.mk.injEq,
    Option.some.injEq, and_assoc]

namespace DeviceDescriptor

/-! ## The table without a count -/

/-- A buffer row starts with two words, the second not zero; a small count is a word
    and a zero word. -/
theorem stopsAt_roots {n : Nat} (hn : n < 2 ^ 32) (r : List UInt8) :
    StopsAt (fun slot : DescriptorBuffer => slot.semanticValue ≠ 0) bufferBytes
      (pushLen n ++ r) := by
  intro slot hsemantic x heq
  simp only [pushLen_of_lt hn, bufferBytes, List.append_assoc, pushU32_append_inj] at heq
  exact hsemantic heq.2.1.symm

theorem bufferFacts_of_key {d : DeviceDescriptor} (h : RulesHold d) :
    ∀ a ∈ d.slots, ∀ b ∈ d.slots, bufferOrder a = bufferOrder b → a.bufferFacts = b.bufferFacts := by
  intro a ha b hb horder
  have hwords := Prod.mk.inj (toLex_inj.mp horder)
  have hid : a.bufferId = b.bufferId := UInt32.toNat.inj hwords.1
  have hversion : a.version = b.version := UInt32.toNat.inj hwords.2
  have hkey : a.key = b.key := Prod.ext hid hversion
  have hsame := h.buffers a ha b hb
  obtain ⟨v, hfind, hty, hcount, -⟩ := (h.slots a ha).metadata
  obtain ⟨w, hfind', hty', hcount', -⟩ := (h.slots b hb).metadata
  rw [hkey, hfind'] at hfind
  obtain rfl : w = v := Option.some.inj hfind
  simp only [DescriptorBuffer.bufferFacts, BufferFacts.mk.injEq]
  exact ⟨hid, hsame.semantic.mp hid, hversion, hty.symm.trans hty', hcount.symm.trans hcount',
    hsame.lifetime hid, hsame.initialization hid⟩

theorem map_canonical_bufferFacts {d d' : DeviceDescriptor} (h : RulesHold d) (h' : RulesHold d') :
    (canonical bufferOrder d.slots).map (·.bufferFacts) =
        (canonical bufferOrder d'.slots).map (·.bufferFacts) ↔
      (d.slots.map (·.bufferFacts)).toFinset = (d'.slots.map (·.bufferFacts)).toFinset := by
  rw [map_eq_map_iff_of_strict
    (fun facts : BufferFacts => toLex (facts.bufferId.toNat, facts.version.toNat))
    (fun _ => rfl) (canonical_strict bufferOrder d.slots) (canonical_strict bufferOrder d'.slots),
    Finset.ext_iff]
  simp only [mem_map_canonical (bufferFacts_of_key h), mem_map_canonical (bufferFacts_of_key h'),
    List.mem_toFinset]

/-! ## The identity -/

/-- The launches with the kernels they name. -/
def resolved (d : DeviceDescriptor) : List (UInt32 × Option DescriptorKernel) :=
  d.launches.map (fun launch => (launch.id, d.launched launch))

theorem counted_launchBytes (d : DeviceDescriptor) :
    counted pushLen d.launchBytes d.launches = counted pushLen launchedBytes d.resolved := by
  rw [counted, counted, resolved, List.length_map, List.flatMap_map]
  rfl

theorem map_launchedFacts (d : DeviceDescriptor) :
    d.resolved.map launchedFacts = d.launches.map d.launchFacts := by
  rw [resolved, List.map_map]
  rfl

/-- The lists of a descriptor that passes validation are short enough to count, and its
    launches name kernels. -/
structure Countable (d : DeviceDescriptor) : Prop where
  roots : d.roots.length < 2 ^ 32
  launches : d.resolved.length < 2 ^ 64
  launched : ∀ launch ∈ d.resolved, ∃ kernel, launch.2 = some kernel ∧ KernelEncodes kernel
  dataFlow : d.dataFlow.length < 2 ^ 64
  results : d.results.length < 2 ^ 64
  endOfRunResults : d.endOfRunResults.length < 2 ^ 64
  semantic : ∀ slot ∈ canonical bufferOrder d.slots, slot.semanticValue ≠ 0

theorem countable_of_rulesHold {d : DeviceDescriptor} (h : RulesHold d) (haddr : Addressable d) :
    Countable d where
  roots := length_lt_of_nodup32 h.roots.distinct (fun hzero => h.roots.nonzero 0 hzero rfl)
  launches := by
    rw [resolved, List.length_map]
    exact (launches_length_lt h.launches).trans (by norm_num)
  launched := by
    intro launch hlaunch
    obtain ⟨original, horiginal, rfl⟩ := List.mem_map.mp hlaunch
    have hindex := h.launches.kernelIndex original horiginal
    have hmem := List.getElem_mem hindex
    exact ⟨_, List.getElem?_eq_getElem hindex, h.kernels _ hmem, haddr.entries _ hmem⟩
  dataFlow := haddr.dataFlow
  results := by
    have hle := length_le_of_nodup32 h.resultsDistinct
    rw [List.length_map] at hle
    exact hle.trans_lt (by norm_num)
  endOfRunResults := by
    have hle := length_le_of_nodup32 h.endOfRunDistinct
    rw [List.length_map] at hle
    exact hle.trans_lt (by norm_num)
  semantic := fun slot hslot => (h.slots slot (mem_of_mem_canonical hslot)).semantic

/-- The buffer table needs no count: the root count that follows it stops it. -/
theorem bufferTable_append_inj {d d' : DeviceDescriptor} (h : RulesHold d) (h' : RulesHold d')
    (hc : Countable d) (hc' : Countable d') (r s : List UInt8) :
    (canonical bufferOrder d.slots).flatMap bufferBytes ++ (counted pushLen pushU32 d.roots ++ r) =
        (canonical bufferOrder d'.slots).flatMap bufferBytes ++
          (counted pushLen pushU32 d'.roots ++ s) ↔
      (d.slots.map (·.bufferFacts)).toFinset = (d'.slots.map (·.bufferFacts)).toFinset ∧
        counted pushLen pushU32 d.roots ++ r = counted pushLen pushU32 d'.roots ++ s := by
  have hrows := bufferBytes_delimits.mono (fun slot (_ : slot.semanticValue ≠ 0) => trivial)
  have hstops : ∀ {d : DeviceDescriptor} (rest : List UInt8), Countable d →
      StopsAt (fun slot : DescriptorBuffer => slot.semanticValue ≠ 0) bufferBytes
        (counted pushLen pushU32 d.roots ++ rest) := by
    intro d rest hc
    rw [counted, List.append_assoc]
    exact stopsAt_roots hc.roots _
  rw [hrows.flatMap_of_stopsAt hc.semantic hc'.semantic (hstops r hc) (hstops s hc'),
    map_canonical_bufferFacts h h']

theorem programGraphBytes_eq_iff {d d' : DeviceDescriptor} (h : RulesHold d) (h' : RulesHold d')
    (haddr : Addressable d) (haddr' : Addressable d') :
    d.programGraphBytes = d'.programGraphBytes ↔ d.executedFacts = d'.executedFacts := by
  have hc := countable_of_rulesHold h haddr
  have hc' := countable_of_rulesHold h' haddr'
  have hroots := pushU32_delimits.counted pushLen_delimits d.roots d'.roots
    ⟨hc.roots.trans (by norm_num), fun _ _ => trivial⟩
    ⟨hc'.roots.trans (by norm_num), fun _ _ => trivial⟩
  have hlaunches := launchedBytes_delimits.counted pushLen_delimits d.resolved d'.resolved
    ⟨hc.launches, hc.launched⟩ ⟨hc'.launches, hc'.launched⟩
  have hedges := dataFlowBytes_delimits.counted pushLen_delimits d.dataFlow d'.dataFlow
    ⟨hc.dataFlow, fun _ _ => trivial⟩ ⟨hc'.dataFlow, fun _ _ => trivial⟩
  have hresults := resultBytes_delimits.counted pushLen_delimits d.results d'.results
    ⟨hc.results, fun _ _ => trivial⟩ ⟨hc'.results, fun _ _ => trivial⟩
  have hends := (endOfRunBytes_delimits.counted pushLen_delimits).code_eq_iff
    ⟨hc.endOfRunResults, fun _ _ => trivial⟩ ⟨hc'.endOfRunResults, fun _ _ => trivial⟩
  rw [programGraphBytes, programGraphBytes, counted_launchBytes, counted_launchBytes]
  simp only [List.append_assoc, List.append_cancel_left_eq, pushU32_append_inj]
  rw [bufferTable_append_inj h h' hc hc', hroots, hlaunches, map_launchedFacts, map_launchedFacts,
    hedges, hresults, hends]
  simp only [executedFacts, ExecutedFacts.mk.injEq, DeviceProgramLifetime.discriminant_inj,
    List.map_id]

end DeviceDescriptor

end FaberHosts.Descriptor
