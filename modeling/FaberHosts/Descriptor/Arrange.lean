import FaberHosts.Lib.Words
import FaberHosts.Descriptor.Order

/-!
# When the declaration order decides admission

The exact condition under which every rearrangement of a descriptor gets the same
answer.  A kernel that opens a split buffer with an `inOut` slot and an end-of-run
buffer version with a written slot can always list such a slot first, so only the
order of the kernels matters.
-/

namespace FaberHosts.Descriptor
open FaberHosts.Lib
namespace DeviceDescriptor

/-! ## The condition -/

/-- No order changes what the first slots decide: no buffer is split between `input`
    and `output`, and no end-of-run buffer version has an `input` slot. -/
structure OrderFree (d : DeviceDescriptor) : Prop where
  roles : ∀ a ∈ d.slots, ∀ b ∈ d.slots, a.bufferId = b.bufferId →
    roleConflict a.role b.role = false
  writers : ∀ endOfRun ∈ d.endOfRunResults, ∀ slot ∈ d.slots, slot.key = endOfRun.key →
    slot.role ≠ .input

/-- The buffer has an `input` and an `output` slot. -/
def Split (d : DeviceDescriptor) (id : UInt32) : Prop :=
  ∃ a ∈ d.slots, ∃ b ∈ d.slots, a.bufferId = id ∧ b.bufferId = id ∧ roleConflict a.role b.role = true

/-- The kernel may follow the kernels `before` it: it holds an `inOut` slot of each
    split buffer, and a written slot of each end-of-run buffer version, that it is
    the first to name. -/
structure Opens (d : DeviceDescriptor) (before : List DescriptorKernel)
    (kernel : DescriptorKernel) : Prop where
  split : ∀ slot ∈ kernel.buffers, d.Split slot.bufferId →
    (∀ s ∈ before.flatMap (·.buffers), s.bufferId ≠ slot.bufferId) →
    ∃ s ∈ kernel.buffers, s.bufferId = slot.bufferId ∧ s.role = .inOut
  written : ∀ endOfRun ∈ d.endOfRunResults, ∀ slot ∈ kernel.buffers, slot.key = endOfRun.key →
    (∀ s ∈ before.flatMap (·.buffers), s.key ≠ endOfRun.key) →
    ∃ s ∈ kernel.buffers, s.key = endOfRun.key ∧ s.role ≠ .input

/-- Some order of the kernel table, with the launched kernels at places a `u32`
    index can name, has every kernel follow those before it. -/
def Arrangeable (d : DeviceDescriptor) : Prop :=
  ∃ order : List Nat, order.Perm (List.range d.kernels.length) ∧
    (∀ launch ∈ d.launches, order.idxOf launch.kernelIndex.toNat < 2 ^ 32) ∧
    EachAfter (Opens d) [] (d.inOrder order)

/-! ## Order-free descriptors -/

theorem firstSlotsFit_of_orderFree {d : DeviceDescriptor} (h : OrderFree d) : FirstSlotsFit d where
  roles slot hslot first hfind := by
    obtain ⟨hfirst, hid⟩ := find?_key hfind
    exact h.roles first hfirst slot hslot hid
  writers endOfRun hend first hfind := by
    obtain ⟨hfirst, hkey⟩ := find?_key hfind
    exact h.writers endOfRun hend first hfirst hkey

theorem orderFree_of_sameFacts {d d' : DeviceDescriptor} (h : SameFacts d d') (hfree : OrderFree d) :
    OrderFree d' where
  roles a ha b hb := hfree.roles a (h.slots.mem_iff.mp ha) b (h.slots.mem_iff.mp hb)
  writers endOfRun hend slot hslot := hfree.writers endOfRun (h.endOfRunResults.mem_iff.mp hend) slot
    (h.slots.mem_iff.mp hslot)

/-! ## An admitted order opens well -/

theorem opens_of_firstSlotsFit {d d' : DeviceDescriptor} (h : SameFacts d d')
    (hfirst : FirstSlotsFit d') {kernels kernels' : List DescriptorKernel}
    (hkernels : List.Forall₂ SameKernel kernels kernels') {before : List DescriptorKernel}
    {seen : List DescriptorBuffer} (hseen : seen.Perm (before.flatMap (·.buffers)))
    (hslots : d'.slots = seen ++ kernels'.flatMap (·.buffers)) :
    EachAfter (Opens d) before kernels := by
  induction hkernels generalizing before seen with
  | nil => trivial
  | @cons kernel kernel' rest rest' hkernel _ ih =>
    rw [List.flatMap_cons] at hslots
    have hmem : ∀ {slot}, slot ∈ kernel'.buffers ↔ slot ∈ kernel.buffers := hkernel.buffers.mem_iff
    refine ⟨⟨?_, ?_⟩, ?_⟩
    · rintro slot hslot ⟨a, ha, b, hb, haid, hbid, hconflict⟩ hnew
      obtain ⟨first, hin, hid, hfind⟩ := find?_append_of_mem
        (·.bufferId == slot.bufferId) kernel'.buffers seen (rest'.flatMap (·.buffers))
        (fun s hs => by simpa using hnew s (hseen.mem_iff.mp hs)) (hmem.mpr hslot) (by simp)
      rw [← hslots] at hfind
      refine ⟨first, hmem.mp hin, by simpa using hid, inOut_of_fits hconflict ?_ ?_⟩
      · exact hfirst.roles a (h.slots.mem_iff.mpr ha) first (haid ▸ hfind)
      · exact hfirst.roles b (h.slots.mem_iff.mpr hb) first (hbid ▸ hfind)
    · intro endOfRun hend slot hslot hkey hnew
      obtain ⟨first, hin, hid, hfind⟩ := find?_append_of_mem
        (·.key == endOfRun.key) kernel'.buffers seen (rest'.flatMap (·.buffers))
        (fun s hs => by simpa using hnew s (hseen.mem_iff.mp hs)) (hmem.mpr hslot) (by simpa using hkey)
      rw [← hslots] at hfind
      exact ⟨first, hmem.mp hin, by simpa using hid,
        hfirst.writers endOfRun (h.endOfRunResults.mem_iff.mpr hend) first hfind⟩
    · refine @ih (before ++ [kernel]) (seen ++ kernel'.buffers) ?_ ?_
      · rw [List.flatMap_append, List.flatMap_singleton]
        exact hseen.append hkernel.buffers
      · rw [hslots, List.append_assoc]

theorem exists_relaunched {order : List Nat} {launches launches' : List DescriptorLaunch}
    (h : List.Forall₂ (Relaunched order) launches launches') {launch : DescriptorLaunch}
    (hlaunch : launch ∈ launches) : ∃ launch', Relaunched order launch launch' := by
  induction h with
  | nil => cases hlaunch
  | cons hhead _ ih =>
    rcases List.mem_cons.mp hlaunch with rfl | hlaunch
    · exact ⟨_, hhead⟩
    · exact ih hlaunch

theorem idxOf_relaunched {order : List Nat} {n : Nat} (horder : order.Perm (List.range n))
    {launch launch' : DescriptorLaunch} (h : Relaunched order launch launch')
    (hindex : launch.kernelIndex.toNat < n) :
    order.idxOf launch.kernelIndex.toNat = launch'.kernelIndex.toNat := by
  have hlength : order.length = n := by simpa using horder.length_eq
  rcases h.kernelIndex with hmoved | ⟨hout, -⟩
  · obtain ⟨hlt, hget⟩ := List.getElem?_eq_some_iff.mp hmoved
    rw [← hget]
    exact (horder.nodup_iff.mpr List.nodup_range).idxOf_getElem _ hlt
  · omega

theorem arrangeable_of_firstSlotsFit {d d' : DeviceDescriptor} (h : Rearranged d d')
    (hrules : RulesHold d) (hfirst : FirstSlotsFit d') : Arrangeable d := by
  obtain ⟨order, horder, hkernels, hlaunches⟩ := h.kernels
  have hnone : ([] : List DescriptorBuffer).Perm
      (([] : List DescriptorKernel).flatMap (·.buffers)) := .nil
  refine ⟨order, horder, fun launch hlaunch => ?_,
    opens_of_firstSlotsFit h.sameFacts hfirst hkernels hnone rfl⟩
  obtain ⟨launch', hmoved⟩ := exists_relaunched hlaunches hlaunch
  rw [idxOf_relaunched horder hmoved (hrules.launches.kernelIndex launch hlaunch)]
  exact launch'.kernelIndex.toNat_lt

/-! ## Rearranging a descriptor -/

/-- The kernels in the given order, each with its slots rearranged, and the launches
    pointing at the new places. -/
def arranged (d : DeviceDescriptor) (order : List Nat)
    (slots : List DescriptorBuffer → List DescriptorBuffer) : DeviceDescriptor :=
  { d with
    kernels := (d.inOrder order).map (fun kernel => { kernel with buffers := slots kernel.buffers })
    launches := d.launches.map (fun launch =>
      { launch with kernelIndex := UInt32.ofNat (order.idxOf launch.kernelIndex.toNat) }) }

section Arranged

variable {d : DeviceDescriptor} {order : List Nat}
  {slots : List DescriptorBuffer → List DescriptorBuffer}

theorem arranged_slots : (d.arranged order slots).slots =
    (d.inOrder order).flatMap (fun kernel => slots kernel.buffers) := by
  simp [DeviceDescriptor.slots, arranged, List.flatMap_map]

theorem arranged_rearranged (horder : order.Perm (List.range d.kernels.length))
    (hslots : ∀ l, (slots l).Perm l) (hrules : RulesHold d)
    (hplaces : ∀ launch ∈ d.launches, order.idxOf launch.kernelIndex.toNat < 2 ^ 32) :
    Rearranged d (d.arranged order slots) := by
  refine ⟨rfl, rfl, rfl, ⟨order, horder, ?_, ?_⟩, .refl _, .refl _, .refl _, .refl _, .refl _⟩
  · exact List.forall₂_map_right_iff.mpr
      (List.forall₂_same.mpr (fun kernel _ => ⟨rfl, rfl, rfl, hslots kernel.buffers⟩))
  · refine List.forall₂_map_right_iff.mpr (List.forall₂_same.mpr (fun launch hlaunch => ⟨rfl, ?_⟩))
    have hmem : launch.kernelIndex.toNat ∈ order :=
      horder.mem_iff.mpr (List.mem_range.mpr (hrules.launches.kernelIndex launch hlaunch))
    have hlt := List.idxOf_lt_length_of_mem hmem
    left
    rw [UInt32.toNat_ofNat_of_lt' (hplaces launch hlaunch), List.getElem?_eq_getElem hlt,
      List.getElem_idxOf]

end Arranged

/-! ## Listing written slots first -/

/-- `inOut` slots come first, `input` slots last. -/
def roleRank : DeviceBufferRole → Nat
  | .inOut => 0
  | .output => 1
  | .input => 2

def writersFirst (slots : List DescriptorBuffer) : List DescriptorBuffer :=
  slots.mergeSort (fun a b => roleRank a.role ≤ roleRank b.role)

theorem writersFirst_perm (slots : List DescriptorBuffer) : (writersFirst slots).Perm slots :=
  List.mergeSort_perm _ _

theorem writersFirst_sorted (slots : List DescriptorBuffer) :
    (writersFirst slots).Pairwise (fun a b => roleRank a.role ≤ roleRank b.role) := by
  have hsorted : (writersFirst slots).Pairwise
      (fun a b => decide (roleRank a.role ≤ roleRank b.role) = true) :=
    List.pairwise_mergeSort (fun a b c hab hbc => by simp only [decide_eq_true_eq] at *; omega)
      (fun a b => by simp only [Bool.or_eq_true, decide_eq_true_eq]; omega) slots
  exact hsorted.imp (fun h => by simpa using h)

theorem find?_writersFirst_inOut {slots : List DescriptorBuffer} {p : DescriptorBuffer → Bool}
    {first s : DescriptorBuffer} (hfirst : (writersFirst slots).find? p = some first)
    (hs : s ∈ slots) (hp : p s = true) (hrole : s.role = .inOut) : first.role = .inOut := by
  have hle := rank_find?_le (writersFirst_sorted slots) hfirst
    ((writersFirst_perm slots).mem_iff.mpr hs) hp
  cases hr : first.role <;> simp [hr, hrole, roleRank] at hle ⊢

theorem find?_writersFirst_ne_input {slots : List DescriptorBuffer} {p : DescriptorBuffer → Bool}
    {first s : DescriptorBuffer} (hfirst : (writersFirst slots).find? p = some first)
    (hs : s ∈ slots) (hp : p s = true) (hrole : s.role ≠ .input) : first.role ≠ .input := by
  have hle := rank_find?_le (writersFirst_sorted slots) hfirst
    ((writersFirst_perm slots).mem_iff.mpr hs) hp
  intro hinput
  cases hr : s.role <;> simp_all [roleRank]

/-- In an order that opens well the first slots fit once each kernel lists its
    written slots first. -/
theorem firstSlotsFit_arranged {d : DeviceDescriptor} {order : List Nat}
    (horder : order.Perm (List.range d.kernels.length))
    (hopens : EachAfter (Opens d) [] (d.inOrder order)) :
    FirstSlotsFit (d.arranged order writersFirst) := by
  have hslots : (d.arranged order writersFirst).slots.Perm d.slots := by
    rw [arranged_slots]
    refine ((List.Perm.flatMap_left _ (fun kernel _ => writersFirst_perm kernel.buffers)).trans ?_)
    exact (inOrder_perm horder).flatMap_right _
  -- the first slot of a kind lies in the first kernel that names the kind
  have hgroup : ∀ {p : DescriptorBuffer → Bool} {first},
      (d.arranged order writersFirst).slots.find? p = some first →
      ∃ before kernel, Opens d before kernel ∧ first ∈ kernel.buffers ∧
        (∀ s ∈ before.flatMap (·.buffers), p s = false) ∧
        (writersFirst kernel.buffers).find? p = some first := by
    intro p first hfind
    rw [arranged_slots] at hfind
    obtain ⟨before, kernel, after, hsplit, hbefore, hin⟩ := exists_group_of_find? hfind
    refine ⟨before, kernel, ?_, (writersFirst_perm _).mem_iff.mp (List.mem_of_find?_eq_some hin),
      fun s hs => hbefore s ?_, hin⟩
    · simpa using eachAfter_iff.mp hopens before kernel after hsplit
    · obtain ⟨k, hk, hs⟩ := List.mem_flatMap.mp hs
      exact List.mem_flatMap.mpr ⟨k, hk, (writersFirst_perm _).mem_iff.mpr hs⟩
  constructor
  · intro slot hslot first hfind
    by_contra hconflict
    rw [Bool.not_eq_false] at hconflict
    obtain ⟨hmem, hid⟩ := find?_key hfind
    obtain ⟨before, kernel, hopen, hin, hbefore, hfirst⟩ := hgroup hfind
    obtain ⟨s, hs, hsid, hrole⟩ := hopen.split first hin
      ⟨first, hslots.mem_iff.mp hmem, slot, hslots.mem_iff.mp hslot, rfl, hid.symm, hconflict⟩
      (fun s hs => by simpa [hid] using hbefore s hs)
    rw [find?_writersFirst_inOut hfirst hs (by simpa [← hid] using hsid) hrole] at hconflict
    cases hconflict
  · intro endOfRun hend first hfind
    obtain ⟨-, hkey⟩ := find?_key hfind
    obtain ⟨before, kernel, hopen, hin, hbefore, hfirst⟩ := hgroup hfind
    obtain ⟨s, hs, hskey, hrole⟩ := hopen.written endOfRun hend first hin hkey
      (fun s hs => by simpa using hbefore s hs)
    exact find?_writersFirst_ne_input hfirst hs (by simpa using hskey) hrole

/-! ## Listing one slot first -/

/-- The slot comes first in the kernels that hold it. -/
def toFront (slot : DescriptorBuffer) (slots : List DescriptorBuffer) : List DescriptorBuffer :=
  if slot ∈ slots then slot :: slots.erase slot else slots

theorem toFront_perm (slot : DescriptorBuffer) (slots : List DescriptorBuffer) :
    (toFront slot slots).Perm slots := by
  unfold toFront
  split
  · exact (List.perm_cons_erase ‹_›).symm
  · exact .refl _

/-- Place `i` first and the launched kernels right after it. -/
def launchedFirst (d : DeviceDescriptor) (i : Nat) : List Nat :=
  let launched := fun j => decide (j ∈ d.launches.map (·.kernelIndex.toNat))
  let others := (List.range d.kernels.length).erase i
  i :: (others.filter launched ++ others.filter (!launched ·))

theorem launchedFirst_perm {d : DeviceDescriptor} {i : Nat} (hi : i < d.kernels.length) :
    (d.launchedFirst i).Perm (List.range d.kernels.length) :=
  ((List.filter_append_perm _ _).cons i).trans
    (List.perm_cons_erase (List.mem_range.mpr hi)).symm

/-- Launch identities are distinct and never zero, so there are fewer than `2^32`. -/
theorem launches_length_lt {d : DeviceDescriptor} (h : LaunchesFit d) :
    d.launches.length < 2 ^ 32 := by
  have hzero : 0 ∉ d.launchIds := by
    intro hmem
    obtain ⟨launch, hlaunch, hid⟩ := List.mem_map.mp hmem
    exact h.nonzero launch hlaunch hid
  simpa [launchIds] using length_lt_of_nodup32 h.distinct hzero

theorem launchedFirst_places {d : DeviceDescriptor} (h : LaunchesFit d) {i : Nat} :
    ∀ launch ∈ d.launches, (d.launchedFirst i).idxOf launch.kernelIndex.toNat < 2 ^ 32 := by
  intro launch hlaunch
  have hlength := launches_length_lt h
  by_cases hi : i = launch.kernelIndex.toNat
  · simp [launchedFirst, hi]
  · have hrange : launch.kernelIndex.toNat ∈ (List.range d.kernels.length).erase i :=
      (List.mem_erase_of_ne (Ne.symm hi)).mpr
        (List.mem_range.mpr (h.kernelIndex launch hlaunch))
    have hmem : launch.kernelIndex.toNat ∈ ((List.range d.kernels.length).erase i).filter
        (fun j => decide (j ∈ d.launches.map (·.kernelIndex.toNat))) :=
      List.mem_filter.mpr ⟨hrange, decide_eq_true (List.mem_map_of_mem hlaunch)⟩
    have hcount : (((List.range d.kernels.length).erase i).filter
        (fun j => decide (j ∈ d.launches.map (·.kernelIndex.toNat)))).length ≤
          d.launches.length := by
      have hnodup := (List.nodup_range (n := d.kernels.length)).erase i |>.filter
        (fun j => decide (j ∈ d.launches.map (·.kernelIndex.toNat)))
      have hsubset : ((List.range d.kernels.length).erase i).filter
          (fun j => decide (j ∈ d.launches.map (·.kernelIndex.toNat))) ⊆
            d.launches.map (·.kernelIndex.toNat) :=
        fun j hj => of_decide_eq_true (List.mem_filter.mp hj).2
      simpa using (List.subperm_of_subset hnodup hsubset).length_le
    have hplace := List.idxOf_lt_length_of_mem hmem
    rw [launchedFirst, List.idxOf_cons_ne _ hi, List.idxOf_append_of_mem hmem]
    omega

/-- A slot listed first of all is the first of every kind it belongs to. -/
theorem find?_toFront {d : DeviceDescriptor} {i : Nat} {kernel : DescriptorKernel}
    (hkernel : d.kernels[i]? = some kernel) {slot : DescriptorBuffer} (hslot : slot ∈ kernel.buffers)
    {p : DescriptorBuffer → Bool} (hp : p slot = true) :
    (d.arranged (d.launchedFirst i) (toFront slot)).slots.find? p = some slot := by
  rw [arranged_slots, inOrder, launchedFirst, List.filterMap_cons_some hkernel, List.flatMap_cons,
    toFront, if_pos hslot, List.cons_append, List.find?_cons_of_pos hp]

/-- Where some order can change what the first slots decide, some order makes them
    not fit. -/
theorem exists_not_firstSlotsFit {d : DeviceDescriptor} (hrules : RulesHold d)
    (hfree : ¬ OrderFree d) : ∃ d', Rearranged d d' ∧ ¬ FirstSlotsFit d' := by
  have hrearranged : ∀ slot {i kernel}, d.kernels[i]? = some kernel →
      Rearranged d (d.arranged (d.launchedFirst i) (toFront slot)) := by
    intro slot i kernel hkernel
    exact arranged_rearranged
      (launchedFirst_perm (List.getElem?_eq_some_iff.mp hkernel).1)
      (toFront_perm slot) hrules (launchedFirst_places hrules.launches)
  have hplace : ∀ slot ∈ d.slots, ∃ (i : Nat) (kernel : DescriptorKernel),
      d.kernels[i]? = some kernel ∧ slot ∈ kernel.buffers := by
    intro slot hslot
    obtain ⟨kernel, hkernel, hslot⟩ := List.mem_flatMap.mp hslot
    obtain ⟨i, hi⟩ := List.getElem?_of_mem hkernel
    exact ⟨i, kernel, hi, hslot⟩
  by_cases hroles : ∀ a ∈ d.slots, ∀ b ∈ d.slots, a.bufferId = b.bufferId →
      roleConflict a.role b.role = false
  · have hwriters : ¬ ∀ endOfRun ∈ d.endOfRunResults, ∀ slot ∈ d.slots,
        slot.key = endOfRun.key → slot.role ≠ .input := fun h => hfree ⟨hroles, h⟩
    push Not at hwriters
    obtain ⟨endOfRun, hend, slot, hslot, hkey, hinput⟩ := hwriters
    obtain ⟨i, kernel, hkernel, hin⟩ := hplace slot hslot
    refine ⟨_, hrearranged slot hkernel, fun hfit => ?_⟩
    exact hfit.writers endOfRun hend slot (find?_toFront hkernel hin (by simpa using hkey)) hinput
  · push Not at hroles
    obtain ⟨a, ha, b, hb, hid, hconflict⟩ := hroles
    obtain ⟨i, kernel, hkernel, hin⟩ := hplace a ha
    have harranged := hrearranged a hkernel
    refine ⟨_, harranged, fun hfit => hconflict ?_⟩
    exact hfit.roles b (harranged.sameFacts.slots.mem_iff.mpr hb) a
      (find?_toFront hkernel hin (by simpa using hid))

/-! ## The exact condition -/

theorem admission_orderInvariant_iff (d : DeviceDescriptor) :
    (∀ d', Rearranged d d' → (d'.Accepted ↔ d.Accepted)) ↔
      ¬ RulesHold d ∨ OrderFree d ∨ ¬ Arrangeable d := by
  have haccepted : ∀ {d'}, Rearranged d d' →
      (d'.Accepted ↔ RulesHold d ∧ FirstSlotsFit d') := by
    intro d' h
    rw [accepted_iff, rulesHold_iff_of_rearranged h]
  constructor
  · intro h
    by_contra hcond
    push Not at hcond
    obtain ⟨hrules, hfree, order, horder, hplaces, hopens⟩ := hcond
    have hadmitted := arranged_rearranged horder writersFirst_perm hrules hplaces
    obtain ⟨refused, hrefused, hnot⟩ := exists_not_firstSlotsFit hrules hfree
    have hd := (h _ hadmitted).mp
      ((haccepted hadmitted).mpr ⟨hrules, firstSlotsFit_arranged horder hopens⟩)
    exact hnot ((haccepted hrefused).mp ((h refused hrefused).mpr hd)).2
  · intro hcond d' hrearranged
    rw [haccepted hrearranged, accepted_iff]
    rcases hcond with hrules | hfree | hnone
    · exact iff_of_false (fun h => hrules h.1) (fun h => hrules h.1)
    · exact and_congr_right (fun _ => iff_of_true
        (firstSlotsFit_of_orderFree (orderFree_of_sameFacts hrearranged.sameFacts hfree))
        (firstSlotsFit_of_orderFree hfree))
    · refine and_congr_right (fun hrules => iff_of_false (fun hfirst => ?_) (fun hfirst => ?_))
      · exact hnone (arrangeable_of_firstSlotsFit hrearranged hrules hfirst)
      · exact hnone (arrangeable_of_firstSlotsFit (Rearranged.refl d) hrules hfirst)

/-- The descriptor that lists the `inOut` slot of buffer 1 first is admitted, the one
    that lists its `input` slot first is not. -/
def splitBehindInput : DeviceDescriptor :=
  { splitBehindInOut with
    kernels := [plainKernel "split" [plainSlot 1 .input .perProgram 1,
      plainSlot 1 .inOut .perProgram 0, plainSlot 1 .output .perProgram 2]] }

theorem slot_order_decides_admission : Rearranged splitBehindInOut splitBehindInput ∧
    splitBehindInOut.Accepted ∧ ¬ splitBehindInput.Accepted := by
  refine ⟨⟨rfl, rfl, rfl, ⟨[0], .refl _, ?_, ?_⟩, .refl _, .refl _, .refl _, .refl _, .refl _⟩,
    by decide +kernel, by decide +kernel⟩
  · exact .cons ⟨rfl, rfl, rfl, .swap _ _ _⟩ .nil
  · exact .cons ⟨rfl, .inl rfl⟩ (.cons ⟨rfl, .inl rfl⟩ .nil)

end DeviceDescriptor

end FaberHosts.Descriptor
