import FaberHosts.Lib.Strides
import FaberHosts.Descriptor.Kv

/-!
# What the views of a KV plan address

Validation keeps the envelope of a view inside its allocation.  Dimensions and
strides are facts of their own: they say which bytes an index addresses, and
nothing relates them to the envelope.
-/

namespace FaberHosts.Descriptor
open FaberHosts.Lib

namespace DescriptorView

/-- An index within the declared dimensions. -/
def IndexedBy (view : DescriptorView) (index : List Nat) : Prop :=
  Indexes (view.logicalDims.map UInt64.toNat) index

/-- The first byte of an element of the given width: strides count elements. -/
def elementStart (view : DescriptorView) (width : Nat) (index : List Nat) : Nat :=
  view.staticBase.toNat + strided index (view.strides.map UInt64.toNat) * width

/-- The elements from the first to the last one, with the holes between them. -/
def extent (view : DescriptorView) : Nat :=
  reach (view.logicalDims.map UInt64.toNat) (view.strides.map UInt64.toNat) + 1

end DescriptorView

theorem elements_end_iff {view : DescriptorView} (hdims : 0 ∉ view.logicalDims) (width limit : Nat) :
    (∀ index, view.IndexedBy index → view.elementStart width index + width ≤ limit) ↔
      view.staticBase.toNat + view.extent * width ≤ limit := by
  have hnonzero : 0 ∉ view.logicalDims.map UInt64.toNat := by
    intro hmem
    obtain ⟨dim, hdim, hzero⟩ := List.mem_map.mp hmem
    have hdim_zero : dim = 0 := UInt64.toNat_inj.mp hzero
    exact hdims (hdim_zero ▸ hdim)
  have hend : ∀ offset, view.staticBase.toNat + offset * width + width =
      view.staticBase.toNat + (offset + 1) * width := fun offset => by ring
  constructor
  · intro h
    have hlast := h _ (indexes_last hnonzero)
    rw [DescriptorView.elementStart, hend] at hlast
    exact hlast
  · intro h index hindex
    have hle := Nat.mul_le_mul_right width
      (Nat.succ_le_succ (strided_le_reach (view.strides.map UInt64.toNat) hindex))
    rw [DescriptorView.elementStart, hend]
    exact (Nat.add_le_add_left hle _).trans h

namespace KvCacheDescriptor

/-- Every view of a validated plan has its envelope inside its allocation, and addresses no byte
    outside the one or the other exactly when its extent fits there. -/
theorem valid_view_addresses (kv : KvCacheDescriptor) (h : kv.Valid) (view : DescriptorView)
    (hview : view ∈ kv.views) :
    ∃ allocation ∈ kv.allocations, allocation.bufferId = view.allocationId ∧
      view.staticBase.toNat + view.maximumSpan.toNat ≤ allocation.capacityBytes.toNat ∧
      ((∀ index, view.IndexedBy index →
          view.staticBase.toNat ≤ view.elementStart allocation.dtype.byteWidth index ∧
          view.elementStart allocation.dtype.byteWidth index + allocation.dtype.byteWidth ≤
            view.staticBase.toNat + view.maximumSpan.toNat) ↔
        view.extent * allocation.dtype.byteWidth ≤ view.maximumSpan.toNat) ∧
      ((∀ index, view.IndexedBy index →
          view.elementStart allocation.dtype.byteWidth index + allocation.dtype.byteWidth ≤
            allocation.capacityBytes.toNat) ↔
        view.staticBase.toNat + view.extent * allocation.dtype.byteWidth ≤
          allocation.capacityBytes.toNat) := by
  have hfits := ((valid_iff kv).mp h).views view hview
  obtain ⟨allocation, hmem, hid, hinside⟩ := hfits.inside
  refine ⟨allocation, hmem, hid, hinside, ?_, elements_end_iff hfits.nonzero.1 _ _⟩
  have hends := elements_end_iff hfits.nonzero.1 allocation.dtype.byteWidth
    (view.staticBase.toNat + view.maximumSpan.toNat)
  constructor
  · intro hall
    have hextent := hends.mp (fun index hindex => (hall index hindex).2)
    omega
  · intro hextent index hindex
    refine ⟨Nat.le_add_right _ _, hends.mpr ?_ index hindex⟩
    omega

end KvCacheDescriptor

/-! ## A prefix and an append view over one arena -/

namespace TwoArenas

/-- `[layer, kv_head, position, dim]` of two layers, two heads, eight positions and four
    elements. -/
def arenaStrides : List UInt64 := [64, 32, 4, 1]

def arena (bufferId : UInt32) : DescriptorAllocation :=
  ⟨bufferId, .f32, 512, .perProgram, .zeroFill⟩

def prefixView (allocationId : UInt32) : DescriptorView :=
  ⟨allocationId, [2, 2, 8, 4], arenaStrides, 0, 512⟩

/-- One position of every layer and head: sixty-four bytes, but not in a row. -/
def appendView (allocationId : UInt32) : DescriptorView :=
  ⟨allocationId, [2, 2, 1, 4], arenaStrides, 0, 64⟩

def kv : KvCacheDescriptor where
  allocations := [arena 1, arena 2]
  views := [prefixView 1, appendView 1, prefixView 2, appendView 2]
  invocationState := ⟨3, 4, 1, 7⟩
  launchBindings := []

end TwoArenas

open TwoArenas in
/-- The prefix view ends where its arena does. -/
theorem prefix_view_within : ∃ allocation ∈ kv.allocations, allocation.bufferId = 1 ∧
    ∀ index, (prefixView 1).IndexedBy index →
      (prefixView 1).elementStart allocation.dtype.byteWidth index + allocation.dtype.byteWidth ≤
        allocation.capacityBytes.toNat := by
  obtain ⟨allocation, hmem, hid, -, -, hinside⟩ := KvCacheDescriptor.valid_view_addresses kv
    (by decide) (prefixView 1) (by decide)
  refine ⟨allocation, hmem, hid, hinside.mpr ?_⟩
  have harena : allocation = arena 1 ∨ allocation = arena 2 := by simpa [kv] using hmem
  rcases harena with rfl | rfl
  · decide
  · decide

open TwoArenas in
/-- The append view admits, but its last element starts far behind its span of 64 bytes. -/
theorem append_view_leaves_span :
    kv.Valid ∧ appendView 1 ∈ kv.views ∧ (appendView 1).IndexedBy [1, 1, 0, 3] ∧
      (appendView 1).elementStart (arena 1).dtype.byteWidth [1, 1, 0, 3] = 396 ∧
      ¬ (appendView 1).elementStart (arena 1).dtype.byteWidth [1, 1, 0, 3] +
        (arena 1).dtype.byteWidth ≤
          (appendView 1).staticBase.toNat + (appendView 1).maximumSpan.toNat := by
  refine ⟨by decide, by decide, ?_, by decide, by decide⟩
  exact .cons (by decide) (.cons (by decide) (.cons (by decide) (.cons (by decide) .nil)))

end FaberHosts.Descriptor
