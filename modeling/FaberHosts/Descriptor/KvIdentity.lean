import FaberHosts.Coordinator.Identity
import FaberHosts.Descriptor.GraphBytes
import FaberHosts.Descriptor.Kv
import FaberHosts.Descriptor.KvViews

/-!
# The static identity of a KV plan

`static_graph_bytes`: allocations and views sorted, launch bindings in declared
order, the cursor left out.  The bytes tell the allocations as a set, the launch
bindings as a list and the views up to the order of views with different keys.
-/

namespace FaberHosts.Descriptor
open FaberHosts.Lib FaberHosts.Coordinator

/-! ## The encoding -/

def hostKvStorageDomainTag : String := "faber.host-kv-storage.v2"

def allocationBytes (allocation : DescriptorAllocation) : List UInt8 :=
  pushU32 allocation.bufferId ++ pushU32 allocation.dtype.discriminant ++
    pushU64 allocation.capacityBytes ++ pushU32 allocation.lifetime.discriminant ++
    pushU32 allocation.initialization.discriminant

/-- The order of the views; the strides are not part of it. -/
def viewOrder (view : DescriptorView) : Nat ×ₗ Nat ×ₗ Nat ×ₗ List Nat :=
  toLex (view.allocationId.toNat, toLex (view.staticBase.toNat, toLex (view.maximumSpan.toNat,
    view.logicalDims.map UInt64.toNat)))

def viewBytes (view : DescriptorView) : List UInt8 :=
  pushU32 view.allocationId ++ counted pushLen pushU64 view.logicalDims ++
    counted pushLen pushU64 view.strides ++ pushU64 view.staticBase ++ pushU64 view.maximumSpan

def launchBindingBytes (binding : DescriptorLaunchBinding) : List UInt8 :=
  pushU32 binding.handle ++ pushU32 binding.bindingIndex ++ pushU64 binding.byteOffset ++
    pushU64 binding.viewSpan ++ pushU32 binding.runtimeSource.discriminant

namespace KvCacheDescriptor

def staticGraphBytes (kv : KvCacheDescriptor) : List UInt8 :=
  pushStr hostKvStorageDomainTag ++
    counted pushLen allocationBytes (sortByKey (·.bufferId.toNat) kv.allocations) ++
    counted pushLen viewBytes (sortByKey viewOrder kv.views) ++
    counted pushLen launchBindingBytes kv.launchBindings

/-- The bounds Rust puts on a `Vec`. -/
structure Addressable (kv : KvCacheDescriptor) : Prop where
  allocations : kv.allocations.length < 2 ^ 64
  views : kv.views.length < 2 ^ 64
  ranks : ∀ view ∈ kv.views, view.logicalDims.length < 2 ^ 64 ∧ view.strides.length < 2 ^ 64
  launchBindings : kv.launchBindings.length < 2 ^ 64

end KvCacheDescriptor

/-! ## What each part shows -/

theorem DescriptorRuntimeSource.discriminant_inj (a b : DescriptorRuntimeSource) :
    a.discriminant = b.discriminant ↔ a = b := by
  cases a <;> cases b <;> decide

theorem allocationBytes_delimits : Delimits (fun _ => True) id allocationBytes := by
  rintro ⟨_, _, _, _, _⟩ ⟨_, _, _, _, _⟩ _ _ r s
  simp only [allocationBytes, List.append_assoc, pushU32_append_inj, pushU64_append_inj,
    DeviceDataType.discriminant_inj, DeviceBufferLifetime.discriminant_inj,
    DeviceBufferInitialization.discriminant_inj, id_eq, DescriptorAllocation.mk.injEq, and_assoc]

theorem viewBytes_delimits : Delimits (fun view : DescriptorView =>
    view.logicalDims.length < 2 ^ 64 ∧ view.strides.length < 2 ^ 64) id viewBytes := by
  rintro ⟨id, dims, strides, base, span⟩ ⟨id', dims', strides', base', span'⟩ ⟨hdims, hstrides⟩
    ⟨hdims', hstrides'⟩ r s
  have hrow := pushU64_delimits.counted pushLen_delimits dims dims' ⟨hdims, fun _ _ => trivial⟩
    ⟨hdims', fun _ _ => trivial⟩
  have hstep := pushU64_delimits.counted pushLen_delimits strides strides'
    ⟨hstrides, fun _ _ => trivial⟩ ⟨hstrides', fun _ _ => trivial⟩
  simp only [viewBytes, List.append_assoc, pushU32_append_inj, pushU64_append_inj, hrow, hstep,
    List.map_id, id_eq, DescriptorView.mk.injEq, and_assoc]

theorem launchBindingBytes_delimits : Delimits (fun _ => True) id launchBindingBytes := by
  rintro ⟨_, _, _, _, _⟩ ⟨_, _, _, _, _⟩ _ _ r s
  simp only [launchBindingBytes, List.append_assoc, pushU32_append_inj, pushU64_append_inj,
    DescriptorRuntimeSource.discriminant_inj, id_eq, DescriptorLaunchBinding.mk.injEq, and_assoc]

namespace KvCacheDescriptor

/-- The static identity is the sorted allocations, the sorted views and the launch
    bindings. -/
theorem staticGraphBytes_eq_iff {kv kv' : KvCacheDescriptor} (h : Addressable kv)
    (h' : Addressable kv') :
    kv.staticGraphBytes = kv'.staticGraphBytes ↔
      sortByKey (·.bufferId.toNat) kv.allocations = sortByKey (·.bufferId.toNat) kv'.allocations ∧
        sortByKey viewOrder kv.views = sortByKey viewOrder kv'.views ∧
        kv.launchBindings = kv'.launchBindings := by
  have hsorted : ∀ {kv}, Addressable kv →
      (sortByKey (·.bufferId.toNat) kv.allocations).length < 2 ^ 64 ∧
        (sortByKey viewOrder kv.views).length < 2 ^ 64 := fun {kv} h => by
    rw [(sortByKey_perm (·.bufferId.toNat) kv.allocations).length_eq,
      (sortByKey_perm viewOrder kv.views).length_eq]
    exact ⟨h.allocations, h.views⟩
  have hranks : ∀ {kv}, Addressable kv → ∀ view ∈ sortByKey viewOrder kv.views,
      view.logicalDims.length < 2 ^ 64 ∧ view.strides.length < 2 ^ 64 := fun {kv} h view hview =>
    h.ranks view ((sortByKey_perm viewOrder kv.views).mem_iff.mp hview)
  have hallocations := allocationBytes_delimits.counted pushLen_delimits _ _
    ⟨(hsorted h).1, fun _ _ => trivial⟩ ⟨(hsorted h').1, fun _ _ => trivial⟩
  have hviews := viewBytes_delimits.counted pushLen_delimits _ _
    ⟨(hsorted h).2, hranks h⟩ ⟨(hsorted h').2, hranks h'⟩
  have hbindings := (launchBindingBytes_delimits.counted pushLen_delimits).code_eq_iff
    ⟨h.launchBindings, fun _ _ => trivial⟩ ⟨h'.launchBindings, fun _ _ => trivial⟩
  rw [staticGraphBytes, staticGraphBytes]
  simp only [List.append_assoc, List.append_cancel_left_eq, hallocations, hviews, hbindings,
    List.map_id]

end KvCacheDescriptor

end FaberHosts.Descriptor

/-!
## What the static identity of a KV plan depends on

The order of the allocations and the cursor never enter it.  Launch bindings are
hashed in their declared order, and views are sorted by a key that leaves their
strides out.
-/

namespace FaberHosts.Descriptor
open FaberHosts.Lib

/-- The same views in another order, those of one sort key in the same order. -/
def ViewsReordered (views views' : List DescriptorView) : Prop :=
  views.Perm views' ∧ ∀ key, views.filter (viewOrder · = key) = views'.filter (viewOrder · = key)

namespace KvCacheDescriptor

/-- Reordered allocations and views, and any cursor, give the same bytes. -/
theorem staticGraphBytes_reordered {kv kv' : KvCacheDescriptor} (h : kv.Valid)
    (hallocations : kv.allocations.Perm kv'.allocations)
    (hviews : ViewsReordered kv.views kv'.views) (hbindings : kv.launchBindings = kv'.launchBindings) :
    kv.staticGraphBytes = kv'.staticGraphBytes := by
  have hdistinct := ((valid_iff kv).mp h).distinct
  have hkeys : ∀ a ∈ kv.allocations, ∀ b ∈ kv.allocations, a.bufferId.toNat = b.bufferId.toNat →
      a = b := by
    intro a ha b hb hsame
    exact List.inj_on_of_nodup_map hdistinct ha hb (UInt32.toNat_inj.mp hsame)
  have hsorted : sortByKey viewOrder kv.views = sortByKey viewOrder kv'.views := by
    apply sortByKey_congr
    intro key
    convert hviews.2 key
  rw [staticGraphBytes, staticGraphBytes, sortByKey_eq_of_perm hallocations hkeys, hsorted,
    hbindings]

/-- Equal bytes give the same allocations and views, each as often, and the same launch
    bindings. -/
theorem perm_of_staticGraphBytes_eq {kv kv' : KvCacheDescriptor} (h : kv.Addressable)
    (h' : kv'.Addressable) (hbytes : kv.staticGraphBytes = kv'.staticGraphBytes) :
    kv.allocations.Perm kv'.allocations ∧ kv.views.Perm kv'.views ∧
      kv.launchBindings = kv'.launchBindings := by
  obtain ⟨hallocations, hviews, hbindings⟩ := (staticGraphBytes_eq_iff h h').mp hbytes
  refine ⟨?_, ?_, hbindings⟩
  · have hsorted := sortByKey_perm (·.bufferId.toNat) kv.allocations
    rw [hallocations] at hsorted
    exact hsorted.symm.trans (sortByKey_perm _ _)
  · have hsorted := sortByKey_perm viewOrder kv.views
    rw [hviews] at hsorted
    exact hsorted.symm.trans (sortByKey_perm _ _)

/-- What the static identity of a validated plan does not tell, and what it tells. -/
theorem static_identity (kv : KvCacheDescriptor) (h : kv.Valid) (haddressable : kv.Addressable) :
    (∀ kv' : KvCacheDescriptor, kv.allocations.Perm kv'.allocations →
      ViewsReordered kv.views kv'.views → kv.launchBindings = kv'.launchBindings →
      kv.staticGraphBytes = kv'.staticGraphBytes) ∧
    (∀ state, { kv with invocationState := state }.staticGraphBytes = kv.staticGraphBytes) ∧
    ∀ kv' : KvCacheDescriptor, kv'.Valid → kv'.Addressable →
      kv.staticGraphBytes = kv'.staticGraphBytes →
      kv.allocations.Perm kv'.allocations ∧ kv.views.Perm kv'.views ∧
        kv.launchBindings = kv'.launchBindings := by
  refine ⟨fun kv' hallocations hviews hbindings => ?_, fun state => rfl, fun kv' _ h' hbytes => ?_⟩
  · exact staticGraphBytes_reordered h hallocations hviews hbindings
  · exact perm_of_staticGraphBytes_eq haddressable h' hbytes

end KvCacheDescriptor

/-! ## Reordered plans -/

namespace TwoArenas

theorem kv_addressable : kv.Addressable :=
  ⟨by decide, by decide, by decide, by decide⟩

/-- The same arenas, declared the other way round, at another position. -/
def swappedArenas : KvCacheDescriptor :=
  { kv with allocations := [arena 2, arena 1], invocationState := ⟨5, 6, 1, 7⟩ }

/-- The binding of an append at the cursor. -/
def appendBinding (handle bindingIndex : UInt32) : DescriptorLaunchBinding :=
  ⟨handle, bindingIndex, 0, 64, .position⟩

def bound (launchBindings : List DescriptorLaunchBinding) : KvCacheDescriptor :=
  { kv with launchBindings := launchBindings }

/-- The append view with its rows the other way round. -/
def transposedView : DescriptorView := { appendView 1 with strides := [32, 64, 4, 1] }

def viewed (views : List DescriptorView) : KvCacheDescriptor := { kv with views := views }

end TwoArenas

open TwoArenas in
theorem swapped_arenas_same_identity : swappedArenas.staticGraphBytes = kv.staticGraphBytes := by
  have hsame := (KvCacheDescriptor.static_identity kv (by decide) kv_addressable).1 swappedArenas
    (List.Perm.swap _ _ _) ⟨.refl _, fun _ => rfl⟩ rfl
  exact hsame.symm

open TwoArenas in
/-- Launch bindings and views of one sort key enter the identity in the order they are declared. -/
theorem order_enters_identity :
    ((bound [appendBinding 1 0, appendBinding 2 1]).Valid ∧
      (bound [appendBinding 2 1, appendBinding 1 0]).Valid ∧
      (bound [appendBinding 1 0, appendBinding 2 1]).staticGraphBytes ≠
        (bound [appendBinding 2 1, appendBinding 1 0]).staticGraphBytes) ∧
    (viewed [appendView 1, transposedView]).Valid ∧
      (viewed [transposedView, appendView 1]).Valid ∧
      (viewed [appendView 1, transposedView]).staticGraphBytes ≠
        (viewed [transposedView, appendView 1]).staticGraphBytes := by
  refine ⟨⟨by decide, by decide, fun hbytes => ?_⟩, by decide, by decide, fun hbytes => ?_⟩
  · have hbindings := ((KvCacheDescriptor.staticGraphBytes_eq_iff
      ⟨by decide, by decide, by decide, by decide⟩
      ⟨by decide, by decide, by decide, by decide⟩).mp hbytes).2.2
    exact absurd hbindings (by decide)
  · have hviews := ((KvCacheDescriptor.staticGraphBytes_eq_iff
      ⟨by decide, by decide, by decide, by decide⟩
      ⟨by decide, by decide, by decide, by decide⟩).mp hbytes).2.1
    have hkey : viewOrder (appendView 1) = viewOrder transposedView := rfl
    rw [viewed, viewed, sortByKey_of_sorted, sortByKey_of_sorted] at hviews
    · exact absurd hviews (by decide)
    · exact List.pairwise_pair.mpr hkey.le
    · exact List.pairwise_pair.mpr hkey.ge

end FaberHosts.Descriptor
