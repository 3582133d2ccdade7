import FaberHosts.Macos.Handles

/-!
# The books of the live handles

Each live handle has one owner.  The device calls add owners for what they register, and giving a
partition back frees exactly what the partition owns.
-/

namespace FaberHosts.Macos
open FaberHosts.Lib FaberHosts.Coordinator FaberHosts.Descriptor FaberHosts.Session
open FaberHosts.Transaction DeviceRuntimeBackend

/-- A handle the session of a device has registered. -/
def DeviceRuntimeBackend.Live (b : DeviceRuntimeBackend) (device : PhysicalDeviceId) (id : Nat) :
    Prop :=
  ∃ runtime, b.set[device]? = some runtime ∧ id ∈ runtime.handles

/-- The handles tracked under a partition. -/
def DeviceRuntimeBackend.tracked (b : DeviceRuntimeBackend) (partition : LogicalPartitionId) :
    List DeviceHandle :=
  (b.resources[partition]?).getD []

/-- The cached module of a device has this id. -/
def DeviceRuntimeBackend.Caches (b : DeviceRuntimeBackend) (device : PhysicalDeviceId) (id : Nat) :
    Prop :=
  ∃ module, b.modules[device]? = some module ∧ module.id = id

/-- The registries hand out ids above those they hold. -/
def DeviceRuntimeBackend.IdsBelow (b : DeviceRuntimeBackend) : Prop :=
  ∀ (device : PhysicalDeviceId) (runtime : Device), b.set[device]? = some runtime →
    ∀ id ∈ runtime.handles, id < runtime.nextId

/-- What a live handle is for. -/
inductive HandleOwner where
  | before
  | module
  | partition (partition : LogicalPartitionId)
  deriving DecidableEq

abbrev Owners := PhysicalDeviceId → Nat → Option HandleOwner

/-- The live handles are those with an owner, and the backend's tables name the owners. -/
structure Books (before : PhysicalDeviceId → Nat → Prop) (owner : Owners)
    (b : DeviceRuntimeBackend) : Prop where
  live : ∀ device id, b.Live device id ↔ (owner device id).isSome
  before : ∀ device id, owner device id = some .before ↔ before device id
  module : ∀ device id, owner device id = some .module ↔ b.Caches device id
  partition : ∀ device id partition, owner device id = some (.partition partition) ↔
    b.partitionDevices[partition]? = some device ∧ ∃ handle ∈ b.tracked partition, handle.id = id
  below : b.IdsBelow
  backend : ∀ {partition device runtime}, b.partitionDevices[partition]? = some device →
    b.set[device]? = some runtime → ∀ handle ∈ b.tracked partition,
      handle.backend = runtime.backend

section Steps

variable {before : PhysicalDeviceId → Nat → Prop} {owner : Owners} {b b' : DeviceRuntimeBackend}

theorem live_withSession {device other : PhysicalDeviceId} {t : Device} {id : Nat} :
    (b.withSession device t).Live other id ↔
      if other = device then id ∈ t.handles else b.Live other id := by
  unfold DeviceRuntimeBackend.Live
  rw [DeviceRuntimeBackend.withSession_set]
  by_cases heq : other = device
  · subst heq
    simp
  · simp [heq, Std.ExtTreeMap.getElem?_insert, Ne.symm heq]

theorem live_iff {device : PhysicalDeviceId} {runtime : Device}
    (hruntime : b.set[device]? = some runtime) {id : Nat} :
    b.Live device id ↔ id ∈ runtime.handles := by
  simp [DeviceRuntimeBackend.Live, hruntime]

theorem session_withSession {device other : PhysicalDeviceId} {t runtime : Device}
    (h : (b.withSession device t).set[other]? = some runtime) :
    (other = device ∧ runtime = t) ∨ (other ≠ device ∧ b.set[other]? = some runtime) := by
  rw [DeviceRuntimeBackend.withSession_set, Std.ExtTreeMap.getElem?_insert] at h
  by_cases heq : other = device
  · subst heq
    exact .inl ⟨rfl, by simpa using h.symm⟩
  · exact .inr ⟨heq, by simpa [Ne.symm heq] using h⟩

theorem Books.of_touches (h : Books before owner b) (htouches : Touches b b') :
    Books before owner b' := by
  rcases htouches with rfl | ⟨device, runtime, t, hruntime, hsame, rfl⟩
  · exact h
  refine ⟨?_, h.before, h.module, h.partition, ?_, ?_⟩
  · intro other id
    rw [live_withSession, ← h.live]
    split
    · next heq => rw [heq, live_iff hruntime, hsame.mem]
    · rfl
  · intro other found hfound id hid
    rcases session_withSession hfound with ⟨-, rfl⟩ | ⟨-, hkept⟩
    · rw [hsame.nextId]
      exact h.below device runtime hruntime id ((hsame.mem id).mp hid)
    · exact h.below other found hkept id hid
  · intro partition other found hother hfound
    rcases session_withSession hfound with ⟨rfl, rfl⟩ | ⟨-, hkept⟩
    · rw [hsame.backend]
      exact h.backend hother hruntime
    · exact h.backend hother hkept

theorem Books.fresh (h : Books before owner b) {device : PhysicalDeviceId} {runtime : Device}
    (hruntime : b.set[device]? = some runtime) : owner device runtime.nextId = none := by
  by_contra howned
  have hlive := (h.live device runtime.nextId).mpr (Option.isSome_iff_ne_none.mpr howned)
  exact Nat.lt_irrefl _ (h.below device runtime hruntime _ ((live_iff hruntime).mp hlive))

/-- The owners with one more handle. -/
def assign (owner : Owners) (device : PhysicalDeviceId) (id : Nat) (assigned : HandleOwner) :
    Owners :=
  fun other i => if other = device ∧ i = id then some assigned else owner other i

theorem assign_eq_some_iff {device : PhysicalDeviceId} {id : Nat} {assigned found : HandleOwner}
    (hfresh : owner device id = none) {other : PhysicalDeviceId} {i : Nat} :
    assign owner device id assigned other i = some found ↔
      owner other i = some found ∨ other = device ∧ i = id ∧ assigned = found := by
  unfold assign
  by_cases heq : other = device ∧ i = id
  · obtain ⟨rfl, rfl⟩ := heq
    simp [hfresh]
  · rw [if_neg heq]
    tauto

theorem Books.live_assign (h : Books before owner b) {device : PhysicalDeviceId}
    {runtime t : Device} {handle : DeviceHandle} (hruntime : b.set[device]? = some runtime)
    (hregisters : Registers runtime handle t) (assigned : HandleOwner) (other : PhysicalDeviceId)
    (id : Nat) : (b.withSession device t).Live other id ↔
      (assign owner device runtime.nextId assigned other id).isSome := by
  rw [live_withSession, assign]
  by_cases heq : other = device
  · subst heq
    rw [if_pos rfl, hregisters.mem]
    by_cases hid : id = runtime.nextId
    · simp [hid]
    · simp [hid, ← live_iff hruntime, h.live]
  · simp [heq, h.live]

theorem Books.below_withSession (h : Books before owner b) {device : PhysicalDeviceId}
    {runtime t : Device} {handle : DeviceHandle} (hruntime : b.set[device]? = some runtime)
    (hregisters : Registers runtime handle t) : (b.withSession device t).IdsBelow := by
  intro other found hfound id hid
  rcases session_withSession hfound with ⟨-, rfl⟩ | ⟨-, hkept⟩
  · rw [hregisters.nextId]
    rcases (hregisters.mem id).mp hid with rfl | hold
    · omega
    · have := h.below device runtime hruntime id hold
      omega
  · exact h.below other found hkept id hid

theorem tracked_track {partition other : LogicalPartitionId} {handle : DeviceHandle} :
    (b.track partition handle).tracked other =
      if other = partition then b.tracked partition ++ [handle] else b.tracked other := by
  unfold DeviceRuntimeBackend.tracked DeviceRuntimeBackend.track
  by_cases heq : other = partition
  · subst heq
    simp
  · simp [heq, Std.ExtTreeMap.getElem?_insert, Ne.symm heq]

theorem Books.of_alloc (h : Books before owner b) {partition : LogicalPartitionId}
    {device : PhysicalDeviceId} {runtime t : Device} {handle : DeviceHandle}
    (hdevice : b.partitionDevices[partition]? = some device)
    (hruntime : b.set[device]? = some runtime) (hregisters : Registers runtime handle t) :
    Books before (assign owner device runtime.nextId (.partition partition))
      ((b.withSession device t).track partition handle) := by
  have hfresh := h.fresh hruntime
  refine ⟨?_, ?_, ?_, ?_, ?_, ?_⟩
  · exact h.live_assign hruntime hregisters _
  · intro other id
    rw [assign_eq_some_iff hfresh, h.before]
    simp
  · intro other id
    rw [assign_eq_some_iff hfresh, h.module]
    simp [DeviceRuntimeBackend.Caches, DeviceRuntimeBackend.track]
  · intro other id p
    rw [assign_eq_some_iff hfresh, h.partition, tracked_track]
    show _ ↔ b.partitionDevices[p]? = some other ∧ _
    by_cases hp : p = partition
    · subst hp
      rw [if_pos rfl]
      show _ ↔ _ ∧ ∃ found ∈ b.tracked p ++ [handle], found.id = id
      simp only [List.mem_append, List.mem_singleton, or_and_right, exists_or, exists_eq_left,
        hregisters.handleId]
      constructor
      · rintro (hold | ⟨rfl, rfl, -⟩)
        · exact ⟨hold.1, .inl hold.2⟩
        · exact ⟨hdevice, .inr rfl⟩
      · rintro ⟨hother, hold | rfl⟩
        · exact .inl ⟨hother, hold⟩
        · exact .inr ⟨by simpa [hdevice] using hother.symm, rfl, trivial⟩
    · rw [if_neg hp]
      constructor
      · rintro (hold | ⟨-, -, heq⟩)
        · exact hold
        · exact (hp (by simpa using heq.symm)).elim
      · exact .inl
  · exact h.below_withSession hruntime hregisters
  · intro p other found hother hfound tracked htracked
    rw [tracked_track] at htracked
    have hold : ∀ kept ∈ b.tracked p, kept.backend = found.backend := by
      intro kept hkept
      rcases session_withSession hfound with ⟨rfl, rfl⟩ | ⟨-, hsession⟩
      · rw [hregisters.backend]
        exact h.backend hother hruntime kept hkept
      · exact h.backend hother hsession kept hkept
    split at htracked
    · next hp =>
      subst hp
      rcases List.mem_append.mp htracked with hkept | hnew
      · exact hold tracked hkept
      · obtain rfl : device = other :=
          Option.some.inj (hdevice.symm.trans hother)
        rcases session_withSession hfound with ⟨-, rfl⟩ | ⟨hne, -⟩
        · rw [List.mem_singleton.mp hnew, hregisters.handleBackend, hregisters.backend]
        · exact (hne rfl).elim
    · exact hold tracked htracked

theorem Books.of_module (h : Books before owner b) {device : PhysicalDeviceId}
    {runtime t : Device} {handle : DeviceHandle} (hruntime : b.set[device]? = some runtime)
    (hmodule : b.modules[device]? = none) (hregisters : Registers runtime handle t) :
    Books before (assign owner device runtime.nextId .module)
      { b.withSession device t with modules := b.modules.insert device handle } := by
  have hfresh := h.fresh hruntime
  refine ⟨?_, ?_, ?_, ?_, ?_, ?_⟩
  · exact h.live_assign hruntime hregisters _
  · intro other id
    rw [assign_eq_some_iff hfresh, h.before]
    simp
  · intro other id
    rw [assign_eq_some_iff hfresh, h.module]
    unfold DeviceRuntimeBackend.Caches
    by_cases heq : other = device
    · subst heq
      simp [hmodule, hregisters.handleId, eq_comm]
    · simp [heq, Std.ExtTreeMap.getElem?_insert, Ne.symm heq]
  · intro other id p
    rw [assign_eq_some_iff hfresh, h.partition]
    simp [DeviceRuntimeBackend.tracked]
  · exact h.below_withSession hruntime hregisters
  · intro p other found hother hfound tracked htracked
    rcases session_withSession hfound with ⟨rfl, rfl⟩ | ⟨-, hsession⟩
    · rw [hregisters.backend]
      exact h.backend hother hruntime tracked htracked
    · exact h.backend hother hsession tracked htracked

end Steps

/-! ## Giving a partition back -/

section Free

variable {before : PhysicalDeviceId → Nat → Prop} {owner : Owners} {b : DeviceRuntimeBackend}
  {env : Environment} {partition : LogicalPartitionId}

/-- Forget a partition, with these sessions left. -/
def DeviceRuntimeBackend.forget (b : DeviceRuntimeBackend) (partition : LogicalPartitionId)
    (set : DeviceRuntimeSet) : DeviceRuntimeBackend :=
  { b with
    set := set
    resources := b.resources.erase partition
    reservations := b.reservations.erase partition }

/-- The backend after a partition was freed: without a session there was nothing to release. -/
theorem freePartition_cases (env : Environment) (b : DeviceRuntimeBackend)
    (partition : LogicalPartitionId) :
    ((∀ device, b.partitionDevices[partition]? = some device → b.set[device]? = none) ∧
      freePartition env b partition = b.forget partition b.set) ∨
    ∃ device runtime, b.partitionDevices[partition]? = some device ∧
      b.set[device]? = some runtime ∧
      freePartition env b partition = b.forget partition (b.set.insert device
        (releasedAll (env.driver device).toDriver (b.tracked partition) runtime)) := by
  unfold freePartition
  cases hdevice : b.partitionDevices[partition]? with
  | none => exact .inl ⟨nofun, by simp [hdevice, DeviceRuntimeBackend.forget]⟩
  | some device =>
    cases hruntime : b.set[device]? with
    | none =>
      refine .inl ⟨?_, by simp [hdevice, hruntime, DeviceRuntimeBackend.forget]⟩
      intro other hother
      cases hother
      exact hruntime
    | some runtime =>
      refine .inr ⟨device, runtime, rfl, hruntime, ?_⟩
      simp only [hdevice, hruntime]
      rfl

theorem tracked_forget {set : DeviceRuntimeSet} {other : LogicalPartitionId} :
    (b.forget partition set).tracked other =
      if other = partition then [] else b.tracked other := by
  unfold DeviceRuntimeBackend.tracked DeviceRuntimeBackend.forget
  rw [Std.ExtTreeMap.getElem?_erase]
  by_cases heq : other = partition
  · simp [heq]
  · simp [heq, Ne.symm heq]

/-- The owners without a partition's. -/
def disown (owner : Owners) (partition : LogicalPartitionId) : Owners :=
  fun device id =>
    if owner device id = some (.partition partition) then none else owner device id

theorem disown_eq_some_iff {found : HandleOwner} {device : PhysicalDeviceId} {id : Nat} :
    disown owner partition device id = some found ↔
      owner device id = some found ∧ found ≠ .partition partition := by
  unfold disown
  by_cases hpart : owner device id = some (.partition partition)
  · simp only [hpart, if_true, Option.some.injEq]
    constructor
    · intro h
      cases h
    · rintro ⟨rfl, hne⟩
      exact (hne rfl).elim
  · rw [if_neg hpart]
    refine ⟨fun h => ⟨h, ?_⟩, And.left⟩
    rintro rfl
    exact hpart h

/-- Forgetting a partition keeps the books when the sessions lost what it owned. -/
theorem Books.of_forget (h : Books before owner b) {set : DeviceRuntimeSet}
    (hlive : ∀ device id, (b.forget partition set).Live device id ↔
      b.Live device id ∧ owner device id ≠ some (.partition partition))
    (hbelow : (b.forget partition set).IdsBelow)
    (hbackend : ∀ (device : PhysicalDeviceId) (runtime : Device), set[device]? = some runtime →
      ∃ kept : Device, b.set[device]? = some kept ∧ runtime.backend = kept.backend) :
    Books before (disown owner partition) (b.forget partition set) := by
  refine ⟨?_, ?_, ?_, ?_, hbelow, ?_⟩
  · intro device id
    rw [hlive, h.live, disown]
    split
    · next howned => simp [howned]
    · next hother => simp [hother]
  · intro device id
    rw [disown_eq_some_iff, h.before]
    simp
  · intro device id
    rw [disown_eq_some_iff, h.module]
    exact and_iff_left (by simp)
  · intro device id p
    rw [disown_eq_some_iff, h.partition, tracked_forget]
    show _ ↔ b.partitionDevices[p]? = some device ∧ _
    by_cases hp : p = partition
    · simp [hp]
    · simp [hp]
  · intro p device runtime hdevice hruntime handle hhandle
    obtain ⟨kept, hkept, hsame⟩ := hbackend device runtime hruntime
    rw [tracked_forget] at hhandle
    split at hhandle
    · cases hhandle
    · exact (h.backend hdevice hkept handle hhandle).trans hsame.symm

theorem Books.of_free (h : Books before owner b) :
    Books before (disown owner partition) (freePartition env b partition) := by
  rcases freePartition_cases env b partition with
    ⟨hnone, hfree⟩ | ⟨device, runtime, hdevice, hruntime, hfree⟩
  · rw [hfree]
    refine h.of_forget ?_ h.below (fun _ runtime hruntime => ⟨runtime, hruntime, rfl⟩)
    intro device id
    refine ⟨fun hlive => ⟨hlive, ?_⟩, And.left⟩
    intro howned
    obtain ⟨runtime, hruntime, -⟩ := hlive
    have hbound := ((h.partition device id partition).mp howned).1
    exact nomatch hruntime.symm.trans (hnone device hbound)
  · have hreleased := releasedAll_released (env.driver device).toDriver
      (h.backend hdevice hruntime)
    rw [hfree]
    refine h.of_forget ?_ ?_ ?_
    · intro other id
      have hsession : (b.forget partition (b.set.insert device (releasedAll
          (env.driver device).toDriver (b.tracked partition) runtime))).Live other id ↔ _ :=
        live_withSession (b := b)
      rw [hsession]
      by_cases heq : other = device
      · subst heq
        rw [if_pos rfl, hreleased.mem, live_iff hruntime, ne_eq, h.partition]
        simp [hdevice]
      · rw [if_neg heq, ne_eq, h.partition]
        refine ⟨fun hlive => ⟨hlive, ?_⟩, And.left⟩
        rintro ⟨hother, -⟩
        exact heq (Option.some.inj (hother.symm.trans hdevice))
    · intro other found hfound id hid
      rcases session_withSession (b := b) hfound with ⟨-, rfl⟩ | ⟨-, hkept⟩
      · rw [hreleased.nextId]
        exact h.below device runtime hruntime id ((hreleased.mem id).mp hid).1
      · exact h.below other found hkept id hid
    · intro other found hfound
      rcases session_withSession (b := b) hfound with ⟨rfl, rfl⟩ | ⟨-, hkept⟩
      · exact ⟨runtime, hruntime, hreleased.backend⟩
      · exact ⟨found, hkept, rfl⟩

end Free

end FaberHosts.Macos
