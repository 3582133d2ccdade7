import FaberHosts.WebGpu.Lifecycle
import FaberHosts.WebGpu.Created

/-!
# Safety of resource replacement

The buffers of a session are the live ones, those it has retired, and none is both.  A retired
buffer waits in the queue or under a fence until it is destroyed, and the entries a session is
created with never leave the map, so its bind groups stay good.
-/

namespace FaberHosts.WebGpu
open FaberHosts.Lib

variable {session opened : Session} {log : List Observation}

/-! ## The log -/

def groupBuffers (groups : List RetireGroup) : List GpuBuffer := groups.flatMap (·.buffers)

def retiredBuffers (log : List Observation) : List GpuBuffer := groupBuffers (retiredGroups log)

def fenceNumbers (log : List Observation) : List Nat :=
  log.filterMap (fun observation =>
    match observation with
    | .fence number => some number
    | _ => none)

/-- The groups that a call waits to destroy. -/
def Session.waiting (session : Session) : List RetireGroup := session.fences.flatMap Prod.snd

@[simp] theorem groupBuffers_append (groups others : List RetireGroup) :
    groupBuffers (groups ++ others) = groupBuffers groups ++ groupBuffers others :=
  List.flatMap_append

@[simp] theorem retiredGroups_append (others : List Observation) :
    retiredGroups (log ++ others) = retiredGroups log ++ retiredGroups others :=
  List.filterMap_append

@[simp] theorem destroyedBuffers_append (others : List Observation) :
    destroyedBuffers (log ++ others) = destroyedBuffers log ++ destroyedBuffers others :=
  List.filterMap_append

@[simp] theorem fenceNumbers_append (others : List Observation) :
    fenceNumbers (log ++ others) = fenceNumbers log ++ fenceNumbers others :=
  List.filterMap_append

/-- A fence was requested after the groups were retired. -/
def RequestedAfter (log : List Observation) (number : Nat) (groups : List RetireGroup) : Prop :=
  ∃ before after, log = before ++ .fence number :: after ∧
    ∀ group ∈ groups, group ∈ retiredGroups before

/-- Each buffer is destroyed under a fence that was requested after the buffer was retired. -/
def UnderFence (log : List Observation) : Prop :=
  ∀ earlier later buffer number, log = earlier ++ .destroyed buffer number :: later →
    ∃ groups, RequestedAfter earlier number groups ∧ buffer ∈ groupBuffers groups

theorem RequestedAfter.append {number : Nat} {groups : List RetireGroup}
    (h : RequestedAfter log number groups) (others : List Observation) :
    RequestedAfter (log ++ others) number groups := by
  obtain ⟨before, after, rfl, hgroups⟩ := h
  exact ⟨before, after ++ others, by simp, hgroups⟩

theorem RequestedAfter.retired {number : Nat} {groups : List RetireGroup}
    (h : RequestedAfter log number groups) : ∀ group ∈ groups, group ∈ retiredGroups log := by
  obtain ⟨before, after, rfl, hgroups⟩ := h
  intro group hgroup
  rw [retiredGroups_append]
  exact List.mem_append_left _ (hgroups group hgroup)

/-- Add observations to the log, where those of a destruction are in order. -/
theorem UnderFence.append (h : UnderFence log) {others : List Observation}
    (hothers : ∀ buffer number, .destroyed buffer number ∈ others →
      ∃ groups, RequestedAfter log number groups ∧ buffer ∈ groupBuffers groups) :
    UnderFence (log ++ others) := by
  intro earlier later buffer number heq
  rcases List.append_eq_append_iff.mp heq with ⟨middle, rfl, hrest⟩ | ⟨middle, hlog, hrest⟩
  · -- the destruction is one of the new observations
    have hmem : Observation.destroyed buffer number ∈ others := by simp [hrest]
    obtain ⟨groups, hrequested, hbuffer⟩ := hothers buffer number hmem
    exact ⟨groups, hrequested.append middle, hbuffer⟩
  · cases middle with
    | nil =>
      have hmem : Observation.destroyed buffer number ∈ others := by
        rw [List.nil_append] at hrest
        exact hrest ▸ List.mem_cons_self
      obtain ⟨groups, hrequested, hbuffer⟩ := hothers buffer number hmem
      refine ⟨groups, ?_, hbuffer⟩
      rw [hlog, List.append_nil] at hrequested
      exact hrequested
    | cons first rest =>
      simp only [List.cons_append, List.cons.injEq] at hrest
      obtain ⟨rfl, -⟩ := hrest
      exact h earlier rest buffer number hlog

/-! ## The operations on a session -/

/-- The counters and the number of buffers after an allocation. -/
def Session.allocated (session : Session) : Session :=
  { session with
    made := session.made + 1
    resources := { session.resources with
      counters := { session.resources.counters with
        created := session.resources.counters.created + 1
        live := session.resources.counters.live + 1 } } }

def newEntry (session : Session) (index generation : Nat) (request : BufferRequest) :
    ComputeEntry :=
  let buffer : GpuBuffer := ⟨session.made, request.size, request.usage, none⟩
  ⟨buffer, generation, index, some [buffer]⟩

def Session.addEntry (session : Session) (index generation : Nat) (request : BufferRequest) :
    Session :=
  session.allocated.setEntry index (newEntry session index generation request)

def Session.retire (session : Session) (group : RetireGroup) : Session :=
  { session with
    log := session.log ++ [.retired group]
    resources := { session.resources with
      pendingRetire := session.resources.pendingRetire ++ [group]
      counters := { session.resources.counters with
        live := session.resources.counters.live - 1
        retired := session.resources.counters.retired + 1 } } }

def Session.removeEntry (session : Session) (index : Nat) (current : ComputeEntry)
    (buffers : List GpuBuffer) : Session :=
  (session.retire ⟨current.logicalId, current.generation, buffers⟩).deleteEntry index

theorem enqueueComputeRetire_eq (session : Session) (entry : ComputeEntry) :
    enqueueComputeRetire session entry =
      match entry.buffers with
      | none => .error .builtin
      | some buffers => .ok (session.retire ⟨entry.logicalId, entry.generation, buffers⟩) := rfl

theorem createComputeGpuEntry_cases (device : GpuDevice) (session : Session)
    (logicalId generation : Nat) (request : BufferRequest) :
    (∃ thrown, createComputeGpuEntry device session logicalId generation request =
      .error thrown) ∨
    (device.allocates request = true ∧
      createComputeGpuEntry device session logicalId generation request =
        .ok (session.allocated, newEntry session logicalId generation request)) := by
  unfold createComputeGpuEntry GpuDevice.createBuffer
  cases validateBufferSize device request.size
      s!"createComputeGpuEntry.resource[{logicalId}].size" with
  | error thrown => exact .inl ⟨thrown, rfl⟩
  | ok _ =>
    by_cases hallocates : device.allocates request = true
    · refine .inr ⟨hallocates, ?_⟩
      simp only [hallocates, if_true]
      rfl
    · refine .inl ⟨.builtin, ?_⟩
      simp only [hallocates]
      rfl

/-- A transition that needs an allocation, and what it leads to once that succeeds. -/
def allowedTransition (device : GpuDevice) (session : Session) (index generation : Nat)
    (descriptor : JsValue) : Bool :=
  descriptor.isNullish ||
    match normalizeComputePayload device descriptor index with
    | .error _ => true
    | .ok request => !device.allocates request ||
      match session.resources.buffers[index]? with
      | none => (retiredGroups session.log).all (fun group =>
          group.logicalId ≠ index || group.generation ≤ generation)
      | some current => generation ≤ current.generation || current.buffers.isSome

/-- No resource is created anew at a lower generation than it was removed at, and none that the
    session was created with is replaced. -/
def Allowed (session : Session) : Task → Prop
  | .replace (some device) transition =>
    ∀ index ∈ (transition.get "resource_index").index,
      ∀ generation ∈ (transition.get "generation").index,
        allowedTransition device session index generation (transition.get "buffer_descriptor") =
          true
  | _ => True

instance (session : Session) (task : Task) : Decidable (Allowed session task) := by
  unfold Allowed
  split <;> infer_instance

/-- What a task can do to a session; `guarded` is true of an allowed one. -/
inductive Effect (guarded : Prop) (session : Session) : Session → Prop
  | unchanged : Effect guarded session session
  | leaked {index : Nat} {current : ComputeEntry}
    (hcurrent : session.resources.buffers[index]? = some current) (hold : current.buffers = none)
    (hbad : ¬ guarded) : Effect guarded session session.allocated
  | created {index generation : Nat} {request : BufferRequest}
    (hfree : session.resources.buffers[index]? = none)
    (hnew : guarded → ∀ group ∈ retiredGroups session.log, group.logicalId = index →
      group.generation ≤ generation) :
    Effect guarded session (session.addEntry index generation request)
  | removed {index : Nat} {current : ComputeEntry} {buffers : List GpuBuffer}
    (hcurrent : session.resources.buffers[index]? = some current)
    (hbuffers : current.buffers = some buffers) :
    Effect guarded session (session.removeEntry index current buffers)
  | replaced {index generation : Nat} {request : BufferRequest} {current : ComputeEntry}
    {buffers : List GpuBuffer} (hcurrent : session.resources.buffers[index]? = some current)
    (hbuffers : current.buffers = some buffers) (hnewer : current.generation < generation) :
    Effect guarded session ((session.removeEntry index current buffers).addEntry index generation
      request)
  | requested (hqueue : session.resources.pendingRetire ≠ []) :
    Effect guarded session { session with
      resources := { session.resources with pendingRetire := [] }
      fences := session.fences ++ [(session.fencesMade, session.resources.pendingRetire)]
      fencesMade := session.fencesMade + 1
      log := session.log ++ [.fence session.fencesMade] }
  | requeued {fence : Nat × List RetireGroup} (hmem : fence ∈ session.fences) :
    Effect guarded session { session with
      fences := session.fences.erase fence
      resources := { session.resources with
        pendingRetire := fence.2 ++ session.resources.pendingRetire } }
  | destroyed {fence : Nat × List RetireGroup} (hmem : fence ∈ session.fences) :
    Effect guarded session ((groupBuffers fence.2).foldl (destroyBuffer fence.1)
      { session with fences := session.fences.erase fence })
  | dispatched : Effect guarded session { session with
      log := session.log ++ [.dispatched session.resources.bindGroups] }

/-- Allocating first and retiring then leads to the same session as the other way round. -/
theorem replace_eq (session : Session) (index generation : Nat) (request : BufferRequest)
    (current : ComputeEntry) (buffers : List GpuBuffer) :
    (session.allocated.retire ⟨current.logicalId, current.generation, buffers⟩).setEntry index
        (newEntry session index generation request) =
      (session.removeEntry index current buffers).addEntry index generation request := by
  have hmap : ∀ entry, session.resources.buffers.insert index entry =
      (session.resources.buffers.erase index).insert index entry := by
    intro entry
    apply Std.ExtTreeMap.ext_getElem?
    intro k
    simp only [Std.ExtTreeMap.getElem?_insert, Std.ExtTreeMap.getElem?_erase]
    split <;> rfl
  have hlive : session.resources.counters.live + 1 - 1 =
      session.resources.counters.live - 1 + 1 := by omega
  simp only [Session.allocated, Session.retire, Session.setEntry, Session.removeEntry,
    Session.addEntry, Session.deleteEntry, newEntry, hmap, hlive]

/-- What a transition does to a session; one that is allowed and throws does nothing. -/
structure Carries (guarded : Prop) (session : Session) (outcome : Session × Except Thrown Change) :
    Prop where
  effect : Effect guarded session outcome.1
  throws : guarded → ∀ thrown, outcome.2 = .error thrown → outcome.1 = session

theorem carries_error (guarded : Prop) (session : Session) (thrown : Thrown) :
    Carries guarded session (session, .error thrown) := ⟨.unchanged, fun _ _ _ => rfl⟩

theorem carries_applyTransition (device : GpuDevice) (session : Session) (index generation : Nat)
    (descriptor : JsValue) :
    Carries (allowedTransition device session index generation descriptor = true) session
      (applyTransition device session index generation descriptor) := by
  unfold applyTransition
  by_cases hnullish : descriptor.isNullish = true
  · simp only [hnullish, if_true]
    cases hcurrent : session.resources.buffers[index]? with
    | none => exact carries_error _ _ _
    | some current =>
      dsimp only
      split
      · exact carries_error _ _ _
      · unfold removeResource
        rw [enqueueComputeRetire_eq]
        cases hbuffers : current.buffers with
        | none => exact carries_error _ _ _
        | some buffers => exact ⟨.removed hcurrent hbuffers, nofun⟩
  · simp only [hnullish, Bool.false_eq_true, if_false]
    cases hrequest : normalizeComputePayload device descriptor index with
    | error thrown => exact carries_error _ _ _
    | ok request =>
      cases hcurrent : session.resources.buffers[index]? with
      | none =>
        dsimp only
        unfold createResource
        rcases createComputeGpuEntry_cases device session index generation request with
          ⟨thrown, hthrown⟩ | ⟨hallocates, hentry⟩
        · rw [hthrown]
          exact carries_error _ _ _
        · rw [hentry]
          refine ⟨.created hcurrent (fun hallowed group hgroup hindex => ?_), nofun⟩
          simp only [allowedTransition, hnullish, hrequest, hallocates, hcurrent, Bool.false_or,
            Bool.not_true, List.all_eq_true] at hallowed
          simpa [hindex] using hallowed group hgroup
      | some current =>
        dsimp only
        split
        · exact carries_error _ _ _
        · next hnewer =>
          unfold replaceResource
          rcases createComputeGpuEntry_cases device session index generation request with
            ⟨thrown, hthrown⟩ | ⟨hallocates, hentry⟩
          · rw [hthrown]
            exact carries_error _ _ _
          · rw [hentry]
            dsimp only
            rw [enqueueComputeRetire_eq]
            cases hbuffers : current.buffers with
            | none =>
              -- the new buffer is allocated before the old entry turns out to have no list
              have hbad : ¬ allowedTransition device session index generation descriptor = true := by
                simp [allowedTransition, hnullish, hrequest, hallocates, hcurrent, hbuffers,
                  hnewer]
              exact ⟨.leaked hcurrent hbuffers hbad, fun hallowed => (hbad hallowed).elim⟩
            | some buffers =>
              dsimp only
              rw [replace_eq]
              exact ⟨.replaced hcurrent hbuffers (by omega), nofun⟩

theorem expectNonNegativeInt_ok {value : JsValue} {path : String} {integer : Nat}
    (h : expectNonNegativeInt value path = .ok integer) : value.index = some integer := by
  unfold expectNonNegativeInt at h
  split at h
  · next found => rw [found, Except.ok.inj h]
  · cases h

theorem Effect.mono {guarded guarded' : Prop} (hguard : guarded' → guarded) {after : Session}
    (h : Effect guarded session after) : Effect guarded' session after := by
  cases h with
  | unchanged => exact .unchanged
  | leaked hcurrent hold hbad => exact .leaked hcurrent hold (fun h => hbad (hguard h))
  | created hfree hnew => exact .created hfree (fun h => hnew (hguard h))
  | removed hcurrent hbuffers => exact .removed hcurrent hbuffers
  | replaced hcurrent hbuffers hnewer => exact .replaced hcurrent hbuffers hnewer
  | requested hqueue => exact .requested hqueue
  | requeued hmem => exact .requeued hmem
  | destroyed hmem => exact .destroyed hmem
  | dispatched => exact .dispatched

theorem carries_applyComputeResourceReplace (device : Option GpuDevice) (session : Session)
    (transition : JsValue) :
    Carries (Allowed session (.replace device transition)) session
      (applyComputeResourceReplace device session transition) := by
  unfold applyComputeResourceReplace
  cases device with
  | none => exact carries_error _ _ _
  | some device =>
    dsimp only
    cases hindex : expectNonNegativeInt (transition.get "resource_index")
        "transition.resource_index" with
    | error thrown => exact carries_error _ _ _
    | ok index =>
      dsimp only
      cases hgeneration : expectNonNegativeInt (transition.get "generation")
          "transition.generation" with
      | error thrown => exact carries_error _ _ _
      | ok generation =>
        have hcarries := carries_applyTransition device session index generation
          (transition.get "buffer_descriptor")
        have hallowed : Allowed session (.replace (some device) transition) →
            allowedTransition device session index generation
              (transition.get "buffer_descriptor") = true := fun h =>
          h index (expectNonNegativeInt_ok hindex) generation (expectNonNegativeInt_ok hgeneration)
        exact ⟨hcarries.effect.mono hallowed, fun h => hcarries.throws (hallowed h)⟩

theorem effect_of_runTask {task : Task} {after : Session}
    (hstep : runTask session task = some after) : Effect (Allowed session task) session after := by
  cases task with
  | replace device transition =>
    cases hstep
    exact (carries_applyComputeResourceReplace device session transition).effect
  | destroyRetired device =>
    cases hstep
    show Effect _ session (destroyRetiredComputeResources device session)
    unfold destroyRetiredComputeResources
    split
    · exact .unchanged
    · next hqueue =>
      split
      · exact .requested hqueue
      · exact .unchanged
  | fence number resolved =>
    change settleFence session number resolved = some after at hstep
    unfold settleFence at hstep
    obtain ⟨fence, hfence, rfl⟩ := Option.map_eq_some_iff.mp hstep
    have hmem := List.mem_of_find?_eq_some hfence
    have hnumber : fence.1 = number := by simpa using List.find?_some hfence
    cases resolved with
    | true =>
      rw [← hnumber]
      exact .destroyed hmem
    | false => exact .requeued hmem
  | dispatch device dispatch =>
    cases hstep
    show Effect _ session (placementDispatch device session dispatch)
    unfold placementDispatch
    split
    · exact .unchanged
    · exact .dispatched

/-! ## The invariant -/

/-- The entries of the map, and what the session was opened with. -/
structure LiveEntries (opened session : Session) : Prop where
  bindGroups : session.resources.bindGroups = opened.resources.bindGroups
  declared : ∀ (index : Nat) (entry : ComputeEntry),
    opened.resources.buffers[index]? = some entry →
      entry.buffers = none ∧ session.resources.buffers[index]? = some entry
  shape : ∀ (index : Nat) (entry : ComputeEntry),
    session.resources.buffers[index]? = some entry → entry.logicalId = index ∧
      entry.buffer.id < session.made ∧
      (entry.buffers = none ∨ entry.buffers = some [entry.buffer])
  apart : ∀ (i j : Nat) (entry other : ComputeEntry),
    session.resources.buffers[i]? = some entry → session.resources.buffers[j]? = some other →
      entry.buffer.id = other.buffer.id → i = j

/-- Where the retired buffers are. -/
structure RetiredBuffers (session : Session) : Prop where
  old : ∀ buffer ∈ retiredBuffers session.log, buffer.id < session.made
  dead : ∀ buffer ∈ retiredBuffers session.log, ∀ (index : Nat) (entry : ComputeEntry),
    session.resources.buffers[index]? = some entry → entry.buffer.id ≠ buffer.id
  once : ((retiredBuffers session.log).map (·.id)).Nodup
  accounted : (retiredBuffers session.log).Perm
    (groupBuffers session.resources.pendingRetire ++ groupBuffers session.waiting ++
      destroyedBuffers session.log)

/-- The order of the log. -/
structure LogOrder (opened session : Session) : Prop where
  queued : ∀ group ∈ session.resources.pendingRetire, group ∈ retiredGroups session.log
  fenced : ∀ fence ∈ session.fences, RequestedAfter session.log fence.1 fence.2
  numbered : fenceNumbers session.log = List.range session.fencesMade
  underFence : UnderFence session.log
  dispatched : ∀ groups, .dispatched groups ∈ session.log → groups = opened.resources.bindGroups

structure Invariant (opened session : Session) : Prop where
  live : LiveEntries opened session
  retired : RetiredBuffers session
  order : LogOrder opened session
  balanced : session.resources.counters.created =
    session.resources.counters.live + session.resources.counters.retired

theorem getElem?_erase_entry {buffers : ComputeEntries} {i j : Nat} :
    (buffers.erase i)[j]? = if i = j then none else buffers[j]? := by
  rw [Std.ExtTreeMap.getElem?_erase]
  simp only [Nat.compare_eq_eq]

theorem LiveEntries.buffers_eq (h : LiveEntries opened session) {index : Nat}
    {current : ComputeEntry} {buffers : List GpuBuffer}
    (hcurrent : session.resources.buffers[index]? = some current)
    (hbuffers : current.buffers = some buffers) :
    current.logicalId = index ∧ current.buffer.id < session.made ∧ buffers = [current.buffer] := by
  obtain ⟨hid, hold, hnone | hone⟩ := h.shape index current hcurrent
  · rw [hnone] at hbuffers
    cases hbuffers
  · rw [hone] at hbuffers
    cases hbuffers
    exact ⟨hid, hold, rfl⟩

/-! ### Allocation -/

theorem Invariant.allocated (h : Invariant opened session) : Invariant opened session.allocated where
  live := { h.live with
    shape := fun index entry hentry => by
      obtain ⟨hid, hold, hshape⟩ := h.live.shape index entry hentry
      refine ⟨hid, ?_, hshape⟩
      show entry.buffer.id < session.made + 1
      omega }
  retired := { h.retired with
    old := fun buffer hbuffer => by
      have hold := h.retired.old buffer hbuffer
      show buffer.id < session.made + 1
      omega }
  order := { h.order with }
  balanced := by
    have hbalanced := h.balanced
    show session.resources.counters.created + 1 = session.resources.counters.live + 1 +
      session.resources.counters.retired
    omega

theorem Invariant.addEntry (h : Invariant opened session) {index : Nat}
    (hfree : session.resources.buffers[index]? = none) (generation : Nat)
    (request : BufferRequest) : Invariant opened (session.addEntry index generation request) where
  live := by
    refine ⟨h.live.bindGroups, ?_, ?_, ?_⟩
    · intro i entry hentry
      obtain ⟨hnone, hcurrent⟩ := h.live.declared i entry hentry
      have hne : index ≠ i := by
        intro heq
        rw [heq, hcurrent] at hfree
        cases hfree
      refine ⟨hnone, ?_⟩
      show (session.resources.buffers.insert _ _)[i]? = _
      rw [getElem?_insert_entry, if_neg hne, hcurrent]
    · intro i entry hentry
      change (session.resources.buffers.insert _ _)[i]? = _ at hentry
      rw [getElem?_insert_entry] at hentry
      show _ ∧ entry.buffer.id < session.made + 1 ∧ _
      split at hentry
      · next heq =>
        cases hentry
        exact ⟨heq, Nat.lt_succ_self _, .inr rfl⟩
      · obtain ⟨hid, hold, hshape⟩ := h.live.shape i entry hentry
        exact ⟨hid, by omega, hshape⟩
    · intro i j entry other hi hj hsame
      change (session.resources.buffers.insert _ _)[i]? = _ at hi
      change (session.resources.buffers.insert _ _)[j]? = _ at hj
      rw [getElem?_insert_entry] at hi hj
      split at hi <;> split at hj
      · omega
      · next hother =>
        cases hi
        have hold := (h.live.shape j other hj).2.1
        simp only [newEntry] at hsame
        omega
      · next hother heq =>
        cases hj
        have hold := (h.live.shape i entry hi).2.1
        simp only [newEntry] at hsame
        omega
      · exact h.live.apart i j entry other hi hj hsame
  retired := by
    refine { h.retired with old := ?_, dead := ?_ }
    · intro buffer hbuffer
      have hold := h.retired.old buffer hbuffer
      show buffer.id < session.made + 1
      omega
    · intro buffer hbuffer i entry hentry
      change (session.resources.buffers.insert _ _)[i]? = _ at hentry
      rw [getElem?_insert_entry] at hentry
      split at hentry
      · cases hentry
        have hold := h.retired.old buffer hbuffer
        simp only [newEntry]
        omega
      · exact h.retired.dead buffer hbuffer i entry hentry
  order := { h.order with }
  balanced := h.allocated.balanced

/-! ### Retirement -/

theorem Invariant.removeEntry (h : Invariant opened session) {index : Nat}
    {current : ComputeEntry} {buffers : List GpuBuffer}
    (hcurrent : session.resources.buffers[index]? = some current)
    (hbuffers : current.buffers = some buffers) :
    Invariant opened (session.removeEntry index current buffers) := by
  obtain ⟨-, hold, rfl⟩ := h.live.buffers_eq hcurrent hbuffers
  have hlookup : ∀ {i : Nat} {entry : ComputeEntry},
      (session.removeEntry index current [current.buffer]).resources.buffers[i]? = some entry →
        index ≠ i ∧ session.resources.buffers[i]? = some entry := by
    intro i entry hentry
    change (session.resources.buffers.erase index)[i]? = _ at hentry
    rw [getElem?_erase_entry] at hentry
    split at hentry
    · cases hentry
    · next hne => exact ⟨hne, hentry⟩
  have hretired : retiredBuffers (session.removeEntry index current [current.buffer]).log =
      retiredBuffers session.log ++ [current.buffer] := by
    show groupBuffers (retiredGroups (session.log ++ _)) = _
    rw [retiredGroups_append, groupBuffers_append]
    rfl
  have hfresh : ∀ buffer ∈ retiredBuffers session.log, buffer.id ≠ current.buffer.id :=
    fun buffer hbuffer => (h.retired.dead buffer hbuffer index current hcurrent).symm
  constructor
  · refine ⟨h.live.bindGroups, ?_, ?_, ?_⟩
    · intro i entry hentry
      obtain ⟨hnone, hstill⟩ := h.live.declared i entry hentry
      refine ⟨hnone, ?_⟩
      show (session.resources.buffers.erase index)[i]? = _
      rw [getElem?_erase_entry, if_neg, hstill]
      rintro rfl
      rw [hcurrent] at hstill
      cases hstill
      rw [hnone] at hbuffers
      cases hbuffers
    · exact fun i entry hentry => h.live.shape i entry (hlookup hentry).2
    · exact fun i j entry other hi hj => h.live.apart i j entry other (hlookup hi).2 (hlookup hj).2
  · constructor
    · rw [hretired]
      intro buffer hbuffer
      rcases List.mem_append.mp hbuffer with hbefore | hnew
      · exact h.retired.old buffer hbefore
      · rw [List.mem_singleton.mp hnew]
        exact hold
    · rw [hretired]
      intro buffer hbuffer i entry hentry
      obtain ⟨hne, hentry⟩ := hlookup hentry
      rcases List.mem_append.mp hbuffer with hbefore | hnew
      · exact h.retired.dead buffer hbefore i entry hentry
      · rw [List.mem_singleton.mp hnew]
        intro hsame
        exact hne (h.live.apart index i current entry hcurrent hentry hsame.symm)
    · rw [hretired, List.map_append]
      refine List.nodup_append.mpr ⟨h.retired.once, by simp, ?_⟩
      intro id hid other hother
      obtain ⟨buffer, hbuffer, rfl⟩ := List.mem_map.mp hid
      simp only [List.map_cons, List.map_nil, List.mem_singleton] at hother
      exact hother ▸ hfresh buffer hbuffer
    · rw [hretired]
      show List.Perm _ (groupBuffers (session.resources.pendingRetire ++ [_]) ++
        groupBuffers session.waiting ++ destroyedBuffers (session.log ++ [_]))
      rw [groupBuffers_append, destroyedBuffers_append]
      have hperm := h.retired.accounted.append_right [current.buffer]
      refine hperm.trans ?_
      simp only [List.append_assoc, groupBuffers, destroyedBuffers, List.flatMap_cons,
        List.flatMap_nil, List.filterMap_cons, List.filterMap_nil, List.append_nil]
      refine List.Perm.append_left _ ?_
      rw [← List.append_assoc]
      exact List.perm_append_comm
  · refine ⟨?_, ?_, ?_, ?_, ?_⟩
    · intro group hgroup
      show group ∈ retiredGroups (session.log ++ [_])
      rw [retiredGroups_append]
      rcases List.mem_append.mp hgroup with hbefore | hnew
      · exact List.mem_append_left _ (h.order.queued group hbefore)
      · exact List.mem_append_right _ hnew
    · exact fun fence hfence => (h.order.fenced fence hfence).append _
    · show fenceNumbers (session.log ++ [_]) = _
      rw [fenceNumbers_append, h.order.numbered]
      exact List.append_nil _
    · exact h.order.underFence.append (by simp)
    · intro groups hgroups
      rcases List.mem_append.mp hgroups with hbefore | hnew
      · exact h.order.dispatched groups hbefore
      · simp at hnew
  · have hbalanced := h.balanced
    show session.resources.counters.created = session.resources.counters.live - 1 +
      (session.resources.counters.retired + 1)
    omega

/-! ### Fences -/

theorem Invariant.requested (h : Invariant opened session) :
    Invariant opened { session with
      resources := { session.resources with pendingRetire := [] }
      fences := session.fences ++ [(session.fencesMade, session.resources.pendingRetire)]
      fencesMade := session.fencesMade + 1
      log := session.log ++ [.fence session.fencesMade] } := by
  have hretired : retiredGroups (session.log ++ [.fence session.fencesMade]) =
      retiredGroups session.log := by
    rw [retiredGroups_append]
    exact List.append_nil _
  have hsame : retiredBuffers (session.log ++ [.fence session.fencesMade]) =
      retiredBuffers session.log := congrArg groupBuffers hretired
  refine ⟨{ h.live with }, ?_, ?_, h.balanced⟩
  · refine ⟨hsame ▸ h.retired.old, hsame ▸ h.retired.dead, hsame ▸ h.retired.once, ?_⟩
    show (retiredBuffers _).Perm (groupBuffers [] ++ groupBuffers (List.flatMap Prod.snd
      (session.fences ++ [_])) ++ destroyedBuffers (session.log ++ [_]))
    rw [hsame, List.flatMap_append, groupBuffers_append, destroyedBuffers_append]
    refine h.retired.accounted.trans ?_
    simp only [groupBuffers, Session.waiting, destroyedBuffers, List.flatMap_cons,
      List.flatMap_nil, List.filterMap_cons, List.filterMap_nil, List.append_nil, List.nil_append]
    exact List.Perm.append_right _ List.perm_append_comm
  · refine ⟨nofun, ?_, ?_, ?_, ?_⟩
    · intro fence hfence
      rcases List.mem_append.mp hfence with hbefore | hnew
      · exact (h.order.fenced fence hbefore).append _
      · rw [List.mem_singleton.mp hnew]
        exact ⟨session.log, [], rfl, h.order.queued⟩
    · show fenceNumbers (session.log ++ [_]) = List.range (session.fencesMade + 1)
      rw [fenceNumbers_append, h.order.numbered, List.range_succ]
      rfl
    · exact h.order.underFence.append (by simp)
    · intro groups hgroups
      rcases List.mem_append.mp hgroups with hbefore | hnew
      · exact h.order.dispatched groups hbefore
      · simp at hnew

theorem waiting_perm {fence : Nat × List RetireGroup} (hmem : fence ∈ session.fences) :
    (groupBuffers session.waiting).Perm
      (groupBuffers fence.2 ++ groupBuffers ((session.fences.erase fence).flatMap Prod.snd)) := by
  have hperm := (List.perm_cons_erase hmem).flatMap_right Prod.snd
  rw [List.flatMap_cons] at hperm
  rw [← groupBuffers_append]
  exact hperm.flatMap_right _

theorem Invariant.requeued (h : Invariant opened session) {fence : Nat × List RetireGroup}
    (hmem : fence ∈ session.fences) :
    Invariant opened { session with
      fences := session.fences.erase fence
      resources := { session.resources with
        pendingRetire := fence.2 ++ session.resources.pendingRetire } } := by
  refine ⟨{ h.live with }, ⟨h.retired.old, h.retired.dead, h.retired.once, ?_⟩, ?_, h.balanced⟩
  · refine h.retired.accounted.trans ?_
    refine List.Perm.append_right _ ?_
    rw [groupBuffers_append]
    refine ((waiting_perm hmem).append_left _).trans ?_
    rw [← List.append_assoc]
    exact List.Perm.append_right _ List.perm_append_comm
  · refine ⟨?_, ?_, h.order.numbered, h.order.underFence, h.order.dispatched⟩
    · intro group hgroup
      rcases List.mem_append.mp hgroup with hback | hqueue
      · exact (h.order.fenced fence hmem).retired group hback
      · exact h.order.queued group hqueue
    · exact fun other hother => h.order.fenced other (List.mem_of_mem_erase hother)

theorem foldl_destroyBuffer {number : Nat} {buffers : List GpuBuffer}
    (hfresh : (destroyedBuffers session.log ++ buffers).Nodup) :
    ∃ destroyed, buffers.foldl (destroyBuffer number) session = { session with
      log := session.log ++ buffers.map (.destroyed · number)
      resources := { session.resources with
        counters := { session.resources.counters with destroyed := destroyed } } } := by
  induction buffers generalizing session with
  | nil => exact ⟨session.resources.counters.destroyed, by simp⟩
  | cons buffer rest ih =>
    have hnew : buffer ∉ destroyedBuffers session.log := by
      intro hmem
      exact (List.nodup_append.mp hfresh).2.2 buffer hmem buffer List.mem_cons_self rfl
    rw [List.foldl_cons]
    have hstep : destroyBuffer number session buffer = { session with
        log := session.log ++ [.destroyed buffer number]
        resources := { session.resources with
          counters := { session.resources.counters with
            destroyed := session.resources.counters.destroyed + 1 } } } := if_neg hnew
    rw [hstep]
    have hnext : (destroyedBuffers (session.log ++ [.destroyed buffer number]) ++ rest).Nodup := by
      rw [destroyedBuffers_append, List.append_assoc]
      exact hfresh
    obtain ⟨destroyed, hfold⟩ := @ih { session with
        log := session.log ++ [.destroyed buffer number]
        resources := { session.resources with
          counters := { session.resources.counters with
            destroyed := session.resources.counters.destroyed + 1 } } } hnext
    refine ⟨destroyed, ?_⟩
    rw [hfold]
    simp

theorem Invariant.destroyed (h : Invariant opened session) {fence : Nat × List RetireGroup}
    (hmem : fence ∈ session.fences) :
    Invariant opened ((groupBuffers fence.2).foldl (destroyBuffer fence.1)
      { session with fences := session.fences.erase fence }) := by
  have hperm : (retiredBuffers session.log).Perm (groupBuffers session.resources.pendingRetire ++
      groupBuffers ((session.fences.erase fence).flatMap Prod.snd) ++
      (destroyedBuffers session.log ++ groupBuffers fence.2)) := by
    refine h.retired.accounted.trans ?_
    rw [List.append_assoc, List.append_assoc]
    refine List.Perm.append_left _ ?_
    refine ((waiting_perm hmem).append_right _).trans ?_
    rw [List.append_assoc]
    refine List.perm_append_comm.trans ?_
    rw [List.append_assoc]
  have hnodup : (destroyedBuffers session.log ++ groupBuffers fence.2).Nodup :=
    (List.nodup_append.mp (hperm.nodup_iff.mp h.retired.once.of_map)).2.1
  obtain ⟨count, hfold⟩ := @foldl_destroyBuffer
    { session with fences := session.fences.erase fence } fence.1 _ hnodup
  rw [hfold]
  have hdestroyed : ∀ buffers : List GpuBuffer,
      retiredGroups (buffers.map (.destroyed · fence.1)) = [] ∧
      destroyedBuffers (buffers.map (.destroyed · fence.1)) = buffers ∧
      fenceNumbers (buffers.map (.destroyed · fence.1)) = [] := by
    intro buffers
    simp [retiredGroups, destroyedBuffers, fenceNumbers, List.filterMap_map]
  obtain ⟨hgroups, hbuffers, hnumbers⟩ := hdestroyed (groupBuffers fence.2)
  have hretired : retiredGroups (session.log ++ (groupBuffers fence.2).map (.destroyed · fence.1)) =
      retiredGroups session.log := by
    rw [retiredGroups_append, hgroups, List.append_nil]
  have hsame : retiredBuffers (session.log ++ (groupBuffers fence.2).map (.destroyed · fence.1)) =
      retiredBuffers session.log := congrArg groupBuffers hretired
  refine ⟨{ h.live with }, ?_, ?_, h.balanced⟩
  · refine ⟨hsame ▸ h.retired.old, hsame ▸ h.retired.dead, hsame ▸ h.retired.once, ?_⟩
    show (retiredBuffers (session.log ++ _)).Perm
      (groupBuffers session.resources.pendingRetire ++ groupBuffers (List.flatMap Prod.snd
        (session.fences.erase fence)) ++ destroyedBuffers (session.log ++ _))
    rw [hsame, destroyedBuffers_append, hbuffers]
    exact hperm
  · refine ⟨?_, ?_, ?_, ?_, ?_⟩
    · show ∀ group ∈ session.resources.pendingRetire, group ∈ retiredGroups (session.log ++ _)
      rw [hretired]
      exact h.order.queued
    · intro other hother
      exact (h.order.fenced other (List.mem_of_mem_erase hother)).append _
    · show fenceNumbers (session.log ++ _) = _
      rw [fenceNumbers_append, hnumbers, List.append_nil, h.order.numbered]
    · apply h.order.underFence.append
      intro buffer number hbuffer
      obtain ⟨other, hother, heq⟩ := List.mem_map.mp hbuffer
      cases heq
      exact ⟨fence.2, h.order.fenced fence hmem, hother⟩
    · intro groups hgroups
      rcases List.mem_append.mp hgroups with hbefore | hnew
      · exact h.order.dispatched groups hbefore
      · simp at hnew

theorem Invariant.dispatched (h : Invariant opened session) :
    Invariant opened { session with
      log := session.log ++ [.dispatched session.resources.bindGroups] } := by
  have hretired : retiredGroups (session.log ++ [.dispatched session.resources.bindGroups]) =
      retiredGroups session.log := by
    rw [retiredGroups_append]
    exact List.append_nil _
  have hsame : retiredBuffers (session.log ++ [.dispatched session.resources.bindGroups]) =
      retiredBuffers session.log := congrArg groupBuffers hretired
  refine ⟨{ h.live with }, ?_, ?_, h.balanced⟩
  · refine ⟨hsame ▸ h.retired.old, hsame ▸ h.retired.dead, hsame ▸ h.retired.once, ?_⟩
    show (retiredBuffers (session.log ++ _)).Perm (groupBuffers session.resources.pendingRetire ++
      groupBuffers session.waiting ++ destroyedBuffers (session.log ++ [_]))
    rw [hsame, destroyedBuffers_append]
    simpa [destroyedBuffers] using h.retired.accounted
  · refine ⟨?_, ?_, ?_, ?_, ?_⟩
    · show ∀ group ∈ session.resources.pendingRetire, group ∈ retiredGroups (session.log ++ _)
      rw [hretired]
      exact h.order.queued
    · exact fun fence hfence => (h.order.fenced fence hfence).append _
    · show fenceNumbers (session.log ++ [_]) = _
      rw [fenceNumbers_append, h.order.numbered]
      exact List.append_nil _
    · exact h.order.underFence.append (by simp)
    · intro groups hgroups
      rcases List.mem_append.mp hgroups with hbefore | hnew
      · exact h.order.dispatched groups hbefore
      · rw [← h.live.bindGroups]
        simpa using hnew

/-! ## Runs -/

theorem Invariant.effect {guarded : Prop} {after : Session} (h : Invariant opened session)
    (heffect : Effect guarded session after) : Invariant opened after := by
  cases heffect with
  | unchanged => exact h
  | leaked hcurrent hold hbad => exact h.allocated
  | created hfree hnew => exact h.addEntry hfree _ _
  | removed hcurrent hbuffers => exact h.removeEntry hcurrent hbuffers
  | replaced hcurrent hbuffers hnewer =>
    refine (h.removeEntry hcurrent hbuffers).addEntry ?_ _ _
    show (session.resources.buffers.erase _)[_]? = none
    rw [getElem?_erase_entry, if_pos rfl]
  | requested hqueue => exact h.requested
  | requeued hmem => exact h.requeued hmem
  | destroyed hmem => exact h.destroyed hmem
  | dispatched => exact h.dispatched

theorem Invariant.run {tasks : List Task} {after : Session} (h : Invariant opened session)
    (hrun : runSteps runTask session tasks = some after) : Invariant opened after :=
  runSteps_preserves (fun _ _ _ hs hstep => Invariant.effect hs (effect_of_runTask hstep)) h hrun

theorem invariant_opened {device : GpuDevice} {initialInputs : String → InputValue}
    {descriptor : KernelDescriptor} {created : ComputeResources × Nat}
    (h : CreatedFrom device initialInputs descriptor created.1 created.2) :
    Invariant (Session.opened created) (Session.opened created) := by
  have hshape : ∀ (index : Nat) (entry : ComputeEntry), created.1.buffers[index]? = some entry →
      entry.logicalId = index ∧ entry.buffer.id < created.2 ∧ entry.buffers = none := by
    intro index entry hentry
    cases hfirst : declaring descriptor.entries index with
    | none =>
      rw [h.buffers.absent index hfirst] at hentry
      cases hentry
    | some first =>
      obtain ⟨buffer, hbuffer, -, hold⟩ := h.buffers.present index first hfirst
      rw [hbuffer] at hentry
      cases hentry
      exact ⟨rfl, hold, rfl⟩
  refine ⟨⟨rfl, ?_, ?_, h.buffers.apart⟩, ⟨nofun, nofun, List.nodup_nil, ?_⟩,
    ⟨?_, nofun, rfl, ?_, nofun⟩, ?_⟩
  · exact fun index entry hentry => ⟨(hshape index entry hentry).2.2, hentry⟩
  · intro index entry hentry
    obtain ⟨hid, hold, hnone⟩ := hshape index entry hentry
    exact ⟨hid, hold, .inl hnone⟩
  · show List.Perm [] (groupBuffers created.1.pendingRetire ++ [] ++ [])
    rw [h.pendingRetire]
    exact .refl _
  · show ∀ group ∈ created.1.pendingRetire, _
    rw [h.pendingRetire]
    nofun
  · intro earlier later buffer number heq
    simp [Session.opened] at heq
  · show created.1.counters.created = created.1.counters.live + created.1.counters.retired
    rw [h.counters]
    rfl

end FaberHosts.WebGpu
