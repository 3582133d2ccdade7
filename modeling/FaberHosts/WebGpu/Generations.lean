import FaberHosts.WebGpu.Replacement

/-!
# Generations and the live count

Two slips of the lifecycle: an entry of `createBuffers` is not one that can be retired, and a
resource that was removed may come back at any generation.  While neither happens the generation of
a resource only grows and a transition that throws changes nothing.
-/

namespace FaberHosts.WebGpu
open FaberHosts.Lib

section Runs

variable {session opened : Session}

/-- A generation that a resource had, or more. -/
def Reached (session : Session) (index generation : Nat) : Prop :=
  (∃ entry, session.resources.buffers[index]? = some entry ∧ generation ≤ entry.generation) ∨
    ∃ group ∈ retiredGroups session.log, group.logicalId = index ∧ generation ≤ group.generation

theorem Reached.addEntry {index generation i g : Nat} {request : BufferRequest}
    (hfree : session.resources.buffers[i]? = none) (h : Reached session index generation) :
    Reached (session.addEntry i g request) index generation := by
  rcases h with ⟨entry, hentry, hle⟩ | hretired
  · refine .inl ⟨entry, ?_, hle⟩
    show (session.resources.buffers.insert _ _)[index]? = _
    rw [getElem?_insert_entry, if_neg, hentry]
    rintro rfl
    rw [hfree] at hentry
    cases hentry
  · exact .inr hretired

theorem Reached.removeEntry (hlive : LiveEntries opened session) {index generation i : Nat}
    {current : ComputeEntry} {buffers : List GpuBuffer}
    (hcurrent : session.resources.buffers[i]? = some current)
    (hbuffers : current.buffers = some buffers) (h : Reached session index generation) :
    Reached (session.removeEntry i current buffers) index generation := by
  have hid := (hlive.buffers_eq hcurrent hbuffers).1
  have hlog : retiredGroups (session.removeEntry i current buffers).log =
      retiredGroups session.log ++ [⟨current.logicalId, current.generation, buffers⟩] := by
    show retiredGroups (session.log ++ _) = _
    rw [retiredGroups_append]
    rfl
  unfold Reached
  rw [hlog]
  rcases h with ⟨entry, hentry, hle⟩ | ⟨group, hgroup, hindex, hle⟩
  · by_cases heq : i = index
    · subst heq
      rw [hcurrent] at hentry
      cases hentry
      exact .inr ⟨_, List.mem_append_right _ (List.mem_singleton_self _), hid, hle⟩
    · refine .inl ⟨entry, ?_, hle⟩
      show (session.resources.buffers.erase i)[index]? = _
      rw [getElem?_erase_entry, if_neg heq, hentry]
  · exact .inr ⟨group, List.mem_append_left _ hgroup, hindex, hle⟩

theorem Reached.kept {index generation : Nat} {after : Session} (h : Reached session index generation)
    (hbuffers : after.resources.buffers = session.resources.buffers)
    (hlog : ∀ group ∈ retiredGroups session.log, group ∈ retiredGroups after.log) :
    Reached after index generation := by
  rcases h with hlive | ⟨group, hgroup, hindex, hle⟩
  · left
    rw [hbuffers]
    exact hlive
  · exact .inr ⟨group, hlog group hgroup, hindex, hle⟩

theorem destroyed_same (number : Nat) (buffers : List GpuBuffer) (session : Session) :
    (buffers.foldl (destroyBuffer number) session).resources.buffers = session.resources.buffers ∧
      (buffers.foldl (destroyBuffer number) session).resources.counters.live =
        session.resources.counters.live ∧
      retiredGroups (buffers.foldl (destroyBuffer number) session).log =
        retiredGroups session.log := by
  induction buffers generalizing session with
  | nil => exact ⟨rfl, rfl, rfl⟩
  | cons buffer rest ih =>
    rw [List.foldl_cons]
    obtain ⟨hbuffers, hlive, hlog⟩ := ih (destroyBuffer number session buffer)
    rw [hbuffers, hlive, hlog]
    unfold destroyBuffer
    split
    · exact ⟨rfl, rfl, rfl⟩
    · refine ⟨rfl, rfl, ?_⟩
      rw [retiredGroups_append]
      exact List.append_nil _

theorem Reached.effect {guarded : Prop} {after : Session} {index generation : Nat}
    (hinv : Invariant opened session) (heffect : Effect guarded session after)
    (h : Reached session index generation) : Reached after index generation := by
  have happend : ∀ others, ∀ group ∈ retiredGroups session.log,
      group ∈ retiredGroups (session.log ++ others) := by
    intro others group hgroup
    rw [retiredGroups_append]
    exact List.mem_append_left _ hgroup
  cases heffect with
  | unchanged => exact h
  | leaked hcurrent hold hbad => exact h.kept rfl (fun _ hgroup => hgroup)
  | created hfree hnew => exact h.addEntry hfree
  | removed hcurrent hbuffers => exact h.removeEntry hinv.live hcurrent hbuffers
  | replaced hcurrent hbuffers hnewer =>
    refine (h.removeEntry hinv.live hcurrent hbuffers).addEntry ?_
    show (session.resources.buffers.erase _)[_]? = none
    rw [getElem?_erase_entry, if_pos rfl]
  | requested hqueue => exact h.kept rfl (happend _)
  | requeued hmem => exact h.kept rfl (fun _ hgroup => hgroup)
  | destroyed hmem =>
    obtain ⟨hbuffers, -, hlog⟩ := destroyed_same _ _ { session with
      fences := session.fences.erase _ }
    exact h.kept hbuffers (fun group hgroup => hlog ▸ hgroup)
  | dispatched => exact h.kept rfl (happend _)

/-- What holds while no step goes wrong. -/
structure Ordered (opened session : Session) : Prop where
  generations : ∀ group ∈ retiredGroups session.log, ∀ entry : ComputeEntry,
    session.resources.buffers[group.logicalId]? = some entry → group.generation ≤ entry.generation
  counted : session.resources.counters.live + opened.resources.buffers.size =
    session.resources.buffers.size

theorem Ordered.addEntry (h : Ordered opened session) {index generation : Nat}
    {request : BufferRequest} (hfree : session.resources.buffers[index]? = none)
    (hnew : ∀ group ∈ retiredGroups session.log, group.logicalId = index →
      group.generation ≤ generation) : Ordered opened (session.addEntry index generation request) := by
  constructor
  · intro group hgroup entry hentry
    change (session.resources.buffers.insert _ _)[_]? = _ at hentry
    rw [getElem?_insert_entry] at hentry
    split at hentry
    · next heq =>
      cases hentry
      exact hnew group hgroup heq.symm
    · exact h.generations group hgroup entry hentry
  · have hsize : (session.resources.buffers.insert index
        (newEntry session index generation request)).size =
        session.resources.buffers.size + 1 := by
      have hout : session.resources.buffers.contains index = false := by
        rw [Std.ExtTreeMap.contains_eq_isSome_getElem?, hfree]
        rfl
      rw [Std.ExtTreeMap.size_insert, hout]
      rfl
    have hcounted := h.counted
    show session.resources.counters.live + 1 + _ = _
    show _ = ((session.resources.buffers.insert index _).size : Int)
    rw [hsize]
    push_cast
    omega

theorem Ordered.removeEntry (h : Ordered opened session) (hlive : LiveEntries opened session)
    {index : Nat} {current : ComputeEntry} {buffers : List GpuBuffer}
    (hcurrent : session.resources.buffers[index]? = some current)
    (hbuffers : current.buffers = some buffers) :
    Ordered opened (session.removeEntry index current buffers) := by
  have hid := (hlive.buffers_eq hcurrent hbuffers).1
  constructor
  · intro group hgroup entry hentry
    change group ∈ retiredGroups (session.log ++ [_]) at hgroup
    change (session.resources.buffers.erase index)[_]? = _ at hentry
    rw [getElem?_erase_entry] at hentry
    split at hentry
    · cases hentry
    · next hne =>
      rw [retiredGroups_append] at hgroup
      rcases List.mem_append.mp hgroup with hbefore | hlast
      · exact h.generations group hbefore entry hentry
      · rw [List.mem_singleton.mp hlast] at hne
        exact (hne hid.symm).elim
  · have hin : session.resources.buffers.contains index = true := by
      rw [Std.ExtTreeMap.contains_eq_isSome_getElem?, hcurrent]
      rfl
    have hsize : (session.resources.buffers.erase index).size + 1 =
        session.resources.buffers.size := by
      have hpos : session.resources.buffers.size ≠ 0 := by
        intro hzero
        rw [← Std.ExtTreeMap.eq_empty_iff_size_eq_zero] at hzero
        rw [hzero] at hin
        simp at hin
      rw [Std.ExtTreeMap.size_erase, if_pos hin]
      omega
    have hcounted := h.counted
    show session.resources.counters.live - 1 + (opened.resources.buffers.size : Int) =
      ((session.resources.buffers.erase index).size : Int)
    omega

theorem Ordered.effect {guarded : Prop} {after : Session} (hinv : Invariant opened session)
    (hguard : guarded) (h : Ordered opened session) (heffect : Effect guarded session after) :
    Ordered opened after := by
  have hlog : ∀ {others}, retiredGroups others = [] →
      retiredGroups (session.log ++ others) = retiredGroups session.log := by
    intro others hnone
    rw [retiredGroups_append, hnone, List.append_nil]
  cases heffect with
  | unchanged => exact h
  | leaked hcurrent hold hbad => exact (hbad hguard).elim
  | created hfree hnew => exact h.addEntry hfree (hnew hguard)
  | removed hcurrent hbuffers => exact h.removeEntry hinv.live hcurrent hbuffers
  | @replaced index generation request current buffers hcurrent hbuffers hnewer =>
    have hid := (hinv.live.buffers_eq hcurrent hbuffers).1
    refine (h.removeEntry hinv.live hcurrent hbuffers).addEntry ?_ ?_
    · show (session.resources.buffers.erase _)[_]? = none
      rw [getElem?_erase_entry, if_pos rfl]
    · intro group hgroup hindex
      change group ∈ retiredGroups (session.log ++ [_]) at hgroup
      rw [retiredGroups_append] at hgroup
      rcases List.mem_append.mp hgroup with hbefore | hlast
      · have := h.generations group hbefore current (by rw [hindex, hcurrent])
        omega
      · rw [List.mem_singleton.mp hlast]
        exact hnewer.le
  | requested hqueue =>
    refine ⟨?_, h.counted⟩
    show ∀ group ∈ retiredGroups (session.log ++ [_]), _
    rw [hlog rfl]
    exact h.generations
  | requeued hmem => exact ⟨h.generations, h.counted⟩
  | destroyed hmem =>
    obtain ⟨hbuffers, hlive, hsame⟩ := destroyed_same _ _ { session with
      fences := session.fences.erase _ }
    constructor
    · rw [hsame, hbuffers]
      exact h.generations
    · rw [hlive, hbuffers]
      exact h.counted
  | dispatched =>
    refine ⟨?_, h.counted⟩
    show ∀ group ∈ retiredGroups (session.log ++ [_]), _
    rw [hlog rfl]
    exact h.generations

/-! ## Safety -/

/-- The range is of the live buffer of its resource, which is not destroyed. -/
def RangeLive (session : Session) (entry : BindGroupEntry) (range : BoundRange) : Prop :=
  (session.resources.buffers[entry.resourceIndex]?).map (·.buffer) = some range.buffer ∧
    range.buffer ∉ destroyedBuffers session.log

/-- A session whose bind groups can be dispatched, and whose retired buffers are each queued,
    waiting or destroyed, once. -/
structure SafeSession (descriptor : KernelDescriptor) (session : Session) : Prop where
  bound : List.Forall₂ (fun group bindGroup =>
    List.Forall₂ (RangeLive session) group.entries bindGroup.entries)
    descriptor.bindGroups session.resources.bindGroups
  dispatched : ∀ groups, .dispatched groups ∈ session.log → groups = session.resources.bindGroups
  once : (retiredBuffers session.log).Nodup
  accounted : (retiredBuffers session.log).Perm
    (groupBuffers session.resources.pendingRetire ++ groupBuffers session.waiting ++
      destroyedBuffers session.log)
  underFence : UnderFence session.log
  numbered : fenceNumbers session.log = List.range session.fencesMade
  balanced : session.resources.counters.created =
    session.resources.counters.live + session.resources.counters.retired

/-- A transition that throws leaves the session as it was. -/
def ThrowsUnchanged (session : Session) : Prop :=
  ∀ device transition, Allowed session (.replace device transition) → ∀ thrown,
    (applyComputeResourceReplace device session transition).2 = .error thrown →
      (applyComputeResourceReplace device session transition).1 = session

variable {device : GpuDevice} {made : Nat} {descriptor : KernelDescriptor}
  {initialInputs : String → InputValue} {created : ComputeResources × Nat}

theorem Invariant.not_destroyed (h : Invariant opened session) {index : Nat} {entry : ComputeEntry}
    (hentry : session.resources.buffers[index]? = some entry) :
    entry.buffer ∉ destroyedBuffers session.log := by
  intro hdestroyed
  have hretired : entry.buffer ∈ retiredBuffers session.log :=
    h.retired.accounted.mem_iff.mpr (List.mem_append_right _ hdestroyed)
  exact h.retired.dead entry.buffer hretired index entry hentry rfl

theorem safeSession_of_invariant
    (hcreated : CreatedFrom device initialInputs descriptor created.1 created.2)
    (h : Invariant (Session.opened created) session) : SafeSession descriptor session := by
  refine ⟨?_, ?_, h.retired.once.of_map, h.retired.accounted, h.order.underFence, h.order.numbered,
    h.balanced⟩
  · rw [h.live.bindGroups]
    refine hcreated.bindGroups.imp (fun group bindGroup hgroup => ?_)
    refine (createBindGroup_eq hgroup).2.2.imp (fun entry range hrange => ?_)
    obtain ⟨computeEntry, hopened, rfl⟩ := bindEntry_eq hrange
    have hlive := (h.live.declared entry.resourceIndex computeEntry hopened).2
    exact ⟨by rw [hlive]; rfl, h.not_destroyed hlive⟩
  · rw [h.live.bindGroups]
    exact h.order.dispatched

/-- A session has no buffers exactly when its descriptor has no entries. -/
theorem size_opened (hcreated : CreatedFrom device initialInputs descriptor created.1 created.2) :
    created.1.buffers.size = 0 ↔ descriptor.entries = [] := by
  rw [← Std.ExtTreeMap.eq_empty_iff_size_eq_zero]
  constructor
  · intro hempty
    cases hentries : descriptor.entries with
    | nil => rfl
    | cons entry rest =>
      obtain ⟨first, hfirst⟩ := @exists_declaring descriptor.entries entry
        (by simp [hentries])
      obtain ⟨buffer, hbuffer, -⟩ := hcreated.buffers.present _ first hfirst
      rw [hempty] at hbuffer
      simp at hbuffer
  · intro hnone
    apply Std.ExtTreeMap.ext_getElem?
    intro index
    rw [hcreated.buffers.absent index (by rw [hnone]; rfl)]
    simp

/-- Every run keeps the session safe; one of allowed steps keeps generations in order and throws
    without a trace, and its live count is right for a session without resources of its own. -/
theorem compute_resources_safe
    (hopen : createWebGpuResources device made descriptor initialInputs = .ok created)
    {first rest : List Task} {before after : Session}
    (hfirst : runSteps runTask (Session.opened created) first = some before)
    (hrest : runSteps runTask before rest = some after) :
    SafeSession descriptor after ∧
    (StepsMeet runTask Allowed (Session.opened created) first →
      StepsMeet runTask Allowed before rest →
      (∀ (index : Nat) (entry entry' : ComputeEntry), before.resources.buffers[index]? = some entry →
        after.resources.buffers[index]? = some entry' → entry.generation ≤ entry'.generation) ∧
      ThrowsUnchanged after ∧
      (after.resources.counters.live = after.resources.buffers.size ↔ descriptor.entries = [])) := by
  have hcreated := createdFrom_of_create hopen
  have hinv := (invariant_opened hcreated).run hfirst
  refine ⟨safeSession_of_invariant hcreated (hinv.run hrest), fun hmeet hmeet' => ?_⟩
  have hstart : Ordered (Session.opened created) (Session.opened created) := by
    refine ⟨nofun, ?_⟩
    show created.1.counters.live + (created.1.buffers.size : Int) = created.1.buffers.size
    rw [hcreated.counters]
    exact zero_add _
  have hstep : ∀ s task t, Invariant (Session.opened created) s ∧
      Ordered (Session.opened created) s → Allowed s task → runTask s task = some t →
      Invariant (Session.opened created) t ∧ Ordered (Session.opened created) t :=
    fun s task t hs hallowed ht => ⟨hs.1.effect (effect_of_runTask ht),
      hs.2.effect hs.1 hallowed (effect_of_runTask ht)⟩
  have hbefore := runSteps_preserves_of_meets hstep hmeet ⟨invariant_opened hcreated, hstart⟩ hfirst
  have hafter := runSteps_preserves_of_meets hstep hmeet' hbefore hrest
  refine ⟨?_, ?_, ?_⟩
  · intro index entry entry' hentry hentry'
    have hreached := (runSteps_preserves (P := fun s => Invariant (Session.opened created) s ∧
        Reached s index entry.generation)
      (fun s task t hs ht => ⟨hs.1.effect (effect_of_runTask ht),
        hs.2.effect hs.1 (effect_of_runTask ht)⟩)
      ⟨hinv, .inl ⟨entry, hentry, le_refl _⟩⟩ hrest).2
    rcases hreached with ⟨last, hlast, hle⟩ | ⟨group, hgroup, rfl, hle⟩
    · rw [hentry'] at hlast
      cases hlast
      exact hle
    · exact hle.trans (hafter.2.generations group hgroup entry' hentry')
  · exact fun device transition hallowed =>
      (carries_applyComputeResourceReplace device after transition).throws hallowed
  · have hcounted := hafter.2.counted
    rw [← size_opened hcreated]
    change _ + (created.1.buffers.size : Int) = _ at hcounted
    omega

end Runs

namespace OneOutput

def device : GpuDevice := ⟨none, none, fun _ => true, true⟩

def entry : BindGroupEntry where
  binding := 0
  bindingIndex := 0
  resourceIndex := 0
  kind := .storageBuffer
  role := .output
  shaderVisibility := .compute
  bufferType := .storage
  elementCount := 1
  bufferByteLen := 4
  bufferByteOffset := 0
  bindingByteLen := 4
  minBindingSize := 4
  sourceLocal := none
  sourceName := none

def layoutEntry : LayoutEntry where
  binding := 0
  bindingIndex := 0
  resourceIndex := 0
  layoutEntryIndex := 0
  bufferByteLen := 4
  bufferByteOffset := 0
  bindingByteLen := 4
  minBindingSize := 4
  bufferType := .storage
  visibility := .compute
  sourceLocal := none
  sourceName := none

def descriptor : KernelDescriptor where
  wgsl := ""
  entryName := "main"
  bindGroupLayoutIndexes := [0]
  bindGroupLayouts := [⟨0, 0, [0], [layoutEntry]⟩]
  bindGroups := [⟨0, 0, [0], [entry]⟩]
  dispatchWorkgroups := ⟨1, 1, 1⟩

def session : Except Thrown (ComputeResources × Nat) :=
  createWebGpuResources device 0 descriptor (fun _ => .other)

def transition (index generation : Nat) (descriptor : JsValue) : JsValue :=
  .obj [("resource_index", .ofNat index), ("generation", .ofNat generation),
    ("buffer_descriptor", descriptor)]

def create (index generation : Nat) : Task :=
  .replace (some device) (transition index generation
    (.obj [("size", .ofNat 4), ("usage", .ofNat 128)]))

def remove (index generation : Nat) : Task :=
  .replace (some device) (transition index generation .null)

def dispatch : Task := .dispatch device descriptor.dispatchWorkgroups

def first : List Task := [dispatch, create 5 0, create 5 1]

def rest : List Task :=
  [.destroyRetired device, create 5 2, .fence 0 false, .destroyRetired device, .fence 1 true,
    dispatch]

end OneOutput

open OneOutput in
theorem one_output_session_safe : ∃ created before after, session = .ok created ∧
    runSteps runTask (Session.opened created) first = some before ∧
    runSteps runTask before rest = some after ∧ SafeSession descriptor after ∧
    ThrowsUnchanged after := by
  have hruns : session.toOption.any (fun created =>
      decide (StepsMeet runTask Allowed (Session.opened created) first) &&
        (runSteps runTask (Session.opened created) first).any (fun before =>
          decide (StepsMeet runTask Allowed before rest) &&
            (runSteps runTask before rest).isSome)) = true := by
    decide +kernel
  obtain ⟨created, hcreated, hruns⟩ := (Option.any_eq_true _ _).mp hruns
  obtain ⟨hmeet, hruns⟩ := Bool.and_eq_true_iff.mp hruns
  obtain ⟨before, hbefore, hruns⟩ := (Option.any_eq_true _ _).mp hruns
  obtain ⟨hmeet', hafter⟩ := Bool.and_eq_true_iff.mp hruns
  obtain ⟨after, hafter⟩ := Option.isSome_iff_exists.mp hafter
  have hopen := toOption_eq_some_iff.mp hcreated
  have hsafe := compute_resources_safe hopen hbefore hafter
  exact ⟨created, before, after, hopen, hbefore, hafter, hsafe.1,
    (hsafe.2 (of_decide_eq_true hmeet) (of_decide_eq_true hmeet')).2.1⟩

open OneOutput in
/-- A session with one buffer counts none; replacing that buffer throws after the new one is
    allocated and counted; a removed resource comes back at a lower generation. -/
theorem replacement_unsafe :
    (∃ created, session = .ok created ∧ created.1.counters.live = 0 ∧
      created.1.buffers.size = 1) ∧
    (∃ created outcome, session = .ok created ∧
      applyComputeResourceReplace (some device) (Session.opened created)
        (transition 0 1 (.obj [("size", .ofNat 4), ("usage", .ofNat 128)])) = outcome ∧
      (∃ thrown, outcome.2 = .error thrown) ∧
      outcome.1.made = (Session.opened created).made + 1 ∧
      outcome.1.resources.counters ≠ (Session.opened created).resources.counters) ∧
    (∃ created before after, session = .ok created ∧
      runSteps runTask (Session.opened created) [create 5 7] = some before ∧
      runSteps runTask before [remove 5 7, create 5 0] = some after ∧
      (before.resources.buffers[5]?).map (·.generation) = some 7 ∧
      (after.resources.buffers[5]?).map (·.generation) = some 0) := by
  have hruns : session.toOption.any (fun created =>
      decide (created.1.counters.live = 0 ∧ created.1.buffers.size = 1) &&
      (let outcome := applyComputeResourceReplace (some device) (Session.opened created)
        (transition 0 1 (.obj [("size", .ofNat 4), ("usage", .ofNat 128)]))
      outcome.2.toOption.isNone && decide (outcome.1.made = (Session.opened created).made + 1) &&
        decide (outcome.1.resources.counters ≠ (Session.opened created).resources.counters)) &&
      (runSteps runTask (Session.opened created) [create 5 7]).any (fun before =>
        decide ((before.resources.buffers[5]?).map (·.generation) = some 7) &&
        (runSteps runTask before [remove 5 7, create 5 0]).any (fun after =>
          decide ((after.resources.buffers[5]?).map (·.generation) = some 0)))) = true := by
    decide +kernel
  obtain ⟨created, hcreated, hruns⟩ := (Option.any_eq_true _ _).mp hruns
  have hopen := toOption_eq_some_iff.mp hcreated
  simp only [Bool.and_eq_true, decide_eq_true_eq] at hruns
  obtain ⟨⟨hcounts, ⟨hthrown, hmade⟩, hcounters⟩, hruns⟩ := hruns
  obtain ⟨before, hbefore, hruns⟩ := (Option.any_eq_true _ _).mp hruns
  obtain ⟨hgeneration, hruns⟩ := Bool.and_eq_true_iff.mp hruns
  obtain ⟨after, hafter, hruns⟩ := (Option.any_eq_true _ _).mp hruns
  refine ⟨⟨created, hopen, hcounts⟩, ⟨created, _, hopen, rfl, ?_, hmade, hcounters⟩,
    ⟨created, before, after, hopen, hbefore, hafter, of_decide_eq_true hgeneration,
      of_decide_eq_true hruns⟩⟩
  cases houtcome : (applyComputeResourceReplace (some device) (Session.opened created)
      (transition 0 1 (.obj [("size", .ofNat 4), ("usage", .ofNat 128)]))).2 with
  | error thrown => exact ⟨thrown, rfl⟩
  | ok change => simp [houtcome, Except.toOption] at hthrown

end FaberHosts.WebGpu
