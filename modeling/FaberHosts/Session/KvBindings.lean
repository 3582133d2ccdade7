import FaberHosts.Descriptor.KvIdentity
import FaberHosts.Session.Device

/-!
# Live bindings of a KV plan

`materialize_session_bindings`: the declared launch records with the cursor applied.
The span of a length-sourced record is checked against the *first* declared view it
matches, while the static identity sorts the views, so the identity decides the
bindings exactly when no row count tells two matching views apart.
-/

namespace FaberHosts.Session
open FaberHosts.Lib FaberHosts.Coordinator FaberHosts.Descriptor

/-! ## Materializing -/

/-- A view that may carry the record. -/
def viewMatches (record : DescriptorLaunchBinding) (view : DescriptorView) : Bool :=
  view.allocationId = record.handle ∧ view.staticBase = record.byteOffset ∧
    record.viewSpan ≤ view.maximumSpan

def matchingStaticView (kv : KvCacheDescriptor) (record : DescriptorLaunchBinding) :
    Option DescriptorView :=
  kv.views.find? (viewMatches record)

/-- The smallest span of the views of an allocation. -/
def rowStepBytes (kv : KvCacheDescriptor) (allocationId : UInt32) : Option UInt64 :=
  ((kv.views.filter (·.allocationId == allocationId)).map (·.maximumSpan)).min?

def envelopeOverflow : HostError :=
  .shapeMismatch "launch binding offset overflows its static envelope"

def shiftOffset (base : UInt64) (index : UInt32) (step : UInt64) : Except HostError UInt64 :=
  match checkedMul index.toUInt64 step with
  | none => .error envelopeOverflow
  | some delta =>
    match checkedAdd base delta with
    | none => .error envelopeOverflow
    | some offset => .ok offset

def scaleSpan (rows : UInt32) (rowStep : UInt64) (view : DescriptorView) (bindingIndex : UInt32) :
    Except HostError UInt64 :=
  match checkedMul rows.toUInt64 rowStep with
  | none => .error (.shapeMismatch
      s!"launch binding index {bindingIndex} overflows its static envelope")
  | some span =>
    if view.maximumSpan < span then
      .error (.shapeMismatch
        s!"launch binding index {bindingIndex} span {span} exceeds view maximum {view.maximumSpan}")
    else
      .ok span

/-- The offset and span the record's source gives. -/
def sourcedEnvelope (record : DescriptorLaunchBinding) (view : DescriptorView)
    (state : DescriptorInvocationState) (rowStep : UInt64) : Except HostError (UInt64 × UInt64) :=
  match record.runtimeSource with
  | .constant | .sequenceEpoch => .ok (record.byteOffset, record.viewSpan)
  | .position => do
    let offset ← shiftOffset record.byteOffset state.position rowStep
    .ok (offset, record.viewSpan)
  | .validLenAfter => do
    let span ← scaleSpan state.validLenAfter rowStep view record.bindingIndex
    .ok (record.byteOffset, span)
  | .queryRows => do
    let span ← scaleSpan state.queryRows rowStep view record.bindingIndex
    .ok (record.byteOffset, span)

def liveEnvelope (record : DescriptorLaunchBinding) (view : DescriptorView)
    (allocation : DescriptorAllocation) (state : DescriptorInvocationState) (rowStep : UInt64) :
    Except HostError (UInt64 × UInt64) := do
  let (byteOffset, viewSpan) ← sourcedEnvelope record view state rowStep
  if viewSpan = 0 then
    .error (.descriptor s!"launch binding index {record.bindingIndex} has a zero view span")
  else
    match checkedAdd byteOffset viewSpan with
    | none =>
      .error (.shapeMismatch
        s!"launch binding index {record.bindingIndex} overflows its static envelope")
    | some spanEnd =>
      if allocation.capacityBytes < spanEnd ∨ view.maximumSpan < viewSpan then
        .error (.shapeMismatch (s!"launch binding index {record.bindingIndex} spans {viewSpan} " ++
          s!"bytes from offset {byteOffset} but allocation {allocation.bufferId} capacity is " ++
          s!"{allocation.capacityBytes} bytes (view maximum {view.maximumSpan})"))
      else
        .ok (byteOffset, viewSpan)

def allocationHandle (allocations : List (UInt32 × DeviceHandle)) (allocationId : UInt32) :
    Except HostError DeviceHandle :=
  match allocations.find? (·.1 == allocationId) with
  | none =>
    .error (.descriptor s!"launch binding names allocation {allocationId} with no live handle")
  | some entry => .ok entry.2

def materializeOneBinding (kv : KvCacheDescriptor) (allocations : List (UInt32 × DeviceHandle))
    (record : DescriptorLaunchBinding) (state : DescriptorInvocationState) :
    Except HostError DeviceLaunchBinding := do
  let handle ← allocationHandle allocations record.handle
  match kv.allocations.find? (·.bufferId == record.handle) with
  | none =>
    .error (.descriptor
      s!"launch binding index {record.bindingIndex} names unknown allocation {record.handle}")
  | some allocation =>
    match matchingStaticView kv record with
    | none =>
      .error (.shapeMismatch (s!"launch binding index {record.bindingIndex} offset " ++
        s!"{record.byteOffset} span {record.viewSpan} does not match a view on allocation " ++
        s!"{record.handle}"))
    | some view =>
      match rowStepBytes kv record.handle with
      | none =>
        .error (.descriptor
          s!"allocation {record.handle} has no view from which to derive a row step")
      | some rowStep => do
        let (byteOffset, viewSpan) ← liveEnvelope record view allocation state rowStep
        .ok ⟨handle, record.bindingIndex, byteOffset, viewSpan, record.runtimeSource⟩

/-- Apply the cursor to each declared launch record. -/
def materializeSessionBindings (kv : KvCacheDescriptor)
    (allocations : List (UInt32 × DeviceHandle)) (state : DescriptorInvocationState) :
    Except HostError (List DeviceLaunchBinding) := do
  kv.validate
  kv.launchBindings.mapM (fun record => materializeOneBinding kv allocations record state)

/-! ## What the views decide -/

/-- Offset and span before any view is asked. -/
def declaredEnvelope (record : DescriptorLaunchBinding) (state : DescriptorInvocationState)
    (rowStep : UInt64) : Option (UInt64 × UInt64) :=
  match record.runtimeSource with
  | .constant | .sequenceEpoch => some (record.byteOffset, record.viewSpan)
  | .position =>
    ((checkedMul state.position.toUInt64 rowStep).bind (checkedAdd record.byteOffset)).map
      (fun offset => (offset, record.viewSpan))
  | .validLenAfter =>
    (checkedMul state.validLenAfter.toUInt64 rowStep).map (fun span => (record.byteOffset, span))
  | .queryRows =>
    (checkedMul state.queryRows.toUInt64 rowStep).map (fun span => (record.byteOffset, span))

theorem scaleSpan_ok_iff {rows : UInt32} {rowStep span : UInt64} {view : DescriptorView}
    {index : UInt32} :
    scaleSpan rows rowStep view index = .ok span ↔
      checkedMul rows.toUInt64 rowStep = some span ∧ span ≤ view.maximumSpan := by
  unfold scaleSpan
  cases hmul : checkedMul rows.toUInt64 rowStep with
  | none => simp
  | some total =>
    by_cases hover : view.maximumSpan < total
    · simp only [if_pos hover, Option.some.injEq]
      refine iff_of_false nofun ?_
      rintro ⟨rfl, hle⟩
      exact absurd hover (UInt64.not_lt.mpr hle)
    · simp only [if_neg hover, Option.some.injEq, Except.ok.injEq]
      exact ⟨fun h => ⟨h, h ▸ UInt64.not_lt.mp hover⟩, fun h => h.1⟩

theorem shiftOffset_ok_iff {base step offset : UInt64} {index : UInt32} :
    shiftOffset base index step = .ok offset ↔
      (checkedMul index.toUInt64 step).bind (checkedAdd base) = some offset := by
  unfold shiftOffset
  cases checkedMul index.toUInt64 step with
  | none => simp
  | some delta => cases hsum : checkedAdd base delta <;> simp [hsum]

/-- The span follows a row count. -/
def Scaled (record : DescriptorLaunchBinding) : Prop :=
  record.runtimeSource = .validLenAfter ∨ record.runtimeSource = .queryRows

theorem sourcedEnvelope_ok_iff {record : DescriptorLaunchBinding} {view : DescriptorView}
    {state : DescriptorInvocationState} {rowStep : UInt64} {envelope : UInt64 × UInt64} :
    sourcedEnvelope record view state rowStep = .ok envelope ↔
      declaredEnvelope record state rowStep = some envelope ∧
        (Scaled record → envelope.2 ≤ view.maximumSpan) := by
  obtain ⟨offset, span⟩ := envelope
  unfold sourcedEnvelope declaredEnvelope Scaled
  cases hsource : record.runtimeSource with
  | constant => simp
  | sequenceEpoch => simp
  | position =>
    simp only [bind_ok_iff, shiftOffset_ok_iff, Except.ok.injEq, Option.map_eq_some_iff, reduceCtorEq,
      or_self, false_implies, and_true]
  | validLenAfter =>
    simp only [bind_ok_iff, scaleSpan_ok_iff, Except.ok.injEq, Option.map_eq_some_iff, true_or,
      forall_const, Prod.mk.injEq]
    exact ⟨fun ⟨a, ⟨hmul, hle⟩, hoff, hspan⟩ => ⟨⟨a, hmul, hoff, hspan⟩, hspan ▸ hle⟩,
      fun ⟨⟨a, hmul, hoff, hspan⟩, hle⟩ => ⟨a, ⟨hmul, hspan ▸ hle⟩, hoff, hspan⟩⟩
  | queryRows =>
    simp only [bind_ok_iff, scaleSpan_ok_iff, Except.ok.injEq, Option.map_eq_some_iff, or_true,
      forall_const, Prod.mk.injEq]
    exact ⟨fun ⟨a, ⟨hmul, hle⟩, hoff, hspan⟩ => ⟨⟨a, hmul, hoff, hspan⟩, hspan ▸ hle⟩,
      fun ⟨⟨a, hmul, hoff, hspan⟩, hle⟩ => ⟨a, ⟨hmul, hspan ▸ hle⟩, hoff, hspan⟩⟩

theorem checkedEnvelope_ok_iff {offset span capacity maximum : UInt64} {zero overflow outside : HostError}
    {envelope : UInt64 × UInt64} :
    (if span = 0 then Except.error zero
      else match checkedAdd offset span with
        | none => Except.error overflow
        | some spanEnd =>
          if capacity < spanEnd ∨ maximum < span then Except.error outside
          else Except.ok (offset, span)) = Except.ok envelope ↔
      (span ≠ 0 ∧ offset.toNat + span.toNat ≤ capacity.toNat ∧ span ≤ maximum) ∧
        (offset, span) = envelope := by
  by_cases hzero : span = 0
  · simp [hzero]
  rw [if_neg hzero]
  cases hsum : checkedAdd offset span with
  | none =>
    refine iff_of_false nofun (fun h => ?_)
    have hlt := capacity.toNat_lt
    have hfit : (offset + span).toNat = offset.toNat + span.toNat :=
      toNat_add_of_fits (by have := h.1.2.1; omega)
    rw [checkedAdd_eq_some_iff.mpr hfit] at hsum
    cases hsum
  | some spanEnd =>
    have hexact := checkedAdd_eq_some_iff.mp hsum
    by_cases hout : capacity < spanEnd ∨ maximum < span
    · simp only [if_pos hout]
      refine iff_of_false nofun (fun h => ?_)
      rcases hout with hout | hout
      · have hlt := UInt64.lt_iff_toNat_lt.mp hout
        have hle := h.1.2.1
        omega
      · exact absurd hout (UInt64.not_lt.mpr h.1.2.2)
    · simp only [if_neg hout, Except.ok.injEq]
      push Not at hout
      have hle := UInt64.le_iff_toNat_le.mp (UInt64.not_lt.mp hout.1)
      exact ⟨fun h => ⟨⟨hzero, by omega, UInt64.not_lt.mp hout.2⟩, h⟩, fun h => h.2⟩

theorem liveEnvelope_ok_iff {record : DescriptorLaunchBinding} {view : DescriptorView}
    {allocation : DescriptorAllocation} {state : DescriptorInvocationState} {rowStep : UInt64}
    {envelope : UInt64 × UInt64} :
    liveEnvelope record view allocation state rowStep = .ok envelope ↔
      declaredEnvelope record state rowStep = some envelope ∧ envelope.2 ≠ 0 ∧
        envelope.1.toNat + envelope.2.toNat ≤ allocation.capacityBytes.toNat ∧
        envelope.2 ≤ view.maximumSpan := by
  unfold liveEnvelope
  rw [bind_ok_iff]
  constructor
  · rintro ⟨found, hfound, hchecked⟩
    obtain ⟨hbounds, rfl⟩ := checkedEnvelope_ok_iff.mp hchecked
    exact ⟨(sourcedEnvelope_ok_iff.mp hfound).1, hbounds⟩
  · rintro ⟨hdeclared, hbounds⟩
    exact ⟨envelope, sourcedEnvelope_ok_iff.mpr ⟨hdeclared, fun _ => hbounds.2.2⟩,
      checkedEnvelope_ok_iff.mpr ⟨hbounds, rfl⟩⟩

/-- The binding a record gives, as far as no single view decides it. -/
structure Declares (kv : KvCacheDescriptor) (allocations : List (UInt32 × DeviceHandle))
    (record : DescriptorLaunchBinding) (state : DescriptorInvocationState)
    (binding : DeviceLaunchBinding) : Prop where
  handle : allocationHandle allocations record.handle = .ok binding.handle
  index : binding.bindingIndex = record.bindingIndex
  source : binding.runtimeSource = record.runtimeSource
  envelope : ∃ rowStep, rowStepBytes kv record.handle = some rowStep ∧
    declaredEnvelope record state rowStep = some (binding.byteOffset, binding.viewSpan)
  span : binding.viewSpan ≠ 0
  inside : kv.Inside record.handle binding.byteOffset binding.viewSpan

/-- A record's binding, and the one thing its first matching view says of it. -/
theorem materializeOneBinding_ok_iff {kv : KvCacheDescriptor} (hkv : kv.Rules)
    {allocations : List (UInt32 × DeviceHandle)} {record : DescriptorLaunchBinding}
    {state : DescriptorInvocationState} {binding : DeviceLaunchBinding} :
    materializeOneBinding kv allocations record state = .ok binding ↔
      Declares kv allocations record state binding ∧
        ∃ view, matchingStaticView kv record = some view ∧ binding.viewSpan ≤ view.maximumSpan := by
  unfold materializeOneBinding
  rw [bind_ok_iff]
  constructor
  · rintro ⟨handle, hhandle, hrest⟩
    cases hallocation : kv.allocations.find? (·.bufferId == record.handle) with
    | none => simp [hallocation] at hrest
    | some allocation =>
      cases hview : matchingStaticView kv record with
      | none => simp [hallocation, hview] at hrest
      | some view =>
        cases hstep : rowStepBytes kv record.handle with
        | none => simp [hallocation, hview, hstep] at hrest
        | some rowStep =>
          simp only [hallocation, hview, hstep, bind_ok_iff, Except.ok.injEq] at hrest
          obtain ⟨envelope, hlive, rfl⟩ := hrest
          obtain ⟨hdeclared, hzero, hinside, hle⟩ := liveEnvelope_ok_iff.mp hlive
          have hallocated : kv.Inside record.handle envelope.1 envelope.2 :=
            (KvCacheDescriptor.inside_of_find? hkv.distinct).mpr ⟨allocation, hallocation, hinside⟩
          exact ⟨⟨hhandle, rfl, rfl, ⟨rowStep, hstep, hdeclared⟩, hzero, hallocated⟩, view, rfl, hle⟩
  · rintro ⟨h, view, hview, hle⟩
    obtain ⟨rowStep, hstep, hdeclared⟩ := h.envelope
    obtain ⟨allocation, hallocation, hinside⟩ :=
      (KvCacheDescriptor.inside_of_find? hkv.distinct).mp h.inside
    have hlive := liveEnvelope_ok_iff.mpr ⟨hdeclared, h.span, hinside, hle⟩
    refine ⟨binding.handle, h.handle, ?_⟩
    simp only [hallocation, hview, hstep, hlive, bind_ok_iff, Except.ok.injEq]
    refine ⟨_, rfl, ?_⟩
    rw [← h.index, ← h.source]

/-! ## Plans of one identity -/

/-- The parts two plans of one identity share. -/
structure SamePlan (kv kv' : KvCacheDescriptor) : Prop where
  allocations : kv.allocations.Perm kv'.allocations
  views : kv.views.Perm kv'.views
  launchBindings : kv.launchBindings = kv'.launchBindings

namespace SamePlan

variable {kv kv' : KvCacheDescriptor}

theorem symm (h : SamePlan kv kv') : SamePlan kv' kv :=
  ⟨h.allocations.symm, h.views.symm, h.launchBindings.symm⟩

theorem inside (h : SamePlan kv kv') {id : UInt32} {offset span : UInt64}
    (hin : kv.Inside id offset span) : kv'.Inside id offset span := by
  obtain ⟨allocation, hmem, hid, hle⟩ := hin
  exact ⟨allocation, h.allocations.mem_iff.mp hmem, hid, hle⟩

theorem rules (h : SamePlan kv kv') (hkv : kv.Rules) : kv'.Rules where
  allocations hnil := hkv.allocations (by simpa [hnil] using h.allocations)
  identities allocation hmem := hkv.identities allocation (h.allocations.mem_iff.mpr hmem)
  distinct := (h.allocations.map (·.bufferId)).nodup_iff.mp hkv.distinct
  views view hmem :=
    have hfits := hkv.views view (h.views.mem_iff.mpr hmem)
    ⟨hfits.dims, hfits.rank, hfits.nonzero, hfits.span, h.inside hfits.inside⟩
  bindings binding hmem :=
    have hfits := hkv.bindings binding (h.launchBindings ▸ hmem)
    ⟨hfits.span, h.inside hfits.inside⟩

theorem rowStepBytes_eq (h : SamePlan kv kv') (id : UInt32) :
    rowStepBytes kv id = rowStepBytes kv' id := by
  have hspans : ((kv.views.filter (·.allocationId == id)).map (·.maximumSpan)).Perm
      ((kv'.views.filter (·.allocationId == id)).map (·.maximumSpan)) :=
    (h.views.filter _).map _
  unfold rowStepBytes
  refine Option.ext (fun step => ?_)
  rw [List.min?_eq_some_iff, List.min?_eq_some_iff, hspans.mem_iff]
  simp only [hspans.mem_iff]

theorem declares (h : SamePlan kv kv') {allocations : List (UInt32 × DeviceHandle)}
    {record : DescriptorLaunchBinding} {state : DescriptorInvocationState}
    {binding : DeviceLaunchBinding} (hdeclares : Declares kv allocations record state binding) :
    Declares kv' allocations record state binding :=
  ⟨hdeclares.handle, hdeclares.index, hdeclares.source,
    by simpa only [h.rowStepBytes_eq] using hdeclares.envelope, hdeclares.span,
    h.inside hdeclares.inside⟩

end SamePlan

theorem samePlan_of_staticGraphBytes_eq {kv kv' : KvCacheDescriptor} (h : kv.Addressable)
    (h' : kv'.Addressable) (heq : kv'.staticGraphBytes = kv.staticGraphBytes) : SamePlan kv kv' := by
  obtain ⟨hallocations, hviews, hbindings⟩ :=
    (KvCacheDescriptor.staticGraphBytes_eq_iff h' h).mp heq
  refine ⟨?_, ?_, hbindings.symm⟩
  · exact (sortByKey_perm _ _).symm.trans (hallocations ▸ sortByKey_perm _ _)
  · exact (sortByKey_perm _ _).symm.trans (hviews ▸ sortByKey_perm _ _)

/-! ## Row counts -/

/-- A view of the plan that may carry the record. -/
def Carries (kv : KvCacheDescriptor) (view : DescriptorView) (record : DescriptorLaunchBinding) :
    Prop :=
  view ∈ kv.views ∧ viewMatches record view = true

/-- That many rows of the record are over what the view takes. -/
def Exceeds (kv : KvCacheDescriptor) (record : DescriptorLaunchBinding) (rows : UInt32)
    (view : DescriptorView) : Prop :=
  ∃ rowStep, rowStepBytes kv record.handle = some rowStep ∧
    view.maximumSpan.toNat < rows.toNat * rowStep.toNat

/-- The row count a source stands for. -/
def rowsOf (state : DescriptorInvocationState) : DescriptorRuntimeSource → UInt32
  | .validLenAfter => state.validLenAfter
  | _ => state.queryRows

/-- The order of the views decides nothing: a row count over some view of a record of one
    source is over every view of some record of that source. -/
def OrderFree (kv : KvCacheDescriptor) : Prop :=
  (∀ record ∈ kv.launchBindings, ∃ view, Carries kv view record) →
    ∀ source, source = .validLenAfter ∨ source = .queryRows → ∀ rows,
      (∃ record ∈ kv.launchBindings, record.runtimeSource = source ∧
        ∃ view, Carries kv view record ∧ Exceeds kv record rows view) →
      ∃ record ∈ kv.launchBindings, record.runtimeSource = source ∧
        ∀ view, Carries kv view record → Exceeds kv record rows view

theorem matchingStaticView_eq_some {kv : KvCacheDescriptor} {record : DescriptorLaunchBinding}
    {view : DescriptorView} (h : matchingStaticView kv record = some view) : Carries kv view record :=
  ⟨List.mem_of_find?_eq_some h, List.find?_some h⟩

theorem exists_matchingStaticView {kv : KvCacheDescriptor} {record : DescriptorLaunchBinding}
    {view : DescriptorView} (h : Carries kv view record) :
    ∃ first, matchingStaticView kv record = some first :=
  Option.isSome_iff_exists.mp (List.find?_isSome.mpr ⟨view, h.1, h.2⟩)

theorem toNat_viewSpan_of_scaled {record : DescriptorLaunchBinding}
    {state : DescriptorInvocationState} {rowStep offset span : UInt64} (hscaled : Scaled record)
    (h : declaredEnvelope record state rowStep = some (offset, span)) :
    span.toNat = (rowsOf state record.runtimeSource).toNat * rowStep.toNat := by
  unfold declaredEnvelope at h
  rcases hscaled with hsource | hsource
  · simp only [hsource, Option.map_eq_some_iff, Prod.mk.injEq, rowsOf] at h ⊢
    obtain ⟨total, hmul, -, rfl⟩ := h
    rw [checkedMul_eq_some_iff.mp hmul, UInt32.toNat_toUInt64]
  · simp only [hsource, Option.map_eq_some_iff, Prod.mk.injEq, rowsOf] at h ⊢
    obtain ⟨total, hmul, -, rfl⟩ := h
    rw [checkedMul_eq_some_iff.mp hmul, UInt32.toNat_toUInt64]

theorem viewSpan_of_not_scaled {record : DescriptorLaunchBinding}
    {state : DescriptorInvocationState} {rowStep offset span : UInt64} (hscaled : ¬ Scaled record)
    (h : declaredEnvelope record state rowStep = some (offset, span)) :
    span = record.viewSpan := by
  unfold declaredEnvelope at h
  unfold Scaled at hscaled
  cases hsource : record.runtimeSource with
  | constant => simp_all
  | sequenceEpoch => simp_all
  | position =>
    simp only [hsource, Option.map_eq_some_iff, Prod.mk.injEq] at h
    obtain ⟨-, -, -, rfl⟩ := h
    rfl
  | validLenAfter => exact absurd (.inl hsource) hscaled
  | queryRows => exact absurd (.inr hsource) hscaled

/-- A view that carries the record takes its binding unless the row count is over it. -/
theorem Declares.viewSpan_le_iff {kv : KvCacheDescriptor} {allocations : List (UInt32 × DeviceHandle)}
    {record : DescriptorLaunchBinding} {state : DescriptorInvocationState}
    {binding : DeviceLaunchBinding} (h : Declares kv allocations record state binding)
    {view : DescriptorView} (hcarries : Carries kv view record) :
    binding.viewSpan ≤ view.maximumSpan ↔
      (Scaled record → ¬ Exceeds kv record (rowsOf state record.runtimeSource) view) := by
  obtain ⟨rowStep, hstep, hdeclared⟩ := h.envelope
  by_cases hscaled : Scaled record
  · have hspan := toNat_viewSpan_of_scaled hscaled hdeclared
    simp only [hscaled, forall_const, Exceeds, hstep, Option.some.injEq, exists_eq_left',
      UInt64.le_iff_toNat_le]
    omega
  · have hspan := viewSpan_of_not_scaled hscaled hdeclared
    have hmatch := hcarries.2
    simp only [viewMatches, decide_eq_true_eq] at hmatch
    simp only [hscaled, false_implies, hspan, hmatch.2.2]

theorem materializeSessionBindings_of_valid {kv : KvCacheDescriptor} (hvalid : kv.Valid)
    (allocations : List (UInt32 × DeviceHandle)) (state : DescriptorInvocationState) :
    materializeSessionBindings kv allocations state =
      kv.launchBindings.mapM (fun record => materializeOneBinding kv allocations record state) := by
  unfold materializeSessionBindings
  rw [show kv.validate = .ok () from hvalid]
  rfl

namespace SamePlan

variable {kv kv' : KvCacheDescriptor}

theorem carries (h : SamePlan kv kv') {view : DescriptorView} {record : DescriptorLaunchBinding} :
    Carries kv view record ↔ Carries kv' view record := by
  rw [Carries, Carries, h.views.mem_iff]

theorem exceeds (h : SamePlan kv kv') {record : DescriptorLaunchBinding} {rows : UInt32}
    {view : DescriptorView} : Exceeds kv record rows view ↔ Exceeds kv' record rows view := by
  rw [Exceeds, Exceeds, h.rowStepBytes_eq]

theorem orderFree (h : SamePlan kv kv') : OrderFree kv ↔ OrderFree kv' := by
  simp only [OrderFree, h.launchBindings, h.carries, h.exceeds]

/-- Where the order decides nothing, what one plan materializes the other does. -/
theorem materialize_of_orderFree (h : SamePlan kv kv') (hvalid : kv.Valid) (hvalid' : kv'.Valid)
    (hfree : OrderFree kv) {allocations : List (UInt32 × DeviceHandle)}
    {state : DescriptorInvocationState} {bindings : List DeviceLaunchBinding}
    (hok : materializeSessionBindings kv allocations state = .ok bindings) :
    materializeSessionBindings kv' allocations state = .ok bindings := by
  have hkv := (kv.valid_iff).mp hvalid
  have hkv' := (kv'.valid_iff).mp hvalid'
  rw [materializeSessionBindings_of_valid hvalid] at hok
  rw [materializeSessionBindings_of_valid hvalid', ← h.launchBindings]
  have hone : ∀ record ∈ kv.launchBindings, ∃ binding,
      materializeOneBinding kv allocations record state = .ok binding := exists_of_mapM_ok hok
  have hcarried : ∀ record ∈ kv.launchBindings, ∃ view, Carries kv view record := by
    intro record hrecord
    obtain ⟨binding, hbinding⟩ := hone record hrecord
    obtain ⟨-, view, hview, -⟩ := (materializeOneBinding_ok_iff hkv).mp hbinding
    exact ⟨view, matchingStaticView_eq_some hview⟩
  refine mapM_ok_mono hok (fun record hrecord binding hbinding => ?_)
  obtain ⟨hdeclares, view, hview, -⟩ := (materializeOneBinding_ok_iff hkv).mp hbinding
  have hcarries := h.carries.mp (matchingStaticView_eq_some hview)
  obtain ⟨first, hfirst⟩ := exists_matchingStaticView hcarries
  have hfirstCarries := h.carries.mpr (matchingStaticView_eq_some hfirst)
  refine (materializeOneBinding_ok_iff hkv').mpr ⟨h.declares hdeclares, first, hfirst, ?_⟩
  refine (hdeclares.viewSpan_le_iff hfirstCarries).mpr (fun hscaled hexceeds => ?_)
  -- a record of the same source that no view of the plan carries was materialized
  obtain ⟨other, hother, hsource, hall⟩ := hfree hcarried record.runtimeSource hscaled
    (rowsOf state record.runtimeSource) ⟨record, hrecord, rfl, first, hfirstCarries, hexceeds⟩
  obtain ⟨otherBinding, hotherBinding⟩ := hone other hother
  obtain ⟨hotherDeclares, otherView, hotherView, hle⟩ :=
    (materializeOneBinding_ok_iff hkv).mp hotherBinding
  have hotherCarries := matchingStaticView_eq_some hotherView
  have hotherScaled : Scaled other := by
    unfold Scaled
    rwa [hsource]
  have hfits := (hotherDeclares.viewSpan_le_iff hotherCarries).mp hle hotherScaled
  rw [hsource] at hfits
  exact hfits (hall otherView hotherCarries)

end SamePlan

/-! ## Rearranging the views -/

/-- The plan with its views sorted by a rank. -/
def arranged (rank : DescriptorView → Nat) (kv : KvCacheDescriptor) : KvCacheDescriptor :=
  { kv with views := sortByKey rank kv.views }

def narrowFirst (view : DescriptorView) : Nat := view.maximumSpan.toNat

def wideFirst (view : DescriptorView) : Nat := 2 ^ 64 - view.maximumSpan.toNat

section Arranged

variable {kv : KvCacheDescriptor} {rank : DescriptorView → Nat}

theorem samePlan_arranged : SamePlan kv (arranged rank kv) :=
  ⟨.refl _, (sortByKey_perm _ _).symm, rfl⟩

theorem addressable_arranged (h : kv.Addressable) : (arranged rank kv).Addressable := by
  have hperm := sortByKey_perm rank kv.views
  refine ⟨h.allocations, ?_, fun view hview => h.ranks view (hperm.mem_iff.mp hview),
    h.launchBindings⟩
  rw [arranged, hperm.length_eq]
  exact h.views

theorem staticGraphBytes_arranged
    (hrank : ∀ a b : DescriptorView, viewOrder a = viewOrder b → rank a = rank b) :
    (arranged rank kv).staticGraphBytes = kv.staticGraphBytes := by
  have hsorted : sortByKey viewOrder (sortByKey rank kv.views) = sortByKey viewOrder kv.views := by
    refine sortByKey_congr (fun key => sortByKey_filter rank (fun a b ha hb => hrank a b ?_) _)
    simp only [decide_eq_true_eq] at ha hb
    rw [ha, hb]
  simp only [arranged, KvCacheDescriptor.staticGraphBytes, hsorted]

theorem viewOrder_maximumSpan {a b : DescriptorView} (h : viewOrder a = viewOrder b) :
    a.maximumSpan.toNat = b.maximumSpan.toNat :=
  congrArg (fun key => (ofLex (ofLex (ofLex key).2).2).1) h

theorem rank_matchingStaticView_le {record : DescriptorLaunchBinding} {first view : DescriptorView}
    (hfirst : matchingStaticView (arranged rank kv) record = some first)
    (hview : Carries kv view record) : rank first ≤ rank view :=
  rank_find?_le (sortByKey_sorted rank kv.views) hfirst
    ((sortByKey_perm rank kv.views).mem_iff.mpr hview.1) hview.2

end Arranged

/-! ## A row count that tells two orders apart -/

/-- A handle for each allocation. -/
def plainAllocations (kv : KvCacheDescriptor) : List (UInt32 × DeviceHandle) :=
  kv.allocations.map (fun allocation =>
    (allocation.bufferId, ⟨.metal, .buffer allocation.capacityBytes, allocation.bufferId.toNat⟩))

/-- The first position, with that many rows of a source and one of the other. -/
def rowsState (source : DescriptorRuntimeSource) (rows : UInt32) : DescriptorInvocationState where
  position := 0
  validLenAfter := if source = .validLenAfter then rows else 1
  queryRows := if source = .queryRows then rows else 1
  sequenceEpoch := 0

theorem exists_allocationHandle {kv : KvCacheDescriptor} {allocation : DescriptorAllocation}
    (h : allocation ∈ kv.allocations) :
    ∃ handle, allocationHandle (plainAllocations kv) allocation.bufferId = .ok handle := by
  have hmem := List.mem_map_of_mem (f := fun a : DescriptorAllocation =>
    (a.bufferId, (⟨.metal, .buffer a.capacityBytes, a.bufferId.toNat⟩ : DeviceHandle))) h
  obtain ⟨entry, hentry, -⟩ := exists_find?_key Prod.fst hmem
  refine ⟨entry.2, ?_⟩
  unfold allocationHandle plainAllocations
  rw [hentry]

/-- The row step of an allocation with a view is some view's span, and no view's is less. -/
theorem rowStepBytes_of_carries {kv : KvCacheDescriptor} (hkv : kv.Rules)
    {record : DescriptorLaunchBinding} {view : DescriptorView} (h : Carries kv view record) :
    ∃ rowStep, rowStepBytes kv record.handle = some rowStep ∧ rowStep ≠ 0 ∧
      ∀ view, Carries kv view record → rowStep ≤ view.maximumSpan := by
  have hspan : ∀ {view}, Carries kv view record →
      view.maximumSpan ∈ (kv.views.filter (·.allocationId == record.handle)).map (·.maximumSpan) := by
    intro view hcarries
    have hmatch := hcarries.2
    simp only [viewMatches, decide_eq_true_eq] at hmatch
    exact List.mem_map_of_mem (List.mem_filter.mpr ⟨hcarries.1, by simp [hmatch.1]⟩)
  obtain ⟨rowStep, hstep⟩ := Option.isSome_iff_exists.mp (List.isSome_min?_of_mem (hspan h))
  obtain ⟨hmem, hleast⟩ := List.min?_eq_some_iff.mp hstep
  obtain ⟨least, hleastMem, rfl⟩ := List.mem_map.mp hmem
  exact ⟨_, hstep, (hkv.views least (List.mem_filter.mp hleastMem).1).span,
    fun view hcarries => hleast _ (hspan hcarries)⟩

/-- At the first position a record with a carrying view it does not exceed is bound. -/
theorem exists_declares {kv : KvCacheDescriptor} (hkv : kv.Rules) {record : DescriptorLaunchBinding}
    (hrecord : record ∈ kv.launchBindings) {view : DescriptorView} (hcarries : Carries kv view record)
    {state : DescriptorInvocationState} (hposition : state.position = 0)
    (hrows : Scaled record → rowsOf state record.runtimeSource ≠ 0 ∧
      ¬ Exceeds kv record (rowsOf state record.runtimeSource) view) :
    ∃ binding, Declares kv (plainAllocations kv) record state binding := by
  obtain ⟨rowStep, hstep, hstepZero, -⟩ := rowStepBytes_of_carries hkv hcarries
  have hfits := hkv.bindings record hrecord
  obtain ⟨allocation, hallocation, hid, -⟩ := hfits.inside
  obtain ⟨handle, hhandle⟩ := exists_allocationHandle hallocation
  rw [hid] at hhandle
  suffices henvelope : ∃ offset span, declaredEnvelope record state rowStep = some (offset, span) ∧
      span ≠ 0 ∧ kv.Inside record.handle offset span by
    obtain ⟨offset, span, hdeclared, hzero, hinside⟩ := henvelope
    exact ⟨⟨handle, record.bindingIndex, offset, span, record.runtimeSource⟩, hhandle, rfl, rfl,
      ⟨rowStep, hstep, hdeclared⟩, hzero, hinside⟩
  by_cases hscaled : Scaled record
  · obtain ⟨hsome, hwithin⟩ := hrows hscaled
    have hle : (rowsOf state record.runtimeSource).toNat * rowStep.toNat ≤ view.maximumSpan.toNat := by
      by_contra hlt
      exact hwithin ⟨rowStep, hstep, by omega⟩
    have hmatch := hcarries.2
    simp only [viewMatches, decide_eq_true_eq] at hmatch
    obtain ⟨arena, harena, harenaId, hend⟩ := (hkv.views view hcarries.1).inside
    obtain ⟨span, hspan⟩ : ∃ span, checkedMul (rowsOf state record.runtimeSource).toUInt64 rowStep =
        some span := by
      have hlt := view.maximumSpan.toNat_lt
      refine ⟨_, mulU64_of_fits true ?_⟩
      rw [UInt32.toNat_toUInt64]
      omega
    have hexact := checkedMul_eq_some_iff.mp hspan
    rw [UInt32.toNat_toUInt64] at hexact
    refine ⟨record.byteOffset, span, ?_, ?_, arena, harena, harenaId.trans hmatch.1, ?_⟩
    · unfold declaredEnvelope
      rcases hscaled with hsource | hsource
      · simp only [hsource, rowsOf] at hspan ⊢
        rw [hspan]
        rfl
      · simp only [hsource, rowsOf] at hspan ⊢
        rw [hspan]
        rfl
    · intro hspanZero
      rw [hspanZero] at hexact
      rcases Nat.mul_eq_zero.mp hexact.symm with hrowsZero | hstepNat
      · exact hsome (UInt32.toNat_inj.mp hrowsZero)
      · exact hstepZero (UInt64.toNat_inj.mp hstepNat)
    · rw [← hmatch.2.1]
      omega
  · refine ⟨record.byteOffset, record.viewSpan, ?_, hfits.span, hfits.inside⟩
    unfold declaredEnvelope
    cases hsource : record.runtimeSource with
    | constant => rfl
    | sequenceEpoch => rfl
    | validLenAfter => exact absurd (.inl hsource) hscaled
    | queryRows => exact absurd (.inr hsource) hscaled
    | position =>
      have hmul : checkedMul state.position.toUInt64 rowStep = some 0 := by
        rw [checkedMul_eq_some_iff, hposition]
        simp
      have hadd : checkedAdd record.byteOffset 0 = some record.byteOffset := by
        rw [checkedAdd_eq_some_iff]
        simp
      simp only [hmul, Option.bind_some, hadd, Option.map_some]

theorem rowsOf_rowsState_self {source : DescriptorRuntimeSource}
    (hsource : source = .validLenAfter ∨ source = .queryRows) (rows : UInt32) :
    rowsOf (rowsState source rows) source = rows := by
  rcases hsource with rfl | rfl <;> rfl

theorem rowsOf_rowsState_other {source other : DescriptorRuntimeSource} (hne : other ≠ source)
    (hother : other = .validLenAfter ∨ other = .queryRows) (rows : UInt32) :
    rowsOf (rowsState source rows) other = 1 := by
  rcases hother with rfl | rfl
  · simp [rowsState, rowsOf, hne.symm]
  · simp [rowsState, rowsOf, hne.symm]

section Apart

variable {kv : KvCacheDescriptor} {source : DescriptorRuntimeSource} {rows : UInt32}

theorem materialize_narrow_fails (hvalid : kv.Valid)
    (hsource : source = .validLenAfter ∨ source = .queryRows)
    {record : DescriptorLaunchBinding} (hrecord : record ∈ kv.launchBindings)
    (hrecordSource : record.runtimeSource = source) {view : DescriptorView}
    (hview : Carries kv view record) (hexceeds : Exceeds kv record rows view)
    (allocations : List (UInt32 × DeviceHandle)) (bindings : List DeviceLaunchBinding) :
    materializeSessionBindings (arranged narrowFirst kv) allocations (rowsState source rows) ≠
      .ok bindings := by
  intro hok
  have hsame : SamePlan kv (arranged narrowFirst kv) := samePlan_arranged
  have hkv := hsame.rules (kv.valid_iff.mp hvalid)
  rw [materializeSessionBindings_of_valid ((KvCacheDescriptor.valid_iff _).mpr hkv)] at hok
  obtain ⟨binding, hbinding⟩ := exists_of_mapM_ok hok record hrecord
  obtain ⟨hdeclares, first, hfirst, hle⟩ := (materializeOneBinding_ok_iff hkv).mp hbinding
  have hscaled : Scaled record := by
    unfold Scaled
    rwa [hrecordSource]
  have hfits := (hdeclares.viewSpan_le_iff (matchingStaticView_eq_some hfirst)).mp hle hscaled
  rw [hrecordSource, rowsOf_rowsState_self hsource, ← hsame.exceeds] at hfits
  obtain ⟨rowStep, hstep, hlt⟩ := hexceeds
  have hnarrow : first.maximumSpan.toNat ≤ view.maximumSpan.toNat :=
    rank_matchingStaticView_le hfirst hview
  exact hfits ⟨rowStep, hstep, by omega⟩

/-- Wide views first, every record with a view it does not exceed is bound. -/
theorem materialize_wide_returns (hvalid : kv.Valid)
    (hsource : source = .validLenAfter ∨ source = .queryRows) (hrows : rows ≠ 0)
    (hcarried : ∀ record ∈ kv.launchBindings, ∃ view, Carries kv view record)
    (hwithin : ∀ record ∈ kv.launchBindings, record.runtimeSource = source →
      ∃ view, Carries kv view record ∧ ¬ Exceeds kv record rows view) :
    ∃ bindings, materializeSessionBindings (arranged wideFirst kv) (plainAllocations kv)
      (rowsState source rows) = .ok bindings := by
  have hsame : SamePlan kv (arranged wideFirst kv) := samePlan_arranged
  have hkv := kv.valid_iff.mp hvalid
  have hkvWide := hsame.rules hkv
  rw [materializeSessionBindings_of_valid ((KvCacheDescriptor.valid_iff _).mpr hkvWide)]
  refine mapM_returns (fun record hrecord => ?_)
  obtain ⟨view, hview⟩ := hcarried record hrecord
  obtain ⟨first, hfirst⟩ := exists_matchingStaticView (hsame.carries.mp hview)
  have hfirstWide := matchingStaticView_eq_some hfirst
  have hfirstCarries := hsame.carries.mpr hfirstWide
  have hfits : Scaled record → rowsOf (rowsState source rows) record.runtimeSource ≠ 0 ∧
      ¬ Exceeds kv record (rowsOf (rowsState source rows) record.runtimeSource) first := by
    intro hscaled
    by_cases hsame : record.runtimeSource = source
    · rw [hsame, rowsOf_rowsState_self hsource]
      obtain ⟨wide, hwide, hle⟩ := hwithin record hrecord hsame
      refine ⟨hrows, ?_⟩
      rintro ⟨rowStep, hstep, hlt⟩
      have hwidest : wideFirst first ≤ wideFirst wide := rank_matchingStaticView_le hfirst hwide
      have hbound := first.maximumSpan.toNat_lt
      have hbound' := wide.maximumSpan.toNat_lt
      unfold wideFirst at hwidest
      exact hle ⟨rowStep, hstep, by omega⟩
    · rw [rowsOf_rowsState_other hsame hscaled]
      refine ⟨by decide, ?_⟩
      -- one row of the allocation fits every view of it
      obtain ⟨least, hleast, -, hall⟩ := rowStepBytes_of_carries hkv hfirstCarries
      rintro ⟨rowStep, hstep, hlt⟩
      obtain rfl : least = rowStep := by
        rw [hleast] at hstep
        exact Option.some.inj hstep
      have hle := UInt64.le_iff_toNat_le.mp (hall first hfirstCarries)
      simp only [UInt32.toNat_one, one_mul] at hlt
      omega
  obtain ⟨binding, hdeclares⟩ := exists_declares hkv hrecord hfirstCarries rfl hfits
  refine ⟨binding, (materializeOneBinding_ok_iff hkvWide).mpr ⟨hsame.declares hdeclares, first,
    hfirst, (hdeclares.viewSpan_le_iff hfirstCarries).mpr (fun hscaled => (hfits hscaled).2)⟩⟩

end Apart

/-- The static identity of a plan decides what it materializes exactly when no row count
    tells two orders of its views apart. -/
theorem identity_decides_bindings_iff (kv : KvCacheDescriptor) (hvalid : kv.Valid)
    (haddressable : kv.Addressable) :
    (∀ kv' : KvCacheDescriptor, kv'.Valid → kv'.Addressable →
      kv'.staticGraphBytes = kv.staticGraphBytes → ∀ allocations state,
        (materializeSessionBindings kv allocations state).toOption =
          (materializeSessionBindings kv' allocations state).toOption) ↔ OrderFree kv := by
  constructor
  · intro hdecides hcarried source hsource rows hsome
    obtain ⟨record, hrecord, hrecordSource, view, hview, hexceeds⟩ := hsome
    by_contra hnone
    have hwithin : ∀ record ∈ kv.launchBindings, record.runtimeSource = source →
        ∃ view, Carries kv view record ∧ ¬ Exceeds kv record rows view := by
      intro record hrecord hrecordSource
      by_contra hall
      push Not at hall
      exact hnone ⟨record, hrecord, hrecordSource, hall⟩
    have hrows : rows ≠ 0 := by
      rintro rfl
      obtain ⟨rowStep, -, hlt⟩ := hexceeds
      simp at hlt
    have harranged : ∀ rank : DescriptorView → Nat,
        (∀ a b : DescriptorView, viewOrder a = viewOrder b → rank a = rank b) →
          (materializeSessionBindings kv (plainAllocations kv) (rowsState source rows)).toOption =
            (materializeSessionBindings (arranged rank kv) (plainAllocations kv)
              (rowsState source rows)).toOption := fun rank hrank =>
      hdecides _ ((KvCacheDescriptor.valid_iff _).mpr (samePlan_arranged.rules (kv.valid_iff.mp hvalid)))
        (addressable_arranged haddressable) (staticGraphBytes_arranged hrank) _ _
    obtain ⟨bindings, hwide⟩ := materialize_wide_returns hvalid hsource hrows hcarried hwithin
    have hnarrow := harranged narrowFirst (fun a b h => viewOrder_maximumSpan h)
    have hfits := harranged wideFirst (fun a b h => by
      unfold wideFirst
      rw [viewOrder_maximumSpan h])
    rw [hwide] at hfits
    rw [hfits] at hnarrow
    exact materialize_narrow_fails hvalid hsource hrecord hrecordSource hview hexceeds _ bindings
      (toOption_eq_some_iff.mp hnarrow.symm)
  · intro hfree kv' hvalid' haddressable' hbytes allocations state
    have hsame := samePlan_of_staticGraphBytes_eq haddressable haddressable' hbytes
    refine Option.ext (fun bindings => ?_)
    rw [toOption_eq_some_iff, toOption_eq_some_iff]
    constructor
    · exact hsame.materialize_of_orderFree hvalid hvalid' hfree
    · exact hsame.symm.materialize_of_orderFree hvalid' hvalid (hsame.orderFree.mp hfree)

/-! ## Two views of one base -/

/-- An arena of two rows of 64 bytes, seen row by row and whole. -/
def twoViewPlan (views : List DescriptorView) : KvCacheDescriptor where
  allocations := [⟨1, .f32, 128, .perProgram, .zeroFill⟩]
  views := views
  invocationState := ⟨0, 1, 1, 0⟩
  launchBindings := [⟨1, 0, 0, 64, .validLenAfter⟩]

def rowView : DescriptorView := ⟨1, [16], [4], 0, 64⟩

def arenaView : DescriptorView := ⟨1, [32], [4], 0, 128⟩

theorem twoViewPlan_swap :
    (twoViewPlan [arenaView, rowView]).staticGraphBytes =
      (twoViewPlan [rowView, arenaView]).staticGraphBytes := by
  have hdistinct : ([arenaView, rowView].map viewOrder).Nodup := by decide
  have hdistinct' : ([rowView, arenaView].map viewOrder).Nodup := by decide
  have hsorted : sortByKey viewOrder [arenaView, rowView] = sortByKey viewOrder [rowView, arenaView] := by
    have hmem : ∀ view, view ∈ (sortByKey viewOrder [arenaView, rowView]).map id ↔
        view ∈ (sortByKey viewOrder [rowView, arenaView]).map id := by
      intro view
      simp only [List.map_id, (sortByKey_perm _ _).mem_iff, List.mem_cons, List.not_mem_nil, or_false]
      exact or_comm
    rw [← List.map_id (sortByKey viewOrder [arenaView, rowView]),
      ← List.map_id (sortByKey viewOrder [rowView, arenaView])]
    exact (map_eq_map_iff_of_strict viewOrder (fun _ => rfl) (sortByKey_strict hdistinct)
      (sortByKey_strict hdistinct')).mpr hmem
  simp only [KvCacheDescriptor.staticGraphBytes, twoViewPlan, hsorted]

theorem identity_decides_bindings_rows :
    (∀ kv' : KvCacheDescriptor, kv'.Valid → kv'.Addressable →
      kv'.staticGraphBytes = (twoViewPlan [arenaView]).staticGraphBytes → ∀ allocations state,
        (materializeSessionBindings (twoViewPlan [arenaView]) allocations state).toOption =
          (materializeSessionBindings kv' allocations state).toOption) ↔
      OrderFree (twoViewPlan [arenaView]) :=
  identity_decides_bindings_iff (twoViewPlan [arenaView]) (by decide +kernel)
    ⟨by decide, by decide, by decide, by decide⟩

/-- Two rows fit the arena's view, not the row's: the plan that names the row's view first
    refuses what the other binds. -/
theorem view_order_decides_bindings :
    ¬ ∀ kv kv' : KvCacheDescriptor, kv.Valid → kv'.Valid → kv.Addressable → kv'.Addressable →
      kv'.staticGraphBytes = kv.staticGraphBytes → ∀ allocations state,
        (materializeSessionBindings kv allocations state).toOption =
          (materializeSessionBindings kv' allocations state).toOption := by
  intro h
  have heq := h (twoViewPlan [rowView, arenaView]) (twoViewPlan [arenaView, rowView])
    (by decide +kernel) (by decide +kernel) ⟨by decide, by decide, by decide, by decide⟩
    ⟨by decide, by decide, by decide, by decide⟩ twoViewPlan_swap
    [(1, ⟨.metal, .buffer 128, 0⟩)] ⟨0, 2, 1, 0⟩
  revert heq
  decide +kernel

end FaberHosts.Session
