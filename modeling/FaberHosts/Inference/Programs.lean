import FaberHosts.Descriptor.KvIdentity
import FaberHosts.Inference.Residency
import FaberHosts.Lib.Runs

/-!
# Invocation programs over one residency

`invocation_program.rs`: three static graphs admitted together with the residency
they share.  The admitted plan is taken apart into the residency; every call on
it changes the cursor and nothing the cache plan's identity reads.
-/

namespace FaberHosts.Inference
open FaberHosts.Lib FaberHosts.Descriptor

/-! ## Graphs and programs -/

def scalarDecodeQueryRows : UInt32 := 1

structure InvocationGraph where
  mode : InvocationMode
  queryRows : UInt32
  launchBindings : List DescriptorLaunchBinding
  deriving DecidableEq, Repr

structure SelectedProgram where
  graph : InvocationGraph
  handles : ResolvedHandles
  deriving DecidableEq, Repr

def SelectedProgram.queryRows (selected : SelectedProgram) : UInt32 := selected.graph.queryRows

structure AdmittedDescriptor where
  identity : ModelIdentity
  prefillArtifact : List UInt8
  decodeArtifact : List UInt8
  verificationArtifact : List UInt8
  verificationQueryRows : UInt32
  prefillQueryRows : UInt32
  weights : List DescriptorAllocation
  kv : KvCacheDescriptor
  invocationState : DescriptorAllocation
  capacity : UInt32
  deriving DecidableEq, Repr

structure InvocationPrograms where
  residency : SessionResidency
  prefill : InvocationGraph
  scalarDecode : InvocationGraph
  verification : InvocationGraph
  kv : KvCacheDescriptor
  moduleLoads : UInt32
  compiles : UInt32
  deriving DecidableEq, Repr

/-! ## Admission -/

def admitKvPlan (kv : KvCacheDescriptor) : Except SessionError Unit :=
  kv.validate.mapError (fun err => .invalidArgs s!"admitted KV descriptor: {err.message}")

/-- The prefix and the append view of an arena: the wider one is the prefix. -/
def splitPrefixAppend (views : List DescriptorView) (allocation : DescriptorAllocation) :
    Except SessionError (DescriptorView × DescriptorView) :=
  match views.filter (·.allocationId = allocation.bufferId) with
  | [first, second] =>
    if first.maximumSpan = second.maximumSpan then
      .error (.invalidArgs (s!"allocation {allocation.bufferId} prefix and append views have " ++
        "the same span"))
    else if second.maximumSpan < first.maximumSpan then .ok (first, second)
    else .ok (second, first)
  | owned =>
    .error (.invalidArgs (s!"allocation {allocation.bufferId} must expose prefix and append " ++
      s!"views; found {owned.length}"))

def sequenceSpecFromKv (kv : KvCacheDescriptor) (invocationState : DescriptorAllocation)
    (capacity : UInt32) : Except SessionError SequenceSpec :=
  match kv.allocations with
  | [kArena, vArena] => do
    let (kPrefix, kAppend) ← splitPrefixAppend kv.views kArena
    let (vPrefix, vAppend) ← splitPrefixAppend kv.views vArena
    return {
      kArena := kArena
      vArena := vArena
      kPrefix := kPrefix
      kAppend := kAppend
      vPrefix := vPrefix
      vAppend := vAppend
      invocationState := invocationState
      capacity := capacity }
  | allocations =>
    .error (.invalidArgs ("admitted KV plan must declare exactly two cache allocations; found " ++
      s!"{allocations.length}"))

namespace InvocationPrograms

/-- The row counts and the cursor of a descriptor, before its plan is looked at. -/
def admitCounts (descriptor : AdmittedDescriptor) : Except SessionError Unit :=
  if descriptor.prefillQueryRows = 0 then
    .error (.invalidArgs "prefill query_rows (M=T) must be at least 1")
  else if descriptor.verificationArtifact = [] then
    .error (.invalidArgs "verification artifact must be materialized before first invocation")
  else if descriptor.verificationQueryRows = 0 then
    .error (.invalidArgs "verification query_rows must be at least 1")
  else if descriptor.capacity < descriptor.verificationQueryRows then
    .error (.invalidArgs (s!"verification M={descriptor.verificationQueryRows} exceeds capacity " ++
      s!"{descriptor.capacity}"))
  else if descriptor.capacity < descriptor.prefillQueryRows then
    .error (.invalidArgs (s!"prefill M={descriptor.prefillQueryRows} exceeds capacity " ++
      s!"{descriptor.capacity}"))
  else if descriptor.kv.invocationState ≠ ⟨0, 0, 0, 0⟩ then
    .error (.invalidArgs "admitted KV plan must not carry live cursor values")
  else
    .ok ()

/-- The programs of a descriptor over their residency. -/
def overResidency (descriptor : AdmittedDescriptor) (residency : SessionResidency) :
    InvocationPrograms where
  residency := residency
  prefill := ⟨.prefill, descriptor.prefillQueryRows, descriptor.kv.launchBindings⟩
  scalarDecode := ⟨.scalarDecode, scalarDecodeQueryRows, descriptor.kv.launchBindings⟩
  verification := ⟨.verification, descriptor.verificationQueryRows, descriptor.kv.launchBindings⟩
  kv := descriptor.kv
  moduleLoads := 3
  compiles := 3

end InvocationPrograms

/-- All graphs and the shared residency, prepared before any invocation. -/
def InvocationPrograms.admit (descriptor : AdmittedDescriptor) :
    Call UInt64 SessionError InvocationPrograms := do
  Call.lift (some (admitCounts descriptor))
  Call.lift (some (admitKvPlan descriptor.kv))
  let sequence ← Call.lift (some
    (sequenceSpecFromKv descriptor.kv descriptor.invocationState descriptor.capacity))
  let residency ← SessionResidency.prepare
    { identity := descriptor.identity
      prefillArtifact := descriptor.prefillArtifact
      decodeArtifact := descriptor.decodeArtifact
      verificationArtifact := descriptor.verificationArtifact
      weights := descriptor.weights } sequence
  return overResidency descriptor residency

/-! ## Invocation -/

namespace InvocationPrograms

/-- Explicit selection; the sequence length is not consulted. -/
def select (programs : InvocationPrograms) (mode : InvocationMode) : SelectedProgram where
  graph :=
    match mode with
    | .prefill => programs.prefill
    | .scalarDecode => programs.scalarDecode
    | .verification => programs.verification
  handles := programs.residency.resolve mode

/-- Begin the selected program at its declared row count. -/
def beginSelected (programs : InvocationPrograms) (mode : InvocationMode) :
    Except SessionError PlannedInvocation :=
  programs.residency.beginInvocation mode (programs.select mode).queryRows

def onResidency {α : Type} (c : Call SessionResidency SessionError α) :
    Call InvocationPrograms SessionError α :=
  Call.within InvocationPrograms.residency (fun p r => { p with residency := r }) c

def commit (plan : PlannedInvocation) : Call InvocationPrograms SessionError CursorFacts :=
  onResidency (SessionResidency.commit plan)

end InvocationPrograms

/-! ## Calls on the programs and their residency -/

/-- A call; plans and transactions are whatever the caller holds. -/
inductive ProgramsOp where
  | beginSelected (mode : InvocationMode)
  | beginInvocation (mode : InvocationMode) (queryRows : UInt32)
  | beginTransaction (mode : InvocationMode) (queryRows : UInt32)
  | commit (plan : PlannedInvocation)
  | commitTransaction (tx : InvocationTransaction)
  | fail (tx : InvocationTransaction)
  | abortPreDispatch (tx : InvocationTransaction)
  | logicalReset
  | release
  deriving DecidableEq, Repr

namespace InvocationPrograms

/-- A call that reads the programs, without its answer. -/
def asked {α : Type} (answer : InvocationPrograms → Except SessionError α) :
    Call InvocationPrograms SessionError Unit := do
  let programs ← Call.get
  let _ ← Call.lift (some (answer programs))

/-- A call without its answer. -/
def unanswered {α : Type} (c : Call InvocationPrograms SessionError α) :
    Call InvocationPrograms SessionError Unit := do
  let _ ← c

def call : ProgramsOp → Call InvocationPrograms SessionError Unit
  | .beginSelected mode => asked (·.beginSelected mode)
  | .beginInvocation mode queryRows => asked (·.residency.beginInvocation mode queryRows)
  | .beginTransaction mode queryRows => asked (·.residency.beginTransaction mode queryRows)
  | .commit plan => unanswered (commit plan)
  | .commitTransaction tx => unanswered (onResidency (SessionResidency.commitTransaction tx))
  | .fail tx => unanswered (onResidency (SessionResidency.fail tx))
  | .abortPreDispatch tx => asked (·.residency.abortPreDispatch tx)
  | .logicalReset => unanswered (onResidency SessionResidency.logicalReset)
  | .release => unanswered (onResidency SessionResidency.release)

def step (programs : InvocationPrograms) (op : ProgramsOp) : Option InvocationPrograms :=
  (call op programs).map Prod.snd

end InvocationPrograms

/-! ## What a call changes -/

namespace SequenceResidency

/-- Only the cursor and the sequence state differ. -/
def Moved (r t : SequenceResidency) : Prop :=
  ∃ cursor state, t = { r with invocationState := cursor, state := state }

theorem moved_identity {r t : SequenceResidency} (h : Moved r t) :
    t.cachePlan.staticGraphBytes = r.cachePlan.staticGraphBytes := by
  obtain ⟨cursor, state, rfl⟩ := h
  rfl

theorem onState_moves {α : Type} {c : Call InferenceSessionState SessionError α}
    {P : α → InferenceSessionState → Prop} {R : SessionError → InferenceSessionState → Prop}
    {r : SequenceResidency} (hspec : Call.wp False c P R r.state) :
    Call.wp False (onState c) (fun _ => Moved r) (fun _ => Moved r) r := by
  rw [onState, Call.wp_within]
  exact Call.wp_mono hspec (fun _ state _ => ⟨r.invocationState, state, rfl⟩)
    (fun _ state _ => ⟨r.invocationState, state, rfl⟩)

theorem commit_moves (plan : PlannedInvocation) (r : SequenceResidency) :
    Call.wp False (commit plan) (fun _ => Moved r) (fun _ => Moved r) r := by
  rw [commit, Call.wp_bind]
  refine Call.wp_mono (onState_moves (InferenceSessionState.commit_spec plan r.state)) ?_
    (fun _ _ h => h)
  rintro facts t ⟨cursor, state, rfl⟩
  exact ⟨_, state, rfl⟩

theorem logicalReset_moves (r : SequenceResidency) :
    Call.wp False logicalReset (fun _ => Moved r) (fun _ => Moved r) r := by
  rw [logicalReset, Call.wp_bind]
  refine Call.wp_mono (onState_moves (InferenceSessionState.logicalReset_spec r.state)) ?_
    (fun _ _ h => h)
  rintro receipt t ⟨cursor, state, rfl⟩
  exact ⟨_, state, rfl⟩

theorem fail_moves (tx : InvocationTransaction) (r : SequenceResidency) :
    Call.wp False (fail tx) (fun _ => Moved r) (fun _ => Moved r) r :=
  onState_moves (InferenceSessionState.fail_spec tx r.state)

theorem release_moves (r : SequenceResidency) :
    Call.wp False release (fun _ => Moved r) (fun _ => Moved r) r :=
  onState_moves (InferenceSessionState.release_spec r.state)

end SequenceResidency

namespace SessionResidency

/-- The model and the arenas are as they were. -/
def Kept (r t : SessionResidency) : Prop :=
  t.model = r.model ∧ SequenceResidency.Moved r.sequence t.sequence

theorem onSequence_keeps {α : Type} {c : Call SequenceResidency SessionError α}
    {r : SessionResidency}
    (hmoves : Call.wp False c (fun _ => SequenceResidency.Moved r.sequence)
      (fun _ => SequenceResidency.Moved r.sequence) r.sequence) :
    Call.wp False (onSequence c) (fun _ => Kept r) (fun _ => Kept r) r := by
  rw [onSequence, Call.wp_within]
  exact Call.wp_mono hmoves (fun _ _ h => ⟨rfl, h⟩) (fun _ _ h => ⟨rfl, h⟩)

theorem logicalReset_keeps (r : SessionResidency) :
    Call.wp False logicalReset (fun _ => Kept r) (fun _ => Kept r) r := by
  rw [logicalReset, Call.wp_bind]
  exact Call.wp_mono (onSequence_keeps (SequenceResidency.logicalReset_moves r.sequence))
    (fun _ _ h => h) (fun _ _ h => h)

theorem release_keeps (r : SessionResidency) :
    Call.wp False release (fun _ => Kept r) (fun _ => Kept r) r := by
  rw [release, Call.wp_bind]
  refine Call.wp_mono (onSequence_keeps (SequenceResidency.release_moves r.sequence)) ?_
    (fun _ _ h => h)
  intro _ t hkept
  rw [Call.wp_modify]
  split
  · exact hkept
  · exact hkept

end SessionResidency

namespace InvocationPrograms

/-- The graphs, the admitted plan, the model and the arenas are as they were. -/
def Kept (p q : InvocationPrograms) : Prop :=
  q = { p with residency := q.residency } ∧ SessionResidency.Kept p.residency q.residency

theorem Kept.refl (p : InvocationPrograms) : Kept p p := ⟨rfl, rfl, _, _, rfl⟩

theorem Kept.trans {p q t : InvocationPrograms} (h : Kept p q) (h' : Kept q t) : Kept p t := by
  obtain ⟨hq, hmodel, cursor, state, hsequence⟩ := h
  obtain ⟨ht, hmodel', cursor', state', hsequence'⟩ := h'
  refine ⟨?_, hmodel'.trans hmodel, cursor', state', ?_⟩
  · rw [hq] at ht
    exact ht
  · rw [hsequence', hsequence]

theorem unanswered_keeps {α : Type} {c : Call SessionResidency SessionError α}
    {p : InvocationPrograms}
    (hkeeps : Call.wp False c (fun _ => SessionResidency.Kept p.residency)
      (fun _ => SessionResidency.Kept p.residency) p.residency) :
    Call.wp False (unanswered (onResidency c)) (fun _ => Kept p) (fun _ => Kept p) p := by
  rw [unanswered, Call.wp_bind, onResidency, Call.wp_within]
  exact Call.wp_mono hkeeps (fun _ _ h => ⟨rfl, h⟩) (fun _ _ h => ⟨rfl, h⟩)

theorem asked_keeps {α : Type} (answer : InvocationPrograms → Except SessionError α)
    (p : InvocationPrograms) :
    Call.wp False (asked answer) (fun _ => Kept p) (fun _ => Kept p) p := by
  rw [asked, Call.wp_bind, Call.wp_get]
  exact Call.wp_of_check (fun _ _ => .refl p) (fun _ _ => .refl p)

theorem call_keeps (op : ProgramsOp) (p : InvocationPrograms) :
    Call.wp False (call op) (fun _ => Kept p) (fun _ => Kept p) p := by
  have hcommit := fun plan : PlannedInvocation =>
    unanswered_keeps (SessionResidency.onSequence_keeps
      (SequenceResidency.commit_moves plan p.residency.sequence))
  cases op with
  | beginSelected mode => exact asked_keeps _ p
  | beginInvocation mode queryRows => exact asked_keeps _ p
  | beginTransaction mode queryRows => exact asked_keeps _ p
  | commit plan => exact hcommit plan
  | commitTransaction tx => exact hcommit tx.plan
  | fail tx =>
    exact unanswered_keeps (SessionResidency.onSequence_keeps
      (SequenceResidency.fail_moves tx p.residency.sequence))
  | abortPreDispatch tx => exact asked_keeps _ p
  | logicalReset => exact unanswered_keeps (SessionResidency.logicalReset_keeps p.residency)
  | release => exact unanswered_keeps (SessionResidency.release_keeps p.residency)

theorem step_keeps (p : InvocationPrograms) (op : ProgramsOp) :
    ∃ q, step p op = some q ∧ Kept p q := by
  obtain ⟨answer, q, hcall⟩ := Call.wp_returns (call_keeps op p)
  refine ⟨q, by rw [step, hcall]; rfl, ?_⟩
  exact Call.wp_of_some (call_keeps op p) hcall

theorem run_keeps (ops : List ProgramsOp) (p : InvocationPrograms) :
    ∃ q, runSteps step p ops = some q ∧ Kept p q := by
  induction ops generalizing p with
  | nil => exact ⟨p, rfl, .refl p⟩
  | cons op rest ih =>
    obtain ⟨q, hq, hkept⟩ := step_keeps p op
    obtain ⟨t, ht, hrest⟩ := ih q
    refine ⟨t, ?_, hkept.trans hrest⟩
    rw [runSteps, hq]
    exact ht

end InvocationPrograms

/-! ## What admission says of the plan -/

theorem residentWeights_returns (weights : List DescriptorAllocation) (next : UInt64) :
    Call.wp False (residentWeights weights) (fun _ _ => True) (fun _ _ => True) next := by
  induction weights generalizing next with
  | nil => trivial
  | cons weight rest ih =>
    rw [residentWeights, Call.wp_bind]
    refine Call.wp_mono (ResidentAllocation.new_spec weight next) ?_ (fun _ _ h => h)
    intro resident next' _
    rw [Call.wp_bind]
    exact Call.wp_mono (ih next') (fun _ _ h => h) (fun _ _ h => h)

theorem ModelResidency.prepare_returns (spec : ModelSpec) (next : UInt64) :
    Call.wp False (ModelResidency.prepare spec) (fun _ _ => True) (fun _ _ => True) next := by
  unfold ModelResidency.prepare
  split_ifs
  · trivial
  · trivial
  · trivial
  · trivial
  · trivial
  · rw [Call.wp_bind]
    refine Call.wp_mono (residentWeights_returns spec.weights next) ?_ (fun _ _ h => h)
    intro weights next' _
    exact Call.wp_of_check (fun _ _ => trivial) (fun _ _ => trivial)

theorem SessionResidency.prepare_spec (model : ModelSpec) (sequence : SequenceSpec)
    (next : UInt64) :
    Call.wp False (SessionResidency.prepare model sequence)
      (fun r _ => SequenceResidency.Prepared sequence r.sequence) (fun _ _ => True) next := by
  rw [SessionResidency.prepare, Call.wp_bind]
  refine Call.wp_mono (ModelResidency.prepare_returns model next) ?_ (fun _ _ h => h)
  intro model next' _
  rw [Call.wp_bind]
  refine Call.wp_mono (SequenceResidency.prepare_spec sequence next') ?_ (fun _ _ h => h)
  intro prepared next'' hprepared
  rw [Call.wp_lift]
  refine ⟨nofun, fun r hr => ?_, fun _ _ => trivial⟩
  have hcompose : SessionResidency.compose model prepared = .ok r := Option.some.inj hr
  rw [SessionResidency.compose] at hcompose
  obtain ⟨_, -, hok⟩ := bind_ok_iff.mp hcompose
  cases hok
  exact hprepared

theorem splitPrefixAppend_ok {views : List DescriptorView} {allocation : DescriptorAllocation}
    {wide narrow : DescriptorView}
    (h : splitPrefixAppend views allocation = .ok (wide, narrow)) :
    (views.filter (·.allocationId = allocation.bufferId)).Perm [wide, narrow] ∧
      wide.maximumSpan ≠ narrow.maximumSpan := by
  unfold splitPrefixAppend at h
  split at h
  · rename_i first second howned
    rw [howned]
    by_cases hsame : first.maximumSpan = second.maximumSpan
    · rw [if_pos hsame] at h
      cases h
    · rw [if_neg hsame] at h
      by_cases hlt : second.maximumSpan < first.maximumSpan
      · rw [if_pos hlt] at h
        cases h
        exact ⟨.refl _, hsame⟩
      · rw [if_neg hlt] at h
        cases h
        exact ⟨.swap _ _ _, Ne.symm hsame⟩
  · cases h

/-- The four views of a validated plan of two arenas, and what tells them apart. -/
structure TakenApart (kv : KvCacheDescriptor) (spec : SequenceSpec) : Prop where
  allocations : kv.allocations = [spec.kArena, spec.vArena]
  kViews : (kv.views.filter (·.allocationId = spec.kArena.bufferId)).Perm
    [spec.kPrefix, spec.kAppend]
  kSpans : spec.kPrefix.maximumSpan ≠ spec.kAppend.maximumSpan
  vViews : (kv.views.filter (·.allocationId = spec.vArena.bufferId)).Perm
    [spec.vPrefix, spec.vAppend]
  vSpans : spec.vPrefix.maximumSpan ≠ spec.vAppend.maximumSpan

theorem sequenceSpecFromKv_ok {kv : KvCacheDescriptor} {invocationState : DescriptorAllocation}
    {capacity : UInt32} {spec : SequenceSpec}
    (h : sequenceSpecFromKv kv invocationState capacity = .ok spec) : TakenApart kv spec := by
  unfold sequenceSpecFromKv at h
  split at h
  · rename_i kArena vArena hallocations
    obtain ⟨⟨kPrefix, kAppend⟩, hk, h⟩ := bind_ok_iff.mp h
    obtain ⟨⟨vPrefix, vAppend⟩, hv, h⟩ := bind_ok_iff.mp h
    cases h
    obtain ⟨hkViews, hkSpans⟩ := splitPrefixAppend_ok hk
    obtain ⟨hvViews, hvSpans⟩ := splitPrefixAppend_ok hv
    exact ⟨hallocations, hkViews, hkSpans, hvViews, hvSpans⟩
  · cases h

/-! ## The identity of the cache plan -/

theorem viewOrder_inj {view view' : DescriptorView} (h : viewOrder view = viewOrder view') :
    view.allocationId = view'.allocationId ∧ view.maximumSpan = view'.maximumSpan := by
  have howner := congrArg (fun key => (ofLex key).1) h
  have hspan := congrArg (fun key => (ofLex (ofLex (ofLex key).2).2).1) h
  exact ⟨UInt32.toNat_inj.mp howner, UInt64.toNat_inj.mp hspan⟩

namespace TakenApart

variable {kv : KvCacheDescriptor} {spec : SequenceSpec}

theorem owner (h : TakenApart kv spec) (hvalid : kv.Valid) {view : DescriptorView}
    (hview : view ∈ kv.views) :
    view.allocationId = spec.kArena.bufferId ∨ view.allocationId = spec.vArena.bufferId := by
  obtain ⟨allocation, hmem, hid, -⟩ :=
    (((KvCacheDescriptor.valid_iff kv).mp hvalid).views view hview).inside
  rw [h.allocations] at hmem
  rcases List.mem_pair.mp hmem with rfl | rfl
  · exact .inl hid.symm
  · exact .inr hid.symm

theorem distinct (h : TakenApart kv spec) (hvalid : kv.Valid) :
    spec.kArena.bufferId ≠ spec.vArena.bufferId := by
  have hnodup := ((KvCacheDescriptor.valid_iff kv).mp hvalid).distinct
  rw [h.allocations] at hnodup
  simpa using hnodup

theorem views_perm (h : TakenApart kv spec) (hvalid : kv.Valid) :
    kv.views.Perm (SequenceResidency.storagePlan spec).views := by
  have hrest : kv.views.filter (fun view => !decide (view.allocationId = spec.kArena.bufferId)) =
      kv.views.filter (·.allocationId = spec.vArena.bufferId) := by
    apply List.filter_congr
    intro view hview
    have hdistinct := h.distinct hvalid
    rcases h.owner hvalid hview with howner | howner
    · simp [howner, hdistinct]
    · simp [howner, hdistinct.symm]
  have hsplit := List.filter_append_perm
    (fun view : DescriptorView => decide (view.allocationId = spec.kArena.bufferId)) kv.views
  rw [hrest] at hsplit
  exact hsplit.symm.trans (h.kViews.append h.vViews)

theorem eq_of_span {views : List DescriptorView} {owner : UInt32} {wide narrow a b : DescriptorView}
    (hperm : (views.filter (·.allocationId = owner)).Perm [wide, narrow])
    (hspans : wide.maximumSpan ≠ narrow.maximumSpan) (ha : a ∈ views) (hb : b ∈ views)
    (howner : a.allocationId = owner) (hsame : a.allocationId = b.allocationId)
    (hspan : a.maximumSpan = b.maximumSpan) : a = b := by
  have hpair : ∀ view ∈ views, view.allocationId = owner → view = wide ∨ view = narrow := by
    intro view hview hid
    have hmem := hperm.mem_iff.mp (List.mem_filter.mpr ⟨hview, decide_eq_true hid⟩)
    exact List.mem_pair.mp hmem
  rcases hpair a ha howner with rfl | rfl
  · rcases hpair b hb (hsame ▸ howner) with rfl | rfl
    · rfl
    · exact absurd hspan hspans
  · rcases hpair b hb (hsame ▸ howner) with rfl | rfl
    · exact absurd hspan.symm hspans
    · rfl

theorem eq_of_viewOrder (h : TakenApart kv spec) (hvalid : kv.Valid) :
    ∀ a ∈ kv.views, ∀ b ∈ kv.views, viewOrder a = viewOrder b → a = b := by
  intro a ha b hb hkey
  obtain ⟨hsame, hspan⟩ := viewOrder_inj hkey
  rcases h.owner hvalid ha with howner | howner
  · exact eq_of_span h.kViews h.kSpans ha hb howner hsame hspan
  · exact eq_of_span h.vViews h.vSpans ha hb howner hsame hspan

theorem identity (h : TakenApart kv spec) (hvalid : kv.Valid) :
    (SequenceResidency.storagePlan spec).staticGraphBytes =
      { kv with launchBindings := [] }.staticGraphBytes := by
  have hviews := sortByKey_eq_of_perm (h.views_perm hvalid) (h.eq_of_viewOrder hvalid)
  simp only [KvCacheDescriptor.staticGraphBytes, hviews, h.allocations,
    SequenceResidency.storagePlan]

end TakenApart

namespace InvocationPrograms

/-- What an admitted descriptor meets, and the programs made of it. -/
structure Admission (descriptor : AdmittedDescriptor) (p : InvocationPrograms) : Prop where
  counts : admitCounts descriptor = .ok ()
  valid : descriptor.kv.Valid
  residency : ∃ spec, TakenApart descriptor.kv spec ∧
    SequenceResidency.Prepared spec p.residency.sequence
  programs : p = overResidency descriptor p.residency

theorem admit_spec (descriptor : AdmittedDescriptor) (next : UInt64) :
    Call.wp False ( InvocationPrograms.admit descriptor) (fun p _ => Admission descriptor p)
      (fun _ _ => True) next := by
  unfold InvocationPrograms.admit
  refine Call.wp_of_check (fun _ hcounts => ?_) (fun _ _ => trivial)
  refine Call.wp_of_check (fun _ hplan => ?_) (fun _ _ => trivial)
  refine Call.wp_of_check (fun spec hspec => ?_) (fun _ _ => trivial)
  rw [Call.wp_bind]
  refine Call.wp_mono (SessionResidency.prepare_spec _ spec next) ?_ (fun _ _ h => h)
  intro residency next' hprepared
  have hvalid : descriptor.kv.validate = .ok () := by
    cases hvalidate : descriptor.kv.validate with
    | ok u => rfl
    | error e => simp [admitKvPlan, hvalidate, Except.mapError] at hplan
  exact ⟨hcounts, hvalid, ⟨spec, sequenceSpecFromKv_ok hspec, hprepared⟩, rfl⟩

/-- In every run on admitted programs the cache plan keeps its identity, which is that of the
    admitted plan without launch bindings. -/
theorem cachePlan_identity (descriptor : AdmittedDescriptor) (next next' : UInt64)
    (programs : InvocationPrograms)
    (h : InvocationPrograms.admit descriptor next = some (.ok programs, next'))
    (ops : List ProgramsOp) :
    ∃ later, runSteps step programs ops = some later ∧
      later.residency.sequence.cachePlan.staticGraphBytes =
        programs.residency.sequence.cachePlan.staticGraphBytes ∧
      later.residency.sequence.cachePlan.staticGraphBytes =
        { descriptor.kv with launchBindings := [] }.staticGraphBytes ∧
      later.kv = descriptor.kv := by
  have hadmitted := Call.wp_of_ok (admit_spec descriptor next) h
  obtain ⟨spec, happart, hprepared⟩ := hadmitted.residency
  obtain ⟨later, hrun, hgraphs, -, hmoved⟩ := run_keeps ops programs
  have hkept := SequenceResidency.moved_identity hmoved
  refine ⟨later, hrun, hkept, ?_, ?_⟩
  · calc later.residency.sequence.cachePlan.staticGraphBytes
        = programs.residency.sequence.cachePlan.staticGraphBytes := hkept
      _ = (SequenceResidency.storagePlan spec).staticGraphBytes := by rw [hprepared.plan]
      _ = _ := happart.identity hadmitted.valid
  · rw [hgraphs, hadmitted.programs]
    rfl

end InvocationPrograms

/-! ## Row counts that can begin -/

namespace InferenceSessionState

/-- A mode takes a row count: scalar decode exactly one row, verification several. -/
def TakesRows (queryRows : UInt32) : InvocationMode → Prop
  | .prefill => True
  | .scalarDecode => queryRows = 1
  | .verification => 2 ≤ queryRows.toNat

theorem ensureCommittedPrefill_code {s : InferenceSessionState} {message : String}
    {e : SessionError} (h : s.ensureCommittedPrefill message = .error e) :
    e.code ≠ .invalidArgs := by
  unfold ensureCommittedPrefill at h
  cases hphase : s.phase with
  | fresh =>
    simp only [hphase] at h
    cases h
    nofun
  | prefill => simp [hphase] at h
  | decode => simp [hphase] at h
  | poisoned epoch stage =>
    simp only [hphase] at h
    cases h
    nofun

theorem admitMode_code {s : InferenceSessionState} {queryRows : UInt32} {mode : InvocationMode}
    {e : SessionError} (h : s.admitMode queryRows mode = .error e) :
    e.code = .invalidArgs ↔ ¬ TakesRows queryRows mode := by
  cases mode with
  | prefill =>
    rw [admitMode] at h
    split at h
    · cases h
      exact iff_of_false nofun (not_not.mpr trivial)
    · cases h
  | scalarDecode =>
    rw [admitMode] at h
    by_cases hone : queryRows = 1
    · rw [if_neg (not_not.mpr hone)] at h
      exact iff_of_false (ensureCommittedPrefill_code h) (not_not.mpr hone)
    · rw [if_pos hone] at h
      cases h
      exact iff_of_true rfl hone
  | verification =>
    rw [admitMode] at h
    by_cases hfew : queryRows < 2
    · rw [if_pos hfew] at h
      cases h
      rw [UInt32.lt_iff_toNat_lt] at hfew
      exact iff_of_true rfl (Nat.not_le.mpr hfew)
    · rw [if_neg hfew] at h
      have hmany : 2 ≤ queryRows.toNat := by
        rw [UInt32.lt_iff_toNat_lt] at hfew
        exact Nat.not_lt.mp hfew
      refine iff_of_false ?_ (not_not.mpr hmany)
      rcases bind_error_iff.mp h with hphase | ⟨_, -, hlength⟩
      · exact ensureCommittedPrefill_code hphase
      · split at hlength
        · cases hlength
          nofun
        · cases hlength

theorem takesRows_of_admitMode {s : InferenceSessionState} {queryRows : UInt32}
    {mode : InvocationMode} (h : s.admitMode queryRows mode = .ok ()) :
    TakesRows queryRows mode := by
  cases mode with
  | prefill => trivial
  | scalarDecode =>
    by_contra hrows
    have hother : queryRows ≠ 1 := hrows
    rw [admitMode, if_pos hother] at h
    cases h
  | verification =>
    by_contra hrows
    have hfew : queryRows < 2 := by
      rw [UInt32.lt_iff_toNat_lt]
      exact Nat.not_le.mp hrows
    rw [admitMode, if_pos hfew] at h
    cases h

/-- On a usable sequence a nonzero row count is an invalid argument exactly when the mode does not
    take it. -/
theorem beginInvocation_accepts_iff {s : InferenceSessionState} (husable : s.Usable)
    {mode : InvocationMode} {queryRows : UInt32} (hrows : queryRows ≠ 0) :
    (∀ e, s.beginInvocation mode queryRows = .error e → e.code ≠ .invalidArgs) ↔
      TakesRows queryRows mode := by
  have hmutable := ensureMutable_ok_iff.mpr husable
  constructor
  · intro haccepts
    cases hmode : s.admitMode queryRows mode with
    | ok u => exact takesRows_of_admitMode hmode
    | error e =>
      by_contra htakes
      refine haccepts e ?_ ((admitMode_code hmode).mpr htakes)
      simp [beginInvocation, hmutable, hrows, hmode, bind, Except.bind]
  · intro htakes e herror
    rw [beginInvocation, hmutable] at herror
    rcases bind_error_iff.mp herror with hnever | ⟨_, -, herror⟩
    · cases hnever
    rw [if_neg hrows] at herror
    rcases bind_error_iff.mp herror with hmode | ⟨_, -, hspan⟩
    · exact fun hcode => (admitMode_code hmode).mp hcode htakes
    · cases hsum : checkedAdd32 s.validLen queryRows with
      | none =>
        simp only [hsum] at hspan
        cases hspan
        nofun
      | some validLenAfter =>
        simp only [hsum] at hspan
        split at hspan
        · cases hspan
        · cases hspan
          nofun

end InferenceSessionState

namespace InvocationPrograms

theorem admitCounts_ok {descriptor : AdmittedDescriptor} (h : admitCounts descriptor = .ok ()) :
    descriptor.prefillQueryRows ≠ 0 ∧ descriptor.verificationQueryRows ≠ 0 := by
  unfold admitCounts at h
  by_cases hprefill : descriptor.prefillQueryRows = 0
  · rw [if_pos hprefill] at h
    cases h
  by_cases hverification : descriptor.verificationQueryRows = 0
  · rw [if_neg hprefill] at h
    split at h
    · cases h
    · cases h
  exact ⟨hprefill, hverification⟩

/-- In every run on admitted programs a usable sequence takes the admitted row count of a mode,
    except a verification of one row. -/
theorem beginSelected_accepts_iff (descriptor : AdmittedDescriptor) (next next' : UInt64)
    (programs : InvocationPrograms)
    (h : InvocationPrograms.admit descriptor next = some (.ok programs, next'))
    (ops : List ProgramsOp) (later : InvocationPrograms)
    (hrun : runSteps step programs ops = some later)
    (husable : later.residency.sequence.state.Usable) (mode : InvocationMode) :
    (∀ e, later.beginSelected mode = .error e → e.code ≠ .invalidArgs) ↔
      (mode = .verification → 2 ≤ descriptor.verificationQueryRows.toNat) := by
  have hadmitted := Call.wp_of_ok (admit_spec descriptor next) h
  obtain ⟨hprefill, hverification⟩ := admitCounts_ok hadmitted.counts
  obtain ⟨later', hlater, hgraphs, -⟩ := run_keeps ops programs
  obtain rfl : later' = later := Option.some.inj (hlater.symm.trans hrun)
  have hselected : ∀ mode, (later'.select mode).graph = (programs.select mode).graph := by
    intro mode
    rw [hgraphs]
    rfl
  have hrows : (later'.select mode).queryRows =
      ((overResidency descriptor programs.residency).select mode).queryRows := by
    rw [SelectedProgram.queryRows, hselected, ← hadmitted.programs]
    rfl
  unfold beginSelected SessionResidency.beginInvocation
  cases mode with
  | prefill =>
    rw [InferenceSessionState.beginInvocation_accepts_iff husable (hrows ▸ hprefill)]
    exact iff_of_true trivial nofun
  | scalarDecode =>
    have hone : scalarDecodeQueryRows ≠ 0 := by decide
    rw [InferenceSessionState.beginInvocation_accepts_iff husable (hrows ▸ hone)]
    exact iff_of_true hrows nofun
  | verification =>
    rw [InferenceSessionState.beginInvocation_accepts_iff husable (hrows ▸ hverification),
      InferenceSessionState.TakesRows, hrows]
    exact ⟨fun hmany _ => hmany, fun h => h rfl⟩

end InvocationPrograms

/-! ## Two arenas with a prefill of two rows -/

open TwoArenas in
/-- Eight positions, with the rows of the verification graph left open. -/
def arenasDescriptor (verificationQueryRows : UInt32) : AdmittedDescriptor where
  identity := ⟨"arenas", 1⟩
  prefillArtifact := [1]
  decodeArtifact := [2]
  verificationArtifact := [3]
  verificationQueryRows := verificationQueryRows
  prefillQueryRows := 2
  weights := [⟨10, .f32, 1024, .perProgram, .hostProvided⟩]
  kv := { kv with invocationState := ⟨0, 0, 0, 0⟩ }
  invocationState := stateBuffer
  capacity := 8

def prefillPlan : PlannedInvocation := ⟨.prefill, ⟨0, 2, 0, 2, 8, 0⟩, 1⟩

def decodeTransaction : InvocationTransaction := ⟨⟨.scalarDecode, ⟨2, 1, 2, 3, 8, 2⟩, 1⟩, none⟩

namespace InvocationPrograms

theorem arenas_identity : ∃ programs next',
    InvocationPrograms.admit (arenasDescriptor 3) 1 = some (.ok programs, next') ∧
      ∃ later, runSteps step programs [.beginSelected .prefill, .commit prefillPlan,
          .beginSelected .scalarDecode, .fail decodeTransaction, .logicalReset, .release] =
            some later ∧
        later.residency.sequence.cachePlan.staticGraphBytes =
          programs.residency.sequence.cachePlan.staticGraphBytes ∧
        later.residency.sequence.cachePlan.staticGraphBytes =
          { (arenasDescriptor 3).kv with launchBindings := [] }.staticGraphBytes ∧
        later.kv = (arenasDescriptor 3).kv :=
  ⟨_, _, rfl, cachePlan_identity (arenasDescriptor 3) 1 _ _ rfl _⟩

theorem verification_of_three_accepted : ∃ programs next' later,
    InvocationPrograms.admit (arenasDescriptor 3) 1 = some (.ok programs, next') ∧
      runSteps step programs [.commit prefillPlan] = some later ∧
      ∀ e, later.beginSelected .verification = .error e → e.code ≠ .invalidArgs := by
  refine ⟨_, _, _, rfl, rfl, ?_⟩
  exact (beginSelected_accepts_iff (arenasDescriptor 3) 1 _ _ rfl [.commit prefillPlan] _ rfl
    (by decide) .verification).mpr (fun _ => by decide)

/-- A verification of one row is admitted; after the prefill it never begins. -/
theorem verification_of_one_refused : ∃ programs next' later,
    InvocationPrograms.admit (arenasDescriptor 1) 1 = some (.ok programs, next') ∧
      programs.beginSelected .prefill = .ok prefillPlan ∧
      runSteps step programs [.commit prefillPlan] = some later ∧
      later.residency.sequence.state.Usable ∧
      later.residency.sequence.state.phase = .prefill ∧
      later.residency.sequence.state.validLen.toNat + 1 ≤
        later.residency.sequence.state.capacity.toNat ∧
      ∃ e, later.beginSelected .verification = .error e ∧ e.code = .invalidArgs :=
  ⟨_, _, _, rfl, rfl, rfl, by decide, rfl, by decide, _, rfl, rfl⟩

end InvocationPrograms

end FaberHosts.Inference
