import FaberHosts.Cuda.Session
import FaberHosts.Kernel.Valor

/-!
# Launching a plan

`execute_launch_plan`: load the module, allocate and fill the buffers, launch, read back, and
release the buffers of the launch whatever happened.
-/

namespace FaberHosts.Cuda
open FaberHosts.Lib FaberHosts.Coordinator FaberHosts.Descriptor
open FaberHosts.Kernel (F64)
open FaberHosts.Session (Stage wordsOf)

structure OracleCheck where
  matched : Bool
  maxAbsDelta : F64
  deriving DecidableEq, Repr

/-- A numeric oracle by its verdict on a row; the tolerance rule is arithmetic on `f64`. -/
structure NumericOracle where
  verdict : List UInt32 → OracleCheck

structure AdapterLaunchReceipt where
  entry : String
  moduleHash : UInt64
  launches : Nat
  allocatedBuffers : Nat
  copyIns : Nat
  zeroFills : Nat
  readbacks : Nat
  releases : Nat
  outputs : BTreeMap UInt32 (List UInt32)
  oracle : Option OracleCheck

section

variable (env : CudaDriver)

/-- `buffer_byte_length`; a `usize` has 64 bits. -/
def bufferByteLength (buffer : NvvmLaunchBuffer) (elementTy : NvvmElementType) (entry : String) :
    Except HostError UInt64 :=
  match checkedMul buffer.elementCount elementTy.byteWidth.toUInt64 with
  | some bytes => .ok bytes
  | none =>
    .error (.descriptor (s!"descriptor kernel `{entry}` buffer `{buffer.role}` (binding " ++
      s!"{buffer.binding}) byte length overflows u64"))

/-- The buffers allocated in turn, up to the first that fails. -/
def allocEach (plan : NvvmLaunchPlan) :
    List NvvmLaunchBuffer → CudaHostSession → (Option HostError × List Nat) × CudaHostSession
  | [], s => ((none, []), s)
  | buffer :: rest, s =>
    match bufferByteLength buffer plan.elementTy plan.entry with
    | .error e => ((some e, []), s)
    | .ok lenBytes =>
      match allocBytes env lenBytes s with
      | .error e t => ((some e, []), t)
      | .ok handle t =>
        let (answer, u) := allocEach plan rest t
        ((answer.1, handle :: answer.2), u)

/-- What a buffer is filled with before the launch. -/
def initialValues (plan : NvvmLaunchPlan) (inputs : BTreeMap UInt32 (List UInt32))
    (buffer : NvvmLaunchBuffer) : Except HostError (Option (List UInt32)) :=
  match buffer.role with
  | .input | .extraInput =>
    match inputs[buffer.binding]? with
    | none =>
      .error (.shapeMismatch (s!"no host input provided for descriptor kernel `{plan.entry}` " ++
        s!"buffer `{buffer.role}` (binding {buffer.binding})"))
    | some values =>
      if values.length ≠ buffer.elementCount.toNat then
        .error (.shapeMismatch (s!"input for descriptor kernel `{plan.entry}` buffer " ++
          s!"`{buffer.role}` (binding {buffer.binding}) has {values.length} f32 elements but " ++
          s!"the descriptor declares {buffer.elementCount}"))
      else .ok (some values)
  | .accumulation => .ok (some (List.replicate buffer.elementCount.toNat 0))
  | .output | .extraOutput => .ok none

def liftExcept {α : Type} : Except HostError α → SessionM α
  | .ok a => pure a
  | .error error => throw error

/-- The copies and zero fills; the count of each is that of the roles. -/
def fillEach (plan : NvvmLaunchPlan) (inputs : BTreeMap UInt32 (List UInt32)) :
    List (NvvmLaunchBuffer × Nat) → SessionM Unit
  | [] => pure ()
  | (buffer, handle) :: rest => do
    match ← liftExcept (initialValues plan inputs buffer) with
    | none => fillEach plan inputs rest
    | some values =>
      copyInF32 env handle values
      fillEach plan inputs rest

/-- The rows read back, by binding. -/
def readEach : List (NvvmLaunchBuffer × Nat) → BTreeMap UInt32 (List UInt32) →
    SessionM (BTreeMap UInt32 (List UInt32))
  | [], outputs => pure outputs
  | (buffer, handle) :: rest, outputs => do
    if buffer.role.isOutput then
      let row ← readbackF32 env handle
      readEach rest (outputs.insert buffer.binding row)
    else readEach rest outputs

/-- The verdict on the first output row; without one the deviation is infinite. -/
def oracleCheck (oracle : NumericOracle) (outputs : BTreeMap UInt32 (List UInt32)) :
    OracleCheck :=
  match outputs.values with
  | [] => ⟨false, ⟨0x7FF0000000000000⟩⟩
  | row :: _ => oracle.verdict row

/-- The part between the allocations and the releases. -/
def launchOn (ptx : List UInt8) (plan : NvvmLaunchPlan) (inputs : BTreeMap UInt32 (List UInt32))
    (oracle : Option NumericOracle) (module : Nat) (handles : List Nat) :
    SessionM AdapterLaunchReceipt := do
  let slots := plan.buffers.zip handles
  fillEach env plan inputs slots
  launchKernel3d env module plan.entry handles plan.grid plan.block
  sync env
  let outputs ← readEach env slots ∅
  pure {
    entry := plan.entry
    moduleHash := Policy.fnv1a64 ptx
    launches := 1
    allocatedBuffers := plan.buffers.length
    copyIns := plan.buffers.countP (·.role.isInput)
    zeroFills := plan.buffers.countP (·.role = .accumulation)
    readbacks := plan.buffers.countP (·.role.isOutput)
    releases := 0
    outputs := outputs
    oracle := oracle.map (oracleCheck · outputs) }

/-- The closure of `execute_launch_plan`, with the handles it allocated. -/
def attempt (ptx : List UInt8) (plan : NvvmLaunchPlan) (inputs : BTreeMap UInt32 (List UInt32))
    (oracle : Option NumericOracle) (s : CudaHostSession) :
    (Except HostError AdapterLaunchReceipt × List Nat) × CudaHostSession :=
  match loadCachedModule env ptx s with
  | .error e t => ((.error e, []), t)
  | .ok module t =>
    match allocEach env plan plan.buffers t with
    | ((some e, handles), u) => ((.error e, handles), u)
    | ((none, handles), u) =>
      match launchOn env ptx plan inputs oracle module handles u with
      | .error e v => ((.error e, handles), v)
      | .ok receipt v => ((.ok receipt, handles), v)

/-- `execute_launch_plan`. -/
def executeLaunchPlan (ptx : List UInt8) (plan : NvvmLaunchPlan)
    (inputs : BTreeMap UInt32 (List UInt32)) (oracle : Option NumericOracle) :
    SessionM AdapterLaunchReceipt := fun s =>
  if plan.elementTy ≠ .f32 then
    .error (.dtypeMismatch (s!"host launch adapter transfers are f32-only; descriptor kernel " ++
      s!"`{plan.entry}` declares `{plan.elementTy.spelling}`")) s
  else if ptx = [] then
    .error (.descriptor "host launch adapter received empty PTX bytes") s
  else
    let ((outcome, handles), t) := attempt env ptx plan inputs oracle s
    let (outcomes, u) := releaseEach env handles t
    match outcome with
    | .ok receipt => .ok { receipt with releases := outcomes.countP Option.isNone } u
    | .error e => .error e u

end

/-! ## The handles of a launch -/

section

variable {env : CudaDriver} {s t u : CudaHostSession} {plan : NvvmLaunchPlan}
  {inputs : BTreeMap UInt32 (List UInt32)}

theorem quiet_fillEach (slots : List (NvvmLaunchBuffer × Nat)) :
    Steps QuietStep (fillEach env plan inputs slots) := by
  induction slots with
  | nil => exact Steps.pure QuietStep.refl _
  | cons slot rest ih =>
    obtain ⟨buffer, handle⟩ := slot
    apply Steps.bind QuietStep.trans
    · cases initialValues plan inputs buffer with
      | ok values => exact Steps.pure QuietStep.refl _
      | error e => exact Steps.throw QuietStep.refl _
    · intro values
      cases values with
      | none => exact ih
      | some values =>
        exact Steps.bind QuietStep.trans (quiet_copyInBytes handle _ _) fun _ => ih

theorem quiet_readEach (slots : List (NvvmLaunchBuffer × Nat))
    (outputs : BTreeMap UInt32 (List UInt32)) :
    Steps QuietStep (readEach env slots outputs) := by
  induction slots generalizing outputs with
  | nil => exact Steps.pure QuietStep.refl _
  | cons slot rest ih =>
    obtain ⟨buffer, handle⟩ := slot
    rw [readEach]
    split
    · exact Steps.bind QuietStep.trans (quiet_readbackF32 handle) fun row => ih _
    · exact ih outputs

theorem sameBooks_launchOn (ptx : List UInt8) (oracle : Option NumericOracle) (module : Nat)
    (handles : List Nat) :
    Steps SameBooks (launchOn env ptx plan inputs oracle module handles) := by
  have hquiet : ∀ {α : Type} {x : SessionM α}, Steps QuietStep x → Steps SameBooks x :=
    fun h => h.imp fun _ _ => QuietStep.sameBooks
  apply Steps.bind SameBooks.trans (hquiet (quiet_fillEach _))
  intro _
  apply Steps.bind SameBooks.trans (sameBooks_launchKernel3d _ _ _ _ _)
  intro _
  apply Steps.bind SameBooks.trans (hquiet quiet_sync)
  intro _
  exact Steps.bind SameBooks.trans (hquiet (quiet_readEach _ _)) fun _ =>
    Steps.pure SameBooks.refl _

/-- The handles of the allocations are the new ones. -/
structure Allocated (s t : CudaHostSession) (handles : List Nat) : Prop where
  disciplined : Consistent t ∧ Follows s t
  old : ∀ id : Nat, id < s.nextId → t.handles[id]? = s.handles[id]?
  fresh : ∀ id ∈ handles, s.nextId ≤ id
  all : ∀ id : Nat, s.nextId ≤ id → t.handles[id]?.isSome → id ∈ handles

theorem Allocated.same (hs : Consistent s) (h : SameBooks s t) : Allocated s t [] := by
  obtain ⟨hconsistent, hfollows⟩ := h.disciplined hs
  refine ⟨⟨hconsistent, hfollows⟩, fun id _ => by rw [h.handles], by simp, ?_⟩
  intro id hid hlive
  obtain ⟨handle, hhandle⟩ := Option.isSome_iff_exists.mp hlive
  have hlt := hconsistent.ids id handle hhandle
  rw [h.nextId] at hlt
  exact absurd hlt (not_lt.mpr hid)

theorem allocEach_allocated (buffers : List NvvmLaunchBuffer) (hs : Consistent s) :
    Allocated s (allocEach env plan buffers s).2 (allocEach env plan buffers s).1.2 := by
  induction buffers generalizing s with
  | nil => exact .same hs (.refl s)
  | cons buffer rest ih =>
    rw [allocEach]
    split
    · exact .same hs (.refl s)
    · next lenBytes _ =>
      obtain ⟨e, t, hrun, hsame⟩ | hrun := allocBytes_cases env lenBytes s
      · rw [hrun]
        exact .same hs hsame.sameBooks
      · rw [hrun]
        obtain ⟨hminted, hfollows⟩ := mint_after_call (QuietStep.refl s).call
          (mint_buffer_disciplined s.called lenBytes) hs
        obtain ⟨⟨hconsistent, hrest⟩, hold, hfresh, hall⟩ := ih hminted
        refine ⟨⟨hconsistent, hfollows.trans hrest⟩, fun id hid => ?_, fun id hid => ?_,
          fun id hid hlive => ?_⟩
        · refine (hold id (hid.trans (Nat.lt_succ_self _))).trans ?_
          exact (handles_mint _ _ _ id).trans (if_neg hid.ne)
        · obtain rfl | hid := List.mem_cons.mp hid
          · exact le_refl s.nextId
          · exact (Nat.le_succ _).trans (hfresh id hid)
        · obtain hid | hid := Nat.eq_or_lt_of_le hid
          · rw [← hid]
            exact List.mem_cons_self
          · exact List.mem_cons_of_mem _ (hall id hid hlive)

/-- The live handles after a launch are those before it, and the cached module. -/
def LeavesHandles (ptx : List UInt8) (s t : CudaHostSession) : Prop :=
  ∀ id : Nat, t.handles[id]? = s.handles[id]? ∨
    s.handles[id]? = none ∧ t.cachedAt ptx = some id

theorem LeavesHandles.refl (ptx : List UInt8) (s : CudaHostSession) : LeavesHandles ptx s s :=
  fun _ => .inl rfl

/-- The handles of the attempt, released, leave the session after the load. -/
theorem attempt_released (ptx : List UInt8) (oracle : Option NumericOracle) (hs : Consistent s) :
    let attempted := attempt env ptx plan inputs oracle s
    let t := (releaseEach env attempted.1.2 attempted.2).2
    (Consistent t ∧ Follows s t) ∧ LeavesHandles ptx s t := by
  intro attempted
  -- what follows the load of the module
  have hafterLoad : ∀ {loaded : CudaHostSession}, Consistent loaded → Follows s loaded →
      LeavesHandles ptx s loaded → ∀ {handles : List Nat} {v : CudaHostSession},
      (∃ u, Allocated loaded u handles ∧ SameBooks u v) →
      (Consistent (releaseEach env handles v).2 ∧ Follows s (releaseEach env handles v).2) ∧
        LeavesHandles ptx s (releaseEach env handles v).2 := by
    intro loaded hloaded hfollows hleaves handles v hallocated
    obtain ⟨u, ⟨⟨hu, hfollows'⟩, hold, hfresh, hall⟩, hsame⟩ := hallocated
    obtain ⟨hv, hfollows''⟩ := hsame.disciplined hu
    obtain ⟨hw, hreleased⟩ := @disciplined_releaseEach env handles v hv
    have hrest := (hfollows'.trans hfollows'').trans hreleased
    have hback : ∀ id : Nat, (releaseEach env handles v).2.handles[id]? = loaded.handles[id]? := by
      intro id
      rw [handles_releaseEach, hsame.handles]
      by_cases hid : id < loaded.nextId
      · rw [if_neg fun hmem => absurd (hfresh id hmem) (not_le.mpr hid), hold id hid]
      · have hnone : loaded.handles[id]? = none := by
          cases hfound : loaded.handles[id]? with
          | none => rfl
          | some handle => exact absurd (hloaded.ids id handle hfound) hid
        rw [hnone]
        split
        · rfl
        · next hnot =>
          cases hfound : u.handles[id]? with
          | none => rfl
          | some handle =>
            exact absurd (hall id (not_lt.mp hid) (by rw [hfound]; rfl)) hnot
    refine ⟨⟨hw, hfollows.trans hrest⟩, fun id => ?_⟩
    rw [hback id]
    refine (hleaves id).imp_right fun hcached => ⟨hcached.1, ?_⟩
    obtain ⟨token, hlive, -⟩ := cachedAt_live hloaded hcached.2
    refine hrest.cached ptx id (hloaded.ids _ _ hlive) hcached.2 ?_
    rw [hback id, hlive]
    rfl
  have hattempted : ∀ {module : Nat} {loaded : CudaHostSession},
      loadCachedModule env ptx s = .ok module loaded → Consistent loaded →
        ∃ u, Allocated loaded u attempted.1.2 ∧ SameBooks u attempted.2 := by
    intro module loaded hrun hloaded
    have hallocated := @allocEach_allocated env _ plan plan.buffers hloaded
    simp only [attempted, attempt, hrun]
    split
    · next heq =>
      rw [heq] at hallocated
      exact ⟨_, hallocated, .refl _⟩
    · next handles u heq =>
      rw [heq] at hallocated
      have hlaunch := @sameBooks_launchOn env plan inputs ptx oracle
        module handles u
      rw [after] at hlaunch
      split
      · next hlaunched =>
        rw [hlaunched] at hlaunch
        exact ⟨u, hallocated, hlaunch⟩
      · next hlaunched =>
        rw [hlaunched] at hlaunch
        exact ⟨u, hallocated, hlaunch⟩
  obtain ⟨e, t, hrun, hsame, -⟩ | ⟨module, hrun, -⟩ |
      ⟨t, hrun, -, -, -, hconsistent, hfollows, hcached, hothers⟩ :=
    @loadCachedModule_cases env _ hs ptx
  · obtain ⟨ht, hfollows⟩ := hsame.sameBooks.disciplined hs
    have hnothing : attempted = ((.error e, []), t) := by
      simp only [attempted, attempt, hrun]
    rw [hnothing]
    exact ⟨⟨ht, hfollows⟩, fun id => .inl (by rw [releaseEach, hsame.sameBooks.handles])⟩
  · exact hafterLoad hs (.refl s) (.refl ptx s) (hattempted hrun hs)
  · apply hafterLoad hconsistent hfollows ?_ (hattempted hrun hconsistent)
    intro id
    by_cases hid : id = s.nextId
    · subst hid
      refine .inr ⟨?_, hcached⟩
      cases hfound : s.handles[s.nextId]? with
      | none => rfl
      | some handle => exact absurd (hs.ids _ handle hfound) (lt_irrefl _)
    · exact .inl (hothers id hid)

theorem after_executeLaunchPlan (ptx : List UInt8) (plan : NvvmLaunchPlan)
    (inputs : BTreeMap UInt32 (List UInt32)) (oracle : Option NumericOracle)
    (s : CudaHostSession) :
    after (executeLaunchPlan env ptx plan inputs oracle) s =
      if plan.elementTy ≠ .f32 ∨ ptx = [] then s
      else
        let attempted := attempt env ptx plan inputs oracle s
        (releaseEach env attempted.1.2 attempted.2).2 := by
  rw [after, executeLaunchPlan]
  by_cases htype : plan.elementTy = .f32
  · by_cases hptx : ptx = []
    · simp [htype, hptx]
    · simp only [htype, hptx, ne_eq, not_true_eq_false, if_false, or_self]
      cases (attempt env ptx plan inputs oracle s).1.1 <;> rfl
  · simp [htype]

theorem launch_leaves (ptx : List UInt8) (plan : NvvmLaunchPlan)
    (inputs : BTreeMap UInt32 (List UInt32)) (oracle : Option NumericOracle) (hs : Consistent s) :
    let t := after (executeLaunchPlan env ptx plan inputs oracle) s
    (Consistent t ∧ Follows s t) ∧ LeavesHandles ptx s t := by
  rw [after_executeLaunchPlan]
  split
  · exact ⟨⟨hs, .refl s⟩, .refl ptx s⟩
  · exact attempt_released ptx oracle hs

theorem disciplined_launch (ptx : List UInt8) (plan : NvvmLaunchPlan)
    (inputs : BTreeMap UInt32 (List UInt32)) (oracle : Option NumericOracle) :
    Steps Disciplined (executeLaunchPlan env ptx plan inputs oracle) :=
  fun _ hs => (launch_leaves ptx plan inputs oracle hs).1

/-! ## Runs -/

inductive Operation where
  | loadModule (image : List UInt8)
  | loadCachedModule (image : List UInt8)
  | allocBytes (lenBytes : UInt64)
  | release (id : Nat)
  | teardown
  | executeLaunchPlan (ptx : List UInt8) (plan : NvvmLaunchPlan)
      (inputs : BTreeMap UInt32 (List UInt32)) (oracle : Option NumericOracle)

def step (env : CudaDriver) (s : CudaHostSession) : Operation → CudaHostSession
  | .loadModule image => after (loadModule env image) s
  | .loadCachedModule image => after (loadCachedModule env image) s
  | .allocBytes lenBytes => after (allocBytes env lenBytes) s
  | .release id => after (release env id) s
  | .teardown => after (teardown env) s
  | .executeLaunchPlan ptx plan inputs oracle =>
    after (executeLaunchPlan env ptx plan inputs oracle) s

def run (env : CudaDriver) (operations : List Operation) (s : CudaHostSession) :
    CudaHostSession :=
  operations.foldl (step env) s

theorem step_disciplined (s : CudaHostSession) (operation : Operation) :
    Disciplined s (step env s operation) := by
  cases operation with
  | loadModule image => exact disciplined_loadModule image s
  | loadCachedModule image => exact disciplined_loadCachedModule image s
  | allocBytes lenBytes => exact disciplined_allocBytes lenBytes s
  | release id => exact disciplined_release id s
  | teardown => exact disciplined_teardown s
  | executeLaunchPlan ptx plan inputs oracle => exact disciplined_launch ptx plan inputs oracle s

theorem run_disciplined (operations : List Operation) (s : CudaHostSession) :
    Disciplined s (run env operations s) := by
  induction operations generalizing s with
  | nil => exact .refl s
  | cons operation rest ih => exact Disciplined.trans _ _ _ (step_disciplined s operation) (ih _)

/-! ## Handle discipline -/

/-- Every live handle names a driver object that was not freed, no two the same one, and no object
    was freed twice. -/
structure HandleDiscipline (s : CudaHostSession) : Prop where
  objects : ∀ (id : Nat) (handle : RegisteredHandle), s.handles[id]? = some handle →
    s.driver.Holds handle.kind handle.backendToken ∧ handle.backendToken ∉ s.driver.freeCalls
  own : ∀ (id id' : Nat) (handle handle' : RegisteredHandle), s.handles[id]? = some handle →
    s.handles[id']? = some handle' → handle.backendToken = handle'.backendToken → id = id'
  freedOnce : s.driver.freeCalls.Nodup

/-- The handle that a cached load of the image answered with: a module of exactly these bytes, the
    answer of every later load while it is live, and gone after a teardown. -/
def KeepsCached (env : CudaDriver) (image : List UInt8) (handle : Nat) (s : CudaHostSession) :
    Prop :=
  (∃ token : Nat, s.handles[handle]? = some ⟨.module, token⟩ ∧
    s.driver.modules[token]? = some image) ∧
  ∀ later, let t := run env later s
    (t.handles[handle]?.isSome → loadCachedModule env image t = .ok handle t) ∧
      (after (teardown env) t).handles[handle]? = none

theorem cachedLoad_keeps (hs : Consistent s) {image : List UInt8} {handle : Nat}
    (hload : loadCachedModule env image s = .ok handle t) : KeepsCached env image handle t := by
  have hloaded : Consistent t ∧ t.admitted = true ∧ image ≠ [] ∧
      t.cachedAt image = some handle := by
    obtain ⟨e, t, hrun, -⟩ | ⟨cached, hrun, hadmitted, himage, hcached⟩ |
        ⟨t, hrun, hadmitted, himage, -, hconsistent, hfollows, hcached, -⟩ :=
      @loadCachedModule_cases env _ hs image
    · rw [hrun] at hload
      cases hload
    · rw [hrun] at hload
      cases hload
      exact ⟨hs, hadmitted, himage, hcached⟩
    · rw [hrun] at hload
      cases hload
      exact ⟨hconsistent, hfollows.admitted.trans hadmitted, himage, hcached⟩
  obtain ⟨ht, hadmitted, himage, hcached⟩ := hloaded
  obtain ⟨token, hlive, hmodule⟩ := cachedAt_live ht hcached
  refine ⟨⟨token, hlive, hmodule⟩, fun later => ?_⟩
  intro u
  obtain ⟨hu, hfollows⟩ := @run_disciplined env later t ht
  have hid := ht.ids _ _ hlive
  constructor
  · intro hstill
    have hcachedLater := hfollows.cached image handle hid hcached hstill
    obtain ⟨e, v, -, -, hnone⟩ | ⟨cached, hrun, -, -, hfound⟩ | ⟨v, -, -, -, hnone, -⟩ :=
      @loadCachedModule_cases env _ hu image
    · have hnever := hnone (hfollows.admitted.trans hadmitted) himage
      rw [hcachedLater] at hnever
      cases hnever
    · rw [hcachedLater] at hfound
      cases hfound
      exact hrun
    · rw [hcachedLater] at hnone
      cases hnone
  · cases hstill : u.handles[handle]? with
    | some registered =>
      have hlive : u.handles[handle]?.isSome := by rw [hstill]; rfl
      exact (teardown_empties hu image).2 handle (hfollows.cached image handle hid hcached hlive)
    | none =>
      obtain ⟨-, htorn⟩ := @disciplined_teardown env u hu
      obtain hsame | hgone := htorn.handles handle (hid.trans_le hfollows.nextId)
      · rw [hsame, hstill]
      · exact hgone

/-- Whatever the driver refuses, a run keeps the discipline of handles, a cached load answers with
    a module of the image, once loaded while it lives, a launch leaves the handles, and a teardown
    ends the cache. -/
theorem session_disciplined (env : CudaDriver) (nextToken : Nat) (admitted : Bool)
    (operations : List Operation) :
    let s := run env operations (opened nextToken admitted)
    HandleDiscipline s ∧
      (∀ image handle t, loadCachedModule env image s = .ok handle t →
        KeepsCached env image handle t) ∧
      (∀ ptx plan inputs oracle,
        LeavesHandles ptx s (after (executeLaunchPlan env ptx plan inputs oracle) s)) ∧
      ∀ image, (after (teardown env) s).cachedAt image = none := by
  intro s
  have hs : Consistent s := (run_disciplined operations _ (opened_consistent nextToken admitted)).1
  refine ⟨⟨fun id handle hfound => ⟨hs.holds id handle hfound, hs.unfreed id handle hfound⟩,
    hs.own, hs.freedOnce⟩, fun image handle t => cachedLoad_keeps hs, ?_, ?_⟩
  · intro ptx plan inputs oracle
    exact (launch_leaves ptx plan inputs oracle hs).2
  · intro image
    exact (teardown_empties hs image).1

end

/-- A driver that takes every call. -/
def willing : CudaDriver := ⟨fun _ _ => none, fun _ => []⟩

theorem cached_image_kept :
    let s := run willing [.allocBytes 4, .release 1] (opened 0 true)
    KeepsCached willing [1] 2 (after (loadCachedModule willing [1]) s) := by
  intro s
  exact (session_disciplined willing 0 true [.allocBytes 4, .release 1]).2.1 [1] 2 _ rfl

end FaberHosts.Cuda
