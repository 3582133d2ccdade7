import FaberHosts.Lib.BTree
import FaberHosts.Lib.Outcomes
import FaberHosts.Cuda.Sidecar
import FaberHosts.Policy.Evaluate
import FaberHosts.Session.Device

/-!
# A session on a CUDA driver

`cuda_host.rs`, `device_registry.rs`: the registry of handles, the cache of modules and the calls
on a driver that mints a token for each object and may refuse any call.
-/

namespace FaberHosts.Cuda
open FaberHosts.Lib FaberHosts.Coordinator FaberHosts.Descriptor
open FaberHosts.Session (Stage wordsOf)

/-! ## The driver -/

/-- How a driver answers its calls, by their number: what it refuses and what it reads back. -/
structure CudaDriver where
  fails : Nat → Stage → Option HostError
  copyOut : Nat → List UInt8

/-- A buffer of the driver, with the bytes last copied in. -/
structure DeviceBuffer where
  lenBytes : UInt64
  copied : Option (List UInt8)
  deriving DecidableEq, Repr

/-- A launch as the driver gets it, with what was behind each token. -/
structure KernelLaunch where
  module : Nat
  entry : String
  buffers : List (Nat × Option DeviceBuffer)
  grid : Axes
  block : Axes
  deriving DecidableEq, Repr

/-- The driver's tables, every token that `free` was called with, and the launches. -/
structure DriverState where
  nextToken : Nat
  modules : BTreeMap Nat (List UInt8)
  buffers : BTreeMap Nat DeviceBuffer
  freeCalls : List Nat
  launches : List KernelLaunch
  calls : Nat

/-! ## The session -/

inductive CudaHandleKind where
  | module
  | buffer (lenBytes : UInt64)
  deriving DecidableEq, Repr

structure RegisteredHandle where
  kind : CudaHandleKind
  backendToken : Nat
  deriving DecidableEq, Repr

structure CachedModule where
  image : List UInt8
  handle : Nat
  deriving DecidableEq, Repr

structure CudaHostSession where
  driver : DriverState
  handles : BTreeMap Nat RegisteredHandle
  nextId : Nat
  moduleCache : BTreeMap UInt64 (List CachedModule)
  admitted : Bool

abbrev SessionM := EStateM HostError CudaHostSession

/-- `from_driver`, on a driver whose next token is given. -/
def opened (nextToken : Nat) (admitted : Bool) : CudaHostSession where
  driver := ⟨nextToken, ∅, ∅, [], [], 0⟩
  handles := ∅
  nextId := 1
  moduleCache := ∅
  admitted := admitted

def cudaUnavailable (message : String) : HostError := ⟨"E_CUDA_UNAVAILABLE", message, false⟩

def cudaInvalidHandle (id : Nat) : HostError :=
  ⟨"E_CUDA_INVALID_HANDLE", s!"unknown or released CUDA handle {id}", false⟩

def cudaMisalignedTail (dtype : DeviceDataType) (len : Nat) : HostError :=
  .invalidArgs s!"CUDA copy rejects a misaligned {dtype} tail of {len} bytes"

section

variable (env : CudaDriver)

def notAdmitted : HostError :=
  cudaUnavailable "CUDA host session is not admitted for product execution"

def requireAdmitted : SessionM Unit := fun s =>
  if s.admitted then .ok () s else .error notAdmitted s

omit env in
theorem requireAdmitted_bind {α : Type} (f : Unit → SessionM α) (s : CudaHostSession) :
    (requireAdmitted >>= f) s = if s.admitted then f () s else .error notAdmitted s := by
  rw [bind_run, requireAdmitted]
  cases s.admitted <;> rfl

/-- The number of a call tells it from later ones. -/
def CudaHostSession.called (s : CudaHostSession) : CudaHostSession :=
  { s with driver := { s.driver with calls := s.driver.calls + 1 } }

/-- One driver call. -/
def call (stage : Stage) : SessionM Nat := fun s =>
  match env.fails s.driver.calls stage with
  | some error => .error error s.called
  | none => .ok s.driver.calls s.called

/-- The driver mints a token for an object, and the registry an id for the token. -/
def CudaHostSession.mint (s : CudaHostSession) (kind : CudaHandleKind)
    (modules : BTreeMap Nat (List UInt8)) (buffers : BTreeMap Nat DeviceBuffer) :
    CudaHostSession :=
  { s with
    driver := { s.driver with
      nextToken := s.driver.nextToken + 1, modules := modules, buffers := buffers }
    handles := s.handles.insert s.nextId ⟨kind, s.driver.nextToken⟩
    nextId := s.nextId + 1 }

def mintModule (image : List UInt8) : SessionM Nat := fun s =>
  .ok s.nextId
    (s.mint .module (s.driver.modules.insert s.driver.nextToken image) s.driver.buffers)

def mintBuffer (lenBytes : UInt64) : SessionM Nat := fun s =>
  .ok s.nextId (s.mint (.buffer lenBytes) s.driver.modules
    (s.driver.buffers.insert s.driver.nextToken ⟨lenBytes, none⟩))

def loadModule (image : List UInt8) : SessionM Nat := do
  requireAdmitted
  if image = [] then throw (.invalidArgs "CUDA module image is empty")
  else
    let _ ← call env .loadModule
    mintModule image

/-- The handle of a cached image. -/
def CudaHostSession.cachedAt (s : CudaHostSession) (image : List UInt8) : Option Nat :=
  ((s.moduleCache[Policy.fnv1a64 image]?.getD []).find? (·.image = image)).map (·.handle)

/-- A new last entry in the bucket of its image. -/
def CudaHostSession.cache (s : CudaHostSession) (image : List UInt8) (handle : Nat) :
    CudaHostSession :=
  let hash := Policy.fnv1a64 image
  { s with
    moduleCache := s.moduleCache.insert hash (s.moduleCache[hash]?.getD [] ++ [⟨image, handle⟩]) }

def loadCachedModule (image : List UInt8) : SessionM Nat := do
  requireAdmitted
  if image = [] then throw (.invalidArgs "CUDA module image is empty")
  else
    let s ← get
    match s.cachedAt image with
    | some handle => pure handle
    | none =>
      let handle ← loadModule env image
      modify (·.cache image handle)
      pure handle

def allocBytes (lenBytes : UInt64) : SessionM Nat := do
  requireAdmitted
  if lenBytes = 0 then throw (.invalidArgs "CUDA buffer length must be non-zero")
  else
    let _ ← call env .alloc
    mintBuffer lenBytes

def bufferToken (id : Nat) : SessionM (Nat × UInt64) := fun s =>
  match s.handles[id]? with
  | some ⟨.buffer lenBytes, token⟩ => .ok (token, lenBytes) s
  | some ⟨.module, _⟩ => .error (.invalidArgs "handle is not a CUDA buffer") s
  | none => .error (cudaInvalidHandle id) s

def moduleToken (id : Nat) : SessionM Nat := fun s =>
  match s.handles[id]? with
  | some ⟨.module, token⟩ => .ok token s
  | some ⟨.buffer _, _⟩ => .error (.invalidArgs "handle is not a CUDA module") s
  | none => .error (cudaInvalidHandle id) s

/-- The bytes of a buffer after a copy. -/
def CudaHostSession.copy (s : CudaHostSession) (token : Nat) (bytes : List UInt8) :
    CudaHostSession :=
  { s with driver := { s.driver with
      buffers := s.driver.buffers.modify token fun buffer =>
        { buffer with copied := some bytes } } }

def copyInBytes (buffer : Nat) (bytes : List UInt8) (dtype : DeviceDataType) : SessionM Unit := do
  requireAdmitted
  if bytes.length % dtype.byteWidth ≠ 0 then throw (cudaMisalignedTail dtype bytes.length)
  else
    let (token, lenBytes) ← bufferToken buffer
    if bytes.length ≠ lenBytes.toNat then
      throw (.invalidArgs s!"copy_in size mismatch: buffer {lenBytes} bytes, got {bytes.length}")
    else
      let _ ← call env .copyIn
      modify (·.copy token bytes)

/-- Copy `f32` values in; a value is its bits. -/
def copyInF32 (buffer : Nat) (values : List UInt32) : SessionM Unit :=
  copyInBytes env buffer (values.flatMap pushU32) .f32

/-- The tokens of buffers, in turn. -/
def bufferTokens : List Nat → SessionM (List Nat)
  | [] => pure []
  | id :: rest => do
    let (token, _) ← bufferToken id
    let tokens ← bufferTokens rest
    pure (token :: tokens)

/-- A launch the driver took. -/
def CudaHostSession.launch (s : CudaHostSession) (module : Nat) (entry : String)
    (tokens : List Nat) (grid block : Axes) : CudaHostSession :=
  { s with driver := { s.driver with
      launches := s.driver.launches ++ [⟨module, entry,
        tokens.map fun token => (token, s.driver.buffers[token]?), grid, block⟩] } }

def sync : SessionM Unit := do
  requireAdmitted
  let _ ← call env .sync

def launchKernel3d (module : Nat) (entry : String) (buffers : List Nat) (grid block : Axes) :
    SessionM Unit := do
  requireAdmitted
  let token ← moduleToken module
  if entry = "" then throw (.invalidArgs "CUDA kernel entry name is empty")
  else
    let tokens ← bufferTokens buffers
    let _ ← call env .launch
    modify (·.launch token entry tokens grid block)
    let _ ← call env .sync

def readbackBytes (buffer : Nat) (dtype : DeviceDataType) : SessionM (List UInt8) := do
  requireAdmitted
  let (_, lenBytes) ← bufferToken buffer
  if lenBytes.toNat % dtype.byteWidth ≠ 0 then throw (cudaMisalignedTail dtype lenBytes.toNat)
  else
    let number ← call env .copyOut
    let bytes := env.copyOut number
    if bytes.length ≠ lenBytes.toNat then
      throw (.internal "CUDA readback returned unexpected byte length")
    else pure bytes

def readbackF32 (buffer : Nat) : SessionM (List UInt32) := do
  let bytes ← readbackBytes env buffer .f32
  if bytes.length % 4 ≠ 0 then
    throw (.internal "CUDA readback returned unexpected f32 byte length")
  else pure (wordsOf bytes)

/-- `remove_cached_module`: buckets that become empty go. -/
def CudaHostSession.removeCachedModule (s : CudaHostSession) (id : Nat) : CudaHostSession :=
  { s with
    moduleCache := s.moduleCache.filterMap fun _ modules =>
      let modules := modules.filter (·.handle ≠ id)
      if modules.isEmpty then none else some modules }

/-- The driver's tables once an object has left them. -/
def CudaHostSession.freed (s : CudaHostSession) (token : Nat) : CudaHostSession :=
  { s with driver := { s.driver with
      modules := if token ∈ s.driver.buffers then s.driver.modules else s.driver.modules.erase token
      buffers := s.driver.buffers.erase token
      freeCalls := s.driver.freeCalls ++ [token] } }

/-- `free` of a driver: the object leaves its table before the call that may fail. -/
def free (token : Nat) : SessionM Unit := do
  let s ← get
  set (s.freed token)
  if token ∈ s.driver.buffers ∨ token ∈ s.driver.modules then
    let _ ← call env .free
  else pure ()

/-- A registration removed, from the cache too when it is that of a module. -/
def CudaHostSession.drop (s : CudaHostSession) (id : Nat) (handle : RegisteredHandle) :
    CudaHostSession :=
  let s := { s with handles := s.handles.erase id }
  if handle.kind = .module then s.removeCachedModule id else s

def release (id : Nat) : SessionM Unit := do
  let s ← get
  match s.handles[id]? with
  | none => throw (cudaInvalidHandle id)
  | some handle =>
    set (s.drop id handle)
    free env handle.backendToken

/-- Handles released one after the other, whatever each release answers. -/
def releaseEach : List Nat → CudaHostSession → List (Option HostError) × CudaHostSession
  | [], s => ([], s)
  | id :: rest, s =>
    match release env id s with
    | .ok _ t => ((releaseEach rest t).1.cons none, (releaseEach rest t).2)
    | .error e t => ((releaseEach rest t).1.cons (some e), (releaseEach rest t).2)

/-- The handles of the cache, by hash and then by age. -/
def CudaHostSession.cachedHandles (s : CudaHostSession) : List Nat :=
  s.moduleCache.toList.flatMap fun bucket => bucket.2.map (·.handle)

/-- `teardown`: all are released, and the first error is answered. -/
def teardown : SessionM Unit := fun s =>
  let (outcomes, t) := releaseEach env s.cachedHandles s
  match outcomes.filterMap id with
  | [] => .ok () t
  | error :: _ => .error error t

end

/-! ## Live handles and driver objects -/

/-- The token is that of an object of the kind. -/
def DriverState.Holds (driver : DriverState) : CudaHandleKind → Nat → Prop
  | .module, token => token ∈ driver.modules
  | .buffer lenBytes, token => driver.buffers[token]?.map (·.lenBytes) = some lenBytes

/-- Every live handle names an object of its own that was never freed, no token was freed twice,
    and each cached image has one live handle, of a module loaded from it. -/
structure Consistent (s : CudaHostSession) : Prop where
  ids : ∀ (id : Nat) (handle : RegisteredHandle), s.handles[id]? = some handle → id < s.nextId
  holds : ∀ (id : Nat) (handle : RegisteredHandle), s.handles[id]? = some handle →
    s.driver.Holds handle.kind handle.backendToken
  unfreed : ∀ (id : Nat) (handle : RegisteredHandle), s.handles[id]? = some handle →
    handle.backendToken ∉ s.driver.freeCalls
  own : ∀ (id id' : Nat) (handle handle' : RegisteredHandle), s.handles[id]? = some handle →
    s.handles[id']? = some handle' → handle.backendToken = handle'.backendToken → id = id'
  minted : ∀ (id : Nat) (handle : RegisteredHandle), s.handles[id]? = some handle →
    handle.backendToken < s.driver.nextToken
  freed : ∀ token ∈ s.driver.freeCalls, token < s.driver.nextToken
  freedOnce : s.driver.freeCalls.Nodup
  hashed : ∀ (hash : UInt64) (entries : List CachedModule), s.moduleCache[hash]? = some entries →
    ∀ entry ∈ entries, Policy.fnv1a64 entry.image = hash
  cached : ∀ (hash : UInt64) (entries : List CachedModule), s.moduleCache[hash]? = some entries →
    ∀ entry ∈ entries, ∃ token : Nat, s.handles[entry.handle]? = some ⟨.module, token⟩ ∧
      s.driver.modules[token]? = some entry.image
  images : ∀ (hash : UInt64) (entries : List CachedModule), s.moduleCache[hash]? = some entries →
    (entries.map (·.image)).Nodup

theorem opened_consistent (nextToken : Nat) (admitted : Bool) :
    Consistent (opened nextToken admitted) := by
  constructor <;> simp [opened]

section

variable {env : CudaDriver} {s t u : CudaHostSession}

theorem cachedAt_iff (h : Consistent s) {image : List UInt8} {handle : Nat} :
    s.cachedAt image = some handle ↔
      ∃ entries, s.moduleCache[Policy.fnv1a64 image]? = some entries ∧
        ⟨image, handle⟩ ∈ entries := by
  rw [CudaHostSession.cachedAt]
  cases hbucket : s.moduleCache[Policy.fnv1a64 image]? with
  | none => simp
  | some entries =>
    simp only [Option.getD_some, Option.map_eq_some_iff, Option.some.injEq, exists_eq_left']
    constructor
    · intro hfound
      obtain ⟨entry, hentry, rfl⟩ := hfound
      have himage : entry.image = image := by simpa using List.find?_some hentry
      exact himage ▸ List.mem_of_find?_eq_some hentry
    · intro hmem
      have hsome : (entries.find? (·.image = image)).isSome := by
        rw [List.find?_isSome]
        exact ⟨_, hmem, by simp⟩
      obtain ⟨entry, hentry⟩ := Option.isSome_iff_exists.mp hsome
      have himage : entry.image = image := by simpa using List.find?_some hentry
      have hsame := List.inj_on_of_nodup_map (h.images _ entries hbucket)
        (List.mem_of_find?_eq_some hentry) hmem himage
      exact ⟨entry, hentry, by rw [hsame]⟩

theorem cachedAt_live (h : Consistent s) {image : List UInt8} {handle : Nat}
    (hcached : s.cachedAt image = some handle) :
    ∃ token : Nat, s.handles[handle]? = some ⟨.module, token⟩ ∧
      s.driver.modules[token]? = some image := by
  obtain ⟨entries, hbucket, hmem⟩ := (cachedAt_iff h).mp hcached
  exact h.cached _ entries hbucket _ hmem

/-! ## What a call does to the books -/

/-- Ids are handed out once, and a live cached handle stays that of its image. -/
structure Follows (s t : CudaHostSession) : Prop where
  admitted : t.admitted = s.admitted
  nextId : s.nextId ≤ t.nextId
  handles : ∀ id : Nat, id < s.nextId → t.handles[id]? = s.handles[id]? ∨ t.handles[id]? = none
  cached : ∀ image id, id < s.nextId → s.cachedAt image = some id → t.handles[id]?.isSome →
    t.cachedAt image = some id

theorem Follows.refl (s : CudaHostSession) : Follows s s :=
  ⟨rfl, le_rfl, fun _ _ => .inl rfl, fun _ _ _ hcached _ => hcached⟩

theorem Follows.live_before (h : Follows s t) {id : Nat} (hid : id < s.nextId)
    (hlive : t.handles[id]?.isSome) : s.handles[id]?.isSome := by
  obtain hsame | hgone := h.handles id hid
  · rwa [← hsame]
  · rw [hgone] at hlive
    cases hlive

theorem Follows.trans (h : Follows s t) (h' : Follows t u) : Follows s u where
  admitted := h'.admitted.trans h.admitted
  nextId := h.nextId.trans h'.nextId
  handles := by
    intro id hid
    obtain hsame | hgone := h'.handles id (hid.trans_le h.nextId)
    · rw [hsame]
      exact h.handles id hid
    · exact .inr hgone
  cached := by
    intro image id hid hcached hlive
    have hid' := hid.trans_le h.nextId
    exact h'.cached image id hid' (h.cached image id hid hcached (h'.live_before hid' hlive)) hlive

/-- A consistent session stays so. -/
def Disciplined (s t : CudaHostSession) : Prop := Consistent s → Consistent t ∧ Follows s t

theorem Disciplined.refl (s : CudaHostSession) : Disciplined s s := fun h => ⟨h, .refl s⟩

theorem Disciplined.trans (s t u : CudaHostSession) (h : Disciplined s t)
    (h' : Disciplined t u) : Disciplined s u := by
  intro hs
  obtain ⟨ht, hfollows⟩ := h hs
  obtain ⟨hu, hfollows'⟩ := h' ht
  exact ⟨hu, hfollows.trans hfollows'⟩

/-- Calls, launches and the contents of buffers may differ. -/
structure SameBooks (s t : CudaHostSession) : Prop where
  admitted : t.admitted = s.admitted
  handles : t.handles = s.handles
  nextId : t.nextId = s.nextId
  moduleCache : t.moduleCache = s.moduleCache
  nextToken : t.driver.nextToken = s.driver.nextToken
  freeCalls : t.driver.freeCalls = s.driver.freeCalls
  modules : t.driver.modules = s.driver.modules
  buffers : ∀ token : Nat, t.driver.buffers[token]?.map (·.lenBytes) =
    s.driver.buffers[token]?.map (·.lenBytes)

theorem SameBooks.refl (s : CudaHostSession) : SameBooks s s :=
  ⟨rfl, rfl, rfl, rfl, rfl, rfl, rfl, fun _ => rfl⟩

theorem SameBooks.trans (s t u : CudaHostSession) (h : SameBooks s t) (h' : SameBooks t u) :
    SameBooks s u where
  admitted := h'.admitted.trans h.admitted
  handles := h'.handles.trans h.handles
  nextId := h'.nextId.trans h.nextId
  moduleCache := h'.moduleCache.trans h.moduleCache
  nextToken := h'.nextToken.trans h.nextToken
  freeCalls := h'.freeCalls.trans h.freeCalls
  modules := h'.modules.trans h.modules
  buffers token := (h'.buffers token).trans (h.buffers token)

theorem SameBooks.holds (h : SameBooks s t) {kind : CudaHandleKind} {token : Nat} :
    t.driver.Holds kind token ↔ s.driver.Holds kind token := by
  cases kind with
  | module => rw [DriverState.Holds, DriverState.Holds, h.modules]
  | buffer lenBytes => rw [DriverState.Holds, DriverState.Holds, h.buffers]

theorem SameBooks.cachedAt (h : SameBooks s t) (image : List UInt8) :
    t.cachedAt image = s.cachedAt image := by
  rw [CudaHostSession.cachedAt, h.moduleCache, CudaHostSession.cachedAt]

theorem SameBooks.disciplined (h : SameBooks s t) : Disciplined s t := by
  intro hs
  constructor
  · constructor
    · rw [h.handles, h.nextId]
      exact hs.ids
    · simp only [h.handles, h.holds]
      exact hs.holds
    · rw [h.handles, h.freeCalls]
      exact hs.unfreed
    · rw [h.handles]
      exact hs.own
    · rw [h.handles, h.nextToken]
      exact hs.minted
    · rw [h.freeCalls, h.nextToken]
      exact hs.freed
    · rw [h.freeCalls]
      exact hs.freedOnce
    · rw [h.moduleCache]
      exact hs.hashed
    · rw [h.moduleCache, h.handles, h.modules]
      exact hs.cached
    · rw [h.moduleCache]
      exact hs.images
  · refine ⟨h.admitted, h.nextId.ge, fun id _ => .inl (by rw [h.handles]), ?_⟩
    intro image id _ hcached _
    rw [h.cachedAt]
    exact hcached

/-! ## Calls that keep the books -/

/-- Driver calls and copies, one after the other. -/
inductive QuietStep : CudaHostSession → CudaHostSession → Prop where
  | refl (s : CudaHostSession) : QuietStep s s
  | call {s t : CudaHostSession} (h : QuietStep s t) : QuietStep s t.called
  | copy {s t : CudaHostSession} (h : QuietStep s t) (token : Nat) (bytes : List UInt8) :
    QuietStep s (t.copy token bytes)

theorem QuietStep.trans (s t u : CudaHostSession) (h : QuietStep s t) (h' : QuietStep t u) :
    QuietStep s u := by
  induction h' with
  | refl => exact h
  | call _ ih => exact ih.call
  | copy _ token bytes ih => exact ih.copy token bytes

theorem sameBooks_copy (token : Nat) (bytes : List UInt8) :
    SameBooks s (s.copy token bytes) := by
  refine ⟨rfl, rfl, rfl, rfl, rfl, rfl, rfl, fun token' => ?_⟩
  simp only [CudaHostSession.copy, Std.ExtTreeMap.getElem?_modify]
  split
  · next heq =>
    obtain rfl := Std.LawfulEqOrd.eq_of_compare heq
    cases s.driver.buffers[token]? <;> rfl
  · rfl

theorem QuietStep.sameBooks (h : QuietStep s t) : SameBooks s t := by
  induction h with
  | refl => exact .refl s
  | call _ ih => exact ih.trans _ _ _ ⟨rfl, rfl, rfl, rfl, rfl, rfl, rfl, fun _ => rfl⟩
  | copy _ token bytes ih => exact ih.trans _ _ _ (sameBooks_copy token bytes)

theorem quiet_requireAdmitted : Steps QuietStep requireAdmitted := by
  apply Steps.same QuietStep.refl
  intro s
  rw [after, requireAdmitted]
  cases s.admitted <;> rfl

theorem quiet_call (stage : Stage) : Steps QuietStep (call env stage) := by
  intro s
  rw [after, call]
  cases env.fails s.driver.calls stage <;> exact (QuietStep.refl s).call

theorem quiet_bufferToken (id : Nat) : Steps QuietStep (bufferToken id) := by
  apply Steps.same QuietStep.refl
  intro s
  rw [after, bufferToken]
  split
  · next heq =>
    split at heq
    all_goals cases heq
    all_goals rfl
  · next heq =>
    split at heq
    all_goals cases heq
    all_goals rfl

theorem quiet_moduleToken (id : Nat) : Steps QuietStep (moduleToken id) := by
  apply Steps.same QuietStep.refl
  intro s
  rw [after, moduleToken]
  split
  · next heq =>
    split at heq
    all_goals cases heq
    all_goals rfl
  · next heq =>
    split at heq
    all_goals cases heq
    all_goals rfl

theorem quiet_bufferTokens (ids : List Nat) : Steps QuietStep (bufferTokens ids) := by
  induction ids with
  | nil => exact Steps.pure QuietStep.refl _
  | cons id rest ih =>
    apply Steps.bind QuietStep.trans (quiet_bufferToken id)
    intro token
    exact Steps.bind QuietStep.trans ih fun _ => Steps.pure QuietStep.refl _

theorem quiet_copyInBytes (buffer : Nat) (bytes : List UInt8) (dtype : DeviceDataType) :
    Steps QuietStep (copyInBytes env buffer bytes dtype) := by
  apply Steps.bind QuietStep.trans quiet_requireAdmitted
  intro _
  split
  · exact Steps.throw QuietStep.refl _
  · apply Steps.bind QuietStep.trans (quiet_bufferToken buffer)
    intro (token, lenBytes)
    simp only
    split
    · exact Steps.throw QuietStep.refl _
    · apply Steps.bind QuietStep.trans (quiet_call .copyIn)
      intro _ s
      exact (QuietStep.refl s).copy token bytes

theorem quiet_sync : Steps QuietStep (sync env) := by
  apply Steps.bind QuietStep.trans quiet_requireAdmitted
  intro _
  exact Steps.bind QuietStep.trans (quiet_call .sync) fun _ => Steps.pure QuietStep.refl _

theorem quiet_readbackF32 (buffer : Nat) : Steps QuietStep (readbackF32 env buffer) := by
  apply Steps.bind QuietStep.trans
  · apply Steps.bind QuietStep.trans quiet_requireAdmitted
    intro _
    apply Steps.bind QuietStep.trans (quiet_bufferToken buffer)
    intro (token, lenBytes)
    simp only
    split
    · exact Steps.throw QuietStep.refl _
    · apply Steps.bind QuietStep.trans (quiet_call .copyOut)
      intro number
      split
      · exact Steps.throw QuietStep.refl _
      · exact Steps.pure QuietStep.refl _
  · intro bytes
    split
    · exact Steps.throw QuietStep.refl _
    · exact Steps.pure QuietStep.refl _

theorem sameBooks_launchKernel3d (module : Nat) (entry : String) (buffers : List Nat)
    (grid block : Axes) : Steps SameBooks (launchKernel3d env module entry buffers grid block) := by
  have hquiet : ∀ {α : Type} {x : SessionM α}, Steps QuietStep x → Steps SameBooks x :=
    fun h => h.imp fun _ _ => QuietStep.sameBooks
  apply Steps.bind SameBooks.trans (hquiet quiet_requireAdmitted)
  intro _
  apply Steps.bind SameBooks.trans (hquiet (quiet_moduleToken module))
  intro token
  split
  · exact Steps.throw SameBooks.refl _
  · apply Steps.bind SameBooks.trans (hquiet (quiet_bufferTokens buffers))
    intro tokens
    apply Steps.bind SameBooks.trans (hquiet (quiet_call .launch))
    intro _
    apply Steps.bind SameBooks.trans
    · intro s
      exact ⟨rfl, rfl, rfl, rfl, rfl, rfl, rfl, fun _ => rfl⟩
    · intro _
      exact Steps.bind SameBooks.trans (hquiet (quiet_call .sync)) fun _ =>
        Steps.pure SameBooks.refl _

/-! ## New handles -/

theorem handles_mint (kind : CudaHandleKind) (modules : BTreeMap Nat (List UInt8))
    (buffers : BTreeMap Nat DeviceBuffer) (id : Nat) :
    (s.mint kind modules buffers).handles[id]? =
      if id = s.nextId then some ⟨kind, s.driver.nextToken⟩ else s.handles[id]? := by
  simp only [CudaHostSession.mint, Std.ExtTreeMap.getElem?_insert,
    Std.LawfulEqOrd.compare_eq_iff_eq, @eq_comm Nat s.nextId]

theorem mint_disciplined {kind : CudaHandleKind} {modules : BTreeMap Nat (List UInt8)}
    {buffers : BTreeMap Nat DeviceBuffer}
    (hmodules : ∀ token : Nat, token ≠ s.driver.nextToken →
      modules[token]? = s.driver.modules[token]?)
    (hbuffers : ∀ token : Nat, token ≠ s.driver.nextToken →
      buffers[token]? = s.driver.buffers[token]?)
    (hnew : (s.mint kind modules buffers).driver.Holds kind s.driver.nextToken) :
    Disciplined s (s.mint kind modules buffers) := by
  intro hs
  -- a handle of the new session is the new one or an old one
  have hcases : ∀ {id handle}, (s.mint kind modules buffers).handles[id]? = some handle →
      id = s.nextId ∧ handle = ⟨kind, s.driver.nextToken⟩ ∨
        id ≠ s.nextId ∧ s.handles[id]? = some handle := by
    intro id handle hfound
    rw [handles_mint] at hfound
    split at hfound
    · next heq => exact .inl ⟨heq, (Option.some.inj hfound).symm⟩
    · next hne => exact .inr ⟨hne, hfound⟩
  have holds : ∀ {kind' token}, token ≠ s.driver.nextToken → s.driver.Holds kind' token →
      (s.mint kind modules buffers).driver.Holds kind' token := by
    intro kind' token hne hholds
    cases kind' with
    | module =>
      obtain ⟨image, himage⟩ := (mem_iff_getElem? _ _).mp hholds
      exact (mem_iff_getElem? _ _).mpr ⟨image, (hmodules token hne).trans himage⟩
    | buffer lenBytes => exact (congrArg _ (hbuffers token hne)).trans hholds
  have hkept : ∀ {id : Nat} {handle}, s.handles[id]? = some handle →
      (s.mint kind modules buffers).handles[id]? = some handle := by
    intro id handle hfound
    rw [handles_mint, if_neg (hs.ids id handle hfound).ne]
    exact hfound
  constructor
  · constructor
    · intro id handle hfound
      obtain ⟨rfl, -⟩ | ⟨-, hold⟩ := hcases hfound
      · exact Nat.lt_succ_self _
      · exact (hs.ids id handle hold).trans (Nat.lt_succ_self _)
    · intro id handle hfound
      obtain ⟨-, rfl⟩ | ⟨-, hold⟩ := hcases hfound
      · exact hnew
      · exact holds (hs.minted id handle hold).ne (hs.holds id handle hold)
    · intro id handle hfound
      obtain ⟨-, rfl⟩ | ⟨-, hold⟩ := hcases hfound
      · exact fun hfreed => absurd (hs.freed _ hfreed) (lt_irrefl _)
      · exact hs.unfreed id handle hold
    · intro id id' handle handle' hfound hfound' htoken
      obtain ⟨rfl, rfl⟩ | ⟨-, hold⟩ := hcases hfound
      · obtain ⟨rfl, -⟩ | ⟨-, hold'⟩ := hcases hfound'
        · rfl
        · exact absurd htoken (hs.minted id' handle' hold').ne'
      · obtain ⟨rfl, rfl⟩ | ⟨-, hold'⟩ := hcases hfound'
        · exact absurd htoken (hs.minted id handle hold).ne
        · exact hs.own id id' handle handle' hold hold' htoken
    · intro id handle hfound
      obtain ⟨-, rfl⟩ | ⟨-, hold⟩ := hcases hfound
      · exact Nat.lt_succ_self _
      · exact (hs.minted id handle hold).trans (Nat.lt_succ_self _)
    · exact fun token hfreed => (hs.freed token hfreed).trans (Nat.lt_succ_self _)
    · exact hs.freedOnce
    · exact hs.hashed
    · intro hash entries hbucket entry hentry
      obtain ⟨token, hhandle, himage⟩ := hs.cached hash entries hbucket entry hentry
      refine ⟨token, hkept hhandle, ?_⟩
      exact (hmodules token (hs.minted _ _ hhandle).ne).trans himage
    · exact hs.images
  · refine ⟨rfl, Nat.le_succ _, fun id hid => .inl ?_, fun _ _ _ hcached _ => hcached⟩
    rw [handles_mint, if_neg hid.ne]

theorem cache_disciplined {image : List UInt8} {handle : Nat} (hnew : s.cachedAt image = none)
    (hlive : ∃ token : Nat, s.handles[handle]? = some ⟨.module, token⟩ ∧
      s.driver.modules[token]? = some image) :
    Consistent s → Consistent (s.cache image handle) ∧ Follows s (s.cache image handle) ∧
      (s.cache image handle).cachedAt image = some handle := by
  intro hs
  have hcases : ∀ {hash entries}, (s.cache image handle).moduleCache[hash]? = some entries →
      hash = Policy.fnv1a64 image ∧
        entries = s.moduleCache[hash]?.getD [] ++ [⟨image, handle⟩] ∨
      hash ≠ Policy.fnv1a64 image ∧ s.moduleCache[hash]? = some entries := by
    intro hash entries hbucket
    simp only [CudaHostSession.cache, Std.ExtTreeMap.getElem?_insert,
      Std.LawfulEqOrd.compare_eq_iff_eq] at hbucket
    split at hbucket
    · next heq =>
      subst heq
      exact .inl ⟨rfl, (Option.some.inj hbucket).symm⟩
    · next hne => exact .inr ⟨Ne.symm hne, hbucket⟩
  have hold : ∀ {hash : UInt64} {entry : CachedModule}, entry ∈ s.moduleCache[hash]?.getD [] →
      ∃ entries, s.moduleCache[hash]? = some entries ∧ entry ∈ entries := by
    intro hash entry hentry
    cases hbucket : s.moduleCache[hash]? with
    | none => simp [hbucket] at hentry
    | some entries => exact ⟨entries, rfl, by simpa [hbucket] using hentry⟩
  have hconsistent : Consistent (s.cache image handle) := by
    refine ⟨hs.ids, hs.holds, hs.unfreed, hs.own, hs.minted, hs.freed, hs.freedOnce, ?_, ?_, ?_⟩
    · intro hash entries hbucket entry hentry
      obtain ⟨rfl, rfl⟩ | ⟨-, hbucket⟩ := hcases hbucket
      · obtain hentry | hentry := List.mem_append.mp hentry
        · obtain ⟨entries, hbucket, hentry⟩ := hold hentry
          exact hs.hashed _ entries hbucket entry hentry
        · rw [List.mem_singleton.mp hentry]
      · exact hs.hashed hash entries hbucket entry hentry
    · intro hash entries hbucket entry hentry
      obtain ⟨rfl, rfl⟩ | ⟨-, hbucket⟩ := hcases hbucket
      · obtain hentry | hentry := List.mem_append.mp hentry
        · obtain ⟨entries, hbucket, hentry⟩ := hold hentry
          exact hs.cached _ entries hbucket entry hentry
        · rw [List.mem_singleton.mp hentry]
          exact hlive
      · exact hs.cached hash entries hbucket entry hentry
    · intro hash entries hbucket
      obtain ⟨rfl, rfl⟩ | ⟨-, hbucket⟩ := hcases hbucket
      · rw [List.map_append, List.nodup_append]
        refine ⟨?_, List.nodup_singleton _, ?_⟩
        · cases hbucket : s.moduleCache[Policy.fnv1a64 image]? with
          | none => exact List.nodup_nil
          | some entries => exact hs.images _ entries hbucket
        · intro image' himage' image'' himage'' heq
          obtain ⟨entry, hentry, rfl⟩ := List.mem_map.mp himage'
          obtain ⟨entries, hbucket, hentry⟩ := hold hentry
          have himage : entry.image = image := heq.trans (by simpa using himage'')
          have hmem : (⟨image, entry.handle⟩ : CachedModule) ∈ entries := by
            rw [← himage]
            exact hentry
          have hcached := (cachedAt_iff hs).mpr ⟨entries, hbucket, hmem⟩
          rw [hnew] at hcached
          cases hcached
      · exact hs.images hash entries hbucket
  have hkeeps : ∀ {image' id}, s.cachedAt image' = some id →
      (s.cache image handle).cachedAt image' = some id := by
    intro image' id hcached
    obtain ⟨entries, hbucket, hentry⟩ := (cachedAt_iff hs).mp hcached
    apply (cachedAt_iff hconsistent).mpr
    simp only [CudaHostSession.cache, Std.ExtTreeMap.getElem?_insert,
      Std.LawfulEqOrd.compare_eq_iff_eq]
    split
    · next heq =>
      rw [heq, hbucket]
      exact ⟨_, rfl, List.mem_append_left _ hentry⟩
    · exact ⟨entries, hbucket, hentry⟩
  have hfollows : Follows s (s.cache image handle) :=
    ⟨rfl, le_rfl, fun _ _ => .inl rfl, fun _ _ _ hcached _ => hkeeps hcached⟩
  refine ⟨hconsistent, hfollows, ?_⟩
  apply (cachedAt_iff hconsistent).mpr
  refine ⟨s.moduleCache[Policy.fnv1a64 image]?.getD [] ++ [⟨image, handle⟩], ?_,
    List.mem_append_right _ (List.mem_singleton.mpr rfl)⟩
  simp [CudaHostSession.cache]

/-! ## Loading -/

theorem mint_after_call {kind : CudaHandleKind} {modules : BTreeMap Nat (List UInt8)}
    {buffers : BTreeMap Nat DeviceBuffer} (hcall : QuietStep s t)
    (hmint : Disciplined t (t.mint kind modules buffers)) :
    Disciplined s (t.mint kind modules buffers) :=
  Disciplined.trans s t _ hcall.sameBooks.disciplined hmint

theorem mint_module_disciplined (s : CudaHostSession) (image : List UInt8) :
    Disciplined s (s.mint .module (s.driver.modules.insert s.driver.nextToken image)
      s.driver.buffers) := by
  apply mint_disciplined
  · intro token hne
    rw [Std.ExtTreeMap.getElem?_insert, if_neg]
    exact fun heq => hne (Std.LawfulEqOrd.eq_of_compare heq).symm
  · exact fun _ _ => rfl
  · exact Std.ExtTreeMap.mem_insert_self

theorem mint_buffer_disciplined (s : CudaHostSession) (lenBytes : UInt64) :
    Disciplined s (s.mint (.buffer lenBytes) s.driver.modules
      (s.driver.buffers.insert s.driver.nextToken ⟨lenBytes, none⟩)) := by
  apply mint_disciplined
  · exact fun _ _ => rfl
  · intro token hne
    rw [Std.ExtTreeMap.getElem?_insert, if_neg]
    exact fun heq => hne (Std.LawfulEqOrd.eq_of_compare heq).symm
  · show (s.driver.buffers.insert s.driver.nextToken _)[s.driver.nextToken]?.map _ = _
    rw [Std.ExtTreeMap.getElem?_insert_self]
    rfl

theorem loadModule_cases (env : CudaDriver) (image : List UInt8) (s : CudaHostSession) :
    (∃ e t, loadModule env image s = .error e t ∧ QuietStep s t) ∨
      loadModule env image s = mintModule image s.called := by
  rw [loadModule, requireAdmitted_bind]
  split
  · split
    · exact .inl ⟨_, s, rfl, .refl s⟩
    · rw [bind_run, call]
      cases env.fails s.driver.calls .loadModule with
      | some e => exact .inl ⟨e, s.called, rfl, (QuietStep.refl s).call⟩
      | none => exact .inr rfl
  · exact .inl ⟨_, s, rfl, .refl s⟩

theorem allocBytes_cases (env : CudaDriver) (lenBytes : UInt64) (s : CudaHostSession) :
    (∃ e t, allocBytes env lenBytes s = .error e t ∧ QuietStep s t) ∨
      allocBytes env lenBytes s = mintBuffer lenBytes s.called := by
  rw [allocBytes, requireAdmitted_bind]
  split
  · split
    · exact .inl ⟨_, s, rfl, .refl s⟩
    · rw [bind_run, call]
      cases env.fails s.driver.calls .alloc with
      | some e => exact .inl ⟨e, s.called, rfl, (QuietStep.refl s).call⟩
      | none => exact .inr rfl
  · exact .inl ⟨_, s, rfl, .refl s⟩

theorem disciplined_loadModule (image : List UInt8) :
    Steps Disciplined (loadModule env image) := by
  intro s
  rw [after]
  obtain ⟨e, t, hrun, hsame⟩ | hrun := loadModule_cases env image s
  · rw [hrun]
    exact hsame.sameBooks.disciplined
  · rw [hrun]
    exact mint_after_call (QuietStep.refl s).call (mint_module_disciplined s.called image)

theorem disciplined_allocBytes (lenBytes : UInt64) :
    Steps Disciplined (allocBytes env lenBytes) := by
  intro s
  rw [after]
  obtain ⟨e, t, hrun, hsame⟩ | hrun := allocBytes_cases env lenBytes s
  · rw [hrun]
    exact hsame.sameBooks.disciplined
  · rw [hrun]
    exact mint_after_call (QuietStep.refl s).call (mint_buffer_disciplined s.called lenBytes)

/-- The answer of a cached load: a failure that leaves the handles, the cached handle of the image,
    or a new one that becomes it. -/
theorem loadCachedModule_cases (h : Consistent s) (image : List UInt8) :
    (∃ e t, loadCachedModule env image s = .error e t ∧ QuietStep s t ∧
      (s.admitted = true → image ≠ [] → s.cachedAt image = none)) ∨
    (∃ handle, loadCachedModule env image s = .ok handle s ∧ s.admitted = true ∧ image ≠ [] ∧
      s.cachedAt image = some handle) ∨
    ∃ t, loadCachedModule env image s = .ok s.nextId t ∧ s.admitted = true ∧ image ≠ [] ∧
      s.cachedAt image = none ∧ Consistent t ∧ Follows s t ∧ t.cachedAt image = some s.nextId ∧
        ∀ id ≠ s.nextId, t.handles[id]? = s.handles[id]? := by
  rw [loadCachedModule, requireAdmitted_bind]
  split
  · next hadmitted =>
    split
    · next himage => exact .inl ⟨_, s, rfl, .refl s, fun _ hne => absurd himage hne⟩
    · next himage =>
      cases hcached : s.cachedAt image with
      | some handle =>
        refine .inr (.inl ⟨handle, ?_, hadmitted, himage, rfl⟩)
        rw [bind_run]
        show (match s.cachedAt image with
          | some handle => pure handle
          | none => _ : SessionM Nat) s = _
        rw [hcached]
        rfl
      | none =>
        -- the image is loaded, and cached when the driver takes it
        have hload : (get >>= fun s => match s.cachedAt image with
            | some handle => pure handle
            | none => do
              let handle ← loadModule env image
              modify (·.cache image handle)
              pure handle : SessionM Nat) s =
            (loadModule env image >>= fun handle => do
              modify (·.cache image handle)
              pure handle : SessionM Nat) s := by
          rw [bind_run]
          show (match s.cachedAt image with
            | some handle => pure handle
            | none => _ : SessionM Nat) s = _
          rw [hcached]
        rw [hload, bind_run]
        obtain ⟨e, t, hrun, hsame⟩ | hrun := loadModule_cases env image s
        · refine .inl ⟨e, t, ?_, hsame, fun _ _ => rfl⟩
          rw [hrun]
        · obtain ⟨hminted, hfollows⟩ :=
            mint_after_call (QuietStep.refl s).call (mint_module_disciplined s.called image) h
          have hlive : ∃ token : Nat, (s.called.mint .module
              (s.driver.modules.insert s.driver.nextToken image)
              s.driver.buffers).handles[s.nextId]? = some ⟨.module, token⟩ ∧
              (s.driver.modules.insert s.driver.nextToken image)[token]? = some image := by
            refine ⟨s.driver.nextToken, ?_, Std.ExtTreeMap.getElem?_insert_self⟩
            exact (handles_mint _ _ _ _).trans (if_pos rfl)
          have hnone : (s.called.mint .module (s.driver.modules.insert s.driver.nextToken image)
              s.driver.buffers).cachedAt image = none := hcached
          obtain ⟨hconsistent, hfollows', hfound⟩ := cache_disciplined hnone hlive hminted
          refine .inr (.inr ⟨_, ?_, hadmitted, himage, rfl, hconsistent,
            hfollows.trans hfollows', hfound, ?_⟩)
          · rw [hrun]
            rfl
          · intro id hid
            have hold := @handles_mint s.called .module
              (s.driver.modules.insert s.driver.nextToken image) s.driver.buffers id
            exact hold.trans (if_neg hid)
  · next hadmitted =>
    exact .inl ⟨_, s, rfl, .refl s, fun hyes => absurd hyes hadmitted⟩

theorem disciplined_loadCachedModule (image : List UInt8) :
    Steps Disciplined (loadCachedModule env image) := by
  intro s hs
  rw [after]
  obtain ⟨e, t, hrun, hsame, -⟩ | ⟨handle, hrun, -⟩ |
      ⟨t, hrun, -, -, -, hconsistent, hfollows, -⟩ :=
    @loadCachedModule_cases env s hs image
  · rw [hrun]
    exact hsame.sameBooks.disciplined hs
  · rw [hrun]
    exact ⟨hs, .refl s⟩
  · rw [hrun]
    exact ⟨hconsistent, hfollows⟩

/-! ## Releasing -/

theorem quiet_free (token : Nat) :
    QuietStep (s.freed token) (after (free env token) s) := by
  have hafter : after (free env token) s =
      after (if token ∈ s.driver.buffers ∨ token ∈ s.driver.modules then do
        let _ ← call env .free
        else pure () : SessionM Unit) (s.freed token) := by
    rw [free, after_bind]
    rfl
  rw [hafter]
  split
  · exact Steps.bind QuietStep.trans (quiet_call .free) (fun _ => Steps.pure QuietStep.refl _) _
  · exact .refl _

theorem quiet_release {id : Nat} {handle : RegisteredHandle}
    (hlive : s.handles[id]? = some handle) :
    QuietStep ((s.drop id handle).freed handle.backendToken) (after (release env id) s) := by
  have hafter : after (release env id) s =
      after (free env handle.backendToken) (s.drop id handle) := by
    rw [release, after_bind]
    show after (match s.handles[id]? with
      | none => throw (cudaInvalidHandle id)
      | some handle => _) s = _
    rw [hlive]
    rfl
  rw [hafter]
  exact quiet_free _

theorem release_stale {id : Nat} (hstale : s.handles[id]? = none) :
    after (release env id) s = s := by
  rw [release, after_bind]
  show after (match s.handles[id]? with
    | none => throw (cudaInvalidHandle id)
    | some handle => _) s = _
  rw [hstale]
  rfl

theorem handles_drop (id id' : Nat) (handle : RegisteredHandle) :
    (s.drop id handle).handles[id']? = if id' = id then none else s.handles[id']? := by
  have herase : (s.drop id handle).handles = s.handles.erase id := by
    rw [CudaHostSession.drop]
    split <;> rfl
  simp only [herase, Std.ExtTreeMap.getElem?_erase, Std.LawfulEqOrd.compare_eq_iff_eq,
    @eq_comm Nat id]

/-- The bucket of a hash holds the entries of the one before that lead to other handles. -/
theorem bucket_drop (hs : Consistent s) {id : Nat} {handle : RegisteredHandle}
    (hlive : s.handles[id]? = some handle) {hash : UInt64} :
    (∀ entries, (s.drop id handle).moduleCache[hash]? = some entries →
      ∃ before, s.moduleCache[hash]? = some before ∧ entries = before.filter (·.handle ≠ id)) ∧
    ∀ before, s.moduleCache[hash]? = some before → ∀ entry ∈ before, entry.handle ≠ id →
      (s.drop id handle).moduleCache[hash]? = some (before.filter (·.handle ≠ id)) := by
  rw [CudaHostSession.drop]
  split
  · simp only [CudaHostSession.removeCachedModule, Std.ExtTreeMap.getElem?_filterMap']
    constructor
    · intro entries hbucket
      obtain ⟨before, hbefore, hentries⟩ := Option.bind_eq_some_iff.mp hbucket
      split at hentries
      · cases hentries
      · cases hentries
        exact ⟨before, hbefore, rfl⟩
    · intro before hbefore entry hentry hne
      have hkept : entry ∈ before.filter (·.handle ≠ id) := by simp [hentry, hne]
      rw [hbefore, Option.bind_some, if_neg]
      intro hempty
      rw [List.isEmpty_iff.mp hempty] at hkept
      cases hkept
  · next hbuffer =>
    -- the handle is that of a buffer, and those of the cache are not
    have hother : ∀ before, s.moduleCache[hash]? = some before →
        before.filter (·.handle ≠ id) = before := by
      intro before hbefore
      apply List.filter_eq_self.mpr
      intro entry hentry
      obtain ⟨token, hmodule, -⟩ := hs.cached hash before hbefore entry hentry
      have hne : entry.handle ≠ id := by
        intro heq
        rw [heq, hlive] at hmodule
        cases hmodule
        exact hbuffer rfl
      simpa using hne
    constructor
    · exact fun entries hbucket => ⟨entries, hbucket, (hother entries hbucket).symm⟩
    · intro before hbefore entry hentry hne
      rw [hother before hbefore]
      exact hbefore

theorem driver_drop (id : Nat) (handle : RegisteredHandle) :
    (s.drop id handle).driver = s.driver ∧ (s.drop id handle).nextId = s.nextId ∧
      (s.drop id handle).admitted = s.admitted := by
  rw [CudaHostSession.drop]
  split <;> exact ⟨rfl, rfl, rfl⟩

theorem holds_freed {token token' : Nat} {kind : CudaHandleKind} (hne : token' ≠ token)
    (h : s.driver.Holds kind token') : (s.freed token).driver.Holds kind token' := by
  have hcompare : ¬ compare token token' = .eq :=
    fun heq => hne (Std.LawfulEqOrd.eq_of_compare heq).symm
  cases kind with
  | module =>
    show token' ∈ (if token ∈ s.driver.buffers then s.driver.modules
      else s.driver.modules.erase token)
    split
    · exact h
    · rw [Std.ExtTreeMap.mem_erase]
      exact ⟨hcompare, h⟩
  | buffer lenBytes =>
    show (s.driver.buffers.erase token)[token']?.map _ = _
    rw [Std.ExtTreeMap.getElem?_erase, if_neg hcompare]
    exact h

theorem modules_freed {token token' : Nat} (hne : token' ≠ token) :
    (s.freed token).driver.modules[token']? = s.driver.modules[token']? := by
  have hcompare : ¬ compare token token' = .eq :=
    fun heq => hne (Std.LawfulEqOrd.eq_of_compare heq).symm
  show (if token ∈ s.driver.buffers then s.driver.modules
    else s.driver.modules.erase token)[token']? = _
  split
  · rfl
  · rw [Std.ExtTreeMap.getElem?_erase, if_neg hcompare]

theorem disciplined_drop {id : Nat} {handle : RegisteredHandle}
    (hlive : s.handles[id]? = some handle) :
    Disciplined s ((s.drop id handle).freed handle.backendToken) := by
  intro hs
  obtain ⟨hdriver, hnextId, hadmitted⟩ := driver_drop (s := s) id handle
  have hcases : ∀ {id' : Nat} {handle' : RegisteredHandle},
      ((s.drop id handle).freed handle.backendToken).handles[id']? = some handle' →
        s.handles[id']? = some handle' ∧ handle'.backendToken ≠ handle.backendToken := by
    intro id' handle' hfound
    have hfound : (s.drop id handle).handles[id']? = some handle' := hfound
    rw [handles_drop] at hfound
    split at hfound
    · cases hfound
    · next hne => exact ⟨hfound, fun htoken => hne (hs.own _ _ _ _ hfound hlive htoken)⟩
  have hkept : ∀ {id' : Nat}, id' ≠ id →
      ((s.drop id handle).freed handle.backendToken).handles[id']? = s.handles[id']? := by
    intro id' hne
    show (s.drop id handle).handles[id']? = _
    rw [handles_drop, if_neg hne]
  have hconsistent : Consistent ((s.drop id handle).freed handle.backendToken) := by
    constructor
    · intro id' handle' hfound
      show id' < (s.drop id handle).nextId
      rw [hnextId]
      exact hs.ids id' handle' (hcases hfound).1
    · intro id' handle' hfound
      apply holds_freed (hcases hfound).2
      rw [hdriver]
      exact hs.holds id' handle' (hcases hfound).1
    · intro id' handle' hfound
      show handle'.backendToken ∉ (s.drop id handle).driver.freeCalls ++ [handle.backendToken]
      rw [hdriver, List.mem_append, List.mem_singleton]
      exact not_or.mpr ⟨hs.unfreed id' handle' (hcases hfound).1, (hcases hfound).2⟩
    · intro id' id'' handle' handle'' hfound hfound'
      exact hs.own id' id'' handle' handle'' (hcases hfound).1 (hcases hfound').1
    · intro id' handle' hfound
      show _ < (s.drop id handle).driver.nextToken
      rw [hdriver]
      exact hs.minted id' handle' (hcases hfound).1
    · intro token hfreed
      have hfreed : token ∈ (s.drop id handle).driver.freeCalls ++ [handle.backendToken] := hfreed
      show token < (s.drop id handle).driver.nextToken
      rw [hdriver] at hfreed ⊢
      obtain hfreed | hfreed := List.mem_append.mp hfreed
      · exact hs.freed token hfreed
      · rw [List.mem_singleton.mp hfreed]
        exact hs.minted id handle hlive
    · show ((s.drop id handle).driver.freeCalls ++ [handle.backendToken]).Nodup
      rw [hdriver]
      apply List.nodup_append.mpr
      refine ⟨hs.freedOnce, List.nodup_singleton _, fun token hfreed token' htoken' heq => ?_⟩
      rw [List.mem_singleton.mp htoken'] at heq
      exact hs.unfreed id handle hlive (heq ▸ hfreed)
    · intro hash entries hbucket entry hentry
      obtain ⟨before, hbefore, rfl⟩ := (bucket_drop hs hlive).1 entries hbucket
      exact hs.hashed hash before hbefore entry (List.mem_filter.mp hentry).1
    · intro hash entries hbucket entry hentry
      obtain ⟨before, hbefore, rfl⟩ := (bucket_drop hs hlive).1 entries hbucket
      obtain ⟨hmem, hne⟩ := List.mem_filter.mp hentry
      obtain ⟨token, hmodule, himage⟩ := hs.cached hash before hbefore entry hmem
      have hfound := (hkept (by simpa using hne)).trans hmodule
      refine ⟨token, hfound, ?_⟩
      rw [modules_freed (hcases hfound).2, hdriver]
      exact himage
    · intro hash entries hbucket
      obtain ⟨before, hbefore, rfl⟩ := (bucket_drop hs hlive).1 entries hbucket
      exact (hs.images hash before hbefore).sublist (List.filter_sublist.map _)
  refine ⟨hconsistent, hadmitted, hnextId.ge, fun id' _ => ?_, ?_⟩
  · show (s.drop id handle).handles[id']? = _ ∨ (s.drop id handle).handles[id']? = none
    rw [handles_drop]
    split
    · exact .inr rfl
    · exact .inl rfl
  · intro image id' _ hcached hstill
    have hne : id' ≠ id := by
      intro heq
      have hgone : (s.drop id handle).handles[id']? = none := by
        rw [handles_drop, if_pos heq]
      have hstill : ((s.drop id handle).handles[id']?).isSome := hstill
      rw [hgone] at hstill
      cases hstill
    obtain ⟨before, hbefore, hentry⟩ := (cachedAt_iff hs).mp hcached
    exact (cachedAt_iff hconsistent).mpr ⟨_, (bucket_drop hs hlive).2 before hbefore _ hentry hne,
      by simp [hentry, hne]⟩

theorem disciplined_release (id : Nat) : Steps Disciplined (release env id) := by
  intro s
  cases hfound : s.handles[id]? with
  | none =>
    rw [release_stale hfound]
    exact .refl s
  | some handle =>
    exact Disciplined.trans _ _ _ (disciplined_drop hfound)
      (quiet_release hfound).sameBooks.disciplined

theorem handles_release (id id' : Nat) :
    (after (release env id) s).handles[id']? = if id' = id then none else s.handles[id']? := by
  cases hfound : s.handles[id]? with
  | none =>
    rw [release_stale hfound]
    split
    · next heq => rw [heq, hfound]
    · rfl
  | some handle =>
    rw [(quiet_release hfound).sameBooks.handles]
    exact handles_drop id id' handle

theorem cachedAt_release (hs : Consistent s) {id : Nat} {image : List UInt8} {handle : Nat}
    (h : (after (release env id) s).cachedAt image = some handle) :
    s.cachedAt image = some handle := by
  cases hfound : s.handles[id]? with
  | none => rwa [release_stale hfound] at h
  | some registered =>
    have hsame := @quiet_release env _ _ _ hfound
    rw [hsame.sameBooks.cachedAt] at h
    obtain ⟨entries, hbucket, hentry⟩ := (cachedAt_iff (disciplined_drop hfound hs).1).mp h
    obtain ⟨before, hbefore, rfl⟩ := (bucket_drop hs hfound).1 entries hbucket
    exact (cachedAt_iff hs).mpr ⟨before, hbefore, (List.mem_filter.mp hentry).1⟩

/-! ## Releasing several -/

theorem releaseEach_cons (id : Nat) (rest : List Nat) (s : CudaHostSession) :
    (releaseEach env (id :: rest) s).2 = (releaseEach env rest (after (release env id) s)).2 := by
  rw [releaseEach, after]
  cases release env id s <;> rfl

theorem disciplined_releaseEach (ids : List Nat) (s : CudaHostSession) :
    Disciplined s (releaseEach env ids s).2 := by
  induction ids generalizing s with
  | nil => exact .refl s
  | cons id rest ih =>
    rw [releaseEach_cons]
    exact Disciplined.trans _ _ _ (disciplined_release id s) (ih _)

theorem handles_releaseEach (ids : List Nat) (s : CudaHostSession) (id' : Nat) :
    (releaseEach env ids s).2.handles[id']? = if id' ∈ ids then none else s.handles[id']? := by
  induction ids generalizing s with
  | nil => simp [releaseEach]
  | cons id rest ih =>
    rw [releaseEach_cons, ih, handles_release]
    by_cases hrest : id' ∈ rest
    · simp [hrest]
    · by_cases hid : id' = id <;> simp [hrest, hid]

theorem cachedAt_releaseEach (ids : List Nat) (hs : Consistent s) {image : List UInt8}
    {handle : Nat} (h : (releaseEach env ids s).2.cachedAt image = some handle) :
    s.cachedAt image = some handle := by
  induction ids generalizing s with
  | nil => exact h
  | cons id rest ih =>
    rw [releaseEach_cons] at h
    exact cachedAt_release hs (ih (disciplined_release id s hs).1 h)

theorem mem_cachedHandles (hs : Consistent s) {image : List UInt8} {handle : Nat}
    (h : s.cachedAt image = some handle) : handle ∈ s.cachedHandles := by
  obtain ⟨entries, hbucket, hentry⟩ := (cachedAt_iff hs).mp h
  apply List.mem_flatMap.mpr
  exact ⟨_, Std.ExtTreeMap.mem_toList_iff_getElem?_eq_some.mpr hbucket,
    List.mem_map.mpr ⟨_, hentry, rfl⟩⟩

theorem after_teardown (s : CudaHostSession) :
    after (teardown env) s = (releaseEach env s.cachedHandles s).2 := by
  rw [after, teardown]
  simp only
  split
  · next heq =>
    split at heq <;> cases heq
    rfl
  · next heq =>
    split at heq <;> cases heq
    rfl

theorem disciplined_teardown : Steps Disciplined (teardown env) := by
  intro s
  rw [after_teardown]
  exact disciplined_releaseEach _ s

/-- After a teardown no image is cached, and the handles that were are gone. -/
theorem teardown_empties (hs : Consistent s) (image : List UInt8) :
    (after (teardown env) s).cachedAt image = none ∧
      ∀ handle, s.cachedAt image = some handle →
        (after (teardown env) s).handles[handle]? = none := by
  have hgone : ∀ handle, s.cachedAt image = some handle →
      (after (teardown env) s).handles[handle]? = none := by
    intro handle hcached
    rw [after_teardown, handles_releaseEach, if_pos (mem_cachedHandles hs hcached)]
  refine ⟨?_, hgone⟩
  cases hcached : (after (teardown env) s).cachedAt image with
  | none => rfl
  | some handle =>
    obtain ⟨token, hlive, -⟩ := cachedAt_live (disciplined_teardown s hs).1 hcached
    rw [after_teardown] at hcached
    rw [hgone handle (cachedAt_releaseEach _ hs hcached)] at hlive
    cases hlive

end

end FaberHosts.Cuda
