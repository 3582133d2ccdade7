import FaberHosts.Macos.ProgramSession

/-!
# Copying the inputs of a resident step

A resident step copies its inputs once, before the first launch; the other modes copy the
input slots of each kernel just before its launch.  Admission rejects a per-step input that
a kernel writes, so both leave the same contents in the buffers of every launch.  Here the
memory of the device is what the handles' ids hold, and a launch may leave anything in its
output and in-out slots.
-/

namespace FaberHosts.Macos
open FaberHosts.Lib FaberHosts.Coordinator FaberHosts.Descriptor FaberHosts.Session

/-! ## The two ways to copy -/

/-- What the storage behind each handle id holds. -/
abbrev Memory := Nat → List UInt8

/-- The `f32` values of an invocation, by buffer id; a value is its bits. -/
abbrev Inputs := BTreeMap UInt32 (List UInt32)

inductive CopyMode where
  | perStep
  | onceInit
  | residentStep
  deriving DecidableEq, Repr

section Copying

variable (backend : DeviceBackend) (inner : ProgramInner) (inputs : Inputs)

/-- `copy_in_f32` on the memory. -/
def storeF32 (handle : DeviceHandle) (values : List UInt32) (memory : Memory) :
    Except HostError Memory :=
  match handle.lenBytes with
  | none => .error (.invalidArgs s!"handle is not a {backendTitle backend} buffer")
  | some lenBytes => do
    let bytes ← admittedBytes backend lenBytes (values.flatMap pushU32) .f32
    .ok (Function.update memory handle.id bytes)

/-- The copy of one input, with the errors of its caller. -/
def copyInput (key : BufferKey) (elementCount : UInt64) (missing : HostError)
    (mismatch : List UInt32 → HostError) (memory : Memory) : Except HostError Memory :=
  match inputs[key.1]? with
  | none => .error missing
  | some values =>
    if values.length ≠ elementCount.toNat then .error (mismatch values)
    else
      match inner.buffers[key]? with
      | none => .error (.internal "session input buffer disappeared")
      | some handle => storeF32 backend handle values memory

/-- One entry of the loop in `copy_resident_inputs`. -/
def copyResidentInput (entry : BufferKey × SessionBufferMeta) (done : Nat × Memory) :
    Except HostError (Nat × Memory) :=
  if entry.2.role ≠ .input ∨ entry.2.lifetime ≠ .perStep then .ok done
  else do
    let memory ← copyInput backend inner inputs entry.1 entry.2.elementCount
      (.shapeMismatch (s!"resident step declares PerStep input `{entry.2.name}` " ++
        s!"(id {entry.1.1}) but no host input was provided"))
      (fun values => .shapeMismatch (s!"input for buffer `{entry.2.name}` (id {entry.1.1}) has " ++
        s!"{values.length} f32 elements but the resident session declares " ++
        s!"{entry.2.elementCount}"))
      done.2
    .ok (done.1 + 1, memory)

/-- `copy_resident_inputs`, over the metadata in key order; a key is met once. -/
def copyResidentInputs (memory : Memory) : Except HostError (Nat × Memory) :=
  inner.bufferMeta.toList.foldlM (fun done entry => copyResidentInput backend inner inputs entry done)
    (0, memory)

/-- Whether the mode copies an input slot, by the lifetime of its buffer. -/
def CopyMode.copies (mode : CopyMode) (slot : SessionSlot) : Bool :=
  match mode with
  | .perStep => true
  | .residentStep => (inner.bufferMeta[slot.key]?).any (·.lifetime = .perStep)
  | .onceInit => false

/-- One slot of the loop in `copy_declared_inputs`. -/
def copyDeclaredInput (kernel : SessionKernel) (mode : CopyMode) (byteInputs : List UInt32)
    (slot : SessionSlot) (done : Nat × Memory) : Except HostError (Nat × Memory) :=
  if slot.role ≠ .input ∨ slot.bufferId ∈ byteInputs ∨ mode.copies inner slot = false then .ok done
  else do
    let expected := ((inner.bufferMeta[slot.key]?).map (·.elementCount)).getD 0
    let memory ← copyInput backend inner inputs slot.key expected
      (.shapeMismatch (s!"descriptor kernel `{kernel.entry}` declares input buffer " ++
        s!"`{slot.bufferName}` (id {slot.bufferId}) but no host input was provided"))
      (fun values => .shapeMismatch (s!"input for buffer `{slot.bufferName}` " ++
        s!"(id {slot.bufferId}) has {values.length} f32 elements but kernel `{kernel.entry}` " ++
        s!"declares {expected}"))
      done.2
    .ok (done.1 + 1, memory)

/-- `copy_declared_inputs`. -/
def copyDeclaredInputs (kernel : SessionKernel) (mode : CopyMode) (byteInputs : List UInt32)
    (memory : Memory) : Except HostError (Nat × Memory) :=
  kernel.slots.foldlM (fun done slot =>
    copyDeclaredInput backend inner inputs kernel mode byteInputs slot done) (0, memory)

end Copying

/-! ## The launches of a step -/

section Launches

variable (inner : ProgramInner)
  -- what a launch leaves in a slot, from what its slots hold
  (effect : SessionLaunch → List (List UInt8) → Nat → List UInt8)

/-- The handles of a kernel's slots. -/
def slotHandles (kernel : SessionKernel) : Except HostError (List DeviceHandle) :=
  kernel.slots.mapM fun slot =>
    match inner.buffers[slot.key]? with
    | none => .error (.internal "session buffer disappeared during launch")
    | some handle => .ok handle

/-- What a launch sees: the contents of its kernel's slots. -/
def seenBy (handles : List DeviceHandle) (memory : Memory) : List (List UInt8) :=
  handles.map fun handle => memory handle.id

/-- A kernel writes its output and in-out slots. -/
def launchWrites (launch : SessionLaunch) (seen : List (List UInt8))
    (slots : List ((SessionSlot × DeviceHandle) × Nat)) (memory : Memory) : Memory :=
  slots.foldl (fun memory slot =>
    if slot.1.1.role = .input then memory
    else Function.update memory slot.1.2.id (effect launch seen slot.2)) memory

/-- The launches in order, each after its copies: what each of them sees, and the error
    that stops them, if any. -/
def runLaunches (copy : SessionKernel → Memory → Except HostError (Nat × Memory)) :
    List SessionLaunch → Memory → List (List (List UInt8)) × Option HostError
  | [], _ => ([], none)
  | launch :: launches, memory =>
    match inner.kernels[launch.kernelIndex]? with
    | none => ([], some (.internal "session launch references missing kernel"))
    | some kernel =>
      match slotHandles inner kernel with
      | .error error => ([], some error)
      | .ok handles =>
        match copy kernel memory with
        | .error error => ([], some error)
        | .ok (_, memory) =>
          let seen := seenBy handles memory
          let (later, ending) := runLaunches copy launches
            (launchWrites effect launch seen (kernel.slots.zip handles).zipIdx memory)
          (seen :: later, ending)

end Launches

/-! ## Which keys the host fills -/

/-- A key whose buffer the host fills in each step. -/
def ResidentKey (inner : ProgramInner) (key : BufferKey) : Prop :=
  ∃ m, inner.bufferMeta[key]? = some m ∧ m.role = .input ∧ m.lifetime = .perStep

section Keys

variable {d : DeviceDescriptor} {device : Device} {inner : ProgramInner}

theorem meta_of_slot (hplan : PlanOf d inner) {slot : DescriptorBuffer} (hslot : slot ∈ d.slots) :
    ∃ first ∈ d.slots, first.key = slot.key ∧
      inner.bufferMeta[slot.key]? = some (metaOf first (first.byteLength.getD 0)) := by
  obtain ⟨first, hfound, hfirst, hkey⟩ := exists_find?_key DescriptorBuffer.key hslot
  refine ⟨first, hfirst, hkey, ?_⟩
  rw [hplan.bufferMeta, getElem?_sessionMeta, hfound, Option.map_some]

/-- A slot's key is filled by the host exactly when the slot is a per-step input: no other
    slot of its buffer is anything else. -/
theorem residentKey_iff (haccepted : d.Accepted) (hplan : PlanOf d inner)
    {slot : DescriptorBuffer} (hslot : slot ∈ d.slots) :
    ResidentKey inner slot.key ↔ slot.lifetime = .perStep ∧ slot.role = .input := by
  have hrules := ((DeviceDescriptor.accepted_iff d).mp haccepted).1
  obtain ⟨first, hfirst, hkey, hmeta⟩ := meta_of_slot hplan hslot
  have hid : first.bufferId = slot.bufferId := congrArg Prod.fst hkey
  have hlifetime := (hrules.buffers first hfirst slot hslot).lifetime hid
  have hfrom := hrules.inputs first hfirst slot hslot hid
  have hto := hrules.inputs slot hslot first hfirst hid.symm
  unfold ResidentKey
  rw [hmeta]
  simp only [Option.some.injEq, exists_eq_left', metaOf]
  unfold isPerStepInput isPerStepWrite at hfrom hto
  simp only [decide_eq_true_eq, decide_eq_false_iff_not, not_and, ne_eq, not_not] at hfrom hto
  constructor
  · rintro ⟨hrole, hstep⟩
    have hslotStep : slot.lifetime = .perStep := hlifetime.symm.trans hstep
    exact ⟨hslotStep, hfrom ⟨hstep, hrole⟩ hslotStep⟩
  · rintro ⟨hstep, hrole⟩
    have hfirstStep : first.lifetime = .perStep := hlifetime.trans hstep
    exact ⟨hto ⟨hstep, hrole⟩ hfirstStep, hfirstStep⟩

theorem slot_of_kernel (hplan : PlanOf d inner) {kernel : SessionKernel}
    (hkernel : kernel ∈ inner.kernels) {slot : SessionSlot} (hslot : slot ∈ kernel.slots) :
    ∃ declared ∈ d.slots, slot = slotOf declared := by
  rw [hplan.kernels] at hkernel
  obtain ⟨source, hsource, rfl⟩ := List.mem_map.mp hkernel
  obtain ⟨declared, hdeclared, rfl⟩ := List.mem_map.mp hslot
  exact ⟨declared, List.mem_flatMap.mpr ⟨source, hsource, hdeclared⟩, rfl⟩

/-- A resident step copies the input slots of the keys that the host fills. -/
theorem copies_iff (haccepted : d.Accepted) (hplan : PlanOf d inner) {kernel : SessionKernel}
    (hkernel : kernel ∈ inner.kernels) {slot : SessionSlot} (hslot : slot ∈ kernel.slots) :
    slot.role = .input ∧ CopyMode.residentStep.copies inner slot = true ↔
      ResidentKey inner slot.key := by
  obtain ⟨declared, hdeclared, rfl⟩ := slot_of_kernel hplan hkernel hslot
  have hrules := ((DeviceDescriptor.accepted_iff d).mp haccepted).1
  obtain ⟨first, hfirst, hkey, hmeta⟩ := meta_of_slot hplan hdeclared
  have hid : first.bufferId = declared.bufferId := congrArg Prod.fst hkey
  have hlifetime := (hrules.buffers first hfirst declared hdeclared).lifetime hid
  have hsame : (slotOf declared).key = declared.key := rfl
  rw [hsame, residentKey_iff haccepted hplan hdeclared]
  unfold CopyMode.copies
  rw [hsame, hmeta, Option.any_some, decide_eq_true_eq]
  show declared.role = .input ∧ first.lifetime = .perStep ↔ _
  rw [hlifetime, and_comm]

theorem resident_apart (haccepted : d.Accepted) (hplan : PlanOf d inner)
    (hapart : HandlesApart d device inner) {key key' : BufferKey} {handle handle' : DeviceHandle}
    (hresident : ResidentKey inner key) (hheld : inner.buffers[key]? = some handle)
    (hheld' : inner.buffers[key']? = some handle') (hne : key ≠ key') : handle.id ≠ handle'.id := by
  intro hid
  obtain ⟨slot, hslot, rfl, hprogram⟩ :=
    hapart.apart key key' handle handle' (Or.inl hheld) (Or.inl hheld') hne hid
  have hstep := ((residentKey_iff haccepted hplan hslot).mp hresident).1
  rw [hprogram] at hstep
  cases hstep

end Keys

/-! ## What a copy leaves -/

section Copies

variable {backend : DeviceBackend} {inner : ProgramInner} {inputs : Inputs}

/-- The invocation supplies an input: its values fit, and these bytes go to its handle. -/
def Supplies (backend : DeviceBackend) (inner : ProgramInner) (inputs : Inputs) (key : BufferKey)
    (elementCount : UInt64) (handle : DeviceHandle) (bytes : List UInt8) : Prop :=
  ∃ values lenBytes, inputs[key.1]? = some values ∧ values.length = elementCount.toNat ∧
    inner.buffers[key]? = some handle ∧ handle.lenBytes = some lenBytes ∧
    admittedBytes backend lenBytes (values.flatMap pushU32) .f32 = .ok bytes

/-- A copy succeeds exactly when the input is supplied, whatever the memory and the texts
    of its errors. -/
theorem copyInput_ok_iff {key : BufferKey} {elementCount : UInt64} {missing : HostError}
    {mismatch : List UInt32 → HostError} {memory memory' : Memory} :
    copyInput backend inner inputs key elementCount missing mismatch memory = .ok memory' ↔
      ∃ handle bytes, Supplies backend inner inputs key elementCount handle bytes ∧
        memory' = Function.update memory handle.id bytes := by
  unfold copyInput Supplies storeF32
  cases hvalues : inputs[key.1]? with
  | none => simp
  | some values =>
    by_cases hlength : values.length = elementCount.toNat
    · cases hhandle : inner.buffers[key]? with
      | none => simp [hlength]
      | some handle =>
        cases hlen : handle.lenBytes with
        | none => simp [hlength, hlen]
        | some lenBytes =>
          cases hbytes : admittedBytes backend lenBytes (values.flatMap pushU32) .f32 with
          | error error =>
            simp [hlength, hlen, hbytes, Bind.bind, Except.bind]
          | ok bytes =>
            simp [hlength, hlen, hbytes, Bind.bind, Except.bind, eq_comm]
    · simp [hlength]

/-- After the one copy: every key the host fills was supplied, and holds its bytes. -/
def Filled (backend : DeviceBackend) (inner : ProgramInner) (inputs : Inputs)
    (memory : Memory) : Prop :=
  ∀ key m, inner.bufferMeta[key]? = some m → m.role = .input → m.lifetime = .perStep →
    ∃ handle bytes, Supplies backend inner inputs key m.elementCount handle bytes ∧
      memory handle.id = bytes

/-- The memories agree but for the buffers that the host fills. -/
def AgreeElsewhere (inner : ProgramInner) (memory memory' : Memory) : Prop :=
  ∀ id, (∀ key handle, ResidentKey inner key → inner.buffers[key]? = some handle →
    handle.id ≠ id) → memory id = memory' id

theorem copyResidentInput_ok {entry : BufferKey × SessionBufferMeta} {done done' : Nat × Memory}
    (h : copyResidentInput backend inner inputs entry done = .ok done') :
    (¬ (entry.2.role = .input ∧ entry.2.lifetime = .perStep) ∧ done'.2 = done.2) ∨
      (entry.2.role = .input ∧ entry.2.lifetime = .perStep) ∧ ∃ handle bytes,
        Supplies backend inner inputs entry.1 entry.2.elementCount handle bytes ∧
          done'.2 = Function.update done.2 handle.id bytes := by
  unfold copyResidentInput at h
  by_cases hskip : entry.2.role ≠ .input ∨ entry.2.lifetime ≠ .perStep
  · rw [if_pos hskip] at h
    cases h
    exact Or.inl ⟨not_and_or.mpr hskip, rfl⟩
  · rw [if_neg hskip] at h
    obtain ⟨memory, hcopy, hdone⟩ := bind_ok_iff.mp h
    cases hdone
    obtain ⟨handle, bytes, hsupplies, hmemory⟩ := copyInput_ok_iff.mp hcopy
    push Not at hskip
    exact Or.inr ⟨hskip, handle, bytes, hsupplies, hmemory⟩

theorem copyResidentInput_error {entry : BufferKey × SessionBufferMeta} {done : Nat × Memory}
    {error : HostError} (h : copyResidentInput backend inner inputs entry done = .error error) :
    (entry.2.role = .input ∧ entry.2.lifetime = .perStep) ∧
      ¬ ∃ handle bytes, Supplies backend inner inputs entry.1 entry.2.elementCount handle bytes := by
  unfold copyResidentInput at h
  by_cases hskip : entry.2.role ≠ .input ∨ entry.2.lifetime ≠ .perStep
  · rw [if_pos hskip] at h
    cases h
  · rw [if_neg hskip] at h
    push Not at hskip
    refine ⟨hskip, ?_⟩
    rintro ⟨handle, bytes, hsupplies⟩
    rcases bind_error_iff.mp h with hcopy | ⟨memory, -, hdone⟩
    · rw [copyInput_ok_iff.mpr ⟨handle, bytes, hsupplies, rfl⟩] at hcopy
      cases hcopy
    · cases hdone

variable {d : DeviceDescriptor} {device : Device}

/-- Induction over the entries: the copies after that of one entry go to other handles. -/
theorem copyResident_entries (haccepted : d.Accepted) (hplan : PlanOf d inner)
    (hapart : HandlesApart d device inner) {entries : List (BufferKey × SessionBufferMeta)}
    (hmeta : ∀ entry ∈ entries, inner.bufferMeta[entry.1]? = some entry.2)
    (hdistinct : (entries.map Prod.fst).Nodup) {done done' : Nat × Memory}
    (h : entries.foldlM (fun done entry => copyResidentInput backend inner inputs entry done) done =
      .ok done') :
    (∀ entry ∈ entries, entry.2.role = .input → entry.2.lifetime = .perStep →
      ∃ handle bytes, Supplies backend inner inputs entry.1 entry.2.elementCount handle bytes ∧
        done'.2 handle.id = bytes) ∧
    ∀ id, (∀ entry ∈ entries, ∀ handle, ResidentKey inner entry.1 →
      inner.buffers[entry.1]? = some handle → handle.id ≠ id) → done'.2 id = done.2 id := by
  induction entries generalizing done with
  | nil =>
    cases h
    exact ⟨nofun, fun _ _ => rfl⟩
  | cons entry entries ih =>
    rw [List.foldlM_cons] at h
    obtain ⟨middle, hfirst, hrest⟩ := bind_ok_iff.mp h
    obtain ⟨hmetaFirst, hmetaRest⟩ := List.forall_mem_cons.mp hmeta
    obtain ⟨hnew, hdistinct⟩ := List.nodup_cons.mp hdistinct
    obtain ⟨hcopied, hsame⟩ := ih hmetaRest hdistinct hrest
    rcases copyResidentInput_ok hfirst with ⟨hskipped, hmemory⟩ | ⟨hinput, handle, bytes, hsupplies,
      hmemory⟩
    · refine ⟨List.forall_mem_cons.mpr ⟨fun hrole hstep => absurd ⟨hrole, hstep⟩ hskipped, hcopied⟩,
        fun id hid => ?_⟩
      rw [hsame id fun other hother => hid other (List.mem_cons_of_mem _ hother), hmemory]
    · have hresident : ResidentKey inner entry.1 := ⟨entry.2, hmetaFirst, hinput⟩
      have hheld : inner.buffers[entry.1]? = some handle := by
        obtain ⟨-, -, -, -, hheld, -⟩ := hsupplies
        exact hheld
      have hlater : ∀ other ∈ entries, ∀ handle', ResidentKey inner other.1 →
          inner.buffers[other.1]? = some handle' → handle'.id ≠ handle.id := by
        intro other hother handle' _ hheld' hid
        have hne : entry.1 ≠ other.1 := fun heq => hnew (heq ▸ List.mem_map_of_mem hother)
        exact resident_apart haccepted hplan hapart hresident hheld hheld' hne hid.symm
      refine ⟨List.forall_mem_cons.mpr ⟨fun _ _ => ⟨handle, bytes, hsupplies, ?_⟩, hcopied⟩,
        fun id hid => ?_⟩
      · rw [hsame handle.id hlater, hmemory, Function.update_self]
      · rw [hsame id fun other hother => hid other (List.mem_cons_of_mem _ hother), hmemory,
          Function.update_of_ne (hid entry (by simp) handle hresident hheld).symm]

theorem copyResidentInputs_ok (haccepted : d.Accepted) (hplan : PlanOf d inner)
    (hapart : HandlesApart d device inner) {memory : Memory} {done : Nat × Memory}
    (h : copyResidentInputs backend inner inputs memory = .ok done) :
    Filled backend inner inputs done.2 ∧ AgreeElsewhere inner memory done.2 := by
  have hmeta : ∀ entry ∈ inner.bufferMeta.toList, inner.bufferMeta[entry.1]? = some entry.2 :=
    fun entry hentry => Std.ExtTreeMap.mem_toList_iff_getElem?_eq_some.mp hentry
  have hdistinct : (inner.bufferMeta.toList.map Prod.fst).Nodup := nodup_keys_toList inner.bufferMeta
  obtain ⟨hcopied, hsame⟩ := copyResident_entries haccepted hplan hapart hmeta hdistinct h
  refine ⟨fun key m hfound => ?_, fun id hid => ?_⟩
  · exact hcopied (key, m) (Std.ExtTreeMap.mem_toList_iff_getElem?_eq_some.mpr hfound)
  · exact (hsame id fun entry _ handle hresident => hid entry.1 handle hresident).symm

theorem copyResidentInputs_error {memory : Memory} {error : HostError}
    (h : copyResidentInputs backend inner inputs memory = .error error) :
    ∃ key m, inner.bufferMeta[key]? = some m ∧ m.role = .input ∧ m.lifetime = .perStep ∧
      ¬ ∃ handle bytes, Supplies backend inner inputs key m.elementCount handle bytes := by
  have hentries : ∀ (entries : List (BufferKey × SessionBufferMeta)) (done : Nat × Memory),
      (∀ entry ∈ entries, inner.bufferMeta[entry.1]? = some entry.2) →
      entries.foldlM (fun done entry => copyResidentInput backend inner inputs entry done) done =
        .error error →
      ∃ key m, inner.bufferMeta[key]? = some m ∧ m.role = .input ∧ m.lifetime = .perStep ∧
        ¬ ∃ handle bytes, Supplies backend inner inputs key m.elementCount handle bytes := by
    intro entries
    induction entries with
    | nil => nofun
    | cons entry entries ih =>
      intro done hmeta hrun
      rw [List.foldlM_cons] at hrun
      rcases bind_error_iff.mp hrun with hfirst | ⟨middle, -, hrest⟩
      · obtain ⟨⟨hrole, hstep⟩, hmissing⟩ := copyResidentInput_error hfirst
        exact ⟨entry.1, entry.2, hmeta entry (by simp), hrole, hstep, hmissing⟩
      · exact ih middle (fun other hother => hmeta other (List.mem_cons_of_mem _ hother)) hrest
  exact hentries inner.bufferMeta.toList (0, memory)
    (fun entry hentry => Std.ExtTreeMap.mem_toList_iff_getElem?_eq_some.mp hentry) h

/-! ## The copies of one kernel -/

/-- A slot of the kernel is passed over, or its input is supplied and copied. -/
theorem copyDeclaredInput_ok_iff (haccepted : d.Accepted) (hplan : PlanOf d inner)
    {kernel : SessionKernel} (hkernel : kernel ∈ inner.kernels) {slot : SessionSlot}
    (hslot : slot ∈ kernel.slots) {done done' : Nat × Memory} :
    copyDeclaredInput backend inner inputs kernel .residentStep [] slot done = .ok done' ↔
      (¬ ResidentKey inner slot.key ∧ done' = done) ∨
        ∃ m, (inner.bufferMeta[slot.key]? = some m ∧ m.role = .input ∧ m.lifetime = .perStep) ∧
          ∃ handle bytes, Supplies backend inner inputs slot.key m.elementCount handle bytes ∧
            done' = (done.1 + 1, Function.update done.2 handle.id bytes) := by
  have hcopies := copies_iff haccepted hplan hkernel hslot
  unfold copyDeclaredInput
  by_cases hresident : ResidentKey inner slot.key
  · obtain ⟨m, hmeta, hinput⟩ := hresident
    have hcopied := hcopies.mpr ⟨m, hmeta, hinput⟩
    rw [if_neg (by simp [hcopied.1, hcopied.2]), hmeta]
    simp only [Option.map_some, Option.getD_some, bind_ok_iff, copyInput_ok_iff, Except.ok.injEq]
    constructor
    · rintro ⟨memory, ⟨handle, bytes, hsupplies, rfl⟩, rfl⟩
      exact Or.inr ⟨m, ⟨rfl, hinput⟩, handle, bytes, hsupplies, rfl⟩
    · rintro (⟨hnot, -⟩ | ⟨m', ⟨hsame, -⟩, handle, bytes, hsupplies, rfl⟩)
      · exact absurd ⟨m, hmeta, hinput⟩ hnot
      · cases hsame
        exact ⟨_, ⟨handle, bytes, hsupplies, rfl⟩, rfl⟩
  · have hskip : slot.role ≠ .input ∨ slot.bufferId ∈ ([] : List UInt32) ∨
        CopyMode.residentStep.copies inner slot = false := by
      by_cases hrole : slot.role = .input
      · refine Or.inr (Or.inr (Bool.not_eq_true _ ▸ fun hcopied => ?_))
        exact hresident (hcopies.mp ⟨hrole, hcopied⟩)
      · exact Or.inl hrole
    rw [if_pos hskip]
    constructor
    · intro h
      cases h
      exact Or.inl ⟨hresident, rfl⟩
    · rintro (⟨-, rfl⟩ | ⟨m, hmeta, -⟩)
      · rfl
      · exact absurd ⟨m, hmeta⟩ hresident

/-- Copying over a memory of the same inputs makes the kernel's inputs agree and nothing
    disagree. -/
theorem copyDeclared_slots (haccepted : d.Accepted) (hplan : PlanOf d inner)
    {kernel : SessionKernel} (hkernel : kernel ∈ inner.kernels) {filled : Memory}
    (hfilled : Filled backend inner inputs filled) {slots : List SessionSlot}
    (hslots : ∀ slot ∈ slots, slot ∈ kernel.slots) (done : Nat × Memory) :
    ∃ done', slots.foldlM (fun done slot =>
        copyDeclaredInput backend inner inputs kernel .residentStep [] slot done) done = .ok done' ∧
      (∀ id, done.2 id = filled id → done'.2 id = filled id) ∧
      (∀ id, (∀ key handle, ResidentKey inner key → inner.buffers[key]? = some handle →
        handle.id ≠ id) → done'.2 id = done.2 id) ∧
      ∀ slot ∈ slots, ResidentKey inner slot.key → ∀ handle,
        inner.buffers[slot.key]? = some handle → done'.2 handle.id = filled handle.id := by
  induction slots generalizing done with
  | nil => exact ⟨done, rfl, fun _ h => h, fun _ _ => rfl, nofun⟩
  | cons slot slots ih =>
    obtain ⟨hslot, hrest⟩ := List.forall_mem_cons.mp hslots
    by_cases hresident : ResidentKey inner slot.key
    · obtain ⟨m, hmeta, hrole, hstep⟩ := hresident
      obtain ⟨handle, bytes, hsupplies, hholds⟩ := hfilled slot.key m hmeta hrole hstep
      have hcopy : copyDeclaredInput backend inner inputs kernel .residentStep [] slot done =
          .ok (done.1 + 1, Function.update done.2 handle.id bytes) :=
        (copyDeclaredInput_ok_iff haccepted hplan hkernel hslot).mpr
        (Or.inr ⟨m, ⟨hmeta, hrole, hstep⟩, handle, bytes, hsupplies, rfl⟩)
      have hheld : inner.buffers[slot.key]? = some handle := by
        obtain ⟨-, -, -, -, hheld, -⟩ := hsupplies
        exact hheld
      obtain ⟨done', hrun, hkeeps, hsame, hagree⟩ :=
        ih hrest (done.1 + 1, Function.update done.2 handle.id bytes)
      refine ⟨done', ?_, ?_, ?_, List.forall_mem_cons.mpr ⟨?_, hagree⟩⟩
      · rw [List.foldlM_cons]
        exact bind_ok_iff.mpr ⟨_, hcopy, hrun⟩
      · intro id hid
        apply hkeeps
        show Function.update done.2 handle.id bytes id = filled id
        by_cases heq : id = handle.id
        · rw [heq, Function.update_self, hholds]
        · rw [Function.update_of_ne heq, hid]
      · intro id hid
        rw [hsame id hid]
        exact Function.update_of_ne (hid slot.key handle ⟨m, hmeta, hrole, hstep⟩ hheld).symm _ _
      · intro _ handle' hheld'
        obtain rfl : handle = handle' := Option.some.inj (hheld.symm.trans hheld')
        apply hkeeps
        show Function.update done.2 handle.id bytes handle.id = filled handle.id
        rw [Function.update_self, hholds]
    · have hcopy : copyDeclaredInput backend inner inputs kernel .residentStep [] slot done =
          .ok done :=
        (copyDeclaredInput_ok_iff haccepted hplan hkernel hslot).mpr (Or.inl ⟨hresident, rfl⟩)
      obtain ⟨done', hrun, hkeeps, hsame, hagree⟩ := ih hrest done
      refine ⟨done', ?_, hkeeps, hsame, List.forall_mem_cons.mpr ⟨fun h => absurd h hresident, hagree⟩⟩
      rw [List.foldlM_cons]
      exact bind_ok_iff.mpr ⟨_, hcopy, hrun⟩

end Copies

/-! ## The launches -/

section

variable {backend : DeviceBackend} {d : DeviceDescriptor} {device : Device} {inner : ProgramInner}
  {inputs : Inputs} {effect : SessionLaunch → List (List UInt8) → Nat → List UInt8}

theorem slotHandles_ok {kernel : SessionKernel} {handles : List DeviceHandle}
    (h : slotHandles inner kernel = .ok handles) :
    List.Forall₂ (fun slot handle => inner.buffers[SessionSlot.key slot]? = some handle)
      kernel.slots handles := by
  refine (forall₂_of_mapM_ok h).imp fun slot handle hanswer => ?_
  cases hheld : inner.buffers[slot.key]? with
  | none => simp [hheld] at hanswer
  | some other =>
    rw [hheld] at hanswer
    cases hanswer
    rfl

theorem launchWrites_agree (launch : SessionLaunch) (seen : List (List UInt8))
    (slots : List ((SessionSlot × DeviceHandle) × Nat)) {memory memory' : Memory} {id : Nat}
    (h : memory id = memory' id) :
    launchWrites effect launch seen slots memory id =
      launchWrites effect launch seen slots memory' id := by
  unfold launchWrites
  induction slots generalizing memory memory' with
  | nil => exact h
  | cons slot slots ih =>
    rw [List.foldl_cons, List.foldl_cons]
    apply ih
    by_cases hrole : slot.1.1.role = .input
    · rw [if_pos hrole, if_pos hrole, h]
    · rw [if_neg hrole, if_neg hrole]
      by_cases hid : id = slot.1.2.id
      · rw [hid, Function.update_self, Function.update_self]
      · rw [Function.update_of_ne hid, Function.update_of_ne hid, h]

/-- A launch leaves alone what none of its output and in-out slots holds. -/
theorem launchWrites_other (launch : SessionLaunch) (seen : List (List UInt8))
    {slots : List ((SessionSlot × DeviceHandle) × Nat)} {memory : Memory} {id : Nat}
    (h : ∀ slot ∈ slots, slot.1.1.role ≠ .input → slot.1.2.id ≠ id) :
    launchWrites effect launch seen slots memory id = memory id := by
  unfold launchWrites
  induction slots generalizing memory with
  | nil => rfl
  | cons slot slots ih =>
    obtain ⟨hfirst, hrest⟩ := List.forall_mem_cons.mp h
    rw [List.foldl_cons, ih hrest]
    by_cases hrole : slot.1.1.role = .input
    · rw [if_pos hrole]
    · rw [if_neg hrole, Function.update_of_ne (hfirst hrole).symm]

theorem Filled.launchWrites (haccepted : d.Accepted) (hplan : PlanOf d inner)
    (hapart : HandlesApart d device inner) {kernel : SessionKernel}
    (hkernel : kernel ∈ inner.kernels) {handles : List DeviceHandle}
    (hhandles : List.Forall₂ (fun slot handle => inner.buffers[SessionSlot.key slot]? = some handle)
      kernel.slots handles) (launch : SessionLaunch) (seen : List (List UInt8)) {memory : Memory}
    (hfilled : Filled backend inner inputs memory) :
    Filled backend inner inputs
      (launchWrites effect launch seen (kernel.slots.zip handles).zipIdx memory) := by
  intro key m hmeta hrole hstep
  obtain ⟨handle, bytes, hsupplies, hholds⟩ := hfilled key m hmeta hrole hstep
  refine ⟨handle, bytes, hsupplies, ?_⟩
  rw [launchWrites_other, hholds]
  intro slot hslot hwritten hid
  obtain ⟨pair, hpair, -, rfl⟩ : ∃ pair ∈ kernel.slots.zip handles, True ∧ slot.1 = pair := by
    have := List.fst_mem_of_mem_zipIdx hslot
    exact ⟨slot.1, this, trivial, rfl⟩
  have hmem : slot.1.1 ∈ kernel.slots := (List.of_mem_zip hpair).1
  have hheld' : inner.buffers[slot.1.1.key]? = some slot.1.2 :=
    List.forall₂_iff_zip.mp hhandles |>.2 hpair
  have hheld : inner.buffers[key]? = some handle := by
    obtain ⟨-, -, -, -, hheld, -⟩ := hsupplies
    exact hheld
  by_cases hkey : key = slot.1.1.key
  · exact hwritten ((copies_iff haccepted hplan hkernel hmem).mpr (hkey ▸ ⟨m, hmeta, hrole, hstep⟩)).1
  · exact resident_apart haccepted hplan hapart ⟨m, hmeta, hrole, hstep⟩ hheld hheld' hkey hid.symm

/-- Induction over the launches: the memories agree but for inputs that were filled and
    are not yet copied again. -/
theorem runLaunches_eq (haccepted : d.Accepted) (hplan : PlanOf d inner)
    (hapart : HandlesApart d device inner) (launches : List SessionLaunch)
    {memory filled : Memory} (hfilled : Filled backend inner inputs filled)
    (hagree : AgreeElsewhere inner memory filled) :
    runLaunches inner effect
        (fun kernel memory =>
          copyDeclaredInputs backend inner inputs kernel .residentStep [] memory)
        launches memory =
      runLaunches inner effect (fun _ memory => .ok (0, memory)) launches filled := by
  induction launches generalizing memory filled with
  | nil => rfl
  | cons launch launches ih =>
    unfold runLaunches
    cases hkernel : inner.kernels[launch.kernelIndex]? with
    | none => rfl
    | some kernel =>
      have hmem : kernel ∈ inner.kernels := List.mem_of_getElem? hkernel
      cases hhandles : slotHandles inner kernel with
      | error error => simp [hhandles]
      | ok handles =>
        have hplaced := slotHandles_ok hhandles
        obtain ⟨⟨copies, copied⟩, hrun, hkeeps, hsame, hinputs⟩ :=
          copyDeclared_slots haccepted hplan hmem hfilled (fun _ h => h) (0, memory)
        have hcopy : copyDeclaredInputs backend inner inputs kernel .residentStep [] memory =
            .ok (copies, copied) := hrun
        have helsewhere : AgreeElsewhere inner copied filled := by
          intro id hid
          exact (hsame id hid).trans (hagree id hid)
        -- every slot of the kernel holds the same in both memories
        have hseen : seenBy handles copied = seenBy handles filled := by
          refine List.map_congr_left fun handle hhandle => ?_
          obtain ⟨slot, hslot, hheld⟩ := exists_left_of_forall₂ hplaced handle hhandle
          by_cases hresident : ResidentKey inner slot.key
          · exact hinputs slot hslot hresident handle hheld
          · refine helsewhere handle.id fun key handle' hkey hheld' => ?_
            refine resident_apart haccepted hplan hapart hkey hheld' hheld ?_
            rintro rfl
            exact hresident hkey
        simp only [hhandles, hcopy, hseen]
        rw [ih (hfilled.launchWrites haccepted hplan hapart hmem hplaced launch _)
          fun id hid => launchWrites_agree launch _ _ (helsewhere id hid)]

theorem runLaunches_stops {copy : SessionKernel → Memory → Except HostError (Nat × Memory)}
    {launches : List SessionLaunch} {launch : SessionLaunch} (hlaunch : launch ∈ launches)
    {kernel : SessionKernel} (hkernel : inner.kernels[launch.kernelIndex]? = some kernel)
    (hcopy : ∀ memory done, copy kernel memory ≠ .ok done) (memory : Memory) :
    (runLaunches inner effect copy launches memory).2 ≠ none := by
  induction launches generalizing memory with
  | nil => cases hlaunch
  | cons first launches ih =>
    unfold runLaunches
    cases hfirst : inner.kernels[first.kernelIndex]? with
    | none => simp
    | some other =>
      cases hhandles : slotHandles inner other with
      | error error => simp [hhandles]
      | ok handles =>
        cases hrun : copy other memory with
        | error error => simp [hhandles, hrun]
        | ok done =>
          rcases List.mem_cons.mp hlaunch with rfl | hlaunch
          · rw [hkernel] at hfirst
            cases hfirst
            exact absurd hrun (hcopy memory done)
          · simp only [hhandles, hrun]
            exact ih hlaunch _

/-- The copies of a kernel succeed only if each input the host fills is supplied. -/
theorem copyDeclaredInputs_supplied (haccepted : d.Accepted) (hplan : PlanOf d inner)
    {kernel : SessionKernel} (hkernel : kernel ∈ inner.kernels) {memory : Memory}
    {done : Nat × Memory}
    (h : copyDeclaredInputs backend inner inputs kernel .residentStep [] memory = .ok done)
    {slot : SessionSlot} (hslot : slot ∈ kernel.slots) {m : SessionBufferMeta}
    (hmeta : inner.bufferMeta[slot.key]? = some m) (hrole : m.role = .input)
    (hstep : m.lifetime = .perStep) :
    ∃ handle bytes, Supplies backend inner inputs slot.key m.elementCount handle bytes := by
  have hslots : ∀ (slots : List SessionSlot) (before : Nat × Memory),
      (∀ slot ∈ slots, slot ∈ kernel.slots) → slot ∈ slots →
      slots.foldlM (fun done slot =>
        copyDeclaredInput backend inner inputs kernel .residentStep [] slot done) before = .ok done →
      ∃ handle bytes, Supplies backend inner inputs slot.key m.elementCount handle bytes := by
    intro slots
    induction slots with
    | nil => nofun
    | cons first slots ih =>
      intro before hmem hin hrun
      obtain ⟨hfirst, hrest⟩ := List.forall_mem_cons.mp hmem
      rw [List.foldlM_cons] at hrun
      obtain ⟨middle, hcopy, hrun⟩ := bind_ok_iff.mp hrun
      rcases List.mem_cons.mp hin with rfl | hin
      · rcases (copyDeclaredInput_ok_iff haccepted hplan hkernel hfirst).mp hcopy with
          ⟨hnot, -⟩ | ⟨m', ⟨hmeta', -⟩, handle, bytes, hsupplies, -⟩
        · exact absurd ⟨m, hmeta, hrole, hstep⟩ hnot
        · obtain rfl : m = m' := Option.some.inj (hmeta.symm.trans hmeta')
          exact ⟨handle, bytes, hsupplies⟩
      · exact ih middle hrest hin hrun
  exact hslots kernel.slots (0, memory) (fun _ h => h) hslot h

/-- Every kernel is launched. -/
def AllLaunched (inner : ProgramInner) : Prop :=
  ∀ index < inner.kernels.length, ∃ launch ∈ inner.launches, launch.kernelIndex = index

end

/-- In every state a session of an admitted descriptor reaches, whatever the device holds,
    the invocation gives and the kernels leave in their output and in-out slots: once the
    inputs of the step are copied, the launches see, one by one, what they see when each
    one's input slots are copied just before it, and stop alike.  If that one copy fails,
    so do the others before the last launch, where every kernel is launched. -/
theorem resident_inputs_once (driver : Driver) (d : DeviceDescriptor) (haccepted : d.Accepted)
    (device : Device) (inner : ProgramInner) (hreached : Reached driver d device inner)
    (backend : DeviceBackend) (inputs : Inputs)
    (effect : SessionLaunch → List (List UInt8) → Nat → List UInt8) (memory : Memory) :
    let perLaunch := runLaunches inner effect (fun kernel memory =>
      copyDeclaredInputs backend inner inputs kernel .residentStep [] memory) inner.launches memory
    match copyResidentInputs backend inner inputs memory with
    | .ok (_, filled) =>
      runLaunches inner effect (fun _ memory => .ok (0, memory)) inner.launches filled = perLaunch
    | .error _ => AllLaunched inner → perLaunch.2 ≠ none := by
  obtain ⟨hplan, hapart⟩ := reached_ok hreached
  intro perLaunch
  cases hcopy : copyResidentInputs backend inner inputs memory with
  | ok done =>
    obtain ⟨hfilled, hagree⟩ := copyResidentInputs_ok haccepted hplan hapart hcopy
    exact (runLaunches_eq haccepted hplan hapart inner.launches hfilled hagree).symm
  | error error =>
    intro hlaunched
    obtain ⟨key, m, hmeta, hrole, hstep, hmissing⟩ := copyResidentInputs_error hcopy
    -- the key is that of a slot of some kernel, and the kernel is launched
    have hfound := hmeta
    rw [hplan.bufferMeta, getElem?_sessionMeta, Option.map_eq_some_iff] at hfound
    obtain ⟨slot, hfind, -⟩ := hfound
    obtain ⟨hslot, rfl⟩ := find?_key hfind
    obtain ⟨source, hsource, hdeclared⟩ := List.mem_flatMap.mp hslot
    obtain ⟨index, hindex, hat⟩ := List.getElem_of_mem hsource
    have hkernel : inner.kernels[index]? = some (kernelOf source) := by
      rw [hplan.kernels, List.getElem?_map, List.getElem?_eq_getElem hindex, hat, Option.map_some]
    obtain ⟨launch, hlaunch, rfl⟩ := hlaunched index (List.getElem?_eq_some_iff.mp hkernel).1
    refine runLaunches_stops hlaunch hkernel (fun memory done hrun => hmissing ?_) memory
    exact copyDeclaredInputs_supplied haccepted hplan (List.mem_of_getElem? hkernel) hrun
      (List.mem_map_of_mem hdeclared) hmeta hrole hstep

namespace OneInput

/-- Two launches of a kernel that reads buffer 1, an input of the step, and writes buffer 2. -/
def descriptor : DeviceDescriptor :=
  { DeviceDescriptor.sampleDescriptor with
    kernels := [DeviceDescriptor.plainKernel "scale"
      [DeviceDescriptor.plainSlot 1 .input .perStep 0,
        DeviceDescriptor.plainSlot 2 .inOut .perProgram 1]] }

/-- A driver that refuses nothing. -/
def driver : Driver where
  fails _ _ := none
  fresh _ _ := 0
  effect _ _ _ _ _ _ _ := 0

/-- The session at the start of a step. -/
def opened : Option Hosted :=
  match newWithShare driver descriptor none ⟨.metal, ∅, 0, 0⟩ with
  | .error _ _ => none
  | .ok inner device =>
    match allocateStepBuffers driver true ⟨device, inner⟩ with
    | .error _ _ => none
    | .ok _ hosted => some hosted

theorem reached_of_opened {hosted : Hosted} (h : opened = some hosted) :
    Reached driver descriptor hosted.runtime hosted.inner := by
  unfold opened at h
  cases hcreated : newWithShare driver descriptor none ⟨.metal, ∅, 0, 0⟩ with
  | error error device => simp [hcreated] at h
  | ok inner device =>
    simp only [hcreated] at h
    cases hallocated : allocateStepBuffers driver true ⟨device, inner⟩ with
    | error error hosted => simp [hallocated] at h
    | ok answer hosted' =>
      simp only [hallocated, Option.some.injEq] at h
      subst h
      exact .allocated device hosted'.runtime inner hosted'.inner true
        (.created none _ device inner nofun hcreated) hallocated

def inputs : Inputs := Std.ExtTreeMap.ofList [(1, [1, 2, 3, 4])] compare

/-- The one input is copied once, and both launches see it. -/
theorem both_launches_see_it : ∃ hosted filled, opened = some hosted ∧
    copyResidentInputs .metal hosted.inner inputs (fun _ => []) = .ok (1, filled) ∧
      runLaunches hosted.inner (fun _ seen _ => seen.flatten) (fun _ memory => .ok (0, memory))
          hosted.inner.launches filled =
        runLaunches hosted.inner (fun _ seen _ => seen.flatten) (fun kernel memory =>
          copyDeclaredInputs .metal hosted.inner inputs kernel .residentStep [] memory)
          hosted.inner.launches (fun _ => []) := by
  have hopened : opened.any (fun hosted =>
      match copyResidentInputs .metal hosted.inner inputs (fun _ => []) with
      | .ok (copies, _) => copies == 1
      | .error _ => false) = true := by
    decide +kernel
  obtain ⟨hosted, hopened, hcopied⟩ := (Option.any_eq_true _ _).mp hopened
  have honce := resident_inputs_once driver descriptor (by decide +kernel) hosted.runtime hosted.inner
    (reached_of_opened hopened) .metal inputs (fun _ seen _ => seen.flatten) (fun _ => [])
  cases hcopy : copyResidentInputs .metal hosted.inner inputs (fun _ => []) with
  | error error => simp [hcopy] at hcopied
  | ok done =>
    obtain ⟨copies, filled⟩ := done
    simp only [hcopy, beq_iff_eq] at hcopied honce
    exact ⟨hosted, filled, hopened, by rw [hcopy, hcopied], honce⟩

end OneInput

end FaberHosts.Macos
