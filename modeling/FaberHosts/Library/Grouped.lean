import FaberHosts.Library.Blocks

/-!
# Grouped expert GEMM

`grouped_expert_gemm` adds up the products of every expert for each output element, and
`grouped_expert_gemm_selected` those of the experts a row selects, each scaled by its
router weight.
-/

namespace FaberHosts.Library
open FaberHosts.Lib KernelBodyError Call

attribute [local instance] Call.lawfulMonad

variable {σ F : Type}

/-- `GroupedExpertGemmLayout`. -/
inductive GroupedExpertGemmLayout where
  | rank3Experts
  | unsupported
  deriving DecidableEq

/-- `GroupedExpertGemmBind`. -/
structure GroupedExpertGemmBind where
  rows : Nat
  k : Nat
  n : Nat
  experts : Nat
  inputRowStride : Nat
  outputRowStride : Nat
  packedColumnStrideBytes : Nat
  packedExpertStrideBytes : Nat
  format : QuantizedFormat
  layout : GroupedExpertGemmLayout
  grid : Vector UInt32 3
  deriving DecidableEq

namespace GroupedExpertGemmBind

/-- `k.checked_sub(1)?.checked_add(1)?` is the width of a row, and of `n` that of an
    output row. -/
def rowSpan (bind : GroupedExpertGemmBind) (count stride : Nat) : Option Nat :=
  (subWord count 1).bind fun last =>
    (addWord last 1).bind fun width => checkedSpan bind.rows stride width

def inputSpan (bind : GroupedExpertGemmBind) : Option Nat :=
  bind.rowSpan bind.k bind.inputRowStride

def outputSpan (bind : GroupedExpertGemmBind) : Option Nat :=
  bind.rowSpan bind.n bind.outputRowStride

def weightSpan (bind : GroupedExpertGemmBind) : Option Nat := do
  let columnBytes ← mulWord (bind.k / bind.format.blockElements) bind.format.blockBytes
  let experts ← subWord bind.experts 1
  let experts ← mulWord experts bind.packedExpertStrideBytes
  let columns ← subWord bind.n 1
  let columns ← mulWord columns bind.packedColumnStrideBytes
  let last ← addWord experts columns
  addWord last columnBytes

/-- The column span the selected body computes. -/
def columnSpan (bind : GroupedExpertGemmBind) : Option Nat := do
  let last ← subWord bind.n 1
  let last ← mulWord last bind.packedColumnStrideBytes
  let columnBytes ← mulWord (bind.k / bind.format.blockElements) bind.format.blockBytes
  addWord last columnBytes

def validate (bind : GroupedExpertGemmBind) : Except KernelBodyError Unit := do
  refuseIf (bind.rows = 0 ∨ bind.k = 0 ∨ bind.n = 0 ∨ bind.experts = 0)
    (invalidBind "grouped expert GEMM has a zero dimension")
  refuseIf (bind.layout ≠ .rank3Experts)
    (invalidBind "grouped expert GEMM layout is not servable")
  refuseIf (bind.inputRowStride = 0 ∨ bind.outputRowStride = 0 ∨
      bind.packedColumnStrideBytes = 0 ∨ bind.packedExpertStrideBytes = 0)
    (invalidBind "grouped expert GEMM has a zero stride")
  refuseIf (0 ∈ bind.grid.toList) (invalidBind "grouped expert GEMM has a zero dispatch axis")
  refuseIf (bind.k % bind.format.blockElements ≠ 0)
    (invalidBind "grouped expert GEMM K is not block aligned")
  let blocksPerColumn := bind.k / bind.format.blockElements
  let minimumColumnBytes ← okOr (mulWord blocksPerColumn bind.format.blockBytes)
    (invalidBind "grouped expert GEMM packed column span overflow")
  refuseIf (bind.packedColumnStrideBytes < minimumColumnBytes)
    (invalidBind "grouped expert GEMM packed column stride is too small")
  let minimumExpertBytes ← okOr (mulWord bind.n bind.packedColumnStrideBytes)
    (invalidBind "grouped expert GEMM expert stride overflow")
  refuseIf (bind.packedExpertStrideBytes < minimumExpertBytes)
    (invalidBind "grouped expert GEMM expert stride is too small")
  let _ ← okOr bind.inputSpan (invalidBind "grouped expert GEMM input span overflow")
  let _ ← okOr bind.outputSpan (invalidBind "grouped expert GEMM output span overflow")
  let _ ← okOr bind.weightSpan (invalidBind "grouped expert GEMM weight span overflow")
  pure ()

def validateExpertShapes (bind : GroupedExpertGemmBind) (shapes : List (Nat × Nat)) :
    Except KernelBodyError Unit := do
  refuseIf (shapes.length ≠ bind.experts)
    (shapeMismatch "grouped expert GEMM rank-3 expert count disagrees with the bind")
  refuseIf (∃ shape ∈ shapes, shape ≠ (bind.k, bind.n))
    (shapeMismatch "grouped expert GEMM mixed-shape expert batch")

/-- The elements of the activation the bodies address. -/
def inputLength (bind : GroupedExpertGemmBind) : Nat :=
  (bind.rows - 1) * bind.inputRowStride + bind.k

def outputLength (bind : GroupedExpertGemmBind) : Nat :=
  (bind.rows - 1) * bind.outputRowStride + bind.n

def weightLength (bind : GroupedExpertGemmBind) : Nat :=
  (bind.experts - 1) * bind.packedExpertStrideBytes +
    (bind.n - 1) * bind.packedColumnStrideBytes +
    bind.k / bind.format.blockElements * bind.format.blockBytes

/-- What validation establishes. -/
structure Valid (bind : GroupedExpertGemmBind) : Prop where
  rows_pos : 1 ≤ bind.rows
  n_pos : 1 ≤ bind.n
  k_pos : 1 ≤ bind.k
  experts_pos : 1 ≤ bind.experts
  aligned : bind.k % bind.format.blockElements = 0
  input : bind.inputLength ≤ wordMax
  output : bind.outputLength ≤ wordMax
  weight : bind.weightLength ≤ wordMax

variable {bind : GroupedExpertGemmBind}

theorem rowSpan_eq_some_iff {count stride span : Nat} :
    bind.rowSpan count stride = some span ↔ 1 ≤ count ∧ 1 ≤ bind.rows ∧
      (bind.rows - 1) * stride + count ≤ wordMax ∧ (bind.rows - 1) * stride + count = span := by
  simp only [rowSpan, Option.bind_eq_some_iff, subWord_eq_some_iff, addWord_eq_some_iff,
    checkedSpan_eq_some_iff]
  constructor
  · rintro ⟨_, ⟨hcount, rfl⟩, _, ⟨-, rfl⟩, hrows, hle, hspan⟩
    rw [Nat.sub_add_cancel hcount] at hle hspan
    exact ⟨hcount, hrows, hle, hspan⟩
  · rintro ⟨hcount, hrows, hle, hspan⟩
    refine ⟨_, ⟨hcount, rfl⟩, _, ⟨by omega, rfl⟩, ?_⟩
    rw [Nat.sub_add_cancel hcount]
    exact ⟨hrows, hle, hspan⟩

theorem weightSpan_eq_some_iff {span : Nat} :
    bind.weightSpan = some span ↔ 1 ≤ bind.experts ∧ 1 ≤ bind.n ∧
      bind.weightLength ≤ wordMax ∧ bind.weightLength = span := by
  simp only [weightSpan, Option.bind_eq_bind, Option.bind_eq_some_iff, subWord_eq_some_iff,
    mulWord_eq_some_iff, addWord_eq_some_iff, weightLength]
  constructor
  · rintro ⟨_, ⟨-, rfl⟩, _, ⟨hexperts, rfl⟩, _, ⟨-, rfl⟩, _, ⟨hn, rfl⟩, _, ⟨-, rfl⟩, _, ⟨-, rfl⟩,
      hle, hspan⟩
    exact ⟨hexperts, hn, hle, hspan⟩
  · rintro ⟨hexperts, hn, hle, hspan⟩
    exact ⟨_, ⟨by omega, rfl⟩, _, ⟨hexperts, rfl⟩, _, ⟨by omega, rfl⟩, _, ⟨hn, rfl⟩, _,
      ⟨by omega, rfl⟩, _, ⟨by omega, rfl⟩, hle, hspan⟩

theorem valid_of_validate (h : bind.validate = .ok ()) : bind.Valid := by
  simp only [validate, Lib.bind_ok_iff, refuseIf_eq_ok_iff, okOr_eq_ok_iff, mulWord_eq_some_iff,
    inputSpan, outputSpan, rowSpan_eq_some_iff, weightSpan_eq_some_iff, not_or] at h
  obtain ⟨_, ⟨hrows, hk, hn, hexperts⟩, _, -, _, -, _, -, _, haligned, _, -, _, -, _, -, _, -, _,
    ⟨-, -, hinput, -⟩, _, ⟨-, -, houtput, -⟩, _, ⟨-, -, hweight, -⟩, -⟩ := h
  exact ⟨by omega, by omega, by omega, by omega, by omega, hinput, houtput, hweight⟩

theorem block_le {expert column block : Nat} (hexpert : expert < bind.experts)
    (hcolumn : column < bind.n) (hblock : block < bind.k / bind.format.blockElements) :
    expert * bind.packedExpertStrideBytes + column * bind.packedColumnStrideBytes +
      block * bind.format.blockBytes + bind.format.blockBytes ≤ bind.weightLength := by
  have hexperts := mul_le_span bind.packedExpertStrideBytes hexpert
  have hcolumns := mul_le_span bind.packedColumnStrideBytes hcolumn
  have hblocks : (block + 1) * bind.format.blockBytes ≤
      bind.k / bind.format.blockElements * bind.format.blockBytes := Nat.mul_le_mul_right _ hblock
  rw [Nat.add_mul, Nat.one_mul] at hblocks
  unfold weightLength
  omega

theorem output_lt {row column : Nat} (hrow : row < bind.rows) (hcolumn : column < bind.n) :
    row * bind.outputRowStride + column < bind.outputLength := by
  have hrows := mul_le_span bind.outputRowStride hrow
  unfold outputLength
  omega

namespace Valid

theorem inputSpan_eq (h : bind.Valid) : bind.inputSpan = some bind.inputLength :=
  rowSpan_eq_some_iff.mpr ⟨h.k_pos, h.rows_pos, h.input, rfl⟩

theorem outputSpan_eq (h : bind.Valid) : bind.outputSpan = some bind.outputLength :=
  rowSpan_eq_some_iff.mpr ⟨h.n_pos, h.rows_pos, h.output, rfl⟩

theorem weightSpan_eq (h : bind.Valid) : bind.weightSpan = some bind.weightLength :=
  weightSpan_eq_some_iff.mpr ⟨h.experts_pos, h.n_pos, h.weight, rfl⟩

theorem element_lt (h : bind.Valid) {row block element : Nat} (hrow : row < bind.rows)
    (hblock : block < bind.k / bind.format.blockElements)
    (helement : element < bind.format.blockElements) :
    row * bind.inputRowStride + block * bind.format.blockElements + element <
      bind.inputLength := by
  have hrows := mul_le_span bind.inputRowStride hrow
  have hwhole := Nat.div_mul_cancel (Nat.dvd_of_mod_eq_zero h.aligned)
  have hblocks : (block + 1) * bind.format.blockElements ≤
      bind.k / bind.format.blockElements * bind.format.blockElements :=
    Nat.mul_le_mul_right _ hblock
  rw [Nat.add_mul, Nat.one_mul] at hblocks
  unfold inputLength
  omega

end Valid

end GroupedExpertGemmBind

section Bodies

variable [F32 F]

/-- The products of one expert for an output element, which both bodies sum block by
    block. -/
def expertIntermediate (bind : GroupedExpertGemmBind) (activation : List F)
    (packedWeights : List UInt8) (row column expert : Nat) : Body σ F :=
  foldRange (bind.k / bind.format.blockElements) 0 fun intermediate blockIndex => do
    let blockBase := expert * bind.packedExpertStrideBytes +
      column * bind.packedColumnStrideBytes + blockIndex * bind.format.blockBytes
    let block ← fetchSlice packedWeights blockBase (blockBase + bind.format.blockBytes)
    let activationBase := row * bind.inputRowStride + blockIndex * bind.format.blockElements
    foldRange bind.format.blockElements intermediate fun intermediate element => do
      let weight ← blockValue bind.format block element
      let x ← fetch activation (activationBase + element)
      pure (intermediate + x * weight)

/-- The buffer checks both bodies make. -/
def checkExpertBuffers (inputSpan outputSpan weightSpan : Nat) (activation : List F)
    (packedWeights : List UInt8) : Body (List F) Unit := do
  let output ← Call.get
  check (refuseIf (activation.length < inputSpan)
    (bufferTooShort "grouped expert activation" inputSpan activation.length))
  check (refuseIf (output.length < outputSpan)
    (bufferTooShort "grouped expert output" outputSpan output.length))
  check (refuseIf (packedWeights.length < weightSpan)
    (bufferTooShort "grouped expert packed weights" weightSpan packedWeights.length))

def groupedExpertGemm (bind : GroupedExpertGemmBind) (expertShapes : List (Nat × Nat))
    (activation : List F) (packedWeights : List UInt8) : Body (List F) Unit := do
  check bind.validate
  check (bind.validateExpertShapes expertShapes)
  let inputSpan ← check (okOr bind.inputSpan
    (invalidBind "grouped expert GEMM input span overflow"))
  let outputSpan ← check (okOr bind.outputSpan
    (invalidBind "grouped expert GEMM output span overflow"))
  let weightSpan ← check (okOr bind.weightSpan
    (invalidBind "grouped expert GEMM weight span overflow"))
  checkExpertBuffers inputSpan outputSpan weightSpan activation packedWeights
  forRange bind.rows fun row =>
    forRange bind.n fun column => do
      let accumulated ← foldRange bind.experts 0 fun accumulated expert => do
        let intermediate ← expertIntermediate bind activation packedWeights row column expert
        pure (accumulated + intermediate)
      writeAt (row * bind.outputRowStride + column) accumulated

/-- The checks of the dispatch buffers: the active width of a row. -/
def dispatchWidth (bind : GroupedExpertGemmBind) (expertIds : List UInt32)
    (expertWeights : List F) (dispatchSpan : Nat) : Except KernelBodyError Nat := do
  let active := expertIds.length / bind.rows
  refuseIf (expertIds.length % bind.rows ≠ 0 ∨ expertWeights.length % bind.rows ≠ 0)
    (shapeMismatch "grouped expert dispatch ids/weights are not a full row width")
  refuseIf (active = 0) (shapeMismatch "grouped expert dispatch ids have no active experts")
  refuseIf (active > bind.experts)
    (shapeMismatch "grouped expert dispatch ids exceed the packed expert count")
  refuseIf (expertIds.length ≠ dispatchSpan ∨ expertWeights.length ≠ dispatchSpan)
    (shapeMismatch "grouped expert dispatch ids/weights widths disagree")
  pure active

/-- The checks of the dispatched values. -/
def dispatchValues (bind : GroupedExpertGemmBind) (expertIds : List UInt32)
    (expertWeights : List F) : Except KernelBodyError Unit := do
  refuseIf (∃ expert ∈ expertIds, bind.experts ≤ expert.toNat)
    (shapeMismatch "grouped expert dispatch id is out of the packed expert range")
  refuseIf (∃ weight ∈ expertWeights, F32.isFinite weight = false)
    (shapeMismatch "grouped expert dispatch weight is non-finite")

/-- The id and the weight the body reads for a slot of a row. -/
def dispatchSlot (expertIds : List UInt32) (expertWeights : List F) (active row slot : Nat) :
    Body σ (UInt32 × F) := do
  let expert ← fetch expertIds (row * active + slot)
  let weight ← fetch expertWeights (row * active + slot)
  pure (expert, weight)

def groupedExpertGemmSelected (bind : GroupedExpertGemmBind) (activation : List F)
    (expertIds : Slice 4 UInt32) (expertWeights : List F) (packedWeights : List UInt8) :
    Body (List F) Unit := do
  check bind.validate
  let inputSpan ← check (okOr (checkedSpan bind.rows bind.inputRowStride bind.k)
    (invalidBind "grouped expert GEMM input span overflow"))
  let outputSpan ← check (okOr (checkedSpan bind.rows bind.outputRowStride bind.n)
    (invalidBind "grouped expert GEMM output span overflow"))
  let columnSpan ← check (okOr bind.columnSpan
    (invalidBind "grouped expert GEMM packed column span overflow"))
  let weightSpan ← check (okOr
    (checkedSpan bind.experts bind.packedExpertStrideBytes columnSpan)
    (invalidBind "grouped expert GEMM packed weight span overflow"))
  let dispatchSpan ← check (okOr (mulWord bind.rows (expertIds.toList.length / bind.rows))
    (invalidBind "grouped expert GEMM dispatch span overflow"))
  checkExpertBuffers inputSpan outputSpan weightSpan activation packedWeights
  let active ← check (dispatchWidth bind expertIds.toList expertWeights dispatchSpan)
  check (dispatchValues bind expertIds.toList expertWeights)
  forRange bind.rows fun row =>
    forRange bind.n fun column => do
      let accumulated ← foldRange active 0 fun accumulated slot => do
        let selected ← dispatchSlot expertIds.toList expertWeights active row slot
        let intermediate ←
          expertIntermediate bind activation packedWeights row column selected.1.toNat
        pure (accumulated + selected.2 * intermediate)
      writeAt (row * bind.outputRowStride + column) accumulated

/-! ## What the bodies do once their checks let them through -/

variable {bind : GroupedExpertGemmBind} {activation : List F} {packedWeights : List UInt8}
  {output : List F}

theorem expertIntermediate_gives {row column expert : Nat} (hvalid : bind.Valid)
    (hactivation : bind.inputLength ≤ activation.length)
    (hpacked : bind.weightLength ≤ packedWeights.length) (hrow : row < bind.rows)
    (hcolumn : column < bind.n) (hexpert : expert < bind.experts) :
    Gives (expertIntermediate bind activation packedWeights row column expert : Body σ F)
      fun _ => True := by
  have hinputWord := hvalid.input
  have hweightWord := hvalid.weight
  refine Gives.foldRange (fun _ _ => True) ?_ trivial
  intro block hblock sum _
  have hend := GroupedExpertGemmBind.block_le hexpert hcolumn hblock
  refine (fetchSlice_gives (by omega) (by omega) (by omega)).bind fun bytes hbytes => ?_
  refine Gives.foldRange (fun _ _ => True) ?_ trivial
  intro element helement sum _
  have hplace := hvalid.element_lt hrow hblock helement
  refine (blockValue_gives ?_ helement).bind fun weight _ => ?_
  · rw [hbytes, List.length_take, List.length_drop]
    omega
  · exact (fetch_gives (by omega) (by omega)).bind fun x _ => .pure trivial

omit [F32 F] in
/-- The buffer checks leave the output as it is, and what passes them is long enough. -/
theorem checkExpertBuffers_wp {inputSpan outputSpan weightSpan : Nat} :
    wp False (checkExpertBuffers inputSpan outputSpan weightSpan activation packedWeights)
      (fun _ after => after = output ∧ inputSpan ≤ activation.length ∧
        outputSpan ≤ output.length ∧ weightSpan ≤ packedWeights.length)
      (fun _ after => after = output) output := by
  rw [checkExpertBuffers, Call.wp_bind, wp_get]
  refine wp_of_check ?_ fun _ _ => rfl
  intro _ hactivation
  refine wp_of_check ?_ fun _ _ => rfl
  intro _ houtput
  by_cases hpacked : packedWeights.length < weightSpan
  · simp [check, refuseIf, hpacked]
  · simp only [refuseIf_eq_ok_iff, Nat.not_lt] at hactivation houtput
    rw [refuseIf_of_not hpacked]
    exact ⟨rfl, hactivation, houtput, Nat.not_lt.mp hpacked⟩

omit [F32 F] in
/-- The loops over rows and columns write each output element once, whatever it is. -/
theorem expertLoops_wp {sum : Nat → Nat → Body (List F) F} {E : KernelBodyError → List F → Prop}
    (hvalid : bind.Valid) (houtput : bind.outputLength ≤ output.length)
    (hsum : ∀ row < bind.rows, ∀ column < bind.n, Gives (sum row column) fun _ => True) :
    wp False (forRange bind.rows fun row => forRange bind.n fun column => do
        let accumulated ← sum row column
        writeAt (row * bind.outputRowStride + column) accumulated)
      (fun _ after => after.length = output.length) E output := by
  have hword := hvalid.output
  refine wp_forRange (fun _ (after : List F) => after.length = output.length) ?_ rfl
  intro row hrow after hafter
  refine wp_forRange (fun _ (after : List F) => after.length = output.length) ?_ hafter
  intro column hcolumn after hafter
  have hplace := GroupedExpertGemmBind.output_lt hrow hcolumn
  refine (hsum row hrow column hcolumn).wp_bind fun accumulated _ => ?_
  exact wp_writeAt (by omega) (by omega) (by rw [List.length_set, hafter])

theorem groupedExpertGemm_wp (bind : GroupedExpertGemmBind) (expertShapes : List (Nat × Nat))
    (activation : List F) (packedWeights : List UInt8) (output : List F) :
    wp False (groupedExpertGemm bind expertShapes activation packedWeights)
      (fun _ after => after.length = output.length) (fun _ after => after = output) output := by
  refine wp_of_check ?_ fun _ _ => rfl
  intro _ hvalidate
  have hvalid := GroupedExpertGemmBind.valid_of_validate hvalidate
  refine wp_of_check ?_ fun _ _ => rfl
  intro _ _
  rw [hvalid.inputSpan_eq, hvalid.outputSpan_eq, hvalid.weightSpan_eq]
  simp only [okOr, check_ok, pure_bind]
  rw [Call.wp_bind]
  refine wp_mono checkExpertBuffers_wp ?_ fun _ _ h => h
  intro _ after hchecked
  obtain ⟨rfl, hactivation, houtput, hpacked⟩ := hchecked
  refine wp_mono (E := fun _ _ => False) (expertLoops_wp hvalid houtput ?_) (fun _ _ h => h)
    fun _ _ h => h.elim
  intro row hrow column hcolumn
  refine Gives.foldRange (fun _ _ => True) ?_ trivial
  intro expert hexpert sum _
  exact (expertIntermediate_gives hvalid hactivation hpacked hrow hcolumn hexpert).bind
    fun _ _ => .pure trivial

/-- What the checks of the dispatch buffers establish. -/
structure Dispatched (bind : GroupedExpertGemmBind) (idCount weightCount active : Nat) :
    Prop where
  ids : idCount = bind.rows * active
  weights : weightCount = bind.rows * active
  active_pos : 1 ≤ active
  active_le : active ≤ bind.experts

omit [F32 F] in
theorem dispatchWidth_eq_ok_iff {expertIds : List UInt32} {expertWeights : List F}
    {dispatchSpan active : Nat} (hrows : 1 ≤ bind.rows)
    (hspan : mulWord bind.rows (expertIds.length / bind.rows) = some dispatchSpan) :
    dispatchWidth bind expertIds expertWeights dispatchSpan = .ok active ↔
      Dispatched bind expertIds.length expertWeights.length active := by
  obtain ⟨-, hspan⟩ := mulWord_eq_some_iff.mp hspan
  simp only [dispatchWidth, Lib.bind_ok_iff, refuseIf_eq_ok_iff, not_or, Decidable.not_not]
  constructor
  · intro h
    obtain ⟨_, ⟨-, -⟩, _, hactive, _, hle, _, ⟨hids, hweights⟩, hanswer⟩ := h
    cases hanswer
    generalize expertIds.length / bind.rows = active at *
    exact ⟨by omega, by omega, by omega, by omega⟩
  · intro h
    have hdiv : expertIds.length / bind.rows = active := by
      rw [h.ids]
      exact Nat.mul_div_cancel_left _ hrows
    have hids := h.ids
    have hweights := h.weights
    have hpos := h.active_pos
    have hle := h.active_le
    rw [hdiv] at hspan ⊢
    refine ⟨(), ⟨?_, ?_⟩, (), by omega, (), by omega, (), ⟨by omega, by omega⟩, rfl⟩
    · rw [hids, Nat.mul_mod_right]
    · rw [hweights, Nat.mul_mod_right]

theorem dispatchValues_eq_ok_iff {expertIds : List UInt32} {expertWeights : List F} :
    dispatchValues bind expertIds expertWeights = .ok () ↔
      (∀ expert ∈ expertIds, expert.toNat < bind.experts) ∧
        ∀ weight ∈ expertWeights, F32.isFinite weight = true := by
  simp [dispatchValues, Lib.bind_ok_iff]

omit [F32 F] in
theorem dispatchSlot_gives {expertIds : List UInt32} {expertWeights : List F}
    {active row slot : Nat} (hids : row * active + slot < expertIds.length)
    (hweights : row * active + slot < expertWeights.length)
    (hword : row * active + slot ≤ wordMax) :
    Gives (dispatchSlot expertIds expertWeights active row slot : Body σ (UInt32 × F))
      fun selected => expertIds[row * active + slot]? = some selected.1 ∧
        expertWeights[row * active + slot]? = some selected.2 := by
  refine (fetch_gives hids hword).bind fun expert hexpert => ?_
  refine (fetch_gives hweights hword).bind fun weight hweight => ?_
  exact .pure ⟨hexpert, hweight⟩

omit [F32 F] in
theorem selectedSpans (hvalid : bind.Valid) :
    checkedSpan bind.rows bind.inputRowStride bind.k = some bind.inputLength ∧
      checkedSpan bind.rows bind.outputRowStride bind.n = some bind.outputLength ∧
      ∃ columnSpan, bind.columnSpan = some columnSpan ∧
        checkedSpan bind.experts bind.packedExpertStrideBytes columnSpan =
          some bind.weightLength := by
  have hweight := hvalid.weight
  unfold GroupedExpertGemmBind.weightLength at hweight
  refine ⟨checkedSpan_eq_some_iff.mpr ⟨hvalid.rows_pos, hvalid.input, rfl⟩,
    checkedSpan_eq_some_iff.mpr ⟨hvalid.rows_pos, hvalid.output, rfl⟩,
    (bind.n - 1) * bind.packedColumnStrideBytes +
      bind.k / bind.format.blockElements * bind.format.blockBytes, ?_, ?_⟩
  · simp only [GroupedExpertGemmBind.columnSpan, Option.bind_eq_bind, Option.bind_eq_some_iff,
      subWord_eq_some_iff, mulWord_eq_some_iff, addWord_eq_some_iff]
    exact ⟨_, ⟨hvalid.n_pos, rfl⟩, _, ⟨by omega, rfl⟩, _, ⟨by omega, rfl⟩, by omega, rfl⟩
  · rw [checkedSpan_eq_some_iff, ← Nat.add_assoc]
    exact ⟨hvalid.experts_pos, hweight, rfl⟩

theorem groupedExpertGemmSelected_wp (bind : GroupedExpertGemmBind) (activation : List F)
    (expertIds : Slice 4 UInt32) (expertWeights : List F) (packedWeights : List UInt8)
    (output : List F) :
    wp False (groupedExpertGemmSelected bind activation expertIds expertWeights packedWeights)
      (fun _ after => after.length = output.length) (fun _ after => after = output) output := by
  refine wp_of_check ?_ fun _ _ => rfl
  intro _ hvalidate
  have hvalid := GroupedExpertGemmBind.valid_of_validate hvalidate
  obtain ⟨hinput, houtput, columnSpan, hcolumn, hweight⟩ := selectedSpans hvalid
  rw [hinput, houtput, hcolumn]
  simp only [okOr, check_ok, pure_bind]
  rw [hweight]
  simp only [check_ok, pure_bind]
  refine wp_of_check ?_ fun _ _ => rfl
  intro dispatchSpan hdispatch
  have hspan := okOr_eq_ok_iff.mp hdispatch
  obtain ⟨hspanWord, -⟩ := mulWord_eq_some_iff.mp hspan
  rw [Call.wp_bind]
  refine wp_mono checkExpertBuffers_wp ?_ fun _ _ h => h
  intro _ after hchecked
  obtain ⟨rfl, hactivation, hroom, hpacked⟩ := hchecked
  refine wp_of_check ?_ fun _ _ => rfl
  intro active hwidth
  have hdispatched := (dispatchWidth_eq_ok_iff hvalid.rows_pos hspan).mp hwidth
  refine wp_of_check ?_ fun _ _ => rfl
  intro _ hvalues
  obtain ⟨hids, -⟩ := dispatchValues_eq_ok_iff.mp hvalues
  refine wp_mono (E := fun _ _ => False) (expertLoops_wp hvalid hroom ?_) (fun _ _ h => h)
    fun _ _ h => h.elim
  intro row hrow column hcolumn
  refine Gives.foldRange (fun _ _ => True) ?_ trivial
  intro slot hslot sum _
  have hplace := row_place_lt hrow hslot
  have hidCount := hdispatched.ids
  have hweightCount := hdispatched.weights
  have hwhole : bind.rows * active ≤ wordMax := by
    rwa [hidCount, Nat.mul_div_cancel_left _ hvalid.rows_pos] at hspanWord
  refine (dispatchSlot_gives (by omega) (by omega) (by omega)).bind fun selected hselected => ?_
  have hmem := List.mem_of_getElem? hselected.1
  exact (expertIntermediate_gives hvalid hactivation hpacked hrow hcolumn (hids _ hmem)).bind
    fun _ _ => .pure trivial

/-! ## Every expert selected with weight one -/

/-- With every row's ids the experts in ascending order and every weight one, the selected
    body is the grouped one: it answers the same and leaves the same output. -/
theorem selected_all_experts (bind : GroupedExpertGemmBind) (activation : List F)
    (expertIds : Slice 4 UInt32) (expertWeights : List F) (packedWeights : List UInt8)
    (hids : expertIds.toList.map UInt32.toNat =
      (List.replicate bind.rows (List.range bind.experts)).flatten)
    (hweights : expertWeights = List.replicate (bind.rows * bind.experts) 1)
    (hone : ∀ x : F, 1 * x = x) (hfinite : F32.isFinite (1 : F) = true) :
    groupedExpertGemmSelected bind activation expertIds expertWeights packedWeights =
      groupedExpertGemm bind (List.replicate bind.experts (bind.k, bind.n)) activation
        packedWeights := by
  have hlength : expertIds.toList.length = bind.rows * bind.experts := by
    have hcount := congrArg List.length hids
    simpa using hcount
  have hword : bind.rows * bind.experts ≤ wordMax := by
    have hfits := expertIds.fits
    have hmax : wordMax = 2 ^ 64 - 1 := rfl
    have hisize : isizeMax = 2 ^ 63 - 1 := rfl
    omega
  unfold groupedExpertGemmSelected groupedExpertGemm
  cases hvalidate : bind.validate with
  | error e => rfl
  | ok u =>
    have hvalid := GroupedExpertGemmBind.valid_of_validate hvalidate
    obtain ⟨hinput, houtput, columnSpan, hcolumn, hweight⟩ := selectedSpans hvalid
    have hactive : expertIds.toList.length / bind.rows = bind.experts := by
      rw [hlength, Nat.mul_div_cancel_left _ hvalid.rows_pos]
    have hspan : mulWord bind.rows (expertIds.toList.length / bind.rows) =
        some (bind.rows * bind.experts) := by
      rw [hactive]
      exact word_of_le hword
    have hshapes : bind.validateExpertShapes (List.replicate bind.experts (bind.k, bind.n)) =
        .ok () := by
      simp [GroupedExpertGemmBind.validateExpertShapes, Lib.bind_ok_iff]
    have hwidth : dispatchWidth bind expertIds.toList expertWeights (bind.rows * bind.experts) =
        .ok bind.experts :=
      (dispatchWidth_eq_ok_iff hvalid.rows_pos hspan).mpr
        ⟨hlength, by rw [hweights, List.length_replicate], hvalid.experts_pos, Nat.le_refl _⟩
    have hvalues : dispatchValues bind expertIds.toList expertWeights = .ok () := by
      refine dispatchValues_eq_ok_iff.mpr ⟨?_, ?_⟩
      · intro expert hexpert
        have hmem := List.mem_map_of_mem (f := UInt32.toNat) hexpert
        rw [hids] at hmem
        obtain ⟨row, hrow, hmem⟩ := List.mem_flatten.mp hmem
        rw [List.eq_of_mem_replicate hrow] at hmem
        exact List.mem_range.mp hmem
      · intro weight hweight
        rw [hweights] at hweight
        rw [List.eq_of_mem_replicate hweight]
        exact hfinite
    simp only [hinput, houtput, hcolumn, hweight, hspan, hshapes, hwidth, hvalues,
      hvalid.inputSpan_eq, hvalid.outputSpan_eq, hvalid.weightSpan_eq, okOr, check_ok, pure_bind]
    congr 1
    funext _
    refine forRange_congr fun row hrow => forRange_congr fun column _ => ?_
    congr 1
    refine foldRange_congr fun slot hslot sum => ?_
    have hplace := row_place_lt hrow hslot
    obtain ⟨⟨expert, weight⟩, hselected, hexpert, hweightGet⟩ := dispatchSlot_gives (σ := List F)
      (show row * bind.experts + slot < expertIds.toList.length by omega)
      (show row * bind.experts + slot < expertWeights.length by
        rw [hweights, List.length_replicate]; exact hplace) (by omega)
    have hslotExpert : expert.toNat = slot := by
      have hget := congrArg (·[row * bind.experts + slot]?) hids
      have hrows := getElem?_rows (l := List.range bind.experts) hrow
        (by rw [List.length_range]; exact hslot)
      rw [List.length_range] at hrows
      simp only [List.getElem?_map, hexpert, Option.map_some, hrows] at hget
      rw [List.getElem?_range hslot] at hget
      exact Option.some.inj hget
    have hweightOne : weight = 1 := by
      rw [hweights] at hweightGet
      exact List.eq_of_mem_replicate (List.mem_of_getElem? hweightGet)
    simp only [hselected, pure_bind, hslotExpert, hweightOne, hone]

end Bodies

namespace TwoExperts

def bind : GroupedExpertGemmBind :=
  ⟨2, 32, 1, 2, 32, 1, 34, 34, .q8_0, .rank3Experts, #v[1, 1, 1]⟩

/-- One block for each expert, of scale one and weights one and two. -/
def packedWeights : List UInt8 :=
  [0x00, 0x3c] ++ List.replicate 32 1 ++ ([0x00, 0x3c] ++ List.replicate 32 2)

theorem all_selected : groupedExpertGemmSelected bind (List.replicate 64 (1 : Int))
      ⟨[0, 1, 0, 1], by decide⟩ [1, 1, 1, 1] packedWeights =
    groupedExpertGemm bind (List.replicate 2 (32, 1)) (List.replicate 64 (1 : Int))
      packedWeights :=
  selected_all_experts bind (List.replicate 64 (1 : Int)) ⟨[0, 1, 0, 1], by decide⟩ [1, 1, 1, 1]
    packedWeights (by decide) rfl Int.one_mul rfl

end TwoExperts

end FaberHosts.Library
