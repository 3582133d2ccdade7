import FaberHosts.Library.Blocks

/-!
# Decode GEMV

`dispatch_gemv`: a packed projection of one activation row.  Each format has a body that
streams packed blocks and keeps 32 lane sums; a generic body that decodes every weight with
`block_value` is the reference for all of them.
-/

namespace FaberHosts.Library
open FaberHosts.Lib KernelBodyError Call

attribute [local instance] Call.lawfulMonad

variable {σ F : Type}

/-- `QuantizedGemvBind`. -/
structure QuantizedGemvBind where
  k : Nat
  n : Nat
  inputStride : Nat
  outputStride : Nat
  packedColumnStrideBytes : Nat
  format : QuantizedFormat
  grid : Vector UInt32 3
  deriving DecidableEq

namespace QuantizedGemvBind

def validate (bind : QuantizedGemvBind) : Except KernelBodyError Unit := do
  refuseIf (bind.k = 0 ∨ bind.n = 0) (invalidBind "quantized GEMV has a zero dimension")
  refuseIf (bind.inputStride = 0 ∨ bind.outputStride = 0 ∨ bind.packedColumnStrideBytes = 0)
    (invalidBind "quantized GEMV has a zero stride")
  refuseIf (0 ∈ bind.grid.toList) (invalidBind "quantized GEMV has a zero dispatch axis")
  refuseIf (bind.k % bind.format.blockElements ≠ 0)
    (invalidBind "quantized GEMV K is not block aligned")
  let blocksPerColumn := bind.k / bind.format.blockElements
  let minimumColumnBytes ← okOr (mulWord blocksPerColumn bind.format.blockBytes)
    (invalidBind "quantized GEMV packed column span overflow")
  refuseIf (bind.packedColumnStrideBytes < minimumColumnBytes)
    (invalidBind "quantized GEMV packed column stride is too small")
  let _ ← okOr (checkedSpan bind.k bind.inputStride 1)
    (invalidBind "quantized GEMV input span overflow")
  let _ ← okOr (checkedSpan bind.n bind.outputStride 1)
    (invalidBind "quantized GEMV output span overflow")
  let _ ← okOr (checkedSpan bind.n bind.packedColumnStrideBytes minimumColumnBytes)
    (invalidBind "quantized GEMV weight span overflow")
  pure ()

def inputSpan (bind : QuantizedGemvBind) : MayPanic Nat := do
  let last ← subWord bind.k 1
  let width ← mulWord last bind.inputStride
  addWord 1 width

def outputSpan (bind : QuantizedGemvBind) : MayPanic Nat := do
  let last ← subWord bind.n 1
  let width ← mulWord last bind.outputStride
  addWord 1 width

def weightSpan (bind : QuantizedGemvBind) : MayPanic Nat := do
  let last ← subWord bind.n 1
  let columns ← mulWord last bind.packedColumnStrideBytes
  let column ← mulWord (bind.k / bind.format.blockElements) bind.format.blockBytes
  addWord columns column

/-- What validation establishes. -/
structure Valid (bind : QuantizedGemvBind) : Prop where
  k_pos : 1 ≤ bind.k
  n_pos : 1 ≤ bind.n
  inputStride_pos : bind.inputStride ≠ 0
  outputStride_pos : bind.outputStride ≠ 0
  aligned : bind.k % bind.format.blockElements = 0
  column : bind.k / bind.format.blockElements * bind.format.blockBytes ≤
    bind.packedColumnStrideBytes
  input : (bind.k - 1) * bind.inputStride + 1 ≤ wordMax
  output : (bind.n - 1) * bind.outputStride + 1 ≤ wordMax
  weight : (bind.n - 1) * bind.packedColumnStrideBytes +
    bind.k / bind.format.blockElements * bind.format.blockBytes ≤ wordMax

theorem valid_of_validate {bind : QuantizedGemvBind} (h : bind.validate = .ok ()) :
    bind.Valid := by
  simp only [validate, Lib.bind_ok_iff, refuseIf_eq_ok_iff, okOr_eq_ok_iff, mulWord_eq_some_iff,
    checkedSpan_eq_some_iff, not_or] at h
  obtain ⟨_, ⟨hk, hn⟩, _, ⟨his, hos, -⟩, _, -, _, haligned, _, ⟨-, rfl⟩, _, hcolumn, _,
    ⟨-, hinput, -⟩, _, ⟨-, houtput, -⟩, _, ⟨-, hweight, -⟩, -⟩ := h
  exact ⟨by omega, by omega, his, hos, by omega, by omega, hinput, houtput, hweight⟩

theorem Valid.inputSpan_eq {bind : QuantizedGemvBind} (h : bind.Valid) :
    bind.inputSpan = some (1 + (bind.k - 1) * bind.inputStride) := by
  have hinput := h.input
  simp [inputSpan, subWord, h.k_pos, mulWord, addWord, word, show
    (bind.k - 1) * bind.inputStride ≤ wordMax by omega, show
    1 + (bind.k - 1) * bind.inputStride ≤ wordMax by omega]

theorem Valid.outputSpan_eq {bind : QuantizedGemvBind} (h : bind.Valid) :
    bind.outputSpan = some (1 + (bind.n - 1) * bind.outputStride) := by
  have houtput := h.output
  simp [outputSpan, subWord, h.n_pos, mulWord, addWord, word, show
    (bind.n - 1) * bind.outputStride ≤ wordMax by omega, show
    1 + (bind.n - 1) * bind.outputStride ≤ wordMax by omega]

theorem Valid.weightSpan_eq {bind : QuantizedGemvBind} (h : bind.Valid) :
    bind.weightSpan = some ((bind.n - 1) * bind.packedColumnStrideBytes +
      bind.k / bind.format.blockElements * bind.format.blockBytes) := by
  have hweight := h.weight
  simp [weightSpan, subWord, h.n_pos, mulWord, addWord, word, hweight, show
    (bind.n - 1) * bind.packedColumnStrideBytes ≤ wordMax by omega, show
    bind.k / bind.format.blockElements * bind.format.blockBytes ≤ wordMax by omega]

end QuantizedGemvBind

/-- `GemvBuffers`, less the output, which is the state. -/
structure GemvBuffers (F : Type) where
  k : Nat
  n : Nat
  inputStride : Nat
  outputStride : Nat
  columnStride : Nat
  activation : List F
  packedWeight : List UInt8

def QuantizedGemvBind.buffers (bind : QuantizedGemvBind) (activation : List F)
    (packedWeight : List UInt8) : GemvBuffers F :=
  ⟨bind.k, bind.n, bind.inputStride, bind.outputStride, bind.packedColumnStrideBytes, activation,
    packedWeight⟩

def prepareGemvBuffers (bind : QuantizedGemvBind) (activation : List F)
    (packedWeight : List UInt8) : Body (List F) (GemvBuffers F) := do
  check bind.validate
  let inputSpan ← Call.value bind.inputSpan
  let outputSpan ← Call.value bind.outputSpan
  let weightSpan ← Call.value bind.weightSpan
  let output ← Call.get
  check (refuseIf (activation.length < inputSpan)
    (bufferTooShort "activation" inputSpan activation.length))
  check (refuseIf (output.length < outputSpan)
    (bufferTooShort "output" outputSpan output.length))
  check (refuseIf (packedWeight.length < weightSpan)
    (bufferTooShort "packed_weight" weightSpan packedWeight.length))
  pure (bind.buffers activation packedWeight)

/-- When the buffers are prepared. -/
structure QuantizedGemvBind.Accepts (bind : QuantizedGemvBind) (activationLength packedLength
    outputLength : Nat) : Prop where
  validate : bind.validate = .ok ()
  activation : 1 + (bind.k - 1) * bind.inputStride ≤ activationLength
  output : 1 + (bind.n - 1) * bind.outputStride ≤ outputLength
  packed : (bind.n - 1) * bind.packedColumnStrideBytes +
    bind.k / bind.format.blockElements * bind.format.blockBytes ≤ packedLength

/-! ## The lanes -/

section Lanes

variable [F32 F]

def simdgroupWidth : Nat := 32

/-- The rounds of `simdgroup_reduce` from a width on. -/
def reduceLanes (width : Nat) (lanes : List F) : Body σ (List F) :=
  if h : width = 0 then pure lanes
  else do
    let lanes ← foldRange width lanes fun lanes lane => do
      let low ← fetch lanes lane
      let high ← fetch lanes (lane + width)
      pure (lanes.set lane (low + high))
    reduceLanes (width / 2) lanes
  termination_by width
  decreasing_by omega

def simdgroupReduce (lanes : List F) : Body σ F := do
  let lanes ← reduceLanes (simdgroupWidth / 2) lanes
  fetch lanes 0

theorem reduceLanes_gives {width : Nat} {lanes : List F} (hwidth : 2 * width ≤ simdgroupWidth)
    (hlanes : lanes.length = simdgroupWidth) :
    Gives (reduceLanes width lanes : Body σ (List F)) (·.length = simdgroupWidth) := by
  have hmax : wordMax = 2 ^ 64 - 1 := rfl
  have hsimd : simdgroupWidth = 32 := rfl
  induction width using Nat.strong_induction_on generalizing lanes with
  | _ width ih =>
    rw [reduceLanes]
    by_cases hzero : width = 0
    · rw [dif_pos hzero]
      exact .pure hlanes
    · rw [dif_neg hzero]
      refine (Gives.foldRange (fun _ (lanes : List F) => lanes.length = simdgroupWidth) ?_
        hlanes).bind fun lanes hlanes => ih (width / 2) (by omega) (by omega) hlanes
      intro lane hlane lanes hlanes
      refine (fetch_gives (by omega) (by omega)).bind fun low _ => ?_
      refine (fetch_gives (by omega) (by omega)).bind fun high _ => ?_
      exact .pure (by rw [List.length_set, hlanes])

theorem simdgroupReduce_gives {lanes : List F} (hlanes : lanes.length = simdgroupWidth) :
    Gives (simdgroupReduce lanes : Body σ F) fun _ => True := by
  refine (reduceLanes_gives (by decide) hlanes).bind fun lanes hreduced => ?_
  exact (fetch_gives (by rw [hreduced]; decide) (by decide)).mono fun _ _ => trivial

end Lanes

/-! ## The bodies -/

section Bodies

variable [F32 F]

/-- What the bodies share: the packed blocks of each column, from left to right, each of
    which updates the lane sums. -/
def gemvBlocks (b : GemvBuffers F) (blockElements blockBytes : Nat)
    (round : List UInt8 → Nat → List F → Body (List F) (List F)) : Body (List F) Unit :=
  forRange b.n fun column => do
    let colStart ← Call.value (mulWord column b.columnStride)
    let laneSums ← foldRange (b.k / blockElements) (List.replicate simdgroupWidth 0)
      fun laneSums ib => do
        let base := colStart + ib * blockBytes
        let block ← fetchSlice b.packedWeight base (base + blockBytes)
        round block (ib * blockElements) laneSums
    let sum ← simdgroupReduce laneSums
    writeAt (column * b.outputStride) sum

def roundQ8_0 (b : GemvBuffers F) (block : List UInt8) (kBase : Nat) (laneSums : List F) :
    Body (List F) (List F) := do
  let d : F ← halfAt block 0
  forEnumerated laneSums fun sum lane => do
    let q ← fetch block (2 + lane)
    let x ← fetch b.activation ((kBase + lane) * b.inputStride)
    pure (sum + x * (d * ofSigned q))

def gemvQ8_0 (b : GemvBuffers F) : Body (List F) Unit :=
  gemvBlocks b 32 34 (roundQ8_0 b)

def roundQ5_0 (b : GemvBuffers F) (block : List UInt8) (kBase : Nat) (laneSums : List F) :
    Body (List F) (List F) := do
  let d : F ← halfAt block 0
  let qh ← wordAt block 2
  forEnumerated laneSums fun sum lane => do
    let pair := lane % 16
    let q ← fetch block (6 + pair)
    let high := if lane < 16 then (qh >>> pair) <<< 4 &&& 0x10 else qh >>> (pair + 12) &&& 0x10
    let nibble := if lane < 16 then q &&& 0x0f else q >>> 4
    let weight := (ofSigned (nibble ||| UInt8.ofNat high) - F32.ofInt 16) * d
    let x ← fetch b.activation ((kBase + lane) * b.inputStride)
    pure (sum + x * weight)

def gemvQ5_0 (b : GemvBuffers F) : Body (List F) Unit :=
  gemvBlocks b 32 22 (roundQ5_0 b)

def roundQ4K (b : GemvBuffers F) (block : List UInt8) (kBase : Nat) (laneSums : List F) :
    Body (List F) (List F) := do
  let d : F ← halfAt block 0
  let dmin : F ← halfAt block 2
  let scales ← fetchSlice block 4 16
  forEnumerated laneSums fun sum lane =>
    foldRange 8 sum fun sum group => do
      let scaleMin ← getScaleMinK4 group scales
      let qs ← fetch block (16 + group / 2 * 32 + lane)
      let nibble := if group % 2 = 0 then qs &&& 0x0f else qs >>> 4
      let weight := d * ofByte scaleMin.1 * ofByte nibble - dmin * ofByte scaleMin.2
      let index := kBase + group * 32 + lane
      let x ← fetch b.activation (index * b.inputStride)
      pure (sum + x * weight)

def gemvQ4K (b : GemvBuffers F) : Body (List F) Unit :=
  gemvBlocks b 256 144 (roundQ4K b)

def roundQ5K (b : GemvBuffers F) (block : List UInt8) (kBase : Nat) (laneSums : List F) :
    Body (List F) (List F) :=
  forEnumerated laneSums fun sum lane =>
    foldRange 8 sum fun sum group => do
      let element := group * 32 + lane
      let weight ← blockValue .q5K block element
      let x ← fetch b.activation ((kBase + element) * b.inputStride)
      pure (sum + x * weight)

def gemvQ5K (b : GemvBuffers F) : Body (List F) Unit :=
  gemvBlocks b 256 176 (roundQ5K b)

def roundQ6K (b : GemvBuffers F) (block : List UInt8) (kBase : Nat) (laneSums : List F) :
    Body (List F) (List F) := do
  let d : F ← halfAt block 208
  forEnumerated laneSums fun sum lane =>
    foldRange 8 sum fun sum group => do
      let element := group * 32 + lane
      let half := element / 128 * 128
      let remainder := element % 128
      let qLane := remainder / 32
      let l := remainder % 32
      let scaleIndex := half / 16 + l / 16
      let qlOffset := half / 2
      let qhOffset := half / 4
      let ql0 ← fetch block (qlOffset + l)
      let ql1 ← fetch block (qlOffset + l + 32)
      let qh ← fetch block (128 + qhOffset + l)
      let quant ← check (q6KLaneQuant qLane ql0 ql1 qh scaleIndex)
      let scale ← fetch block (192 + quant.2)
      let weight := d * ofSigned scale * F32.ofInt (quant.1.toNat - 32)
      let x ← fetch b.activation ((kBase + element) * b.inputStride)
      pure (sum + x * weight)

def gemvQ6K (b : GemvBuffers F) : Body (List F) Unit :=
  gemvBlocks b 256 210 (roundQ6K b)

/-- `GemvKernel`. -/
inductive GemvKernel where
  | quantized

def dispatchGemv (kernel : GemvKernel) (bind : QuantizedGemvBind) (activation : List F)
    (packedWeight : List UInt8) : Body (List F) Unit :=
  match kernel with
  | .quantized => do
    let buffers ← prepareGemvBuffers bind activation packedWeight
    match bind.format with
    | .q4K => gemvQ4K buffers
    | .q5_0 => gemvQ5_0 buffers
    | .q5K => gemvQ5K buffers
    | .q6K => gemvQ6K buffers
    | .q8_0 => gemvQ8_0 buffers

/-! ## The reference -/

/-- `block_value` of the weight in row `j` of a column. -/
def referenceWeight (b : GemvBuffers F) (format : QuantizedFormat) (column j : Nat) :
    Body σ F := do
  let base := column * b.columnStride + j / format.blockElements * format.blockBytes
  let block ← fetchSlice b.packedWeight base (base + format.blockBytes)
  blockValue format block (j % format.blockElements)

/-- The 32-lane reduction of a column: each lane sums every 32nd product, in order. -/
def referenceColumn (b : GemvBuffers F) (format : QuantizedFormat) (column : Nat) :
    Body σ F := do
  let laneSums ← (List.range simdgroupWidth).mapM fun lane =>
    foldRange (b.k / simdgroupWidth) 0 fun sum t => do
      let j := lane + simdgroupWidth * t
      let weight ← referenceWeight b format column j
      let x ← fetch b.activation (j * b.inputStride)
      pure (sum + x * weight)
  simdgroupReduce laneSums

/-! ## Each body computes the reference -/

/-- The buffers hold what the bodies address. -/
structure GemvBuffers.Fits (b : GemvBuffers F) (format : QuantizedFormat) (outputLength : Nat) :
    Prop where
  aligned : b.k % format.blockElements = 0
  outputStride_pos : b.outputStride ≠ 0
  columnStart : ∀ column < b.n, column * b.columnStride ≤ wordMax
  activation : ∀ j < b.k, j * b.inputStride < b.activation.length ∧ j * b.inputStride ≤ wordMax
  packed : ∀ column < b.n, ∀ ib < b.k / format.blockElements,
    column * b.columnStride + ib * format.blockBytes + format.blockBytes ≤
      b.packedWeight.length ∧
    column * b.columnStride + ib * format.blockBytes + format.blockBytes ≤ wordMax
  output : ∀ column < b.n, column * b.outputStride < outputLength ∧
    column * b.outputStride ≤ wordMax

omit [F32 F] in
theorem QuantizedGemvBind.Accepts.fits {bind : QuantizedGemvBind} {activation : List F}
    {packedWeight : List UInt8} {outputLength : Nat}
    (h : bind.Accepts activation.length packedWeight.length outputLength) :
    (bind.buffers activation packedWeight).Fits bind.format outputLength := by
  have hvalid := valid_of_validate h.validate
  have hinput := hvalid.input
  have houtput := hvalid.output
  have hweight := hvalid.weight
  have hactivationLength := h.activation
  have houtputLength := h.output
  have hpackedLength := h.packed
  refine ⟨hvalid.aligned, hvalid.outputStride_pos, ?_, ?_, ?_, ?_⟩
  · intro column hcolumn
    have hspan := mul_le_span bind.packedColumnStrideBytes hcolumn
    simp only [buffers] at hspan ⊢
    omega
  · intro j hj
    have hspan := mul_le_span bind.inputStride hj
    simp only [buffers] at hspan ⊢
    omega
  · intro column hcolumn ib hib
    have hspan := mul_le_span bind.packedColumnStrideBytes hcolumn
    have hblock : (ib + 1) * bind.format.blockBytes ≤
        bind.k / bind.format.blockElements * bind.format.blockBytes :=
      Nat.mul_le_mul_right _ hib
    rw [Nat.add_mul, Nat.one_mul] at hblock
    simp only [buffers] at hspan ⊢
    omega
  · intro column hcolumn
    have hspan := mul_le_span bind.outputStride hcolumn
    simp only [buffers] at hspan ⊢
    omega

/-- The sum of a lane after so many products. -/
def laneSum (x w : Nat → F) (lane count : Nat) : F :=
  (List.range count).foldl (fun sum t =>
    sum + x (lane + simdgroupWidth * t) * w (lane + simdgroupWidth * t)) 0

theorem laneSum_succ (x w : Nat → F) (lane count : Nat) :
    laneSum x w lane (count + 1) = laneSum x w lane count +
      x (lane + simdgroupWidth * count) * w (lane + simdgroupWidth * count) := by
  simp [laneSum, List.range_succ, List.foldl_append]

/-- A round over one block adds the products of the block to every lane: `w` are the
    weights of the column and `x` the activations. -/
def Streams (b : GemvBuffers F) (format : QuantizedFormat) (groups : Nat)
    (round : List UInt8 → Nat → List F → Body (List F) (List F)) : Prop :=
  ∀ (block : List UInt8) (x w : Nat → F) (ib : Nat), block.length = format.blockBytes →
    (∀ element < format.blockElements, (blockValue format block element : Body (List F) F) =
      pure (w (ib * format.blockElements + element))) →
    (∀ element < format.blockElements,
      (fetch b.activation ((ib * format.blockElements + element) * b.inputStride) :
        Body (List F) F) = pure (x (ib * format.blockElements + element))) →
    Gives (round block (ib * format.blockElements)
        ((List.range simdgroupWidth).map (laneSum x w · (groups * ib))))
      (· = (List.range simdgroupWidth).map (laneSum x w · (groups * (ib + 1))))

variable {b : GemvBuffers F} {format : QuantizedFormat} {outputLength : Nat}

theorem GemvBuffers.Fits.exists_activation (h : b.Fits format outputLength) :
    ∃ x : Nat → F, ∀ j < b.k,
      (fetch b.activation (j * b.inputStride) : Body (List F) F) = pure (x j) := by
  have hreads : ∀ j, ∃ x : F, j < b.k →
      (fetch b.activation (j * b.inputStride) : Body (List F) F) = pure x := by
    intro j
    by_cases hj : j < b.k
    · obtain ⟨x, hx, -⟩ := fetch_gives (σ := List F) (h.activation j hj).1 (h.activation j hj).2
      exact ⟨x, fun _ => hx⟩
    · exact ⟨0, fun hlt => (hj hlt).elim⟩
  choose x hx using hreads
  exact ⟨x, hx⟩

theorem GemvBuffers.Fits.exists_weight (h : b.Fits format outputLength) {column : Nat}
    (hcolumn : column < b.n) : ∃ w : Nat → F, ∀ j < b.k,
      (referenceWeight b format column j : Body (List F) F) = pure (w j) := by
  have hreads : ∀ j, ∃ w : F, j < b.k →
      (referenceWeight b format column j : Body (List F) F) = pure w := by
    intro j
    by_cases hj : j < b.k
    · have hblock : j / format.blockElements < b.k / format.blockElements := by
        rw [Nat.div_lt_iff_lt_mul format.blockElements_pos,
          Nat.div_mul_cancel (Nat.dvd_of_mod_eq_zero h.aligned)]
        exact hj
      obtain ⟨hpacked, hword⟩ := h.packed column hcolumn _ hblock
      have hweight : Gives (referenceWeight b format column j : Body (List F) F)
          fun _ => True := by
        refine (fetchSlice_gives (by omega) hpacked hword).bind fun block hslice => ?_
        refine blockValue_gives ?_ (Nat.mod_lt _ format.blockElements_pos)
        rw [hslice, List.length_take, List.length_drop]
        omega
      obtain ⟨w, hw, -⟩ := hweight
      exact ⟨w, fun _ => hw⟩
    · exact ⟨0, fun hlt => (hj hlt).elim⟩
  choose w hw using hreads
  exact ⟨w, hw⟩

theorem referenceColumn_eq {column : Nat} {x w : Nat → F}
    (hlanes : b.k % simdgroupWidth = 0)
    (hx : ∀ j < b.k, (fetch b.activation (j * b.inputStride) : Body (List F) F) = pure (x j))
    (hw : ∀ j < b.k, (referenceWeight b format column j : Body (List F) F) = pure (w j)) :
    (referenceColumn b format column : Body (List F) F) = simdgroupReduce
      ((List.range simdgroupWidth).map (laneSum x w · (b.k / simdgroupWidth))) := by
  have hsums : Gives ((List.range simdgroupWidth).mapM (fun lane =>
      foldRange (b.k / simdgroupWidth) 0 fun sum t => do
        let weight ← referenceWeight b format column (lane + simdgroupWidth * t)
        let x ← fetch b.activation ((lane + simdgroupWidth * t) * b.inputStride)
        pure (sum + x * weight)) : Body (List F) (List F))
      (· = (List.range simdgroupWidth).map (laneSum x w · (b.k / simdgroupWidth))) := by
    refine Gives.mapM_eq ?_
    intro lane hlane
    have hlane := List.mem_range.mp hlane
    refine Gives.foldRange (fun t sum => sum = laneSum x w lane t) ?_ rfl
    intro t ht sum hsum
    have hj : lane + simdgroupWidth * t < b.k := by
      have hround : simdgroupWidth * (t + 1) ≤ simdgroupWidth * (b.k / simdgroupWidth) :=
        Nat.mul_le_mul_left _ ht
      have hwhole := Nat.mul_div_cancel' (Nat.dvd_of_mod_eq_zero hlanes)
      rw [Nat.mul_succ] at hround
      omega
    rw [hw _ hj, pure_bind, hx _ hj, pure_bind, laneSum_succ, hsum]
    exact .pure rfl
  rw [referenceColumn, hsums.eq, pure_bind]

/-- The lane sums a body that streams the blocks of a column arrives at. -/
theorem laneSums_gives {groups column : Nat} {x w : Nat → F}
    {round : List UInt8 → Nat → List F → Body (List F) (List F)}
    (hfits : b.Fits format outputLength) (hgroups : format.blockElements = simdgroupWidth * groups)
    (hround : Streams b format groups round) (hcolumn : column < b.n)
    (hx : ∀ j < b.k, (fetch b.activation (j * b.inputStride) : Body (List F) F) = pure (x j))
    (hw : ∀ j < b.k, (referenceWeight b format column j : Body (List F) F) = pure (w j)) :
    Gives (foldRange (b.k / format.blockElements) (List.replicate simdgroupWidth 0)
        fun laneSums ib => do
          let block ← fetchSlice b.packedWeight
            (column * b.columnStride + ib * format.blockBytes)
            (column * b.columnStride + ib * format.blockBytes + format.blockBytes)
          round block (ib * format.blockElements) laneSums)
      (· = (List.range simdgroupWidth).map (laneSum x w · (b.k / simdgroupWidth))) := by
  have hwhole := Nat.div_mul_cancel (Nat.dvd_of_mod_eq_zero hfits.aligned)
  have hrounds : b.k / simdgroupWidth = groups * (b.k / format.blockElements) := by
    refine Nat.div_eq_of_eq_mul_right (by decide) ?_
    rw [← Nat.mul_assoc, ← hgroups, Nat.mul_comm, hwhole]
  rw [hrounds]
  refine Gives.foldRange (fun ib (laneSums : List F) =>
    laneSums = (List.range simdgroupWidth).map (laneSum x w · (groups * ib))) ?_ ?_
  · intro ib hib laneSums hsums
    obtain ⟨hpacked, hword⟩ := hfits.packed column hcolumn ib hib
    obtain ⟨block, hslice, hblock⟩ := fetchSlice_gives (σ := List F)
      (Nat.le_add_right (column * b.columnStride + ib * format.blockBytes) format.blockBytes)
      hpacked hword
    have hlength : block.length = format.blockBytes := by
      rw [hblock, List.length_take, List.length_drop]
      omega
    have hlt : ∀ element < format.blockElements,
        ib * format.blockElements + element < b.k := by
      intro element helement
      have hnext : (ib + 1) * format.blockElements ≤
          b.k / format.blockElements * format.blockElements := Nat.mul_le_mul_right _ hib
      rw [Nat.add_mul, Nat.one_mul] at hnext
      omega
    rw [hslice, pure_bind, hsums]
    refine hround block x w ib hlength ?_ fun element helement => hx _ (hlt element helement)
    intro element helement
    have hdiv : (ib * format.blockElements + element) / format.blockElements = ib := by
      rw [Nat.add_comm, Nat.add_mul_div_right _ _ format.blockElements_pos,
        Nat.div_eq_of_lt helement, Nat.zero_add]
    have hmod : (ib * format.blockElements + element) % format.blockElements = element := by
      rw [Nat.add_comm, Nat.add_mul_mod_self_right, Nat.mod_eq_of_lt helement]
    rw [← hw _ (hlt element helement), referenceWeight, hdiv, hmod, hslice, pure_bind]
  · rw [Nat.mul_zero]
    apply List.ext_getElem
    · simp
    · intro i _ _
      simp [laneSum]

/-- What a body leaves in its output. -/
structure GemvBuffers.Written (b : GemvBuffers F) (format : QuantizedFormat) (columns : Nat)
    (before after : List F) : Prop where
  length : after.length = before.length
  column : ∀ column < columns, ∃ value,
    (referenceColumn b format column : Body (List F) F) = pure value ∧
      after[column * b.outputStride]? = some value
  other : ∀ i, (∀ column < columns, i ≠ column * b.outputStride) → after[i]? = before[i]?

theorem gemvBlocks_wp {groups : Nat} {output : List F}
    {round : List UInt8 → Nat → List F → Body (List F) (List F)}
    {E : KernelBodyError → List F → Prop} (hfits : b.Fits format output.length)
    (hgroups : format.blockElements = simdgroupWidth * groups)
    (hround : Streams b format groups round) :
    wp False (gemvBlocks b format.blockElements format.blockBytes round)
      (fun _ after => b.Written format b.n output after) E output := by
  obtain ⟨x, hx⟩ := hfits.exists_activation
  have hlanes : b.k % simdgroupWidth = 0 := by
    have haligned := Nat.dvd_of_mod_eq_zero hfits.aligned
    rw [hgroups] at haligned
    exact Nat.mod_eq_zero_of_dvd ((Nat.dvd_mul_right _ _).trans haligned)
  refine wp_forRange (fun columns after => b.Written format columns output after) ?_
    ⟨rfl, by simp, fun _ _ => rfl⟩
  intro column hcolumn after hafter
  obtain ⟨w, hw⟩ := hfits.exists_weight hcolumn
  refine wp_of_value (word_of_le (hfits.columnStart column hcolumn)) ?_
  refine (laneSums_gives hfits hgroups hround hcolumn hx hw).wp_bind fun laneSums hsums => ?_
  have hreference := referenceColumn_eq hlanes hx hw
  rw [← hsums] at hreference
  obtain ⟨value, hvalue, -⟩ := simdgroupReduce_gives (σ := List F)
    (show laneSums.length = simdgroupWidth by rw [hsums, List.length_map, List.length_range])
  rw [hvalue, pure_bind]
  obtain ⟨hout, hword⟩ := hfits.output column hcolumn
  refine wp_writeAt (by rw [hafter.length]; exact hout) hword ⟨?_, ?_, ?_⟩
  · rw [List.length_set, hafter.length]
  · intro c hc
    by_cases heq : c = column
    · subst heq
      exact ⟨value, hreference.trans hvalue, by
        rw [List.getElem?_set_self (by rw [hafter.length]; exact hout)]⟩
    · obtain ⟨v, hv, hget⟩ := hafter.column c (by omega)
      have hne : column * b.outputStride ≠ c * b.outputStride := fun hsame =>
        heq (Nat.eq_of_mul_eq_mul_right (Nat.pos_of_ne_zero hfits.outputStride_pos) hsame).symm
      exact ⟨v, hv, by rw [List.getElem?_set_ne hne, hget]⟩
  · intro i hi
    rw [List.getElem?_set_ne (fun hsame => hi column (by omega) hsame.symm)]
    exact hafter.other i fun c hc => hi c (by omega)

/-! ### The five formats -/

theorem groups_give {x w : Nat → F} {ib lane : Nat} {body : F → Nat → Body (List F) F}
    (hbody : ∀ group < 8, ∀ sum, Gives (body sum group)
      (· = sum + x (ib * 256 + (group * 32 + lane)) * w (ib * 256 + (group * 32 + lane)))) :
    Gives (foldRange 8 (laneSum x w lane (8 * ib)) body)
      (· = laneSum x w lane (8 * (ib + 1))) := by
  refine Gives.foldRange (fun group sum => sum = laneSum x w lane (8 * ib + group)) ?_ rfl
  intro group hgroup sum hsum
  have hplace : lane + simdgroupWidth * (8 * ib + group) = ib * 256 + (group * 32 + lane) := by
    rw [show simdgroupWidth = 32 from rfl]
    omega
  rw [← Nat.add_assoc, laneSum_succ, hplace, hsum]
  exact hbody group hgroup _

theorem round_gives {x w : Nat → F} {ib lane : Nat} {c : Body (List F) F}
    (h : Gives c (· = laneSum x w lane (1 * ib) + x (ib * 32 + lane) * w (ib * 32 + lane))) :
    Gives c (· = laneSum x w lane (1 * (ib + 1))) := by
  have hplace : lane + simdgroupWidth * (1 * ib) = ib * 32 + lane := by
    rw [show simdgroupWidth = 32 from rfl]
    omega
  rw [Nat.mul_succ, laneSum_succ, hplace]
  exact h

theorem blockBytes_guard {block : List UInt8} (h : block.length = format.blockBytes) :
    ¬block.length < format.blockBytes := by omega

theorem streams_q8_0 : Streams b .q8_0 1 (roundQ8_0 b) := by
  intro block x w ib hlength hw hx
  have hmax : wordMax = 2 ^ 64 - 1 := rfl
  have hsmall := blockBytes_guard hlength
  change block.length = 34 at hlength
  obtain ⟨d, hd, -⟩ := halfAt_gives (σ := List F) (F := F)
    (show 0 + 1 < block.length by omega) (by omega)
  rw [roundQ8_0, hd, pure_bind]
  refine forEnumerated_gives ?_
  intro lane hlane
  change lane < 32 at hlane
  obtain ⟨q, hq, -⟩ := fetch_gives (σ := List F) (l := block) (i := 2 + lane) (by omega) (by omega)
  have hweight := hw lane hlane
  simp only [blockValue, check_ok,
    refuseIf_of_not hsmall, hd, hq, pure_bind] at hweight
  apply round_gives
  rw [hq, pure_bind, hx lane hlane, pure_bind, pure_inj hweight]
  exact .pure rfl

theorem streams_q5_0 : Streams b .q5_0 1 (roundQ5_0 b) := by
  intro block x w ib hlength hw hx
  simp only [QuantizedFormat.blockElements] at hw hx ⊢
  have hmax : wordMax = 2 ^ 64 - 1 := rfl
  have hsmall := blockBytes_guard hlength
  change block.length = 22 at hlength
  obtain ⟨d, hd, -⟩ := halfAt_gives (σ := List F) (F := F)
    (show 0 + 1 < block.length by omega) (by omega)
  obtain ⟨qh, hqh, -⟩ := wordAt_gives (σ := List F) (show 2 + 3 < block.length by omega)
    (by omega)
  rw [roundQ5_0, hd, pure_bind, hqh, pure_bind]
  refine forEnumerated_gives ?_
  intro lane hlane
  change lane < 32 at hlane
  obtain ⟨q, hq, -⟩ := fetch_gives (σ := List F) (l := block) (i := 6 + lane % 16) (by omega)
    (by omega)
  have hweight := hw lane hlane
  simp only [blockValue, check_ok,
    refuseIf_of_not hsmall, hd, hqh, hq, pure_bind] at hweight
  apply round_gives
  simp only [hq, hx lane hlane, pure_bind]
  exact .pure (by rw [← pure_inj hweight])

theorem streams_q4K : Streams b .q4K 8 (roundQ4K b) := by
  intro block x w ib hlength hw hx
  simp only [QuantizedFormat.blockElements] at hw hx ⊢
  have hmax : wordMax = 2 ^ 64 - 1 := rfl
  have hsmall := blockBytes_guard hlength
  change block.length = 144 at hlength
  obtain ⟨d, hd, -⟩ := halfAt_gives (σ := List F) (F := F)
    (show 0 + 1 < block.length by omega) (by omega)
  obtain ⟨dmin, hdmin, -⟩ := halfAt_gives (σ := List F) (F := F)
    (show 2 + 1 < block.length by omega) (by omega)
  obtain ⟨scales, hscales, hslice⟩ := fetchSlice_gives (σ := List F)
    (show 4 ≤ 16 by omega) (show 16 ≤ block.length by omega) (by omega)
  have hscaleBytes : scales.length = 12 := by
    rw [hslice, List.length_take, List.length_drop]
    omega
  rw [roundQ4K, hd, pure_bind, hdmin, pure_bind, hscales, pure_bind]
  refine forEnumerated_gives ?_
  intro lane hlane
  change lane < 32 at hlane
  apply groups_give
  intro group hgroup sum
  -- element `32 * group + lane` is in half `group % 2` of pair `group / 2`
  have helement : group * 32 + lane < 256 := by omega
  have hpair : (group * 32 + lane) / 64 = group / 2 := by omega
  have hwithin : (group * 32 + lane) % 64 % 32 = lane := by omega
  have hscale : group / 2 * 2 + (if (group * 32 + lane) % 64 ≥ 32 then 1 else 0) = group := by
    split <;> omega
  have hnibble : (group * 32 + lane) % 64 < 32 ↔ group % 2 = 0 := by omega
  obtain ⟨scaleMin, hscaleMin, -⟩ := getScaleMinK4_gives (σ := List F) hgroup hscaleBytes
  obtain ⟨qs, hqs, -⟩ := fetch_gives (σ := List F) (l := block) (i := 16 + group / 2 * 32 + lane)
    (by omega) (by omega)
  have hweight := hw _ helement
  simp only [blockValue, check_ok,
    refuseIf_of_not hsmall, hd, hdmin, hscales, hpair, hwithin, hscale, hnibble, hscaleMin, hqs,
    pure_bind] at hweight
  have hread := hx _ helement
  rw [← Nat.add_assoc] at hread
  simp only [hscaleMin, hqs, hread, pure_bind]
  exact .pure (by rw [← pure_inj hweight, Nat.add_assoc (ib * 256)])

theorem streams_q5K : Streams b .q5K 8 (roundQ5K b) := by
  intro block x w ib hlength hw hx
  simp only [QuantizedFormat.blockElements] at hw hx ⊢
  refine forEnumerated_gives ?_
  intro lane hlane
  change lane < 32 at hlane
  apply groups_give
  intro group hgroup sum
  have helement : group * 32 + lane < 256 := by omega
  simp only [hw _ helement, hx _ helement, pure_bind]
  exact .pure rfl

theorem streams_q6K : Streams b .q6K 8 (roundQ6K b) := by
  intro block x w ib hlength hw hx
  simp only [QuantizedFormat.blockElements] at hw hx ⊢
  have hmax : wordMax = 2 ^ 64 - 1 := rfl
  have hsmall := blockBytes_guard hlength
  change block.length = 210 at hlength
  obtain ⟨d, hd, -⟩ := halfAt_gives (σ := List F) (F := F)
    (show 208 + 1 < block.length by omega) (by omega)
  rw [roundQ6K, hd, pure_bind]
  refine forEnumerated_gives ?_
  intro lane hlane
  change lane < 32 at hlane
  apply groups_give
  intro group hgroup sum
  have helement : group * 32 + lane < 256 := by omega
  obtain ⟨ql0, hql0, -⟩ := fetch_gives (σ := List F) (l := block)
    (i := (group * 32 + lane) / 128 * 128 / 2 + (group * 32 + lane) % 128 % 32) (by omega) (by omega)
  obtain ⟨ql1, hql1, -⟩ := fetch_gives (σ := List F) (l := block)
    (i := (group * 32 + lane) / 128 * 128 / 2 + (group * 32 + lane) % 128 % 32 + 32) (by omega)
    (by omega)
  obtain ⟨qh, hqh, -⟩ := fetch_gives (σ := List F) (l := block)
    (i := 128 + (group * 32 + lane) / 128 * 128 / 4 + (group * 32 + lane) % 128 % 32) (by omega)
    (by omega)
  obtain ⟨q, slot, hquant, hslot⟩ := q6KLaneQuant_ok
    (show (group * 32 + lane) % 128 / 32 < 4 by omega) ql0 ql1 qh
    ((group * 32 + lane) / 128 * 128 / 16 + (group * 32 + lane) % 128 % 32 / 16)
  obtain ⟨scale, hscale, -⟩ := fetch_gives (σ := List F) (l := block) (i := 192 + slot) (by omega)
    (by omega)
  have hweight := hw _ helement
  simp only [blockValue, check_ok,
    refuseIf_of_not hsmall, hd, hql0, hql1, hqh, hquant, hscale, pure_bind] at hweight
  simp only [hql0, hql1, hqh, hquant, check_ok, hscale, hx _ helement, pure_bind]
  exact .pure (by rw [← pure_inj hweight])

/-! ## Dispatch -/

omit [F32 F] in
/-- Preparation answers the buffers where it accepts them and else an error, and leaves the
    output as it is. -/
theorem prepareGemvBuffers_wp (bind : QuantizedGemvBind) (activation : List F)
    (packedWeight : List UInt8) (output : List F) :
    wp False (prepareGemvBuffers bind activation packedWeight)
      (fun buffers after => after = output ∧ buffers = bind.buffers activation packedWeight ∧
        bind.Accepts activation.length packedWeight.length output.length)
      (fun _ after => after = output ∧
        ¬bind.Accepts activation.length packedWeight.length output.length) output := by
  refine wp_of_check ?_ fun e he => ⟨rfl, fun h => by simp [h.validate] at he⟩
  intro _ hvalidate
  have hvalid := QuantizedGemvBind.valid_of_validate hvalidate
  refine wp_of_value hvalid.inputSpan_eq ?_
  refine wp_of_value hvalid.outputSpan_eq ?_
  refine wp_of_value hvalid.weightSpan_eq ?_
  rw [Call.wp_bind, wp_get]
  refine wp_of_check ?_ fun e he => ⟨rfl, fun h =>
    Nat.not_lt.mpr h.activation (of_refuseIf_eq_error he)⟩
  intro _ hactivation
  refine wp_of_check ?_ fun e he => ⟨rfl, fun h =>
    Nat.not_lt.mpr h.output (of_refuseIf_eq_error he)⟩
  intro _ houtput
  refine wp_of_check ?_ fun e he => ⟨rfl, fun h =>
    Nat.not_lt.mpr h.packed (of_refuseIf_eq_error he)⟩
  intro _ hpacked
  simp only [refuseIf_eq_ok_iff, Nat.not_lt] at hactivation houtput hpacked
  exact ⟨rfl, rfl, hvalidate, hactivation, houtput, hpacked⟩

/-- A dispatch writes the reference of every column where it accepts the buffers, and else
    answers an error and leaves the output as it is. -/
theorem dispatchGemv_wp (bind : QuantizedGemvBind) (activation : List F)
    (packedWeight : List UInt8) (output : List F) :
    wp False (dispatchGemv .quantized bind activation packedWeight)
      (fun _ after => bind.Accepts activation.length packedWeight.length output.length ∧
        (bind.buffers activation packedWeight).Written bind.format bind.n output after)
      (fun _ after => after = output ∧
        ¬bind.Accepts activation.length packedWeight.length output.length) output := by
  rw [dispatchGemv, Call.wp_bind]
  refine wp_mono (prepareGemvBuffers_wp bind activation packedWeight output) ?_
    fun _ _ he => he
  rintro buffers _ ⟨rfl, rfl, haccepts⟩
  have hfits := haccepts.fits
  refine wp_mono (E := fun _ _ => False) (Q := fun _ after =>
    (bind.buffers activation packedWeight).Written bind.format bind.n _ after) ?_
    (fun _ _ hwritten => ⟨haccepts, hwritten⟩) fun _ _ he => he.elim
  cases hformat : bind.format with
  | q4K =>
    rw [hformat] at hfits
    exact gemvBlocks_wp hfits rfl streams_q4K
  | q5_0 =>
    rw [hformat] at hfits
    exact gemvBlocks_wp hfits rfl streams_q5_0
  | q5K =>
    rw [hformat] at hfits
    exact gemvBlocks_wp hfits rfl streams_q5K
  | q6K =>
    rw [hformat] at hfits
    exact gemvBlocks_wp hfits rfl streams_q6K
  | q8_0 =>
    rw [hformat] at hfits
    exact gemvBlocks_wp hfits rfl streams_q8_0

/-- Every specialised path answers, for each output element, the 32-lane reduction of the
    reference and leaves the other elements alone; what is refused stays as it is. -/
theorem gemv_paths_are_reference (bind : QuantizedGemvBind) (activation : List F)
    (packedWeight : List UInt8) (output : List F) :
    (∃ after, dispatchGemv .quantized bind activation packedWeight output =
        some (.ok (), after) ∧ after.length = output.length ∧
        (∀ column < bind.n, ∃ value,
          (referenceColumn (bind.buffers activation packedWeight) bind.format column :
            Body (List F) F) = pure value ∧ after[column * bind.outputStride]? = some value) ∧
        ∀ i, (∀ column < bind.n, i ≠ column * bind.outputStride) → after[i]? = output[i]?) ∨
      (∃ e, dispatchGemv .quantized bind activation packedWeight output =
        some (.error e, output) ∧
        ¬bind.Accepts activation.length packedWeight.length output.length) := by
  have hwp := dispatchGemv_wp bind activation packedWeight output
  obtain ⟨answer, after, hrun⟩ := wp_returns hwp
  cases answer with
  | ok u =>
    obtain ⟨-, hwritten⟩ := wp_of_ok hwp hrun
    exact .inl ⟨after, hrun, hwritten.length, hwritten.column, hwritten.other⟩
  | error e =>
    obtain ⟨rfl, hrefused⟩ := wp_of_error hwp hrun
    exact .inr ⟨e, hrun, hrefused⟩

end Bodies

end FaberHosts.Library
