import FaberHosts.Library.Attention
import FaberHosts.Library.Gemv

/-!
# Q/K/V projection

`qkv_projection`: each activation row is projected by the three weights into local vectors,
biased, rotated and written to the grouped views of the outputs.  A weight answers alike for
every row, so that an error comes with the first row or not at all.
-/

namespace FaberHosts.Library
open FaberHosts.Lib KernelBodyError Call

attribute [local instance] Call.lawfulMonad

variable {σ F : Type}

/-- `QkvProjectionLayout`. -/
inductive QkvProjectionLayout where
  | grouped
  | unsupported
  deriving DecidableEq

/-- `QkvProjectionWeight`. -/
inductive QkvProjectionWeight (F : Type) where
  | dense (values : Slice 4 F)
  | quantized (bind : QuantizedGemvBind) (packed : List UInt8)

/-- `QkvProjectionBind`. -/
structure QkvProjectionBind where
  rows : Nat
  hidden : Nat
  kvHeads : Nat
  qPerKv : Nat
  headDim : Nat
  inputRowStride : Nat
  inputElementStride : Nat
  qOutputStrides : Vector Nat 4
  kvOutputStrides : Vector Nat 3
  layout : QkvProjectionLayout
  rotateHalf : Bool
  ropePosition : Nat
  grid : Vector UInt32 3
  deriving DecidableEq

namespace QkvProjectionBind

/-- `QkvProjectionBind::grouped`. -/
def grouped (rows hidden kvHeads qPerKv headDim : Nat) (grid : Vector UInt32 3) :
    QkvProjectionBind where
  rows := rows
  hidden := hidden
  kvHeads := kvHeads
  qPerKv := qPerKv
  headDim := headDim
  inputRowStride := hidden
  inputElementStride := 1
  qOutputStrides := #v[saturatingMulWord (saturatingMulWord qPerKv rows) headDim,
    saturatingMulWord rows headDim, headDim, 1]
  kvOutputStrides := #v[saturatingMulWord rows headDim, headDim, 1]
  layout := .grouped
  rotateHalf := false
  ropePosition := 0
  grid := grid

def qDims (bind : QkvProjectionBind) : List Nat :=
  [bind.kvHeads, bind.qPerKv, bind.rows, bind.headDim]

def kvDims (bind : QkvProjectionBind) : List Nat := [bind.kvHeads, bind.rows, bind.headDim]

/-- The span of the activation, which the body computes again. -/
def inputSpan (bind : QkvProjectionBind) : Option Nat := do
  let last ← subWord bind.rows 1
  let last ← mulWord last bind.inputRowStride
  let width ← subWord bind.hidden 1
  let width ← mulWord width bind.inputElementStride
  let last ← addWord last width
  addWord last 1

def qWidth (bind : QkvProjectionBind) : MayPanic Nat := do
  let heads ← mulWord bind.kvHeads bind.qPerKv
  mulWord heads bind.headDim

def kvWidth (bind : QkvProjectionBind) : MayPanic Nat := mulWord bind.kvHeads bind.headDim

def validate (bind : QkvProjectionBind) : Except KernelBodyError Unit := do
  refuseIf (bind.rows = 0 ∨ bind.hidden = 0 ∨ bind.kvHeads = 0 ∨ bind.qPerKv = 0 ∨
      bind.headDim = 0) (invalidBind "QKV projection bind has a zero dimension")
  refuseIf (bind.layout ≠ .grouped) (invalidBind "QKV projection layout is not servable")
  refuseIf (0 ∈ bind.grid.toList) (invalidBind "QKV projection bind has a zero dispatch axis")
  refuseIf (0 ∈ bind.qOutputStrides.toList ++ bind.kvOutputStrides.toList)
    (invalidBind "QKV projection bind has a zero output stride")
  let _ ← okOr bind.qWidth (invalidBind "QKV output width overflows the element index")
  let _ ← okOr bind.inputSpan (invalidBind "QKV activation span overflow")
  let _ ← attentionSpan bind.qDims bind.qOutputStrides.toList
  let _ ← attentionSpan bind.kvDims bind.kvOutputStrides.toList
  refuseIf (bind.rotateHalf = true ∧ bind.headDim % 2 ≠ 0)
    (shapeMismatch "QKV rotate-half head width must be even")

/-- The elements of the activation the body addresses. -/
def inputLength (bind : QkvProjectionBind) : Nat :=
  (bind.rows - 1) * bind.inputRowStride + (bind.hidden - 1) * bind.inputElementStride + 1

def qColumns (bind : QkvProjectionBind) : Nat := bind.kvHeads * bind.qPerKv * bind.headDim

def kvColumns (bind : QkvProjectionBind) : Nat := bind.kvHeads * bind.headDim

/-- What validation establishes. -/
structure Valid (bind : QkvProjectionBind) : Prop where
  rows_pos : 1 ≤ bind.rows
  hidden_pos : 1 ≤ bind.hidden
  qPerKv_pos : 1 ≤ bind.qPerKv
  headDim_pos : 1 ≤ bind.headDim
  heads : bind.kvHeads * bind.qPerKv ≤ wordMax
  columns : bind.qColumns ≤ wordMax
  input : bind.inputLength ≤ wordMax
  qSpan : attentionSpan bind.qDims bind.qOutputStrides.toList =
    .ok (1 + reach bind.qDims bind.qOutputStrides.toList)
  kvSpan : attentionSpan bind.kvDims bind.kvOutputStrides.toList =
    .ok (1 + reach bind.kvDims bind.kvOutputStrides.toList)

variable {bind : QkvProjectionBind}

theorem inputSpan_eq_some_iff {span : Nat} : bind.inputSpan = some span ↔
    1 ≤ bind.rows ∧ 1 ≤ bind.hidden ∧ bind.inputLength ≤ wordMax ∧ bind.inputLength = span := by
  simp only [inputSpan, Option.bind_eq_bind, Option.bind_eq_some_iff, subWord_eq_some_iff,
    mulWord_eq_some_iff, addWord_eq_some_iff, inputLength]
  constructor
  · intro h
    obtain ⟨_, ⟨hrows, rfl⟩, _, ⟨-, rfl⟩, _, ⟨hhidden, rfl⟩, _, ⟨-, rfl⟩, _, ⟨-, rfl⟩, hle, hspan⟩ :=
      h
    exact ⟨hrows, hhidden, hle, hspan⟩
  · intro h
    obtain ⟨hrows, hhidden, hle, hspan⟩ := h
    exact ⟨_, ⟨hrows, rfl⟩, _, ⟨by omega, rfl⟩, _, ⟨hhidden, rfl⟩, _, ⟨by omega, rfl⟩, _,
      ⟨by omega, rfl⟩, hle, hspan⟩

theorem qRank (bind : QkvProjectionBind) : bind.qDims.length = bind.qOutputStrides.toList.length := by
  simp [qDims]

theorem kvRank (bind : QkvProjectionBind) :
    bind.kvDims.length = bind.kvOutputStrides.toList.length := by
  simp [kvDims]

theorem valid_of_validate (h : bind.validate = .ok ()) : bind.Valid := by
  simp only [validate, Lib.bind_ok_iff, refuseIf_eq_ok_iff, okOr_eq_ok_iff, qWidth,
    Option.bind_eq_bind, Option.bind_eq_some_iff, mulWord_eq_some_iff, inputSpan_eq_some_iff,
    not_or, not_and, Decidable.not_not] at h
  obtain ⟨_, ⟨hrows, hhidden, -, hqPerKv, hheadDim⟩, _, -, _, -, _, -, _,
    ⟨_, ⟨hheads, rfl⟩, hcolumns, -⟩, _, ⟨-, -, hinput, -⟩, qSpan, hqSpan, kvSpan, hkvSpan, -⟩ := h
  obtain ⟨-, -, rfl⟩ := (attentionSpan_eq_ok_iff bind.qRank).mp hqSpan
  obtain ⟨-, -, rfl⟩ := (attentionSpan_eq_ok_iff bind.kvRank).mp hkvSpan
  exact ⟨by omega, by omega, by omega, by omega, hheads, hcolumns, hinput, hqSpan, hkvSpan⟩

namespace Valid

theorem inputSpan_eq (h : bind.Valid) : bind.inputSpan = some bind.inputLength :=
  inputSpan_eq_some_iff.mpr ⟨h.rows_pos, h.hidden_pos, h.input, rfl⟩

theorem qWidth_eq (h : bind.Valid) : bind.qWidth = some bind.qColumns := by
  rw [qWidth, mulWord, word_of_le h.heads]
  exact word_of_le h.columns

theorem kvColumns_le (h : bind.Valid) : bind.kvColumns ≤ bind.qColumns := by
  refine Nat.mul_le_mul_right _ ?_
  exact Nat.le_mul_of_pos_right _ h.qPerKv_pos

theorem kvWidth_eq (h : bind.Valid) : bind.kvWidth = some bind.kvColumns :=
  word_of_le (Nat.le_trans h.kvColumns_le h.columns)

end Valid

end QkvProjectionBind

/-- The arguments of the body that it only reads. -/
structure QkvInputs (F : Type) where
  activation : List F
  qWeight : QkvProjectionWeight F
  kWeight : QkvProjectionWeight F
  vWeight : QkvProjectionWeight F
  qBias : Option (List F)
  kBias : Option (List F)
  vBias : Option (List F)
  cos : Option (List F)
  sin : Option (List F)

/-- The three outputs, and the three vectors of a row. -/
structure QkvOutputs (F : Type) where
  q : List F
  k : List F
  v : List F

section Bodies

variable [F32 F]

def qkvWeightValues (bind : QkvProjectionBind) (weight : QkvProjectionWeight F)
    (activation : List F) (rowBase outputWidth : Nat) : Body σ (List F) :=
  match weight with
  | .dense values => do
    let required ← check (okOr (mulWord bind.hidden outputWidth)
      (invalidBind "QKV dense weight span overflow"))
    check (refuseIf (values.toList.length < required)
      (bufferTooShort "QKV dense weight" required values.toList.length))
    let output ← Call.value (zeroed outputWidth)
    forEnumerated output fun _ column =>
      foldRange bind.hidden 0 fun sum element => do
        let x ← fetch activation (rowBase + element * bind.inputElementStride)
        let weight ← fetch values.toList (column * bind.hidden + element)
        pure (sum + x * weight)
  | .quantized weightBind packed => do
    check (refuseIf (weightBind.k ≠ bind.hidden ∨ weightBind.n ≠ outputWidth)
      (shapeMismatch "QKV packed weight dimensions do not match the projection bind"))
    let rowBind := { weightBind with
      inputStride := bind.inputElementStride, outputStride := 1, grid := bind.grid }
    let output ← Call.value (zeroed outputWidth)
    let row ← Call.value (sliceFrom activation rowBase)
    Call.onLocal output (dispatchGemv .quantized rowBind row packed)

def qkvAddBias (values : List F) (bias : Option (List F)) (name : String) : Body σ (List F) :=
  match bias with
  | none => pure values
  | some bias => do
    check (refuseIf (bias.length < values.length)
      (bufferTooShort name values.length bias.length))
    pure (List.zipWith (· + ·) values bias)

/-- What `qkv_rotate` does with a head, whose values before are `source`. -/
def qkvRotateHead (source : List F) (half : Nat) (rotateHalf : Bool) (cos sin : List F) :
    Body σ (List F) :=
  foldRange half source fun head pair => do
    let sides := if rotateHalf then (pair, pair + half) else (pair * 2, pair * 2 + 1)
    let left ← fetch source sides.1
    let right ← fetch source sides.2
    let cosT ← fetch cos pair
    let sinT ← fetch sin pair
    pure ((head.set sides.1 (left * cosT - right * sinT)).set sides.2
      (left * sinT + right * cosT))

/-- `qkv_rotate`; `chunks_exact_mut` panics on chunks of no element. -/
def qkvRotate (values : List F) (headDim : Nat) (rotateHalf : Bool) (cos sin : List F) :
    Body σ (List F) := do
  let heads ← Call.value (if headDim = 0 then none else some (values.length / headDim))
  foldRange heads values fun values head => do
    let source ← fetchSlice values (head * headDim) (head * headDim + headDim)
    let rotated ← qkvRotateHead source (headDim / 2) rotateHalf cos sin
    pure (replaceSlice values (head * headDim) (head * headDim + headDim) rotated)

/-- The checks of the biases and the RoPE tables. -/
def qkvOptions (bind : QkvProjectionBind) (inputs : QkvInputs F) : Except KernelBodyError Unit := do
  let present := [inputs.qBias.isSome, inputs.kBias.isSome, inputs.vBias.isSome]
  refuseIf (present.any id = true ∧ present.all id = false)
    (invalidBind "QKV bias bind must provide Q, K, and V together")
  refuseIf (inputs.cos.isSome ≠ inputs.sin.isSome)
    (invalidBind "QKV RoPE bind must provide cosine and sine tables together")
  match inputs.cos, inputs.sin with
  | some cos, some sin => do
    let tableLength ← okOr ((addWord bind.ropePosition bind.rows).bind (mulWord · (bind.headDim / 2)))
      (invalidBind "QKV RoPE table span overflow")
    refuseIf (cos.length < tableLength ∨ sin.length < tableLength)
      (bufferTooShort "QKV RoPE table" tableLength (min cos.length sin.length))
  | _, _ => .ok ()

/-- The checks of the bind and of the buffers. -/
def qkvBuffers (bind : QkvProjectionBind) (inputs : QkvInputs F) : Body (QkvOutputs F) Unit := do
  check bind.validate
  let inputSpan ← check (okOr bind.inputSpan (invalidBind "QKV activation span overflow"))
  check (refuseIf (inputs.activation.length < inputSpan)
    (bufferTooShort "QKV activation" inputSpan inputs.activation.length))
  let qSpan ← check (attentionSpan bind.qDims bind.qOutputStrides.toList)
  let kvSpan ← check (attentionSpan bind.kvDims bind.kvOutputStrides.toList)
  let outputs ← Call.get
  check (refuseIf (outputs.q.length < qSpan) (bufferTooShort "QKV Q output" qSpan outputs.q.length))
  check (refuseIf (outputs.k.length < kvSpan)
    (bufferTooShort "QKV K output" kvSpan outputs.k.length))
  check (refuseIf (outputs.v.length < kvSpan)
    (bufferTooShort "QKV V output" kvSpan outputs.v.length))

/-- The rotation of a row's queries and keys at its position. -/
def qkvRotateRow (bind : QkvProjectionBind) (cos sin : Option (List F)) (row : Nat)
    (values : QkvOutputs F) : Body σ (QkvOutputs F) :=
  match cos, sin with
  | some cos, some sin => do
    let tableBase ← check (okOr
      ((addWord bind.ropePosition row).bind (mulWord · (bind.headDim / 2)))
      (invalidBind "QKV RoPE table row index overflow"))
    let cos ← fetchSlice cos tableBase (tableBase + bind.headDim / 2)
    let sin ← fetchSlice sin tableBase (tableBase + bind.headDim / 2)
    let q ← qkvRotate values.q bind.headDim bind.rotateHalf cos sin
    let k ← qkvRotate values.k bind.headDim bind.rotateHalf cos sin
    pure ⟨q, k, values.v⟩
  | _, _ => pure values

/-- The vectors of a row. -/
def qkvRow (bind : QkvProjectionBind) (inputs : QkvInputs F) (qWidth kvWidth row : Nat) :
    Body σ (QkvOutputs F) := do
  let rowBase ← check (okOr (mulWord row bind.inputRowStride)
    (invalidBind "QKV input row index overflow"))
  let q ← qkvWeightValues bind inputs.qWeight inputs.activation rowBase qWidth
  let k ← qkvWeightValues bind inputs.kWeight inputs.activation rowBase kvWidth
  let v ← qkvWeightValues bind inputs.vWeight inputs.activation rowBase kvWidth
  let q ← qkvAddBias q inputs.qBias "QKV Q bias"
  let k ← qkvAddBias k inputs.kBias "QKV K bias"
  let v ← qkvAddBias v inputs.vBias "QKV V bias"
  qkvRotateRow bind inputs.cos inputs.sin row ⟨q, k, v⟩

def QkvOutputs.writeQ (offset : Nat) (value : F) : Body (QkvOutputs F) Unit :=
  Call.within (·.q) (fun outputs q => { outputs with q }) (writeAt offset value)

def QkvOutputs.writeK (offset : Nat) (value : F) : Body (QkvOutputs F) Unit :=
  Call.within (·.k) (fun outputs k => { outputs with k }) (writeAt offset value)

def QkvOutputs.writeV (offset : Nat) (value : F) : Body (QkvOutputs F) Unit :=
  Call.within (·.v) (fun outputs v => { outputs with v }) (writeAt offset value)

/-- The writes of a row. -/
def qkvWriteRow (bind : QkvProjectionBind) (values : QkvOutputs F) (row : Nat) :
    Body (QkvOutputs F) Unit :=
  forRange bind.kvHeads fun group => do
    forRange bind.qPerKv fun queryHead =>
      forRange bind.headDim fun dimension => do
        let column := (group * bind.qPerKv + queryHead) * bind.headDim + dimension
        let offset ← check (okOr
          (tryOffset [group, queryHead, row, dimension] bind.qOutputStrides.toList)
          (invalidBind "QKV Q output index overflow"))
        let value ← fetch values.q column
        QkvOutputs.writeQ offset value
    forRange bind.headDim fun dimension => do
      let column := group * bind.headDim + dimension
      let offset ← check (okOr (tryOffset [group, row, dimension] bind.kvOutputStrides.toList)
        (invalidBind "QKV KV output index overflow"))
      let value ← fetch values.k column
      QkvOutputs.writeK offset value
      let value ← fetch values.v column
      QkvOutputs.writeV offset value

def qkvProjection (bind : QkvProjectionBind) (inputs : QkvInputs F) :
    Body (QkvOutputs F) Unit := do
  qkvBuffers bind inputs
  let qWidth ← Call.value bind.qWidth
  let kvWidth ← Call.value bind.kvWidth
  check (qkvOptions bind inputs)
  forRange bind.rows fun row => do
    let values ← qkvRow bind inputs qWidth kvWidth row
    qkvWriteRow bind values row

/-! ## The weights answer alike for every row -/

/-- A packed weight as the body dispatches it. -/
def QuantizedGemvBind.forRow (weightBind : QuantizedGemvBind) (bind : QkvProjectionBind) :
    QuantizedGemvBind :=
  { weightBind with
    inputStride := bind.inputElementStride, outputStride := 1, grid := bind.grid }

/-- The weight has the values of so many columns. -/
def QkvProjectionWeight.Serves (bind : QkvProjectionBind) (width : Nat) :
    QkvProjectionWeight F → Prop
  | .dense values => bind.hidden * width ≤ values.toList.length
  | .quantized weightBind packed => weightBind.k = bind.hidden ∧ weightBind.n = width ∧
      (weightBind.forRow bind).validate = .ok () ∧
      (weightBind.n - 1) * weightBind.packedColumnStrideBytes +
        weightBind.k / weightBind.format.blockElements * weightBind.format.blockBytes ≤
          packed.length

/-- A packed weight has the columns of the bind, and a vector of so many is no allocation. -/
def QkvProjectionWeight.Overallocates (bind : QkvProjectionBind) (width : Nat) :
    QkvProjectionWeight F → Prop
  | .dense _ => False
  | .quantized weightBind _ => weightBind.k = bind.hidden ∧ weightBind.n = width ∧
      isizeMax < 4 * width

omit [F32 F] in
theorem QkvProjectionWeight.Serves.alloc {bind : QkvProjectionBind} {width : Nat}
    {weight : QkvProjectionWeight F} (h : weight.Serves bind width) (hhidden : 1 ≤ bind.hidden)
    (halloc : ¬weight.Overallocates bind width) : 4 * width ≤ isizeMax := by
  cases weight with
  | dense values =>
    have hwidth : width ≤ bind.hidden * width := Nat.le_mul_of_pos_left _ hhidden
    have hfits := values.fits
    change bind.hidden * width ≤ values.toList.length at h
    omega
  | quantized weightBind packed =>
    by_contra hlarge
    exact halloc ⟨h.1, h.2.1, by omega⟩

theorem qkvWeightValues_wp {bind : QkvProjectionBind} {weight : QkvProjectionWeight F}
    {activation : List F} {rowBase width : Nat} {s : σ} (hhidden : 1 ≤ bind.hidden)
    (hword : rowBase + (bind.hidden - 1) * bind.inputElementStride + 1 ≤ wordMax)
    (hactivation : rowBase + (bind.hidden - 1) * bind.inputElementStride + 1 ≤ activation.length)
    (halloc : ¬weight.Overallocates bind width) :
    wp False (qkvWeightValues bind weight activation rowBase width)
      (fun values t => t = s ∧ values.length = width ∧ weight.Serves bind width)
      (fun _ t => t = s ∧ ¬weight.Serves bind width) s := by
  have hmax : wordMax = 2 ^ 64 - 1 := rfl
  have hisize : isizeMax = 2 ^ 63 - 1 := rfl
  cases weight with
  | dense values =>
    have hfits := values.fits
    refine wp_of_check ?_ fun e he => ⟨rfl, fun hserves => ?_⟩
    · intro required hrequired
      obtain ⟨-, rfl⟩ := mulWord_eq_some_iff.mp (okOr_eq_ok_iff.mp hrequired)
      refine wp_of_check ?_ fun e he => ⟨rfl, Nat.not_le.mpr (of_refuseIf_eq_error he)⟩
      intro _ hlength
      rw [refuseIf_eq_ok_iff, Nat.not_lt] at hlength
      have hserves : (QkvProjectionWeight.dense values).Serves bind width := hlength
      refine wp_of_value (zeroed_of_le (hserves.alloc hhidden halloc)) ?_
      refine wp_mono (E := fun _ _ => False) (Gives.wp (forEnumerated_length ?_)) ?_
        fun _ _ h => h.elim
      · intro value column hcolumn
        rw [List.length_replicate] at hcolumn
        refine Gives.foldRange (fun _ _ => True) ?_ trivial
        intro element helement sum _
        have hspan := mul_le_span bind.inputElementStride helement
        have hplace := row_place_lt hcolumn helement
        rw [Nat.mul_comm width] at hplace
        refine (fetch_gives (by omega) (by omega)).bind fun x _ => ?_
        exact (fetch_gives (by omega) (by omega)).bind fun weight _ => .pure trivial
      · intro values t hvalues
        exact ⟨hvalues.1, hvalues.2.trans List.length_replicate, hserves⟩
    · change bind.hidden * width ≤ values.toList.length at hserves
      have hproduct : mulWord bind.hidden width = some (bind.hidden * width) :=
        word_of_le (by omega)
      rw [hproduct] at he
      cases he
  | quantized weightBind packed =>
    refine wp_of_check ?_ fun e he => ⟨rfl, fun hserves => ?_⟩
    · intro _ hdims
      rw [refuseIf_eq_ok_iff, not_or, Decidable.not_not, Decidable.not_not] at hdims
      have hroom : 4 * width ≤ isizeMax := by
        by_contra hlarge
        exact halloc ⟨hdims.1, hdims.2, by omega⟩
      refine wp_of_value (zeroed_of_le hroom) ?_
      refine wp_of_value (sliceFrom_of_le (by omega) (by omega)) ?_
      rw [wp_onLocal]
      refine wp_mono (dispatchGemv_wp (weightBind.forRow bind) (activation.drop rowBase) packed
        (List.replicate width 0)) ?_ ?_
      · intro _ values hvalues
        obtain ⟨haccepts, hwritten⟩ := hvalues
        exact ⟨rfl, hwritten.length.trans List.length_replicate, hdims.1, hdims.2,
          haccepts.validate, haccepts.packed⟩
      · intro _ values hrefused
        refine ⟨rfl, fun hserves => hrefused.2 ⟨hserves.2.2.1, ?_, ?_, hserves.2.2.2⟩⟩
        · rw [List.length_drop]
          change 1 + (weightBind.k - 1) * bind.inputElementStride ≤ activation.length - rowBase
          rw [hdims.1]
          omega
        · rw [List.length_replicate]
          change 1 + (weightBind.n - 1) * 1 ≤ width
          have hcolumns := (QuantizedGemvBind.valid_of_validate hserves.2.2.1).n_pos
          change 1 ≤ weightBind.n at hcolumns
          omega
    · have hbad := of_refuseIf_eq_error he
      rcases hbad with hk | hn
      · exact hk hserves.1
      · exact hn hserves.2.1

/-- The vector of a packed weight is allocated before anything of the weight is looked at. -/
theorem qkvWeightValues_panics {bind : QkvProjectionBind} {weight : QkvProjectionWeight F}
    {activation : List F} {rowBase width : Nat} (h : weight.Overallocates bind width) (s : σ) :
    qkvWeightValues bind weight activation rowBase width s = none := by
  cases weight with
  | dense values => exact h.elim
  | quantized weightBind packed =>
    obtain ⟨hk, hn, hlarge⟩ := h
    have hzeroed : (zeroed width : MayPanic (List F)) = none := if_neg (by omega)
    have hdims : ¬(weightBind.k ≠ bind.hidden ∨ weightBind.n ≠ width) := by simp [hk, hn]
    simp only [qkvWeightValues, refuseIf_of_not hdims, check_ok, pure_bind, hzeroed]
    rfl

/-! ## Biases and rotation -/

/-- A bias, if any, is as long as the vector. -/
def BiasServes (bias : Option (List F)) (width : Nat) : Prop := ∀ values ∈ bias, width ≤ values.length

theorem qkvAddBias_wp {values : List F} {bias : Option (List F)} {name : String} {s : σ} :
    wp False (qkvAddBias values bias name)
      (fun after t => t = s ∧ after.length = values.length ∧ BiasServes bias values.length)
      (fun _ t => t = s ∧ ¬BiasServes bias values.length) s := by
  cases bias with
  | none => exact ⟨rfl, rfl, by simp [BiasServes]⟩
  | some bias =>
    refine wp_of_check ?_ fun e he => ⟨rfl, fun hserves => ?_⟩
    · intro _ hlength
      rw [refuseIf_eq_ok_iff, Nat.not_lt] at hlength
      refine ⟨rfl, ?_, ?_⟩
      · rw [List.length_zipWith]
        omega
      · intro values hvalues
        cases hvalues
        exact hlength
    · have hshort := of_refuseIf_eq_error he
      have hlong := hserves bias rfl
      omega

theorem qkvRotateHead_gives {source cos sin : List F} {half : Nat} {rotateHalf : Bool}
    (hsource : 2 * half ≤ source.length) (hword : 2 * half ≤ wordMax) (hcos : half ≤ cos.length)
    (hsin : half ≤ sin.length) :
    Gives (qkvRotateHead source half rotateHalf cos sin : Body σ (List F))
      (·.length = source.length) := by
  refine Gives.foldRange (fun _ (head : List F) => head.length = source.length) ?_ rfl
  intro pair hpair head hhead
  have hsides : (if rotateHalf then (pair, pair + half) else (pair * 2, pair * 2 + 1)).1 < 2 * half ∧
      (if rotateHalf then (pair, pair + half) else (pair * 2, pair * 2 + 1)).2 < 2 * half := by
    cases rotateHalf with
    | false =>
      simp only [Bool.false_eq_true, if_false]
      omega
    | true =>
      simp only [if_true]
      omega
  refine (fetch_gives (by omega) (by omega)).bind fun left _ => ?_
  refine (fetch_gives (by omega) (by omega)).bind fun right _ => ?_
  refine (fetch_gives (by omega) (by omega)).bind fun cosT _ => ?_
  refine (fetch_gives (by omega) (by omega)).bind fun sinT _ => ?_
  exact .pure (by rw [List.length_set, List.length_set, hhead])

theorem qkvRotate_gives {values cos sin : List F} {headDim : Nat} {rotateHalf : Bool}
    (hheadDim : 1 ≤ headDim) (hword : values.length ≤ wordMax)
    (hcos : headDim / 2 ≤ cos.length) (hsin : headDim / 2 ≤ sin.length) :
    Gives (qkvRotate values headDim rotateHalf cos sin : Body σ (List F))
      (·.length = values.length) := by
  refine Gives.bind (P := (· = values.length / headDim)) (.value (if_neg (by omega)) rfl)
    fun heads hheads => ?_
  refine Gives.foldRange (fun _ (rotated : List F) => rotated.length = values.length) ?_ rfl
  intro head hhead rotated hrotated
  have hend : (head + 1) * headDim ≤ values.length := by
    calc (head + 1) * headDim ≤ values.length / headDim * headDim :=
          Nat.mul_le_mul_right _ (by omega)
      _ ≤ values.length := Nat.div_mul_le_self _ _
  rw [Nat.add_mul, Nat.one_mul] at hend
  refine (fetchSlice_gives (by omega) (by omega) (by omega)).bind fun source hsource => ?_
  have hlength : source.length = headDim := by
    rw [hsource, List.length_take, List.length_drop]
    omega
  refine (qkvRotateHead_gives (by omega) (by omega) hcos hsin).bind fun after hafter => ?_
  refine .pure ?_
  rw [length_replaceSlice (by omega) (by omega) (by omega), hrotated]

/-! ## Rows -/

/-- RoPE tables of these lengths reach the position of the last row. -/
structure QkvProjectionBind.TablesReach (bind : QkvProjectionBind) (cosLength sinLength : Nat) :
    Prop where
  position : bind.ropePosition + bind.rows ≤ wordMax
  word : (bind.ropePosition + bind.rows) * (bind.headDim / 2) ≤ wordMax
  cos : (bind.ropePosition + bind.rows) * (bind.headDim / 2) ≤ cosLength
  sin : (bind.ropePosition + bind.rows) * (bind.headDim / 2) ≤ sinLength

/-- The buffers hold what the body addresses. -/
structure QkvProjectionBind.Buffered (bind : QkvProjectionBind) (inputs : QkvInputs F)
    (outputs : QkvOutputs F) : Prop where
  validate : bind.validate = .ok ()
  activation : bind.inputLength ≤ inputs.activation.length
  q : Holds bind.qDims bind.qOutputStrides.toList outputs.q.length
  k : Holds bind.kvDims bind.kvOutputStrides.toList outputs.k.length
  v : Holds bind.kvDims bind.kvOutputStrides.toList outputs.v.length

/-- The buffers hold what the body addresses and the options go together. -/
structure QkvProjectionBind.Accepts (bind : QkvProjectionBind) (inputs : QkvInputs F)
    (outputs : QkvOutputs F) : Prop extends bind.Buffered inputs outputs where
  biases : inputs.qBias.isSome = inputs.kBias.isSome ∧ inputs.kBias.isSome = inputs.vBias.isSome
  tables : inputs.cos.isSome = inputs.sin.isSome
  rope : ∀ cos ∈ inputs.cos, ∀ sin ∈ inputs.sin, bind.TablesReach cos.length sin.length

/-- Every row finds its weights and its biases. -/
structure QkvInputs.ServesRows (inputs : QkvInputs F) (bind : QkvProjectionBind) : Prop where
  qWeight : inputs.qWeight.Serves bind bind.qColumns
  kWeight : inputs.kWeight.Serves bind bind.kvColumns
  vWeight : inputs.vWeight.Serves bind bind.kvColumns
  qBias : BiasServes inputs.qBias bind.qColumns
  kBias : BiasServes inputs.kBias bind.kvColumns
  vBias : BiasServes inputs.vBias bind.kvColumns

/-- The vectors of a row have the widths of the bind. -/
structure QkvOutputs.HasWidths (values : QkvOutputs F) (bind : QkvProjectionBind) : Prop where
  q : values.q.length = bind.qColumns
  k : values.k.length = bind.kvColumns
  v : values.v.length = bind.kvColumns

section Rows

variable {bind : QkvProjectionBind} {inputs : QkvInputs F} {outputs : QkvOutputs F}

theorem qkvRotateRow_gives {row : Nat} {values : QkvOutputs F}
    (haccepts : bind.Accepts inputs outputs) (hrow : row < bind.rows)
    (hwidths : values.HasWidths bind) :
    Gives (qkvRotateRow bind inputs.cos inputs.sin row values : Body σ (QkvOutputs F))
      (·.HasWidths bind) := by
  have hvalid := QkvProjectionBind.valid_of_validate haccepts.validate
  have hcolumns := hvalid.columns
  have hkvColumns := hvalid.kvColumns_le
  have hqLength := hwidths.q
  have hkLength := hwidths.k
  unfold qkvRotateRow
  split
  · rename_i cos sin hcos hsin
    obtain ⟨hrows, hword, hcosLength, hsinLength⟩ := haccepts.rope cos hcos sin hsin
    have hnext : (bind.ropePosition + row + 1) * (bind.headDim / 2) ≤
        (bind.ropePosition + bind.rows) * (bind.headDim / 2) :=
      Nat.mul_le_mul_right _ (by omega)
    rw [Nat.add_mul _ 1, Nat.one_mul] at hnext
    have hbase : (addWord bind.ropePosition row).bind (mulWord · (bind.headDim / 2)) =
        some ((bind.ropePosition + row) * (bind.headDim / 2)) := by
      rw [addWord, word_of_le (by omega)]
      exact word_of_le (by omega)
    simp only [hbase, okOr, check_ok, pure_bind]
    refine (fetchSlice_gives (by omega) (by omega) (by omega)).bind fun cosRow hcosRow => ?_
    refine (fetchSlice_gives (by omega) (by omega) (by omega)).bind fun sinRow hsinRow => ?_
    have hcosWidth : bind.headDim / 2 ≤ cosRow.length := by
      rw [hcosRow, List.length_take, List.length_drop]
      omega
    have hsinWidth : bind.headDim / 2 ≤ sinRow.length := by
      rw [hsinRow, List.length_take, List.length_drop]
      omega
    refine (qkvRotate_gives hvalid.headDim_pos (by omega) hcosWidth hsinWidth).bind
      fun q hq => ?_
    refine (qkvRotate_gives hvalid.headDim_pos (by omega) hcosWidth hsinWidth).bind
      fun k hk => ?_
    exact .pure ⟨hq.trans hwidths.q, hk.trans hwidths.k, hwidths.v⟩
  · exact .pure hwidths

/-- A row's vectors come out where its weights and biases serve, and else it answers an
    error; either way nothing is written yet. -/
theorem qkvRow_wp {row : Nat} {s : σ} (haccepts : bind.Accepts inputs outputs)
    (hrow : row < bind.rows) (halloc : ¬inputs.qWeight.Overallocates bind bind.qColumns) :
    wp False (qkvRow bind inputs bind.qColumns bind.kvColumns row)
      (fun values t => t = s ∧ values.HasWidths bind ∧ inputs.ServesRows bind)
      (fun _ t => t = s ∧ ¬inputs.ServesRows bind) s := by
  have hvalid := QkvProjectionBind.valid_of_validate haccepts.validate
  have hrowSpan := mul_le_span bind.inputRowStride hrow
  have hinput := hvalid.input
  have hactivation := haccepts.activation
  unfold QkvProjectionBind.inputLength at hinput hactivation
  have hbase : mulWord row bind.inputRowStride = some (row * bind.inputRowStride) :=
    word_of_le (by omega)
  simp only [qkvRow, hbase, okOr, check_ok, pure_bind]
  rw [Call.wp_bind]
  refine wp_mono (qkvWeightValues_wp hvalid.hidden_pos (by omega) (by omega) halloc) ?_
    fun _ t h => ⟨h.1, fun hserves => h.2 hserves.qWeight⟩
  intro q _ hq
  obtain ⟨rfl, hqLength, hqServes⟩ := hq
  -- the keys and the values are no wider than the queries
  have hroom := hqServes.alloc hvalid.hidden_pos halloc
  have hkvColumns := hvalid.kvColumns_le
  have hsmall : ∀ weight : QkvProjectionWeight F,
      ¬weight.Overallocates bind bind.kvColumns := by
    intro weight hover
    cases weight with
    | dense values => exact hover
    | quantized weightBind packed =>
      have hlarge := hover.2.2
      omega
  rw [Call.wp_bind]
  refine wp_mono (qkvWeightValues_wp hvalid.hidden_pos (by omega) (by omega) (hsmall _)) ?_
    fun _ t h => ⟨h.1, fun hserves => h.2 hserves.kWeight⟩
  intro k _ hk
  obtain ⟨rfl, hkLength, hkServes⟩ := hk
  rw [Call.wp_bind]
  refine wp_mono (qkvWeightValues_wp hvalid.hidden_pos (by omega) (by omega) (hsmall _)) ?_
    fun _ t h => ⟨h.1, fun hserves => h.2 hserves.vWeight⟩
  intro v _ hv
  obtain ⟨rfl, hvLength, hvServes⟩ := hv
  rw [Call.wp_bind]
  refine wp_mono qkvAddBias_wp ?_
    fun _ t h => ⟨h.1, fun hserves => h.2 (hqLength ▸ hserves.qBias)⟩
  intro q' _ hq'
  obtain ⟨rfl, hqBiased, hqBias⟩ := hq'
  rw [Call.wp_bind]
  refine wp_mono qkvAddBias_wp ?_
    fun _ t h => ⟨h.1, fun hserves => h.2 (hkLength ▸ hserves.kBias)⟩
  intro k' _ hk'
  obtain ⟨rfl, hkBiased, hkBias⟩ := hk'
  rw [Call.wp_bind]
  refine wp_mono qkvAddBias_wp ?_
    fun _ t h => ⟨h.1, fun hserves => h.2 (hvLength ▸ hserves.vBias)⟩
  intro v' _ hv'
  obtain ⟨rfl, hvBiased, hvBias⟩ := hv'
  rw [hqLength] at hqBiased hqBias
  rw [hkLength] at hkBiased hkBias
  rw [hvLength] at hvBiased hvBias
  have hwidths : QkvOutputs.HasWidths ⟨q', k', v'⟩ bind := ⟨hqBiased, hkBiased, hvBiased⟩
  refine wp_mono (E := fun _ _ => False) (Gives.wp (qkvRotateRow_gives haccepts hrow hwidths)) ?_
    fun _ _ h => h.elim
  intro values t h
  exact ⟨h.1, h.2, hqServes, hkServes, hvServes, hqBias, hkBias, hvBias⟩

/-- The outputs keep their lengths. -/
structure QkvOutputs.SameLengths (after before : QkvOutputs F) : Prop where
  q : after.q.length = before.q.length
  k : after.k.length = before.k.length
  v : after.v.length = before.v.length

omit [F32 F] in
theorem qkvWriteRow_wp {row : Nat} {values after : QkvOutputs F}
    {E : KernelBodyError → QkvOutputs F → Prop} (haccepts : bind.Accepts inputs outputs)
    (hrow : row < bind.rows) (hwidths : values.HasWidths bind)
    (hafter : after.SameLengths outputs) :
    wp False (qkvWriteRow bind values row) (fun _ after => after.SameLengths outputs) E after := by
  have hvalid := QkvProjectionBind.valid_of_validate haccepts.validate
  have hcolumns := hvalid.columns
  have hkvColumns := hvalid.kvColumns_le
  have hqLength := hwidths.q
  have hkLength := hwidths.k
  have hvLength := hwidths.v
  refine wp_forRange (fun _ (after : QkvOutputs F) => after.SameLengths outputs) ?_ hafter
  intro group hgroup after hafter
  rw [Call.wp_bind]
  refine wp_mono (wp_forRange (fun _ (after : QkvOutputs F) => after.SameLengths outputs) ?_
    hafter) ?_ fun _ _ h => h
  · intro queryHead hqueryHead after hafter
    refine wp_forRange (fun _ (after : QkvOutputs F) => after.SameLengths outputs) ?_ hafter
    intro dimension hdimension after hafter
    have hindex : Indexes bind.qDims [group, queryHead, row, dimension] :=
      .cons hgroup (.cons hqueryHead (.cons hrow (.cons hdimension .nil)))
    obtain ⟨hoffset, hlt⟩ := tryOffset_of_indexes hindex haccepts.q.word
    have hcolumn : (group * bind.qPerKv + queryHead) * bind.headDim + dimension < bind.qColumns :=
      row_place_lt (row_place_lt hgroup hqueryHead) hdimension
    have hword := haccepts.q.word
    have hlength := haccepts.q.length
    have hq := hafter.q
    simp only [hoffset, okOr, check_ok, pure_bind]
    refine (fetch_gives (by omega) (by omega)).wp_bind fun value _ => ?_
    rw [QkvOutputs.writeQ, wp_within]
    exact wp_writeAt (by omega) (by omega) ⟨by rw [List.length_set, hq], hafter.k, hafter.v⟩
  · intro _ after hafter
    refine wp_forRange (fun _ (after : QkvOutputs F) => after.SameLengths outputs) ?_ hafter
    intro dimension hdimension after hafter
    have hindex : Indexes bind.kvDims [group, row, dimension] :=
      .cons hgroup (.cons hrow (.cons hdimension .nil))
    obtain ⟨hoffset, hlt⟩ := tryOffset_of_indexes hindex haccepts.k.word
    have hcolumn : group * bind.headDim + dimension < bind.kvColumns :=
      row_place_lt hgroup hdimension
    have hword := haccepts.k.word
    have hkRoom := haccepts.k.length
    have hvRoom := haccepts.v.length
    have hk := hafter.k
    have hv := hafter.v
    simp only [hoffset, okOr, check_ok, pure_bind]
    refine (fetch_gives (by omega) (by omega)).wp_bind fun value _ => ?_
    rw [Call.wp_bind, QkvOutputs.writeK, wp_within]
    refine wp_writeAt (by omega) (by omega) ?_
    refine (fetch_gives (by omega) (by omega)).wp_bind fun value _ => ?_
    rw [QkvOutputs.writeV, wp_within]
    exact wp_writeAt (show _ < after.v.length by omega) (by omega)
      ⟨hafter.q, by rw [List.length_set, hk], by rw [List.length_set, hv]⟩

end Rows

/-! ## The body -/

theorem biases_together (q k v : Bool) :
    ¬([q, k, v].any id = true ∧ [q, k, v].all id = false) ↔ q = k ∧ k = v := by
  cases q <;> cases k <;> cases v <;> decide

omit [F32 F] in
theorem qkvOptions_eq_ok_iff {bind : QkvProjectionBind} {inputs : QkvInputs F} :
    qkvOptions bind inputs = .ok () ↔
      (inputs.qBias.isSome = inputs.kBias.isSome ∧ inputs.kBias.isSome = inputs.vBias.isSome) ∧
      inputs.cos.isSome = inputs.sin.isSome ∧
      ∀ cos ∈ inputs.cos, ∀ sin ∈ inputs.sin, bind.TablesReach cos.length sin.length := by
  simp only [qkvOptions, Lib.bind_ok_iff, refuseIf_eq_ok_iff, biases_together, ne_eq,
    Decidable.not_not, exists_and_left, exists_const]
  refine and_congr_right fun _ => and_congr_right fun _ => ?_
  cases inputs.cos with
  | none => simp
  | some cos =>
    cases inputs.sin with
    | none => simp
    | some sin =>
      simp only [Lib.bind_ok_iff, okOr_eq_ok_iff, refuseIf_eq_ok_iff, Option.bind_eq_some_iff,
        addWord_eq_some_iff, mulWord_eq_some_iff, Option.mem_some_iff, forall_eq', not_or,
        Nat.not_lt]
      constructor
      · intro h
        obtain ⟨_, ⟨_, ⟨hposition, rfl⟩, hword, rfl⟩, hcos, hsin⟩ := h
        exact ⟨hposition, hword, hcos, hsin⟩
      · intro h
        exact ⟨_, ⟨_, ⟨h.position, rfl⟩, h.word, rfl⟩, h.cos, h.sin⟩

section Body

variable (bind : QkvProjectionBind) (inputs : QkvInputs F) (outputs : QkvOutputs F)

omit [F32 F] in
theorem qkvBuffers_wp : wp False (qkvBuffers bind inputs)
    (fun _ after => after = outputs ∧ bind.Buffered inputs outputs)
    (fun _ after => after = outputs ∧ ¬bind.Buffered inputs outputs) outputs := by
  refine wp_of_check ?_ fun e he => ⟨rfl, fun h => by simp [h.validate] at he⟩
  intro _ hvalidate
  have hvalid := QkvProjectionBind.valid_of_validate hvalidate
  obtain ⟨-, hqWord, -⟩ := (attentionSpan_eq_ok_iff bind.qRank).mp hvalid.qSpan
  obtain ⟨-, hkvWord, -⟩ := (attentionSpan_eq_ok_iff bind.kvRank).mp hvalid.kvSpan
  simp only [hvalid.inputSpan_eq, hvalid.qSpan, hvalid.kvSpan, okOr, check_ok, pure_bind]
  refine wp_of_check ?_ fun e he => ⟨rfl, fun h =>
    Nat.not_lt.mpr h.activation (of_refuseIf_eq_error he)⟩
  intro _ hactivation
  rw [Call.wp_bind, wp_get]
  refine wp_of_check ?_ fun e he => ⟨rfl, fun h =>
    Nat.not_lt.mpr h.q.length (of_refuseIf_eq_error he)⟩
  intro _ hq
  refine wp_of_check ?_ fun e he => ⟨rfl, fun h =>
    Nat.not_lt.mpr h.k.length (of_refuseIf_eq_error he)⟩
  intro _ hk
  rw [check, wp_lift]
  refine ⟨by simp, fun _ hv => ⟨rfl, ?_⟩, fun e he => ⟨rfl, fun h =>
    Nat.not_lt.mpr h.v.length (of_refuseIf_eq_error (Option.some.inj he))⟩⟩
  have hv := Option.some.inj hv
  simp only [refuseIf_eq_ok_iff, Nat.not_lt] at hactivation hq hk hv
  exact ⟨hvalidate, hactivation, ⟨bind.qRank, hqWord, hq⟩, ⟨bind.kvRank, hkvWord, hk⟩,
    ⟨bind.kvRank, hkvWord, hv⟩⟩

/-- When the checks ahead of the rows let the body through and its first vector is no
    allocation. -/
def QkvProjectionBind.Overallocates : Prop :=
  bind.Accepts inputs outputs ∧ inputs.qWeight.Overallocates bind bind.qColumns

/-- The projection ends with the outputs whole or untouched: an error of a weight or a bias
    is the first row's, where nothing is written yet. -/
theorem qkvProjection_wp (h : ¬bind.Overallocates inputs outputs) :
    wp False (qkvProjection bind inputs) (fun _ after => after.SameLengths outputs)
      (fun _ after => after = outputs) outputs := by
  rw [qkvProjection, Call.wp_bind]
  refine wp_mono (qkvBuffers_wp bind inputs outputs) ?_ fun _ _ he => he.1
  intro _ _ hbuffered
  obtain ⟨rfl, hbuffered⟩ := hbuffered
  have hvalid := QkvProjectionBind.valid_of_validate hbuffered.validate
  refine wp_of_value hvalid.qWidth_eq ?_
  refine wp_of_value hvalid.kvWidth_eq ?_
  refine wp_of_check ?_ fun _ _ => rfl
  intro _ hoptions
  obtain ⟨hbiases, htables, hrope⟩ := qkvOptions_eq_ok_iff.mp hoptions
  have haccepts : bind.Accepts inputs _ := ⟨hbuffered, hbiases, htables, hrope⟩
  have halloc : ¬inputs.qWeight.Overallocates bind bind.qColumns := fun hover =>
    h ⟨haccepts, hover⟩
  refine wp_mono (wp_forRange (fun row (after : QkvOutputs F) => after.SameLengths _ ∧
    (row = 0 → after = _) ∧ (row ≠ 0 → inputs.ServesRows bind)) ?_
    ⟨⟨rfl, rfl, rfl⟩, fun _ => rfl, fun hrow => (hrow rfl).elim⟩) (fun _ _ hdone => hdone.1)
    fun _ _ he => he
  intro row hrow after hafter
  obtain ⟨hlengths, hfirst, hserved⟩ := hafter
  rw [Call.wp_bind]
  refine wp_mono (qkvRow_wp haccepts hrow halloc) ?_ ?_
  · intro values _ hvalues
    obtain ⟨rfl, hwidths, hserves⟩ := hvalues
    refine wp_mono (E := fun _ _ => False) (qkvWriteRow_wp haccepts hrow hwidths hlengths) ?_
      fun _ _ he => he.elim
    intro _ written hwritten
    exact ⟨hwritten, fun hzero => by omega, fun _ => hserves⟩
  · intro _ _ hrefused
    obtain ⟨rfl, hrefused⟩ := hrefused
    by_cases hzero : row = 0
    · exact hfirst hzero
    · exact (hrefused (hserved hzero)).elim

/-- The vector of the first row is allocated before the packed weight is looked at. -/
theorem qkvProjection_panics (h : bind.Overallocates inputs outputs) :
    qkvProjection bind inputs outputs = none := by
  obtain ⟨haccepts, hover⟩ := h
  have hvalid := QkvProjectionBind.valid_of_validate haccepts.validate
  have hoptions : qkvOptions bind inputs = .ok () :=
    qkvOptions_eq_ok_iff.mpr ⟨haccepts.biases, haccepts.tables, haccepts.rope⟩
  rw [← wp_panics_iff, qkvProjection, Call.wp_bind]
  refine wp_mono (wp_of_total (qkvBuffers_wp bind inputs outputs)) ?_
    fun _ _ he => he.2 haccepts.toBuffered
  intro _ _ _
  refine wp_of_value hvalid.qWidth_eq ?_
  refine wp_of_value hvalid.kvWidth_eq ?_
  simp only [hoptions, check_ok, pure_bind]
  refine wp_mono (wp_forRange (fun row _ => row = 0) ?_ rfl) ?_ fun _ _ he => he
  · intro row _ after hrow
    have hbase : mulWord row bind.inputRowStride = some 0 := by
      rw [hrow, mulWord, Nat.zero_mul]
      rfl
    simp only [qkvRow, hbase, okOr, check_ok, pure_bind, bind_assoc]
    rw [Call.wp_bind, wp_of_none (qkvWeightValues_panics hover after)]
    trivial
  · intro _ _ hrows
    have hpos := hvalid.rows_pos
    omega

end Body

end Bodies

end FaberHosts.Library
