import FaberHosts.Lib.Scan
import FaberHosts.Lib.Loops

/-!
# Packed weight blocks

The errors of the kernel bodies, the packed formats of `library.rs` and the value of one
element of a packed block (`block_value`).  The arithmetic of `f32` is a parameter (`F32`);
the integer arithmetic that unpacks nibbles, high bits and scales is the source's.  The host
has 64-bit sizes, so that `checked_usize` lets every `u64` through and is not written.
-/

namespace FaberHosts.Library
open FaberHosts.Lib

attribute [local instance] Call.lawfulMonad

/-- `KernelBodyError`. -/
inductive KernelBodyError where
  | invalidBind (message : String)
  | bufferTooShort (buffer : String) (required actual : Nat)
  | shapeMismatch (message : String)
  | invalidEpsilon
  | invalidRopeTable
  | packedBlockTooShort (format : String) (required actual : Nat)
  | nonFiniteLogit (row expert : Nat)
  deriving DecidableEq, Repr

open KernelBodyError

/-- The operations of `f32` the bodies use. -/
class F32 (F : Type) extends Zero F, One F, Add F, Sub F, Mul F, Div F where
  negInfinity : F
  max : F → F → F
  sqrt : F → F
  exp : F → F
  /-- `Iterator::sum`. -/
  sum : List F → F
  /-- `f32::from_bits`. -/
  fromBits : Nat → F
  /-- An integer as `f32`. -/
  ofInt : Int → F
  isFinite : F → Bool
  /-- `a <= b`. -/
  le : F → F → Bool
  partialCmp : F → F → Option Ordering

/-- Whole numbers in place of `f32`, which are exact where all the values of a run are whole. -/
instance : F32 Int where
  negInfinity := -2 ^ 128
  max := Max.max
  sqrt a := a.toNat.sqrt
  exp a := if a = 0 then 1 else 0
  sum := List.sum
  fromBits bits :=
    let magnitude : Nat := (2 ^ 23 + bits % 2 ^ 23) * 2 ^ (bits / 2 ^ 23 % 2 ^ 8) / 2 ^ 150
    if bits < 2 ^ 31 then (magnitude : Int) else -(magnitude : Int)
  ofInt a := a
  isFinite _ := true
  le a b := decide (a ≤ b)
  partialCmp a b := some (compare a b)

/-- A body on outputs of type `σ`. -/
abbrev Body (σ α : Type) : Type := Call σ KernelBodyError α

variable {σ F α : Type}

/-- `check?`. -/
def check (answer : Except KernelBodyError α) : Body σ α := Call.lift (some answer)

/-- `xs[i]`. -/
def fetch (xs : List α) (i : Nat) : Body σ α := Call.value (readAt xs i)

/-- `xs[lo..hi]`. -/
def fetchSlice (xs : List α) (lo hi : Nat) : Body σ (List α) := Call.value (sliceAt xs lo hi)

/-- `output[i] = value`. -/
def writeAt (i : Nat) (value : F) : Body (List F) Unit := fun output =>
  if i ≤ wordMax ∧ i < output.length then some (.ok (), output.set i value) else none

/-- `vec![0.0f32; n]`, which panics when the bytes exceed an allocation. -/
def zeroed [Zero F] (n : Nat) : MayPanic (List F) :=
  if 4 * n ≤ isizeMax then some (List.replicate n 0) else none

/-- `for (i, value) in values.iter_mut().enumerate()`. -/
def forEnumerated (values : List F) (round : F → Nat → Body σ F) : Body σ (List F) :=
  values.zipIdx.mapM fun value => round value.1 value.2

/-! ## What the parts of a body give -/

open Call

theorem check_ok (a : α) : (check (.ok a) : Body σ α) = pure a := rfl

theorem check_gives {answer : Except KernelBodyError α} {P : α → Prop} {a : α}
    (h : answer = .ok a) (ha : P a) : Gives (check answer : Body σ α) P := by
  rw [h]
  exact .pure ha

theorem refuseIf_gives {bad : Prop} [Decidable bad] {e : KernelBodyError} (h : ¬bad) :
    Gives (check (refuseIf bad e) : Body σ Unit) fun _ => True :=
  check_gives (a := ()) (refuseIf_eq_ok_iff.mpr h) trivial

theorem fetch_gives {l : List α} {i : Nat} (hi : i < l.length) (hword : i ≤ wordMax) :
    Gives (fetch l i : Body σ α) (l[i]? = some ·) :=
  .value (readAt_of_lt hi hword) (List.getElem?_eq_getElem hi)

theorem fetchSlice_gives {l : List α} {lo hi : Nat} (hlo : lo ≤ hi) (hhi : hi ≤ l.length)
    (hword : hi ≤ wordMax) :
    Gives (fetchSlice l lo hi : Body σ (List α)) (· = (l.drop lo).take (hi - lo)) :=
  .value (sliceAt_eq_some_iff.mpr ⟨hword, ⟨hlo, hhi⟩, rfl⟩) rfl

theorem wp_writeAt {panics : Prop} {Q : Unit → List F → Prop} {E : KernelBodyError → List F → Prop}
    {output : List F} {i : Nat} {value : F} (hi : i < output.length) (hword : i ≤ wordMax)
    (h : Q () (output.set i value)) : wp panics (writeAt i value) Q E output := by
  rw [wp, writeAt, if_pos ⟨hword, hi⟩]
  exact h

theorem forEnumerated_gives {before after : Nat → F} {round : F → Nat → Body σ F} {width : Nat}
    (h : ∀ i < width, Gives (round (before i) i) (· = after i)) :
    Gives (forEnumerated ((List.range width).map before) round)
      (· = (List.range width).map after) := by
  have hmap : ((List.range width).map before).zipIdx.map (fun value => after value.2) =
      (List.range width).map after := by
    apply List.ext_getElem
    · simp
    · intro i _ _
      simp
  rw [← hmap]
  refine Gives.mapM_eq ?_
  intro value hvalue
  obtain ⟨i, hi, rfl⟩ := List.mem_iff_getElem.mp hvalue
  simp only [List.length_zipIdx, List.length_map, List.length_range] at hi
  simpa using h i hi

theorem forEnumerated_length {values : List F} {round : F → Nat → Body σ F}
    (h : ∀ value, ∀ i < values.length, Gives (round value i) fun _ => True) :
    Gives (forEnumerated values round) (·.length = values.length) := by
  refine (Gives.mapM (R := fun _ _ => True) ?_).mono fun after hafter => ?_
  · intro value hvalue
    obtain ⟨i, hi, rfl⟩ := List.mem_iff_getElem.mp hvalue
    rw [List.length_zipIdx] at hi
    simpa using h values[i] i hi
  · rw [← hafter.length_eq, List.length_zipIdx]

theorem zeroed_of_le [Zero F] {n : Nat} (h : 4 * n ≤ isizeMax) :
    zeroed n = some (List.replicate n (0 : F)) := if_pos h

/-! ## Packed formats -/

/-- `QuantizedFormat`. -/
inductive QuantizedFormat where
  | q4K
  | q5_0
  | q5K
  | q6K
  | q8_0
  deriving DecidableEq, Repr

namespace QuantizedFormat

def blockElements : QuantizedFormat → Nat
  | q4K | q5K | q6K => 256
  | q5_0 | q8_0 => 32

def blockBytes : QuantizedFormat → Nat
  | q4K => 144
  | q5_0 => 22
  | q5K => 176
  | q6K => 210
  | q8_0 => 34

def spelling : QuantizedFormat → String
  | q4K => "Q4_K"
  | q5_0 => "Q5_0"
  | q5K => "Q5_K"
  | q6K => "Q6_K"
  | q8_0 => "Q8_0"

def fromGgmlTypeId (id : UInt32) : Option QuantizedFormat :=
  match id with
  | 6 => some q5_0
  | 8 => some q8_0
  | 12 => some q4K
  | 13 => some q5K
  | 14 => some q6K
  | _ => none

theorem blockElements_pos (format : QuantizedFormat) : 0 < format.blockElements := by
  cases format <;> decide

end QuantizedFormat

/-! ## Half precision -/

/-- An unsigned result of so many bits. -/
def fits (bits n : Nat) : MayPanic Nat := if n < 2 ^ bits then some n else none

/-- `u32 << amount`. -/
def shl32 (n amount : Nat) : MayPanic Nat :=
  if amount < 32 then some (n * 2 ^ amount % 2 ^ 32) else none

/-- `u32::leading_zeros`. -/
def leadingZeros (n : Nat) : Nat := if n = 0 then 32 else 31 - n.log2

/-- The bits of `half_to_f32`. -/
def halfToF32Bits (bits : UInt16) : MayPanic Nat := do
  let sign := bits.toNat >>> 15 &&& 1
  let exponent := bits.toNat >>> 10 &&& 0x1f
  let fraction := bits.toNat &&& 0x03ff
  let signBit ← shl32 sign 31
  if exponent = 0 then
    if fraction = 0 then
      some signBit
    else
      let position ← subWord 32 (leadingZeros fraction)
      let biased ← fits 32 (position + 102)
      let exponentBits ← shl32 biased 23
      let amount ← subWord 24 position
      let shifted ← shl32 fraction amount
      let mantissa ← subWord shifted (2 ^ 23)
      some (signBit ||| exponentBits ||| mantissa)
  else if exponent = 0x1f then
    let exponentBits ← shl32 0xff 23
    let mantissa ← shl32 fraction 13
    some (signBit ||| exponentBits ||| mantissa)
  else
    let biased ← fits 32 (exponent + 112)
    let exponentBits ← shl32 biased 23
    let mantissa ← shl32 fraction 13
    some (signBit ||| exponentBits ||| mantissa)

theorem halfToF32Bits_returns (bits : UInt16) : ∃ v, halfToF32Bits bits = some v := by
  have hfraction : bits.toNat &&& 0x03ff < 2 ^ 10 := Nat.and_lt_two_pow _ (by decide)
  have hexponent : bits.toNat >>> 10 &&& 0x1f < 2 ^ 5 := Nat.and_lt_two_pow _ (by decide)
  unfold halfToF32Bits
  generalize bits.toNat &&& 0x03ff = fraction at hfraction
  generalize bits.toNat >>> 10 &&& 0x1f = exponent at hexponent
  by_cases hzero : exponent = 0
  · by_cases hnone : fraction = 0
    · simp [shl32, hzero, hnone]
    · -- the shift moves the highest bit of the fraction to bit 23
      have hlog : fraction.log2 < 10 := (Nat.log2_lt hnone).mpr hfraction
      have hlow : 2 ^ fraction.log2 ≤ fraction := Nat.log2_self_le hnone
      have hhigh : fraction < 2 ^ (fraction.log2 + 1) := Nat.lt_log2_self
      have hposition : 32 - (31 - fraction.log2) = fraction.log2 + 1 := by omega
      have hsplit : 23 = fraction.log2 + (23 - fraction.log2) := by omega
      have hshifted : fraction * 2 ^ (23 - fraction.log2) < 4294967296 := by
        calc fraction * 2 ^ (23 - fraction.log2)
            < 2 ^ (fraction.log2 + 1) * 2 ^ (23 - fraction.log2) :=
              Nat.mul_lt_mul_of_pos_right hhigh (by positivity)
          _ = 2 ^ 24 := by rw [← pow_add]; congr 1; omega
          _ < 4294967296 := by decide
      have hmantissa : 8388608 ≤ fraction * 2 ^ (23 - fraction.log2) := by
        calc 8388608 = 2 ^ (fraction.log2 + (23 - fraction.log2)) := by rw [← hsplit]; rfl
          _ = 2 ^ fraction.log2 * 2 ^ (23 - fraction.log2) := pow_add _ _ _
          _ ≤ _ := Nat.mul_le_mul_right _ hlow
      have hamount : 23 - fraction.log2 < 32 := by omega
      have hbiased : fraction.log2 + 1 + 102 < 4294967296 := by omega
      have hwidth : fraction.log2 + 1 ≤ 24 := by omega
      have hzeros : 31 - fraction.log2 ≤ 32 := by omega
      simp [shl32, hzero, hnone, leadingZeros, subWord, fits, hposition, hwidth, hzeros, hbiased,
        hamount, Nat.mod_eq_of_lt hshifted, hmantissa]
  · by_cases hfull : exponent = 0x1f
    · simp [shl32, hfull]
    · have hbiased : exponent + 112 < 4294967296 := by omega
      simp [shl32, hzero, hfull, fits, hbiased]

def halfToF32 [F32 F] (bits : UInt16) : MayPanic F := (halfToF32Bits bits).map F32.fromBits

/-! ## Block values -/

section BlockValue

variable [F32 F]

/-- `half_to_f32(u16::from_le_bytes([block[i], block[i + 1]]))`. -/
def halfAt (block : List UInt8) (i : Nat) : Body σ F := do
  let low ← fetch block i
  let high ← fetch block (i + 1)
  Call.value (halfToF32 (low.toUInt16 ||| high.toUInt16 <<< 8))

/-- `u32::from_le_bytes` of the four bytes from `i` on. -/
def wordAt (block : List UInt8) (i : Nat) : Body σ Nat := do
  let b0 ← fetch block i
  let b1 ← fetch block (i + 1)
  let b2 ← fetch block (i + 2)
  let b3 ← fetch block (i + 3)
  pure (b0.toNat + 2 ^ 8 * b1.toNat + 2 ^ 16 * b2.toNat + 2 ^ 24 * b3.toNat)

/-- `f32::from` of a byte. -/
def ofByte (byte : UInt8) : F := F32.ofInt byte.toNat

/-- `i8::from_ne_bytes([byte]) as f32`. -/
def ofSigned (byte : UInt8) : F := F32.ofInt byte.toInt8.toInt

def getScaleMinK4 (index : Nat) (scales : List UInt8) : Body σ (UInt8 × UInt8) := do
  if index < 4 then
    let scale ← fetch scales index
    let min ← fetch scales (index + 4)
    pure (scale &&& 63, min &&& 63)
  else
    let packed ← fetch scales (index + 4)
    let scaleHigh ← fetch scales (index - 4)
    let minHigh ← fetch scales index
    pure ((packed &&& (0x0f : UInt8)) ||| (scaleHigh >>> 6) <<< 4, packed >>> 4 ||| (minHigh >>> 6) <<< 4)

def q6KLaneQuant (lane : Nat) (ql0 ql1 qh : UInt8) (scaleIndex : Nat) :
    Except KernelBodyError (UInt8 × Nat) :=
  match lane with
  | 0 => .ok ((ql0 &&& (0x0f : UInt8)) ||| (qh &&& 3) <<< 4, scaleIndex)
  | 1 => .ok ((ql1 &&& (0x0f : UInt8)) ||| ((qh >>> 2) &&& 3) <<< 4, scaleIndex + 2)
  | 2 => .ok (ql0 >>> 4 ||| ((qh >>> 4) &&& 3) <<< 4, scaleIndex + 4)
  | 3 => .ok (ql1 >>> 4 ||| ((qh >>> 6) &&& 3) <<< 4, scaleIndex + 6)
  | _ => .error (shapeMismatch "Q6_K lane is bounded by 256-element blocks")

/-- `block_value`. -/
def blockValue (format : QuantizedFormat) (block : List UInt8) (element : Nat) : Body σ F := do
  let expected := format.blockBytes
  check (refuseIf (block.length < expected)
    (packedBlockTooShort format.spelling expected block.length))
  match format with
  | .q4K =>
    let d : F ← halfAt block 0
    let dmin : F ← halfAt block 2
    let scales ← fetchSlice block 4 16
    let group := element / 64
    let within := element % 64
    let scaleIndex := group * 2 + if within ≥ 32 then 1 else 0
    let scaleMin ← getScaleMinK4 scaleIndex scales
    let q ← fetch block (16 + group * 32 + within % 32)
    let nibble := if within < 32 then q &&& 0x0f else q >>> 4
    pure (d * ofByte scaleMin.1 * ofByte nibble - dmin * ofByte scaleMin.2)
  | .q5_0 =>
    let d : F ← halfAt block 0
    let qh ← wordAt block 2
    let pair := element % 16
    let q ← fetch block (6 + pair)
    let high := if element < 16 then (qh >>> pair) <<< 4 &&& 0x10 else qh >>> (pair + 12) &&& 0x10
    let nibble := if element < 16 then q &&& 0x0f else q >>> 4
    pure ((ofSigned (nibble ||| UInt8.ofNat high) - F32.ofInt 16) * d)
  | .q5K =>
    let d : F ← halfAt block 0
    let dmin : F ← halfAt block 2
    let scaleIndex := element / 32
    let lane := element % 32
    let pair := element / 64
    let scaleMin ← (do
      if scaleIndex < 4 then
        let scale ← fetch block (4 + scaleIndex)
        let min ← fetch block (8 + scaleIndex)
        pure (scale &&& 63, min &&& 63)
      else
        let packed ← fetch block (4 + scaleIndex + 4)
        let scaleHigh ← fetch block (4 + scaleIndex - 4)
        let minHigh ← fetch block (4 + scaleIndex)
        pure ((packed &&& (0x0f : UInt8)) ||| (scaleHigh >>> 6) <<< 4,
          packed >>> 4 ||| (minHigh >>> 6) <<< 4))
    let q ← fetch block (48 + pair * 32 + lane)
    let nibble := if scaleIndex % 2 = 0 then q &&& 0x0f else q >>> 4
    let amount ← Call.value (fits 3 (2 * pair))
    let mask : UInt8 := if scaleIndex % 2 = 0 then 1 <<< UInt8.ofNat amount
      else 2 <<< UInt8.ofNat amount
    let bits ← fetch block (16 + lane)
    let high := if bits &&& mask ≠ 0 then 16 else 0
    let quant ← Call.value (fits 8 (nibble.toNat + high))
    pure (d * ofByte scaleMin.1 * F32.ofInt quant - dmin * ofByte scaleMin.2)
  | .q6K =>
    let d : F ← halfAt block 208
    let half := element / 128 * 128
    let remainder := element % 128
    let lane := remainder / 32
    let l := remainder % 32
    let scaleIndex := half / 16 + l / 16
    let qlOffset := half / 2
    let qhOffset := half / 4
    let ql0 ← fetch block (qlOffset + l)
    let ql1 ← fetch block (qlOffset + l + 32)
    let qh ← fetch block (128 + qhOffset + l)
    let quant ← check (q6KLaneQuant lane ql0 ql1 qh scaleIndex)
    let scale ← fetch block (192 + quant.2)
    pure (d * ofSigned scale * F32.ofInt (quant.1.toNat - 32))
  | .q8_0 =>
    let d : F ← halfAt block 0
    let q ← fetch block (2 + element)
    pure (d * ofSigned q)

/-! ### No element of a block is out of reach -/

theorem halfAt_gives {block : List UInt8} {i : Nat} (hi : i + 1 < block.length)
    (hword : i + 1 ≤ wordMax) : Gives (halfAt block i : Body σ F) fun _ => True := by
  refine (fetch_gives (by omega) (by omega)).bind fun low _ => ?_
  refine (fetch_gives hi hword).bind fun high _ => ?_
  obtain ⟨bits, hbits⟩ := halfToF32Bits_returns (low.toUInt16 ||| high.toUInt16 <<< 8)
  exact .value (by rw [halfToF32, hbits]; rfl) trivial

theorem wordAt_gives {block : List UInt8} {i : Nat} (hi : i + 3 < block.length)
    (hword : i + 3 ≤ wordMax) : Gives (wordAt block i : Body σ Nat) fun _ => True := by
  refine (fetch_gives (by omega) (by omega)).bind fun b0 _ => ?_
  refine (fetch_gives (by omega) (by omega)).bind fun b1 _ => ?_
  refine (fetch_gives (by omega) (by omega)).bind fun b2 _ => ?_
  refine (fetch_gives hi hword).bind fun b3 _ => ?_
  exact .pure trivial

theorem getScaleMinK4_gives {index : Nat} {scales : List UInt8} (hindex : index < 8)
    (hscales : scales.length = 12) :
    Gives (getScaleMinK4 index scales : Body σ (UInt8 × UInt8)) fun _ => True := by
  have hmax : wordMax = 2 ^ 64 - 1 := rfl
  unfold getScaleMinK4
  by_cases hlow : index < 4
  · rw [if_pos hlow]
    refine (fetch_gives (by omega) (by omega)).bind fun scale _ => ?_
    exact (fetch_gives (by omega) (by omega)).bind fun min _ => .pure trivial
  · rw [if_neg hlow]
    refine (fetch_gives (by omega) (by omega)).bind fun packed _ => ?_
    refine (fetch_gives (by omega) (by omega)).bind fun scaleHigh _ => ?_
    exact (fetch_gives (by omega) (by omega)).bind fun minHigh _ => .pure trivial

/-- The four lanes of a group have a quant and a scale slot within six of the index. -/
theorem q6KLaneQuant_ok {lane : Nat} (h : lane < 4) (ql0 ql1 qh : UInt8) (scaleIndex : Nat) :
    ∃ q slot, q6KLaneQuant lane ql0 ql1 qh scaleIndex = .ok (q, slot) ∧ slot ≤ scaleIndex + 6 := by
  match lane, h with
  | 0, _ => exact ⟨_, _, rfl, by omega⟩
  | 1, _ => exact ⟨_, _, rfl, by omega⟩
  | 2, _ => exact ⟨_, _, rfl, by omega⟩
  | 3, _ => exact ⟨_, _, rfl, by omega⟩

theorem nibble_toNat_le (q : UInt8) (low : Prop) [Decidable low] :
    (if low then q &&& 0x0f else q >>> 4).toNat ≤ 15 := by
  have hq := q.toNat_lt
  split
  · rw [UInt8.toNat_and]
    exact Nat.and_le_right
  · rw [UInt8.toNat_shiftRight, Nat.shiftRight_eq_div_pow]
    change q.toNat / 2 ^ 4 ≤ 15
    omega

theorem blockValue_gives {format : QuantizedFormat} {block : List UInt8} {element : Nat}
    (hblock : format.blockBytes ≤ block.length) (helement : element < format.blockElements) :
    Gives (blockValue format block element : Body σ F) fun _ => True := by
  have hmax : wordMax = 2 ^ 64 - 1 := rfl
  refine (refuseIf_gives (by omega)).bind fun _ _ => ?_
  cases format with
  | q4K =>
    change 144 ≤ block.length at hblock
    change element < 256 at helement
    refine (halfAt_gives (by omega) (by omega)).bind fun d _ => ?_
    refine (halfAt_gives (by omega) (by omega)).bind fun dmin _ => ?_
    refine (fetchSlice_gives (by omega) (by omega) (by omega)).bind fun scales hscales => ?_
    have hlength : scales.length = 12 := by
      rw [hscales, List.length_take, List.length_drop]
      omega
    refine (getScaleMinK4_gives (by split <;> omega) hlength).bind fun scaleMin _ => ?_
    exact (fetch_gives (by omega) (by omega)).bind fun q _ => .pure trivial
  | q5_0 =>
    change 22 ≤ block.length at hblock
    refine (halfAt_gives (by omega) (by omega)).bind fun d _ => ?_
    refine (wordAt_gives (by omega) (by omega)).bind fun qh _ => ?_
    exact (fetch_gives (by omega) (by omega)).bind fun q _ => .pure trivial
  | q5K =>
    change 176 ≤ block.length at hblock
    change element < 256 at helement
    refine (halfAt_gives (by omega) (by omega)).bind fun d _ => ?_
    refine (halfAt_gives (by omega) (by omega)).bind fun dmin _ => ?_
    refine Gives.bind (P := fun _ => True) ?_ fun scaleMin _ => ?_
    · by_cases hlow : element / 32 < 4
      · rw [if_pos hlow]
        refine (fetch_gives (by omega) (by omega)).bind fun scale _ => ?_
        exact (fetch_gives (by omega) (by omega)).bind fun min _ => .pure trivial
      · rw [if_neg hlow]
        refine (fetch_gives (by omega) (by omega)).bind fun packed _ => ?_
        refine (fetch_gives (by omega) (by omega)).bind fun scaleHigh _ => ?_
        exact (fetch_gives (by omega) (by omega)).bind fun minHigh _ => .pure trivial
    · refine (fetch_gives (by omega) (by omega)).bind fun q _ => ?_
      have hamount : fits 3 (2 * (element / 64)) = some (2 * (element / 64)) := if_pos (by omega)
      refine (Gives.value (P := fun _ => True) hamount trivial).bind fun amount _ => ?_
      refine (fetch_gives (by omega) (by omega)).bind fun bits _ => ?_
      have hnibble := nibble_toNat_le q (element / 32 % 2 = 0)
      have hhigh : ∀ mask : UInt8, (if bits &&& mask ≠ 0 then 16 else 0) ≤ 16 := by
        intro mask
        split <;> omega
      refine Gives.bind (P := fun _ => True) (.value (if_pos ?_) trivial) fun quant _ =>
        .pure trivial
      exact Nat.lt_of_le_of_lt (Nat.add_le_add hnibble (hhigh _)) (by decide)
  | q6K =>
    change 210 ≤ block.length at hblock
    change element < 256 at helement
    refine (halfAt_gives (by omega) (by omega)).bind fun d _ => ?_
    refine (fetch_gives (by omega) (by omega)).bind fun ql0 _ => ?_
    refine (fetch_gives (by omega) (by omega)).bind fun ql1 _ => ?_
    refine (fetch_gives (by omega) (by omega)).bind fun qh _ => ?_
    obtain ⟨q, slot, hquant, hslot⟩ := q6KLaneQuant_ok
      (show element % 128 / 32 < 4 by omega) ql0 ql1 qh (element / 128 * 128 / 16 + element % 128 % 32 / 16)
    refine (check_gives (P := (· = (q, slot))) hquant rfl).bind fun answer hanswer => ?_
    subst hanswer
    exact (fetch_gives (by omega) (by omega)).bind fun scale _ => .pure trivial
  | q8_0 =>
    change 34 ≤ block.length at hblock
    change element < 32 at helement
    refine (halfAt_gives (by omega) (by omega)).bind fun d _ => ?_
    exact (fetch_gives (by omega) (by omega)).bind fun q _ => .pure trivial

end BlockValue

end FaberHosts.Library
