import Mathlib.Data.List.Nodup
import FaberHosts.Lib.Checks

/-!
# Machine words as numbers

Sizes and indices of a 64-bit machine as natural numbers: an operation whose result does
not fit answers `none`, which is `None` of a checked operation and the panic of an
unchecked one.  The intermediate results of a sum of products are at most the sum, so
that an index expression fits when its value does.
-/

namespace FaberHosts.Lib

/-- `usize::MAX` and `u64::MAX`. -/
def wordMax : Nat := 2 ^ 64 - 1

/-- `isize::MAX`, the most bytes a slice or an allocation has. -/
def isizeMax : Nat := 2 ^ 63 - 1

/-- A result that has to fit a word. -/
def word (n : Nat) : Option Nat := if n ≤ wordMax then some n else none

def addWord (a b : Nat) : Option Nat := word (a + b)

def mulWord (a b : Nat) : Option Nat := word (a * b)

def subWord (a b : Nat) : Option Nat := if b ≤ a then some (a - b) else none

/-- `saturating_mul`. -/
def saturatingMulWord (a b : Nat) : Nat := min (a * b) wordMax

/-- `saturating_add`. -/
def saturatingAddWord (a b : Nat) : Nat := min (a + b) wordMax

@[simp] theorem word_eq_some_iff {a b : Nat} : word a = some b ↔ a ≤ wordMax ∧ a = b := by
  simp [word]

theorem word_of_le {a : Nat} (h : a ≤ wordMax) : word a = some a := if_pos h

@[simp] theorem addWord_eq_some_iff {a b c : Nat} :
    addWord a b = some c ↔ a + b ≤ wordMax ∧ a + b = c := word_eq_some_iff

@[simp] theorem mulWord_eq_some_iff {a b c : Nat} :
    mulWord a b = some c ↔ a * b ≤ wordMax ∧ a * b = c := word_eq_some_iff

@[simp] theorem subWord_eq_some_iff {a b c : Nat} :
    subWord a b = some c ↔ b ≤ a ∧ a - b = c := by
  simp [subWord]

/-- `count.checked_sub(1)?.checked_mul(stride)?.checked_add(extra)`. -/
def checkedSpan (count stride extra : Nat) : Option Nat :=
  (subWord count 1).bind fun last => (mulWord last stride).bind fun last => addWord last extra

@[simp] theorem checkedSpan_eq_some_iff {count stride extra span : Nat} :
    checkedSpan count stride extra = some span ↔
      1 ≤ count ∧ (count - 1) * stride + extra ≤ wordMax ∧
        (count - 1) * stride + extra = span := by
  simp only [checkedSpan, Option.bind_eq_some_iff, subWord_eq_some_iff, mulWord_eq_some_iff,
    addWord_eq_some_iff]
  constructor
  · rintro ⟨_, ⟨hcount, rfl⟩, _, ⟨-, rfl⟩, hspan⟩
    exact ⟨hcount, hspan⟩
  · rintro ⟨hcount, hle, hspan⟩
    exact ⟨_, ⟨hcount, rfl⟩, _, ⟨by omega, rfl⟩, hle, hspan⟩

theorem mul_le_span {i count : Nat} (stride : Nat) (h : i < count) :
    i * stride ≤ (count - 1) * stride :=
  Nat.mul_le_mul_right _ (by omega)

/-- A slice whose elements have so many bytes. -/
structure Slice (size : Nat) (α : Type) where
  toList : List α
  fits : size * toList.length ≤ isizeMax

/-! ## Reading a buffer -/

variable {α : Type} {l block : List α} {a : α} {i lo hi : Nat}

/-- `l[i]` with an index expression of value `i`. -/
def readAt (l : List α) (i : Nat) : MayPanic α := (word i).bind (l[·]?)

/-- `&l[lo..hi]`. -/
def sliceAt (l : List α) (lo hi : Nat) : MayPanic (List α) :=
  (word hi).bind fun hi =>
    if lo ≤ hi ∧ hi ≤ l.length then some ((l.drop lo).take (hi - lo)) else none

/-- `&l[lo..]`. -/
def sliceFrom (l : List α) (lo : Nat) : MayPanic (List α) :=
  (word lo).bind fun lo => if lo ≤ l.length then some (l.drop lo) else none

theorem readAt_eq_some_iff : readAt l i = some a ↔ i ≤ wordMax ∧ l[i]? = some a := by
  simp [readAt, Option.bind_eq_some_iff]

theorem readAt_of_lt (hi : i < l.length) (hword : i ≤ wordMax) : readAt l i = some l[i] :=
  readAt_eq_some_iff.mpr ⟨hword, List.getElem?_eq_getElem hi⟩

theorem sliceAt_eq_some_iff : sliceAt l lo hi = some block ↔
    hi ≤ wordMax ∧ (lo ≤ hi ∧ hi ≤ l.length) ∧ (l.drop lo).take (hi - lo) = block := by
  simp [sliceAt, Option.bind_eq_some_iff]

theorem sliceFrom_of_le (hlo : lo ≤ l.length) (hword : lo ≤ wordMax) :
    sliceFrom l lo = some (l.drop lo) := by
  rw [sliceFrom, word_of_le hword]
  exact if_pos hlo

/-- A list with the elements of `lo..hi` replaced. -/
def replaceSlice (l : List α) (lo hi : Nat) (block : List α) : List α :=
  l.take lo ++ block ++ l.drop hi

section ReplaceSlice

variable (hlo : lo ≤ hi) (hhi : hi ≤ l.length) (hblock : block.length = hi - lo)
include hlo hhi hblock

theorem length_replaceSlice : (replaceSlice l lo hi block).length = l.length := by
  simp only [replaceSlice, List.length_append, List.length_take, List.length_drop]
  omega

theorem getElem?_replaceSlice_inside (hi' : i < hi - lo) :
    (replaceSlice l lo hi block)[lo + i]? = block[i]? := by
  have htake : (l.take lo).length = lo := by
    rw [List.length_take]
    omega
  rw [replaceSlice, List.append_assoc, List.getElem?_append_right (by omega), htake,
    Nat.add_sub_cancel_left, List.getElem?_append_left (by omega)]

theorem getElem?_replaceSlice_outside (hi' : i < lo ∨ hi ≤ i) :
    (replaceSlice l lo hi block)[i]? = l[i]? := by
  have htake : (l.take lo).length = lo := by
    rw [List.length_take]
    omega
  rw [replaceSlice, List.append_assoc]
  rcases hi' with hbelow | habove
  · rw [List.getElem?_append_left (by omega), List.getElem?_take_of_lt hbelow]
  · rw [List.getElem?_append_right (by omega), List.getElem?_append_right (by omega), htake,
      List.getElem?_drop]
    congr 1
    omega

end ReplaceSlice

/-! ## Rows of equal width -/

theorem row_place_lt {rows width row place : Nat} (hrow : row < rows) (hplace : place < width) :
    row * width + place < rows * width := by
  have hnext : (row + 1) * width ≤ rows * width := Nat.mul_le_mul_right _ hrow
  rw [Nat.add_mul, Nat.one_mul] at hnext
  omega

theorem getElem?_rows {rows row place : Nat} (hrow : row < rows)
    (hplace : place < l.length) :
    (List.replicate rows l).flatten[row * l.length + place]? = l[place]? := by
  induction rows generalizing row with
  | zero => omega
  | succ rows ih =>
    rw [List.replicate_succ, List.flatten_cons]
    cases row with
    | zero => rw [Nat.zero_mul, Nat.zero_add, List.getElem?_append_left hplace]
    | succ row =>
      have hnext : (row + 1) * l.length + place = l.length + (row * l.length + place) := by
        rw [Nat.add_mul, Nat.one_mul]
        omega
      rw [hnext, List.getElem?_append_right (by omega), Nat.add_sub_cancel_left]
      exact ih (by omega)

end FaberHosts.Lib

/-!
## Unsigned 32-bit arithmetic

Addition of `u32` values as a compiled program does it, as in `Word64`, and how many
distinct values there are.
-/

namespace FaberHosts.Lib

/-- `a + b` on `u32`. -/
def addU32 (overflowChecks : Bool) (a b : UInt32) : MayPanic UInt32 :=
  if overflowChecks ∧ 2 ^ 32 ≤ a.toNat + b.toNat then none else some (a + b)

/-- `u32::checked_add`. -/
def checkedAdd32 (a b : UInt32) : Option UInt32 := addU32 true a b

/-- `u32::saturating_add`. -/
def saturatingAdd32 (a b : UInt32) : UInt32 := (checkedAdd32 a b).getD (UInt32.ofNat (2 ^ 32 - 1))

theorem toNat_add32_of_fits {a b : UInt32} (h : a.toNat + b.toNat < 2 ^ 32) :
    (a + b).toNat = a.toNat + b.toNat := by
  rw [UInt32.toNat_add, Nat.mod_eq_of_lt h]

theorem addU32_of_fits (checks : Bool) {a b : UInt32} (h : a.toNat + b.toNat < 2 ^ 32) :
    addU32 checks a b = some (a + b) := by
  rw [addU32, if_neg (by omega)]

theorem checkedAdd32_of_fits {a b : UInt32} (h : a.toNat + b.toNat < 2 ^ 32) :
    checkedAdd32 a b = some (a + b) :=
  addU32_of_fits true h

theorem checkedAdd32_some {a b c : UInt32} (h : checkedAdd32 a b = some c) :
    c.toNat = a.toNat + b.toNat := by
  unfold checkedAdd32 addU32 at h
  split at h
  · cases h
  · cases h
    exact toNat_add32_of_fits (by simp_all)

/-! ## Distinct values -/

theorem length_le_of_nodup32 {l : List UInt32} (h : l.Nodup) : l.length ≤ 2 ^ 32 := by
  have hdistinct : (l.map UInt32.toNat).Nodup := h.map (fun a b => UInt32.toNat.inj)
  have hbound : l.map UInt32.toNat ⊆ List.range (2 ^ 32) := by
    intro n hn
    obtain ⟨a, -, rfl⟩ := List.mem_map.mp hn
    exact List.mem_range.mpr a.toNat_lt
  simpa using (List.subperm_of_subset hdistinct hbound).length_le

theorem length_lt_of_nodup32 {l : List UInt32} (h : l.Nodup) (hzero : 0 ∉ l) :
    l.length < 2 ^ 32 := by
  have hle := length_le_of_nodup32 (List.nodup_cons.mpr ⟨hzero, h⟩)
  rw [List.length_cons] at hle
  omega

end FaberHosts.Lib
