import FaberHosts.Lib.Words

/-!
# Strided addresses

The offset of an index under strides, and the farthest offset an array of given
dimensions reaches.  Without a zero dimension that offset is taken, so a bound on
every offset is a bound on it.  The checked sums of a machine (`trySpan`, `tryOffset`)
answer these numbers where they fit a word.
-/

namespace FaberHosts.Lib

/-- An index of an array with the given dimensions. -/
def Indexes (dims index : List Nat) : Prop := List.Forall₂ (· < ·) index dims

/-- The offset of an index. -/
def strided : List Nat → List Nat → Nat
  | i :: index, stride :: strides => i * stride + strided index strides
  | _, _ => 0

/-- The offset of the last element. -/
def reach (dims strides : List Nat) : Nat := strided (dims.map (· - 1)) strides

theorem strided_le_reach {dims index : List Nat} (strides : List Nat) (h : Indexes dims index) :
    strided index strides ≤ reach dims strides := by
  induction h generalizing strides with
  | nil => exact Nat.le_refl _
  | @cons i dim index dims hi _ ih =>
    cases strides with
    | nil => exact Nat.zero_le _
    | cons stride strides =>
      have hfirst : i * stride ≤ (dim - 1) * stride := Nat.mul_le_mul_right _ (by omega)
      have hrest := ih strides
      unfold reach at hrest ⊢
      rw [strided, List.map_cons, strided]
      omega

theorem indexes_last {dims : List Nat} (h : 0 ∉ dims) : Indexes dims (dims.map (· - 1)) := by
  induction dims with
  | nil => exact .nil
  | cons dim dims ih =>
    rw [List.mem_cons, not_or] at h
    have hdim := h.1
    have hlast : dim - 1 < dim := by omega
    exact .cons hlast (ih h.2)

theorem reach_cons (dim stride : Nat) (dims strides : List Nat) :
    reach (dim :: dims) (stride :: strides) = (dim - 1) * stride + reach dims strides := rfl

theorem reach_append {dims strides : List Nat} (hrank : dims.length = strides.length)
    (dims' strides' : List Nat) :
    reach (dims ++ dims') (strides ++ strides') = reach dims strides + reach dims' strides' := by
  induction dims generalizing strides with
  | nil =>
    cases strides with
    | nil => simp [reach, strided]
    | cons stride strides => cases hrank
  | cons dim dims ih =>
    cases strides with
    | nil => cases hrank
    | cons stride strides =>
      have hrest : dims.length = strides.length := by simpa using hrank
      rw [List.cons_append, List.cons_append, reach_cons, reach_cons, ih hrest, Nat.add_assoc]

/-- Without a zero stride the span is at least as long as each dimension. -/
theorem le_span_of_mem {dims strides : List Nat} {dim : Nat} (hrank : dims.length = strides.length)
    (hstrides : 0 ∉ strides) (hdim : dim ∈ dims) : dim ≤ 1 + reach dims strides := by
  induction dims generalizing strides with
  | nil => cases hdim
  | cons first dims ih =>
    cases strides with
    | nil => cases hrank
    | cons stride strides =>
      rw [List.mem_cons, not_or] at hstrides
      rw [reach_cons]
      rcases List.mem_cons.mp hdim with rfl | hdim
      · have hterm : dim - 1 ≤ (dim - 1) * stride :=
          Nat.le_mul_of_pos_right _ (Nat.pos_of_ne_zero (Ne.symm hstrides.1))
        omega
      · have hrest := ih (by simpa using hrank) hstrides.2 hdim
        omega

/-! ## Checked sums -/

/-- `1` and the last offset of each axis. -/
def trySpan (dims strides : List Nat) : Option Nat :=
  (dims.zip strides).foldlM (fun span axis => do
    let last ← subWord axis.1 1
    let last ← mulWord last axis.2
    addWord span last) 1

/-- The offset of an index, term by term. -/
def tryOffset (index strides : List Nat) : Option Nat :=
  (index.zip strides).foldlM (fun offset axis => do
    let term ← mulWord axis.1 axis.2
    addWord offset term) 0

theorem trySpan_eq_some_iff {dims strides : List Nat} {span : Nat}
    (hrank : dims.length = strides.length) : trySpan dims strides = some span ↔
      0 ∉ dims ∧ 1 + reach dims strides ≤ wordMax ∧ 1 + reach dims strides = span := by
  suffices hgen : ∀ start ≤ wordMax, (dims.zip strides).foldlM (fun span axis => do
      let last ← subWord axis.1 1
      let last ← mulWord last axis.2
      addWord span last) start = some span ↔
        0 ∉ dims ∧ start + reach dims strides ≤ wordMax ∧ start + reach dims strides = span from
    hgen 1 (by decide)
  induction dims generalizing strides with
  | nil =>
    intro start hstart
    simp [reach, strided, hstart]
  | cons dim dims ih =>
    intro start hstart
    cases strides with
    | nil => cases hrank
    | cons stride strides =>
      have hrest : dims.length = strides.length := by simpa using hrank
      simp only [List.zip_cons_cons, List.foldlM_cons, Option.bind_eq_bind,
        Option.bind_eq_some_iff, subWord_eq_some_iff, mulWord_eq_some_iff, addWord_eq_some_iff,
        reach_cons, List.mem_cons, not_or]
      constructor
      · intro h
        obtain ⟨_, ⟨_, ⟨hdim, rfl⟩, _, ⟨-, rfl⟩, hnext, rfl⟩, hfold⟩ := h
        obtain ⟨hzero, hle, hspan⟩ := (ih hrest _ hnext).mp hfold
        exact ⟨⟨by omega, hzero⟩, by omega, by omega⟩
      · intro h
        obtain ⟨⟨hdim, hzero⟩, hle, hspan⟩ := h
        have hnext : start + (dim - 1) * stride ≤ wordMax := by omega
        exact ⟨_, ⟨_, ⟨by omega, rfl⟩, _, ⟨by omega, rfl⟩, hnext, rfl⟩,
          (ih hrest _ hnext).mpr ⟨hzero, by omega, by omega⟩⟩

theorem tryOffset_of_le {index strides : List Nat} (h : strided index strides ≤ wordMax) :
    tryOffset index strides = some (strided index strides) := by
  suffices hgen : ∀ start, start + strided index strides ≤ wordMax →
      (index.zip strides).foldlM (fun offset axis => do
        let term ← mulWord axis.1 axis.2
        addWord offset term) start = some (start + strided index strides) by
    have hzero := hgen 0 (by omega)
    rwa [Nat.zero_add] at hzero
  clear h
  induction index generalizing strides with
  | nil =>
    intro start _
    rfl
  | cons i index ih =>
    intro start hle
    cases strides with
    | nil => rfl
    | cons stride strides =>
      rw [strided] at hle ⊢
      have hterm : mulWord i stride = some (i * stride) := word_of_le (by omega)
      have hsum : addWord start (i * stride) = some (start + i * stride) := word_of_le (by omega)
      have hrest := @ih strides (start + i * stride) (by omega)
      rw [Nat.add_assoc] at hrest
      simpa only [List.zip_cons_cons, List.foldlM_cons, hterm, hsum, Option.bind_eq_bind,
        Option.bind_some] using hrest

theorem tryOffset_of_indexes {dims index strides : List Nat} (hindex : Indexes dims index)
    (hword : 1 + reach dims strides ≤ wordMax) :
    tryOffset index strides = some (strided index strides) ∧
      strided index strides < 1 + reach dims strides := by
  have hle := strided_le_reach strides hindex
  exact ⟨tryOffset_of_le (by omega), by omega⟩

end FaberHosts.Lib
