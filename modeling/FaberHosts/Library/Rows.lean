import FaberHosts.Lib.Strides
import FaberHosts.Library.Blocks

/-!
# Bodies over the rows of a bind

A `BindDescriptor` views a buffer as rows: the last axis is the row and the axes before it
number the rows.  `rope` and `residual_rms_norm` visit the rows in order (`for_each_row`)
and write one output element for each element of a row.
-/

namespace FaberHosts.Library
open FaberHosts.Lib KernelBodyError Call

attribute [local instance] Call.lawfulMonad

variable {σ F β : Type}

/-- `BindLayout`. -/
inductive BindLayout where
  | flat
  | rowMajor
  | strided
  | ropeConsecutivePair (rotatedWidth : Nat)
  | ropeRotateHalf (rotatedWidth : Nat)
  deriving DecidableEq

/-- The rotated width of a RoPE layout and whether it pairs the halves. -/
def BindLayout.rotated : BindLayout → Option (Nat × Bool)
  | .ropeConsecutivePair width => some (width, false)
  | .ropeRotateHalf width => some (width, true)
  | _ => none

/-- `BindDescriptor`. -/
structure BindDescriptor where
  dims : List Nat
  strides : List Nat
  layout : BindLayout
  grid : Vector UInt32 3
  deriving DecidableEq

/-- `row_major_strides`. -/
def rowMajorStrides : List Nat → List Nat
  | [] => []
  | [_] => [1]
  | _ :: dim :: dims =>
    let strides := rowMajorStrides (dim :: dims)
    saturatingMulWord (strides.headD 1) dim :: strides

namespace BindDescriptor

def elementCount (bind : BindDescriptor) : Option Nat := bind.dims.foldlM mulWord 1

def physicalSpan (bind : BindDescriptor) : Option Nat :=
  if bind.dims = [] ∨ bind.dims.length ≠ bind.strides.length then none
  else trySpan bind.dims bind.strides

/-- The width of a row. -/
def width (bind : BindDescriptor) : Nat := bind.dims.getLastD 0

def validate (bind : BindDescriptor) : Except KernelBodyError Unit := do
  refuseIf (bind.dims = []) (invalidBind "bind descriptor has no dimensions")
  refuseIf (bind.dims.length ≠ bind.strides.length)
    (invalidBind "bind dimensions and strides have different ranks")
  refuseIf (0 ∈ bind.dims) (invalidBind "bind descriptor has a zero dimension")
  refuseIf (0 ∈ bind.strides) (invalidBind "bind descriptor has a zero stride")
  refuseIf (0 ∈ bind.grid.toList) (invalidBind "bind descriptor has a zero dispatch axis")
  refuseIf (bind.layout = .rowMajor ∧ bind.strides ≠ rowMajorStrides bind.dims)
    (invalidBind "row-major bind has non-canonical strides")
  refuseIf (∃ rotated ∈ bind.layout.rotated,
      rotated.1 = 0 ∨ rotated.1 % 2 ≠ 0 ∨ bind.width < rotated.1)
    (invalidBind "rope rotated width must be positive, even, and within the row width")
  refuseIf (bind.elementCount = none ∨ bind.physicalSpan = none)
    (invalidBind "bind descriptor dimensions overflow the element index")

/-- `checked_span`. -/
def checkedSpan (bind : BindDescriptor) (buffer : String) (length : Nat) :
    Except KernelBodyError Unit := do
  bind.validate
  let required ← okOr bind.physicalSpan (invalidBind "bind physical span overflow")
  refuseIf (length < required) (bufferTooShort buffer required length)

/-- The elements the bind addresses. -/
def extent (bind : BindDescriptor) : Nat := 1 + reach bind.dims bind.strides

/-- What validation establishes: the axes in front of the rows, the row and their strides. -/
structure Valid (bind : BindDescriptor) (axes axisStrides : List Nat) (width stride : Nat) :
    Prop where
  dims : bind.dims = axes ++ [width]
  strides : bind.strides = axisStrides ++ [stride]
  rank : axes.length = axisStrides.length
  axes_pos : 0 ∉ axes
  width_pos : width ≠ 0
  count : axes.prod * width ≤ wordMax
  extent : bind.extent ≤ wordMax
  rotated : ∀ rotated ∈ bind.layout.rotated,
    rotated.1 ≠ 0 ∧ rotated.1 % 2 = 0 ∧ rotated.1 ≤ width

theorem foldlM_mulWord {dims : List Nat} {start count : Nat} (hstart : start ≤ wordMax)
    (hdims : 0 ∉ dims) : dims.foldlM mulWord start = some count ↔
      start * dims.prod ≤ wordMax ∧ start * dims.prod = count := by
  induction dims generalizing start with
  | nil => simp [hstart]
  | cons dim dims ih =>
    rw [List.mem_cons, not_or] at hdims
    simp only [List.foldlM_cons, Option.bind_eq_bind, Option.bind_eq_some_iff,
      mulWord_eq_some_iff, List.prod_cons, ← Nat.mul_assoc]
    constructor
    · intro h
      obtain ⟨_, ⟨hle, rfl⟩, hfold⟩ := h
      exact (ih hle hdims.2).mp hfold
    · intro h
      have hpos : 1 ≤ dims.prod := Nat.pos_of_ne_zero (List.prod_ne_zero hdims.2)
      have hle : start * dim ≤ wordMax :=
        Nat.le_trans (Nat.le_mul_of_pos_right _ hpos) h.1
      exact ⟨_, ⟨hle, rfl⟩, (ih hle hdims.2).mpr h⟩

variable {bind : BindDescriptor} {axes axisStrides : List Nat} {width stride : Nat}

theorem valid_of_validate (h : bind.validate = .ok ()) :
    ∃ axes axisStrides width stride, bind.Valid axes axisStrides width stride := by
  simp only [validate, Lib.bind_ok_iff, refuseIf_eq_ok_iff, not_or, not_exists, not_and,
    Decidable.not_not] at h
  obtain ⟨_, hsome, _, hrank, _, hdims, _, -, _, -, _, -, _, hrotated, hcount, hspan⟩ := h
  obtain ⟨axes, width, haxes⟩ := (List.eq_nil_or_concat' bind.dims).resolve_left hsome
  have hstrides : bind.strides ≠ [] := by
    intro hnone
    rw [hnone, haxes] at hrank
    simp at hrank
  obtain ⟨axisStrides, stride, hlast⟩ := (List.eq_nil_or_concat' bind.strides).resolve_left hstrides
  have hcounted : 1 * bind.dims.prod ≤ wordMax := by
    obtain ⟨count, hcount⟩ := Option.ne_none_iff_exists'.mp hcount
    exact ((foldlM_mulWord (by decide) hdims).mp hcount).1
  have hextent : bind.extent ≤ wordMax := by
    obtain ⟨span, hspan⟩ := Option.ne_none_iff_exists'.mp hspan
    rw [physicalSpan, if_neg (by simp [hsome, hrank]), trySpan_eq_some_iff hrank] at hspan
    exact hspan.2.1
  have hwidth : bind.width = width := by simp [BindDescriptor.width, haxes]
  rw [haxes, List.mem_append, not_or, List.mem_singleton] at hdims
  refine ⟨axes, axisStrides, width, stride, haxes, hlast, ?_, hdims.1, Ne.symm hdims.2, ?_,
    hextent, ?_⟩
  · rw [haxes, hlast] at hrank
    simpa using hrank
  · rw [haxes, List.prod_append, List.prod_singleton] at hcounted
    omega
  · intro rotated hmem
    have hchecked := hrotated rotated hmem
    rw [hwidth] at hchecked
    omega

namespace Valid

theorem width_eq (h : bind.Valid axes axisStrides width stride) : bind.width = width := by
  simp [BindDescriptor.width, h.dims]

theorem extent_eq (h : bind.Valid axes axisStrides width stride) :
    bind.extent = 1 + (reach axes axisStrides + (width - 1) * stride) := by
  rw [BindDescriptor.extent, h.dims, h.strides, reach_append h.rank]
  rfl

theorem dims_pos (h : bind.Valid axes axisStrides width stride) : 0 ∉ bind.dims := by
  rw [h.dims, List.mem_append, List.mem_singleton, not_or]
  exact ⟨h.axes_pos, Ne.symm h.width_pos⟩

theorem physicalSpan_eq (h : bind.Valid axes axisStrides width stride) :
    bind.physicalSpan = some bind.extent := by
  have hrank : bind.dims.length = bind.strides.length := by
    rw [h.dims, h.strides]
    simp [h.rank]
  rw [physicalSpan, if_neg (by simp [h.dims, ← hrank]), trySpan_eq_some_iff hrank]
  exact ⟨h.dims_pos, h.extent, rfl⟩

theorem elementCount_eq (h : bind.Valid axes axisStrides width stride) :
    bind.elementCount = some (axes.prod * width) := by
  have hcount := h.count
  rw [elementCount, foldlM_mulWord (by decide) h.dims_pos, h.dims, List.prod_append,
    List.prod_singleton]
  omega

theorem rows_eq (h : bind.Valid axes axisStrides width stride) :
    bind.dims.dropLast.foldlM mulWord 1 = some axes.prod := by
  have hle : axes.prod ≤ axes.prod * width :=
    Nat.le_mul_of_pos_right _ (Nat.pos_of_ne_zero h.width_pos)
  have hcount := h.count
  rw [h.dims, List.dropLast_concat, foldlM_mulWord (by decide) h.axes_pos]
  omega

end Valid

theorem of_checkedSpan {buffer : String} {length : Nat}
    (h : bind.checkedSpan buffer length = .ok ()) :
    bind.validate = .ok () ∧ bind.extent ≤ length := by
  simp only [checkedSpan, Lib.bind_ok_iff, okOr_eq_ok_iff, refuseIf_eq_ok_iff] at h
  obtain ⟨_, hvalidate, required, hspan, hlength⟩ := h
  obtain ⟨axes, axisStrides, width, stride, hvalid⟩ := valid_of_validate hvalidate
  rw [hvalid.physicalSpan_eq, Option.some.injEq] at hspan
  exact ⟨hvalidate, by omega⟩

end BindDescriptor

/-! ## The rows -/

/-- A turn of the loop that splits a row number into coordinates, from the last axis on:
    the remainder and the base so far. -/
def rowStep (axis state : Nat × Nat) : MayPanic (Nat × Nat) :=
  if axis.1 = 0 then none
  else some (state.1 / axis.1,
    saturatingAddWord state.2 (saturatingMulWord (state.1 % axis.1) axis.2))

/-- The remainder and the base of a row after the loop. -/
def rowBase (bind : BindDescriptor) (row : Nat) : MayPanic (Nat × Nat) :=
  (bind.dims.dropLast.zip bind.strides).foldrM rowStep (row, 0)

/-- `for_each_row`; what the closure captures is the accumulator. -/
def forEachRow (bind : BindDescriptor) (b : β) (visit : β → Nat → Nat → Nat → Nat → Body σ β) :
    Body σ β := do
  check bind.validate
  let rows ← check (okOr (bind.dims.dropLast.foldlM mulWord 1)
    (invalidBind "bind row count overflow"))
  foldRange rows b fun b row => do
    let base ← Call.value (rowBase bind row)
    let stride ← Call.value bind.strides[bind.dims.length - 1]?
    visit b row base.2 bind.width stride

theorem foldrM_rowStep {axes : List Nat} (strides : List Nat) (row : Nat) (hpos : 0 ∉ axes) :
    ∃ remainder base, (axes.zip strides).foldrM rowStep (row, 0) = some (remainder, base) ∧
      base ≤ reach axes strides := by
  induction axes generalizing strides with
  | nil => exact ⟨row, 0, rfl, Nat.zero_le _⟩
  | cons dim axes ih =>
    cases strides with
    | nil => exact ⟨row, 0, rfl, Nat.zero_le _⟩
    | cons stride strides =>
      rw [List.mem_cons, not_or] at hpos
      have hdim : dim ≠ 0 := Ne.symm hpos.1
      obtain ⟨remainder, base, hfold, hbase⟩ := ih strides hpos.2
      refine ⟨remainder / dim,
        saturatingAddWord base (saturatingMulWord (remainder % dim) stride), ?_, ?_⟩
      · rw [List.zip_cons_cons, List.foldrM_cons, hfold]
        exact if_neg hdim
      · have hdigit : remainder % dim < dim := Nat.mod_lt _ (Nat.pos_of_ne_zero hdim)
        have hterm := mul_le_span stride hdigit
        rw [reach_cons, saturatingAddWord, saturatingMulWord]
        omega

section Rows

variable {bind : BindDescriptor} {axes axisStrides : List Nat} {width stride : Nat}

theorem rowBase_eq (hvalid : bind.Valid axes axisStrides width stride) (row : Nat) :
    ∃ remainder base, rowBase bind row = some (remainder, base) ∧
      ∀ col < width, base + col * stride < bind.extent := by
  have hzip : bind.dims.dropLast.zip bind.strides = axes.zip axisStrides := by
    rw [hvalid.dims, hvalid.strides, List.dropLast_concat]
    conv_lhs => rw [← List.append_nil axes]
    rw [List.zip_append hvalid.rank, List.zip_nil_left, List.append_nil]
  obtain ⟨remainder, base, hfold, hbase⟩ := foldrM_rowStep axisStrides row hvalid.axes_pos
  refine ⟨remainder, base, by rw [rowBase, hzip, hfold], ?_⟩
  intro col hcol
  have hterm := mul_le_span stride hcol
  rw [hvalid.extent_eq]
  omega

theorem wp_forEachRow {b : β} {visit : β → Nat → Nat → Nat → Nat → Body σ β} {s : σ}
    {E : KernelBodyError → σ → Prop} (I : Nat → β → σ → Prop)
    (hvalidate : bind.validate = .ok ()) (hvalid : bind.Valid axes axisStrides width stride)
    (hvisit : ∀ row < axes.prod, ∀ base, (∀ col < width, base + col * stride < bind.extent) →
      ∀ b t, I row b t → wp False (visit b row base width stride) (I (row + 1)) E t)
    (h : I 0 b s) : wp False (forEachRow bind b visit) (I axes.prod) E s := by
  rw [forEachRow, hvalidate, hvalid.rows_eq]
  simp only [okOr, check_ok, pure_bind]
  refine wp_foldRange I ?_ h
  intro row hrow b t ht
  obtain ⟨remainder, base, hbase, hplace⟩ := rowBase_eq hvalid row
  have hlast : bind.strides[bind.dims.length - 1]? = some stride := by
    rw [hvalid.dims, hvalid.strides, List.length_append, List.length_singleton,
      Nat.add_sub_cancel, hvalid.rank]
    simp
  refine wp_of_value hbase ?_
  refine wp_of_value hlast ?_
  rw [hvalid.width_eq]
  exact hvisit row hrow base hplace b t ht

end Rows

/-- `ensure_output`. -/
def ensureOutput (bind : BindDescriptor) : Body (List F) Unit := do
  let output ← Call.get
  check (bind.checkedSpan "output" output.length)

/-! ## Residual and RMS norm -/

section Bodies

variable [F32 F]

/-- What `residual_rms_norm` does with a row. -/
def residualRmsRow (residual skip gamma : List F) (epsilon : F) (base width stride : Nat) :
    Body (List F) Unit := do
  let summed ← Call.value (zeroed width)
  let summed ← forEnumerated summed fun _ col => do
    let offset := base + col * stride
    let x ← fetch residual offset
    let y ← fetch skip offset
    pure (x + y)
  let sumsq := summed.foldl (fun sumsq value => sumsq + value * value) 0
  let mean := sumsq / F32.ofInt width
  let scale := 1 / F32.sqrt (mean + epsilon)
  forRange width fun col => do
    let offset := base + col * stride
    let value ← fetch summed col
    let factor ← fetch gamma col
    writeAt offset (value * scale * factor)

def residualRmsNorm (bind : BindDescriptor) (residual skip : List F) (gamma : Slice 4 F)
    (epsilon : F) : Body (List F) Unit := do
  check (refuseIf (F32.isFinite epsilon = false ∨ F32.le epsilon 0 = true) invalidEpsilon)
  check (bind.checkedSpan "residual" residual.length)
  check (bind.checkedSpan "skip" skip.length)
  ensureOutput bind
  check (refuseIf (gamma.toList.length < bind.width)
    (bufferTooShort "gamma" bind.width gamma.toList.length))
  forEachRow bind () fun _ _ base width stride =>
    residualRmsRow residual skip gamma.toList epsilon base width stride

/-! ## RoPE -/

/-- The table of each row, or one table for all of them. -/
def ropeTables (rows pairs cosLength sinLength : Nat) : Except KernelBodyError Bool :=
  if cosLength = pairs ∧ sinLength = pairs then .ok false
  else if cosLength = saturatingMulWord rows pairs ∧ sinLength = saturatingMulWord rows pairs then
    .ok true
  else .error invalidRopeTable

/-- What `rope` does with an element of a row. -/
def ropeColumn (input cos sin : List F) (dim : Nat) (rotateHalf : Bool)
    (tableBase base stride col : Nat) : Body (List F) Unit := do
  let pairs := dim / 2
  let offset := base + col * stride
  if dim ≤ col then
    let x ← fetch input offset
    writeAt offset x
  else
    let pair ← Call.value (if rotateHalf then
      if pairs = 0 then none else some (col % pairs) else some (col / 2))
    let cosT ← fetch cos (tableBase + pair)
    let sinT ← fetch sin (tableBase + pair)
    if rotateHalf then
      if col < pairs then
        let x0 ← fetch input (base + col * stride)
        let x1 ← fetch input (base + (col + pairs) * stride)
        writeAt offset (x0 * cosT - x1 * sinT)
      else
        let x0 ← fetch input (base + (col - pairs) * stride)
        let x1 ← fetch input offset
        writeAt offset (x0 * sinT + x1 * cosT)
    else if col % 2 = 0 then
      let x0 ← fetch input offset
      let x1 ← fetch input (base + (col + 1) * stride)
      writeAt offset (x0 * cosT - x1 * sinT)
    else
      let x0 ← fetch input (base + (col - 1) * stride)
      let x1 ← fetch input offset
      writeAt offset (x0 * sinT + x1 * cosT)

def rope (bind : BindDescriptor) (input cos sin : List F) : Body (List F) Unit := do
  check (bind.checkedSpan "input" input.length)
  ensureOutput bind
  let rotated ← check (okOr bind.layout.rotated (shapeMismatch "rope bind has no rope layout"))
  let pairs := rotated.1 / 2
  let count ← check (okOr bind.elementCount (invalidBind "rope element count overflow"))
  let rows ← Call.value (if bind.width = 0 then none else some (count / bind.width))
  let perRowTables ← check (ropeTables rows pairs cos.length sin.length)
  let rowNumber ← forEachRow bind 0 fun rowNumber _ base rowWidth stride => do
    let tableBase ← Call.value (if perRowTables then mulWord rowNumber pairs else some 0)
    forRange rowWidth fun col =>
      ropeColumn input cos sin rotated.1 rotated.2 tableBase base stride col
    Call.value (addWord rowNumber 1)
  -- `debug_assert_eq!(row_number, rows)`
  Call.value (if rowNumber = rows then some () else none)

/-! ## The bodies end with the output whole or untouched -/

variable {bind : BindDescriptor} {output : List F}

omit [F32 F] in
theorem ensureOutput_wp : wp False (ensureOutput bind)
    (fun _ after => after = output ∧ bind.extent ≤ output.length)
    (fun _ after => after = output) output := by
  rw [ensureOutput, Call.wp_bind, wp_get]
  cases hspan : bind.checkedSpan "output" output.length with
  | error e => exact rfl
  | ok u => exact ⟨rfl, (BindDescriptor.of_checkedSpan hspan).2⟩

theorem residualRmsRow_wp {residual skip gamma : List F} {epsilon : F} {base width stride : Nat}
    {E : KernelBodyError → List F → Prop} (hword : bind.extent ≤ wordMax)
    (hresidual : bind.extent ≤ residual.length) (hskip : bind.extent ≤ skip.length)
    (houtput : bind.extent ≤ output.length) (hgamma : width ≤ gamma.length)
    (halloc : 4 * width ≤ isizeMax) (hplace : ∀ col < width, base + col * stride < bind.extent) :
    wp False (residualRmsRow residual skip gamma epsilon base width stride)
      (fun _ after => after.length = output.length) E output := by
  have hmax : wordMax = 2 ^ 64 - 1 := rfl
  have hisize : isizeMax = 2 ^ 63 - 1 := rfl
  refine wp_of_value (zeroed_of_le halloc) ?_
  refine (forEnumerated_length ?_).wp_bind fun summed hsummed => ?_
  · intro value col hcol
    rw [List.length_replicate] at hcol
    have hoffset := hplace col hcol
    refine (fetch_gives (by omega) (by omega)).bind fun x _ => ?_
    exact (fetch_gives (by omega) (by omega)).bind fun y _ => .pure trivial
  · rw [List.length_replicate] at hsummed
    refine wp_forRange (fun _ (after : List F) => after.length = output.length) ?_ rfl
    intro col hcol after hafter
    have hoffset := hplace col hcol
    refine (fetch_gives (by omega) (by omega)).wp_bind fun value _ => ?_
    refine (fetch_gives (by omega) (by omega)).wp_bind fun factor _ => ?_
    exact wp_writeAt (by omega) (by omega) (by rw [List.length_set, hafter])

theorem residualRmsNorm_wp (bind : BindDescriptor) (residual skip : List F) (gamma : Slice 4 F)
    (epsilon : F) (output : List F) :
    wp False (residualRmsNorm bind residual skip gamma epsilon)
      (fun _ after => after.length = output.length) (fun _ after => after = output) output := by
  refine wp_of_check ?_ fun _ _ => rfl
  intro _ _
  refine wp_of_check ?_ fun _ _ => rfl
  intro _ hresidual
  refine wp_of_check ?_ fun _ _ => rfl
  intro _ hskip
  obtain ⟨hvalidate, hresidual⟩ := BindDescriptor.of_checkedSpan hresidual
  obtain ⟨-, hskip⟩ := BindDescriptor.of_checkedSpan hskip
  obtain ⟨axes, axisStrides, width, stride, hvalid⟩ := BindDescriptor.valid_of_validate hvalidate
  rw [Call.wp_bind]
  refine wp_mono ensureOutput_wp ?_ fun _ _ h => h
  intro _ after hensured
  obtain ⟨rfl, houtput⟩ := hensured
  refine wp_of_check ?_ fun _ _ => rfl
  intro _ hgamma
  rw [refuseIf_eq_ok_iff, hvalid.width_eq, Nat.not_lt] at hgamma
  have halloc := gamma.fits
  refine wp_mono (E := fun _ _ => False) (wp_forEachRow
    (fun _ _ (reached : List F) => reached.length = after.length) hvalidate hvalid ?_ rfl)
    (fun _ _ h => h) fun _ _ h => h.elim
  intro row _ base hplace _ reached hreached
  rw [← hreached]
  exact residualRmsRow_wp hvalid.extent hresidual hskip (by omega) hgamma (by omega) hplace

theorem ropeTables_ok {rows pairs cosLength sinLength : Nat} {perRowTables : Bool}
    (hword : rows * pairs ≤ wordMax)
    (h : ropeTables rows pairs cosLength sinLength = .ok perRowTables) {row pair : Nat}
    (hrow : row < rows) (hpair : pair < pairs) :
    (if perRowTables then row * pairs else 0) + pair < cosLength ∧
      (if perRowTables then row * pairs else 0) + pair < sinLength ∧
      (if perRowTables then row * pairs else 0) + pair ≤ wordMax := by
  have hplace := row_place_lt hrow hpair
  have hsaturated : saturatingMulWord rows pairs = rows * pairs := Nat.min_eq_left hword
  rw [ropeTables, hsaturated] at h
  split at h
  · cases h
    simp only [Bool.false_eq_true, if_false]
    omega
  · split at h
    · cases h
      simp only [if_true]
      omega
    · cases h

theorem ropeColumn_wp {input cos sin : List F} {dim width tableBase base stride col : Nat}
    {rotateHalf : Bool} {E : KernelBodyError → List F → Prop} (hword : bind.extent ≤ wordMax)
    (hinput : bind.extent ≤ input.length) (houtput : bind.extent ≤ output.length)
    (hdim : dim ≠ 0 ∧ dim % 2 = 0 ∧ dim ≤ width)
    (htables : ∀ pair < dim / 2, tableBase + pair < cos.length ∧ tableBase + pair < sin.length ∧
      tableBase + pair ≤ wordMax)
    (hplace : ∀ col < width, base + col * stride < bind.extent) (hcol : col < width) :
    wp False (ropeColumn input cos sin dim rotateHalf tableBase base stride col)
      (fun _ after => after.length = output.length) E output := by
  have hoffset := hplace col hcol
  have hwrite : ∀ value : F, wp False (writeAt (base + col * stride) value)
      (fun _ after => after.length = output.length) E output := fun value =>
    wp_writeAt (by omega) (by omega) List.length_set
  have hread : ∀ other < width, Gives (fetch input (base + other * stride) : Body (List F) F)
      fun _ => True := by
    intro other hother
    have hplace := hplace other hother
    exact (fetch_gives (by omega) (by omega)).mono fun _ _ => trivial
  unfold ropeColumn
  by_cases hpast : dim ≤ col
  · simp only [hpast, if_true]
    exact (hread col hcol).wp_bind fun x _ => hwrite x
  · simp only [hpast, if_false]
    -- the pair of the column, whichever way the columns pair up
    have hpair : ∃ pair < dim / 2, (if rotateHalf then
        if dim / 2 = 0 then none else some (col % (dim / 2)) else some (col / 2)) = some pair := by
      cases rotateHalf with
      | false => exact ⟨col / 2, by omega, rfl⟩
      | true => exact ⟨col % (dim / 2), Nat.mod_lt _ (by omega), (if_pos rfl).trans (if_neg (by omega))⟩
    obtain ⟨pair, hpair, hanswer⟩ := hpair
    obtain ⟨hcos, hsin, htable⟩ := htables pair hpair
    refine wp_of_value hanswer ?_
    refine (fetch_gives hcos htable).wp_bind fun cosT _ => ?_
    refine (fetch_gives hsin htable).wp_bind fun sinT _ => ?_
    cases rotateHalf with
    | true =>
      by_cases hlow : col < dim / 2
      · simp only [if_true, hlow]
        refine (hread col hcol).wp_bind fun x0 _ => ?_
        exact (hread (col + dim / 2) (by omega)).wp_bind fun x1 _ => hwrite _
      · simp only [if_true, hlow, if_false]
        refine (hread (col - dim / 2) (by omega)).wp_bind fun x0 _ => ?_
        exact (hread col hcol).wp_bind fun x1 _ => hwrite _
    | false =>
      by_cases heven : col % 2 = 0
      · simp only [Bool.false_eq_true, if_false, heven, if_true]
        refine (hread col hcol).wp_bind fun x0 _ => ?_
        exact (hread (col + 1) (by omega)).wp_bind fun x1 _ => hwrite _
      · simp only [Bool.false_eq_true, if_false, heven]
        refine (hread (col - 1) (by omega)).wp_bind fun x0 _ => ?_
        exact (hread col hcol).wp_bind fun x1 _ => hwrite _

theorem rope_wp (bind : BindDescriptor) (input cos sin output : List F) :
    wp False (rope bind input cos sin) (fun _ after => after.length = output.length)
      (fun _ after => after = output) output := by
  refine wp_of_check ?_ fun _ _ => rfl
  intro _ hinput
  obtain ⟨hvalidate, hinput⟩ := BindDescriptor.of_checkedSpan hinput
  obtain ⟨axes, axisStrides, width, stride, hvalid⟩ := BindDescriptor.valid_of_validate hvalidate
  rw [Call.wp_bind]
  refine wp_mono ensureOutput_wp ?_ fun _ _ h => h
  intro _ after hensured
  obtain ⟨rfl, houtput⟩ := hensured
  refine wp_of_check ?_ fun _ _ => rfl
  intro rotated hrotated
  rw [okOr_eq_ok_iff] at hrotated
  obtain ⟨hdim, heven, hwidth⟩ := hvalid.rotated rotated hrotated
  simp only [hvalid.elementCount_eq, okOr, check_ok, pure_bind]
  have hrows : (if bind.width = 0 then none else some (axes.prod * width / bind.width)) =
      some axes.prod := by
    rw [hvalid.width_eq, if_neg hvalid.width_pos,
      Nat.mul_div_cancel _ (Nat.pos_of_ne_zero hvalid.width_pos)]
  refine wp_of_value hrows ?_
  refine wp_of_check ?_ fun _ _ => rfl
  intro perRowTables htables
  have hcount := hvalid.count
  have hpairs : axes.prod * (rotated.1 / 2) ≤ axes.prod * width :=
    Nat.mul_le_mul_left _ (by omega)
  rw [Call.wp_bind]
  refine wp_mono (E := fun _ _ => False) (wp_forEachRow (fun row rowNumber (reached : List F) =>
    rowNumber = row ∧ reached.length = after.length) hvalidate hvalid ?_ ⟨rfl, rfl⟩) ?_
    fun _ _ h => h.elim
  · intro row hrow base hplace rowNumber reached hreached
    obtain ⟨rfl, hlength⟩ := hreached
    have hstart : rowNumber * (rotated.1 / 2) ≤ axes.prod * (rotated.1 / 2) :=
      Nat.mul_le_mul_right _ (Nat.le_of_lt hrow)
    have htableBase : (if perRowTables then mulWord rowNumber (rotated.1 / 2) else some 0) =
        some (if perRowTables then rowNumber * (rotated.1 / 2) else 0) := by
      cases perRowTables with
      | false => rfl
      | true => exact word_of_le (by omega)
    have hprod : axes.prod ≤ axes.prod * width :=
      Nat.le_mul_of_pos_right _ (Nat.pos_of_ne_zero hvalid.width_pos)
    refine wp_of_value htableBase ?_
    rw [Call.wp_bind]
    refine wp_mono (E := fun _ _ => False) (wp_forRange
      (fun _ (reached : List F) => reached.length = after.length) ?_ hlength) ?_
      fun _ _ h => h.elim
    · intro col hcol reached hreached
      rw [← hreached]
      exact ropeColumn_wp hvalid.extent hinput (by omega) ⟨hdim, heven, hwidth⟩
        (fun pair hpair => ropeTables_ok (by omega) htables hrow hpair) hplace hcol
    · intro _ reached hreached
      have hnext : addWord rowNumber 1 = some (rowNumber + 1) := word_of_le (by omega)
      rw [hnext]
      exact ⟨rfl, hreached⟩
  · intro rowNumber reached hreached
    rw [if_pos hreached.1]
    exact hreached.2

end Bodies

end FaberHosts.Library
