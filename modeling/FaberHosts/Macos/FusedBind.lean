import FaberHosts.Library.Qkv
import FaberHosts.Macos.ProgramSession

/-!
# Fused Q/K/V binds

A fused projection names its buffers when the session is created (`build_fused_qkv_plan`).
The width of its keys and values is found at dispatch, among candidates that the extents of
the buffers suggest: `finalize_fused_bind` binds the first one that fits.
-/

namespace FaberHosts.Macos
open FaberHosts.Lib FaberHosts.Coordinator FaberHosts.Descriptor FaberHosts.Session
open FaberHosts.Library

/-! ## The plan -/

/-- `PackedStorageFormat`. -/
inductive PackedStorageFormat where
  | f32
  | f16
  | bf16
  | q8_0
  | q4K
  | q5K
  | q6K
  | q5_0
  | mxfp4
  deriving DecidableEq

def PackedStorageFormat.ggmlTypeId : PackedStorageFormat → UInt32
  | f32 => 0
  | f16 => 1
  | q5_0 => 6
  | q8_0 => 8
  | q4K => 12
  | q5K => 13
  | q6K => 14
  | bf16 => 30
  | mxfp4 => 39

structure FusedQkvSlot where
  key : BufferKey
  binding : UInt32
  dtype : DeviceDataType
  elementCount : UInt64
  deriving DecidableEq

def FusedQkvSlot.count (slot : FusedQkvSlot) : Nat := slot.elementCount.toNat

/-- `[q, k, v]`. -/
structure QkvSlots (α : Type) where
  q : α
  k : α
  v : α
  deriving DecidableEq

structure FusedQkvPlan where
  rows : Nat
  hidden : Nat
  qWidth : Nat
  headDim : Nat
  grid : Axes
  kvCacheTarget : Bool
  activation : FusedQkvSlot
  weights : QkvSlots FusedQkvSlot
  biases : QkvSlots (Option FusedQkvSlot)
  rope : Option (FusedQkvSlot × FusedQkvSlot)
  outputs : QkvSlots FusedQkvSlot
  cursor : Option FusedQkvSlot
  deriving DecidableEq

structure FusedAttentionAxes where
  headDim : UInt64

/-- `str::ends_with`. -/
def endsWith (name ending : String) : Bool := ending.toList.isSuffixOf name.toList

/-- `str::starts_with`. -/
def startsWith (name start : String) : Bool := start.toList.isPrefixOf name.toList

def fusedSlot (slots : List SessionSlot) (predicate : SessionSlot → Bool) : Option FusedQkvSlot :=
  (slots.find? predicate).map fun slot =>
    ⟨slot.key, slot.binding, slot.elementTy, slot.elementCount⟩

/-- The first `f32` slot whose name has the ending. -/
def floatSlot (slots : List SessionSlot) (ending : String) : Option FusedQkvSlot :=
  fusedSlot slots fun slot => endsWith slot.bufferName ending && slot.elementTy = .f32

/-- The first `f32` slot of the name. -/
def namedSlot (slots : List SessionSlot) (name : String) : Option FusedQkvSlot :=
  fusedSlot slots fun slot => slot.bufferName = name && slot.elementTy = .f32

/-- The first dense or packed slot whose name has the ending. -/
def weightSlot (slots : List SessionSlot) (ending : String) : Option FusedQkvSlot :=
  fusedSlot slots fun slot =>
    endsWith slot.bufferName ending && (slot.elementTy = .f32 || slot.elementTy = .u8)

/-- The first `f32` slot that a kernel writes and that is of the cache or of a projection. -/
def targetSlot (slots : List SessionSlot) (cache ending : String) : Option FusedQkvSlot :=
  fusedSlot slots fun slot =>
    (startsWith slot.bufferName cache || endsWith slot.bufferName ending) &&
      slot.elementTy = .f32 && slot.role ≠ .input

def unresolvable (entry fact : String) : HostError :=
  .invalidArgs s!"fused QkvProjection kernel `{entry}` has unresolvable {fact}"

/-- What `build_fused_qkv_plan` makes of an entry it recognizes. -/
def recognizeFusedQkv (entry : String) (slots : List SessionSlot)
    (bufferMeta : BTreeMap BufferKey SessionBufferMeta) (axes : Option FusedAttentionAxes)
    (grid : Axes) : Except HostError FusedQkvPlan := do
  let axes ← okOr axes (.invalidArgs (s!"fused QkvProjection kernel `{entry}` has no " ++
    "authoritative attention axes: the session owner must carry head_dim explicitly; " ++
    "refusing rather than degrading to the Q-only carrier"))
  let headDim := axes.headDim.toNat
  refuseIf (headDim = 0 ∨ headDim % 2 ≠ 0)
    (unresolvable entry "attention head width (must be a nonzero even element count)")
  let activation ← okOr (floatSlot slots ".a") (unresolvable entry "activation slot")
  let qWeight ← okOr (weightSlot slots ".attn_q.weight") (unresolvable entry "q weight slot")
  let kWeight ← okOr (weightSlot slots ".attn_k.weight") (unresolvable entry "k weight slot")
  let vWeight ← okOr (weightSlot slots ".attn_v.weight") (unresolvable entry "v weight slot")
  let qOutput ← okOr (floatSlot slots ".q_gemv") (unresolvable entry "q output slot")
  let kOutput ← okOr (targetSlot slots "kv.cache_k." ".k_gemv")
    (unresolvable entry "k output slot")
  let vOutput ← okOr (targetSlot slots "kv.cache_v." ".v_gemv")
    (unresolvable entry "v output slot")
  let cos := namedSlot slots "prefill.rope.cos"
  let sin := namedSlot slots "prefill.rope.sin"
  refuseIf (cos.isSome ≠ sin.isSome)
    (unresolvable entry "rope pairing (cos without sin or vice versa)")
  refuseIf (∃ table ∈ cos, sin.isSome = true ∧ (table.count = 0 ∨ table.count % (headDim / 2) ≠ 0))
    (unresolvable entry "rope table shape (element count is not whole head_dim/2 rows)")
  let biases : QkvSlots (Option FusedQkvSlot) := ⟨floatSlot slots ".attn_q.bias",
    floatSlot slots ".attn_k.bias", floatSlot slots ".attn_v.bias"⟩
  let present := [biases.q.isSome, biases.k.isSome, biases.v.isSome]
  refuseIf (true ∈ present ∧ false ∈ present)
    (unresolvable entry "bias set (some present, some absent)")
  let norm := bufferMeta.values.find? fun info => endsWith info.name ".attn_norm.weight"
  let norm ← okOr (norm.filter fun info => info.elementTy = .f32)
    (unresolvable entry "hidden width (no attn_norm weight fact)")
  let hidden := norm.elementCount.toNat
  refuseIf (hidden = 0 ∨ activation.count % hidden ≠ 0)
    (unresolvable entry "activation geometry (not whole hidden-width rows)")
  let rows := activation.count / hidden
  refuseIf (rows = 0 ∨ qOutput.count = 0 ∨ qOutput.count % rows ≠ 0 ∨
      kOutput.count ≠ vOutput.count ∨ kOutput.count = 0 ∨ kWeight.count = 0 ∨ vWeight.count = 0)
    (unresolvable entry "row/output geometry")
  let qWidth := qOutput.count / rows
  refuseIf (qWidth = 0 ∨ qWidth % headDim ≠ 0) (unresolvable entry
    s!"q width grouping (q_width {qWidth} is not a whole multiple of head_dim {headDim})")
  refuseIf (kOutput.key = vOutput.key ∨ kOutput.binding = vOutput.binding)
    (unresolvable entry "k/v output separation")
  let kvCacheTarget := slots.any fun slot =>
    slot.key = kOutput.key && startsWith slot.bufferName "kv.cache_k."
  pure ⟨rows, hidden, qWidth, headDim, grid, kvCacheTarget, activation,
    ⟨qWeight, kWeight, vWeight⟩, biases, cos.bind fun cos => sin.map fun sin => (cos, sin),
    ⟨qOutput, kOutput, vOutput⟩, fusedSlot slots fun slot => slot.bufferName = "kv.invocation_state"⟩

def buildFusedQkvPlan (entry : String) (slots : List SessionSlot)
    (bufferMeta : BTreeMap BufferKey SessionBufferMeta) (axes : Option FusedAttentionAxes)
    (grid : Axes) : Except HostError (Option FusedQkvPlan) :=
  if endsWith entry "_QkvProjection" then
    (recognizeFusedQkv entry slots bufferMeta axes grid).map some
  else .ok none

/-- What the builder establishes of a plan. -/
structure FusedQkvPlan.Formed (plan : FusedQkvPlan) : Prop where
  hidden_pos : plan.hidden ≠ 0
  headDim_pos : plan.headDim ≠ 0
  qWidth_pos : plan.qWidth ≠ 0
  heads : plan.qWidth % plan.headDim = 0
  activation : plan.activation.count = plan.rows * plan.hidden
  qOutput : plan.outputs.q.count = plan.rows * plan.qWidth
  kOutput_pos : plan.outputs.k.count ≠ 0

theorem formed_of_build {entry : String} {slots : List SessionSlot}
    {bufferMeta : BTreeMap BufferKey SessionBufferMeta} {axes : Option FusedAttentionAxes}
    {grid : Axes} {plan : FusedQkvPlan}
    (h : buildFusedQkvPlan entry slots bufferMeta axes grid = .ok (some plan)) :
    plan.Formed := by
  have hplan : recognizeFusedQkv entry slots bufferMeta axes grid = .ok plan := by
    unfold buildFusedQkvPlan at h
    split at h
    · cases hrecognized : recognizeFusedQkv entry slots bufferMeta axes grid with
      | error e =>
        rw [hrecognized] at h
        cases h
      | ok recognized =>
        rw [hrecognized] at h
        cases h
        rfl
    · cases h
  simp only [recognizeFusedQkv, Lib.bind_ok_iff, okOr_eq_ok_iff, refuseIf_eq_ok_iff, not_or,
    Decidable.not_not] at hplan
  obtain ⟨axes, -, _, ⟨hheadDim, -⟩, activation, -, qWeight, -, kWeight, -, vWeight, -, qOutput, -,
    kOutput, -, vOutput, -, _, -, _, -, _, -, norm, -, _, ⟨hhidden, hactivation⟩, _,
    ⟨-, -, hqOutput, -, hkOutput, -, -⟩, _, ⟨hqWidth, hheads⟩, _, -, hplan⟩ := hplan
  cases hplan
  exact ⟨hhidden, hheadDim, hqWidth, hheads, (Nat.div_mul_cancel (Nat.dvd_of_mod_eq_zero
    hactivation)).symm, (Nat.mul_div_cancel' (Nat.dvd_of_mod_eq_zero hqOutput)).symm, hkOutput⟩

/-! ## The bind -/

abbrev PackedFormats : Type := BTreeMap UInt32 PackedStorageFormat

/-- The format of a slot's packed bytes, if they are known. -/
def quantized (formats : PackedFormats) (slot : FusedQkvSlot) : Option QuantizedFormat :=
  formats[slot.key.1]?.bind fun format => QuantizedFormat.fromGgmlTypeId format.ggmlTypeId

def fusedPackedRowBytes (hidden : Nat) (format : QuantizedFormat) : Option Nat := do
  let padding ← subWord format.blockElements 1
  let padded ← addWord hidden padding
  let rowBytes ← mulWord (padded / format.blockElements) format.blockBytes
  if 0 < rowBytes then some rowBytes else none

def fusedPackedWidth (slot : FusedQkvSlot) (hidden : Nat) (format : QuantizedFormat) :
    Option Nat := do
  let rowBytes ← fusedPackedRowBytes hidden format
  let bytes ← mulWord slot.count 4
  if bytes % rowBytes ≠ 0 then none else some (bytes / rowBytes)

/-- Whether the extent of a weight region is that of so many columns: of packed bytes where
    their format is known, and of dense elements else. -/
def regionHolds (formats : PackedFormats) (hidden : Nat) (slot : FusedQkvSlot) (width : Nat) :
    MayPanic Bool :=
  match quantized formats slot with
  | some format => some (fusedPackedWidth slot hidden format = some width)
  | none => (mulWord hidden width).map fun elements => slot.count = elements

namespace FusedQkvPlan

/-- The K/V widths that the K bias, the K output and the K weight suggest, in this order. -/
def candidates (plan : FusedQkvPlan) (formats : PackedFormats) : List Nat :=
  (plan.biases.k.map FusedQkvSlot.count).toList ++
  (if plan.kvCacheTarget = false ∧ plan.outputs.k.count % plan.rows = 0 then
    [plan.outputs.k.count / plan.rows] else []) ++
  match quantized formats plan.weights.k with
  | some format => (fusedPackedWidth plan.weights.k plan.hidden format).toList
  | none =>
    if plan.weights.k.count % plan.hidden = 0 then [plan.weights.k.count / plan.hidden] else []

/-- The width makes whole heads, whole groups of queries and whole rows of the K output. -/
def Groups (plan : FusedQkvPlan) (kvWidth : Nat) : Prop :=
  kvWidth ≠ 0 ∧ kvWidth % plan.headDim = 0 ∧ plan.qWidth % kvWidth = 0 ∧
    plan.outputs.k.count % kvWidth = 0

instance (plan : FusedQkvPlan) (kvWidth : Nat) : Decidable (plan.Groups kvWidth) :=
  inferInstanceAs (Decidable (_ ∧ _))

/-- The bind of a width. -/
def bindOf (plan : FusedQkvPlan) (kvWidth : Nat) : QkvProjectionBind :=
  let kvCapacity := plan.outputs.k.count / kvWidth
  { QkvProjectionBind.grouped plan.rows plan.hidden (kvWidth / plan.headDim) (plan.qWidth / kvWidth)
      plan.headDim #v[plan.grid.x, plan.grid.y, plan.grid.z] with
    kvOutputStrides := #v[saturatingMulWord kvCapacity plan.headDim, plan.headDim, 1] }

/-- A turn of the loop over the candidates: `none` goes on to the next one. -/
def tryWidth (plan : FusedQkvPlan) (formats : PackedFormats) (kvWidth : Nat) :
    MayPanic (Option QkvProjectionBind) :=
  if plan.Groups kvWidth then
    match regionHolds formats plan.hidden plan.weights.q plan.qWidth with
    | none => none
    | some false => some none
    | some true =>
      match regionHolds formats plan.hidden plan.weights.v kvWidth with
      | none => none
      | some false => some none
      | some true =>
        if kvWidth / plan.headDim = 0 ∨ plan.qWidth / kvWidth = 0 ∨
          plan.outputs.k.count / kvWidth = 0 then some none
        else some (some (plan.bindOf kvWidth))
  else some none

/-- `{:?}` of the spelling of the K format. -/
def spelledFormat (plan : FusedQkvPlan) (formats : PackedFormats) : String :=
  match quantized formats plan.weights.k with
  | none => "None"
  | some format => "Some(\"" ++ format.spelling ++ "\")"

/-- No candidate fits; the byte count of the message is not checked. -/
def noWidth (plan : FusedQkvPlan) (formats : PackedFormats) : MayPanic HostError :=
  (mulWord plan.weights.k.count 4).map fun bytes =>
    .invalidArgs (s!"fused QKV plan has no unambiguous KV width (rows {plan.rows}, " ++
      s!"hidden {plan.hidden}, q_width {plan.qWidth}, head_dim {plan.headDim}, " ++
      s!"k bytes {bytes}, packed k format {plan.spelledFormat formats})")

/-- The loop of `finalize_fused_bind`. -/
def firstBind (plan : FusedQkvPlan) (formats : PackedFormats) :
    List Nat → MayPanic (Except HostError QkvProjectionBind)
  | [] => (plan.noWidth formats).map .error
  | kvWidth :: rest =>
    match plan.tryWidth formats kvWidth with
    | none => none
    | some (some found) => some (.ok found)
    | some none => plan.firstBind formats rest

end FusedQkvPlan

def finalizeFusedBind (plan : FusedQkvPlan) (formats : PackedFormats) :
    MayPanic (Except HostError QkvProjectionBind) :=
  plan.firstBind formats (plan.candidates formats)

/-! ## What a candidate has to meet -/

section Candidates

variable {plan : FusedQkvPlan} {formats : PackedFormats} {width : Nat}

theorem regionHolds_unique {hidden other : Nat} {slot : FusedQkvSlot} (hhidden : hidden ≠ 0)
    (hwidth : regionHolds formats hidden slot width = some true)
    (hother : regionHolds formats hidden slot other = some true) : width = other := by
  unfold regionHolds at hwidth hother
  cases hformat : quantized formats slot with
  | some format =>
    simp only [hformat, Option.some.injEq, decide_eq_true_eq] at hwidth hother
    rw [hwidth] at hother
    exact Option.some.inj hother
  | none =>
    simp only [hformat, Option.map_eq_some_iff, mulWord_eq_some_iff,
      decide_eq_true_eq] at hwidth hother
    obtain ⟨_, ⟨-, rfl⟩, hcount⟩ := hwidth
    obtain ⟨_, ⟨-, rfl⟩, hother⟩ := hother
    exact Nat.eq_of_mul_eq_mul_left (Nat.pos_of_ne_zero hhidden) (hcount.symm.trans hother)

/-- The checks of the loop: the width groups and the regions of Q and V have the extents it
    calls for. -/
structure FusedQkvPlan.Fits (plan : FusedQkvPlan) (formats : PackedFormats) (width : Nat) : Prop where
  groups : plan.Groups width
  q : regionHolds formats plan.hidden plan.weights.q plan.qWidth = some true
  v : regionHolds formats plan.hidden plan.weights.v width = some true

theorem FusedQkvPlan.Fits.unique {other : Nat} (hformed : plan.Formed)
    (hwidth : plan.Fits formats width) (hother : plan.Fits formats other) : width = other :=
  regionHolds_unique hformed.hidden_pos hwidth.v hother.v

theorem div_ne_zero_of_mod {total part : Nat} (htotal : total ≠ 0) (h : total % part = 0) :
    total / part ≠ 0 := by
  intro hzero
  have hwhole := Nat.div_add_mod total part
  rw [hzero, h, Nat.mul_zero] at hwhole
  omega

theorem tryWidth_eq_bind_iff (hformed : plan.Formed) {bind : QkvProjectionBind} :
    plan.tryWidth formats width = some (some bind) ↔
      plan.Fits formats width ∧ plan.bindOf width = bind := by
  constructor
  · intro h
    unfold FusedQkvPlan.tryWidth at h
    split at h
    · rename_i hgroups
      split at h
      · cases h
      · cases h
      · rename_i hq
        split at h
        · cases h
        · cases h
        · rename_i hv
          split at h
          · cases h
          · cases h
            exact ⟨⟨hgroups, hq, hv⟩, rfl⟩
    · cases h
  · intro h
    obtain ⟨⟨hgroups, hq, hv⟩, rfl⟩ := h
    have hnonzero : ¬(width / plan.headDim = 0 ∨ plan.qWidth / width = 0 ∨
        plan.outputs.k.count / width = 0) := by
      obtain ⟨hpos, hheads, hqueries, hrows⟩ := hgroups
      simp only [not_or]
      exact ⟨div_ne_zero_of_mod hpos hheads, div_ne_zero_of_mod hformed.qWidth_pos hqueries,
        div_ne_zero_of_mod hformed.kOutput_pos hrows⟩
    simp only [FusedQkvPlan.tryWidth, if_pos hgroups, hq, hv, if_neg hnonzero]

/-- The loop panics on a width where a product of the checks it comes to overflows. -/
theorem tryWidth_eq_none_iff : plan.tryWidth formats width = none ↔ plan.Groups width ∧
    (regionHolds formats plan.hidden plan.weights.q plan.qWidth = none ∨
      regionHolds formats plan.hidden plan.weights.q plan.qWidth = some true ∧
        regionHolds formats plan.hidden plan.weights.v width = none) := by
  by_cases hgroups : plan.Groups width
  · rw [FusedQkvPlan.tryWidth, if_pos hgroups]
    match hq : regionHolds formats plan.hidden plan.weights.q plan.qWidth with
    | none => simp [hgroups]
    | some false => simp
    | some true =>
      match hv : regionHolds formats plan.hidden plan.weights.v width with
      | none => simp [hgroups]
      | some false => simp
      | some true =>
        simp only [reduceCtorEq, and_false, or_self, iff_false]
        split
        · exact fun h => by cases h
        · exact fun h => by cases h
  · rw [FusedQkvPlan.tryWidth, if_neg hgroups]
    simp [hgroups]

/-- What the loop ends with at a width, if it ends there: a panic or a bind. -/
def FusedQkvPlan.ending (plan : FusedQkvPlan) (formats : PackedFormats) (width : Nat) :
    Option (MayPanic QkvProjectionBind) :=
  match plan.tryWidth formats width with
  | none => some none
  | some (some found) => some (some found)
  | some none => none

theorem ending_eq_panic_iff :
    plan.ending formats width = some none ↔ plan.tryWidth formats width = none := by
  unfold FusedQkvPlan.ending
  split <;> simp_all

theorem ending_eq_bind_iff {found : QkvProjectionBind} :
    plan.ending formats width = some (some found) ↔
      plan.tryWidth formats width = some (some found) := by
  unfold FusedQkvPlan.ending
  split <;> simp_all

theorem firstBind_eq (widths : List Nat) : plan.firstBind formats widths =
    match widths.findSome? (plan.ending formats) with
    | some ended => ended.map .ok
    | none => (plan.noWidth formats).map .error := by
  induction widths with
  | nil => rfl
  | cons width rest ih =>
    rw [FusedQkvPlan.firstBind, List.findSome?_cons, FusedQkvPlan.ending]
    match plan.tryWidth formats width with
    | none => rfl
    | some (some found) => rfl
    | some none => exact ih

theorem fits_of_firstBind (hformed : plan.Formed) {widths : List Nat} {found : QkvProjectionBind}
    (h : plan.firstBind formats widths = some (.ok found)) :
    ∃ width ∈ widths, plan.Fits formats width ∧ plan.bindOf width = found := by
  rw [firstBind_eq] at h
  cases hfirst : widths.findSome? (plan.ending formats) with
  | none =>
    rw [hfirst] at h
    cases hrefused : plan.noWidth formats with
    | none => simp [hrefused] at h
    | some e => simp [hrefused] at h
  | some ended =>
    obtain ⟨width, hwidth, hended⟩ := List.exists_of_findSome?_eq_some hfirst
    rw [hfirst] at h
    cases ended with
    | none => cases h
    | some bound =>
      cases h
      exact ⟨width, hwidth,
        (tryWidth_eq_bind_iff hformed).mp (ending_eq_bind_iff.mp hended)⟩

end Candidates

/-! ## Binds that agree with every region -/

section Consistency

variable {plan : FusedQkvPlan} {formats : PackedFormats} {width : Nat}

/-- The dimensions of the bind are those of the extents of the activation, of the Q output
    and of the three weights under their formats. -/
structure FusedQkvPlan.Agrees (plan : FusedQkvPlan) (formats : PackedFormats)
    (bind : QkvProjectionBind) : Prop where
  activation : plan.activation.count = bind.rows * bind.hidden
  qOutput : plan.outputs.q.count = bind.rows * bind.qColumns
  headDim : bind.headDim = plan.headDim
  q : regionHolds formats bind.hidden plan.weights.q bind.qColumns = some true
  k : regionHolds formats bind.hidden plan.weights.k bind.kvColumns = some true
  v : regionHolds formats bind.hidden plan.weights.v bind.kvColumns = some true

theorem FusedQkvPlan.Groups.kvColumns (h : plan.Groups width) :
    (plan.bindOf width).kvColumns = width :=
  Nat.div_mul_cancel (Nat.dvd_of_mod_eq_zero h.2.1)

theorem FusedQkvPlan.Groups.qColumns (h : plan.Groups width) :
    (plan.bindOf width).qColumns = plan.qWidth := by
  obtain ⟨-, hheads, hqueries, -⟩ := h
  calc width / plan.headDim * (plan.qWidth / width) * plan.headDim
      = width / plan.headDim * plan.headDim * (plan.qWidth / width) := by ring
    _ = width * (plan.qWidth / width) := by
        rw [Nat.div_mul_cancel (Nat.dvd_of_mod_eq_zero hheads)]
    _ = plan.qWidth := Nat.mul_div_cancel' (Nat.dvd_of_mod_eq_zero hqueries)

theorem agrees_bindOf_iff (hformed : plan.Formed) (hfits : plan.Fits formats width) :
    plan.Agrees formats (plan.bindOf width) ↔
      regionHolds formats plan.hidden plan.weights.k width = some true := by
  have hq := hfits.groups.qColumns
  have hkv := hfits.groups.kvColumns
  constructor
  · intro h
    have hk := h.k
    rwa [hkv] at hk
  · intro h
    refine ⟨hformed.activation, ?_, rfl, ?_, ?_, ?_⟩
    · rw [hq]
      exact hformed.qOutput
    · rw [hq]
      exact hfits.q
    · rw [hkv]
      exact h
    · rw [hkv]
      exact hfits.v

/-- Every bind agrees and no order of the candidates answers otherwise. -/
structure FusedQkvPlan.Consistent (plan : FusedQkvPlan) (formats : PackedFormats)
    (widths : List Nat) : Prop where
  agrees : ∀ bind, plan.firstBind formats widths = some (.ok bind) → plan.Agrees formats bind
  order : ∀ permuted, permuted.Perm widths →
    plan.firstBind formats permuted = plan.firstBind formats widths

theorem firstBind_cons_of_ending {ended : MayPanic QkvProjectionBind} (rest : List Nat)
    (h : plan.ending formats width = some ended) :
    plan.firstBind formats (width :: rest) = ended.map .ok := by
  rw [firstBind_eq, List.findSome?_cons, h]

/-- The derivation is consistent exactly where the K weight holds the width that the checks let
    through, and no other candidate overflows the check of a dense V weight. -/
theorem fused_bind_consistent_iff {entry : String} {slots : List SessionSlot}
    {bufferMeta : BTreeMap BufferKey SessionBufferMeta} {axes : Option FusedAttentionAxes}
    {grid : Axes} (hbuilt : buildFusedQkvPlan entry slots bufferMeta axes grid = .ok (some plan))
    (formats : PackedFormats) (widths : List Nat) :
    plan.Consistent formats widths ↔ ∀ width ∈ widths, plan.Fits formats width →
      regionHolds formats plan.hidden plan.weights.k width = some true ∧
      ∀ other ∈ widths, plan.Groups other →
        regionHolds formats plan.hidden plan.weights.v other ≠ none := by
  have hformed := formed_of_build hbuilt
  have hbinds : ∀ width, plan.Fits formats width →
      plan.ending formats width = some (some (plan.bindOf width)) := fun width hfits =>
    ending_eq_bind_iff.mpr ((tryWidth_eq_bind_iff hformed).mpr ⟨hfits, rfl⟩)
  constructor
  · intro h width hwidth hfits
    -- a list with the width first binds it, and so do all orders of the candidates
    have hfound : plan.firstBind formats widths = some (.ok (plan.bindOf width)) := by
      rw [← h.order _ (List.perm_cons_erase hwidth).symm]
      exact firstBind_cons_of_ending _ (hbinds width hfits)
    refine ⟨(agrees_bindOf_iff hformed hfits).mp (h.agrees _ hfound), ?_⟩
    intro other hother hgroups hoverflow
    have hpanics : plan.firstBind formats widths = none := by
      rw [← h.order _ (List.perm_cons_erase hother).symm]
      exact firstBind_cons_of_ending _ (ending_eq_panic_iff.mpr
        (tryWidth_eq_none_iff.mpr ⟨hgroups, .inr ⟨hfits.q, hoverflow⟩⟩))
    rw [hfound] at hpanics
    cases hpanics
  · intro h
    constructor
    · intro bind hbind
      obtain ⟨width, hwidth, hfits, rfl⟩ := fits_of_firstBind hformed hbind
      exact (agrees_bindOf_iff hformed hfits).mpr (h width hwidth hfits).1
    · intro permuted hperm
      rw [firstBind_eq, firstBind_eq, findSome?_perm hperm]
      by_cases hsome : ∃ width ∈ widths, plan.Fits formats width
      · obtain ⟨width, hwidth, hfits⟩ := hsome
        -- every ending is the bind of the one width that fits
        have hended : ∀ a ∈ widths, ∀ x, plan.ending formats a = some x →
            x = some (plan.bindOf width) := by
          intro a ha x hx
          cases x with
          | none =>
            obtain ⟨hgroups, hq | hv⟩ := tryWidth_eq_none_iff.mp (ending_eq_panic_iff.mp hx)
            · rw [hfits.q] at hq
              cases hq
            · exact ((h width hwidth hfits).2 a ha hgroups hv.2).elim
          | some found =>
            obtain ⟨ha, rfl⟩ := (tryWidth_eq_bind_iff hformed).mp (ending_eq_bind_iff.mp hx)
            rw [ha.unique hformed hfits]
        intro a ha b hb x y hx hy
        rw [hended a ha x hx, hended b hb y hy]
      · -- no bind comes of any candidate
        have hended : ∀ a ∈ widths, ∀ x, plan.ending formats a = some x → x = none := by
          intro a ha x hx
          cases x with
          | none => rfl
          | some found =>
            have hfits := (tryWidth_eq_bind_iff hformed).mp (ending_eq_bind_iff.mp hx)
            exact (hsome ⟨a, ha, hfits.1⟩).elim
        intro a ha b hb x y hx hy
        rw [hended a ha x hx, hended b hb y hy]

end Consistency

namespace BiasedKeys

def slot (bufferId : UInt32) (bufferName : String) (role : DeviceBufferRole)
    (elementCount : UInt64) : SessionSlot where
  bufferId
  version := 0
  bufferName
  role
  binding := bufferId
  elementTy := .f32
  elementCount

/-- One row of one head of two elements, with biases and a K weight of so many elements. -/
def slots (kWeight : UInt64) : List SessionSlot :=
  [slot 0 "blk0.a" .inOut 2, slot 1 "blk0.attn_q.weight" .input 4,
    slot 2 "blk0.attn_k.weight" .input kWeight, slot 3 "blk0.attn_v.weight" .input 4,
    slot 4 "blk0.q_gemv" .inOut 2, slot 5 "kv.cache_k.0" .inOut 8, slot 6 "kv.cache_v.0" .inOut 8,
    slot 7 "blk0.attn_q.bias" .input 2, slot 8 "blk0.attn_k.bias" .input 2,
    slot 9 "blk0.attn_v.bias" .input 2]

def norm : SessionBufferMeta where
  name := "blk0.attn_norm.weight"
  semanticValue := 10
  role := .input
  elementTy := .f32
  elementCount := 2
  byteLength := 8
  lifetime := .perProgram
  initialization := .hostProvided

def bufferMeta : BTreeMap BufferKey SessionBufferMeta :=
  (∅ : BTreeMap BufferKey SessionBufferMeta).insert (10, 0) norm

def fusedOf (slot : SessionSlot) : FusedQkvSlot :=
  ⟨slot.key, slot.binding, slot.elementTy, slot.elementCount⟩

def plan (kWeight : UInt64) : FusedQkvPlan where
  rows := 1
  hidden := 2
  qWidth := 2
  headDim := 2
  grid := ⟨1, 1, 1⟩
  kvCacheTarget := true
  activation := fusedOf (slot 0 "blk0.a" .inOut 2)
  weights := ⟨fusedOf (slot 1 "blk0.attn_q.weight" .input 4),
    fusedOf (slot 2 "blk0.attn_k.weight" .input kWeight),
    fusedOf (slot 3 "blk0.attn_v.weight" .input 4)⟩
  biases := ⟨some (fusedOf (slot 7 "blk0.attn_q.bias" .input 2)),
    some (fusedOf (slot 8 "blk0.attn_k.bias" .input 2)),
    some (fusedOf (slot 9 "blk0.attn_v.bias" .input 2))⟩
  rope := none
  outputs := ⟨fusedOf (slot 4 "blk0.q_gemv" .inOut 2), fusedOf (slot 5 "kv.cache_k.0" .inOut 8),
    fusedOf (slot 6 "kv.cache_v.0" .inOut 8)⟩
  cursor := none

/-- The K bias gives the width two, and nothing compares the six elements of the K weight with
    it. -/
theorem spare_keys_bound :
    buildFusedQkvPlan "blk0_QkvProjection" (slots 6) bufferMeta (some ⟨2⟩) ⟨1, 1, 1⟩ =
      .ok (some (plan 6)) ∧
    finalizeFusedBind (plan 6) ∅ = some (.ok ((plan 6).bindOf 2)) ∧
    ¬(plan 6).Agrees ∅ ((plan 6).bindOf 2) := by
  refine ⟨rfl, rfl, fun hagrees => ?_⟩
  have hk := hagrees.k
  revert hk
  decide

/-- With the four elements of two columns the bind agrees in every order. -/
theorem whole_keys_consistent : (plan 4).Consistent ∅ ((plan 4).candidates ∅) := by
  have hbuilt : buildFusedQkvPlan "blk0_QkvProjection" (slots 4) bufferMeta (some ⟨2⟩) ⟨1, 1, 1⟩ =
      .ok (some (plan 4)) := rfl
  have hwidths : (plan 4).candidates ∅ = [2, 2] := rfl
  refine (fused_bind_consistent_iff hbuilt ∅ _).mpr ?_
  rw [hwidths]
  intro width hwidth _
  obtain rfl : width = 2 := by simpa using hwidth
  refine ⟨by decide, fun other hother _ => ?_⟩
  obtain rfl : other = 2 := by simpa using hother
  decide

end BiasedKeys

end FaberHosts.Macos
