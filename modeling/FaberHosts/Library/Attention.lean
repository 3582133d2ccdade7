import FaberHosts.Lib.Strides
import FaberHosts.Library.Blocks

/-!
# Causal attention

`causal_attention`: every query head of every group attends to the tokens up to its own
position with an online softmax, which keeps the running maximum, the running sum and one
context element for each dimension of the head.
-/

namespace FaberHosts.Library
open FaberHosts.Lib KernelBodyError Call

attribute [local instance] Call.lawfulMonad

variable {σ F : Type}

/-- `attention_span`. -/
def attentionSpan (dims strides : List Nat) : Except KernelBodyError Nat := do
  refuseIf (dims.length ≠ strides.length)
    (invalidBind "causal attention dimensions and strides have different ranks")
  okOr (trySpan dims strides) (invalidBind "causal attention physical span overflow")

/-- `attention_offset`. -/
def attentionOffset (coordinates strides : List Nat) : Except KernelBodyError Nat := do
  refuseIf (coordinates.length ≠ strides.length)
    (invalidBind "causal attention coordinate rank does not match its strides")
  okOr (tryOffset coordinates strides) (invalidBind "causal attention element offset overflow")

theorem attentionSpan_eq_ok_iff {dims strides : List Nat} {span : Nat}
    (hrank : dims.length = strides.length) : attentionSpan dims strides = .ok span ↔
      0 ∉ dims ∧ 1 + reach dims strides ≤ wordMax ∧ 1 + reach dims strides = span := by
  simp [attentionSpan, Lib.bind_ok_iff, hrank, trySpan_eq_some_iff hrank]

theorem attentionOffset_ok {dims strides index : List Nat} (hrank : dims.length = strides.length)
    (hindex : Indexes dims index) (hword : 1 + reach dims strides ≤ wordMax) :
    attentionOffset index strides = .ok (strided index strides) ∧
      strided index strides < 1 + reach dims strides := by
  obtain ⟨hoffset, hlt⟩ := tryOffset_of_indexes hindex hword
  refine ⟨?_, hlt⟩
  simp [attentionOffset, Lib.bind_ok_iff, hindex.length_eq, hrank, hoffset]

/-- A buffer holds the view of the axes under the strides. -/
structure Holds (dims strides : List Nat) (length : Nat) : Prop where
  rank : dims.length = strides.length
  word : 1 + reach dims strides ≤ wordMax
  length : 1 + reach dims strides ≤ length

theorem Holds.fetch_gives {dims strides index : List Nat} {buffer : List F}
    (h : Holds dims strides buffer.length) (hindex : Indexes dims index) :
    ∃ offset, attentionOffset index strides = .ok offset ∧
      Gives (fetch buffer offset : Body σ F) fun _ => True := by
  obtain ⟨hoffset, hlt⟩ := attentionOffset_ok h.rank hindex h.word
  have hword := h.word
  have hlength := h.length
  exact ⟨_, hoffset, (Library.fetch_gives (by omega) (by omega)).mono fun _ _ => trivial⟩

/-- `CausalAttentionLayout`. -/
inductive CausalAttentionLayout where
  | grouped
  | strided
  deriving DecidableEq

/-- `CausalAttentionBind`. -/
structure CausalAttentionBind where
  headDim : Nat
  seqBlock : Nat
  qPerKv : Nat
  kvBatch : Nat
  querySeq : Nat
  qStrides : Vector Nat 4
  kStrides : Vector Nat 3
  vStrides : Vector Nat 3
  outputStrides : Vector Nat 4
  layout : CausalAttentionLayout
  grid : Vector UInt32 3
  deriving DecidableEq

namespace CausalAttentionBind

def qDims (bind : CausalAttentionBind) : List Nat :=
  [bind.kvBatch, bind.qPerKv, bind.querySeq, bind.headDim]

def kvDims (bind : CausalAttentionBind) : List Nat := [bind.kvBatch, bind.seqBlock, bind.headDim]

def validate (bind : CausalAttentionBind) : Except KernelBodyError Unit := do
  refuseIf (bind.headDim = 0 ∨ bind.seqBlock = 0 ∨ bind.qPerKv = 0 ∨ bind.kvBatch = 0 ∨
      bind.querySeq = 0) (invalidBind "causal attention bind has a zero dimension")
  refuseIf (bind.seqBlock < bind.querySeq)
    (invalidBind "causal attention query rows exceed the sequence block")
  refuseIf (0 ∈ bind.grid.toList) (invalidBind "causal attention bind has a zero dispatch axis")
  refuseIf (0 ∈ bind.qStrides.toList ++ bind.kStrides.toList ++ bind.vStrides.toList ++
      bind.outputStrides.toList) (invalidBind "causal attention bind has a zero stride")
  let qHead ← okOr (mulWord bind.querySeq bind.headDim)
    (invalidBind "causal attention query stride overflow")
  let qGroup ← okOr (mulWord bind.qPerKv qHead)
    (invalidBind "causal attention query stride overflow")
  let kGroup ← okOr (mulWord bind.seqBlock bind.headDim)
    (invalidBind "causal attention KV stride overflow")
  refuseIf (bind.layout = .grouped ∧
      (bind.qStrides ≠ #v[qGroup, qHead, bind.headDim, 1] ∨
        bind.kStrides ≠ #v[kGroup, bind.headDim, 1] ∨ bind.vStrides ≠ bind.kStrides ∨
        bind.outputStrides ≠ bind.qStrides))
    (invalidBind "grouped causal attention bind has non-canonical strides")
  let _ ← attentionSpan bind.qDims bind.qStrides.toList
  let _ ← attentionSpan bind.kvDims bind.kStrides.toList
  let _ ← attentionSpan bind.kvDims bind.vStrides.toList
  let _ ← attentionSpan bind.qDims bind.outputStrides.toList
  pure ()

/-- `ensure_attention_buffer`. -/
def ensureBuffer (bind : CausalAttentionBind) (name : String) (dims strides : List Nat)
    (length : Nat) : Except KernelBodyError Unit := do
  let required ← attentionSpan dims strides
  refuseIf (length < required) (bufferTooShort name required length)
  bind.validate

/-- What the checks of the body establish of its buffers. -/
structure Held (bind : CausalAttentionBind) (qLength kLength vLength outputLength : Nat) :
    Prop where
  querySeq_le : bind.querySeq ≤ bind.seqBlock
  headDim_le : bind.headDim ≤ qLength
  seqBlock_le : bind.seqBlock ≤ wordMax
  q : Holds bind.qDims bind.qStrides.toList qLength
  k : Holds bind.kvDims bind.kStrides.toList kLength
  v : Holds bind.kvDims bind.vStrides.toList vLength
  output : Holds bind.qDims bind.outputStrides.toList outputLength

end CausalAttentionBind

/-- `f32::NEG_INFINITY`, no sum and an empty context: the online softmax before a token. -/
structure OnlineSoftmax (F : Type) where
  rowMax : F
  rowSum : F
  context : List F

section Bodies

variable [F32 F]

/-- The products of a query row and a key row. -/
def attentionDot (bind : CausalAttentionBind) (q k : List F) (group qHead query token : Nat) :
    Body σ F :=
  foldRange bind.headDim 0 fun dot dimension => do
    let qOffset ← check (attentionOffset [group, qHead, query, dimension] bind.qStrides.toList)
    let kOffset ← check (attentionOffset [group, token, dimension] bind.kStrides.toList)
    let x ← fetch q qOffset
    let y ← fetch k kOffset
    pure (dot + x * y)

/-- A token of the online softmax. -/
def attentionToken (bind : CausalAttentionBind) (q k v : List F) (group qHead query : Nat)
    (running : OnlineSoftmax F) (token : Nat) : Body σ (OnlineSoftmax F) := do
  let scale := 1 / F32.sqrt (F32.ofInt bind.headDim)
  let dot : F ← attentionDot bind q k group qHead query token
  let score := dot * scale
  let nextMax := F32.max running.rowMax score
  let oldScale := F32.exp (running.rowMax - nextMax)
  let tokenScale := F32.exp (score - nextMax)
  let context ← forEnumerated running.context fun value dimension => do
    let vOffset ← check (attentionOffset [group, token, dimension] bind.vStrides.toList)
    let y ← fetch v vOffset
    pure (value * oldScale + tokenScale * y)
  pure ⟨nextMax, running.rowSum * oldScale + tokenScale, context⟩

def causalAttention (bind : CausalAttentionBind) (q : Slice 4 F) (k v : List F) :
    Body (List F) Unit := do
  check bind.validate
  let output ← Call.get
  check (bind.ensureBuffer "q" bind.qDims bind.qStrides.toList q.toList.length)
  check (bind.ensureBuffer "k" bind.kvDims bind.kStrides.toList k.length)
  check (bind.ensureBuffer "v" bind.kvDims bind.vStrides.toList v.length)
  check (bind.ensureBuffer "output" bind.qDims bind.outputStrides.toList output.length)
  let queryStart ← Call.value (subWord bind.seqBlock bind.querySeq)
  forRange bind.kvBatch fun group =>
    forRange bind.qPerKv fun qHead =>
      forRange bind.querySeq fun query => do
        let visible ← Call.value (addWord (queryStart + query) 1)
        let context ← Call.value (zeroed bind.headDim)
        let ended ← foldRange (min visible bind.seqBlock) ⟨F32.negInfinity, 0, context⟩
          (attentionToken bind q.toList k v group qHead query)
        forRange ended.context.length fun dimension => do
          let offset ← check (attentionOffset [group, qHead, query, dimension]
            bind.outputStrides.toList)
          let value ← fetch ended.context dimension
          writeAt offset (value / ended.rowSum)

/-! ## The body ends with the output whole or untouched -/

variable {bind : CausalAttentionBind} {q k v : List F} {qLength kLength vLength outputLength : Nat}

omit [F32 F] in
theorem CausalAttentionBind.ensureBuffer_ok {name : String} {dims strides : List Nat}
    {length : Nat} (hrank : dims.length = strides.length)
    (h : bind.ensureBuffer name dims strides length = .ok ()) : Holds dims strides length := by
  simp only [ensureBuffer, Lib.bind_ok_iff, attentionSpan_eq_ok_iff hrank, refuseIf_eq_ok_iff,
    Nat.not_lt] at h
  obtain ⟨_, ⟨-, hword, rfl⟩, _, hlength, -⟩ := h
  exact ⟨hrank, hword, hlength⟩

omit [F32 F] in
/-- The strides of the queries and of the keys have no zero, so that the views are at least
    as long as a head and a sequence. -/
theorem CausalAttentionBind.held_of_checks (hvalidate : bind.validate = .ok ())
    (hq : Holds bind.qDims bind.qStrides.toList qLength)
    (hk : Holds bind.kvDims bind.kStrides.toList kLength)
    (hv : Holds bind.kvDims bind.vStrides.toList vLength)
    (houtput : Holds bind.qDims bind.outputStrides.toList outputLength) :
    bind.Held qLength kLength vLength outputLength := by
  simp only [validate, Lib.bind_ok_iff, refuseIf_eq_ok_iff, List.mem_append, not_or,
    Nat.not_lt] at hvalidate
  obtain ⟨_, -, _, hquery, _, -, _, ⟨⟨⟨hqStrides, hkStrides⟩, -⟩, -⟩, -⟩ := hvalidate
  have hhead : bind.headDim ≤ 1 + reach bind.qDims bind.qStrides.toList :=
    le_span_of_mem hq.rank hqStrides (by simp [qDims])
  have hblock : bind.seqBlock ≤ 1 + reach bind.kvDims bind.kStrides.toList :=
    le_span_of_mem hk.rank hkStrides (by simp [kvDims])
  exact ⟨hquery, Nat.le_trans hhead hq.length, Nat.le_trans hblock hk.word, hq, hk, hv, houtput⟩

theorem attentionDot_gives {group qHead query token : Nat}
    (h : bind.Held q.length k.length vLength outputLength) (hgroup : group < bind.kvBatch)
    (hqHead : qHead < bind.qPerKv) (hquery : query < bind.querySeq)
    (htoken : token < bind.seqBlock) :
    Gives (attentionDot bind q k group qHead query token : Body σ F) fun _ => True := by
  refine Gives.foldRange (fun _ _ => True) ?_ trivial
  intro dimension hdimension dot _
  have hqIndex : Indexes bind.qDims [group, qHead, query, dimension] :=
    .cons hgroup (.cons hqHead (.cons hquery (.cons hdimension .nil)))
  have hkIndex : Indexes bind.kvDims [group, token, dimension] :=
    .cons hgroup (.cons htoken (.cons hdimension .nil))
  obtain ⟨qOffset, hqOffset, hx⟩ := h.q.fetch_gives (σ := σ) hqIndex
  obtain ⟨kOffset, hkOffset, hy⟩ := h.k.fetch_gives (σ := σ) hkIndex
  simp only [hqOffset, hkOffset, check_ok, pure_bind]
  exact hx.bind fun x _ => hy.bind fun y _ => .pure trivial

theorem attentionToken_gives {group qHead query token : Nat} {running : OnlineSoftmax F}
    (h : bind.Held q.length k.length v.length outputLength) (hgroup : group < bind.kvBatch)
    (hqHead : qHead < bind.qPerKv) (hquery : query < bind.querySeq)
    (htoken : token < bind.seqBlock) (hcontext : running.context.length = bind.headDim) :
    Gives (attentionToken bind q k v group qHead query running token : Body σ (OnlineSoftmax F))
      (·.context.length = bind.headDim) := by
  refine (attentionDot_gives h hgroup hqHead hquery htoken).bind fun dot _ => ?_
  refine (forEnumerated_length ?_).bind fun context hlength => ?_
  · intro value dimension hdimension
    have hvIndex : Indexes bind.kvDims [group, token, dimension] :=
      .cons hgroup (.cons htoken (.cons (by omega) .nil))
    obtain ⟨vOffset, hvOffset, hy⟩ := h.v.fetch_gives (σ := σ) hvIndex
    simp only [hvOffset, check_ok, pure_bind]
    exact hy.bind fun y _ => .pure trivial
  · exact .pure (hlength.trans hcontext)

theorem causalAttention_wp (bind : CausalAttentionBind) (q : Slice 4 F) (k v output : List F) :
    wp False (causalAttention bind q k v) (fun _ after => after.length = output.length)
      (fun _ after => after = output) output := by
  refine wp_of_check ?_ fun _ _ => rfl
  intro _ hvalidate
  rw [Call.wp_bind, wp_get]
  refine wp_of_check ?_ fun _ _ => rfl
  intro _ hq
  refine wp_of_check ?_ fun _ _ => rfl
  intro _ hk
  refine wp_of_check ?_ fun _ _ => rfl
  intro _ hv
  refine wp_of_check ?_ fun _ _ => rfl
  intro _ houtput
  have hheld := CausalAttentionBind.held_of_checks hvalidate
    (CausalAttentionBind.ensureBuffer_ok (by simp [CausalAttentionBind.qDims]) hq)
    (CausalAttentionBind.ensureBuffer_ok (by simp [CausalAttentionBind.kvDims]) hk)
    (CausalAttentionBind.ensureBuffer_ok (by simp [CausalAttentionBind.kvDims]) hv)
    (CausalAttentionBind.ensureBuffer_ok (by simp [CausalAttentionBind.qDims]) houtput)
  have hmax : wordMax = 2 ^ 64 - 1 := rfl
  have hisize : isizeMax = 2 ^ 63 - 1 := rfl
  have hquerySeq := hheld.querySeq_le
  have hword := hheld.seqBlock_le
  have halloc := q.fits
  have hhead := hheld.headDim_le
  have hroom := hheld.output
  refine wp_of_value (subWord_eq_some_iff.mpr ⟨hquerySeq, rfl⟩) ?_
  refine wp_mono (E := fun _ _ => False) (Q := fun _ after => after.length = output.length) ?_
    (fun _ _ h => h) fun _ _ h => h.elim
  refine wp_forRange (fun _ (after : List F) => after.length = output.length) ?_ rfl
  intro group hgroup after hafter
  refine wp_forRange (fun _ (after : List F) => after.length = output.length) ?_ hafter
  intro qHead hqHead after hafter
  refine wp_forRange (fun _ (after : List F) => after.length = output.length) ?_ hafter
  intro query hquery after hafter
  refine wp_of_value (word_of_le (by omega)) ?_
  refine wp_of_value (zeroed_of_le (by omega)) ?_
  refine (Gives.foldRange (fun _ (running : OnlineSoftmax F) =>
    running.context.length = bind.headDim) ?_ List.length_replicate).wp_bind fun ended hended => ?_
  · intro token htoken running hrunning
    exact attentionToken_gives hheld hgroup hqHead hquery (by omega) hrunning
  · refine wp_forRange (fun _ (after : List F) => after.length = output.length) ?_ hafter
    intro dimension hdimension after hafter
    have hindex : Indexes bind.qDims [group, qHead, query, dimension] :=
      .cons hgroup (.cons hqHead (.cons hquery (.cons (by omega) .nil)))
    obtain ⟨hoffset, hlt⟩ := attentionOffset_ok hroom.rank hindex hroom.word
    have hroomWord := hroom.word
    have hroomLength := hroom.length
    simp only [hoffset, check_ok, pure_bind]
    refine (fetch_gives hdimension (by omega)).wp_bind fun value _ => ?_
    exact wp_writeAt (by omega) (by omega) (by rw [List.length_set, hafter])

end Bodies

end FaberHosts.Library
