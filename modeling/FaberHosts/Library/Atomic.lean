import FaberHosts.Library.Grouped
import FaberHosts.Library.Qkv
import FaberHosts.Library.Rows

/-!
# Kernel bodies end whole or untouched

Each body checks its bind and its buffers before it writes.  From there on every index is in
range, so that the body ends, and an error leaves the outputs as they were.  The exception is
`qkv_projection`, which allocates the vector of a packed weight before it looks at the weight.
-/

namespace FaberHosts.Library
open FaberHosts.Lib Call

attribute [local instance] Call.lawfulMonad

variable {σ F : Type}

/-- A body that answers, and on an error leaves the outputs as they were. -/
def Atomic (body : Body σ Unit) (outputs : σ) : Prop :=
  (∃ after, body outputs = some (.ok (), after)) ∨ ∃ e, body outputs = some (.error e, outputs)

theorem atomic_of_wp {body : Body σ Unit} {Q : Unit → σ → Prop} {outputs : σ}
    (h : wp False body Q (fun _ after => after = outputs) outputs) : Atomic body outputs := by
  obtain ⟨answer, after, hrun⟩ := wp_returns h
  cases answer with
  | ok u => exact .inl ⟨after, hrun⟩
  | error e =>
    obtain rfl := wp_of_error h hrun
    exact .inr ⟨e, hrun⟩

theorem not_atomic_of_panics {body : Body σ Unit} {outputs : σ} (h : body outputs = none) :
    ¬Atomic body outputs := by
  intro hatomic
  rcases hatomic with ⟨after, hrun⟩ | ⟨e, hrun⟩
  · rw [h] at hrun
    cases hrun
  · rw [h] at hrun
    cases hrun

/-- A call of a body: its bind, its inputs and its outputs. -/
inductive KernelCall (F : Type) where
  | qkvProjection (bind : QkvProjectionBind) (inputs : QkvInputs F) (outputs : QkvOutputs F)
  | groupedExpertGemm (bind : GroupedExpertGemmBind) (expertShapes : List (Nat × Nat))
      (activation : List F) (packedWeights : List UInt8) (output : List F)
  | groupedExpertGemmSelected (bind : GroupedExpertGemmBind) (activation : List F)
      (expertIds : Slice 4 UInt32) (expertWeights : List F) (packedWeights : List UInt8)
      (output : List F)
  | causalAttention (bind : CausalAttentionBind) (q : Slice 4 F) (k v output : List F)
  | rope (bind : BindDescriptor) (input cos sin output : List F)
  | residualRmsNorm (bind : BindDescriptor) (residual skip : List F) (gamma : Slice 4 F)
      (epsilon : F) (output : List F)
  | dispatchGemv (kernel : GemvKernel) (bind : QuantizedGemvBind) (activation : List F)
      (packedWeight : List UInt8) (output : List F)

namespace KernelCall

/-- The call answers, and on an error its outputs are as they were. -/
def Settles [F32 F] : KernelCall F → Prop
  | .qkvProjection bind inputs outputs => Atomic (Library.qkvProjection bind inputs) outputs
  | .groupedExpertGemm bind expertShapes activation packedWeights output =>
    Atomic (Library.groupedExpertGemm bind expertShapes activation packedWeights) output
  | .groupedExpertGemmSelected bind activation expertIds expertWeights packedWeights output =>
    Atomic (Library.groupedExpertGemmSelected bind activation expertIds expertWeights
      packedWeights) output
  | .causalAttention bind q k v output => Atomic (Library.causalAttention bind q k v) output
  | .rope bind input cos sin output => Atomic (Library.rope bind input cos sin) output
  | .residualRmsNorm bind residual skip gamma epsilon output =>
    Atomic (Library.residualRmsNorm bind residual skip gamma epsilon) output
  | .dispatchGemv kernel bind activation packedWeight output =>
    Atomic (Library.dispatchGemv kernel bind activation packedWeight) output

/-- A projection past its checks whose packed Q weight has more columns than a vector of `f32`
    can hold. -/
def Overallocates : KernelCall F → Prop
  | .qkvProjection bind inputs outputs => bind.Overallocates inputs outputs
  | _ => False

/-- Every call settles but those of a projection that allocates too much. -/
theorem settles_iff [F32 F] (call : KernelCall F) : call.Settles ↔ ¬call.Overallocates := by
  cases call with
  | qkvProjection bind inputs outputs =>
    constructor
    · intro hsettles hover
      exact not_atomic_of_panics (qkvProjection_panics bind inputs outputs hover) hsettles
    · intro hroom
      exact atomic_of_wp (qkvProjection_wp bind inputs outputs hroom)
  | groupedExpertGemm bind expertShapes activation packedWeights output =>
    have hwp := groupedExpertGemm_wp bind expertShapes activation packedWeights output
    exact iff_of_true (atomic_of_wp hwp) id
  | groupedExpertGemmSelected bind activation expertIds expertWeights packedWeights output =>
    have hwp := groupedExpertGemmSelected_wp bind activation expertIds expertWeights packedWeights output
    exact iff_of_true (atomic_of_wp hwp) id
  | causalAttention bind q k v output =>
    have hwp := causalAttention_wp bind q k v output
    exact iff_of_true (atomic_of_wp hwp) id
  | rope bind input cos sin output =>
    have hwp := rope_wp bind input cos sin output
    exact iff_of_true (atomic_of_wp hwp) id
  | residualRmsNorm bind residual skip gamma epsilon output =>
    have hwp := residualRmsNorm_wp bind residual skip gamma epsilon output
    exact iff_of_true (atomic_of_wp hwp) id
  | dispatchGemv kernel bind activation packedWeight output =>
    cases kernel with
    | quantized =>
      have hwp := wp_mono (dispatchGemv_wp bind activation packedWeight output)
        (fun _ _ hwritten => hwritten) fun _ _ hrefused => hrefused.1
      exact iff_of_true (atomic_of_wp hwp) id

end KernelCall

namespace WideHeads

/-- One row and `2^61` output columns, in views whose strides are all one. -/
def bind : QkvProjectionBind :=
  ⟨1, 32, 2 ^ 21, 2 ^ 20, 2 ^ 20, 32, 1, .replicate 4 1, .replicate 3 1, .grouped, false, 0,
    .replicate 3 1⟩

/-- A packed weight of the bind's shape without a byte. -/
def weight : QkvProjectionWeight Int :=
  .quantized ⟨32, 2 ^ 61, 1, 1, 34, .q8_0, .replicate 3 1⟩ []

def inputs : QkvInputs Int where
  activation := List.replicate 32 1
  qWeight := weight
  kWeight := weight
  vWeight := weight
  qBias := none
  kBias := none
  vBias := none
  cos := none
  sin := none

def outputs : QkvOutputs Int where
  q := List.replicate (2 ^ 22) 0
  k := List.replicate (2 ^ 22) 0
  v := List.replicate (2 ^ 22) 0

theorem overallocates : bind.Overallocates inputs outputs where
  left := {
    validate := rfl
    activation := by decide
    q := ⟨rfl, by decide, by rw [outputs, List.length_replicate]; decide⟩
    k := ⟨rfl, by decide, by rw [outputs, List.length_replicate]; decide⟩
    v := ⟨rfl, by decide, by rw [outputs, List.length_replicate]; decide⟩
    biases := ⟨rfl, rfl⟩
    tables := rfl
    rope := by intro cos hcos; cases hcos }
  right := ⟨rfl, rfl, by decide⟩

/-- The weight's bytes are never looked at: the vector of its columns comes first. -/
theorem projection_panics : ¬(KernelCall.qkvProjection bind inputs outputs).Settles := by
  intro hsettles
  exact not_atomic_of_panics (qkvProjection_panics bind inputs outputs overallocates) hsettles

end WideHeads

end FaberHosts.Library
