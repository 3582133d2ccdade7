import FaberHosts.Wasm.TensorOffsets

/-!
# The rows of tensors

`imports.rs`: the host functions that build, read, write and combine tensors.  A tensor is
its flat values under a row-major shape; a row that fails traps with the message it records.
-/

namespace FaberHosts.Wasm
open FaberHosts.Lib

/-- The operations on `f64` that the rows use, by bits. -/
structure FloatOps where
  add : UInt64 → UInt64 → UInt64
  sub : UInt64 → UInt64 → UInt64
  mul : UInt64 → UInt64 → UInt64
  div : UInt64 → UInt64 → UInt64
  /-- `as f64` of an `i64`, of an `i32` and of a `usize`. -/
  ofI64 : UInt64 → UInt64
  ofI32 : UInt32 → UInt64
  ofUsize : Nat → UInt64
  /-- `as i64` and `as i32`. -/
  toI64 : UInt64 → UInt64
  toI32 : UInt64 → UInt32

/-- `{:?}` of a value. -/
def debugValue (formats : Formats) : RuntimeValue → String
  | .i1 value => s!"I1({value})"
  | .i32 value => s!"I32({showI32 value})"
  | .i64 value => s!"I64({showI64 value})"
  | .f64 bits => s!"F64({formats.floatDebug bits})"
  | .handle handle => s!"Handle({showI32 handle})"

/-- The floats of a tensor. -/
def ValueKinds.floats (kinds : ValueKinds) : List UInt32 := [kinds.f32, kinds.f64]

/-- The integers of a tensor that keep the width of their carrier. -/
def ValueKinds.longs (kinds : ValueKinds) : List UInt32 := [kinds.i64, kinds.u64]

/-- The values, of 16 bytes each, that fit an allocation. -/
def maxElements : Nat := isizeMax / 16

/-- The capacity of a new vector of values; more than the allocation holds panics. -/
def reserve (capacity : Nat) : MayPanic Unit := if capacity ≤ maxElements then some () else none

def pushElement (out : List RuntimeValue) (value : RuntimeValue) : MayPanic (List RuntimeValue) :=
  if out.length < maxElements then some (out ++ [value]) else none

/-- An unchecked sum or product of `usize`. -/
def usizeOf (T : Toolchain) (n : Nat) : MayPanic Nat :=
  if n ≤ wordMax then some n else if T.overflowChecks then none else some (n % 2 ^ 64)

def tensorShapeElementCount (shape : List UInt64) : Option Nat :=
  shape.foldlM (fun count dim => do
    let dim ← HostState.usizeOfI64 dim
    mulWord count dim) 1

/-- A loop that may panic, or fail with a message. -/
abbrev Fallible (α : Type) := ExceptT String MayPanic α

namespace HostState

variable {κ μ : Type} (d : Dialect)

/-- Change the tensor of a handle through `find_tensor_mut`. -/
def modifyTensor (handle : UInt32) (f : TensorValue → TensorValue) (host : HostState κ μ) :
    HostState κ μ :=
  match host.dynamic[handle]? with
  | some (.tensor index) => { host with tensors := host.tensors.modify index f }
  | _ => host

def tensorValueFromCarrier (kind : UInt32) (value : RuntimeValue) : Except String RuntimeValue :=
  let other : Except String RuntimeValue :=
    .error s!"tensor element kind {kind.toNat} with value {debugValue d.formats value}"
  match value with
  | .f64 bits => if kind ∈ d.kinds.floats then .ok (.f64 bits) else other
  | .i64 value =>
    if kind ∈ d.kinds.longs then .ok (.i64 value)
    else if kind ∈ d.kinds.words then .ok (.i32 value.toUInt32)
    else other
  | .handle handle => if kind ∈ [d.kinds.text, d.kinds.ascii] then .ok (.handle handle) else other
  | _ => other

def tensorNew (kind : UInt32) : Call (HostState κ μ) String UInt32 :=
  Call.infallible (allocTensor d.toolchain · ⟨kind, [], []⟩)

def tensorCreate (seed : UInt32) (fill : UInt64) (shape : UInt32) :
    Call (HostState κ μ) String UInt32 := do
  let host ← Call.get
  match host.findTensor seed with
  | none => Call.throw s!"tensor_create seed {showI32 seed}: unknown tensor handle"
  | some tensor =>
    match host.readIndexVector shape with
    | none => Call.throw "tensor_create shape must be a lista of dims"
    | some shape =>
      match tensorShapeElementCount shape with
      | none => Call.throw "tensor_create shape element count overflow"
      | some count => do
        let value ← Call.lift (some (tensorValueFromCarrier d tensor.kind (.f64 fill)))
        Call.value (reserve count)
        Call.infallible (allocTensor d.toolchain ·
          ⟨tensor.kind, shape, List.replicate count value⟩)

def tensorFromFlat (seed flat shape : UInt32) : Call (HostState κ μ) String UInt32 := do
  let host ← Call.get
  match host.findTensor seed with
  | none => Call.throw s!"tensor_from_flat seed {showI32 seed}: unknown tensor handle"
  | some tensor =>
    match host.readIndexVector shape with
    | none => Call.throw "tensor_from_flat shape must be a lista of dims"
    | some shape =>
      match host.findCollection flat with
      | none => Call.throw s!"tensor_from_flat flat {showI32 flat}: unknown lista handle"
      | some collection =>
        match tensorShapeElementCount shape with
        | none => Call.throw "tensor_from_flat shape element count overflow"
        | some expected =>
          if collection.values.length ≠ expected then
            Call.throw (s!"tensor_from_flat flat length {collection.values.length} != " ++
              s!"shape element count {expected}")
          else
            Call.infallible (allocTensor d.toolchain · ⟨tensor.kind, shape, collection.values⟩)

def tensorRank (handle : UInt32) : Call (HostState κ μ) String UInt64 := do
  let host ← Call.get
  match host.findTensor handle with
  | none => Call.throw s!"tensor_rank handle {showI32 handle}: unknown tensor handle"
  | some tensor => Call.value (lengthI64 tensor.shape.length)

def tensorShape (handle : UInt32) : Call (HostState κ μ) String UInt32 := do
  let host ← Call.get
  match host.findTensor handle with
  | none => Call.throw s!"tensor_shape handle {showI32 handle}: unknown tensor handle"
  | some tensor =>
    Call.infallible (allocCollection d.toolchain · false d.kinds.i64 (tensor.shape.map .i64))

def tensorReshape (handle shape : UInt32) : Call (HostState κ μ) String UInt32 := do
  let host ← Call.get
  match host.findTensor handle with
  | none => Call.throw s!"tensor_reshape handle {showI32 handle}: unknown tensor handle"
  | some tensor =>
    match host.readIndexVector shape with
    | none => Call.throw "tensor_reshape shape must be a lista of dims"
    | some shape =>
      match tensorShapeElementCount shape with
      | none => Call.throw "tensor_reshape shape element count overflow"
      | some expected =>
        if tensor.values.length ≠ expected then
          Call.throw "tensor_reshape element count mismatch"
        else Call.infallible (allocTensor d.toolchain · ⟨tensor.kind, shape, tensor.values⟩)

/-- A value whose offset is behind the values is not stored. -/
def tensorSet (handle index : UInt32) (value : UInt64) : Call (HostState κ μ) String Unit := do
  let host ← Call.get
  match host.findTensor handle with
  | none => Call.throw s!"tensor_set handle {showI32 handle}: unknown tensor handle"
  | some tensor =>
    match host.readIndexVector index with
    | none => Call.throw "tensor_set index must be a lista of dims"
    | some index =>
      match tensorFlatOffset tensor.shape index with
      | none => Call.throw "tensor ponde invalid index"
      | some offset => do
        let converted ← Call.lift (some (tensorValueFromCarrier d tensor.kind (.f64 value)))
        Call.modify (modifyTensor handle
          (fun t => { t with values := t.values.set offset converted }))

def tensorFill (handle : UInt32) (value : UInt64) : Call (HostState κ μ) String UInt32 := do
  let host ← Call.get
  match host.findTensor handle with
  | none => Call.throw s!"tensor_fill handle {showI32 handle}: unknown tensor handle"
  | some tensor =>
    match tensorShapeElementCount tensor.shape with
    | none => Call.throw "tensor_fill element count overflow"
    | some count => do
      let converted ← Call.lift (some (tensorValueFromCarrier d tensor.kind (.f64 value)))
      Call.value (reserve count)
      Call.modify (modifyTensor handle
        (fun t => { t with values := List.replicate count converted }))
      return handle

def tensorFlatten (handle : UInt32) : Call (HostState κ μ) String UInt32 := do
  let host ← Call.get
  match host.findTensor handle with
  | none => Call.throw s!"tensor_flatten handle {showI32 handle}: unknown tensor handle"
  | some tensor =>
    Call.infallible (allocCollection d.toolchain · false tensor.kind tensor.values)

def tensorMaterialize (handle : UInt32) : Call (HostState κ μ) String UInt32 := do
  let host ← Call.get
  match host.findTensor handle with
  | none => Call.throw s!"tensor_materialize handle {showI32 handle}: unknown tensor handle"
  | some tensor => Call.infallible (allocTensor d.toolchain · tensor)

/-- `&values[base..base + len]`. -/
def rowOf (values : List RuntimeValue) (base len : Nat) : MayPanic (List RuntimeValue) := do
  let stop ← usizeOf d.toolchain (base + len)
  if base ≤ stop ∧ stop ≤ values.length then return (values.drop base).take (stop - base)
  else none

/-- The rows of a slice, one behind the other. -/
def slicedRows (values : List RuntimeValue) (start take rowLen : Nat) :
    MayPanic (List RuntimeValue) := do
  let rows ← (List.range take).mapM (fun i => do
    let base ← usizeOf d.toolchain ((start + i) * rowLen)
    rowOf d values base rowLen)
  reserve rows.flatten.length
  return rows.flatten

def tensorSlice (handle : UInt32) (start stop : UInt64) : Call (HostState κ μ) String UInt32 := do
  let host ← Call.get
  match host.findTensor handle with
  | none => Call.throw s!"tensor_slice handle {showI32 handle}: unknown tensor handle"
  | some tensor =>
    match tensor.shape with
    | [] => Call.throw "tensor_slice requires rank >= 1"
    | first :: rest =>
      if start.toBitVec.toInt < 0 ∨ stop.toBitVec.toInt < start.toBitVec.toInt ∨
          first.toBitVec.toInt < stop.toBitVec.toInt then
        Call.throw "tensor_slice bounds out of range"
      else do
        let rowLen := (tensorShapeElementCount rest).getD 1
        let take := (stop - start).toNat
        let capacity ← Call.value (usizeOf d.toolchain (take * rowLen))
        Call.value (reserve capacity)
        let sliced ← Call.value (slicedRows d tensor.values start.toNat take rowLen)
        Call.infallible (allocTensor d.toolchain · ⟨tensor.kind, (stop - start) :: rest, sliced⟩)

end HostState

inductive TensorBinaryOp where
  | add
  | sub
  | mul
  deriving DecidableEq, Repr

namespace HostState

variable {κ μ : Type} (d : Dialect) (ops : FloatOps)

/-- One pair of elements; the `i64` operations wrap. -/
def binaryElement (op : TensorBinaryOp) (a b : RuntimeValue) : Except String RuntimeValue :=
  match op, a, b with
  | .add, .f64 a, .f64 b => .ok (.f64 (ops.add a b))
  | .sub, .f64 a, .f64 b => .ok (.f64 (ops.sub a b))
  | .mul, .f64 a, .f64 b => .ok (.f64 (ops.mul a b))
  | .add, .i64 a, .i64 b => .ok (.i64 (a + b))
  | .sub, .i64 a, .i64 b => .ok (.i64 (a - b))
  | .mul, .i64 a, .i64 b => .ok (.i64 (a * b))
  | _, a, b =>
    .error s!"tensor binary op on {debugValue d.formats a} / {debugValue d.formats b}"

def tensorBinaryValues (op : TensorBinaryOp) (left right : List RuntimeValue) :
    Except String (List RuntimeValue) :=
  if left.length ≠ right.length then .error "tensor binary operand element count mismatch"
  else (left.zip right).mapM (fun pair => binaryElement d ops op pair.1 pair.2)

def TensorBinaryOp.field : TensorBinaryOp → String
  | .add => "__faber_rt_v1_tensor_add"
  | .sub => "__faber_rt_v1_tensor_sub"
  | .mul => "__faber_rt_v1_tensor_mul"

def tensorAddSubMul (op : TensorBinaryOp) (left right : UInt32) :
    Call (HostState κ μ) String UInt32 := do
  let host ← Call.get
  match host.findTensor left with
  | none =>
    Call.throw s!"{TensorBinaryOp.field op} left {showI32 left}: unknown tensor handle"
  | some tensor =>
    match host.findTensor right with
    | none =>
      Call.throw s!"{TensorBinaryOp.field op} right {showI32 right}: unknown tensor handle"
    | some other => do
      let values ← Call.lift (some (tensorBinaryValues d ops op tensor.values other.values))
      Call.infallible (allocTensor d.toolchain · ⟨tensor.kind, tensor.shape, values⟩)

/-- `values[row * width + place]`. -/
def elementAt (values : List RuntimeValue) (row width place : Nat) : MayPanic RuntimeValue := do
  let base ← usizeOf d.toolchain (row * width)
  let index ← usizeOf d.toolchain (base + place)
  values[index]?

/-- One term of the sum; a sum of the other carrier starts again from 0. -/
def accumulate (acc a b : RuntimeValue) : Except String RuntimeValue :=
  match a, b with
  | .f64 a, .f64 b =>
    let current := match acc with
      | .f64 current => current
      | _ => 0
    .ok (.f64 (ops.add current (ops.mul a b)))
  | .i64 a, .i64 b =>
    let current := match acc with
      | .i64 current => current
      | _ => 0
    .ok (.i64 (current + a * b))
  | _, _ => .error "tensor_matmul mixed element carriers"

/-- The element of a product at a row and a column. -/
def matmulCell (left right : List RuntimeValue) (k n row col : Nat) : Fallible RuntimeValue :=
  (List.range k).foldlM (fun acc inner => do
    let a ← ExceptT.lift (elementAt d left row k inner)
    let b ← ExceptT.lift (elementAt d right inner n col)
    ExceptT.mk (some (accumulate ops acc a b))) (.f64 0)

/-- The loops over the rows and the columns. -/
def matmulValues (left right : List RuntimeValue) (m k n : Nat) : Fallible (List RuntimeValue) :=
  (List.range m).foldlM (fun out row =>
    (List.range n).foldlM (fun out col => do
      let cell ← matmulCell d ops left right k n row col
      ExceptT.lift (pushElement out cell)) out) []

def tensorMatmul (left right : UInt32) : Call (HostState κ μ) String UInt32 := do
  let host ← Call.get
  match host.findTensor left with
  | none => Call.throw s!"tensor_matmul left {showI32 left}: unknown tensor handle"
  | some tensor =>
    match host.findTensor right with
    | none => Call.throw s!"tensor_matmul right {showI32 right}: unknown tensor handle"
    | some other =>
      match tensor.shape with
      | [m, k] =>
        match other.shape with
        | [k', n] =>
          if k ≠ k' then Call.throw "tensor_matmul inner dimension mismatch"
          else
            match usizeOfI64 m, usizeOfI64 k, usizeOfI64 n with
            | some rows, some inner, some cols => do
              let capacity ← Call.value (usizeOf d.toolchain (rows * cols))
              Call.value (reserve capacity)
              let values ← Call.lift
                (matmulValues d ops tensor.values other.values rows inner cols).run
              Call.infallible (allocTensor d.toolchain · ⟨tensor.kind, [m, n], values⟩)
            | _, _, _ => Call.throw "matmul dim"
        | _ => Call.throw "tensor_matmul requires rank-2 argument"
      | _ => Call.throw "tensor_matmul requires rank-2 receiver"

/-- The sum of elements that are numbers. -/
def sumElements (values : List RuntimeValue) : Option UInt64 :=
  values.foldlM (fun acc value => match value with
    | .f64 bits => some (ops.add acc bits)
    | .i64 value => some (ops.add acc (ops.ofI64 value))
    | .i32 value => some (ops.add acc (ops.ofI32 value))
    | _ => none) 0

def tensorSum (handle : UInt32) : Call (HostState κ μ) String UInt64 := do
  let host ← Call.get
  match host.findTensor handle with
  | none => Call.throw s!"tensor_sum handle {showI32 handle}: unknown tensor handle"
  | some tensor =>
    match sumElements ops tensor.values with
    | none => Call.throw "tensor_sum element kind not summable to f64"
    | some sum => return sum

def tensorMean (handle : UInt32) : Call (HostState κ μ) String UInt64 := do
  let host ← Call.get
  match host.findTensor handle with
  | none => Call.throw s!"tensor_mean handle {showI32 handle}: unknown tensor handle"
  | some tensor =>
    if tensor.values.isEmpty then Call.throw "tensor_mean requires at least one element"
    else
      match sumElements ops tensor.values with
      | none => Call.throw "tensor_mean element kind not summable to f64"
      | some sum => return ops.div sum (ops.ofUsize tensor.values.length)

def convertTensorValue (source target : UInt32) (value : RuntimeValue) : Option RuntimeValue := do
  let scalar ← match value with
    | .i64 value => if source ∈ d.kinds.longs then some (ops.ofI64 value) else none
    | .i32 value => if source ∈ d.kinds.words then some (ops.ofI32 value) else none
    | .f64 bits => if source ∈ d.kinds.floats then some bits else none
    | _ => none
  if target ∈ d.kinds.floats then return .f64 scalar
  else if target ∈ d.kinds.longs then return .i64 (ops.toI64 scalar)
  else if target ∈ d.kinds.words then return .i32 (ops.toI32 scalar)
  else none

def convertElement (source target : UInt32) (value : RuntimeValue) : Except String RuntimeValue :=
  match convertTensorValue d ops source target value with
  | some converted => .ok converted
  | none =>
    .error (s!"tensor_convert {showI32 source}→{showI32 target} on " ++
      debugValue d.formats value)

def tensorConvert (handle source target : UInt32) : Call (HostState κ μ) String UInt32 := do
  let host ← Call.get
  match host.findTensor handle with
  | none => Call.throw s!"tensor_convert handle {showI32 handle}: unknown tensor handle"
  | some tensor => do
    let converted ← Call.lift (some (tensor.values.mapM (convertElement d ops source target)))
    Call.infallible (allocTensor d.toolchain · ⟨target, tensor.shape, converted⟩)

end HostState

open HostState

/-- The tensor rows with their arguments. -/
inductive TensorCall where
  | new (kind : UInt32)
  | create (seed : UInt32) (fill : UInt64) (shape : UInt32)
  | fromFlat (seed flat shape : UInt32)
  | rank (handle : UInt32)
  | shape (handle : UInt32)
  | reshape (handle shape : UInt32)
  | get (handle index : UInt32)
  | set (handle index : UInt32) (value : UInt64)
  | fill (handle : UInt32) (value : UInt64)
  | flatten (handle : UInt32)
  | materialize (handle : UInt32)
  | slice (handle : UInt32) (start stop : UInt64)
  | binary (op : TensorBinaryOp) (left right : UInt32)
  | matmul (left right : UInt32)
  | sum (handle : UInt32)
  | mean (handle : UInt32)
  | convert (handle source target : UInt32)
  deriving DecidableEq, Repr

/-- What a tensor row returns. -/
inductive TensorAnswer where
  | handle (handle : UInt32)
  | rank (rank : UInt64)
  | scalar (bits : UInt64)
  | nothing
  deriving DecidableEq, Repr

def TensorCall.run {κ μ : Type} (d : Dialect) (ops : FloatOps) :
    TensorCall → Call (HostState κ μ) String TensorAnswer
  | .new kind => .handle <$> tensorNew d kind
  | .create seed bits dims => .handle <$> tensorCreate d seed bits dims
  | .fromFlat seed flat dims => .handle <$> tensorFromFlat d seed flat dims
  | .rank handle => .rank <$> tensorRank handle
  | .shape handle => .handle <$> tensorShape d handle
  | .reshape handle dims => .handle <$> tensorReshape d handle dims
  | .get handle index => .handle <$> tensorGet d.toolchain d.kinds handle index
  | .set handle index value => (fun _ => .nothing) <$> tensorSet d handle index value
  | .fill handle value => .handle <$> tensorFill d handle value
  | .flatten handle => .handle <$> tensorFlatten d handle
  | .materialize handle => .handle <$> tensorMaterialize d handle
  | .slice handle start stop => .handle <$> tensorSlice d handle start stop
  | .binary op left right => .handle <$> tensorAddSubMul d ops op left right
  | .matmul left right => .handle <$> tensorMatmul d ops left right
  | .sum handle => .scalar <$> tensorSum ops handle
  | .mean handle => .scalar <$> tensorMean ops handle
  | .convert handle source target => .handle <$> tensorConvert d ops handle source target

end FaberHosts.Wasm
