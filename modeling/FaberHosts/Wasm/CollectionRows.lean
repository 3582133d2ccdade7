import FaberHosts.Lib.Words
import FaberHosts.Wasm.Display

/-!
# Collection, map, option and tensor rows

`imports.rs`: the host functions a module calls on its lists, sets, maps, options and
tensors.  A row that fails traps with the message it records.  A map row reads its keys
by the kind the map declares, except for the lookups of `array_option` and
`array_contains`, which compare with a handle.
-/

namespace FaberHosts.Wasm
open FaberHosts.Lib

namespace HostState

variable {κ μ : Type}

/-- `usize::try_from` of an `i64`. -/
def usizeOfI64 (value : UInt64) : Option Nat :=
  if value.toNat < 2 ^ 63 then some value.toNat else none

/-- `i64::try_from` of a length, with `expect`. -/
def lengthI64 (length : Nat) : MayPanic UInt64 :=
  if length < 2 ^ 63 then some (UInt64.ofNat length) else none

/-- Change the collection of a handle through `find_collection_mut`. -/
def modifyCollection (handle : UInt32) (f : CollectionValue → CollectionValue)
    (host : HostState κ μ) : HostState κ μ :=
  match host.dynamic[handle]? with
  | some (.collection index) => { host with collections := host.collections.modify index f }
  | _ => host

/-- Change the map of a handle through `find_map_mut`. -/
def modifyMap (handle : UInt32) (f : MapValue → MapValue) (host : HostState κ μ) :
    HostState κ μ :=
  match host.dynamic[handle]? with
  | some (.map index) => { host with maps := host.maps.modify index f }
  | _ => host

/-- The result of an index read: boxed in the option arena for the kinds that do not fit
    an `i32`, and otherwise the payload itself, with 0 for an absent one. -/
def optionResult (T : Toolchain) (kinds : ValueKinds) (kind : UInt32)
    (payload : Option RuntimeValue) : Call (HostState κ μ) String UInt32 :=
  if kind ∈ kinds.boxed then Call.infallible (allocOption T · kind payload)
  else return match payload with
    | some payload => (valueToI64 payload).toUInt32
    | none => 0

/-! ## Lists and sets -/

def arrayLength (handle : UInt32) : Call (HostState κ μ) String UInt64 := do
  let host ← Call.get
  match host.findCollection handle with
  | some collection => Call.value (lengthI64 collection.values.length)
  | none =>
  match host.findMap handle with
  | some map => Call.value (lengthI64 map.entries.length)
  | none =>
  match host.resolveOcteti handle with
  | some bytes => Call.value (lengthI64 bytes.length)
  | none => Call.throw s!"array_length handle {showI32 handle}: unknown collection handle"

/-- The keys -1 to -4 that ask for the first and the last element, and for their removal. -/
def firstKey : UInt64 := 0 - 1
def lastKey : UInt64 := 0 - 2
def removeFirstKey : UInt64 := 0 - 3
def removeLastKey : UInt64 := 0 - 4

/-- The element a key that removes nothing finds. -/
def elementOf (values : List RuntimeValue) (key : UInt64) : Option RuntimeValue :=
  let index :=
    if key = firstKey then 0
    else if key = lastKey then values.length - 1
    else (usizeOfI64 key).getD wordMax
  values[index]?

/-- The value a lookup finds: the key is compared with a handle. -/
def lookupHandle (map : MapValue) (key : UInt64) : Option RuntimeValue :=
  (map.entries.find? (fun entry => entry.1 = .handle key.toUInt32)).map Prod.snd

def arrayOption (T : Toolchain) (kinds : ValueKinds) (handle : UInt32) (key : UInt64) :
    Call (HostState κ μ) String UInt32 := do
  let host ← Call.get
  match host.findCollection handle with
  | some collection =>
    if key = removeLastKey then do
      Call.modify (modifyCollection handle (fun c => { c with values := c.values.dropLast }))
      optionResult T kinds collection.kind collection.values.getLast?
    else if key = removeFirstKey then do
      Call.modify (modifyCollection handle (fun c => { c with values := c.values.tail }))
      optionResult T kinds collection.kind collection.values.head?
    else optionResult T kinds collection.kind (elementOf collection.values key)
  | none =>
  match host.findMap handle with
  | some map => optionResult T kinds map.valueKind (lookupHandle map key)
  | none =>
  match host.resolveOcteti handle with
  | some bytes =>
    match usizeOfI64 key with
    | none => return 0
    | some index =>
      optionResult T kinds kinds.u8 (bytes[index]?.map (fun byte => .i32 byte.toUInt32))
  | none => Call.throw s!"array_option handle {showI32 handle}: unknown collection handle"

def arrayContains (kinds : ValueKinds) (handle : UInt32) (value : UInt64) :
    Call (HostState κ μ) String Bool := do
  let host ← Call.get
  match host.findCollection handle with
  | some collection =>
    match valueFromI64 kinds collection.kind value with
    | none => Call.throw s!"array_contains handle {showI32 handle}: unknown element kind"
    | some value => return collection.values.any (runtimeValueEq · value)
  | none =>
  match host.findMap handle with
  | some map => return map.entries.any (fun entry => entry.1 = .handle value.toUInt32)
  | none => Call.throw s!"array_contains handle {showI32 handle}: unknown collection handle"

/-! ## Maps -/

def mapNew (T : Toolchain) (keyKind valueKind : UInt32) : Call (HostState κ μ) String UInt32 :=
  Call.infallible (allocMap T · keyKind valueKind [])

/-- A key by the declared kind; a kind the host does not know is read as a handle. -/
def keyOf (kinds : ValueKinds) (kind : UInt32) (key : UInt64) : RuntimeValue :=
  (valueFromI64 kinds kind key).getD (.handle key.toUInt32)

def mapPut (kinds : ValueKinds) (handle key : UInt32) (value : UInt64) :
    Call (HostState κ μ) String Unit := do
  let host ← Call.get
  match host.findMap handle with
  | none => Call.throw s!"map_put handle {showI32 handle}: unknown map handle"
  | some map =>
    match valueFromI64 kinds map.valueKind value with
    | none =>
      Call.throw s!"map_put handle {showI32 handle}: unknown value kind {map.valueKind.toNat}"
    | some value =>
      let keyValue := keyOf kinds map.keyKind (signExtend key)
      let entries := assign runtimeValueEq map.entries keyValue value
      Call.modify (modifyMap handle (fun map => { map with entries := entries }))

/-- Remove a key of a map, or an element of a set. -/
def mapDelete (kinds : ValueKinds) (handle : UInt32) (key : UInt64) :
    Call (HostState κ μ) String Bool := do
  let host ← Call.get
  match host.findMap handle with
  | some map =>
    let keyValue := keyOf kinds map.keyKind key
    let kept := map.entries.filter (fun entry => !runtimeValueEq entry.1 keyValue)
    Call.modify (modifyMap handle (fun map => { map with entries := kept }))
    return kept.length ≠ map.entries.length
  | none =>
  match host.findCollection handle with
  | some collection =>
    match valueFromI64 kinds collection.kind key with
    | none =>
      Call.throw
        s!"map_delete handle {showI32 handle}: unknown element kind {collection.kind.toNat}"
    | some value =>
      let kept := collection.values.filter (fun existing => !runtimeValueEq existing value)
      Call.modify (modifyCollection handle (fun c => { c with values := kept }))
      return kept.length ≠ collection.values.length
  | none => Call.throw s!"map_delete handle {showI32 handle}: unknown map handle"

/-- A list of the keys; its kind is that of texts. -/
def mapKeys (T : Toolchain) (kinds : ValueKinds) (handle : UInt32) :
    Call (HostState κ μ) String UInt32 := do
  let host ← Call.get
  match host.findMap handle with
  | none => Call.throw s!"map_keys handle {showI32 handle}: unknown map handle"
  | some map =>
    Call.infallible (allocCollection T · false kinds.text (map.entries.map Prod.fst))

/-! ## Options -/

def optionGet (handle : UInt32) (host : HostState κ μ) : UInt64 :=
  match host.findOption handle with
  | some option =>
    match option.payload with
    | some payload => valueToI64 payload
    | none => 0
  | none => signExtend handle

def optionGetOr (handle : UInt32) (fallback : UInt64) (host : HostState κ μ) : UInt64 :=
  match host.findOption handle with
  | some option =>
    match option.payload with
    | some payload => valueToI64 payload
    | none => fallback
  | none => fallback

def optionIsPresent (handle : UInt32) (host : HostState κ μ) : Bool :=
  match host.findOption handle with
  | some option => option.payload.isSome
  | none => handle ≠ 0

/-! ## Tensors -/

/-- One dimension of `tensor_flat_offset`, from the last one on. -/
def offsetStep (dim index : UInt64) (walked : Nat × Nat) : Option (Nat × Nat) := do
  let dim ← usizeOfI64 dim
  let index ← usizeOfI64 index
  if dim ≤ index then none
  else do
    let offset ← (mulWord index walked.2).bind (addWord walked.1)
    let stride ← mulWord walked.2 dim
    return (offset, stride)

def tensorFlatOffset (shape index : List UInt64) : Option Nat :=
  if shape.length ≠ index.length then none
  else
    ((shape.zip index).foldrM (fun pair walked => offsetStep pair.1 pair.2 walked) (0, 1)).map
      Prod.fst

/-- The dims of an index list. -/
def readIndexVector (host : HostState κ μ) (handle : UInt32) : Option (List UInt64) := do
  let collection ← host.findCollection handle
  collection.values.mapM (fun value => match value with
    | .i64 value => some value
    | .i32 value => some (signExtend value)
    | _ => none)

def tensorGet (T : Toolchain) (kinds : ValueKinds) (handle index : UInt32) :
    Call (HostState κ μ) String UInt32 := do
  let host ← Call.get
  match host.findTensor handle with
  | none => Call.throw s!"tensor_get handle {showI32 handle}: unknown tensor handle"
  | some tensor =>
    match host.readIndexVector index with
    | none => Call.throw "tensor_get index must be a lista of dims"
    | some index =>
      optionResult T kinds tensor.kind
        ((tensorFlatOffset tensor.shape index).bind (tensor.values[·]?))

end HostState

end FaberHosts.Wasm
