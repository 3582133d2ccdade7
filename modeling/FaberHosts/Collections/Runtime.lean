import FaberHosts.Lib.Keyed

/-!
# Typed maps and sets of the runtime

`llvm/src/collection_map.rs`: maps and sets are vectors of entries and values,
searched with an equality that depends on the kind of their keys.  A handle is the
position of a collection in its arena.
-/

namespace FaberHosts.Collections
open FaberHosts.Lib

/-! ## Values -/

inductive ValueKind where
  | i1 | i8 | i16 | i32 | i64 | u8 | u16 | u32 | u64 | f16 | f32 | f64
  | ptr | text | valor | optionI64 | instans | ascii
  | other (tag : Nat)
  deriving DecidableEq, Repr

/-- A value cell.  Floats are kept as their bits. -/
inductive RuntimeValue where
  | i1 (value : UInt8)
  | i8 (value : Int8)
  | i16 (value : Int16)
  | i32 (value : Int32)
  | i64 (value : Int64)
  | u8 (value : UInt8)
  | u16 (value : UInt16)
  | u32 (value : UInt32)
  | u64 (value : UInt64)
  | f16 (bits : UInt16)
  | f32 (bits : UInt32)
  | f64 (bits : UInt64)
  | ptr (value : UInt64)
  deriving DecidableEq, Repr

/-- `==` of two `f32`: a NaN equals nothing, and the two zeros are equal. -/
def f32Eq (a b : UInt32) : Bool :=
  let magnitude (x : UInt32) := x &&& 0x7fffffff
  decide (magnitude a ≤ 0x7f800000) && decide (magnitude b ≤ 0x7f800000) &&
    (a == b || (magnitude a == 0 && magnitude b == 0))

def f64Eq (a b : UInt64) : Bool :=
  let magnitude (x : UInt64) := x &&& 0x7fffffffffffffff
  decide (magnitude a ≤ 0x7ff0000000000000) && decide (magnitude b ≤ 0x7ff0000000000000) &&
    (a == b || (magnitude a == 0 && magnitude b == 0))

/-- The derived `PartialEq`. -/
def RuntimeValue.eq : RuntimeValue → RuntimeValue → Bool
  | .f32 a, .f32 b => f32Eq a b
  | .f64 a, .f64 b => f64Eq a b
  | a, b => a == b

def validKind : ValueKind → Bool
  | .other _ => false
  | _ => true

/-- The cells `read_value` makes of a kind. -/
def represents : ValueKind → RuntimeValue → Bool
  | .i1, .i1 _ | .i8, .i8 _ | .i16, .i16 _ | .i32, .i32 _ | .i64, .i64 _ => true
  | .u8, .u8 _ | .u16, .u16 _ | .u32, .u32 _ | .u64, .u64 _ => true
  | .f16, .f16 _ | .f32, .f32 _ | .f64, .f64 _ => true
  | .ptr, .ptr _ | .text, .ptr _ | .valor, .ptr _ => true
  | .optionI64, .ptr _ | .instans, .ptr _ | .ascii, .ptr _ => true
  | _, _ => false

/-- What a value pointer of a call leads to: nothing if it is null or misaligned. -/
abbrev Cell := Option RuntimeValue

def readValue (kind : ValueKind) (cell : Cell) : Option RuntimeValue :=
  cell.filter (represents kind)

/-- An output pointer of a call. -/
inductive Output where
  | null
  | misaligned
  | writable
  deriving DecidableEq, Repr

/-! ## Texts -/

structure FaberRtSlice where
  data : UInt64
  len : UInt64

/-- The memory behind text pointers.  Texts do not change while the runtime lives. -/
structure Memory where
  slice : UInt64 → FaberRtSlice
  read : UInt64 → Nat → List UInt8

def textBytes (memory : Memory) (text : UInt64) : Option (List UInt8) :=
  if text = 0 then none
  else
    let slice := memory.slice text
    if 0 < slice.len ∧ slice.data = 0 then none
    else if slice.len = 0 then some []
    else some (memory.read slice.data slice.len.toNat)

/-- The text of a descriptor, if it is UTF-8. -/
def textValue (memory : Memory) (text : UInt64) : Option String :=
  (textBytes memory text).bind (fun bytes => String.fromUTF8? ⟨bytes.toArray⟩)

def valuesEqual (memory : Memory) (kind : ValueKind) (left right : RuntimeValue) : Bool :=
  if kind ≠ .text then left.eq right
  else
    match left, right with
    | .ptr left, .ptr right =>
      match textBytes memory left, textBytes memory right with
      | some left, some right => left == right
      | _, _ => false
    | _, _ => false

/-! ## Collections -/

structure RuntimeMap where
  keyKind : ValueKind
  valueKind : ValueKind
  entries : List (RuntimeValue × RuntimeValue)
  deriving DecidableEq, Repr

structure RuntimeSet where
  kind : ValueKind
  values : List RuntimeValue
  deriving DecidableEq, Repr

structure RuntimeArray where
  kind : ValueKind
  values : List RuntimeValue
  deriving DecidableEq, Repr

/-- The arenas of maps and sets. -/
structure Runtime where
  maps : List RuntimeMap
  sets : List RuntimeSet
  deriving DecidableEq, Repr

inductive Status where
  | invalidArgument
  | panic
  deriving DecidableEq, Repr

/-- The answer of a call: a status with what it wrote or the handle it returned. -/
inductive Answer where
  | ok
  | failure (status : Status)
  | handle (index : Nat)
  | value (v : RuntimeValue)
  | option (v : Option RuntimeValue)
  | flag (b : Bool)
  | length (n : Nat)
  | array (a : RuntimeArray)
  deriving DecidableEq, Repr

abbrev invalid : Answer := .failure .invalidArgument

/-- `i64::try_from` of a vector's length. -/
def lengthAnswer (len : Nat) : Answer := if len < 2 ^ 63 then .length len else invalid

def canonicalArrayElementKind : ValueKind → ValueKind
  | .text | .ascii | .valor | .optionI64 | .instans => .ptr
  | kind => kind

/-- `store_array`: every value must have the cells of a known kind. -/
def storeArray (kind : ValueKind) (values : List RuntimeValue) : Answer :=
  if validKind kind && values.all (represents kind) then .array ⟨kind, values⟩ else invalid

section Calls

variable (memory : Memory) (runtime : Runtime)

def storeMap (keyKind valueKind : ValueKind) (entries : List (RuntimeValue × RuntimeValue)) :
    Answer × Runtime :=
  (.handle runtime.maps.length,
    { runtime with maps := runtime.maps ++ [⟨keyKind, valueKind, entries⟩] })

def storeSet (kind : ValueKind) (values : List RuntimeValue) : Answer × Runtime :=
  (.handle runtime.sets.length, { runtime with sets := runtime.sets ++ [⟨kind, values⟩] })

def setMap (handle : Nat) (map : RuntimeMap) : Runtime :=
  { runtime with maps := runtime.maps.set handle map }

def setSet (handle : Nat) (set : RuntimeSet) : Runtime :=
  { runtime with sets := runtime.sets.set handle set }

def RuntimeMap.put (map : RuntimeMap) (key value : RuntimeValue) : RuntimeMap :=
  { map with entries := assign (valuesEqual memory map.keyKind) map.entries key value }

def RuntimeMap.get (map : RuntimeMap) (key : RuntimeValue) : Option RuntimeValue :=
  findValue (valuesEqual memory map.keyKind) map.entries key

def RuntimeMap.contains (map : RuntimeMap) (key : RuntimeValue) : Bool :=
  map.entries.any (fun entry => valuesEqual memory map.keyKind entry.1 key)

def RuntimeMap.delete (map : RuntimeMap) (key : RuntimeValue) : RuntimeMap :=
  { map with
    entries := map.entries.filter (fun entry => !valuesEqual memory map.keyKind entry.1 key) }

def contains (kind : ValueKind) (values : List RuntimeValue) (value : RuntimeValue) : Bool :=
  holds (valuesEqual memory kind) values value

def mapNew (keyKind valueKind : ValueKind) : Answer × Runtime :=
  if !validKind keyKind || !validKind valueKind then (invalid, runtime)
  else storeMap runtime keyKind valueKind []

def mapPut (handle : Nat) (keyKind : ValueKind) (key : Cell) (valueKind : ValueKind)
    (value : Cell) : Answer × Runtime :=
  match readValue keyKind key with
  | none => (invalid, runtime)
  | some key =>
    match readValue valueKind value with
    | none => (invalid, runtime)
    | some value =>
      match runtime.maps[handle]? with
      | none => (invalid, runtime)
      | some map =>
        if map.keyKind ≠ keyKind ∨ map.valueKind ≠ valueKind then (invalid, runtime)
        else (.ok, setMap runtime handle (map.put memory key value))

/-- A map of texts to `i64` through its handle, left unchanged on any mismatch. -/
def aggregateSetIndex (aggregate : Nat) (key : UInt64) (value : Int64) : Answer × Runtime :=
  match textValue memory key with
  | none => (.ok, runtime)
  | some _ =>
    match runtime.maps[aggregate]? with
    | none => (.ok, runtime)
    | some map =>
      if map.keyKind ≠ .text ∨ map.valueKind ≠ .i64 then (.ok, runtime)
      else (.ok, setMap runtime aggregate (map.put memory (.ptr key) (.i64 value)))

def mapOption (handle : Nat) (keyKind : ValueKind) (key : Cell) (valueKind : ValueKind) :
    Answer × Runtime :=
  match readValue keyKind key with
  | none => (invalid, runtime)
  | some key =>
    match runtime.maps[handle]? with
    | none => (invalid, runtime)
    | some map =>
      if map.keyKind ≠ keyKind ∨ map.valueKind ≠ valueKind then (invalid, runtime)
      else (.option (map.get memory key), runtime)

def mapGet (handle : Nat) (keyKind : ValueKind) (key : Cell) (valueKind : ValueKind)
    (output : Output) : Answer × Runtime :=
  match readValue keyKind key with
  | none => (invalid, runtime)
  | some key =>
    match runtime.maps[handle]? with
    | none => (invalid, runtime)
    | some map =>
      if map.keyKind ≠ keyKind ∨ map.valueKind ≠ valueKind ∨ output = .null then
        (invalid, runtime)
      else
        match map.get memory key with
        | none => (invalid, runtime)
        | some value =>
          if output = .misaligned then (invalid, runtime) else (.value value, runtime)

/-- The queries that answer whether a key was there, and what they leave behind. -/
def mapQuery (predicate : RuntimeMap → RuntimeValue → Bool × RuntimeMap) (handle : Nat)
    (keyKind : ValueKind) (key : Cell) (output : Output) : Answer × Runtime :=
  match readValue keyKind key with
  | none => (invalid, runtime)
  | some key =>
    match runtime.maps[handle]? with
    | none => (invalid, runtime)
    | some map =>
      if map.keyKind ≠ keyKind ∨ output = .null then (invalid, runtime)
      else
        let (value, map) := predicate map key
        (.flag value, setMap runtime handle map)

def mapContains : Nat → ValueKind → Cell → Output → Answer × Runtime :=
  mapQuery runtime (fun map key => (map.contains memory key, map))

def mapDelete : Nat → ValueKind → Cell → Output → Answer × Runtime :=
  mapQuery runtime (fun map key =>
    let after := map.delete memory key
    (after.entries.length != map.entries.length, after))

def mapSizeQuery (operation : RuntimeMap → Answer) (handle : Nat) (output : Output) :
    Answer × Runtime :=
  match runtime.maps[handle]? with
  | none => (invalid, runtime)
  | some map => if output = .null then (invalid, runtime) else (operation map, runtime)

def mapLength : Nat → Output → Answer × Runtime :=
  mapSizeQuery runtime (fun map => lengthAnswer map.entries.length)

def mapIsEmpty : Nat → Output → Answer × Runtime :=
  mapSizeQuery runtime (fun map => .flag map.entries.isEmpty)

def mapKeys (handle : Nat) : Answer × Runtime :=
  match runtime.maps[handle]? with
  | none => (invalid, runtime)
  | some map =>
    (storeArray (canonicalArrayElementKind map.keyKind) (map.entries.map Prod.fst), runtime)

def mapValues (handle : Nat) : Answer × Runtime :=
  match runtime.maps[handle]? with
  | none => (invalid, runtime)
  | some map =>
    (storeArray (canonicalArrayElementKind map.valueKind) (map.entries.map Prod.snd), runtime)

def setNew (kind : ValueKind) : Answer × Runtime :=
  if !validKind kind then (invalid, runtime) else storeSet runtime kind []

def setAdd (handle : Nat) (kind : ValueKind) (value : Cell) : Answer × Runtime :=
  match readValue kind value with
  | none => (invalid, runtime)
  | some value =>
    match runtime.sets[handle]? with
    | none => (invalid, runtime)
    | some set =>
      if set.kind ≠ kind then (invalid, runtime)
      else
        (.ok, setSet runtime handle
          { set with values := pushUnique (valuesEqual memory set.kind) set.values value })

/-- `lista ↦ copia`, of the array its handle leads to. -/
def setFromArray (array : Option RuntimeArray) : Answer × Runtime :=
  match array with
  | none => (invalid, runtime)
  | some array =>
    storeSet runtime array.kind (array.values.foldl (pushUnique (valuesEqual memory array.kind)) [])

def arrayFromSet (handle : Nat) : Answer × Runtime :=
  match runtime.sets[handle]? with
  | none => (invalid, runtime)
  | some set => (storeArray set.kind set.values, runtime)

def setQuery (remove : Bool) (handle : Nat) (kind : ValueKind) (value : Cell) (output : Output) :
    Answer × Runtime :=
  match readValue kind value with
  | none => (invalid, runtime)
  | some value =>
    match runtime.sets[handle]? with
    | none => (invalid, runtime)
    | some set =>
      if set.kind ≠ kind ∨ output = .null then (invalid, runtime)
      else
        (.flag (contains memory set.kind set.values value),
          if remove then
            setSet runtime handle { set with
              values := set.values.filter
                (fun candidate => !valuesEqual memory set.kind candidate value) }
          else runtime)

def setContains : Nat → ValueKind → Cell → Output → Answer × Runtime :=
  setQuery memory runtime false

def setDelete : Nat → ValueKind → Cell → Output → Answer × Runtime :=
  setQuery memory runtime true

def setSizeQuery (operation : RuntimeSet → Answer) (handle : Nat) (output : Output) :
    Answer × Runtime :=
  match runtime.sets[handle]? with
  | none => (invalid, runtime)
  | some set => if output = .null then (invalid, runtime) else (operation set, runtime)

def setLength : Nat → Output → Answer × Runtime :=
  setSizeQuery runtime (fun set => lengthAnswer set.values.length)

def setIsEmpty : Nat → Output → Answer × Runtime :=
  setSizeQuery runtime (fun set => .flag set.values.isEmpty)

def setAlgebra (operation : ValueKind → List RuntimeValue → List RuntimeValue → List RuntimeValue)
    (left right : Nat) : Answer × Runtime :=
  match runtime.sets[left]? with
  | none => (invalid, runtime)
  | some left =>
    match runtime.sets[right]? with
    | none => (invalid, runtime)
    | some right =>
      if left.kind ≠ right.kind then (invalid, runtime)
      else storeSet runtime left.kind (operation left.kind left.values right.values)

def union (kind : ValueKind) (left right : List RuntimeValue) : List RuntimeValue :=
  (left ++ right).foldl (pushUnique (valuesEqual memory kind)) []

def intersection (kind : ValueKind) (left right : List RuntimeValue) : List RuntimeValue :=
  left.filter (contains memory kind right)

def difference (kind : ValueKind) (left right : List RuntimeValue) : List RuntimeValue :=
  left.filter (fun value => !contains memory kind right value)

def symmetricDifference (kind : ValueKind) (left right : List RuntimeValue) : List RuntimeValue :=
  left.filter (fun value => !contains memory kind right value) ++
    right.filter (fun value => !contains memory kind left value)

def setUnion : Nat → Nat → Answer × Runtime := setAlgebra runtime (union memory)

def setIntersection : Nat → Nat → Answer × Runtime := setAlgebra runtime (intersection memory)

def setDifference : Nat → Nat → Answer × Runtime := setAlgebra runtime (difference memory)

def setSymmetricDifference : Nat → Nat → Answer × Runtime :=
  setAlgebra runtime (symmetricDifference memory)

def setRelation (relation : ValueKind → List RuntimeValue → List RuntimeValue → Bool)
    (left right : Nat) (output : Output) : Answer × Runtime :=
  match runtime.sets[left]? with
  | none => (invalid, runtime)
  | some left =>
    match runtime.sets[right]? with
    | none => (invalid, runtime)
    | some right =>
      if left.kind ≠ right.kind ∨ output = .null then (invalid, runtime)
      else (.flag (relation left.kind left.values right.values), runtime)

def setIsSubset : Nat → Nat → Output → Answer × Runtime :=
  setRelation runtime (fun kind left right => left.all (contains memory kind right))

def setIsSuperset : Nat → Nat → Output → Answer × Runtime :=
  setRelation runtime (fun kind left right => right.all (contains memory kind left))

end Calls

/-! ## Runs -/

inductive Call where
  | mapNew (keyKind valueKind : ValueKind)
  | mapPut (map : Nat) (keyKind : ValueKind) (key : Cell) (valueKind : ValueKind) (value : Cell)
  | aggregateSetIndex (aggregate : Nat) (key : UInt64) (value : Int64)
  | mapOption (map : Nat) (keyKind : ValueKind) (key : Cell) (valueKind : ValueKind)
  | mapGet (map : Nat) (keyKind : ValueKind) (key : Cell) (valueKind : ValueKind) (output : Output)
  | mapContains (map : Nat) (keyKind : ValueKind) (key : Cell) (output : Output)
  | mapDelete (map : Nat) (keyKind : ValueKind) (key : Cell) (output : Output)
  | mapLength (map : Nat) (output : Output)
  | mapIsEmpty (map : Nat) (output : Output)
  | mapKeys (map : Nat)
  | mapValues (map : Nat)
  | setNew (kind : ValueKind)
  | setAdd (set : Nat) (kind : ValueKind) (value : Cell)
  | setFromArray (array : Option RuntimeArray)
  | arrayFromSet (set : Nat)
  | setContains (set : Nat) (kind : ValueKind) (value : Cell) (output : Output)
  | setDelete (set : Nat) (kind : ValueKind) (value : Cell) (output : Output)
  | setLength (set : Nat) (output : Output)
  | setIsEmpty (set : Nat) (output : Output)
  | setUnion (left right : Nat)
  | setIntersection (left right : Nat)
  | setDifference (left right : Nat)
  | setSymmetricDifference (left right : Nat)
  | setIsSubset (left right : Nat) (output : Output)
  | setIsSuperset (left right : Nat) (output : Output)

def step (memory : Memory) (runtime : Runtime) : Call → Answer × Runtime
  | .mapNew keyKind valueKind => mapNew runtime keyKind valueKind
  | .mapPut map keyKind key valueKind value =>
    mapPut memory runtime map keyKind key valueKind value
  | .aggregateSetIndex aggregate key value => aggregateSetIndex memory runtime aggregate key value
  | .mapOption map keyKind key valueKind => mapOption memory runtime map keyKind key valueKind
  | .mapGet map keyKind key valueKind output =>
    mapGet memory runtime map keyKind key valueKind output
  | .mapContains map keyKind key output => mapContains memory runtime map keyKind key output
  | .mapDelete map keyKind key output => mapDelete memory runtime map keyKind key output
  | .mapLength map output => mapLength runtime map output
  | .mapIsEmpty map output => mapIsEmpty runtime map output
  | .mapKeys map => mapKeys runtime map
  | .mapValues map => mapValues runtime map
  | .setNew kind => setNew runtime kind
  | .setAdd set kind value => setAdd memory runtime set kind value
  | .setFromArray array => setFromArray memory runtime array
  | .arrayFromSet set => arrayFromSet runtime set
  | .setContains set kind value output => setContains memory runtime set kind value output
  | .setDelete set kind value output => setDelete memory runtime set kind value output
  | .setLength set output => setLength runtime set output
  | .setIsEmpty set output => setIsEmpty runtime set output
  | .setUnion left right => setUnion memory runtime left right
  | .setIntersection left right => setIntersection memory runtime left right
  | .setDifference left right => setDifference memory runtime left right
  | .setSymmetricDifference left right => setSymmetricDifference memory runtime left right
  | .setIsSubset left right output => setIsSubset memory runtime left right output
  | .setIsSuperset left right output => setIsSuperset memory runtime left right output

/-- The answers of a run of calls, and the runtime after it. -/
def run (memory : Memory) (runtime : Runtime) : List Call → List Answer × Runtime
  | [] => ([], runtime)
  | call :: rest =>
    let (answer, next) := step memory runtime call
    let (answers, last) := run memory next rest
    (answer :: answers, last)

def Runtime.new : Runtime := ⟨[], []⟩

end FaberHosts.Collections
