import FaberHosts.Collections.Runtime
import FaberHosts.Llvm.Cells

/-!
# Octeti and arrays of bytes

`octeti.rs` and `array.rs`: byte strings are kept as octeti or as arrays of kind `u8`, and
a program may hold either where the other is meant.  The calls of the two interfaces on
such a handle.
-/

namespace FaberHosts.Llvm
open FaberHosts.Kernel FaberHosts.Lib

section

variable {Instans : Type} (word : Handle → UInt64) (fresh : Handle) (runtime : Runtime Instans)
  (handle : Handle)

/-! ## The octeti interface -/

/-- The payload of an array of kind `u8`. -/
def arrayBytes (array : RuntimeArray) : Option (List UInt8) :=
  if array.kind ≠ .u8 then none
  else array.values.mapM fun
    | .u8 byte => some byte
    | _ => none

def octetiBytes : Option (List UInt8) :=
  match findOcteti runtime.toRuntimeContext handle with
  | some bytes => some bytes
  | none => (findArray runtime.toRuntimeContext handle).bind arrayBytes

def octetiPush (byte : UInt8) : Bool × Runtime Instans :=
  match findOcteti runtime.toRuntimeContext handle with
  | some _ => (true, { runtime with octeti := runtime.octeti.update handle (· ++ [byte]) })
  | none =>
    match findArray runtime.toRuntimeContext handle with
    | none => (false, runtime)
    | some array =>
      if array.kind ≠ .u8 then (false, runtime)
      else
        (true, { runtime with
          arrays := runtime.arrays.update handle fun array =>
            { array with values := array.values ++ [.u8 byte] } })

def octetiAppend (byte : UInt8) : Answer Instans :=
  match octetiPush runtime handle byte with
  | (true, runtime) => (.ok, runtime)
  | (false, runtime) => (.invalid, runtime)

/-- `usize::try_from` of an index, and the element there. -/
def elementAt {α : Type} (values : List α) (index : Int64) : Option α :=
  if 0 ≤ index then values[index.toNatClampNeg]? else none

def octetiGet (index : Int64) : Answer Instans :=
  let value := (octetiBytes runtime handle).bind (fun bytes => elementAt bytes index)
  storeOption runtime fresh .u8 (value.map .u8)

/-- The output of this call is only compared with null. -/
def octetiLength (output : Handle) : Answer Instans :=
  match octetiBytes runtime handle with
  | none => (.invalid, runtime)
  | some bytes =>
    if 2 ^ 63 ≤ bytes.length then (.invalid, runtime)
    else if output = 0 then (.invalid, runtime)
    else (.wrote output (.i64 (Int64.ofNat bytes.length)), runtime)

def isAscii (bytes : List UInt8) : Bool := bytes.all (· < 128)

/-- The text of the bytes; an ascii text has no byte beyond 127. -/
def decodeText (ascii : Bool) (bytes : List UInt8) : Option String :=
  if ascii && !isAscii bytes then none else String.fromUTF8? ⟨bytes.toArray⟩

def decode (ascii : Bool) : Answer Instans :=
  match findOcteti runtime.toRuntimeContext handle with
  | none => (.invalid, runtime)
  | some bytes =>
    match decodeText ascii bytes with
    | none => (.invalid, runtime)
    | some text =>
      if ascii then
        (.pointer fresh, { runtime with ascii := runtime.ascii.store fresh (bytes ++ [0]) })
      else storeText runtime fresh text

/-! ## The array interface -/

def arrayPush (kind : ValueKind) (value : Handle) : Answer Instans :=
  match findArray runtime.toRuntimeContext handle with
  | none => (.invalid, runtime)
  | some array =>
    match readValue word kind value with
    | none => (.invalid, runtime)
    | some value =>
      if array.kind ≠ kind ∨ represents array.kind value = false then (.invalid, runtime)
      else
        (.ok, { runtime with
          arrays := runtime.arrays.update handle fun array =>
            { array with values := array.values ++ [value] } })

/-- Both may be the same array. -/
def arrayExtend (source : Handle) : Answer Instans :=
  match findArray runtime.toRuntimeContext handle with
  | none => (.invalid, runtime)
  | some dest =>
    match findArray runtime.toRuntimeContext source with
    | none => (.invalid, runtime)
    | some source =>
      if dest.kind ≠ source.kind then (.invalid, runtime)
      else
        (.ok, { runtime with
          arrays := runtime.arrays.update handle fun array =>
            { array with values := array.values ++ source.values } })

def arrayLength (output : Handle) : Answer Instans :=
  match findArray runtime.toRuntimeContext handle with
  | none => (.invalid, runtime)
  | some array =>
    if 2 ^ 63 ≤ array.values.length then (.invalid, runtime)
    else writing runtime output (.i64 (Int64.ofNat array.values.length))

def arrayGet (index : Int64) (kind : ValueKind) (output : Handle) : Answer Instans :=
  match findArray runtime.toRuntimeContext handle with
  | none => (.invalid, runtime)
  | some array =>
    match elementAt array.values index with
    | none => (.invalid, runtime)
    | some value =>
      if array.kind ≠ kind then (.invalid, runtime) else writing runtime output value

def arraySet (index : Int64) (kind : ValueKind) (value : Handle) : Answer Instans :=
  match readValue word kind value with
  | none => (.invalid, runtime)
  | some value =>
    match findArray runtime.toRuntimeContext handle with
    | none => (.invalid, runtime)
    | some array =>
      if ¬ 0 ≤ index then (.invalid, runtime)
      else if array.kind ≠ kind ∨ represents array.kind value = false ∨
          array.values.length ≤ index.toNatClampNeg then (.invalid, runtime)
      else
        (.ok, { runtime with
          arrays := runtime.arrays.update handle fun array =>
            { array with values := array.values.set index.toNatClampNeg value } })

def arrayClone : Answer Instans :=
  match findArray runtime.toRuntimeContext handle with
  | none => (.invalid, runtime)
  | some array => storeArrayCells runtime fresh array.kind array.values

/-- The derived `PartialEq` of a cell: a float by its value, any other cell by its bits. -/
def RuntimeValue.same : RuntimeValue → RuntimeValue → Bool
  | .f32 a, .f32 b => Collections.f32Eq a b
  | .f64 a, .f64 b => Collections.f64Eq a.bits b.bits
  | a, b => a == b

def arrayContains (kind : ValueKind) (value output : Handle) : Answer Instans :=
  match readValue word kind value with
  | none => (.invalid, runtime)
  | some value =>
    match findArray runtime.toRuntimeContext handle with
    | none => (.invalid, runtime)
    | some array =>
      if array.kind ≠ kind then (.invalid, runtime)
      else writing runtime output (.u8 (if array.values.any (·.same value) then 1 else 0))

def arrayIsEmpty (output : Handle) : Answer Instans :=
  match findArray runtime.toRuntimeContext handle with
  | none => (.invalid, runtime)
  | some array => writing runtime output (.u8 (if array.values.isEmpty then 1 else 0))

def arrayReverse : Answer Instans :=
  match findArray runtime.toRuntimeContext handle with
  | none => (.invalid, runtime)
  | some _ =>
    (.ok, { runtime with
      arrays := runtime.arrays.update handle fun array =>
        { array with values := array.values.reverse } })

/-- `FaberRtArrayRangeModeV1`. -/
inductive RangeMode where
  | slice
  | take
  | takeLast
  | dropFirst
  | other (code : UInt32)
  deriving DecidableEq, Repr

/-- `usize::try_from(value)`, cut to the length. -/
def clampIndex (len : Nat) (value : Int64) : Option Nat :=
  if 0 ≤ value then some (min value.toNatClampNeg len) else none

def rangeBounds (mode : RangeMode) (first second : Int64) (len : Nat) : Option (Nat × Nat) :=
  match mode with
  | .slice => do
    let stop ← clampIndex len second
    let start ← clampIndex len first
    some (min start stop, stop)
  | .take => do
    let stop ← clampIndex len first
    some (0, stop)
  | .takeLast => do
    let count ← clampIndex len first
    some (len - count, len)
  | .dropFirst => do
    let start ← clampIndex len first
    some (start, len)
  | .other _ => none

def arrayRange (mode : RangeMode) (first second : Int64) : Answer Instans :=
  match findArray runtime.toRuntimeContext handle with
  | none => (.invalid, runtime)
  | some array =>
    match rangeBounds mode first second array.values.length with
    | none => (.invalid, runtime)
    | some (start, stop) =>
      storeArrayCells runtime fresh array.kind ((array.values.take stop).drop start)

/-- `FaberRtArrayOptionModeV1`. -/
inductive OptionMode where
  | index
  | first
  | last
  | removeFirst
  | removeLast
  | other (code : UInt32)
  deriving DecidableEq, Repr

/-- The element a mode asks for, and the elements it leaves. -/
def optionOf (mode : OptionMode) (index : Int64) (values : List RuntimeValue) :
    Option (Option RuntimeValue × List RuntimeValue) :=
  match mode with
  | .index => some (elementAt values index, values)
  | .first => some (values.head?, values)
  | .last => some (values.getLast?, values)
  | .removeFirst => some (values.head?, values.tail)
  | .removeLast => some (values.getLast?, values.dropLast)
  | .other _ => none

def arrayOption (mode : OptionMode) (index : Int64) : Answer Instans :=
  match findArray runtime.toRuntimeContext handle with
  | none => (.invalid, runtime)
  | some array =>
    match optionOf mode index array.values with
    | none => (.invalid, runtime)
    | some (value, values) =>
      storeOption { runtime with
        arrays := runtime.arrays.update handle fun array => { array with values := values } }
        fresh array.kind value

end

/-! ## A handle of either kind -/

/-- Two runtimes that differ in one handle: it leads to octeti in the first and to an array of
    kind `u8` with the same bytes in the second. -/
structure Corresponds {Instans : Type} (handle : Handle) (bytes : List UInt8)
    (left right : Runtime Instans) : Prop where
  octeti : findOcteti left.toRuntimeContext handle = some bytes
  noArray : findArray left.toRuntimeContext handle = none
  noOcteti : findOcteti right.toRuntimeContext handle = none
  array : findArray right.toRuntimeContext handle = some ⟨.u8, bytes.map .u8⟩
  sameOcteti : ∀ other, other ≠ handle →
    findOcteti left.toRuntimeContext other = findOcteti right.toRuntimeContext other
  sameArray : ∀ other, other ≠ handle →
    findArray left.toRuntimeContext other = findArray right.toRuntimeContext other
  frame : { left with octeti := [], arrays := [] } = { right with octeti := [], arrays := [] }

/-- The calls of both interfaces on a handle; `arrayExtendFrom` extends another array by it. -/
inductive Operation where
  | octetiAppend (byte : UInt8)
  | octetiGet (index : Int64)
  | octetiLength (output : Handle)
  | octetiGetText
  | octetiGetAscii
  | arrayPush (kind : ValueKind) (value : Handle)
  | arrayExtend (source : Handle)
  | arrayExtendFrom (dest : Handle)
  | arrayLength (output : Handle)
  | arrayGet (index : Int64) (kind : ValueKind) (output : Handle)
  | arraySet (index : Int64) (kind : ValueKind) (value : Handle)
  | arrayClone
  | arrayContains (kind : ValueKind) (value output : Handle)
  | arrayIsEmpty (output : Handle)
  | arrayReverse
  | arrayRange (mode : RangeMode) (first second : Int64)
  | arrayOption (mode : OptionMode) (index : Int64)

namespace Operation

def run {Instans : Type} (word : Handle → UInt64) (fresh handle : Handle)
    (runtime : Runtime Instans) : Operation → Answer Instans
  | octetiAppend byte => Llvm.octetiAppend runtime handle byte
  | octetiGet index => Llvm.octetiGet fresh runtime handle index
  | octetiLength output => Llvm.octetiLength runtime handle output
  | octetiGetText => decode fresh runtime handle false
  | octetiGetAscii => decode fresh runtime handle true
  | arrayPush kind value => Llvm.arrayPush word runtime handle kind value
  | arrayExtend source => Llvm.arrayExtend runtime handle source
  | arrayExtendFrom dest => Llvm.arrayExtend runtime dest handle
  | arrayLength output => Llvm.arrayLength runtime handle output
  | arrayGet index kind output => Llvm.arrayGet runtime handle index kind output
  | arraySet index kind value => Llvm.arraySet word runtime handle index kind value
  | arrayClone => Llvm.arrayClone fresh runtime handle
  | arrayContains kind value output => Llvm.arrayContains word runtime handle kind value output
  | arrayIsEmpty output => Llvm.arrayIsEmpty runtime handle output
  | arrayReverse => Llvm.arrayReverse runtime handle
  | arrayRange mode first second => Llvm.arrayRange fresh runtime handle mode first second
  | arrayOption mode index => Llvm.arrayOption fresh runtime handle mode index

/-- The other handle is no array of kind `u8`. -/
def NoBytes {Instans : Type} (runtime : Runtime Instans) (handle other : Handle) : Prop :=
  other ≠ handle ∧
    ∀ array, findArray runtime.toRuntimeContext other = some array → array.kind ≠ .u8

/-- The call is one that looks into both arenas, or one that fails on either kind of handle. -/
def Interchangeable {Instans : Type} (runtime : Runtime Instans) (handle : Handle)
    (bytes : List UInt8) : Operation → Prop
  | octetiAppend _ | octetiGet _ | octetiLength _ => True
  | octetiGetText => decodeText false bytes = none
  | octetiGetAscii => decodeText true bytes = none
  | arrayPush kind value => kind ≠ .u8 ∨ value = 0
  | arrayExtend source => NoBytes runtime handle source
  | arrayExtendFrom dest => NoBytes runtime handle dest
  | arrayLength output => 2 ^ 63 ≤ bytes.length ∨ ¬ Accessible output 8
  | arrayGet index kind output => elementAt bytes index = none ∨ kind ≠ .u8 ∨ output = 0
  | arraySet index kind value => elementAt bytes index = none ∨ kind ≠ .u8 ∨ value = 0
  | arrayContains kind value output => kind ≠ .u8 ∨ value = 0 ∨ output = 0
  | arrayIsEmpty output => output = 0
  | arrayClone | arrayReverse => False
  | arrayRange mode first second => rangeBounds mode first second bytes.length = none
  | arrayOption mode _ => ∃ code, mode = .other code

end Operation

section

variable {Instans : Type} {word : Handle → UInt64} {fresh handle : Handle} {bytes : List UInt8}
  {left right : Runtime Instans}

/-- The same reply, and runtimes that correspond again. -/
def Alike (handle : Handle) (first second : Answer Instans) : Prop :=
  first.1 = second.1 ∧ ∃ bytes, Corresponds handle bytes first.2 second.2

/-- A call that refuses the octeti agrees with that on the array exactly when it refuses it too. -/
theorem alike_iff_of_left {C : Prop} (h : Corresponds handle bytes left right)
    {first second : Answer Instans} (hfirst : first = (.invalid, left))
    (hrefused : C → second = (.invalid, right)) (hmet : ¬ C → second.1.status = .ok) :
    Alike handle first second ↔ C := by
  constructor
  · intro halike
    by_contra hC
    have hstatus := hmet hC
    rw [← halike.1, hfirst] at hstatus
    cases hstatus
  · intro hC
    rw [hfirst, hrefused hC]
    exact ⟨rfl, bytes, h⟩

theorem alike_iff_of_right {C : Prop} (h : Corresponds handle bytes left right)
    {first second : Answer Instans} (hsecond : second = (.invalid, right))
    (hrefused : C → first = (.invalid, left)) (hmet : ¬ C → first.1.status = .ok) :
    Alike handle first second ↔ C := by
  constructor
  · intro halike
    by_contra hC
    have hstatus := hmet hC
    rw [halike.1, hsecond] at hstatus
    cases hstatus
  · intro hC
    rw [hsecond, hrefused hC]
    exact ⟨rfl, bytes, h⟩

theorem arrayBytes_map (bytes : List UInt8) : arrayBytes ⟨.u8, bytes.map .u8⟩ = some bytes := by
  simp only [arrayBytes, ne_eq, not_true, if_false, List.mapM_map]
  induction bytes with
  | nil => rfl
  | cons byte rest ih =>
    rw [List.mapM_cons, ih]
    rfl

theorem Corresponds.octetiBytes_left (h : Corresponds handle bytes left right) :
    octetiBytes left handle = some bytes := by
  rw [octetiBytes, h.octeti]

theorem Corresponds.octetiBytes_right (h : Corresponds handle bytes left right) :
    octetiBytes right handle = some bytes := by
  rw [octetiBytes, h.noOcteti, h.array]
  exact arrayBytes_map bytes

theorem octetiAppend_alike (h : Corresponds handle bytes left right) (byte : UInt8) :
    Alike handle (octetiAppend left handle byte) (octetiAppend right handle byte) := by
  have hleft : octetiAppend left handle byte =
      (.ok, { left with octeti := left.octeti.update handle (· ++ [byte]) }) := by
    rw [octetiAppend, octetiPush, h.octeti]
  have hright : octetiAppend right handle byte =
      (.ok, { right with arrays := right.arrays.update handle fun array =>
        { array with values := array.values ++ [.u8 byte] } }) := by
    rw [octetiAppend, octetiPush, h.noOcteti, h.array]
    rfl
  rw [hleft, hright]
  refine ⟨rfl, bytes ++ [byte], ?_, h.noArray, h.noOcteti, ?_, ?_, ?_, h.frame⟩
  · have hfound := h.octeti
    rw [findOcteti] at hfound ⊢
    rw [Arena.find_update, if_pos rfl, hfound]
    rfl
  · have hfound := h.array
    rw [findArray] at hfound ⊢
    rw [Arena.find_update, if_pos rfl, hfound]
    simp
  · intro other hother
    refine Eq.trans ?_ (h.sameOcteti other hother)
    rw [findOcteti, Arena.find_update, if_neg (Ne.symm hother)]
    rfl
  · intro other hother
    refine (h.sameArray other hother).trans ?_
    rw [findArray, findArray, Arena.find_update, if_neg (Ne.symm hother)]

theorem octetiGet_alike (h : Corresponds handle bytes left right) (index : Int64) :
    Alike handle (octetiGet fresh left handle index) (octetiGet fresh right handle index) := by
  have hoptions : left.options = right.options := congrArg (·.options) h.frame
  rw [octetiGet, octetiGet, h.octetiBytes_left, h.octetiBytes_right]
  refine ⟨rfl, bytes, h.octeti, h.noArray, h.noOcteti, h.array, h.sameOcteti, h.sameArray, ?_⟩
  have hframe := congrArg (fun runtime : Runtime Instans => { runtime with
    options := right.options.store fresh
      ⟨.u8, ((some bytes).bind (fun bytes => elementAt bytes index)).map .u8⟩ }) h.frame
  simpa only [storeOption, hoptions] using hframe

theorem octetiLength_alike (h : Corresponds handle bytes left right) (output : Handle) :
    Alike handle (octetiLength left handle output) (octetiLength right handle output) := by
  rw [octetiLength, octetiLength, h.octetiBytes_left, h.octetiBytes_right]
  simp only
  split
  · exact ⟨rfl, bytes, h⟩
  · split
    · exact ⟨rfl, bytes, h⟩
    · exact ⟨rfl, bytes, h⟩

theorem decode_alike (h : Corresponds handle bytes left right) (ascii : Bool) :
    Alike handle (decode fresh left handle ascii) (decode fresh right handle ascii) ↔
      decodeText ascii bytes = none := by
  refine alike_iff_of_right h (by rw [decode, h.noOcteti]) ?_ ?_
  · intro hnone
    simp only [decode, h.octeti, hnone]
  · intro hsome
    obtain ⟨text, htext⟩ := Option.ne_none_iff_exists'.mp hsome
    cases ascii <;> simp [decode, h.octeti, htext, storeText, Reply.pointer]

/-! ### The array interface on octeti -/

theorem arrayPush_alike (h : Corresponds handle bytes left right) (kind : ValueKind)
    (value : Handle) :
    Alike handle (arrayPush word left handle kind value) (arrayPush word right handle kind value) ↔
      kind ≠ .u8 ∨ value = 0 := by
  refine alike_iff_of_left h (by rw [arrayPush, h.noArray]) ?_ ?_
  · intro hC
    simp only [arrayPush, h.array]
    split
    · rfl
    · next cell hcell =>
      rw [if_pos]
      obtain hkind | hvalue := hC
      · exact .inl (Ne.symm hkind)
      · by_cases hkind : kind = .u8
        · subst hkind
          rw [readValue_u8, if_neg (not_not.mpr hvalue)] at hcell
          cases hcell
        · exact .inl (Ne.symm hkind)
  · intro hC
    push Not at hC
    obtain ⟨rfl, hvalue⟩ := hC
    simp [arrayPush, h.array, readValue_u8, hvalue, represents, Reply.ok]

theorem arrayExtend_alike (h : Corresponds handle bytes left right) (source : Handle) :
    Alike handle (arrayExtend left handle source) (arrayExtend right handle source) ↔
      Operation.NoBytes left handle source := by
  refine alike_iff_of_left h (by rw [arrayExtend, h.noArray]) ?_ ?_
  · intro hC
    simp only [arrayExtend, h.array, ← h.sameArray source hC.1]
    split
    · rfl
    · next array harray => rw [if_pos (Ne.symm (hC.2 array harray))]
  · intro hC
    by_cases hsame : source = handle
    · subst hsame
      simp [arrayExtend, h.array, Reply.ok]
    · simp only [Operation.NoBytes, ne_eq, hsame, not_false_eq_true, true_and, not_forall,
        not_not] at hC
      obtain ⟨array, harray, hkind⟩ := hC
      rw [h.sameArray source hsame] at harray
      simp [arrayExtend, h.array, harray, hkind, Reply.ok]

theorem arrayExtendFrom_alike (h : Corresponds handle bytes left right) (dest : Handle) :
    Alike handle (arrayExtend left dest handle) (arrayExtend right dest handle) ↔
      Operation.NoBytes left handle dest := by
  refine alike_iff_of_left h ?_ ?_ ?_
  · rw [arrayExtend]
    split
    · rfl
    · rw [h.noArray]
  · intro hC
    simp only [arrayExtend, h.array, ← h.sameArray dest hC.1]
    split
    · rfl
    · next array harray => rw [if_pos (hC.2 array harray)]
  · intro hC
    by_cases hsame : dest = handle
    · subst hsame
      simp [arrayExtend, h.array, Reply.ok]
    · simp only [Operation.NoBytes, ne_eq, hsame, not_false_eq_true, true_and, not_forall,
        not_not] at hC
      obtain ⟨array, harray, hkind⟩ := hC
      rw [h.sameArray dest hsame] at harray
      simp [arrayExtend, h.array, harray, hkind, Reply.ok]

theorem arrayLength_alike (h : Corresponds handle bytes left right) (output : Handle) :
    Alike handle (arrayLength left handle output) (arrayLength right handle output) ↔
      2 ^ 63 ≤ bytes.length ∨ ¬ Accessible output 8 := by
  refine alike_iff_of_left h (by rw [arrayLength, h.noArray]) ?_ ?_
  · intro hC
    simp only [arrayLength, h.array, List.length_map]
    split
    · rfl
    · next hlength => exact writing_invalid (hC.resolve_left hlength)
  · intro hC
    push Not at hC
    obtain ⟨hlength, houtput⟩ := hC
    simp only [arrayLength, h.array, List.length_map]
    rw [if_neg (Nat.not_le.mpr hlength)]
    exact writing_ok houtput

theorem elementAt_map {α β : Type} (f : α → β) (values : List α) (index : Int64) :
    elementAt (values.map f) index = (elementAt values index).map f := by
  unfold elementAt
  split
  · exact List.getElem?_map
  · rfl

theorem arrayGet_alike (h : Corresponds handle bytes left right) (index : Int64)
    (kind : ValueKind) (output : Handle) :
    Alike handle (arrayGet left handle index kind output)
        (arrayGet right handle index kind output) ↔
      elementAt bytes index = none ∨ kind ≠ .u8 ∨ output = 0 := by
  refine alike_iff_of_left h (by rw [arrayGet, h.noArray]) ?_ ?_
  · intro hC
    simp only [arrayGet, h.array, elementAt_map]
    cases hbyte : elementAt bytes index with
    | none => rfl
    | some byte =>
      rw [hbyte] at hC
      simp only [Option.map_some]
      obtain hnone | hkind | houtput := hC
      · cases hnone
      · rw [if_pos (Ne.symm hkind)]
      · split
        · rfl
        · exact writing_invalid fun haccess => haccess.1 houtput
  · intro hC
    push Not at hC
    obtain ⟨hbyte, rfl, houtput⟩ := hC
    obtain ⟨byte, hbyte⟩ := Option.ne_none_iff_exists'.mp hbyte
    simp only [arrayGet, h.array, elementAt_map, hbyte, Option.map_some]
    rw [if_neg (by simp)]
    exact writing_ok (accessible_one.mpr houtput)

theorem elementAt_eq_none {α : Type} {values : List α} {index : Int64} :
    elementAt values index = none ↔ ¬ 0 ≤ index ∨ values.length ≤ index.toNatClampNeg := by
  unfold elementAt
  split
  · next hindex => simp [hindex]
  · next hindex => simp [hindex]

theorem arraySet_alike (h : Corresponds handle bytes left right) (index : Int64)
    (kind : ValueKind) (value : Handle) :
    Alike handle (arraySet word left handle index kind value)
        (arraySet word right handle index kind value) ↔
      elementAt bytes index = none ∨ kind ≠ .u8 ∨ value = 0 := by
  refine alike_iff_of_left h ?_ ?_ ?_
  · rw [arraySet]
    split
    · rfl
    · rw [h.noArray]
  · intro hC
    rw [elementAt_eq_none] at hC
    simp only [arraySet, h.array, List.length_map]
    split
    · rfl
    · next cell hcell =>
      split
      · rfl
      · next hindex =>
        rw [if_pos]
        obtain (hneg | hlength) | hkind | hvalue := hC
        · exact absurd hneg hindex
        · exact .inr (.inr hlength)
        · exact .inl (Ne.symm hkind)
        · by_cases hkind : kind = .u8
          · subst hkind
            rw [readValue_u8, if_neg (not_not.mpr hvalue)] at hcell
            cases hcell
          · exact .inl (Ne.symm hkind)
  · intro hC
    push Not at hC
    obtain ⟨hindex, rfl, hvalue⟩ := hC
    rw [ne_eq, elementAt_eq_none] at hindex
    push Not at hindex
    simp only [arraySet, readValue_u8, h.array, List.length_map]
    rw [if_pos hvalue]
    simp [hindex.1, Nat.not_le.mpr hindex.2, represents, Reply.ok]

theorem arrayClone_alike (h : Corresponds handle bytes left right) :
    Alike handle (arrayClone fresh left handle) (arrayClone fresh right handle) ↔ False := by
  refine alike_iff_of_left h (by rw [arrayClone, h.noArray]) False.elim fun _ => ?_
  rw [arrayClone, h.array]
  rfl

theorem arrayContains_alike (h : Corresponds handle bytes left right) (kind : ValueKind)
    (value output : Handle) :
    Alike handle (arrayContains word left handle kind value output)
        (arrayContains word right handle kind value output) ↔
      kind ≠ .u8 ∨ value = 0 ∨ output = 0 := by
  refine alike_iff_of_left h ?_ ?_ ?_
  · rw [arrayContains]
    split
    · rfl
    · rw [h.noArray]
  · intro hC
    simp only [arrayContains, h.array]
    split
    · rfl
    · next cell hcell =>
      split
      · rfl
      · next hkind =>
        obtain rfl : ValueKind.u8 = kind := not_not.mp hkind
        refine writing_invalid fun haccess => ?_
        obtain hkind | hvalue | houtput := hC
        · exact hkind rfl
        · rw [readValue_u8, if_neg (not_not.mpr hvalue)] at hcell
          cases hcell
        · exact haccess.1 houtput
  · intro hC
    push Not at hC
    obtain ⟨rfl, hvalue, houtput⟩ := hC
    simp only [arrayContains, readValue_u8, h.array]
    rw [if_pos hvalue]
    simp only [ne_eq, not_true, if_false]
    exact writing_ok (accessible_one.mpr houtput)

theorem arrayIsEmpty_alike (h : Corresponds handle bytes left right) (output : Handle) :
    Alike handle (arrayIsEmpty left handle output) (arrayIsEmpty right handle output) ↔
      output = 0 := by
  refine alike_iff_of_left h (by rw [arrayIsEmpty, h.noArray]) ?_ ?_
  · intro houtput
    simp only [arrayIsEmpty, h.array]
    exact writing_invalid fun haccess => haccess.1 houtput
  · intro houtput
    simp only [arrayIsEmpty, h.array]
    exact writing_ok (accessible_one.mpr houtput)

theorem arrayReverse_alike (h : Corresponds handle bytes left right) :
    Alike handle (arrayReverse left handle) (arrayReverse right handle) ↔ False := by
  refine alike_iff_of_left h (by rw [arrayReverse, h.noArray]) False.elim fun _ => ?_
  rw [arrayReverse, h.array]
  rfl

theorem arrayRange_alike (h : Corresponds handle bytes left right) (mode : RangeMode)
    (first second : Int64) :
    Alike handle (arrayRange fresh left handle mode first second)
        (arrayRange fresh right handle mode first second) ↔
      rangeBounds mode first second bytes.length = none := by
  refine alike_iff_of_left h (by rw [arrayRange, h.noArray]) ?_ ?_
  · intro hnone
    simp only [arrayRange, h.array, List.length_map, hnone]
  · intro hsome
    obtain ⟨bounds, hbounds⟩ := Option.ne_none_iff_exists'.mp hsome
    simp only [arrayRange, h.array, List.length_map, hbounds]
    rfl

theorem arrayOption_alike (h : Corresponds handle bytes left right) (mode : OptionMode)
    (index : Int64) :
    Alike handle (arrayOption fresh left handle mode index)
        (arrayOption fresh right handle mode index) ↔ ∃ code, mode = .other code := by
  refine alike_iff_of_left h (by rw [arrayOption, h.noArray]) ?_ ?_
  · intro hmode
    obtain ⟨code, rfl⟩ := hmode
    rw [arrayOption, h.array]
    rfl
  · intro hmode
    rw [arrayOption, h.array]
    cases mode with
    | other code => exact absurd ⟨code, rfl⟩ hmode
    | _ => rfl

/-- A call on a handle of octeti and on one of an array of the same bytes answers alike, and
    leaves the same bytes behind both, exactly when it looks into both arenas or fails on both
    kinds of handle. -/
theorem operation_alike_iff (h : Corresponds handle bytes left right) (operation : Operation) :
    Alike handle (operation.run word fresh handle left) (operation.run word fresh handle right) ↔
      operation.Interchangeable left handle bytes := by
  cases operation with
  | octetiAppend byte => exact iff_of_true (octetiAppend_alike h byte) trivial
  | octetiGet index => exact iff_of_true (octetiGet_alike h index) trivial
  | octetiLength output => exact iff_of_true (octetiLength_alike h output) trivial
  | octetiGetText => exact decode_alike h false
  | octetiGetAscii => exact decode_alike h true
  | arrayPush kind value => exact arrayPush_alike h kind value
  | arrayExtend source => exact arrayExtend_alike h source
  | arrayExtendFrom dest => exact arrayExtendFrom_alike h dest
  | arrayLength output => exact arrayLength_alike h output
  | arrayGet index kind output => exact arrayGet_alike h index kind output
  | arraySet index kind value => exact arraySet_alike h index kind value
  | arrayClone => exact arrayClone_alike h
  | arrayContains kind value output => exact arrayContains_alike h kind value output
  | arrayIsEmpty output => exact arrayIsEmpty_alike h output
  | arrayReverse => exact arrayReverse_alike h
  | arrayRange mode first second => exact arrayRange_alike h mode first second
  | arrayOption mode index => exact arrayOption_alike h mode index

theorem corresponds_created {runtime : Runtime Instans} (handle : Handle) (bytes : List UInt8)
    (hocteti : findOcteti runtime.toRuntimeContext handle = none)
    (harray : findArray runtime.toRuntimeContext handle = none) :
    Corresponds handle bytes
      { runtime with octeti := runtime.octeti.store handle bytes }
      { runtime with arrays := runtime.arrays.store handle ⟨.u8, bytes.map .u8⟩ } where
  octeti := by
    rw [findOcteti] at hocteti ⊢
    rw [Arena.find_store, hocteti, if_pos rfl]
    rfl
  noArray := harray
  noOcteti := hocteti
  array := by
    rw [findArray] at harray ⊢
    rw [Arena.find_store, harray, if_pos rfl]
    rfl
  sameOcteti := by
    intro other hother
    rw [findOcteti, Arena.find_store, if_neg (Ne.symm hother), Option.or_none]
    rfl
  sameArray := by
    intro other hother
    rw [findArray, findArray, Arena.find_store, if_neg (Ne.symm hother), Option.or_none]
  frame := rfl

end

/-- The bytes of "a" under the handle 8, as octeti. -/
def lettersOcteti : Runtime Unit := { emptyRuntime with octeti := [(8, [97])] }

/-- The bytes of "a" under the handle 8, as an array. -/
def lettersArray : Runtime Unit := { emptyRuntime with arrays := [(8, ⟨.u8, [.u8 97]⟩)] }

theorem letters_correspond : Corresponds 8 [97] lettersOcteti lettersArray :=
  @corresponds_created _ emptyRuntime 8 [97] rfl rfl

theorem letters_appended :
    Alike 8 ((Operation.octetiAppend 98).run (fun _ => 0) 16 8 lettersOcteti)
      ((Operation.octetiAppend 98).run (fun _ => 0) 16 8 lettersArray) :=
  (operation_alike_iff letters_correspond (.octetiAppend 98)).mpr trivial

/-- The text of the bytes is read from octeti only, and only an array is cloned. -/
theorem letters_differ :
    ¬ Alike 8 (Operation.octetiGetText.run (fun _ => 0) 16 8 lettersOcteti)
        (Operation.octetiGetText.run (fun _ => 0) 16 8 lettersArray) ∧
    ¬ Alike 8 (Operation.arrayClone.run (fun _ => 0) 16 8 lettersOcteti)
        (Operation.arrayClone.run (fun _ => 0) 16 8 lettersArray) := by
  constructor
  · intro halike
    have hnone := (decode_alike letters_correspond false).mp halike
    have hsome : decodeText false [97] = some "a" := by decide +kernel
    exact nomatch hnone.symm.trans hsome
  · exact (arrayClone_alike letters_correspond).mp

end FaberHosts.Llvm
