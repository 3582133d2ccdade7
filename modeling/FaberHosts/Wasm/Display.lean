import FaberHosts.Collections.Runtime
import FaberHosts.Wasm.HostState

/-!
# Values on the `i64` carrier

`collections.rs`: a row carries each scalar as an `i64`, given by its bits, and the host
reads it by the kind its container declares.  The numbers of the kinds belong to the host
ABI; all that the host needs of them is that they differ.
-/

namespace FaberHosts.Wasm
open FaberHosts.Collections (f64Eq)

/-- The `VALUE_KIND_*` constants the host imports. -/
structure ValueKinds where
  i1 : UInt32
  i8 : UInt32
  i16 : UInt32
  i32 : UInt32
  i64 : UInt32
  u8 : UInt32
  u16 : UInt32
  u32 : UInt32
  u64 : UInt32
  f32 : UInt32
  f64 : UInt32
  text : UInt32
  ascii : UInt32
  ptr : UInt32
  valor : UInt32
  distinct : [i1, i8, i16, i32, i64, u8, u16, u32, u64, f32, f64, text, ascii, ptr, valor].Nodup

/-- The kinds counted from 1. -/
def ValueKinds.counted : ValueKinds :=
  ⟨1, 2, 3, 4, 5, 6, 7, 8, 9, 10, 11, 12, 13, 14, 15, by decide⟩

namespace ValueKinds

variable (kinds : ValueKinds)

/-- The kinds of a handle. -/
def handles : List UInt32 := [kinds.text, kinds.ascii, kinds.ptr, kinds.valor]

/-- The integer kinds of at most 32 bits. -/
def words : List UInt32 := [kinds.i8, kinds.i16, kinds.i32, kinds.u8, kinds.u16, kinds.u32]

/-- The kinds whose option results are boxed. -/
def boxed : List UInt32 := [kinds.i64, kinds.u64, kinds.f32, kinds.f64]

theorem ne (i j : Fin 15) (h : i ≠ j) :
    [kinds.i1, kinds.i8, kinds.i16, kinds.i32, kinds.i64, kinds.u8, kinds.u16, kinds.u32,
      kinds.u64, kinds.f32, kinds.f64, kinds.text, kinds.ascii, kinds.ptr, kinds.valor].get i ≠
    [kinds.i1, kinds.i8, kinds.i16, kinds.i32, kinds.i64, kinds.u8, kinds.u16, kinds.u32,
      kinds.u64, kinds.f32, kinds.f64, kinds.text, kinds.ascii, kinds.ptr, kinds.valor].get j :=
  fun heq => h (List.nodup_iff_injective_get.mp kinds.distinct heq)

theorem u8_notMem_boxed : kinds.u8 ∉ kinds.boxed := by
  simp only [boxed, List.mem_cons, List.not_mem_nil, or_false, not_or]
  exact ⟨kinds.ne 5 4 (by decide), kinds.ne 5 8 (by decide), kinds.ne 5 9 (by decide),
    kinds.ne 5 10 (by decide)⟩

theorem boxed_unfollowed {kind : UInt32} (hkind : kind ∈ kinds.boxed) :
    kind ∉ [kinds.ptr, kinds.valor] := by
  simp only [boxed, List.mem_cons, List.not_mem_nil, or_false, not_or] at hkind ⊢
  rcases hkind with rfl | rfl | rfl | rfl
  · exact ⟨kinds.ne 4 13 (by decide), kinds.ne 4 14 (by decide)⟩
  · exact ⟨kinds.ne 8 13 (by decide), kinds.ne 8 14 (by decide)⟩
  · exact ⟨kinds.ne 9 13 (by decide), kinds.ne 9 14 (by decide)⟩
  · exact ⟨kinds.ne 10 13 (by decide), kinds.ne 10 14 (by decide)⟩

theorem text_ne_numbers : kinds.text ≠ kinds.i1 ∧ kinds.text ∉ kinds.words ∧
    kinds.text ∉ kinds.boxed := by
  simp only [words, boxed, List.mem_cons, List.not_mem_nil, or_false, not_or]
  exact ⟨kinds.ne 11 0 (by decide),
    ⟨kinds.ne 11 1 (by decide), kinds.ne 11 2 (by decide), kinds.ne 11 3 (by decide),
      kinds.ne 11 5 (by decide), kinds.ne 11 6 (by decide), kinds.ne 11 7 (by decide)⟩,
    kinds.ne 11 4 (by decide), kinds.ne 11 8 (by decide), kinds.ne 11 9 (by decide),
    kinds.ne 11 10 (by decide)⟩

end ValueKinds

/-- `i64::from` of an `i32`. -/
def signExtend (value : UInt32) : UInt64 := ⟨value.toBitVec.signExtend 64⟩

theorem toUInt32_signExtend (value : UInt32) : (signExtend value).toUInt32 = value := by
  rw [← UInt32.toBitVec_inj]
  simp only [signExtend, UInt64.toBitVec_toUInt32]
  ext i hi
  rw [BitVec.getElem_setWidth, BitVec.getLsbD_signExtend]
  simp [hi, show i < 64 by omega]

def valueFromI64 (kinds : ValueKinds) (kind : UInt32) (value : UInt64) : Option RuntimeValue :=
  if kind = kinds.i1 then some (.i1 (value ≠ 0))
  else if kind ∈ kinds.words then some (.i32 value.toUInt32)
  else if kind ∈ [kinds.i64, kinds.u64] then some (.i64 value)
  else if kind ∈ [kinds.f32, kinds.f64] then some (.f64 value)
  else if kind ∈ kinds.handles then some (.handle value.toUInt32)
  else none

def valueToI64 : RuntimeValue → UInt64
  | .i1 value => if value then 1 else 0
  | .i32 value => signExtend value
  | .i64 value => value
  | .f64 bits => bits
  | .handle handle => signExtend handle

def runtimeValueEq : RuntimeValue → RuntimeValue → Bool
  | .i1 a, .i1 b => a == b
  | .i32 a, .i32 b => a == b
  | .i64 a, .i64 b => a == b
  | .f64 a, .f64 b => f64Eq a b
  | .handle a, .handle b => a == b
  | _, _ => false

end FaberHosts.Wasm

/-!
## The display of a handle

`imports.rs`: the texts a handle displays as, on its own and as a nested `Valor`.  The
nesting of aggregates is followed to a given depth of calls; a display that needs a deeper
stack does not return.
-/

namespace FaberHosts.Wasm
open FaberHosts.Lib

/-- The words a module declares; the word for tuples is not read. -/
structure DisplayWords where
  true_ : String
  false_ : String
  none : String

/-- The formats of numbers that a display uses. -/
structure Formats where
  /-- `{:?}` of an `f64`. -/
  floatDebug : UInt64 → String
  displayFractus : UInt64 → String

/-- What a display reads beside the arenas of the host. -/
structure Dialect where
  toolchain : Toolchain
  kinds : ValueKinds
  formats : Formats
  words : Option DisplayWords

/-- A display returns a text or fails closed; `none` is the end of the stack. -/
abbrev Shown := OptionT MayPanic String

def Shown.ofResult (text : Option String) : Shown := OptionT.mk (some text)

def Shown.fails : Shown := Shown.ofResult none

/-- The decimal form of an `i32`. -/
def showI32 (value : UInt32) : String := toString value.toBitVec.toInt

/-- The decimal form of an `i64`. -/
def showI64 (value : UInt64) : String := toString value.toBitVec.toInt

/-- `{:?}` of a slice, from the forms of its elements. -/
def debugList (items : List String) : String := "[" ++ ", ".intercalate items ++ "]"

def debugBytes (bytes : List UInt8) : String := debugList (bytes.map (fun b => toString b.toNat))

namespace Dialect

variable {κ μ : Type} (d : Dialect) (host : HostState κ μ)

def boolWord (value : Bool) (builtIn : String × String) : String :=
  match d.words, value with
  | some words, true => words.true_
  | some words, false => words.false_
  | none, true => builtIn.1
  | none, false => builtIn.2

def noneWord : String :=
  match d.words with
  | some words => words.none
  | none => "nihil"

def renderValorTabula (entries : BTreeMap String String) : String :=
  "Tabula(\x7b" ++
    ", ".intercalate (entries.toList.map (fun entry =>
      d.toolchain.debugStr entry.1 ++ ": " ++ entry.2)) ++ "\x7d)"

/-- A value as a `Valor`; `valor` renders a nested handle. -/
def renderValorValue (valor : UInt32 → Shown) (kind : UInt32) (value : RuntimeValue) : Shown :=
  match value with
  | .i1 value =>
    if kind = d.kinds.i1 then return s!"Bivalens({value})" else Shown.fails
  | .i32 value =>
    if kind ∈ [d.kinds.i32, d.kinds.i64] then return s!"Numerus({showI32 value})" else Shown.fails
  | .i64 value =>
    if kind = d.kinds.i64 then return s!"Numerus({showI64 value})" else Shown.fails
  | .f64 bits =>
    if kind = d.kinds.f64 then return s!"Fractus({d.formats.floatDebug bits})" else Shown.fails
  | .handle handle =>
    if kind ∈ [d.kinds.text, d.kinds.ascii] then do
      let text ← Shown.ofResult (host.resolveText handle)
      return s!"Textus({d.toolchain.debugStr text})"
    else if kind ∈ [d.kinds.ptr, d.kinds.valor] then valor handle
    else Shown.fails

/-- The entries of a map as `Valor`s; a key that is no text fails. -/
def renderEntries (valor : UInt32 → Shown) (valueKind : UInt32) (shown : BTreeMap String String) :
    List (RuntimeValue × RuntimeValue) → OptionT MayPanic (BTreeMap String String)
  | [] => return shown
  | (.handle handle, value) :: rest => do
    let key ← Shown.ofResult (host.resolveText handle)
    let text ← renderValorValue d host valor valueKind value
    renderEntries valor valueKind (shown.insert key text) rest
  | _ :: _ => OptionT.mk (some none)

def renderHandleValor : Nat → UInt32 → Shown
  | 0, _ => OptionT.mk none
  | depth + 1, handle =>
    match host.resolveText handle with
    | some text => return s!"Textus({d.toolchain.debugStr text})"
    | none =>
    match host.resolveOcteti handle with
    | some bytes => return s!"Octeti({debugBytes bytes})"
    | none =>
    match host.findMap handle with
    | some map => do
      let entries ← renderEntries d host (renderHandleValor depth) map.valueKind ∅ map.entries
      return d.renderValorTabula entries
    | none =>
    match host.findCollection handle with
    | some collection => do
      let items ← collection.values.mapM
        (renderValorValue d host (renderHandleValor depth) collection.kind)
      return s!"Lista({debugList (items.map d.toolchain.debugStr)})"
    | none =>
    match host.findOption handle with
    | some option =>
      match option.payload with
      | some payload => renderValorValue d host (renderHandleValor depth) option.kind payload
      | none => return "Nihil"
    | none => if handle = 0 then return "Nihil" else Shown.fails

/-- An element of a collection; `display` renders a nested handle. -/
def renderElement (display : UInt32 → Shown) (kind : UInt32) (value : RuntimeValue) : Shown :=
  match value with
  | .i1 value => return d.boolWord value ("true", "false")
  | .i32 value => return showI32 value
  | .i64 value => return showI64 value
  | .f64 bits => return d.formats.displayFractus bits
  | .handle handle =>
    if kind ∈ [d.kinds.text, d.kinds.ascii] then do
      let text ← Shown.ofResult (host.resolveText handle)
      return d.toolchain.debugStr text
    else if kind ∈ [d.kinds.ptr, d.kinds.valor] then display handle
    else Shown.fails

def renderCollection (display : UInt32 → Shown) (collection : CollectionValue) : Shown := do
  let rendered ← collection.values.mapM (renderElement d host display collection.kind)
  let body := ", ".intercalate rendered
  return if collection.set then "\x7b" ++ body ++ "\x7d" else "[" ++ body ++ "]"

def renderMap (depth : Nat) (map : MapValue) : Shown := do
  let entries ← renderEntries d host (renderHandleValor d host depth) map.valueKind ∅ map.entries
  return s!"Json({d.renderValorTabula entries})"

def renderOptionPayload (display : UInt32 → Shown) (kind : UInt32) (payload : RuntimeValue) :
    Shown :=
  match payload with
  | .i1 value =>
    if kind = d.kinds.i1 then return d.boolWord value ("verum", "falsum") else Shown.fails
  | .i32 value => if kind = d.kinds.i32 then return showI32 value else Shown.fails
  | .i64 value => if kind = d.kinds.i64 then return showI64 value else Shown.fails
  | .f64 bits =>
    if kind = d.kinds.f64 then return d.formats.displayFractus bits else Shown.fails
  | .handle handle =>
    if kind ∈ [d.kinds.text, d.kinds.ascii] then Shown.ofResult (host.resolveText handle)
    else if kind ∈ [d.kinds.ptr, d.kinds.valor] then display handle
    else Shown.fails

def renderHandleDisplay : Nat → UInt32 → Shown
  | 0, _ => OptionT.mk none
  | depth + 1, handle =>
    match host.resolveText handle with
    | some text => return text
    | none =>
    match host.resolveRegex handle with
    | some regex => return regex.pattern
    | none =>
    match host.resolveOcteti handle with
    | some bytes => return debugBytes bytes
    | none =>
    match host.findCollection handle with
    | some collection => renderCollection d host (renderHandleDisplay depth) collection
    | none =>
    match host.findMap handle with
    | some map => renderMap d host depth map
    | none =>
    match host.findOption handle with
    | some option =>
      match option.payload with
      | some payload => renderOptionPayload d host (renderHandleDisplay depth) option.kind payload
      | none => return d.noneWord
    | none => if handle = 0 then return d.noneWord else Shown.fails

/-- With some depth of the stack the handle displays as `text`. -/
def DisplaysAs (handle : UInt32) (text : String) : Prop :=
  ∃ depth, (renderHandleDisplay d host depth handle).run = some (some text)

end Dialect

end FaberHosts.Wasm
