import Mathlib.Data.String.Basic
import FaberHosts.Lib.Entries

/-!
# Values and their JSON carrier

`faber::Valor`, the in-memory carrier of the language's `valor`, and
`serde_json::Value`, the tree it crosses the wire as.  Both keep their maps as
`BTreeMap<String, _>`, here as entries in key order.
-/

namespace FaberHosts.Kernel
open FaberHosts.Lib

/-- An `f64`, by its bits. -/
structure F64 where
  bits : UInt64
  deriving DecidableEq, Repr

namespace F64

/-- Neither an infinity nor a NaN: the exponent field is not all ones. -/
def isFinite (f : F64) : Bool := (f.bits >>> 52) &&& 0x7ff ≠ 0x7ff

/-- `n as f64`, rounded to the nearest value, ties to even. -/
def ofU64 (n : UInt64) : F64 :=
  if n = 0 then ⟨0⟩
  else
    let exponent := n.toNat.log2
    if exponent ≤ 52 then
      ⟨UInt64.ofNat ((1023 + exponent) * 2 ^ 52 + (n.toNat * 2 ^ (52 - exponent) - 2 ^ 52))⟩
    else
      let unit := 2 ^ (exponent - 52)
      let quotient := n.toNat / unit
      let twice := 2 * (n.toNat % unit)
      let rounded :=
        if twice > unit ∨ twice = unit ∧ quotient % 2 = 1 then quotient + 1 else quotient
      -- a carry out of the fraction moves to the next exponent by itself
      ⟨UInt64.ofNat ((1023 + exponent) * 2 ^ 52 + (rounded - 2 ^ 52))⟩

def neg (f : F64) : F64 := ⟨f.bits ^^^ 0x8000000000000000⟩

end F64

/-- A language value.  `magnus` carries an integer beyond 64 bits. -/
inductive Valor where
  | nihil
  | bivalens (b : Bool)
  | numerus (n : Int64)
  | magnus (n : Int)
  | fractus (f : F64)
  | textus (s : String)
  | octeti (bytes : List UInt8)
  | lista (items : List Valor)
  | tabula (entries : List (String × Valor))
  | instans (t : String)

namespace Valor

/-- A property of every value that follows from the same property one level down. -/
theorem inductionDown {P : Valor → Prop} (nihil : P .nihil) (bivalens : ∀ b, P (.bivalens b))
    (numerus : ∀ n, P (.numerus n)) (magnus : ∀ n, P (.magnus n)) (fractus : ∀ f, P (.fractus f))
    (textus : ∀ s, P (.textus s)) (octeti : ∀ bytes, P (.octeti bytes))
    (lista : ∀ items, (∀ item ∈ items, P item) → P (.lista items))
    (tabula : ∀ entries, (∀ entry ∈ entries, P entry.2) → P (.tabula entries))
    (instans : ∀ t, P (.instans t)) (v : Valor) : P v := by
  refine @Valor.rec P (fun items => ∀ item ∈ items, P item)
    (fun entries => ∀ entry ∈ entries, P entry.2) (fun entry => P entry.2)
    nihil bivalens numerus magnus fractus textus octeti lista tabula instans ?_ ?_ ?_ ?_ ?_ v
  · intro item hitem
    cases hitem
  · intro first rest hfirst hrest item hitem
    rcases List.mem_cons.mp hitem with rfl | hitem
    · exact hfirst
    · exact hrest item hitem
  · intro entry hentry
    cases hentry
  · intro first rest hfirst hrest entry hentry
    rcases List.mem_cons.mp hentry with rfl | hentry
    · exact hfirst
    · exact hrest entry hentry
  · intro _ _ hvalue
    exact hvalue

mutual

/-- Every `tabula` at any depth has its keys in order. -/
def Ordered : Valor → Prop
  | .lista items => AllOrdered items
  | .tabula entries => OrderedEntries entries ∧ EntriesOrdered entries
  | _ => True

def AllOrdered : List Valor → Prop
  | [] => True
  | item :: rest => item.Ordered ∧ AllOrdered rest

def EntriesOrdered : List (String × Valor) → Prop
  | [] => True
  | (_, value) :: rest => value.Ordered ∧ EntriesOrdered rest

end

theorem allOrdered_iff {items : List Valor} : AllOrdered items ↔ ∀ item ∈ items, item.Ordered := by
  induction items with
  | nil => simp [AllOrdered]
  | cons item rest ih => rw [AllOrdered, ih, List.forall_mem_cons]

theorem entriesOrdered_iff {entries : List (String × Valor)} :
    EntriesOrdered entries ↔ ∀ entry ∈ entries, entry.2.Ordered := by
  induction entries with
  | nil => simp [EntriesOrdered]
  | cons entry rest ih => rw [EntriesOrdered, ih, List.forall_mem_cons]

end Valor

/-- A value whose maps are in key order, as every `BTreeMap` is. -/
abbrev OrderedValor := { v : Valor // v.Ordered }

/-! ## `serde_json` -/

/-- A `serde_json::Number`: an unsigned integer, a negative one or a finite float. -/
inductive Number where
  | posInt (n : UInt64)
  | negInt (n : Int64)
  | float (f : F64)
  deriving DecidableEq, Repr

namespace Number

/-- `Number::from(i64)`. -/
def ofI64 (n : Int64) : Number :=
  if n < 0 then .negInt n else .posInt n.toUInt64

def fromF64 (f : F64) : Option Number := if f.isFinite then some (.float f) else none

def asI64 : Number → Option Int64
  | .posInt n => if n ≤ 9223372036854775807 then some n.toInt64 else none
  | .negInt n => some n
  | .float _ => none

def asU64 : Number → Option UInt64
  | .posInt n => some n
  | .negInt _ => none
  | .float _ => none

def asF64 : Number → Option F64
  | .posInt n => some (.ofU64 n)
  | .negInt n => some (F64.ofU64 (-n.toUInt64)).neg
  | .float f => some f

theorem toUInt64_le_of_nonneg {n : Int64} (h : ¬ n < 0) :
    n.toUInt64 ≤ 9223372036854775807 := by
  have hzero : (0 : Int64).toInt = 0 := rfl
  have hlimit : (9223372036854775807 : UInt64).toNat = 9223372036854775807 := rfl
  have hbits : n.toInt = (n.toUInt64.toNat : Int).bmod (2 ^ 64) :=
    BitVec.toInt_eq_toNat_bmod n.toBitVec
  have hlt := n.toUInt64.toNat_lt
  rw [Int64.not_lt, Int64.le_iff_toInt_le, hzero, hbits, Int.bmod_def] at h
  rw [UInt64.le_iff_toNat_le, hlimit]
  split at h <;> omega

theorem asI64_ofI64 (n : Int64) : (ofI64 n).asI64 = some n := by
  unfold ofI64
  split
  · rfl
  · next hneg =>
    rw [asI64, if_pos (toUInt64_le_of_nonneg hneg)]
    simp

end Number

/-- A `serde_json::Value`. -/
inductive Json where
  | null
  | bool (b : Bool)
  | number (n : Number)
  | string (s : String)
  | array (items : List Json)
  | object (entries : List (String × Json))

end FaberHosts.Kernel

/-!
## The JSON transport of values

`valor_wire.rs`: a value crosses the wire as plain JSON where JSON has its kind,
and otherwise in an object with one reserved key.  A `tabula` that looks like such
an object is wrapped once more.
-/

namespace FaberHosts.Kernel
open FaberHosts.Lib

/-- Wire tag for the `instans` envelope. -/
def instansTag : String := "$instans"

/-- Wire tag for the `octeti` envelope. -/
def octetiTag : String := "$octeti"

/-- Escape tag around a `tabula` of one key that starts with `$`. -/
def escapeTag : String := "$tabula"

/-- `key.starts_with('$')`. -/
def startsWithDollar (key : String) : Bool := key.toList.head? = some '$'

structure ValorWireError where
  message : String
  deriving DecidableEq, Repr

/-- How numbers, values and strings print in messages: `Display` of `serde_json` and
    of `f64`, and `Debug` of a string. -/
structure WireText where
  number : Number → String
  json : Json → String
  f64 : F64 → String
  debugStr : String → String

variable (T : WireText)

/-! ## Decoding -/

/-- One element of an `$octeti` envelope. -/
def decodeByte (item : Json) : Except ValorWireError UInt8 :=
  let refused : ValorWireError := ⟨s!"{octetiTag} envelope holds a non-byte: {T.json item}"⟩
  match item with
  | .number n =>
    match n.asU64 with
    | some n => if n ≤ 255 then .ok n.toUInt8 else .error refused
    | none => .error refused
  | _ => .error refused

mutual

def jsonToValor : Json → Except ValorWireError Valor
  | .null => .ok .nihil
  | .bool b => .ok (.bivalens b)
  | .number n =>
    match n.asI64 with
    | some i => .ok (.numerus i)
    | none =>
      match n.asF64 with
      | some f => .ok (.fractus f)
      | none => .error ⟨s!"JSON number out of representable range: {T.number n}"⟩
  | .string s => .ok (.textus s)
  | .array items => do
    let out ← jsonsToValors items
    .ok (.lista out)
  | .object map => decodeObject map
termination_by value => (sizeOf value, 0)

def jsonsToValors : List Json → Except ValorWireError (List Valor)
  | [] => .ok []
  | item :: rest => do
    let value ← jsonToValor item
    let out ← jsonsToValors rest
    .ok (value :: out)
termination_by items => (sizeOf items, 0)

def decodeObject : List (String × Json) → Except ValorWireError Valor
  | [(key, value)] =>
    if startsWithDollar key then decodeTagged key value
    else do
      let value ← jsonToValor value
      .ok (.tabula [(key, value)])
  | map => do
    let out ← plainTabula map []
    .ok (.tabula out)
termination_by map => (sizeOf map, 1)

def decodeTagged (tag : String) (value : Json) : Except ValorWireError Valor :=
  if tag = instansTag then
    match value with
    | .string s => .ok (.instans s)
    | other => .error ⟨s!"{instansTag} envelope must hold a string, got {T.json other}"⟩
  else if tag = octetiTag then
    match value with
    | .array items => do
      let bytes ← items.mapM (decodeByte T)
      .ok (.octeti bytes)
    | other => .error ⟨s!"{octetiTag} envelope must hold an array, got {T.json other}"⟩
  else if tag = escapeTag then
    match value with
    | .object inner => do
      let out ← plainTabula inner []
      .ok (.tabula out)
    | other => .error ⟨s!"{escapeTag} escape must hold an object, got {T.json other}"⟩
  else
    .error ⟨s!"unknown valor wire tag {T.debugStr tag}: single-key \"$\"-prefixed objects are " ++
      "reserved"⟩
termination_by (sizeOf value, 0)

/-- The entries inserted one by one, after those in `out`. -/
def plainTabula : List (String × Json) → List (String × Valor) →
    Except ValorWireError (List (String × Valor))
  | [], out => .ok out
  | (key, value) :: rest, out => do
    let value ← jsonToValor value
    plainTabula rest (insertEntry key value out)
termination_by map => (sizeOf map, 0)

end

/-! ## Encoding -/

/-- The object of a `tabula`: wrapped once more when it looks like an envelope. -/
def encodeTabula (out : List (String × Json)) : Json :=
  match out with
  | [(key, _)] => if startsWithDollar key then .object [(escapeTag, .object out)] else .object out
  | _ => .object out

mutual

def valorToJson : Valor → Except ValorWireError Json
  | .nihil => .ok .null
  | .bivalens b => .ok (.bool b)
  | .numerus n => .ok (.number (.ofI64 n))
  | .magnus n =>
    .error ⟨s!"integer {n} exceeds 64 bits and cannot be represented as a JSON number"⟩
  | .fractus f =>
    if f.isFinite then
      match Number.fromF64 f with
      | some num => .ok (.number num)
      | none => .error ⟨s!"fractus {T.f64 f} cannot be represented as a JSON number"⟩
    else .error ⟨s!"fractus value is NaN or infinite: {T.f64 f}"⟩
  | .textus s => .ok (.string s)
  | .octeti bytes =>
    .ok (.object [(octetiTag, .array (bytes.map fun byte => .number (.ofI64 byte.toUInt64.toInt64)))])
  | .lista items => do
    let out ← valorsToJson items
    .ok (.array out)
  | .tabula tab => do
    let out ← tabulaToJson tab []
    .ok (encodeTabula out)
  | .instans t => .ok (.object [(instansTag, .string t)])

def valorsToJson : List Valor → Except ValorWireError (List Json)
  | [] => .ok []
  | item :: rest => do
    let json ← valorToJson item
    let out ← valorsToJson rest
    .ok (json :: out)

/-- The entries inserted one by one, after those in `out`. -/
def tabulaToJson : List (String × Valor) → List (String × Json) →
    Except ValorWireError (List (String × Json))
  | [], out => .ok out
  | (key, value) :: rest, out => do
    let json ← valorToJson value
    tabulaToJson rest (insertEntry key json out)

end

end FaberHosts.Kernel
