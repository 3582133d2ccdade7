import FaberHosts.Llvm.Arenas

/-!
# Conversion to a `valor`

`valor_aggregate.rs`: a runtime value of a given kind as a `Valor`, through the
aggregates it holds.  The recursion follows handles, which may lead back to where
they came from, so it takes the depth that the stack allows.
-/

namespace FaberHosts.Llvm
open FaberHosts.Kernel FaberHosts.Lib

/-- `f64::from` of an `f32`, by its bits. -/
def f64OfF32 (bits : UInt32) : F64 :=
  let sign := bits.toNat / 2 ^ 31 * 2 ^ 63
  let exponent := bits.toNat / 2 ^ 23 % 2 ^ 8
  let fraction := bits.toNat % 2 ^ 23
  if exponent = 255 then
    -- an infinity; a NaN keeps its payload and is made quiet
    ⟨UInt64.ofNat (sign + 2047 * 2 ^ 52 +
      if fraction = 0 then 0 else (fraction ||| 2 ^ 22) * 2 ^ 29)⟩
  else if exponent = 0 then
    if fraction = 0 then ⟨UInt64.ofNat sign⟩
    else
      let top := fraction.log2
      ⟨UInt64.ofNat (sign + (874 + top) * 2 ^ 52 + (fraction * 2 ^ (52 - top) - 2 ^ 52))⟩
  else ⟨UInt64.ofNat (sign + (exponent + 896) * 2 ^ 52 + fraction * 2 ^ 29)⟩

section

variable {Instans : Type} (runtime : RuntimeContext Instans) (memory : Memory)

/-- `array_to_valor`, over the conversion of one element. -/
def arrayToValor (convert : ValueKind → RuntimeValue → Traced Handle Valor)
    (array : RuntimeArray) : Traced Handle Valor := do
  let values ← Traced.each (convert array.kind) array.values
  pure (.lista values)

/-- One entry of a map; a key that is no text fails. -/
def entryToValor (convert : ValueKind → RuntimeValue → Traced Handle Valor)
    (map : RuntimeMap) (entry : RuntimeValue × RuntimeValue) : Traced Handle (String × Valor) := do
  match ← convert map.keyKind entry.1 with
  | .textus key => do
    let value ← convert map.valueKind entry.2
    pure (key, value)
  | _ => .fail

/-- The entries as `BTreeMap::from_iter` takes them. -/
def collectEntries (entries : List (String × Valor)) : List (String × Valor) :=
  entries.foldl (fun collected entry => insertEntry entry.1 entry.2 collected) []

/-- `map_to_valor`. -/
def mapToValor (convert : ValueKind → RuntimeValue → Traced Handle Valor)
    (map : RuntimeMap) : Traced Handle Valor := do
  let entries ← Traced.each (entryToValor convert map) map.entries
  pure (.tabula (collectEntries entries))

/-- `runtime_value_to_valor`. -/
def runtimeValueToValor : Nat → ValueKind → RuntimeValue → Traced Handle Valor
  | 0, _, _ => .fail
  | depth + 1, kind, value =>
    match kind, value with
    | .i1, .i1 value => pure (.bivalens (value != 0))
    | .i8, .i8 value => pure (.numerus value.toInt64)
    | .i16, .i16 value => pure (.numerus value.toInt64)
    | .i32, .i32 value => pure (.numerus value.toInt64)
    | .i64, .i64 value => pure (.numerus value)
    | .u8, .u8 value => pure (.numerus (Int64.ofNat value.toNat))
    | .u16, .u16 value => pure (.numerus (Int64.ofNat value.toNat))
    | .u32, .u32 value => pure (.numerus (Int64.ofNat value.toNat))
    | .u64, .u64 value =>
      if value.toNat < 2 ^ 63 then pure (.numerus (Int64.ofNat value.toNat)) else .fail
    | .f32, .f32 bits => pure (.fractus (f64OfF32 bits))
    | .f64, .f64 value => pure (.fractus value)
    | .text, .ptr handle => Valor.textus <$> textValue memory handle
    | .ptr, .ptr handle =>
      match findText runtime handle with
      | some text => pure (.textus text)
      | none =>
        match findOcteti runtime handle with
        | some bytes => pure (.octeti bytes)
        | none =>
          match findArray runtime handle with
          | some array => arrayToValor (runtimeValueToValor depth) array
          | none =>
            match findMap runtime handle with
            | some map => mapToValor (runtimeValueToValor depth) map
            | none =>
              if (findSet runtime handle).isSome then .fail
              else Valor.textus <$> textValue memory handle
    | .valor, .ptr handle => if handle = 0 then .fail else .found (findValor runtime handle)
    | _, _ => .fail

/-- `__faber_rt_v1_valor_array`, up to the storing of the value. -/
def valorArray (depth : Nat) (handle : Handle) : Traced Handle Valor :=
  match findArray runtime handle with
  | some array => arrayToValor (runtimeValueToValor runtime memory depth) array
  | none => .fail

/-- `__faber_rt_v1_valor_map`, up to the storing of the value. -/
def valorMap (depth : Nat) (handle : Handle) : Traced Handle Valor :=
  match findMap runtime handle with
  | some map => mapToValor (runtimeValueToValor runtime memory depth) map
  | none => .fail

/-- `__faber_rt_v1_valor_tensor`, up to the storing of the value. -/
def valorTensor (depth : Nat) (handle : Handle) : Traced Handle Valor :=
  match findTensor runtime handle with
  | some tensor => do
    let values ← Traced.each (runtimeValueToValor runtime memory depth tensor.kind) tensor.data
    pure (.lista values)
  | none => .fail

end

end FaberHosts.Llvm

/-!
## Diagnostics of opaque values and options

The text that `nota` and `mone` print for a handle (`opaque_value_text`), for an
element of a lista or a copia, and for an option.
-/

namespace FaberHosts.Llvm
open FaberHosts.Kernel FaberHosts.Lib

section

variable {Instans : Type} (display : Display Instans) (runtime : RuntimeContext Instans)
  (memory : Memory)

/-- `opaque_element_text`. -/
def opaqueElementText (kind : ValueKind) (element : RuntimeValue) : Traced Handle String :=
  match kind, element with
  | .ptr, .ptr handle =>
    display.debugTextus <$>
      (Traced.found (findText runtime handle)).orElse (textValue memory handle)
  | .i1, .i1 value =>
    match runtime.displayTokens with
    | some tokens => pure (display.bivalensWith (value != 0) tokens)
    | none => pure (if value != 0 then "true" else "false")
  | .i8, .i8 value => pure (toString value)
  | .i16, .i16 value => pure (toString value)
  | .i32, .i32 value => pure (toString value)
  | .i64, .i64 value => pure (toString value)
  | .u8, .u8 value => pure (toString value)
  | .u16, .u16 value => pure (toString value)
  | .u32, .u32 value => pure (toString value)
  | .u64, .u64 value => pure (toString value)
  | .f32, .f32 bits => pure (display.fractus32 bits)
  | .f64, .f64 value => pure (display.fractus64 value)
  | _, _ => .fail

/-- `opaque_value_text`: the arenas in turn; `depth` bounds the conversion of the
    entries of a tabula. -/
def opaqueValueText (depth : Nat) (handle : Handle) : Traced Handle String :=
  match findArray runtime handle with
  | some array => do
    let rendered ← Traced.each (opaqueElementText display runtime memory array.kind) array.values
    pure ("[" ++ ", ".intercalate rendered ++ "]")
  | none =>
    match findOcteti runtime handle with
    | some bytes => pure (debugOcteti bytes)
    | none =>
      match findInstans runtime handle with
      | some instans => pure (display.debugInstans instans)
      | none =>
        match findValor runtime handle with
        | some (.octeti bytes) => pure (debugOcteti bytes)
        | some other => pure (display.valorWith other (DisplayTokens.of runtime display))
        | none =>
          match findMap runtime handle with
          | some map => do
            let valor ← mapToValor (runtimeValueToValor runtime memory depth) map
            pure ("Json(" ++ display.debugValor valor ++ ")")
          | none =>
            match findSet runtime handle with
            | some set => do
              let rendered ←
                Traced.each (opaqueElementText display runtime memory set.kind) set.values
              pure ("\x7b" ++ ", ".intercalate rendered ++ "\x7d")
            | none => .fail

/-- `render_text_payload`. -/
def renderTextPayload (handle : Handle) : Traced Handle String :=
  match findText runtime handle with
  | some text => pure text
  | none => textValue memory handle

/-- `render_option_payload`: the payload of an option in the arena. -/
def renderOptionPayload (depth : Nat) (kind : ValueKind) (value : RuntimeValue) :
    Traced Handle String :=
  match kind, value with
  | .i1, .i1 value =>
    pure (display.bivalensWith (value != 0) (DisplayTokens.of runtime display))
  | .i8, .i8 value => pure (toString value)
  | .i16, .i16 value => pure (toString value)
  | .i32, .i32 value => pure (toString value)
  | .i64, .i64 value => pure (toString value)
  | .u8, .u8 value => pure (toString value)
  | .u16, .u16 value => pure (toString value)
  | .u32, .u32 value => pure (toString value)
  | .u64, .u64 value => pure (toString value)
  | .f32, .f32 bits => pure (display.fractus32 bits)
  | .f64, .f64 value => pure (display.fractus64 value)
  | .text, .ptr handle => renderTextPayload runtime memory handle
  | .ptr, .ptr handle =>
    ((Traced.found (findText runtime handle)).orElse (textValue memory handle)).orElse
      (opaqueValueText display runtime memory depth handle)
  | _, _ => .fail

/-- `render_raw_option_payload`: the pointer is the payload. -/
def renderRawOptionPayload (depth : Nat) (option : Handle) (kind : ValueKind) :
    Traced Handle String :=
  match kind with
  | .i64 => pure (toString (Int64.ofNat option))
  | .i1 => pure (display.bivalensWith (option != 0) (DisplayTokens.of runtime display))
  | .f32 => pure (display.fractus32 (UInt32.ofNat option))
  | .f64 => pure (display.fractus64 ⟨UInt64.ofNat option⟩)
  | .text => renderTextPayload runtime memory option
  | .ptr => opaqueValueText display runtime memory depth option
  | _ => .fail

/-- `option_diagnostic_text`: the null pointer and an empty box print the word for
    none. -/
def optionDiagnosticText (depth : Nat) (option : Handle) (kind : ValueKind) :
    Traced Handle String :=
  if option = 0 then pure (DisplayTokens.of runtime display).none
  else
    match findOption runtime option with
    | some ⟨_, none⟩ => pure (DisplayTokens.of runtime display).none
    | some ⟨boxed, some value⟩ => renderOptionPayload display runtime memory depth boxed value
    | none => renderRawOptionPayload display runtime memory depth option kind

end

end FaberHosts.Llvm
