import Mathlib
import FaberHosts.Llvm.Cells
import FaberHosts.Llvm.Conversion

/-!
# Boxing and unboxing

`valor_aggregate.rs`: an array or a map as a `Valor`, and back at a given kind.  Texts and
values that a conversion stores take addresses from the allocator.
-/

namespace FaberHosts.Llvm
open FaberHosts.Kernel FaberHosts.Lib

/-! ## Floats of 32 bits -/

/-- The quotient, rounded to the nearest, ties to even. -/
def roundEven (n unit : Nat) : Nat :=
  let quotient := n / unit
  let twice := 2 * (n % unit)
  if unit < twice ∨ twice = unit ∧ quotient % 2 = 1 then quotient + 1 else quotient

/-- `as f32` of an `f64`, by its bits. -/
def f32OfF64 (f : F64) : UInt32 :=
  let sign := f.bits.toNat / 2 ^ 63 * 2 ^ 31
  let exponent := f.bits.toNat / 2 ^ 52 % 2 ^ 11
  let fraction := f.bits.toNat % 2 ^ 52
  if exponent = 2047 then
    UInt32.ofNat (sign + 255 * 2 ^ 23 + if fraction = 0 then 0 else (fraction / 2 ^ 29 ||| 2 ^ 22))
  else if exponent = 0 then UInt32.ofNat sign
  else
    let shift := if 896 < exponent then 29 else 926 - exponent
    -- a carry out of the fraction moves to the next exponent by itself, at last to infinity
    let magnitude := (exponent - 897) * 2 ^ 23 + roundEven (2 ^ 52 + fraction) (2 ^ shift)
    UInt32.ofNat (sign + min magnitude (255 * 2 ^ 23))

/-- A NaN that arithmetic would make quiet. -/
def signalsNaN (bits : UInt32) : Prop :=
  bits.toNat / 2 ^ 23 % 2 ^ 8 = 255 ∧ bits.toNat % 2 ^ 23 ≠ 0 ∧ bits.toNat % 2 ^ 23 < 2 ^ 22

theorem roundEven_mul (q unit : Nat) (h : 0 < unit) : roundEven (q * unit) unit = q := by
  simp [roundEven, Nat.mul_div_cancel q h, Nat.not_lt.mpr h.le, h.ne]

theorem f64_fields {sign exponent fraction : Nat} (hsign : sign < 2) (hexponent : exponent < 2 ^ 11)
    (hfraction : fraction < 2 ^ 52) :
    let bits := (UInt64.ofNat (sign * 2 ^ 63 + exponent * 2 ^ 52 + fraction)).toNat
    bits / 2 ^ 63 = sign ∧ bits / 2 ^ 52 % 2 ^ 11 = exponent ∧ bits % 2 ^ 52 = fraction := by
  intro bits
  have hbits : bits = sign * 2 ^ 63 + exponent * 2 ^ 52 + fraction := by
    simp only [bits, UInt64.toNat_ofNat']
    omega
  omega

theorem f32OfF64_fields {sign exponent fraction : Nat} (hsign : sign < 2)
    (hexponent : exponent < 2 ^ 11) (hfraction : fraction < 2 ^ 52) :
    f32OfF64 ⟨UInt64.ofNat (sign * 2 ^ 63 + exponent * 2 ^ 52 + fraction)⟩ =
      if exponent = 2047 then
        UInt32.ofNat (sign * 2 ^ 31 + 255 * 2 ^ 23 +
          if fraction = 0 then 0 else (fraction / 2 ^ 29 ||| 2 ^ 22))
      else if exponent = 0 then UInt32.ofNat (sign * 2 ^ 31)
      else UInt32.ofNat (sign * 2 ^ 31 + min ((exponent - 897) * 2 ^ 23 +
        roundEven (2 ^ 52 + fraction) (2 ^ (if 896 < exponent then 29 else 926 - exponent)))
          (255 * 2 ^ 23)) := by
  obtain ⟨h1, h2, h3⟩ := f64_fields hsign hexponent hfraction
  simp only [f32OfF64, h1, h2, h3]

theorem or_quiet {fraction : Nat} (hlow : 2 ^ 22 ≤ fraction) (hhigh : fraction < 2 ^ 23) :
    fraction ||| 2 ^ 22 = fraction := by
  obtain ⟨rest, rfl⟩ := Nat.exists_eq_add_of_le hlow
  have hrest : rest < 2 ^ 22 := by omega
  have hor : 2 ^ 22 + rest = 2 ^ 22 ||| rest := by
    simpa using Nat.two_pow_add_eq_or_of_lt hrest 1
  rw [hor, Nat.or_comm, ← Nat.or_assoc, Nat.or_self]

/-- An `f32` widened and narrowed is the same, unless it is a signaling NaN. -/
theorem f32OfF64_f64OfF32 {bits : UInt32} (h : ¬ signalsNaN bits) :
    f32OfF64 (f64OfF32 bits) = bits := by
  have hlt := bits.toNat_lt
  -- the three fields of the float
  generalize hs : bits.toNat / 2 ^ 31 = sign
  generalize he : bits.toNat / 2 ^ 23 % 2 ^ 8 = exponent
  generalize hf : bits.toNat % 2 ^ 23 = fraction
  have hbits : bits = UInt32.ofNat (sign * 2 ^ 31 + exponent * 2 ^ 23 + fraction) := by
    rw [← UInt32.ofNat_toNat (x := bits)]
    congr 1
    omega
  have hsign : sign < 2 := by omega
  have hfraction : fraction < 2 ^ 23 := by omega
  have hexponent : exponent < 256 := by omega
  simp only [f64OfF32, hs, he, hf]
  simp only [signalsNaN, he, hf] at h
  rw [hbits]
  split
  · next hspecial =>
    subst hspecial
    split
    · next hzero =>
      have hnarrow := @f32OfF64_fields sign 2047 0 hsign (by decide) (by decide)
      simpa [hzero] using hnarrow
    · next hnan =>
      have hquiet : 2 ^ 22 ≤ fraction := by
        by_contra hlow
        exact h ⟨rfl, hnan, by omega⟩
      rw [or_quiet hquiet hfraction]
      have hnarrow := @f32OfF64_fields sign 2047 (fraction * 2 ^ 29) hsign (by decide) (by omega)
      rw [hnarrow, if_pos rfl, if_neg (by omega), Nat.mul_div_cancel _ (by decide),
        or_quiet hquiet hfraction]
  · split
    · next hsubnormal =>
      subst hsubnormal
      split
      · next hzero =>
        have hnarrow := @f32OfF64_fields sign 0 0 hsign (by decide) (by decide)
        simpa [hzero] using hnarrow
      · next hnonzero =>
        have htop : fraction.log2 ≤ 22 :=
          Nat.lt_succ_iff.mp ((Nat.log2_lt hnonzero).mpr hfraction)
        have hlow : 2 ^ fraction.log2 ≤ fraction := Nat.log2_self_le hnonzero
        have hhigh : fraction < 2 ^ (fraction.log2 + 1) := Nat.lt_log2_self
        generalize fraction.log2 = top at htop hlow hhigh
        have hscale : 2 ^ top * 2 ^ (52 - top) = 2 ^ 52 := by
          rw [← Nat.pow_add]
          congr 1
          omega
        have hover : 2 ^ 52 ≤ fraction * 2 ^ (52 - top) := by
          rw [← hscale]
          exact Nat.mul_le_mul_right _ hlow
        have hunder : fraction * 2 ^ (52 - top) < 2 ^ 53 := by
          have hdouble : 2 ^ (top + 1) * 2 ^ (52 - top) = 2 ^ 53 := by
            rw [← Nat.pow_add]
            congr 1
            omega
          rw [← hdouble]
          exact Nat.mul_lt_mul_of_pos_right hhigh (Nat.two_pow_pos _)
        have hnarrow := @f32OfF64_fields sign (874 + top) (fraction * 2 ^ (52 - top) - 2 ^ 52) hsign
          (by omega) (by omega)
        rw [hnarrow, if_neg (by omega), if_neg (by omega), if_neg (by omega),
          Nat.add_sub_cancel' hover, show 926 - (874 + top) = 52 - top by omega,
          roundEven_mul _ _ (Nat.two_pow_pos _), show 874 + top - 897 = 0 by omega]
        refine congrArg UInt32.ofNat ?_
        omega
    · next hnormal hnonzero =>
      have hnarrow := @f32OfF64_fields sign (exponent + 896) (fraction * 2 ^ 29) hsign
        (by omega) (by omega)
      have hsum : 2 ^ 52 + fraction * 2 ^ 29 = (2 ^ 23 + fraction) * 2 ^ 29 := by omega
      rw [hnarrow, if_neg (by omega), if_neg (by omega), if_pos (by omega), hsum,
        roundEven_mul _ _ (Nat.two_pow_pos _)]
      refine congrArg UInt32.ofNat ?_
      omega

theorem not_signals_f32OfF64 (f : F64) : ¬ signalsNaN (f32OfF64 f) := by
  have hlt := f.bits.toNat_lt
  generalize hs : f.bits.toNat / 2 ^ 63 = sign
  have hsign : sign < 2 := by omega
  unfold f32OfF64 signalsNaN
  simp only [hs]
  split
  · split
    · rw [UInt32.toNat_ofNat']
      omega
    · have hquotient : f.bits.toNat % 2 ^ 52 / 2 ^ 29 < 2 ^ 23 := by omega
      generalize f.bits.toNat % 2 ^ 52 / 2 ^ 29 = payload at hquotient
      have hlow : 2 ^ 22 ≤ payload ||| 2 ^ 22 := Nat.right_le_or
      have hhigh : payload ||| 2 ^ 22 < 2 ^ 23 := Nat.or_lt_two_pow hquotient (by decide)
      generalize payload ||| 2 ^ 22 = quiet at hlow hhigh
      rw [UInt32.toNat_ofNat']
      omega
  · split
    · rw [UInt32.toNat_ofNat']
      omega
    · rw [UInt32.toNat_ofNat']
      omega

/-! ## Unboxing -/

/-- The `FromValor` conversions of the `faber` crate, which take a value of their own variant
    and may take others. -/
structure FromValor where
  bool : Valor → Option Bool
  i64 : Valor → Option Int64
  f64 : Valor → Option F64
  string : Valor → Option String
  bool_bivalens : ∀ b, bool (.bivalens b) = some b
  i64_numerus : ∀ n, i64 (.numerus n) = some n
  f64_fractus : ∀ f, f64 (.fractus f) = some f
  string_textus : ∀ s, string (.textus s) = some s

/-- The allocator: an address where no object of the runtime is. -/
structure Allocator (Instans : Type) where
  next : Runtime Instans → Handle
  nonzero : ∀ runtime : Runtime Instans, next runtime ≠ 0
  noText : ∀ runtime : Runtime Instans, findText runtime.toRuntimeContext (next runtime) = none
  noValor : ∀ runtime : Runtime Instans, findValor runtime.toRuntimeContext (next runtime) = none
  noInstans : ∀ runtime : Runtime Instans,
    findInstans runtime.toRuntimeContext (next runtime) = none
  noArray : ∀ runtime : Runtime Instans, findArray runtime.toRuntimeContext (next runtime) = none
  noMap : ∀ runtime : Runtime Instans, findMap runtime.toRuntimeContext (next runtime) = none
  noAscii : ∀ runtime : Runtime Instans, runtime.ascii.find (next runtime) = none
  noNumericBox : ∀ runtime : Runtime Instans, runtime.numericBoxes.find (next runtime) = none

section

variable {Instans : Type} (F : FromValor) (A : Allocator Instans)

/-- `try_into` of an `i64` whose target holds the values from `low` to `high`. -/
def narrow (low high : Int) (value : Option Int64) : Option Int64 :=
  value.filter (fun n => low ≤ n.toInt ∧ n.toInt ≤ high)

def storeValor (runtime : Runtime Instans) (valor : Valor) : Answer Instans :=
  (.pointer (A.next runtime),
    { runtime with valors := runtime.valors.store (A.next runtime) valor })

/-- `valor_to_runtime_value`. -/
def valorToRuntimeValue (runtime : Runtime Instans) (valor : Valor) :
    ValueKind → Option RuntimeValue × Runtime Instans
  | .i1 => ((F.bool valor).map fun b => .i1 (if b then 1 else 0), runtime)
  | .i8 => ((narrow (-2 ^ 7) (2 ^ 7 - 1) (F.i64 valor)).map fun n => .i8 n.toInt8, runtime)
  | .i16 => ((narrow (-2 ^ 15) (2 ^ 15 - 1) (F.i64 valor)).map fun n => .i16 n.toInt16, runtime)
  | .i32 => ((narrow (-2 ^ 31) (2 ^ 31 - 1) (F.i64 valor)).map fun n => .i32 n.toInt32, runtime)
  | .i64 => ((F.i64 valor).map .i64, runtime)
  | .u8 => ((narrow 0 (2 ^ 8 - 1) (F.i64 valor)).map fun n => .u8 (.ofNat n.toNatClampNeg), runtime)
  | .u16 =>
    ((narrow 0 (2 ^ 16 - 1) (F.i64 valor)).map fun n => .u16 (.ofNat n.toNatClampNeg), runtime)
  | .u32 =>
    ((narrow 0 (2 ^ 32 - 1) (F.i64 valor)).map fun n => .u32 (.ofNat n.toNatClampNeg), runtime)
  | .u64 =>
    ((narrow 0 (2 ^ 63 - 1) (F.i64 valor)).map fun n => .u64 (.ofNat n.toNatClampNeg), runtime)
  | .f32 => ((F.f64 valor).map fun f => .f32 (f32OfF64 f), runtime)
  | .f64 => ((F.f64 valor).map .f64, runtime)
  | .text =>
    match F.string valor with
    | none => (none, runtime)
    | some text => (some (.ptr (A.next runtime)), (storeText runtime (A.next runtime) text).2)
  | .valor => (some (.ptr (A.next runtime)), (storeValor A runtime valor).2)
  | _ => (none, runtime)

/-- The elements in turn, up to the first that does not fit. -/
def unboxAll (runtime : Runtime Instans) (kind : ValueKind) :
    List Valor → Option (List RuntimeValue) × Runtime Instans
  | [] => (some [], runtime)
  | valor :: rest =>
    match valorToRuntimeValue F A runtime valor kind with
    | (none, runtime) => (none, runtime)
    | (some value, runtime) =>
      match unboxAll runtime kind rest with
      | (none, runtime) => (none, runtime)
      | (some values, runtime) => (some (value :: values), runtime)

/-- `store_array`: the values must be cells of the kind, and the kind a known one. -/
def storeArray (runtime : Runtime Instans) (kind : ValueKind) (values : List RuntimeValue) :
    Answer Instans :=
  if kind.width.isSome && values.all (represents kind) then
    storeArrayCells runtime (A.next runtime) kind values
  else (.invalid, runtime)

/-- `__faber_rt_v1_valor_get_array`. -/
def valorGetArray (runtime : Runtime Instans) (valor : Handle) (kind : ValueKind) :
    Answer Instans :=
  if valor = 0 then (.invalid, runtime)
  else
    match findValor runtime.toRuntimeContext valor with
    | some (.lista values) =>
      match unboxAll F A runtime kind values with
      | (none, runtime) => (.invalid, runtime)
      | (some values, runtime) => storeArray A runtime kind values
    | _ => (.invalid, runtime)

/-- The entries in turn; the key of an entry is stored before its value is converted. -/
def unboxEntries (runtime : Runtime Instans) (kind : ValueKind) :
    List (String × Valor) → Option (List (RuntimeValue × RuntimeValue)) × Runtime Instans
  | [] => (some [], runtime)
  | (key, valor) :: rest =>
    let handle := A.next runtime
    match valorToRuntimeValue F A (storeText runtime handle key).2 valor kind with
    | (none, runtime) => (none, runtime)
    | (some value, runtime) =>
      match unboxEntries runtime kind rest with
      | (none, runtime) => (none, runtime)
      | (some entries, runtime) => (some ((.ptr handle, value) :: entries), runtime)

/-- `__faber_rt_v1_valor_get_map`. -/
def valorGetMap (runtime : Runtime Instans) (valor : Handle) (keyKind valueKind : ValueKind) :
    Answer Instans :=
  if keyKind ≠ .text then (.invalid, runtime)
  else if valor = 0 then (.invalid, runtime)
  else
    match findValor runtime.toRuntimeContext valor with
    | some (.tabula entries) =>
      match unboxEntries F A runtime valueKind entries with
      | (none, runtime) => (.invalid, runtime)
      | (some entries, runtime) =>
        (.pointer (A.next runtime), { runtime with
          maps := runtime.maps.store (A.next runtime) ⟨keyKind, valueKind, entries⟩ })
    | _ => (.invalid, runtime)

end

/-! ## What a runtime keeps -/

section

variable {Instans : Type} {F : FromValor} {A : Allocator Instans} {memory : Memory}
  {before runtime after : Runtime Instans} {kind : ValueKind}

/-- Conversions add texts and values; arrays and maps stay as they are. -/
structure Grows (before after : Runtime Instans) : Prop where
  text : ∀ handle text, findText before.toRuntimeContext handle = some text →
    findText after.toRuntimeContext handle = some text
  valor : ∀ handle valor, findValor before.toRuntimeContext handle = some valor →
    findValor after.toRuntimeContext handle = some valor
  arrays : after.arrays = before.arrays
  maps : after.maps = before.maps

namespace Grows

theorem refl (runtime : Runtime Instans) : Grows runtime runtime :=
  ⟨fun _ _ => id, fun _ _ => id, rfl, rfl⟩

theorem trans (h : Grows before runtime) (h' : Grows runtime after) : Grows before after where
  text handle text hfound := h'.text handle text (h.text handle text hfound)
  valor handle valor hfound := h'.valor handle valor (h.valor handle valor hfound)
  arrays := h'.arrays.trans h.arrays
  maps := h'.maps.trans h.maps

theorem store_found {α : Type} {arena : Arena α} {handle other : Handle} {value new : α}
    (h : arena.find other = some value) : (arena.store handle new).find other = some value := by
  rw [Arena.find_store, h]
  rfl

theorem storeText (runtime : Runtime Instans) (handle : Handle) (text : String) :
    Grows runtime (Llvm.storeText runtime handle text).2 :=
  ⟨fun _ _ => store_found, fun _ _ => id, rfl, rfl⟩

theorem storeValor (runtime : Runtime Instans) (valor : Valor) :
    Grows runtime (Llvm.storeValor A runtime valor).2 :=
  ⟨fun _ _ => id, fun _ _ => store_found, rfl, rfl⟩

end Grows

theorem valorToRuntimeValue_grows (runtime : Runtime Instans) (valor : Valor) (kind : ValueKind) :
    Grows runtime (valorToRuntimeValue F A runtime valor kind).2 := by
  cases kind with
  | text =>
    rw [valorToRuntimeValue]
    split
    · exact .refl runtime
    · exact .storeText runtime _ _
  | valor => exact .storeValor runtime valor
  | _ => exact .refl runtime

theorem unboxAll_cons (runtime : Runtime Instans) (kind : ValueKind) (valor : Valor)
    (rest : List Valor) :
    let first := valorToRuntimeValue F A runtime valor kind
    unboxAll F A runtime kind (valor :: rest) =
      match first.1 with
      | none => (none, first.2)
      | some value => ((unboxAll F A first.2 kind rest).1.map (value :: ·),
          (unboxAll F A first.2 kind rest).2) := by
  intro first
  rw [unboxAll]
  split
  · next runtime' heq => simp only [first, heq]
  · next value runtime' heq =>
    simp only [first, heq]
    split
    · next heq' => rw [heq']; rfl
    · next heq' => rw [heq']; rfl

theorem unboxAll_grows (runtime : Runtime Instans) (kind : ValueKind) (valors : List Valor) :
    Grows runtime (unboxAll F A runtime kind valors).2 := by
  induction valors generalizing runtime with
  | nil => exact .refl runtime
  | cons valor rest ih =>
    have hfirst := valorToRuntimeValue_grows (F := F) (A := A) runtime valor kind
    rw [unboxAll_cons]
    split
    · exact hfirst
    · exact hfirst.trans (ih _)

theorem unboxEntries_grows (runtime : Runtime Instans) (kind : ValueKind)
    (entries : List (String × Valor)) :
    Grows runtime (unboxEntries F A runtime kind entries).2 := by
  induction entries generalizing runtime with
  | nil => exact .refl runtime
  | cons entry rest ih =>
    have hkey := Grows.storeText runtime (A.next runtime) entry.1
    have hfirst := hkey.trans (valorToRuntimeValue_grows (F := F) (A := A) _ entry.2 kind)
    rw [unboxEntries]
    split
    · next heq =>
      rw [heq] at hfirst
      exact hfirst
    · next runtime' heq =>
      rw [heq] at hfirst
      have hrest := ih runtime'
      split
      · next hunboxed =>
        rw [hunboxed] at hrest
        exact hfirst.trans hrest
      · next hunboxed =>
        rw [hunboxed] at hrest
        exact hfirst.trans hrest

/-! ## Cells that come back -/

/-- The cell stored for another: the same, or a pointer to the same text or value. -/
def SameCell (memory : Memory) (before after : Runtime Instans) :
    ValueKind → RuntimeValue → RuntimeValue → Prop
  | .text, given, stored => ∃ handle handle' text, given = .ptr handle ∧
      memory.slice handle = some text ∧ stored = .ptr handle' ∧
      findText after.toRuntimeContext handle' = some text
  | .valor, given, stored => ∃ handle handle' valor, given = .ptr handle ∧
      findValor before.toRuntimeContext handle = some valor ∧ stored = .ptr handle' ∧
      findValor after.toRuntimeContext handle' = some valor
  | _, given, stored => stored = given

/-- Cells of a kind that can be unboxed, with a `bivalens` of 0 or 1 and no signaling NaN. -/
def Recoverable : ValueKind → RuntimeValue → Prop
  | .ptr, _ => False
  | _, .i1 byte => byte ≤ 1
  | _, .f32 bits => ¬ signalsNaN bits
  | _, _ => True

theorem SameCell.grows {given stored : RuntimeValue}
    (h : SameCell memory before runtime kind given stored) (hgrows : Grows runtime after) :
    SameCell memory before after kind given stored := by
  cases kind with
  | text =>
    obtain ⟨handle, handle', text, hgiven, hslice, hstored, hfound⟩ := h
    exact ⟨handle, handle', text, hgiven, hslice, hstored, hgrows.text _ _ hfound⟩
  | valor =>
    obtain ⟨handle, handle', valor, hgiven, hvalor, hstored, hfound⟩ := h
    exact ⟨handle, handle', valor, hgiven, hvalor, hstored, hgrows.valor _ _ hfound⟩
  | _ => exact h

theorem SameCell.keeps {given stored : RuntimeValue}
    (h : SameCell memory before runtime kind given stored) (htexts : after.texts = runtime.texts)
    (hvalors : after.valors = runtime.valors) : SameCell memory before after kind given stored := by
  cases kind with
  | text =>
    obtain ⟨handle, handle', text, hgiven, hslice, hstored, hfound⟩ := h
    exact ⟨handle, handle', text, hgiven, hslice, hstored,
      by rw [findText, htexts]; exact hfound⟩
  | valor =>
    obtain ⟨handle, handle', valor, hgiven, hvalor, hstored, hfound⟩ := h
    exact ⟨handle, handle', valor, hgiven, hvalor, hstored,
      by rw [findValor, hvalors]; exact hfound⟩
  | _ => exact h

theorem narrow_some {low high : Int} {n : Int64} (h : low ≤ n.toInt ∧ n.toInt ≤ high) :
    narrow low high (some n) = some n := by
  simp [narrow, h]

theorem narrow_ofNat {high : Int} {n : Nat} (hn : n < 2 ^ 63) (hhigh : (n : Int) ≤ high) :
    narrow 0 high (some (Int64.ofNat n)) = some (Int64.ofNat n) := by
  apply narrow_some
  rw [Int64.toInt_ofNat_of_lt hn]
  omega

theorem bool_byte_eq_iff {byte : UInt8} :
    (if byte != 0 then 1 else 0 : UInt8) = byte ↔ byte ≤ 1 := by
  have hone : (1 : UInt8).toNat = 1 := rfl
  have hzero : (0 : UInt8).toNat = 0 := rfl
  rw [UInt8.le_iff_toNat_le, hone]
  by_cases hbyte : byte = 0
  · subst hbyte
    decide
  · have hpositive : byte.toNat ≠ 0 := fun h => hbyte (UInt8.toNat_inj.mp h)
    simp only [bne_iff_ne, ne_eq, hbyte, not_false_eq_true, if_true]
    rw [← UInt8.toNat_inj, hone]
    omega

theorem storeText_found (runtime : Runtime Instans) (text : String) :
    findText (storeText runtime (A.next runtime) text).2.toRuntimeContext (A.next runtime) =
      some text := by
  have hfree := A.noText runtime
  rw [findText] at hfree ⊢
  rw [storeText, Arena.find_store, hfree, if_pos rfl]
  rfl

theorem storeValor_found (runtime : Runtime Instans) (valor : Valor) :
    findValor (storeValor A runtime valor).2.toRuntimeContext (A.next runtime) = some valor := by
  have hfree := A.noValor runtime
  rw [findValor] at hfree ⊢
  rw [storeValor, Arena.find_store, hfree, if_pos rfl]
  rfl

theorem slice_of_textValue {handle : Handle} {text : String}
    (h : (textValue memory handle).result = some text) : memory.slice handle = some text := by
  unfold textValue at h
  split at h
  · cases h
  · exact h

theorem unbox_boxed {depth : Nat} {value : RuntimeValue} {valor : Valor}
    (hboxed : (runtimeValueToValor before.toRuntimeContext memory depth kind value).result =
      some valor) (hrecoverable : Recoverable kind value) (runtime : Runtime Instans) :
    ∃ stored, (valorToRuntimeValue F A runtime valor kind).1 = some stored ∧
      SameCell memory before (valorToRuntimeValue F A runtime valor kind).2 kind value stored := by
  cases depth with
  | zero => cases hboxed
  | succ depth =>
    cases kind with
    | i1 =>
      cases value with
      | i1 byte =>
        cases hboxed
        simp only [valorToRuntimeValue, F.bool_bivalens, Option.map_some]
        exact ⟨_, rfl, congrArg RuntimeValue.i1 (bool_byte_eq_iff.mpr hrecoverable)⟩
      | _ => cases hboxed
    | i8 =>
      cases value with
      | i8 n =>
        cases hboxed
        refine ⟨.i8 n, ?_, rfl⟩
        simp only [valorToRuntimeValue, F.i64_numerus]
        have hlow := n.le_toInt
        have hhigh := n.toInt_lt
        rw [narrow_some (by rw [Int8.toInt_toInt64]; omega)]
        simp
      | _ => cases hboxed
    | i16 =>
      cases value with
      | i16 n =>
        cases hboxed
        refine ⟨.i16 n, ?_, rfl⟩
        simp only [valorToRuntimeValue, F.i64_numerus]
        have hlow := n.le_toInt
        have hhigh := n.toInt_lt
        rw [narrow_some (by rw [Int16.toInt_toInt64]; omega)]
        simp
      | _ => cases hboxed
    | i32 =>
      cases value with
      | i32 n =>
        cases hboxed
        refine ⟨.i32 n, ?_, rfl⟩
        simp only [valorToRuntimeValue, F.i64_numerus]
        have hlow := n.le_toInt
        have hhigh := n.toInt_lt
        rw [narrow_some (by rw [Int32.toInt_toInt64]; omega)]
        simp
      | _ => cases hboxed
    | i64 =>
      cases value with
      | i64 n =>
        cases hboxed
        refine ⟨.i64 n, ?_, rfl⟩
        simp only [valorToRuntimeValue, F.i64_numerus, Option.map_some]
      | _ => cases hboxed
    | u8 =>
      cases value with
      | u8 n =>
        cases hboxed
        refine ⟨.u8 n, ?_, rfl⟩
        have hlt := n.toNat_lt
        simp only [valorToRuntimeValue, F.i64_numerus]
        rw [narrow_ofNat (by omega) (by omega), Option.map_some,
          Int64.toNatClampNeg_ofNat_of_lt (by omega), UInt8.ofNat_toNat]
      | _ => cases hboxed
    | u16 =>
      cases value with
      | u16 n =>
        cases hboxed
        refine ⟨.u16 n, ?_, rfl⟩
        have hlt := n.toNat_lt
        simp only [valorToRuntimeValue, F.i64_numerus]
        rw [narrow_ofNat (by omega) (by omega), Option.map_some,
          Int64.toNatClampNeg_ofNat_of_lt (by omega), UInt16.ofNat_toNat]
      | _ => cases hboxed
    | u32 =>
      cases value with
      | u32 n =>
        cases hboxed
        refine ⟨.u32 n, ?_, rfl⟩
        have hlt := n.toNat_lt
        simp only [valorToRuntimeValue, F.i64_numerus]
        rw [narrow_ofNat (by omega) (by omega), Option.map_some,
          Int64.toNatClampNeg_ofNat_of_lt (by omega), UInt32.ofNat_toNat]
      | _ => cases hboxed
    | u64 =>
      cases value with
      | u64 n =>
        rw [runtimeValueToValor] at hboxed
        split at hboxed
        · next hlt =>
          cases hboxed
          refine ⟨.u64 n, ?_, rfl⟩
          simp only [valorToRuntimeValue, F.i64_numerus]
          rw [narrow_ofNat hlt (by omega), Option.map_some,
            Int64.toNatClampNeg_ofNat_of_lt hlt, UInt64.ofNat_toNat]
        · cases hboxed
      | _ => cases hboxed
    | f32 =>
      cases value with
      | f32 bits =>
        cases hboxed
        simp only [valorToRuntimeValue, F.f64_fractus, Option.map_some]
        exact ⟨_, rfl, congrArg RuntimeValue.f32 (f32OfF64_f64OfF32 hrecoverable)⟩
      | _ => cases hboxed
    | f64 =>
      cases value with
      | f64 f =>
        cases hboxed
        refine ⟨.f64 f, ?_, rfl⟩
        simp only [valorToRuntimeValue, F.f64_fractus, Option.map_some]
      | _ => cases hboxed
    | text =>
      cases value with
      | ptr handle =>
        rw [runtimeValueToValor, Traced.result_map] at hboxed
        obtain ⟨text, htext, rfl⟩ := Option.map_eq_some_iff.mp hboxed
        simp only [valorToRuntimeValue, F.string_textus]
        exact ⟨_, rfl, handle, _, text, rfl, slice_of_textValue htext, rfl,
          storeText_found runtime text⟩
      | _ => cases hboxed
    | valor =>
      cases value with
      | ptr handle =>
        rw [runtimeValueToValor] at hboxed
        split at hboxed
        · cases hboxed
        · exact ⟨_, rfl, handle, _, valor, rfl, hboxed, rfl, storeValor_found runtime valor⟩
      | _ => cases hboxed
    | ptr => exact hrecoverable.elim
    | _ => cases value <;> cases hboxed

theorem recoverable_unboxed {runtime : Runtime Instans} {valor : Valor} {stored : RuntimeValue}
    (h : (valorToRuntimeValue F A runtime valor kind).1 = some stored) :
    Recoverable kind stored := by
  cases kind with
  | i1 =>
    obtain ⟨b, -, rfl⟩ := Option.map_eq_some_iff.mp h
    show (if b then 1 else 0 : UInt8) ≤ 1
    cases b <;> decide
  | f32 =>
    obtain ⟨f, -, rfl⟩ := Option.map_eq_some_iff.mp h
    exact not_signals_f32OfF64 f
  | text =>
    rw [valorToRuntimeValue] at h
    split at h
    · cases h
    · cases h
      trivial
  | valor =>
    cases h
    trivial
  | f64 =>
    obtain ⟨f, -, rfl⟩ := Option.map_eq_some_iff.mp h
    trivial
  | i8 | i16 | i32 | i64 | u8 | u16 | u32 | u64 =>
    obtain ⟨n, -, rfl⟩ := Option.map_eq_some_iff.mp h
    trivial
  | _ => cases h

theorem SameCell.recoverable {given stored : RuntimeValue}
    (h : SameCell memory before after kind given stored) (hstored : Recoverable kind stored) :
    Recoverable kind given := by
  cases kind with
  | text =>
    obtain ⟨handle, handle', text, rfl, -⟩ := h
    trivial
  | valor =>
    obtain ⟨handle, handle', valor, rfl, -⟩ := h
    trivial
  | _ =>
    obtain rfl : stored = given := h
    exact hstored

theorem recoverable_unboxAll {runtime : Runtime Instans} {valors : List Valor}
    {values : List RuntimeValue} (h : (unboxAll F A runtime kind valors).1 = some values) :
    ∀ value ∈ values, Recoverable kind value := by
  induction valors generalizing runtime values with
  | nil =>
    cases h
    simp
  | cons valor rest ih =>
    rw [unboxAll_cons] at h
    cases hfirst : (valorToRuntimeValue F A runtime valor kind).1 with
    | none =>
      simp only [hfirst] at h
      cases h
    | some first =>
      simp only [hfirst] at h
      obtain ⟨others, hothers, rfl⟩ := Option.map_eq_some_iff.mp h
      exact List.forall_mem_cons.mpr ⟨recoverable_unboxed hfirst, ih hothers⟩

/-- The cells of a list that was boxed come back when each can be recovered. -/
theorem unboxAll_boxed {depth : Nat} {values : List RuntimeValue} {valors : List Valor}
    (hboxed : List.Forall₂ (fun value valor =>
      (runtimeValueToValor before.toRuntimeContext memory depth kind value).result = some valor)
      values valors) (hall : ∀ value ∈ values, Recoverable kind value)
    (runtime : Runtime Instans) :
    ∃ stored, (unboxAll F A runtime kind valors).1 = some stored ∧
      List.Forall₂ (SameCell memory before (unboxAll F A runtime kind valors).2 kind)
        values stored := by
  induction hboxed generalizing runtime with
  | nil => exact ⟨[], rfl, .nil⟩
  | @cons value valor values valors hvalue _ ih =>
    obtain ⟨hfirst, hrest⟩ := List.forall_mem_cons.mp hall
    obtain ⟨stored, hstored, hsame⟩ := unbox_boxed (F := F) (A := A) hvalue hfirst runtime
    obtain ⟨others, hothers, hsames⟩ :=
      ih hrest (valorToRuntimeValue F A runtime valor kind).2
    rw [unboxAll_cons]
    simp only [hstored, hothers, Option.map_some]
    exact ⟨_, rfl, .cons (hsame.grows (unboxAll_grows _ kind valors)) hsames⟩

theorem represents_unboxed {runtime : Runtime Instans} {valor : Valor} {stored : RuntimeValue}
    (h : (valorToRuntimeValue F A runtime valor kind).1 = some stored) :
    represents kind stored = true := by
  cases kind with
  | text =>
    rw [valorToRuntimeValue] at h
    split at h
    · cases h
    · cases h
      rfl
  | valor =>
    cases h
    rfl
  | i1 | i8 | i16 | i32 | i64 | u8 | u16 | u32 | u64 | f32 | f64 =>
    obtain ⟨n, -, rfl⟩ := Option.map_eq_some_iff.mp h
    rfl
  | _ => cases h

theorem represents_unboxAll {runtime : Runtime Instans} {valors : List Valor}
    {values : List RuntimeValue} (h : (unboxAll F A runtime kind valors).1 = some values) :
    values.all (represents kind) = true := by
  induction valors generalizing runtime values with
  | nil =>
    cases h
    rfl
  | cons valor rest ih =>
    rw [unboxAll_cons] at h
    cases hfirst : (valorToRuntimeValue F A runtime valor kind).1 with
    | none =>
      simp only [hfirst] at h
      cases h
    | some first =>
      simp only [hfirst] at h
      obtain ⟨others, hothers, rfl⟩ := Option.map_eq_some_iff.mp h
      rw [List.all_cons, represents_unboxed hfirst, ih hothers]
      rfl

/-! ## Arrays -/

/-- The call answered with a new array of the same cells. -/
def ArrayRecovered (memory : Memory) (before : Runtime Instans) (array : RuntimeArray)
    (answer : Answer Instans) : Prop :=
  answer.1.status = .ok ∧ ∃ handle array', answer.1.handle = some handle ∧
    findArray answer.2.toRuntimeContext handle = some array' ∧ array'.kind = array.kind ∧
    List.Forall₂ (SameCell memory before answer.2 array.kind) array.values array'.values

theorem storeArrayCells_found (runtime : Runtime Instans) (kind : ValueKind)
    (values : List RuntimeValue) :
    findArray (storeArrayCells runtime (A.next runtime) kind values).2.toRuntimeContext
      (A.next runtime) = some ⟨kind, values⟩ := by
  have hfree := A.noArray runtime
  rw [findArray] at hfree ⊢
  rw [storeArrayCells, Arena.find_store, hfree, if_pos rfl]
  rfl

theorem forall₂_recoverable {given stored : List RuntimeValue}
    (h : List.Forall₂ (SameCell memory before after kind) given stored)
    (hstored : ∀ value ∈ stored, Recoverable kind value) :
    ∀ value ∈ given, Recoverable kind value := by
  induction h with
  | nil => simp
  | cons hfirst _ ih =>
    obtain ⟨hhead, htail⟩ := List.forall_mem_cons.mp hstored
    exact List.forall_mem_cons.mpr ⟨hfirst.recoverable hhead, ih htail⟩

theorem valorGetArray_boxed (runtime : Runtime Instans) (kind : ValueKind)
    (valors : List Valor) :
    let unboxed := unboxAll F A (storeValor A runtime (.lista valors)).2 kind valors
    valorGetArray F A (storeValor A runtime (.lista valors)).2 (A.next runtime) kind =
      match unboxed.1 with
      | none => (.invalid, unboxed.2)
      | some values =>
        if kind.width.isSome then storeArrayCells unboxed.2 (A.next unboxed.2) kind values
        else (.invalid, unboxed.2) := by
  intro unboxed
  rw [valorGetArray, if_neg (A.nonzero runtime), storeValor_found]
  simp only
  split
  · next after heq => simp only [unboxed, heq]
  · next values after heq =>
    have hcells : values.all (represents kind) = true := by
      apply represents_unboxAll (F := F) (A := A)
      rw [heq]
    simp only [unboxed, heq, storeArray, hcells, Bool.and_true]

theorem array_recovered_iff {depth : Nat} {array : RuntimeArray} {handle : Handle} {valor : Valor}
    (harray : findArray before.toRuntimeContext handle = some array)
    (hboxed : (valorArray before.toRuntimeContext memory depth handle).result = some valor) :
    ArrayRecovered memory before array
        (valorGetArray F A (storeValor A before valor).2 (A.next before) array.kind) ↔
      array.kind.width.isSome = true ∧
        ∀ value ∈ array.values, Recoverable array.kind value := by
  rw [valorArray, harray] at hboxed
  simp only [arrayToValor, Traced.result_bind] at hboxed
  obtain ⟨valors, hvalors, hlista⟩ := Option.bind_eq_some_iff.mp hboxed
  cases hlista
  have hcells := Traced.result_each_iff.mp hvalors
  have hstored : ∀ values, (unboxAll F A (storeValor A before (.lista valors)).2 array.kind
      valors).1 = some values → ∀ value ∈ values, Recoverable array.kind value :=
    fun _ => recoverable_unboxAll
  have hback := fun hall => unboxAll_boxed (F := F) (A := A) hcells hall
    (storeValor A before (.lista valors)).2
  rw [valorGetArray_boxed]
  generalize unboxAll F A (storeValor A before (.lista valors)).2 array.kind valors = unboxed
    at hstored hback
  obtain ⟨answer, after⟩ := unboxed
  constructor
  · intro hrecovered
    obtain ⟨hstatus, handle', array', hhandle, hfound, hkind, hsame⟩ := hrecovered
    cases answer with
    | none => cases hstatus
    | some values =>
      simp only at hstatus hhandle hfound hsame
      split at hstatus
      · next hwidth =>
        rw [if_pos hwidth] at hhandle hfound hsame
        cases hhandle
        rw [storeArrayCells_found] at hfound
        cases hfound
        exact ⟨hwidth, forall₂_recoverable hsame (hstored values rfl)⟩
      · cases hstatus
  · intro hwhole
    obtain ⟨values, rfl, hsame⟩ := hback hwhole.2
    simp only [hwhole.1, if_true]
    exact ⟨rfl, A.next after, ⟨array.kind, values⟩, rfl, storeArrayCells_found after _ _, rfl,
      hsame.imp fun _ _ h => h.keeps rfl rfl⟩

/-! ## Maps -/

/-- The entry stored for another: a key of the same text, and the same value. -/
def SameEntry (memory : Memory) (before after : Runtime Instans) (kind : ValueKind)
    (given stored : RuntimeValue × RuntimeValue) : Prop :=
  SameCell memory before after .text given.1 stored.1 ∧
    SameCell memory before after kind given.2 stored.2

/-- The call answered with a new map of the same entries. -/
def MapRecovered (memory : Memory) (before : Runtime Instans) (map : RuntimeMap)
    (answer : Answer Instans) : Prop :=
  answer.1.status = .ok ∧ ∃ handle map', answer.1.handle = some handle ∧
    findMap answer.2.toRuntimeContext handle = some map' ∧ map'.keyKind = map.keyKind ∧
    map'.valueKind = map.valueKind ∧
    ∃ entries, entries.Perm map.entries ∧
      List.Forall₂ (SameEntry memory before answer.2 map.valueKind) entries map'.entries

/-- A map whose keys are texts, no two the same. -/
structure TextKeyed (memory : Memory) (map : RuntimeMap) : Prop where
  kind : map.keyKind = .text
  nodup : (map.entries.map fun entry => match entry.1 with
    | .ptr handle => memory.slice handle
    | _ => none).Nodup

theorem insertEntry_perm {key : String} {value : Valor} {entries : List (String × Valor)}
    (h : key ∉ entries.map Prod.fst) :
    (insertEntry key value entries).Perm ((key, value) :: entries) := by
  induction entries with
  | nil => exact .refl _
  | cons entry rest ih =>
    rw [List.map_cons, List.mem_cons, not_or] at h
    rw [insertEntry]
    split
    · exact .refl _
    · rw [if_neg h.1]
      exact ((ih h.2).cons entry).trans (.swap _ _ _)

theorem collectEntries_perm {entries : List (String × Valor)}
    (h : (entries.map Prod.fst).Nodup) : (collectEntries entries).Perm entries := by
  have hfold : ∀ (collected : List (String × Valor)),
      ((entries ++ collected).map Prod.fst).Nodup →
      (entries.foldl (fun collected entry => insertEntry entry.1 entry.2 collected)
        collected).Perm (entries ++ collected) := by
    clear h
    induction entries with
    | nil => exact fun _ _ => .refl _
    | cons entry rest ih =>
      intro collected hnodup
      rw [List.cons_append, List.map_cons, List.nodup_cons] at hnodup
      obtain ⟨hnew, hrest⟩ := hnodup
      have hinsert : (insertEntry entry.1 entry.2 collected).Perm (entry :: collected) := by
        apply insertEntry_perm
        intro hmem
        exact hnew (by rw [List.map_append]; exact List.mem_append_right _ hmem)
      have hmoved : (rest ++ insertEntry entry.1 entry.2 collected).Perm
          (entry :: (rest ++ collected)) :=
        (hinsert.append_left rest).trans List.perm_middle
      refine (ih _ ?_).trans hmoved
      apply (hmoved.map Prod.fst).nodup_iff.mpr
      exact List.nodup_cons.mpr ⟨hnew, hrest⟩
  have hall := hfold [] (by simpa using h)
  simpa [collectEntries] using hall

theorem unboxEntries_cons (runtime : Runtime Instans) (kind : ValueKind) (key : String)
    (valor : Valor) (rest : List (String × Valor)) :
    let handle := A.next runtime
    let first := valorToRuntimeValue F A (storeText runtime handle key).2 valor kind
    unboxEntries F A runtime kind ((key, valor) :: rest) =
      match first.1 with
      | none => (none, first.2)
      | some value => ((unboxEntries F A first.2 kind rest).1.map ((.ptr handle, value) :: ·),
          (unboxEntries F A first.2 kind rest).2) := by
  intro handle first
  rw [unboxEntries]
  split
  · next runtime' heq => simp only [first, handle, heq]
  · next value runtime' heq =>
    simp only [first, handle, heq]
    split
    · next heq' => rw [heq']; rfl
    · next heq' => rw [heq']; rfl

theorem recoverable_unboxEntries {runtime : Runtime Instans} {entries : List (String × Valor)}
    {stored : List (RuntimeValue × RuntimeValue)}
    (h : (unboxEntries F A runtime kind entries).1 = some stored) :
    ∀ entry ∈ stored, Recoverable kind entry.2 := by
  induction entries generalizing runtime stored with
  | nil =>
    cases h
    simp
  | cons entry rest ih =>
    obtain ⟨key, valor⟩ := entry
    rw [unboxEntries_cons] at h
    cases hfirst : (valorToRuntimeValue F A (storeText runtime (A.next runtime) key).2 valor
        kind).1 with
    | none =>
      simp only [hfirst] at h
      cases h
    | some first =>
      simp only [hfirst] at h
      obtain ⟨others, hothers, rfl⟩ := Option.map_eq_some_iff.mp h
      exact List.forall_mem_cons.mpr ⟨recoverable_unboxed hfirst, ih hothers⟩

/-- A key and a value that box to an entry. -/
def BoxedEntry (memory : Memory) (before : Runtime Instans) (depth : Nat) (kind : ValueKind)
    (given : RuntimeValue × RuntimeValue) (boxed : String × Valor) : Prop :=
  (∃ handle, given.1 = .ptr handle ∧ memory.slice handle = some boxed.1) ∧
    (runtimeValueToValor before.toRuntimeContext memory depth kind given.2).result = some boxed.2

theorem unboxEntries_boxed {depth : Nat} {entries : List (RuntimeValue × RuntimeValue)}
    {boxed : List (String × Valor)}
    (hboxed : List.Forall₂ (BoxedEntry memory before depth kind) entries boxed)
    (hall : ∀ entry ∈ entries, Recoverable kind entry.2) (runtime : Runtime Instans) :
    ∃ stored, (unboxEntries F A runtime kind boxed).1 = some stored ∧
      List.Forall₂ (SameEntry memory before (unboxEntries F A runtime kind boxed).2 kind)
        entries stored := by
  induction hboxed generalizing runtime with
  | nil => exact ⟨[], rfl, .nil⟩
  | @cons given box entries boxed hentry _ ih =>
    obtain ⟨hfirst, hrest⟩ := List.forall_mem_cons.mp hall
    obtain ⟨⟨handle, hkey, hslice⟩, hvalue⟩ := hentry
    obtain ⟨key, valor⟩ := box
    have hkeep := valorToRuntimeValue_grows (F := F) (A := A)
      (storeText runtime (A.next runtime) key).2 valor kind
    obtain ⟨stored, hstored, hsame⟩ := unbox_boxed (F := F) (A := A) hvalue hfirst
      (storeText runtime (A.next runtime) key).2
    generalize hconverted : valorToRuntimeValue F A (storeText runtime (A.next runtime) key).2
      valor kind = converted at hkeep hstored hsame
    obtain ⟨others, hothers, hsames⟩ := ih hrest converted.2
    have hgrows := unboxEntries_grows (F := F) (A := A) converted.2 kind boxed
    rw [unboxEntries_cons]
    simp only [hconverted, hstored, hothers, Option.map_some]
    refine ⟨_, rfl, .cons ⟨?_, hsame.grows hgrows⟩ hsames⟩
    exact ⟨handle, _, key, hkey, hslice, rfl,
      hgrows.text _ _ (hkeep.text _ _ (storeText_found runtime key))⟩

theorem forall₂_entries_recoverable {given stored : List (RuntimeValue × RuntimeValue)}
    (h : List.Forall₂ (SameEntry memory before after kind) given stored)
    (hstored : ∀ entry ∈ stored, Recoverable kind entry.2) :
    ∀ entry ∈ given, Recoverable kind entry.2 := by
  induction h with
  | nil => simp
  | cons hfirst _ ih =>
    obtain ⟨hhead, htail⟩ := List.forall_mem_cons.mp hstored
    exact List.forall_mem_cons.mpr ⟨hfirst.2.recoverable hhead, ih htail⟩

theorem valorGetMap_boxed (runtime : Runtime Instans) (kind : ValueKind)
    (entries : List (String × Valor)) :
    let unboxed := unboxEntries F A (storeValor A runtime (.tabula entries)).2 kind entries
    valorGetMap F A (storeValor A runtime (.tabula entries)).2 (A.next runtime) .text kind =
      match unboxed.1 with
      | none => (.invalid, unboxed.2)
      | some stored => (.pointer (A.next unboxed.2), { unboxed.2 with
          maps := unboxed.2.maps.store (A.next unboxed.2) ⟨.text, kind, stored⟩ }) := by
  intro unboxed
  rw [valorGetMap, if_neg (by simp), if_neg (A.nonzero runtime), storeValor_found]
  simp only
  split
  · next after heq => simp only [unboxed, heq]
  · next stored after heq => simp only [unboxed, heq]

theorem boxed_entries {depth : Nat} {map : RuntimeMap} {handle : Handle} {valor : Valor}
    (hkeyed : TextKeyed memory map)
    (hmap : findMap before.toRuntimeContext handle = some map)
    (hboxed : (valorMap before.toRuntimeContext memory depth handle).result = some valor) :
    ∃ boxed, List.Forall₂ (BoxedEntry memory before depth map.valueKind) map.entries boxed ∧
      valor = .tabula (collectEntries boxed) ∧ (boxed.map Prod.fst).Nodup := by
  rw [valorMap, hmap] at hboxed
  simp only [mapToValor, Traced.result_bind] at hboxed
  obtain ⟨boxed, heach, htabula⟩ := Option.bind_eq_some_iff.mp hboxed
  cases htabula
  have hentries : List.Forall₂ (BoxedEntry memory before depth map.valueKind) map.entries
      boxed := by
    refine (Traced.result_each_iff.mp heach).imp fun given box hentry => ?_
    rw [entryToValor, Traced.result_bind, hkeyed.kind] at hentry
    obtain ⟨key, hkey, hvalue⟩ := Option.bind_eq_some_iff.mp hentry
    cases depth with
    | zero => cases hkey
    | succ depth =>
      generalize hgiven : given.1 = cell at hkey
      cases cell with
      | ptr pointer =>
        rw [runtimeValueToValor, Traced.result_map] at hkey
        obtain ⟨text, htext, rfl⟩ := Option.map_eq_some_iff.mp hkey
        simp only [Traced.result_bind] at hvalue
        obtain ⟨value, hconverted, hbox⟩ := Option.bind_eq_some_iff.mp hvalue
        cases hbox
        exact ⟨⟨pointer, hgiven, slice_of_textValue htext⟩, hconverted⟩
      | _ => cases hkey
  refine ⟨boxed, hentries, rfl, ?_⟩
  have hkeys : (map.entries.map fun entry => match entry.1 with
      | .ptr handle => memory.slice handle
      | _ => none) = (boxed.map Prod.fst).map some := by
    clear hboxed heach
    generalize map.entries = entries at hentries
    induction hentries with
    | nil => rfl
    | cons hentry _ ih =>
      obtain ⟨⟨pointer, hpointer, hslice⟩, -⟩ := hentry
      rw [List.map_cons, List.map_cons, List.map_cons, ih, hpointer]
      simp only [hslice]
  have hnodup := hkeyed.nodup
  rw [hkeys] at hnodup
  exact List.Nodup.of_map some hnodup

theorem map_recovered_iff {depth : Nat} {map : RuntimeMap} {handle : Handle} {valor : Valor}
    (hkeyed : TextKeyed memory map)
    (hmap : findMap before.toRuntimeContext handle = some map)
    (hboxed : (valorMap before.toRuntimeContext memory depth handle).result = some valor) :
    MapRecovered memory before map
        (valorGetMap F A (storeValor A before valor).2 (A.next before) .text map.valueKind) ↔
      ∀ entry ∈ map.entries, Recoverable map.valueKind entry.2 := by
  obtain ⟨boxed, hentries, rfl, hnodup⟩ := boxed_entries hkeyed hmap hboxed
  -- the entries in the order of their keys
  obtain ⟨ordered, hordered, hperm⟩ := List.perm_comp_forall₂ (collectEntries_perm hnodup)
    hentries.flip
  have hcells : List.Forall₂ (BoxedEntry memory before depth map.valueKind) ordered
      (collectEntries boxed) := hordered.flip
  have hstored : ∀ stored, (unboxEntries F A (storeValor A before (.tabula (collectEntries
      boxed))).2 map.valueKind (collectEntries boxed)).1 = some stored →
        ∀ entry ∈ stored, Recoverable map.valueKind entry.2 := fun _ => recoverable_unboxEntries
  have hback := fun hall => unboxEntries_boxed (F := F) (A := A) hcells hall
    (storeValor A before (.tabula (collectEntries boxed))).2
  rw [valorGetMap_boxed]
  generalize unboxEntries F A (storeValor A before (.tabula (collectEntries boxed))).2
    map.valueKind (collectEntries boxed) = unboxed at hstored hback
  obtain ⟨answer, after⟩ := unboxed
  have hfound : ∀ stored : RuntimeMap, findMap { after with
      maps := after.maps.store (A.next after) stored }.toRuntimeContext (A.next after) =
        some stored := by
    intro stored
    have hfree := A.noMap after
    rw [findMap] at hfree ⊢
    rw [Arena.find_store, hfree, if_pos rfl]
    rfl
  constructor
  · intro hrecovered
    obtain ⟨hstatus, handle', map', hhandle, hmap', -, -, entries, hsorted, hsame⟩ := hrecovered
    cases answer with
    | none => cases hstatus
    | some stored =>
      cases hhandle
      rw [hfound] at hmap'
      cases hmap'
      have hall := forall₂_entries_recoverable hsame (hstored stored rfl)
      exact fun entry hentry => hall entry (hsorted.mem_iff.mpr hentry)
  · intro hall
    obtain ⟨stored, rfl, hsame⟩ :=
      hback fun entry hentry => hall entry (hperm.mem_iff.mp hentry)
    refine ⟨rfl, A.next after, ⟨.text, map.valueKind, stored⟩, rfl, hfound _,
      hkeyed.kind.symm, rfl, ordered, hperm, ?_⟩
    exact hsame.imp fun _ _ h => ⟨h.1.keeps rfl rfl, h.2.keeps rfl rfl⟩

/-! ## Values that do not fit -/

/-- The value fits a target kind. -/
def Fits (F : FromValor) (valor : Valor) : ValueKind → Prop
  | .i1 => (F.bool valor).isSome
  | .i8 => ∃ n, F.i64 valor = some n ∧ -2 ^ 7 ≤ n.toInt ∧ n.toInt < 2 ^ 7
  | .i16 => ∃ n, F.i64 valor = some n ∧ -2 ^ 15 ≤ n.toInt ∧ n.toInt < 2 ^ 15
  | .i32 => ∃ n, F.i64 valor = some n ∧ -2 ^ 31 ≤ n.toInt ∧ n.toInt < 2 ^ 31
  | .i64 => (F.i64 valor).isSome
  | .u8 => ∃ n, F.i64 valor = some n ∧ 0 ≤ n.toInt ∧ n.toInt < 2 ^ 8
  | .u16 => ∃ n, F.i64 valor = some n ∧ 0 ≤ n.toInt ∧ n.toInt < 2 ^ 16
  | .u32 => ∃ n, F.i64 valor = some n ∧ 0 ≤ n.toInt ∧ n.toInt < 2 ^ 32
  | .u64 => ∃ n, F.i64 valor = some n ∧ 0 ≤ n.toInt
  | .f32 | .f64 => (F.f64 valor).isSome
  | .text => (F.string valor).isSome
  | .valor => True
  | _ => False

theorem narrow_isSome {low high : Int} {value : Option Int64} :
    (narrow low high value).isSome = true ↔
      ∃ n, value = some n ∧ low ≤ n.toInt ∧ n.toInt ≤ high := by
  cases value with
  | none => simp [narrow]
  | some n => by_cases h : low ≤ n.toInt ∧ n.toInt ≤ high <;> simp [narrow, h]

theorem valorToRuntimeValue_isSome (runtime : Runtime Instans) (valor : Valor)
    (kind : ValueKind) :
    (valorToRuntimeValue F A runtime valor kind).1.isSome = true ↔ Fits F valor kind := by
  cases kind with
  | i8 | i16 | i32 | u8 | u16 | u32 =>
    simp only [valorToRuntimeValue, Option.isSome_map, narrow_isSome, Fits]
    refine exists_congr fun n => and_congr_right fun _ => ?_
    omega
  | u64 =>
    simp only [valorToRuntimeValue, Option.isSome_map, narrow_isSome, Fits]
    refine exists_congr fun n => and_congr_right fun _ => ?_
    have hlt := n.toInt_lt
    omega
  | text =>
    simp only [valorToRuntimeValue, Fits]
    cases F.string valor <;> simp
  | _ => simp [valorToRuntimeValue, Fits]

theorem unboxAll_unfit {valors : List Valor} (runtime : Runtime Instans)
    (h : ∃ valor ∈ valors, ¬ Fits F valor kind) :
    (unboxAll F A runtime kind valors).1 = none := by
  induction valors generalizing runtime with
  | nil => simp at h
  | cons valor rest ih =>
    rw [unboxAll_cons]
    have hfits := valorToRuntimeValue_isSome (F := F) (A := A) runtime valor kind
    cases hfirst : (valorToRuntimeValue F A runtime valor kind).1 with
    | none => rfl
    | some value =>
      rw [hfirst] at hfits
      obtain ⟨bad, hbad, hnot⟩ := h
      obtain rfl | hbad := List.mem_cons.mp hbad
      · exact absurd (hfits.mp rfl) hnot
      · simp only [ih _ ⟨bad, hbad, hnot⟩, Option.map_none]

theorem unboxEntries_unfit {entries : List (String × Valor)} (runtime : Runtime Instans)
    (h : ∃ entry ∈ entries, ¬ Fits F entry.2 kind) :
    (unboxEntries F A runtime kind entries).1 = none := by
  induction entries generalizing runtime with
  | nil => simp at h
  | cons entry rest ih =>
    obtain ⟨key, valor⟩ := entry
    rw [unboxEntries_cons]
    have hfits := valorToRuntimeValue_isSome (F := F) (A := A)
      (storeText runtime (A.next runtime) key).2 valor kind
    cases hfirst : (valorToRuntimeValue F A (storeText runtime (A.next runtime) key).2 valor
        kind).1 with
    | none => rfl
    | some value =>
      rw [hfirst] at hfits
      obtain ⟨bad, hbad, hnot⟩ := h
      obtain rfl | hbad := List.mem_cons.mp hbad
      · exact absurd (hfits.mp rfl) hnot
      · simp only [ih _ ⟨bad, hbad, hnot⟩, Option.map_none]

/-- The call failed and stored no array and no map. -/
def Refused (runtime : Runtime Instans) (answer : Answer Instans) : Prop :=
  answer.1 = .invalid ∧ answer.2.arrays = runtime.arrays ∧ answer.2.maps = runtime.maps

theorem valorGetArray_unfit (runtime : Runtime Instans) (handle : Handle) {valors : List Valor}
    (hfound : findValor runtime.toRuntimeContext handle = some (.lista valors))
    (h : ∃ valor ∈ valors, ¬ Fits F valor kind) :
    Refused runtime (valorGetArray F A runtime handle kind) := by
  have hnone := unboxAll_unfit (A := A) runtime h
  have hgrows := unboxAll_grows (F := F) (A := A) runtime kind valors
  rw [valorGetArray]
  split
  · exact ⟨rfl, rfl, rfl⟩
  · simp only [hfound]
    split
    · next after heq =>
      rw [heq] at hgrows
      exact ⟨rfl, hgrows.arrays, hgrows.maps⟩
    · next values after heq =>
      rw [heq] at hnone
      cases hnone

theorem valorGetMap_unfit (runtime : Runtime Instans) (handle : Handle) (keyKind : ValueKind)
    {entries : List (String × Valor)}
    (hfound : findValor runtime.toRuntimeContext handle = some (.tabula entries))
    (h : ∃ entry ∈ entries, ¬ Fits F entry.2 kind) :
    Refused runtime (valorGetMap F A runtime handle keyKind kind) := by
  have hnone := unboxEntries_unfit (A := A) runtime h
  have hgrows := unboxEntries_grows (F := F) (A := A) runtime kind entries
  rw [valorGetMap]
  split
  · exact ⟨rfl, rfl, rfl⟩
  · split
    · exact ⟨rfl, rfl, rfl⟩
    · simp only [hfound]
      split
      · next after heq =>
        rw [heq] at hgrows
        exact ⟨rfl, hgrows.arrays, hgrows.maps⟩
      · next stored after heq =>
        rw [heq] at hnone
        cases hnone

/-- An array or a map that boxes comes back the same exactly when it is empty or of a kind other
    than `ptr`, with every `bivalens` 0 or 1 and no signaling NaN; and a value that does not fit
    the kind asked for makes the call fail without an array or a map. -/
theorem boxing_recovered_iff (F : FromValor) (A : Allocator Instans) (memory : Memory)
    (before : Runtime Instans) (depth : Nat) (handle : Handle) :
    (∀ array valor, findArray before.toRuntimeContext handle = some array →
      (valorArray before.toRuntimeContext memory depth handle).result = some valor →
        (ArrayRecovered memory before array
            (valorGetArray F A (storeValor A before valor).2 (A.next before) array.kind) ↔
          array.kind.width.isSome = true ∧
            ∀ value ∈ array.values, Recoverable array.kind value)) ∧
    (∀ map valor, findMap before.toRuntimeContext handle = some map → TextKeyed memory map →
      (valorMap before.toRuntimeContext memory depth handle).result = some valor →
        (MapRecovered memory before map
            (valorGetMap F A (storeValor A before valor).2 (A.next before) .text map.valueKind) ↔
          ∀ entry ∈ map.entries, Recoverable map.valueKind entry.2)) ∧
    (∀ kind valors, findValor before.toRuntimeContext handle = some (.lista valors) →
      (∃ valor ∈ valors, ¬ Fits F valor kind) →
        Refused before (valorGetArray F A before handle kind)) ∧
    ∀ keyKind kind entries, findValor before.toRuntimeContext handle = some (.tabula entries) →
      (∃ entry ∈ entries, ¬ Fits F entry.2 kind) →
        Refused before (valorGetMap F A before handle keyKind kind) :=
  ⟨fun _ _ harray => array_recovered_iff harray,
    fun _ _ hmap hkeyed => map_recovered_iff hkeyed hmap,
    fun _ _ => valorGetArray_unfit before handle,
    fun keyKind _ _ => valorGetMap_unfit before handle keyKind⟩

end

/-! ## An allocator -/

/-- The highest address of an arena. -/
def Arena.top {α : Type} : Arena α → Nat
  | [] => 0
  | entry :: rest => max entry.1 (top rest)

theorem Arena.find_above {α : Type} {arena : Arena α} {handle : Nat}
    (h : Arena.top arena < handle) : Arena.find arena handle = none := by
  induction arena with
  | nil => rfl
  | cons entry rest ih =>
    rw [top] at h
    rw [find_cons, if_neg (Nat.ne_of_lt (by omega)), ih (by omega)]

/-- The address behind all objects of a runtime. -/
def nextHandle (runtime : Runtime Unit) : Nat :=
  1 + (runtime.texts.top + runtime.valors.top + runtime.instants.top + runtime.arrays.top +
    runtime.maps.top + runtime.ascii.top + runtime.numericBoxes.top)

def bumpAllocator : Allocator Unit where
  next := nextHandle
  nonzero runtime := Nat.pos_iff_ne_zero.mp (Nat.add_pos_left Nat.one_pos _)
  noText runtime := Arena.find_above (by unfold nextHandle; omega)
  noValor runtime := Arena.find_above (by unfold nextHandle; omega)
  noInstans runtime := Arena.find_above (by unfold nextHandle; omega)
  noArray runtime := Arena.find_above (by unfold nextHandle; omega)
  noMap runtime := Arena.find_above (by unfold nextHandle; omega)
  noAscii runtime := Arena.find_above (by unfold nextHandle; omega)
  noNumericBox runtime := Arena.find_above (by unfold nextHandle; omega)

/-- Conversions that take their own variant only. -/
def ownVariant : FromValor where
  bool
    | .bivalens b => some b
    | _ => none
  i64
    | .numerus n => some n
    | _ => none
  f64
    | .fractus f => some f
    | _ => none
  string
    | .textus s => some s
    | _ => none
  bool_bivalens _ := rfl
  i64_numerus _ := rfl
  f64_fractus _ := rfl
  string_textus _ := rfl

/-- A program without literals, whose only text is at the address 16. -/
def oneText : Memory := ⟨[], fun handle => if handle = 16 then some "salve" else none⟩

theorem small_array_recovered :
    ArrayRecovered oneText { emptyRuntime with arrays := [(8, ⟨.i8, [.i8 5, .i8 (-5)]⟩)] }
      ⟨.i8, [.i8 5, .i8 (-5)]⟩
      (valorGetArray ownVariant bumpAllocator
        (storeValor bumpAllocator
          { emptyRuntime with arrays := [(8, ⟨.i8, [.i8 5, .i8 (-5)]⟩)] }
          (.lista [.numerus 5, .numerus (-5)])).2
        (nextHandle { emptyRuntime with arrays := [(8, ⟨.i8, [.i8 5, .i8 (-5)]⟩)] }) .i8) :=
  ((boxing_recovered_iff ownVariant bumpAllocator oneText
    { emptyRuntime with arrays := [(8, ⟨.i8, [.i8 5, .i8 (-5)]⟩)] } 1 8).1
      ⟨.i8, [.i8 5, .i8 (-5)]⟩ _ rfl rfl).mpr ⟨rfl, by simp [Recoverable]⟩

/-- A lista of texts is an array of kind `ptr`: it boxes, and is not unboxed. -/
theorem text_array_lost :
    let array : RuntimeArray := ⟨.ptr, [.ptr 16]⟩
    let before : Runtime Unit :=
      { emptyRuntime with arrays := [(8, array)], texts := [(16, "salve")] }
    (valorArray before.toRuntimeContext oneText 1 8).result = some (.lista [.textus "salve"]) ∧
    ¬ ArrayRecovered oneText before array
      (valorGetArray ownVariant bumpAllocator
        (storeValor bumpAllocator before (.lista [.textus "salve"])).2 (nextHandle before)
        .ptr) := by
  intro array before
  refine ⟨rfl, fun hrecovered => ?_⟩
  have hall := ((@array_recovered_iff Unit ownVariant bumpAllocator oneText before 1 array 8 _ rfl
    rfl).mp hrecovered).2
  exact hall (.ptr 16) List.mem_cons_self

end FaberHosts.Llvm
