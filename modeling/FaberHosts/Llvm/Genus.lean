import FaberHosts.Llvm.Boxing
import FaberHosts.Llvm.Octeti

/-!
# Genus values

`valor_genus.rs`: the fields of a genus, each given by its name, its kind and a pointer to
its value, as a `Valor` map, and back into the outputs of a request list.
-/

namespace FaberHosts.Llvm
open FaberHosts.Kernel FaberHosts.Lib

/-- The memory of the program: the eight bytes from an address on, and the bytes of a C string
    before its terminator. -/
structure ProgramMemory extends Memory where
  word : Handle → UInt64
  cString : Handle → List UInt8
  cString_nonzero : ∀ handle, 0 ∉ cString handle

/-- How the `faber` crate writes an instant and reads it back. -/
structure InstansText (Instans : Type) where
  toRfc3339 : Instans → String
  fromValor : Valor → Option Instans
  fromValor_instans : ∀ instant, fromValor (.instans (toRfc3339 instant)) = some instant

structure GenusField where
  name : Handle
  kind : ValueKind
  value : Handle

structure GenusRequest where
  name : Handle
  kind : ValueKind
  defaultable : UInt8
  output : Handle

/-! ## Ascii texts -/

/-- The text of bytes below 128. -/
def asciiText (bytes : List UInt8) : String :=
  String.ofList (bytes.map fun byte => Char.ofNat byte.toNat)

/-- The bytes of an ascii text without a NUL. -/
def asciiBytes (text : String) : Option (List UInt8) :=
  if text.toList.all (fun c => c.toNat < 128 && c.toNat != 0) then
    some (text.toList.map fun c => UInt8.ofNat c.toNat)
  else none

theorem toNat_ofNat_small {n : Nat} (h : n < 128) : (Char.ofNat n).toNat = n := by
  have hvalid : n.isValidChar := .inl (by omega)
  rw [Char.ofNat, dif_pos hvalid]
  rfl

theorem asciiBytes_asciiText {bytes : List UInt8} (hascii : isAscii bytes = true)
    (hnonzero : 0 ∉ bytes) : asciiBytes (asciiText bytes) = some bytes := by
  have hchar : ∀ byte ∈ bytes, (Char.ofNat byte.toNat).toNat = byte.toNat := by
    intro byte hbyte
    have hsmall : byte < 128 := by simpa using List.all_eq_true.mp hascii byte hbyte
    exact toNat_ofNat_small (UInt8.lt_iff_toNat_lt.mp hsmall)
  rw [asciiBytes, asciiText, String.toList_ofList, if_pos]
  · rw [List.map_map]
    refine congrArg some (Eq.trans (List.map_congr_left fun byte hbyte => ?_) (List.map_id bytes))
    simp [hchar byte hbyte]
  · apply List.all_eq_true.mpr
    intro c hc
    obtain ⟨byte, hbyte, rfl⟩ := List.mem_map.mp hc
    have hsmall : byte < 128 := by simpa using List.all_eq_true.mp hascii byte hbyte
    have hbyteNonzero : byte.toNat ≠ 0 := by
      intro hzero
      obtain rfl : byte = 0 := UInt8.toNat_inj.mp hzero
      exact hnonzero hbyte
    have hlt : byte.toNat < 128 := UInt8.lt_iff_toNat_lt.mp hsmall
    simp [hchar byte hbyte, hbyteNonzero, hlt]

section

variable {Instans : Type} (F : FromValor) (T : InstansText Instans) (A : Allocator Instans)
  (memory : ProgramMemory)

/-! ## Boxing -/

/-- `genus_value_to_valor`; `depth` is for the aggregates behind a pointer. -/
def genusValueToValor (runtime : Runtime Instans) (depth : Nat) (kind : ValueKind)
    (value : Handle) : Option Valor :=
  let handle := (memory.word value).toNat
  match kind with
  | .ascii =>
    if handle = 0 then none
    else if isAscii (memory.cString handle) then
      some (.textus (asciiText (memory.cString handle)))
    else none
  | .optionI64 =>
    if handle = 0 then some .nihil else some (.numerus (memory.word handle).toInt64)
  | .instans =>
    (findInstans runtime.toRuntimeContext handle).map fun instant =>
      .instans (T.toRfc3339 instant)
  | kind =>
    (readValue memory.word kind value).bind fun value =>
      (runtimeValueToValor runtime.toRuntimeContext memory.toMemory depth kind value).result

/-- `text_value` of a field name. -/
def nameText (name : Handle) : Option String := (textValue memory.toMemory name).result

/-- The fields inserted one by one, after those in `fields`. -/
def genusFields (runtime : Runtime Instans) (depth : Nat) :
    List GenusField → List (String × Valor) → Option (List (String × Valor))
  | [], fields => some fields
  | field :: rest, fields => do
    let name ← nameText memory field.name
    let value ← genusValueToValor T memory runtime depth field.kind field.value
    genusFields runtime depth rest (insertEntry name value fields)

/-- `__faber_rt_v1_valor_genus`. -/
def valorGenus (runtime : Runtime Instans) (depth : Nat) (fields : List GenusField) :
    Answer Instans :=
  match genusFields T memory runtime depth fields [] with
  | none => (.invalid, runtime)
  | some fields => storeValor A runtime (.tabula fields)

/-! ## Unboxing -/

/-- `genus_valor_to_value`. -/
def genusValorToValue (runtime : Runtime Instans) (valor : Valor) :
    ValueKind → Option RuntimeValue × Runtime Instans
  | .ascii =>
    match (F.string valor).bind asciiBytes with
    | none => (none, runtime)
    | some bytes => (some (.ptr (A.next runtime)),
        { runtime with ascii := runtime.ascii.store (A.next runtime) (bytes ++ [0]) })
  | .optionI64 =>
    match valor with
    | .nihil => (some (.ptr 0), runtime)
    | valor =>
      match F.i64 valor with
      | none => (none, runtime)
      | some n => (some (.ptr (A.next runtime)),
          { runtime with numericBoxes := runtime.numericBoxes.store (A.next runtime) n })
  | .instans =>
    match T.fromValor valor with
    | none => (none, runtime)
    | some instant => (some (.ptr (A.next runtime)),
        { runtime with instants := runtime.instants.store (A.next runtime) instant })
  | kind => valorToRuntimeValue F A runtime valor kind

/-- `fields.get`. -/
def fieldAt (fields : List (String × Valor)) (name : String) : Option Valor :=
  (fields.find? (·.1 = name)).map (·.2)

/-- The first loop: every request is converted before any output is written. -/
def genusConvert (fields : List (String × Valor)) (runtime : Runtime Instans) :
    List GenusRequest → Option (List (RuntimeValue × Handle)) × Runtime Instans
  | [] => (some [], runtime)
  | request :: rest =>
    if request.output = 0 then (none, runtime)
    else
      match nameText memory request.name with
      | none => (none, runtime)
      | some name =>
        match fieldAt fields name with
        | none =>
          if request.defaultable = 0 then (none, runtime) else genusConvert fields runtime rest
        | some field =>
          match genusValorToValue F T A runtime field request.kind with
          | (none, runtime) => (none, runtime)
          | (some value, runtime) =>
            match genusConvert fields runtime rest with
            | (none, runtime) => (none, runtime)
            | (some values, runtime) => (some ((value, request.output) :: values), runtime)

/-- The second loop; `written` holds the cells written so far. -/
def writeAll : List (RuntimeValue × Handle) → List (Handle × RuntimeValue) → Reply
  | [], written => ⟨.ok, none, written⟩
  | (value, output) :: rest, written =>
    if Accessible output value.width then writeAll rest (written ++ [(output, value)])
    else ⟨.invalidArgument, none, written⟩

/-- The map a handle leads to. -/
def tabulaAt (runtime : Runtime Instans) (valor : Handle) : Option (List (String × Valor)) :=
  match findValor runtime.toRuntimeContext valor with
  | some (.tabula fields) => some fields
  | _ => none

/-- `__faber_rt_v1_valor_get_genus`. -/
def valorGetGenus (runtime : Runtime Instans) (valor : Handle) (requests : List GenusRequest) :
    Answer Instans :=
  match tabulaAt runtime valor with
  | none => (.invalid, runtime)
  | some fields =>
    match genusConvert F T A memory fields runtime requests with
    | (none, runtime) => (.invalid, runtime)
    | (some values, runtime) => (writeAll values [], runtime)

end

/-! ## What a runtime keeps -/

section

variable {Instans : Type} {F : FromValor} {T : InstansText Instans} {A : Allocator Instans}
  {memory : ProgramMemory} {before runtime after : Runtime Instans} {kind : ValueKind}

/-- The calls on a genus add objects and change none. -/
structure Extends (before after : Runtime Instans) : Prop where
  text : ∀ handle text, findText before.toRuntimeContext handle = some text →
    findText after.toRuntimeContext handle = some text
  valor : ∀ handle valor, findValor before.toRuntimeContext handle = some valor →
    findValor after.toRuntimeContext handle = some valor
  ascii : ∀ handle bytes, before.ascii.find handle = some bytes →
    after.ascii.find handle = some bytes
  box : ∀ handle n, before.numericBoxes.find handle = some n →
    after.numericBoxes.find handle = some n
  instans : ∀ handle instant, findInstans before.toRuntimeContext handle = some instant →
    findInstans after.toRuntimeContext handle = some instant

namespace Extends

theorem refl (runtime : Runtime Instans) : Extends runtime runtime :=
  ⟨fun _ _ => id, fun _ _ => id, fun _ _ => id, fun _ _ => id, fun _ _ => id⟩

theorem trans (h : Extends before runtime) (h' : Extends runtime after) :
    Extends before after where
  text handle text hfound := h'.text handle text (h.text handle text hfound)
  valor handle valor hfound := h'.valor handle valor (h.valor handle valor hfound)
  ascii handle bytes hfound := h'.ascii handle bytes (h.ascii handle bytes hfound)
  box handle n hfound := h'.box handle n (h.box handle n hfound)
  instans handle instant hfound := h'.instans handle instant (h.instans handle instant hfound)

end Extends

open Grows in
theorem valorToRuntimeValue_extends (runtime : Runtime Instans) (valor : Valor)
    (kind : ValueKind) : Extends runtime (valorToRuntimeValue F A runtime valor kind).2 := by
  cases kind with
  | text =>
    rw [valorToRuntimeValue]
    split
    · exact .refl runtime
    · exact ⟨fun _ _ => store_found, fun _ _ => id, fun _ _ => id, fun _ _ => id,
        fun _ _ => id⟩
  | valor =>
    exact ⟨fun _ _ => id, fun _ _ => store_found, fun _ _ => id, fun _ _ => id, fun _ _ => id⟩
  | _ => exact .refl runtime

open Grows in
theorem genusValorToValue_extends (runtime : Runtime Instans) (valor : Valor)
    (kind : ValueKind) : Extends runtime (genusValorToValue F T A runtime valor kind).2 := by
  cases kind with
  | ascii =>
    rw [genusValorToValue]
    split
    · exact .refl runtime
    · exact ⟨fun _ _ => id, fun _ _ => id, fun _ _ => store_found, fun _ _ => id,
        fun _ _ => id⟩
  | optionI64 =>
    cases valor with
    | nihil => exact .refl runtime
    | _ =>
      simp only [genusValorToValue]
      split
      · exact .refl runtime
      · exact ⟨fun _ _ => id, fun _ _ => id, fun _ _ => id, fun _ _ => store_found,
          fun _ _ => id⟩
  | instans =>
    rw [genusValorToValue]
    split
    · exact .refl runtime
    · exact ⟨fun _ _ => id, fun _ _ => id, fun _ _ => id, fun _ _ => id,
        fun _ _ => store_found⟩
  | _ => exact valorToRuntimeValue_extends runtime valor _

/-! ## Values that come back -/

/-- The cell stored for the value at a pointer: the same, or a pointer to the same content. -/
def SameValue (memory : ProgramMemory) (before after : Runtime Instans) (kind : ValueKind)
    (value : Handle) (stored : RuntimeValue) : Prop :=
  let handle := (memory.word value).toNat
  match kind with
  | .ascii => ∃ handle', stored = .ptr handle' ∧
      after.ascii.find handle' = some (memory.cString handle ++ [0])
  | .optionI64 =>
    if handle = 0 then stored = .ptr 0
    else ∃ handle', stored = .ptr handle' ∧
      after.numericBoxes.find handle' = some (memory.word handle).toInt64
  | .instans => ∃ instant handle',
      findInstans before.toRuntimeContext handle = some instant ∧ stored = .ptr handle' ∧
      findInstans after.toRuntimeContext handle' = some instant
  | kind => ∃ given, readValue memory.word kind value = some given ∧
      SameCell memory.toMemory before after kind given stored

/-- The value at the pointer can be recovered. -/
def RecoverableValue (memory : ProgramMemory) (kind : ValueKind) (value : Handle) : Prop :=
  match kind with
  | .ascii | .optionI64 | .instans => True
  | kind => ∀ given, readValue memory.word kind value = some given → Recoverable kind given

theorem store_fresh {α : Type} {arena : Arena α} {handle : Handle} {value : α}
    (h : arena.find handle = none) : (arena.store handle value).find handle = some value := by
  rw [Arena.find_store, h, if_pos rfl]
  rfl

theorem genus_unbox_boxed {depth : Nat} {value : Handle} {valor : Valor}
    (hboxed : genusValueToValor T memory before depth kind value = some valor)
    (hrecoverable : RecoverableValue memory kind value) (runtime : Runtime Instans) :
    ∃ stored, (genusValorToValue F T A runtime valor kind).1 = some stored ∧
      SameValue memory before (genusValorToValue F T A runtime valor kind).2 kind value
        stored := by
  cases kind with
  | ascii =>
    simp only [genusValueToValor] at hboxed
    split at hboxed
    · cases hboxed
    · split at hboxed
      · next hascii =>
        cases hboxed
        have hbytes := asciiBytes_asciiText hascii (memory.cString_nonzero _)
        simp only [genusValorToValue, F.string_textus, Option.bind_some, hbytes]
        exact ⟨_, rfl, _, rfl, store_fresh (A.noAscii runtime)⟩
      · cases hboxed
  | optionI64 =>
    simp only [genusValueToValor] at hboxed
    split at hboxed
    · next hnull =>
      cases hboxed
      exact ⟨_, rfl, by simp [SameValue, hnull]⟩
    · next hvalue =>
      cases hboxed
      simp only [genusValorToValue, F.i64_numerus]
      refine ⟨_, rfl, ?_⟩
      simp only [SameValue]
      rw [if_neg hvalue]
      exact ⟨_, rfl, store_fresh (A.noNumericBox runtime)⟩
  | instans =>
    simp only [genusValueToValor] at hboxed
    obtain ⟨instant, hinstant, rfl⟩ := Option.map_eq_some_iff.mp hboxed
    simp only [genusValorToValue, T.fromValor_instans]
    exact ⟨_, rfl, instant, _, hinstant, rfl, store_fresh (A.noInstans runtime)⟩
  | other code => simp [genusValueToValor, readValue, ValueKind.width] at hboxed
  | _ =>
    obtain ⟨given, hgiven, hboxed⟩ := Option.bind_eq_some_iff.mp hboxed
    obtain ⟨stored, hstored, hsame⟩ := unbox_boxed (F := F) (A := A) hboxed
      (hrecoverable given hgiven) runtime
    exact ⟨stored, hstored, given, hgiven, hsame⟩

theorem SameValue.extends {value : Handle} {stored : RuntimeValue}
    (h : SameValue memory before runtime kind value stored) (hgrows : Extends runtime after) :
    SameValue memory before after kind value stored := by
  have hcell : ∀ {kind given}, SameCell memory.toMemory before runtime kind given stored →
      SameCell memory.toMemory before after kind given stored := by
    intro kind given hsame
    cases kind with
    | text =>
      obtain ⟨handle, handle', text, hgiven, hslice, hstored, hfound⟩ := hsame
      exact ⟨handle, handle', text, hgiven, hslice, hstored, hgrows.text _ _ hfound⟩
    | valor =>
      obtain ⟨handle, handle', valor, hgiven, hvalor, hstored, hfound⟩ := hsame
      exact ⟨handle, handle', valor, hgiven, hvalor, hstored, hgrows.valor _ _ hfound⟩
    | _ => exact hsame
  cases kind with
  | ascii =>
    obtain ⟨handle', hstored, hfound⟩ := h
    exact ⟨handle', hstored, hgrows.ascii _ _ hfound⟩
  | optionI64 =>
    simp only [SameValue] at h ⊢
    split at h
    · next hnull =>
      rw [if_pos hnull]
      exact h
    · next hvalue =>
      rw [if_neg hvalue]
      obtain ⟨handle', hstored, hfound⟩ := h
      exact ⟨handle', hstored, hgrows.box _ _ hfound⟩
  | instans =>
    obtain ⟨instant, handle', hinstant, hstored, hfound⟩ := h
    exact ⟨instant, handle', hinstant, hstored, hgrows.instans _ _ hfound⟩
  | _ =>
    obtain ⟨given, hgiven, hsame⟩ := h
    exact ⟨given, hgiven, hcell hsame⟩

/-! ## Fields by name -/

theorem fieldAt_insertEntry (key name : String) (value : Valor) (fields : List (String × Valor)) :
    fieldAt (insertEntry key value fields) name =
      if key = name then some value else fieldAt fields name := by
  induction fields with
  | nil => by_cases h : key = name <;> simp [insertEntry, fieldAt, h]
  | cons entry rest ih =>
    rw [insertEntry]
    split
    · by_cases h : key = name <;> simp [fieldAt, h]
    · split
      · next hsame =>
        subst hsame
        by_cases h : entry.1 = name <;> simp [fieldAt, h]
      · next hother =>
        by_cases h : entry.1 = name
        · have hkey : key ≠ name := fun heq => hother (heq.trans h.symm)
          simp [fieldAt, h, hkey]
        · have hrest : ∀ fields, fieldAt (entry :: fields) name = fieldAt fields name := by
            intro fields
            simp [fieldAt, h]
          rw [hrest, hrest, ih]

/-- A genus with distinct names keeps each field under its name, and holds no others. -/
theorem fieldAt_genusFields {depth : Nat} {fields : List GenusField}
    {init entries : List (String × Valor)}
    (hdistinct : (fields.map fun field => nameText memory field.name).Nodup)
    (h : genusFields T memory before depth fields init = some entries) :
    (∀ field ∈ fields, ∃ name valor, nameText memory field.name = some name ∧
      genusValueToValor T memory before depth field.kind field.value = some valor ∧
      fieldAt entries name = some valor) ∧
    ∀ name, (∀ field ∈ fields, nameText memory field.name ≠ some name) →
      fieldAt entries name = fieldAt init name := by
  induction fields generalizing init with
  | nil =>
    cases h
    simp
  | cons field rest ih =>
    rw [List.map_cons, List.nodup_cons] at hdistinct
    obtain ⟨name, hname, h⟩ := Option.bind_eq_some_iff.mp h
    obtain ⟨valor, hvalor, h⟩ := Option.bind_eq_some_iff.mp h
    obtain ⟨hrest, hothers⟩ := ih hdistinct.2 h
    constructor
    · intro other hother
      obtain rfl | hother := List.mem_cons.mp hother
      · refine ⟨name, valor, hname, hvalor, ?_⟩
        rw [hothers, fieldAt_insertEntry, if_pos rfl]
        intro later hlater heq
        exact hdistinct.1 (List.mem_map.mpr ⟨later, hlater, heq.trans hname.symm⟩)
      · exact hrest other hother
    · intro absent habsent
      obtain ⟨hfirst, hlater⟩ := List.forall_mem_cons.mp habsent
      rw [hothers absent hlater, fieldAt_insertEntry, if_neg]
      rintro rfl
      exact hfirst hname

/-- The field a request asks for. -/
def requested (memory : ProgramMemory) (fields : List GenusField) (request : GenusRequest) :
    Option GenusField :=
  fields.find? (fun field => nameText memory field.name = nameText memory request.name)

/-- A request for a field at its kind, or one that may go unanswered. -/
def WellRequested (memory : ProgramMemory) (fields : List GenusField) (request : GenusRequest) :
    Prop :=
  (nameText memory request.name).isSome = true ∧
    match requested memory fields request with
    | some field => request.kind = field.kind
    | none => request.defaultable ≠ 0

/-- The requests for fields of the genus, with these. -/
def answered (memory : ProgramMemory) (fields : List GenusField) (requests : List GenusRequest) :
    List (GenusField × GenusRequest) :=
  requests.filterMap fun request => (requested memory fields request).map fun field =>
    (field, request)

theorem fieldAt_requested {depth : Nat} {fields : List GenusField}
    {entries : List (String × Valor)}
    (hdistinct : (fields.map fun field => nameText memory field.name).Nodup)
    (h : genusFields T memory before depth fields [] = some entries) {request : GenusRequest}
    (hwell : WellRequested memory fields request) :
    ∃ name, nameText memory request.name = some name ∧
      match requested memory fields request with
      | some field => ∃ valor, fieldAt entries name = some valor ∧
          genusValueToValor T memory before depth field.kind field.value = some valor
      | none => fieldAt entries name = none := by
  obtain ⟨name, hname⟩ := Option.isSome_iff_exists.mp hwell.1
  obtain ⟨hall, hothers⟩ := fieldAt_genusFields hdistinct h
  refine ⟨name, hname, ?_⟩
  cases hfound : requested memory fields request with
  | some field =>
    have hmem := List.mem_of_find?_eq_some hfound
    have hsame := List.find?_some hfound
    obtain ⟨name', valor, hname', hvalor, hfield⟩ := hall field hmem
    have hnames : nameText memory field.name = nameText memory request.name := by simpa using hsame
    rw [hname', hname, Option.some.injEq] at hnames
    subst hnames
    exact ⟨valor, hfield, hvalor⟩
  | none =>
    refine (hothers name fun field hfield heq => ?_).trans rfl
    have hnone := List.find?_eq_none.mp hfound field hfield
    rw [heq, hname] at hnone
    simp at hnone

/-! ## Values that fit -/

/-- The value fits the kind of a field. -/
def FitsField (F : FromValor) (T : InstansText Instans) (valor : Valor) : ValueKind → Prop
  | .ascii => ((F.string valor).bind asciiBytes).isSome
  | .optionI64 => valor = .nihil ∨ (F.i64 valor).isSome
  | .instans => (T.fromValor valor).isSome
  | kind => Fits F valor kind

theorem genusValorToValue_isSome (runtime : Runtime Instans) (valor : Valor)
    (kind : ValueKind) :
    (genusValorToValue F T A runtime valor kind).1.isSome = true ↔ FitsField F T valor kind := by
  cases kind with
  | ascii =>
    simp only [genusValorToValue, FitsField]
    cases (F.string valor).bind asciiBytes <;> simp
  | optionI64 =>
    cases valor with
    | nihil => simp [genusValorToValue, FitsField]
    | _ =>
      simp only [genusValorToValue, FitsField, reduceCtorEq, false_or]
      split <;> simp [*]
  | instans =>
    simp only [genusValorToValue, FitsField]
    cases T.fromValor valor <;> simp
  | _ => exact valorToRuntimeValue_isSome runtime valor _

/-- The request has an output and a name, and a field that fits unless it may go without one. -/
def Converts (F : FromValor) (T : InstansText Instans) (memory : ProgramMemory)
    (fields : List (String × Valor)) (request : GenusRequest) : Prop :=
  request.output ≠ 0 ∧ ∃ name, nameText memory request.name = some name ∧
    match fieldAt fields name with
    | none => request.defaultable ≠ 0
    | some valor => FitsField F T valor request.kind

/-- The requests whose field is there. -/
def presentAt (memory : ProgramMemory) (fields : List (String × Valor))
    (requests : List GenusRequest) : List GenusRequest :=
  requests.filter fun request =>
    ((nameText memory request.name).bind (fieldAt fields)).isSome

/-! ## The two loops -/

theorem width_of_represents {value : RuntimeValue} (h : represents kind value = true) :
    kind.width = some value.width := by
  cases kind <;> cases value <;> first | rfl | cases h

theorem width_unboxed {runtime : Runtime Instans} {valor : Valor} {stored : RuntimeValue}
    (h : (genusValorToValue F T A runtime valor kind).1 = some stored) :
    kind.width = some stored.width := by
  cases kind with
  | ascii =>
    rw [genusValorToValue] at h
    split at h
    · cases h
    · cases h
      rfl
  | optionI64 =>
    cases valor with
    | nihil =>
      cases h
      rfl
    | _ =>
      simp only [genusValorToValue] at h
      split at h
      · cases h
      · cases h
        rfl
  | instans =>
    rw [genusValorToValue] at h
    split at h
    · cases h
    · cases h
      rfl
  | _ => exact width_of_represents (@represents_unboxed Instans F A _ runtime valor stored h)

theorem genusConvert_found {fields : List (String × Valor)} {request : GenusRequest}
    {rest : List GenusRequest} {name : String} {field : Valor} (houtput : request.output ≠ 0)
    (hname : nameText memory request.name = some name) (hfield : fieldAt fields name = some field)
    (runtime : Runtime Instans) :
    let first := genusValorToValue F T A runtime field request.kind
    genusConvert F T A memory fields runtime (request :: rest) =
      match first.1 with
      | none => (none, first.2)
      | some value =>
        ((genusConvert F T A memory fields first.2 rest).1.map ((value, request.output) :: ·),
          (genusConvert F T A memory fields first.2 rest).2) := by
  intro first
  rw [genusConvert, if_neg houtput, hname]
  simp only [hfield]
  split
  · next heq => simp only [first, heq]
  · next heq =>
    simp only [first, heq]
    split
    · next heq' => rw [heq']; rfl
    · next heq' => rw [heq']; rfl

theorem genusConvert_missing {fields : List (String × Valor)} {request : GenusRequest}
    {rest : List GenusRequest} {name : String} (houtput : request.output ≠ 0)
    (hname : nameText memory request.name = some name) (hfield : fieldAt fields name = none)
    (runtime : Runtime Instans) :
    genusConvert F T A memory fields runtime (request :: rest) =
      if request.defaultable = 0 then (none, runtime)
      else genusConvert F T A memory fields runtime rest := by
  rw [genusConvert, if_neg houtput, hname]
  simp only [hfield]

/-- A conversion that succeeded: every request had an output, and the outputs of the fields found
    get cells that come from conversions at their kinds. -/
theorem genusConvert_some {fields : List (String × Valor)} {requests : List GenusRequest}
    {values : List (RuntimeValue × Handle)} {runtime : Runtime Instans}
    (h : (genusConvert F T A memory fields runtime requests).1 = some values) :
    (∀ request ∈ requests, Converts F T memory fields request) ∧
      List.Forall₂ (fun request value => value.2 = request.output ∧
        ∃ runtime valor, (genusValorToValue F T A runtime valor request.kind).1 = some value.1)
        (presentAt memory fields requests) values := by
  induction requests generalizing runtime values with
  | nil =>
    cases h
    exact ⟨by simp, .nil⟩
  | cons request rest ih =>
    by_cases houtput : request.output = 0
    · rw [genusConvert, if_pos houtput] at h
      cases h
    · cases hname : nameText memory request.name with
      | none =>
        rw [genusConvert, if_neg houtput, hname] at h
        cases h
      | some name =>
        cases hfield : fieldAt fields name with
        | none =>
          rw [genusConvert_missing houtput hname hfield] at h
          split at h
          · cases h
          · next hdefault =>
            obtain ⟨hconverts, hcells⟩ := ih h
            constructor
            · apply List.forall_mem_cons.mpr ⟨⟨houtput, name, hname, ?_⟩, hconverts⟩
              rw [hfield]
              exact hdefault
            · rw [presentAt, List.filter_cons_of_neg (by simp [hname, hfield])]
              exact hcells
        | some field =>
          rw [genusConvert_found houtput hname hfield] at h
          cases hfirst : (genusValorToValue F T A runtime field request.kind).1 with
          | none =>
            simp only [hfirst] at h
            cases h
          | some value =>
            simp only [hfirst] at h
            obtain ⟨others, hothers, rfl⟩ := Option.map_eq_some_iff.mp h
            obtain ⟨hconverts, hcells⟩ := ih hothers
            constructor
            · apply List.forall_mem_cons.mpr ⟨⟨houtput, name, hname, ?_⟩, hconverts⟩
              rw [hfield]
              exact (genusValorToValue_isSome (A := A) runtime field request.kind).mp
                (by rw [hfirst]; rfl)
            · rw [presentAt, List.filter_cons_of_pos (by simp [hname, hfield])]
              exact .cons ⟨rfl, runtime, field, hfirst⟩ hcells

theorem genusConvert_isSome {fields : List (String × Valor)} {requests : List GenusRequest}
    (runtime : Runtime Instans)
    (h : ∀ request ∈ requests, Converts F T memory fields request) :
    ∃ values, (genusConvert F T A memory fields runtime requests).1 = some values := by
  induction requests generalizing runtime with
  | nil => exact ⟨[], rfl⟩
  | cons request rest ih =>
    obtain ⟨⟨houtput, name, hname, hfits⟩, hrest⟩ := List.forall_mem_cons.mp h
    cases hfield : fieldAt fields name with
    | none =>
      rw [hfield] at hfits
      rw [genusConvert_missing houtput hname hfield, if_neg hfits]
      exact ih runtime hrest
    | some field =>
      rw [hfield] at hfits
      have hsome := (genusValorToValue_isSome (A := A) runtime field request.kind).mpr hfits
      obtain ⟨value, hvalue⟩ := Option.isSome_iff_exists.mp hsome
      obtain ⟨values, hvalues⟩ :=
        ih (genusValorToValue F T A runtime field request.kind).2 hrest
      rw [genusConvert_found houtput hname hfield]
      simp only [hvalue, hvalues]
      exact ⟨_, rfl⟩

theorem genusConvert_extends {fields : List (String × Valor)} (requests : List GenusRequest)
    (runtime : Runtime Instans) :
    Extends runtime (genusConvert F T A memory fields runtime requests).2 := by
  induction requests generalizing runtime with
  | nil => exact .refl runtime
  | cons request rest ih =>
    by_cases houtput : request.output = 0
    · rw [genusConvert, if_pos houtput]
      exact .refl runtime
    · cases hname : nameText memory request.name with
      | none =>
        rw [genusConvert, if_neg houtput, hname]
        exact .refl runtime
      | some name =>
        cases hfield : fieldAt fields name with
        | none =>
          rw [genusConvert_missing houtput hname hfield]
          split
          · exact .refl runtime
          · exact ih runtime
        | some field =>
          rw [genusConvert_found houtput hname hfield]
          have hfirst := genusValorToValue_extends (F := F) (T := T) (A := A) runtime field
            request.kind
          split
          · exact hfirst
          · exact hfirst.trans (ih _)

theorem genusConvert_boxed {depth : Nat} {fields : List GenusField}
    {entries : List (String × Valor)} {requests : List GenusRequest}
    (hdistinct : (fields.map fun field => nameText memory field.name).Nodup)
    (hboxed : genusFields T memory before depth fields [] = some entries)
    (hwell : ∀ request ∈ requests, WellRequested memory fields request)
    (houtputs : ∀ request ∈ requests, request.output ≠ 0)
    (hall : ∀ pair ∈ answered memory fields requests,
      RecoverableValue memory pair.1.kind pair.1.value) (runtime : Runtime Instans) :
    let converted := genusConvert F T A memory entries runtime requests
    ∃ values, converted.1 = some values ∧
      List.Forall₂ (fun pair value =>
        SameValue memory before converted.2 pair.1.kind pair.1.value value.1)
        (answered memory fields requests) values := by
  induction requests generalizing runtime with
  | nil => exact ⟨[], rfl, .nil⟩
  | cons request rest ih =>
    obtain ⟨hfirst, hrest⟩ := List.forall_mem_cons.mp hwell
    obtain ⟨houtput, houtputs⟩ := List.forall_mem_cons.mp houtputs
    obtain ⟨name, hname, hfound⟩ := fieldAt_requested hdistinct hboxed hfirst
    cases hrequested : requested memory fields request with
    | none =>
      rw [hrequested] at hfound
      have hdefault : request.defaultable ≠ 0 := by
        have := hfirst.2
        rwa [hrequested] at this
      have hanswered : answered memory fields (request :: rest) =
          answered memory fields rest := by
        rw [answered, List.filterMap_cons, hrequested]
        rfl
      rw [hanswered] at hall ⊢
      rw [genusConvert_missing houtput hname hfound, if_neg hdefault]
      exact ih hrest houtputs hall runtime
    | some field =>
      rw [hrequested] at hfound
      obtain ⟨valor, hfield, hvalor⟩ := hfound
      have hkind : request.kind = field.kind := by
        have := hfirst.2
        rwa [hrequested] at this
      have hanswered : answered memory fields (request :: rest) =
          (field, request) :: answered memory fields rest := by
        rw [answered, List.filterMap_cons, hrequested]
        rfl
      rw [hanswered] at hall ⊢
      obtain ⟨hrecoverable, hall⟩ := List.forall_mem_cons.mp hall
      obtain ⟨stored, hstored, hsame⟩ := genus_unbox_boxed (F := F) (A := A) hvalor hrecoverable
        runtime
      rw [← hkind] at hstored hsame
      obtain ⟨others, hothers, hsames⟩ := ih hrest houtputs hall
        (genusValorToValue F T A runtime valor request.kind).2
      rw [genusConvert_found houtput hname hfield]
      simp only [hstored, hothers, Option.map_some]
      refine ⟨_, rfl, .cons ?_ hsames⟩
      show SameValue memory before _ field.kind field.value stored
      rw [← hkind]
      exact hsame.extends (genusConvert_extends rest _)

/-- The second loop: all outputs, or those before the first that cannot be written. -/
theorem writeAll_ok_iff (values : List (RuntimeValue × Handle))
    (written : List (Handle × RuntimeValue)) :
    (writeAll values written).status = .ok ↔
      ∀ value ∈ values, Accessible value.2 value.1.width := by
  induction values generalizing written with
  | nil => simp [writeAll]
  | cons value rest ih =>
    rw [writeAll]
    split
    · next haccessible => rw [ih, List.forall_mem_cons, and_iff_right haccessible]
    · next hfails =>
      constructor
      · intro h
        cases h
      · intro h
        exact absurd (h value List.mem_cons_self) hfails

theorem writeAll_written {values : List (RuntimeValue × Handle)}
    (written : List (Handle × RuntimeValue))
    (h : ∀ value ∈ values, Accessible value.2 value.1.width) :
    (writeAll values written).written = written ++ values.map Prod.swap := by
  induction values generalizing written with
  | nil => simp [writeAll]
  | cons value rest ih =>
    obtain ⟨hfirst, hrest⟩ := List.forall_mem_cons.mp h
    rw [writeAll, if_pos hfirst, ih _ hrest, List.append_assoc]
    rfl

theorem writeAll_keeps (values : List (RuntimeValue × Handle))
    (written : List (Handle × RuntimeValue)) :
    written <+: (writeAll values written).written := by
  induction values generalizing written with
  | nil => exact List.prefix_rfl
  | cons value rest ih =>
    rw [writeAll]
    split
    · exact (List.prefix_append _ _).trans (ih _)
    · exact List.prefix_rfl

theorem writeAll_partial_iff (values : List (RuntimeValue × Handle)) :
    ((writeAll values []).status ≠ .ok ∧ (writeAll values []).written ≠ []) ↔
      ∃ first rest, values = first :: rest ∧ Accessible first.2 first.1.width ∧
        ∃ value ∈ rest, ¬ Accessible value.2 value.1.width := by
  cases values with
  | nil => simp [writeAll]
  | cons first rest =>
    rw [writeAll]
    split
    · next haccessible =>
      have hkeeps := writeAll_keeps rest ([] ++ [(first.2, first.1)])
      have hwritten : (writeAll rest ([] ++ [(first.2, first.1)])).written ≠ [] := by
        intro hnil
        rw [hnil] at hkeeps
        simp at hkeeps
      rw [Ne, writeAll_ok_iff, and_iff_left hwritten]
      simp [haccessible]
    · next hfails =>
      constructor
      · intro h
        exact absurd rfl h.2
      · intro h
        obtain ⟨first', rest', heq, haccessible, -⟩ := h
        cases heq
        exact absurd haccessible hfails

/-! ## Genus and back -/

/-- The call wrote the value of its field at the output of each request answered, and nothing
    else. -/
def GenusRecovered (memory : ProgramMemory) (before : Runtime Instans) (fields : List GenusField)
    (requests : List GenusRequest) (answer : Answer Instans) : Prop :=
  answer.1.status = .ok ∧
    List.Forall₂ (fun pair cell => cell.1 = pair.2.output ∧
      SameValue memory before answer.2 pair.1.kind pair.1.value cell.2)
      (answered memory fields requests) answer.1.written

/-- The output can take a cell of the kind asked for. -/
def OutputFits (request : GenusRequest) : Prop :=
  ∃ width, request.kind.width = some width ∧ Accessible request.output width

theorem answered_kind {fields : List GenusField} {requests : List GenusRequest}
    (hwell : ∀ request ∈ requests, WellRequested memory fields request) :
    ∀ pair ∈ answered memory fields requests, pair.2.kind = pair.1.kind := by
  intro pair hpair
  obtain ⟨request, hrequest, hpair⟩ := List.mem_filterMap.mp hpair
  obtain ⟨field, hfield, rfl⟩ := Option.map_eq_some_iff.mp hpair
  have hkind := (hwell request hrequest).2
  rwa [hfield] at hkind

theorem presentAt_genusFields {depth : Nat} {fields : List GenusField}
    {entries : List (String × Valor)} {requests : List GenusRequest}
    (hdistinct : (fields.map fun field => nameText memory field.name).Nodup)
    (hboxed : genusFields T memory before depth fields [] = some entries)
    (hwell : ∀ request ∈ requests, WellRequested memory fields request) :
    presentAt memory entries requests = (answered memory fields requests).map (·.2) := by
  induction requests with
  | nil => rfl
  | cons request rest ih =>
    obtain ⟨hfirst, hrest⟩ := List.forall_mem_cons.mp hwell
    obtain ⟨name, hname, hfound⟩ := fieldAt_requested hdistinct hboxed hfirst
    rw [presentAt, answered, List.filterMap_cons]
    cases hrequested : requested memory fields request with
    | none =>
      rw [hrequested] at hfound
      rw [List.filter_cons_of_neg (by simp [hname, hfound])]
      exact ih hrest
    | some field =>
      rw [hrequested] at hfound
      obtain ⟨valor, hfield, -⟩ := hfound
      rw [List.filter_cons_of_pos (by simp [hname, hfield])]
      exact congrArg (request :: ·) (ih hrest)

/-- A cell that came from a conversion to a kind, and is the same as a given value. -/
theorem SameValue.recoverable {runtime' : Runtime Instans} {value : Handle} {valor : Valor}
    {stored : RuntimeValue}
    (hunboxed : (genusValorToValue F T A runtime' valor kind).1 = some stored)
    (h : SameValue memory before after kind value stored) :
    RecoverableValue memory kind value := by
  cases kind with
  | ascii | optionI64 | instans => trivial
  | _ =>
    intro given hgiven
    obtain ⟨given', hgiven', hsame⟩ := h
    cases hgiven.symm.trans hgiven'
    exact hsame.recoverable (@recoverable_unboxed Instans F A _ runtime' valor stored hunboxed)

/-- A field of kind `ptr`, a `bivalens` that is neither 0 nor 1, a signaling NaN and an output
    that is null or misaligned are what keeps a genus from coming back. -/
theorem genus_recovered_iff {depth : Nat} {fields : List GenusField}
    {entries : List (String × Valor)} {requests : List GenusRequest}
    (hdistinct : (fields.map fun field => nameText memory field.name).Nodup)
    (hboxed : genusFields T memory before depth fields [] = some entries)
    (hwell : ∀ request ∈ requests, WellRequested memory fields request) :
    GenusRecovered memory before fields requests
        (valorGetGenus F T A memory (storeValor A before (.tabula entries)).2 (A.next before)
          requests) ↔
      (∀ request ∈ requests, request.output ≠ 0) ∧
        ∀ pair ∈ answered memory fields requests,
          RecoverableValue memory pair.1.kind pair.1.value ∧ OutputFits pair.2 := by
  have hkinds := answered_kind hwell
  have hpresent := presentAt_genusFields hdistinct hboxed hwell
  have htabula : tabulaAt (storeValor A before (.tabula entries)).2 (A.next before) =
      some entries := by
    rw [tabulaAt, storeValor_found]
  rw [valorGetGenus, htabula]
  simp only
  have hconverted := fun values => @genusConvert_some Instans F T A memory entries requests values
    (storeValor A before (.tabula entries)).2
  have hback := fun houtputs hall => genusConvert_boxed (F := F) (A := A) hdistinct hboxed hwell
    houtputs hall (storeValor A before (.tabula entries)).2
  generalize genusConvert F T A memory entries (storeValor A before (.tabula entries)).2 requests =
    converted at hconverted hback
  obtain ⟨answer, after⟩ := converted
  rw [hpresent] at hconverted
  constructor
  · intro hrecovered
    obtain ⟨hstatus, hsame⟩ := hrecovered
    cases answer with
    | none => cases hstatus
    | some values =>
      simp only at hstatus hsame
      have haccessible := (writeAll_ok_iff values []).mp hstatus
      rw [writeAll_written [] haccessible, List.nil_append, List.forall₂_map_right_iff] at hsame
      obtain ⟨hconverts, hcells⟩ := hconverted values rfl
      rw [List.forall₂_map_left_iff] at hcells
      refine ⟨fun request hrequest => (hconverts request hrequest).1, fun pair hpair => ?_⟩
      obtain ⟨i, hi, rfl⟩ := List.mem_iff_getElem.mp hpair
      have hlength := hcells.length_eq
      have hi' : i < values.length := hlength ▸ hi
      obtain ⟨houtput, runtime', valor, hunboxed⟩ := hcells.get hi hi'
      have hkind := hkinds _ (List.getElem_mem hi)
      have hwidth := width_unboxed hunboxed
      have hsame := (hsame.get hi hi').2
      simp only [List.get_eq_getElem, Prod.snd_swap] at houtput hunboxed hwidth hsame
      constructor
      · rw [hkind] at hunboxed
        exact hsame.recoverable hunboxed
      · exact ⟨_, hwidth, houtput ▸ haccessible _ (List.getElem_mem hi')⟩
  · intro hconditions
    obtain ⟨houtputs, hall⟩ := hconditions
    obtain ⟨values, rfl, hsame⟩ := hback houtputs fun pair hpair => (hall pair hpair).1
    obtain ⟨-, hcells⟩ := hconverted values rfl
    rw [List.forall₂_map_left_iff] at hcells
    have haccessible : ∀ value ∈ values, Accessible value.2 value.1.width := by
      intro value hvalue
      obtain ⟨i, hi, rfl⟩ := List.mem_iff_getElem.mp hvalue
      have hi' : i < (answered memory fields requests).length := hcells.length_eq ▸ hi
      obtain ⟨houtput, runtime', valor, hunboxed⟩ := hcells.get hi' hi
      obtain ⟨width, hwidth, hfits⟩ := (hall _ (List.getElem_mem hi')).2
      have hsame := hwidth.symm.trans (width_unboxed hunboxed)
      simp only [List.get_eq_getElem, Option.some.injEq] at houtput hsame
      rw [houtput, ← hsame]
      exact hfits
    refine ⟨(writeAll_ok_iff values []).mpr haccessible, ?_⟩
    simp only
    rw [writeAll_written [] haccessible, List.nil_append, List.forall₂_map_right_iff]
    exact hcells.mp (fun _ _ hcell hsame => ⟨hcell.1, hsame⟩) hsame

/-- All requests convert, and the outputs of some can be written before one that cannot. -/
def StopsHalfway (F : FromValor) (T : InstansText Instans) (memory : ProgramMemory)
    (runtime : Runtime Instans) (valor : Handle) (requests : List GenusRequest) : Prop :=
  ∃ entries, tabulaAt runtime valor = some entries ∧
    (∀ request ∈ requests, Converts F T memory entries request) ∧
      ∃ first rest, presentAt memory entries requests = first :: rest ∧ OutputFits first ∧
        ∃ request ∈ rest, ¬ OutputFits request

/-- The outputs of a conversion can be written when those of its requests fit. -/
theorem outputs_fit_iff {request : GenusRequest} {value : RuntimeValue × Handle}
    (h : value.2 = request.output ∧ ∃ runtime valor,
      (genusValorToValue F T A runtime valor request.kind).1 = some value.1) :
    OutputFits request ↔ Accessible value.2 value.1.width := by
  obtain ⟨houtput, runtime, valor, hunboxed⟩ := h
  simp [OutputFits, width_unboxed hunboxed, houtput]

theorem halfway_iff {requests : List GenusRequest} {values : List (RuntimeValue × Handle)}
    (h : List.Forall₂ (fun request value => value.2 = request.output ∧
      ∃ runtime valor, (genusValorToValue F T A runtime valor request.kind).1 = some value.1)
      requests values) :
    ((writeAll values []).status ≠ .ok ∧ (writeAll values []).written ≠ []) ↔
      ∃ first rest, requests = first :: rest ∧ OutputFits first ∧
        ∃ request ∈ rest, ¬ OutputFits request := by
  rw [writeAll_partial_iff]
  cases h with
  | nil => simp
  | @cons request value requests values hfirst hrest =>
    have hall : (∀ request ∈ requests, OutputFits request) ↔
        ∀ value ∈ values, Accessible value.2 value.1.width := by
      induction hrest with
      | nil => simp
      | cons hnext _ ih => rw [List.forall_mem_cons, List.forall_mem_cons, ih,
          outputs_fit_iff hnext]
    have hsome : (∃ request ∈ requests, ¬ OutputFits request) ↔
        ∃ value ∈ values, ¬ Accessible value.2 value.1.width := by
      simpa using not_congr hall
    constructor
    · intro hvalues
      obtain ⟨_, _, heq, haccessible, hbad⟩ := hvalues
      cases heq
      exact ⟨request, requests, rfl, (outputs_fit_iff hfirst).mpr haccessible, hsome.mpr hbad⟩
    · intro hrequests
      obtain ⟨_, _, heq, hfits, hbad⟩ := hrequests
      cases heq
      exact ⟨value, values, rfl, (outputs_fit_iff hfirst).mp hfits, hsome.mp hbad⟩

theorem valorGetGenus_halfway_iff (runtime : Runtime Instans) (valor : Handle)
    (requests : List GenusRequest) :
    let reply := (valorGetGenus F T A memory runtime valor requests).1
    (reply.status ≠ .ok ∧ reply.written ≠ []) ↔
      StopsHalfway F T memory runtime valor requests := by
  rw [valorGetGenus, StopsHalfway]
  cases htabula : tabulaAt runtime valor with
  | none => simp [Reply.invalid]
  | some entries =>
    simp only [Option.some.injEq, exists_eq_left']
    have hsome := fun values => @genusConvert_some Instans F T A memory entries requests values
      runtime
    have hconverts := @genusConvert_isSome Instans F T A memory entries requests runtime
    generalize genusConvert F T A memory entries runtime requests = converted at hsome hconverts
    obtain ⟨answer, after⟩ := converted
    cases answer with
    | none =>
      constructor
      · intro h
        exact absurd rfl h.2
      · intro h
        obtain ⟨values, hnone⟩ := hconverts h.1
        cases hnone
    | some values =>
      obtain ⟨hall, hcells⟩ := hsome values rfl
      rw [and_iff_right hall]
      exact halfway_iff hcells

end

/-- A genus comes back exactly when no field is of kind `ptr`, each `bivalens` is 0 or 1, no
    float is a signaling NaN and the outputs can be written; and a call that fails has written
    nothing unless an output that cannot be written comes after one that can. -/
theorem genus_recovered_and_atomic_iff {Instans : Type} (F : FromValor) (T : InstansText Instans)
    (A : Allocator Instans) (memory : ProgramMemory) (before : Runtime Instans) :
    (∀ depth fields requests handle,
      (fields.map fun field => nameText memory field.name).Nodup →
      (valorGenus T A memory before depth fields).1 = .pointer handle →
      (∀ request ∈ requests, WellRequested memory fields request) →
        (GenusRecovered memory before fields requests (valorGetGenus F T A memory
            (valorGenus T A memory before depth fields).2 handle requests) ↔
          (∀ request ∈ requests, request.output ≠ 0) ∧
            ∀ pair ∈ answered memory fields requests,
              RecoverableValue memory pair.1.kind pair.1.value ∧ OutputFits pair.2)) ∧
    ∀ valor requests, ((valorGetGenus F T A memory before valor requests).1.status ≠ .ok →
        (valorGetGenus F T A memory before valor requests).1.written = []) ↔
      ¬ StopsHalfway F T memory before valor requests := by
  constructor
  · intro depth fields requests handle hdistinct hanswer hwell
    rw [valorGenus] at hanswer ⊢
    cases hfields : genusFields T memory before depth fields [] with
    | none =>
      rw [hfields] at hanswer
      cases hanswer
    | some entries =>
      rw [hfields] at hanswer
      cases hanswer
      exact genus_recovered_iff hdistinct hfields hwell
  · intro valor requests
    have hhalfway := @valorGetGenus_halfway_iff Instans F T A memory before valor requests
    exact (not_and_not_right.symm.trans (not_congr hhalfway))

/-- A program with the names of two fields, and a number, an odd address and a text. -/
def twoNames : ProgramMemory where
  literals := []
  slice := fun handle =>
    if handle = 16 then some "nomen" else if handle = 24 then some "aetas" else none
  word := fun handle => if handle = 40 then 42 else if handle = 48 then 16 else 0
  cString := fun _ => []
  cString_nonzero := fun _ => List.not_mem_nil

/-- The text of the only instant. -/
def unitInstans : InstansText Unit where
  toRfc3339 _ := ""
  fromValor
    | .instans _ => some ()
    | _ => none
  fromValor_instans _ := rfl

theorem number_recovered :
    GenusRecovered twoNames emptyRuntime [⟨16, .i64, 40⟩] [⟨24, .i8, 1, 51⟩, ⟨16, .i64, 0, 56⟩]
      (valorGetGenus ownVariant unitInstans bumpAllocator twoNames
        (valorGenus unitInstans bumpAllocator twoNames emptyRuntime 1 [⟨16, .i64, 40⟩]).2 1
        [⟨24, .i8, 1, 51⟩, ⟨16, .i64, 0, 56⟩]) := by
  have hwell : ∀ request ∈ ([⟨24, .i8, 1, 51⟩, ⟨16, .i64, 0, 56⟩] : List GenusRequest),
      WellRequested twoNames [⟨16, .i64, 40⟩] request := by
    exact List.forall_mem_cons.mpr
      ⟨⟨rfl, show (1 : UInt8) ≠ 0 by decide⟩, List.forall_mem_singleton.mpr ⟨rfl, rfl⟩⟩
  have hanswered : answered twoNames [⟨16, .i64, 40⟩]
      [⟨24, .i8, 1, 51⟩, ⟨16, .i64, 0, 56⟩] = [(⟨16, .i64, 40⟩, ⟨16, .i64, 0, 56⟩)] := rfl
  apply ((genus_recovered_and_atomic_iff ownVariant unitInstans bumpAllocator twoNames
    emptyRuntime).1 1 [⟨16, .i64, 40⟩] [⟨24, .i8, 1, 51⟩, ⟨16, .i64, 0, 56⟩] 1 (by decide) rfl
    hwell).mpr
  rw [hanswered]
  refine ⟨by decide, List.forall_mem_singleton.mpr ⟨fun given hgiven => ?_, 8, rfl, by decide⟩⟩
  cases hgiven
  trivial

/-- A lista is a field of kind `ptr`: it boxes and does not come back.  And of two numbers asked
    for, the first is written before the call fails at the odd output of the second. -/
theorem lista_lost_and_half_written :
    (let before : Runtime Unit := { emptyRuntime with arrays := [(16, ⟨.i64, []⟩)] }
     let boxed := valorGenus unitInstans bumpAllocator twoNames before 2 [⟨16, .ptr, 48⟩]
     boxed.1 = .pointer 17 ∧
      (valorGetGenus ownVariant unitInstans bumpAllocator twoNames boxed.2 17
        [⟨16, .ptr, 0, 56⟩]).1.status = .invalidArgument) ∧
    let before : Runtime Unit :=
      { emptyRuntime with valors := [(8, .tabula [("nomen", .numerus 1)])] }
    (valorGetGenus ownVariant unitInstans bumpAllocator twoNames before 8
        [⟨16, .i64, 0, 56⟩, ⟨16, .i64, 0, 57⟩]).1 =
      ⟨.invalidArgument, none, [(56, .i64 1)]⟩ :=
  ⟨⟨rfl, rfl⟩, rfl⟩

end FaberHosts.Llvm
