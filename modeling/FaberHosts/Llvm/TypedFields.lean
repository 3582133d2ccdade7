import FaberHosts.Llvm.CliTable

/-!
# Typed fields of a command line

The value an argument or a default stands for at a field's type, and when the getter of
that type reads it.  The entries are made by four functions that do not agree on what they
store for a default of another type, for a flag of another type, and for a lista that is
no rest operand.
-/

namespace FaberHosts.Llvm.Cli
open FaberHosts.Kernel FaberHosts.Coordinator FaberHosts.Lib

/-! ### Values -/

/-- What a default stands for at a type; nil is the type's empty value. -/
def defaultValue (ty : UInt8) (default : DescriptorDefault) : Option CliPayload :=
  match ty, default with
  | tTextus, .text value => some (.text value)
  | tTextus, .expr value => some (.text value)
  | tTextus, .nil => some (.text "")
  | tNumerus, .integer value => some (.integer value)
  | tNumerus, .nil => some (.integer 0)
  | tFractus, .float value => some (.float value)
  | tFractus, .nil => some (.float zeroF64)
  | tBivalens, .bool value => some (.bool value)
  | tBivalens, .nil => some (.bool false)
  | tOcteti, .text value => some (.octeti (utf8Bytes value))
  | tOcteti, .nil => some (.octeti [])
  | tListaTextus, .nil => some (.listaPtr [])
  | tListaNumerus, .nil => some (.listaI64 [])
  | _, _ => none

/-- What one argument stands for at a type. -/
def givenValue (parseF64 : String → Option F64) (ty : UInt8) (raw : String) :
    Option CliPayload :=
  match ty with
  | tNumerus => (parseI64 raw).map .integer
  | tFractus => (parseF64 raw).map .float
  | tBivalens => (parseBool raw).map .bool
  | tOcteti => some (.octeti (utf8Bytes raw))
  | tListaTextus => none
  | tListaNumerus => none
  | _ => some (.text raw)

/-- What all arguments left stand for at a type. -/
def listedValue (ty : UInt8) (raws : List String) : Option CliPayload :=
  match ty with
  | tListaTextus => some (.listaPtr (raws.map .text))
  | tListaNumerus => (raws.mapM parseI64).map .listaI64
  | _ => none

/-- An option without a default that is no flag is an `optio`. -/
def DescriptorOption.optional (option : DescriptorOption) : Bool :=
  !option.flag && option.default.isNone

/-- What an option stands for: its last argument, or its default. -/
def optionValue (parseF64 : String → Option F64) (option : DescriptorOption)
    (given : Option (Option String)) : Option CliPayload :=
  match given with
  | none =>
    if option.optional then some (.optioNone (optionValueKind option.ty))
    else defaultValue option.ty (option.default.getD .nil)
  | some raw =>
    if option.flag then some (.bool true)
    else
      let value := raw.bind (givenValue parseF64 option.ty)
      if option.optional then value.map (.optioSome (optionValueKind option.ty)) else value

/-- What an operand stands for: the arguments it takes, or its default. -/
def operandValue (parseF64 : String → Option F64) (operand : DescriptorOperand)
    (raws : List String) : Option CliPayload :=
  match raws, operand.default with
  | [], some default => defaultValue operand.ty default
  | raws, _ =>
    if operand.rest then listedValue operand.ty raws
    else raws.head?.bind (givenValue parseF64 operand.ty)

/-! ### Reading a field -/

/-- The getter of a field's type. -/
def readField (table : RuntimeCliTable) (index : Int) (ty : UInt8) (carrier : Bool) :
    CliPayload :=
  if carrier then cliFieldPtr table index
  else
    match ty with
    | tNumerus => .integer (cliFieldI64 table index)
    | tFractus => .float (cliFieldF64 table index)
    | tBivalens => .bool (cliFieldI1 table index ≠ 0)
    | _ => cliFieldPtr table index

/-- The payload's constructor is the one of the type. -/
def CliPayload.Matches (ty : UInt8) : CliPayload → Prop
  | .text _ => ty = tTextus
  | .octeti _ => ty = tOcteti
  | .listaPtr _ => ty = tListaTextus
  | .listaI64 _ => ty = tListaNumerus
  | .integer _ => ty = tNumerus
  | .float _ => ty = tFractus
  | .bool _ => ty = tBivalens
  | _ => False

instance (ty : UInt8) (payload : CliPayload) : Decidable (payload.Matches ty) :=
  match payload with
  | .text _ => inferInstanceAs (Decidable (ty = tTextus))
  | .octeti _ => inferInstanceAs (Decidable (ty = tOcteti))
  | .listaPtr _ => inferInstanceAs (Decidable (ty = tListaTextus))
  | .listaI64 _ => inferInstanceAs (Decidable (ty = tListaNumerus))
  | .integer _ => inferInstanceAs (Decidable (ty = tNumerus))
  | .float _ => inferInstanceAs (Decidable (ty = tFractus))
  | .bool _ => inferInstanceAs (Decidable (ty = tBivalens))
  | .optioNone _ => isFalse id
  | .optioSome _ _ => isFalse id
  | .null => isFalse id

def CliPayload.isHandle : CliPayload → Bool
  | .integer _ => false
  | .float _ => false
  | .bool _ => false
  | _ => true

def CliPayload.isOptio : CliPayload → Bool
  | .optioNone _ => true
  | .optioSome _ _ => true
  | _ => false

/-- The entry matches its tags, and the getter of its type reads the value. -/
structure ReadsField (table : RuntimeCliTable) (place : Nat) (ty : UInt8) (carrier : Bool)
    (value : CliPayload) : Prop where
  entry : ∃ payload, table.entries[place]? = some ⟨ty, carrier, payload⟩ ∧
    (if carrier then payload.isOptio = true else payload.Matches ty)
  read : readField table place ty carrier = value

/-- Every field of the surface, in order, is read by the getter of its type as what the
    command line gives it or its default, and an option and an operand of one type and
    default read alike. -/
structure Surface.Typed (parseF64 : String → Option F64) (surface : Surface)
    (table : RuntimeCliTable) : Prop where
  names : table.bindingNames =
    surface.options.map (·.binding) ++ surface.operands.map (·.binding)
  length : table.entries.length = table.bindingNames.length
  option : ∀ place option, surface.options[place]? = some option →
    ∃ value, optionValue parseF64 option (lastWrite surface.given place) = some value ∧
      ReadsField table place option.ty option.optional value
  operand : ∀ place operand raws, surface.operands[place]? = some operand →
    (operandInputs surface.operands surface.positionals)[place]? = some raws →
    ∃ value, operandValue parseF64 operand raws = some value ∧
      ReadsField table (surface.options.length + place) operand.ty false value
  alike : ∀ place option place' operand default, surface.options[place]? = some option →
    surface.operands[place']? = some operand → option.ty = operand.ty →
    option.default = some default → operand.default = some default → option.flag = false →
    lastWrite surface.given place = none →
    (operandInputs surface.operands surface.positionals)[place']? = some [] →
    readField table place option.ty false =
      readField table (surface.options.length + place' : Nat) operand.ty false

/-! ### The fields that are read -/

def scalarTypes : List UInt8 := [tTextus, tNumerus, tFractus, tBivalens, tOcteti]

def listTypes : List UInt8 := [tListaTextus, tListaNumerus]

/-- The default is one of a scalar type. -/
def DescriptorDefault.Fits (ty : UInt8) : DescriptorDefault → Prop
  | .text _ => ty = tTextus ∨ ty = tOcteti
  | .integer _ => ty = tNumerus
  | .float _ => ty = tFractus
  | .bool _ => ty = tBivalens
  | .nil => ty ∈ scalarTypes
  | .expr _ => ty = tTextus

/-- A flag is a bivalens.  A default that is used is one of its type, which is no lista.  An
    option that is given is no lista, and of a known type where it has a default. -/
def DescriptorOption.Read (option : DescriptorOption) (given : Option (Option String)) : Prop :=
  if option.flag then
    option.ty = tBivalens ∧ (given = none → ∀ default ∈ option.default, default.Fits tBivalens)
  else
    match option.default, given with
    | none, none => True
    | none, some _ => option.ty ∉ listTypes
    | some default, none => default.Fits option.ty
    | some _, some _ => option.ty ∈ scalarTypes

/-- A rest operand is a lista, and where it takes nothing it has no default but nil; no other
    operand is one.  A default that is used is one of its type, is no expression with a text,
    and is not nil for octeti. -/
def DescriptorOperand.Read (operand : DescriptorOperand) (raws : List String) : Prop :=
  if operand.rest then
    operand.ty ∈ listTypes ∧ (raws = [] → ∀ default ∈ operand.default, default = .nil)
  else
    match raws, operand.default with
    | [], some default =>
      default.Fits operand.ty ∧ (∀ value, default = .expr value → value = "") ∧
        (default = .nil → operand.ty ≠ tOcteti)
    | _, _ => operand.ty ∈ scalarTypes

/-- Every field of the surface is one that is read. -/
def Surface.Read (surface : Surface) : Prop :=
  (∀ (place : Nat) (option : DescriptorOption), surface.options[place]? = some option →
    option.Read (lastWrite surface.given place)) ∧
  ∀ (place : Nat) (operand : DescriptorOperand) raws, surface.operands[place]? = some operand →
    (operandInputs surface.operands surface.positionals)[place]? = some raws → operand.Read raws

/-! ### One field -/

section Field

variable {table : RuntimeCliTable} {place : Nat} {ty : UInt8} {payload value : CliPayload}

theorem findEntry_place {entry : CliEntry} (h : table.entries[place]? = some entry) :
    findEntry table place = some entry := by
  rw [findEntry, if_pos (Int.natCast_nonneg place), Int.toNat_natCast, h]

theorem readField_plain (h : table.entries[place]? = some ⟨ty, false, payload⟩)
    (hmatches : payload.Matches ty) : readField table place ty false = payload := by
  have hentry := findEntry_place h
  have hptr : payload.isHandle → ty ∈ [tTextus, tOcteti, tListaTextus, tListaNumerus] →
      cliFieldPtr table place = payload := fun hhandle hty => by
    rw [cliFieldPtr, hentry]
    dsimp only
    rw [if_neg (by simp [hty])]
    cases payload <;> first | rfl | cases hhandle
  cases payload with
  | integer value =>
    obtain rfl : ty = tNumerus := hmatches
    change CliPayload.integer (cliFieldI64 table place) = _
    unfold cliFieldI64
    rw [hentry]
    rfl
  | float value =>
    obtain rfl : ty = tFractus := hmatches
    change CliPayload.float (cliFieldF64 table place) = _
    unfold cliFieldF64
    rw [hentry]
    rfl
  | bool value =>
    obtain rfl : ty = tBivalens := hmatches
    change CliPayload.bool (cliFieldI1 table place ≠ 0) = _
    unfold cliFieldI1
    rw [hentry]
    cases value <;> rfl
  | text value =>
    obtain rfl : ty = tTextus := hmatches
    exact hptr rfl (by decide)
  | octeti value =>
    obtain rfl : ty = tOcteti := hmatches
    exact hptr rfl (by decide)
  | listaPtr value =>
    obtain rfl : ty = tListaTextus := hmatches
    exact hptr rfl (by decide)
  | listaI64 value =>
    obtain rfl : ty = tListaNumerus := hmatches
    exact hptr rfl (by decide)
  | _ => exact hmatches.elim

theorem readsField_plain_iff (h : table.entries[place]? = some ⟨ty, false, payload⟩) :
    ReadsField table place ty false value ↔ payload.Matches ty ∧ payload = value := by
  constructor
  · rintro ⟨⟨payload', hentry, hmatches⟩, hread⟩
    rw [h] at hentry
    cases hentry
    exact ⟨hmatches, (readField_plain h hmatches).symm.trans hread⟩
  · rintro ⟨hmatches, rfl⟩
    exact ⟨⟨payload, h, hmatches⟩, readField_plain h hmatches⟩

theorem readsField_carrier_iff (h : table.entries[place]? = some ⟨ty, true, payload⟩)
    (hoptio : payload.isOptio = true) :
    ReadsField table place ty true value ↔ payload = value := by
  have hread : readField table place ty true = payload := by
    unfold readField cliFieldPtr
    rw [if_pos rfl, findEntry_place h]
    dsimp only
    rw [if_neg (by simp)]
    cases payload <;> first | rfl | cases hoptio
  constructor
  · rintro ⟨-, hvalue⟩
    exact hread.symm.trans hvalue
  · rintro rfl
    exact ⟨⟨payload, h, hoptio⟩, hread⟩

end Field

/-! ### Defaults -/

theorem defaultValue_isSome {ty : UInt8} {default : DescriptorDefault}
    (h : (defaultValue ty default).isSome) :
    default.Fits ty ∨ (default = .nil ∧ ty ∈ listTypes) := by
  unfold defaultValue at h
  split at h
  · exact .inl (.inl rfl)
  · exact .inl rfl
  · exact .inl (show tTextus ∈ scalarTypes by decide)
  · exact .inl rfl
  · exact .inl (show tNumerus ∈ scalarTypes by decide)
  · exact .inl rfl
  · exact .inl (show tFractus ∈ scalarTypes by decide)
  · exact .inl rfl
  · exact .inl (show tBivalens ∈ scalarTypes by decide)
  · exact .inl (.inr rfl)
  · exact .inl (show tOcteti ∈ scalarTypes by decide)
  · exact .inr ⟨rfl, by decide⟩
  · exact .inr ⟨rfl, by decide⟩
  · cases h

theorem fits_scalar {ty : UInt8} {default : DescriptorDefault} (hfits : default.Fits ty) :
    ty ∈ scalarTypes := by
  cases default with
  | text value => rcases hfits with rfl | rfl <;> decide
  | nil => exact hfits
  | _ =>
    obtain rfl := hfits
    decide

theorem defaultValueEntry_iff (ty : UInt8) (default : DescriptorDefault) :
    defaultValue ty default = some (defaultValueEntry ty default).value ∧
      (defaultValueEntry ty default).value.Matches ty ↔ default.Fits ty := by
  constructor
  · rintro ⟨hvalue, hmatches⟩
    rcases defaultValue_isSome (Option.isSome_of_eq_some hvalue) with hfits | ⟨rfl, hlist⟩
    · exact hfits
    · -- the empty text of a lista
      simp only [listTypes, List.mem_cons, List.not_mem_nil, or_false] at hlist
      rcases hlist with rfl | rfl <;> exact absurd hmatches (by decide)
  · intro hfits
    cases default with
    | text value => rcases hfits with rfl | rfl <;> exact ⟨rfl, rfl⟩
    | integer value =>
      obtain rfl := hfits
      exact ⟨rfl, rfl⟩
    | float value =>
      obtain rfl := hfits
      exact ⟨rfl, rfl⟩
    | bool value =>
      obtain rfl := hfits
      exact ⟨rfl, rfl⟩
    | expr value =>
      obtain rfl := hfits
      exact ⟨rfl, rfl⟩
    | nil =>
      have hfits : ty ∈ scalarTypes := hfits
      simp only [scalarTypes, List.mem_cons, List.not_mem_nil, or_false] at hfits
      rcases hfits with rfl | rfl | rfl | rfl | rfl <;> exact ⟨rfl, rfl⟩

/-- A default of an operand is read when it is one of its type, but for an expression with a
    text and nil octeti. -/
theorem defaultValuePayload_iff (ty : UInt8) (default : DescriptorDefault) :
    defaultValue ty default = some (defaultValuePayload ty default) ∧
        (defaultValuePayload ty default).Matches ty ↔
      default.Fits ty ∧ (∀ value, default = .expr value → value = "") ∧
        (default = .nil → ty ≠ tOcteti) := by
  constructor
  · rintro ⟨hvalue, hmatches⟩
    rcases defaultValue_isSome (Option.isSome_of_eq_some hvalue) with hfits | ⟨rfl, hlist⟩
    · refine ⟨hfits, ?_, ?_⟩
      · rintro value rfl
        obtain rfl : ty = tTextus := hfits
        have htext : CliPayload.text value = CliPayload.text "" := Option.some.inj hvalue
        exact CliPayload.text.inj htext
      · rintro rfl rfl
        exact absurd hmatches (by decide)
    · simp only [listTypes, List.mem_cons, List.not_mem_nil, or_false] at hlist
      rcases hlist with rfl | rfl <;> exact absurd hmatches (by decide)
  · rintro ⟨hfits, hexpr, hnil⟩
    cases default with
    | text value => rcases hfits with rfl | rfl <;> exact ⟨rfl, rfl⟩
    | integer value =>
      obtain rfl := hfits
      exact ⟨rfl, rfl⟩
    | float value =>
      obtain rfl := hfits
      exact ⟨rfl, rfl⟩
    | bool value =>
      obtain rfl := hfits
      exact ⟨rfl, rfl⟩
    | expr value =>
      obtain rfl := hfits
      obtain rfl := hexpr value rfl
      exact ⟨rfl, rfl⟩
    | nil =>
      have hfits : ty ∈ scalarTypes := hfits
      simp only [scalarTypes, List.mem_cons, List.not_mem_nil, or_false] at hfits
      rcases hfits with rfl | rfl | rfl | rfl | rfl
      case inr.inr.inr.inr => exact absurd rfl (hnil rfl)
      all_goals exact ⟨rfl, rfl⟩

/-! ### Arguments -/

section Arguments

variable {parseF64 : String → Option F64} {ty : UInt8} {raw : String} {payload : CliPayload}

theorem elim_ok_iff {α : Type} {parsed : Option α} {stop : Stop} {a : α} :
    parsed.elim (.error stop) .ok = Except.ok a ↔ parsed = some a := by
  cases parsed <;> simp

theorem givenValue_list (hlist : ty ∈ listTypes) : givenValue parseF64 ty raw = none := by
  simp only [listTypes, List.mem_cons, List.not_mem_nil, or_false] at hlist
  rcases hlist with rfl | rfl <;> rfl

/-- What is parsed of an argument is what it stands for, but for a lista. -/
theorem parseScalar_given (h : parseScalar parseF64 ty raw = .ok payload)
    (hlist : ty ∉ listTypes) : givenValue parseF64 ty raw = some payload := by
  unfold parseScalar at h
  unfold givenValue
  split at h
  · exact elim_ok_iff.mp h
  · exact elim_ok_iff.mp h
  · exact elim_ok_iff.mp h
  · cases h
    rfl
  · cases h
    split
    all_goals first | rfl | contradiction

theorem parseScalar_matches (h : parseScalar parseF64 ty raw = .ok payload)
    (hlist : ty ∉ listTypes) : payload.Matches ty ↔ ty ∈ scalarTypes := by
  unfold parseScalar at h
  split at h
  · obtain ⟨value, -, rfl⟩ := Option.map_eq_some_iff.mp (elim_ok_iff.mp h)
    exact iff_of_true rfl (by decide)
  · obtain ⟨value, -, rfl⟩ := Option.map_eq_some_iff.mp (elim_ok_iff.mp h)
    exact iff_of_true rfl (by decide)
  · obtain ⟨value, -, rfl⟩ := Option.map_eq_some_iff.mp (elim_ok_iff.mp h)
    exact iff_of_true rfl (by decide)
  · cases h
    exact iff_of_true rfl (by decide)
  · cases h
    change ty = tTextus ↔ _
    constructor
    · rintro rfl
      decide
    · intro hscalar
      simp only [scalarTypes, List.mem_cons, List.not_mem_nil, or_false] at hscalar
      rcases hscalar with rfl | rfl | rfl | rfl | rfl
      · rfl
      all_goals contradiction

/-- The payload parsed of an argument is read if and only if the type is a scalar one. -/
theorem parseScalar_iff (h : parseScalar parseF64 ty raw = .ok payload) :
    (givenValue parseF64 ty raw = some payload ∧ payload.Matches ty) ↔ ty ∈ scalarTypes := by
  by_cases hlist : ty ∈ listTypes
  · rw [givenValue_list hlist]
    refine iff_of_false (fun hnone => nomatch hnone.1) ?_
    simp only [listTypes, List.mem_cons, List.not_mem_nil, or_false] at hlist
    rcases hlist with rfl | rfl <;> decide
  · rw [parseScalar_given h hlist, parseScalar_matches h hlist]
    exact and_iff_right rfl

theorem parseOperandPayload_iff {operand : DescriptorOperand}
    (h : parseOperandPayload parseF64 operand raw = .ok payload) :
    (givenValue parseF64 operand.ty raw = some payload ∧ payload.Matches operand.ty) ↔
      operand.ty ∈ scalarTypes := by
  unfold parseOperandPayload at h
  split at h
  · next hty =>
    rw [hty]
    exact iff_of_false (fun hnone => nomatch hnone.1) (by decide)
  · exact parseScalar_iff h

end Arguments

/-! ### Lists -/

section Lists

variable {parseF64 : String → Option F64} {operand : DescriptorOperand} {raws : List String}
  {values : List CliPayload}

theorem listValueEntry_matches {ty : UInt8} :
    (listValueEntry ty values).value.Matches ty ↔ ty ∈ listTypes := by
  unfold listValueEntry
  simp only [listTypes, List.mem_cons, List.not_mem_nil, or_false]
  split
  · next hty => exact iff_of_true hty (.inr hty)
  · next hty => exact ⟨.inl, fun h => h.resolve_right hty⟩

theorem texts_of_listed (hty : operand.ty = tListaTextus)
    (h : List.Forall₂ (fun raw value => parseOperandPayload parseF64 operand raw = .ok value)
      raws values) : values = raws.map .text := by
  induction h with
  | nil => rfl
  | @cons raw value raws values hvalue _ ih =>
    unfold parseOperandPayload at hvalue
    rw [hty] at hvalue
    obtain rfl : CliPayload.text raw = value := Except.ok.inj hvalue
    rw [List.map_cons, ih]

theorem numbers_of_listed (hty : operand.ty = tListaNumerus)
    (h : List.Forall₂ (fun raw value => parseOperandPayload parseF64 operand raw = .ok value)
      raws values) :
    ∃ numbers, raws.mapM parseI64 = some numbers ∧ values = numbers.map .integer := by
  induction h with
  | nil => exact ⟨[], rfl, rfl⟩
  | cons hvalue _ ih =>
    obtain ⟨numbers, hnumbers, rfl⟩ := ih
    unfold parseOperandPayload at hvalue
    rw [hty] at hvalue
    obtain ⟨number, hnumber, rfl⟩ := Option.map_eq_some_iff.mp (elim_ok_iff.mp hvalue)
    exact ⟨number :: numbers, by rw [List.mapM_cons, hnumber, hnumbers]; rfl, rfl⟩

theorem listValueEntry_listed (hlist : operand.ty ∈ listTypes)
    (h : raws.mapM (parseOperandPayload parseF64 operand) = .ok values) :
    listedValue operand.ty raws = some (listValueEntry operand.ty values).value := by
  have hvalues := forall₂_of_mapM_ok h
  simp only [listTypes, List.mem_cons, List.not_mem_nil, or_false] at hlist
  rcases hlist with hty | hty
  · have hptrs : (raws.map CliPayload.text).map (·.asPtr) = raws.map .text := by
      rw [List.map_map]
      rfl
    rw [texts_of_listed hty hvalues, hty, listValueEntry, if_neg (by decide), hptrs]
    rfl
  · obtain ⟨numbers, hnumbers, rfl⟩ := numbers_of_listed hty hvalues
    have hi64 : (numbers.map CliPayload.integer).map (·.asI64) = numbers := by
      rw [List.map_map]
      exact List.map_id numbers
    rw [hty, listValueEntry, if_pos rfl, hi64]
    change (raws.mapM parseI64).map CliPayload.listaI64 = _
    rw [hnumbers]
    rfl

end Lists

/-! ### Options and operands -/

section Fields

variable {parseF64 : String → Option F64}

theorem defaultValueEntry_tags (ty : UInt8) (default : DescriptorDefault) :
    defaultValueEntry ty default = ⟨ty, false, (defaultValueEntry ty default).value⟩ := by
  unfold defaultValueEntry
  split <;> rfl

/-- An entry with the tags of its field is read as the payload it holds. -/
theorem exists_reads_iff {table : RuntimeCliTable} {place : Nat} {ty : UInt8}
    {payload : CliPayload} {expected : Option CliPayload}
    (h : table.entries[place]? = some ⟨ty, false, payload⟩) :
    (∃ value, expected = some value ∧ ReadsField table place ty false value) ↔
      expected = some payload ∧ payload.Matches ty := by
  simp only [readsField_plain_iff h]
  constructor
  · rintro ⟨value, hvalue, hmatches, rfl⟩
    exact ⟨hvalue, hmatches⟩
  · rintro ⟨hvalue, hmatches⟩
    exact ⟨payload, hvalue, hmatches, rfl⟩

theorem flag_default_iff (ty : UInt8) (default : Option DescriptorDefault) :
    (defaultValue ty (default.getD .nil) =
          some (.bool (match default with | some (.bool true) => true | _ => false)) ∧
        ty = tBivalens) ↔
      ty = tBivalens ∧ ∀ value ∈ default, value.Fits tBivalens := by
  rw [and_comm]
  refine and_congr_right ?_
  rintro rfl
  have hnil : DescriptorDefault.nil.Fits tBivalens := show tBivalens ∈ scalarTypes by decide
  cases default with
  | none => exact iff_of_true rfl nofun
  | some default =>
    have hforall : (∀ value ∈ some default, value.Fits tBivalens) ↔ default.Fits tBivalens :=
      ⟨fun h => h default rfl, fun h value hvalue => Option.some.inj hvalue ▸ h⟩
    rw [hforall]
    cases default with
    | nil => exact iff_of_true rfl hnil
    | bool value => cases value <;> exact iff_of_true rfl rfl
    | text value => exact iff_of_false nofun (not_or.mpr ⟨by decide, by decide⟩)
    | integer value => exact iff_of_false nofun (show tBivalens ≠ tNumerus by decide)
    | float value => exact iff_of_false nofun (show tBivalens ≠ tFractus by decide)
    | expr value => exact iff_of_false nofun (show tBivalens ≠ tTextus by decide)

/-- The field that an option's default or its last argument fills is read if and only if it
    is one that is read. -/
theorem option_read_iff {option : DescriptorOption} {given : Option (Option String)}
    {table : RuntimeCliTable} {place : Nat}
    (habsent : given = none → table.entries[place]? = some (initialOptionEntry option))
    (hgiven : ∀ raw, given = some raw → ∃ entry, givenEntry parseF64 option raw = .ok entry ∧
      table.entries[place]? = some entry) :
    (∃ value, optionValue parseF64 option given = some value ∧
      ReadsField table place option.ty option.optional value) ↔ option.Read given := by
  unfold DescriptorOption.Read optionValue DescriptorOption.optional
  cases hflag : option.flag with
  | true =>
    cases given with
    | none =>
      have hentry := habsent rfl
      unfold initialOptionEntry at hentry
      rw [if_pos hflag] at hentry
      simp only [Bool.not_true, Bool.false_and, Bool.false_eq_true, if_false, if_true,
        exists_reads_iff hentry, forall_const]
      exact flag_default_iff option.ty option.default
    | some raw =>
      obtain ⟨entry, hmade, hentry⟩ := hgiven raw rfl
      unfold givenEntry at hmade
      rw [if_pos hflag] at hmade
      cases hmade
      simp only [Bool.not_true, Bool.false_and, if_true, exists_reads_iff hentry]
      exact ⟨fun h => ⟨h.2, nofun⟩, fun h => ⟨trivial, h.1⟩⟩
  | false =>
    cases hdefault : option.default with
    | none =>
      cases given with
      | none =>
        have hentry := habsent rfl
        unfold initialOptionEntry at hentry
        rw [if_neg (by simp [hflag]), hdefault] at hentry
        simp only [Bool.not_false, Option.isNone_none, Bool.and_self, if_true, iff_true,
          Bool.false_eq_true, if_false]
        exact ⟨_, rfl, (readsField_carrier_iff hentry rfl).mpr rfl⟩
      | some raw =>
        obtain ⟨entry, hmade, hentry⟩ := hgiven raw rfl
        unfold givenEntry at hmade
        rw [if_neg (by simp [hflag])] at hmade
        cases raw with
        | none => cases hmade
        | some raw =>
          obtain ⟨payload, hpayload, hresult⟩ := bind_ok_iff.mp hmade
          rw [hdefault] at hresult
          cases hresult
          simp only [Bool.not_false, Option.isNone_none, Bool.and_self, if_true,
            Bool.false_eq_true, if_false, Option.bind_some]
          constructor
          · rintro ⟨value, hvalue, -⟩ hlist
            rw [givenValue_list hlist] at hvalue
            cases hvalue
          · intro hlist
            rw [parseScalar_given hpayload hlist]
            exact ⟨_, rfl, (readsField_carrier_iff hentry rfl).mpr rfl⟩
    | some default =>
      cases given with
      | none =>
        have hentry := habsent rfl
        unfold initialOptionEntry at hentry
        rw [if_neg (by simp [hflag]), hdefault] at hentry
        dsimp only at hentry
        rw [defaultValueEntry_tags] at hentry
        simp only [Bool.not_false, Option.isNone_some, Bool.and_false, Bool.false_eq_true, if_false,
          Option.getD_some, exists_reads_iff hentry]
        exact defaultValueEntry_iff option.ty default
      | some raw =>
        obtain ⟨entry, hmade, hentry⟩ := hgiven raw rfl
        unfold givenEntry at hmade
        rw [if_neg (by simp [hflag])] at hmade
        cases raw with
        | none => cases hmade
        | some raw =>
          obtain ⟨payload, hpayload, hresult⟩ := bind_ok_iff.mp hmade
          rw [hdefault] at hresult
          cases hresult
          simp only [Bool.not_false, Option.isNone_some, Bool.and_false, Bool.false_eq_true,
            if_false, Option.bind_some, exists_reads_iff hentry]
          exact parseScalar_iff hpayload

/-- The field that the arguments of an operand or its default fill is read if and only if it
    is one that is read. -/
theorem operand_read_iff {operand : DescriptorOperand} {raws : List String} {entry : CliEntry}
    {table : RuntimeCliTable} {place : Nat}
    (hentry : operandEntry parseF64 operand raws = .ok entry)
    (hplace : table.entries[place]? = some entry) :
    (∃ value, operandValue parseF64 operand raws = some value ∧
      ReadsField table place operand.ty false value) ↔ operand.Read raws := by
  unfold operandEntry at hentry
  unfold DescriptorOperand.Read operandValue
  cases hrest : operand.rest with
  | true =>
    rw [if_pos hrest] at hentry
    obtain ⟨values, hvalues, hresult⟩ := bind_ok_iff.mp hentry
    cases hresult
    have htags : listValueEntry operand.ty values =
        ⟨operand.ty, false, (listValueEntry operand.ty values).value⟩ := by
      unfold listValueEntry
      split <;> rfl
    rw [htags] at hplace
    simp only [exists_reads_iff hplace, if_true, listValueEntry_matches]
    rw [and_comm]
    refine and_congr_right fun hlist => ?_
    have hlisted := listValueEntry_listed hlist hvalues
    cases raws with
    | cons raw raws => exact iff_of_true hlisted nofun
    | nil =>
      cases hdefault : operand.default with
      | none => exact iff_of_true hlisted (fun _ => nofun)
      | some default =>
        rw [← hlisted]
        have hforall : (∀ value ∈ some default, value = DescriptorDefault.nil) ↔ default = .nil :=
          ⟨fun h => h default rfl, fun h value hvalue => (Option.some.inj hvalue).symm.trans h⟩
        simp only [forall_const, hforall]
        simp only [listTypes, List.mem_cons, List.not_mem_nil, or_false] at hlist
        constructor
        · intro hvalue
          have hsome : (defaultValue operand.ty default).isSome := by
            rw [hvalue]
            rcases hlist with hty | hty <;> rw [hty] <;> rfl
          rcases defaultValue_isSome hsome with hfits | ⟨hnil, -⟩
          · have hscalar := fits_scalar hfits
            rcases hlist with hty | hty <;> rw [hty] at hscalar <;> exact absurd hscalar (by decide)
          · exact hnil
        · rintro rfl
          rcases hlist with hty | hty <;> rw [hty] <;> rfl
  | false =>
    rw [if_neg (by simp [hrest])] at hentry
    simp only [Bool.false_eq_true, if_false]
    cases raws with
    | cons raw raws =>
      obtain ⟨payload, hpayload, hresult⟩ := bind_ok_iff.mp hentry
      cases hresult
      simp only [exists_reads_iff hplace, List.head?_cons, Option.bind_some]
      exact parseOperandPayload_iff hpayload
    | nil =>
      cases hdefault : operand.default with
      | none =>
        rw [hdefault] at hentry
        cases hentry
      | some default =>
        rw [hdefault] at hentry
        cases hentry
        simp only [exists_reads_iff hplace]
        exact defaultValuePayload_iff operand.ty default

/-- A parse that returns fills a table with the fields of its surface in order.  Every field is
    read as its argument or its default if and only if it is one that is read. -/
theorem table_typed_iff (parseF64 : String → Option F64) (descriptor : CliDescriptor)
    (arguments : List String) (table : RuntimeCliTable)
    (h : parseDescriptor parseF64 descriptor arguments = .ok table) :
    ∃ surface, surfaceOf descriptor arguments = some surface ∧
      (surface.Typed parseF64 table ↔ surface.Read) := by
  obtain ⟨surface, hsurface, hholds⟩ := parseDescriptor_holds h
  refine ⟨surface, hsurface, ?_⟩
  have hoption : ∀ (place : Nat) option, surface.options[place]? = some option →
      ((∃ value, optionValue parseF64 option (lastWrite surface.given place) = some value ∧
          ReadsField table place option.ty option.optional value) ↔
        option.Read (lastWrite surface.given place)) := fun place option hplace =>
    option_read_iff (hholds.absent place option hplace)
      (fun raw hraw => hholds.given place option raw hplace hraw)
  have hoperand : ∀ (place : Nat) operand raws, surface.operands[place]? = some operand →
      (operandInputs surface.operands surface.positionals)[place]? = some raws →
      ((∃ value, operandValue parseF64 operand raws = some value ∧
          ReadsField table (surface.options.length + place) operand.ty false value) ↔
        operand.Read raws) := fun place operand raws hplace hraws => by
    obtain ⟨entry, hmade, hentry⟩ := hholds.operand place operand raws hplace hraws
    exact operand_read_iff hmade hentry
  constructor
  · intro htyped
    exact ⟨fun place option hplace => (hoption place option hplace).mp
        (htyped.option place option hplace),
      fun place operand raws hplace hraws => (hoperand place operand raws hplace hraws).mp
        (htyped.operand place operand raws hplace hraws)⟩
  · rintro ⟨hoptions, hoperands⟩
    have hreads := fun place option hplace =>
      (hoption place option hplace).mpr (hoptions place option hplace)
    have hreads' := fun place operand raws hplace hraws =>
      (hoperand place operand raws hplace hraws).mpr (hoperands place operand raws hplace hraws)
    refine ⟨hholds.names, ?_, hreads, hreads', ?_⟩
    · rw [hholds.length, hholds.names, List.length_append, List.length_map, List.length_map]
    · intro place option place' operand default hplace hplace' hty hdefault hdefault' hflag habsent
        hraws
      obtain ⟨value, hvalue, hread⟩ := hreads place option hplace
      obtain ⟨value', hvalue', hread'⟩ := hreads' place' operand [] hplace' hraws
      have hoptional : option.optional = false := by simp [DescriptorOption.optional, hdefault]
      have hsame : value = value' := by
        unfold optionValue at hvalue
        unfold operandValue at hvalue'
        rw [habsent] at hvalue
        simp only [hoptional, Bool.false_eq_true, if_false, hdefault, Option.getD_some] at hvalue
        simp only [hdefault'] at hvalue'
        rw [hty, hvalue'] at hvalue
        exact (Option.some.inj hvalue).symm
      rw [hoptional] at hread
      rw [hread.read, hread'.read, hsame]

end Fields

/-- A program with a flag `--loud` and an operand `count`. -/
def loudCount : CliDescriptor where
  mode := 0
  version := none
  exit := .none
  globalOptions := []
  globalOperands := []
  options := [⟨"loud", tBivalens, none, some "loud", true, none⟩]
  operands := [⟨"count", tNumerus, false, some (.integer 1)⟩]
  commands := []

/-- Both fields are read, given or not. -/
theorem loudCount_typed :
    ∃ table surface, parseDescriptor (fun _ => none) loudCount ["--loud"] = .ok table ∧
      surfaceOf loudCount ["--loud"] = some surface ∧ surface.Typed (fun _ => none) table := by
  obtain ⟨surface, hsurface, htyped⟩ :=
    table_typed_iff (fun _ => none) loudCount ["--loud"] _ rfl
  refine ⟨_, surface, rfl, hsurface, htyped.mpr ?_⟩
  cases hsurface
  refine ⟨fun place option hplace => ?_, fun place operand raws hplace hraws => ?_⟩
  · cases place with
    | zero =>
      cases hplace
      exact ⟨rfl, nofun⟩
    | succ place => cases hplace
  · cases place with
    | zero =>
      cases hplace
      cases hraws
      exact ⟨rfl, nofun, nofun⟩
    | succ place => cases hplace

/-- A program with an option and an operand that are texts and default to one expression. -/
def twoTexts : CliDescriptor where
  mode := 0
  version := none
  exit := .none
  globalOptions := []
  globalOperands := []
  options := [⟨"source", tTextus, none, some "source", false, some (.expr "origin")⟩]
  operands := [⟨"target", tTextus, false, some (.expr "origin")⟩]
  commands := []

/-- The option reads as the expression's text, the operand as the empty text. -/
theorem expression_default_lost :
    ∃ table surface, parseDescriptor (fun _ => none) twoTexts [] = .ok table ∧
      surfaceOf twoTexts [] = some surface ∧ cliFieldPtr table 0 = .text "origin" ∧
      cliFieldPtr table 1 = .text "" ∧ ¬ surface.Typed (fun _ => none) table := by
  refine ⟨_, _, rfl, rfl, rfl, rfl, fun htyped => ?_⟩
  have halike := htyped.alike 0 _ 0 _ _ rfl rfl rfl rfl rfl rfl rfl rfl
  have htexts : CliPayload.text "origin" = CliPayload.text "" := halike
  exact absurd (CliPayload.text.inj htexts) (by decide)

end FaberHosts.Llvm.Cli
