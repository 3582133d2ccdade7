import FaberHosts.Wasm.TensorOffsets

/-!
# Index reads

`array_option` and `tensor_get` answer an option of the element they find.  What the
option rows and the display make of the answer is compared with the element the
container holds.
-/

namespace FaberHosts.Wasm
open FaberHosts.Lib

namespace HostState

variable {κ μ : Type} {host host' : HostState κ μ} {r handle : UInt32}

/-! ## The elements of a container -/

/-- The element of a list at a key. -/
def listElement (values : List RuntimeValue) (key : UInt64) : Option RuntimeValue :=
  if key = firstKey ∨ key = removeFirstKey then values.head?
  else if key = lastKey ∨ key = removeLastKey then values.getLast?
  else (usizeOfI64 key).bind (values[·]?)

/-- The value of a map at a key, which is read by the kind the map declares. -/
def mapElement (kinds : ValueKinds) (map : MapValue) (key : UInt64) : Option RuntimeValue :=
  findValue runtimeValueEq map.entries (keyOf kinds map.keyKind key)

/-- The byte of an octeti at a key. -/
def octetiElement (bytes : List UInt8) (key : UInt64) : Option RuntimeValue :=
  ((usizeOfI64 key).bind (bytes[·]?)).map (fun byte => .i32 byte.toUInt32)

def tensorElement (tensor : TensorValue) (index : List UInt64) : Option RuntimeValue := do
  let dims ← tensor.shape.mapM usizeOfI64
  let index ← index.mapM usizeOfI64
  let place ← rowMajor dims index
  tensor.values[place]?

end HostState

open HostState

/-- The rows that read an element by an index or a key. -/
inductive IndexRead where
  | array (handle : UInt32) (key : UInt64)
  | tensor (handle index : UInt32)
  deriving DecidableEq, Repr

/-- What an index read is about: the kind of the container's elements, the value the row
    looks up and the element the container holds. -/
structure Located where
  kind : UInt32
  found : Option RuntimeValue
  element : Option RuntimeValue
  deriving DecidableEq, Repr

namespace IndexRead

variable {κ μ : Type} (T : Toolchain) (kinds : ValueKinds)

def row : IndexRead → Call (HostState κ μ) String UInt32
  | array handle key => arrayOption T kinds handle key
  | tensor handle index => tensorGet T kinds handle index

/-- What `array_option` looks up in a list; the first and the last element are looked up
    to be removed as well. -/
def lookupElement (values : List RuntimeValue) (key : UInt64) : Option RuntimeValue :=
  if key = removeLastKey then values.getLast?
  else if key = removeFirstKey then values.head?
  else elementOf values key

/-- Nothing is located where the handle is none of a container. -/
def located (host : HostState κ μ) : IndexRead → Option Located
  | array handle key =>
    match host.findCollection handle with
    | some collection =>
      some ⟨collection.kind, lookupElement collection.values key,
        listElement collection.values key⟩
    | none =>
    match host.findMap handle with
    | some map => some ⟨map.valueKind, lookupHandle map key, mapElement kinds map key⟩
    | none => (host.resolveOcteti handle).map (fun bytes =>
      ⟨kinds.u8, octetiElement bytes key, octetiElement bytes key⟩)
  | tensor handle index => do
    let tensor ← host.findTensor handle
    let index ← host.readIndexVector index
    return ⟨tensor.kind, (tensorFlatOffset tensor.shape index).bind (tensor.values[·]?),
      tensorElement tensor index⟩

end IndexRead

/-! ## Where the lookup finds the element -/

section Finds

variable {kinds : ValueKinds} {key : UInt64}

theorem lookupElement_eq {values : List RuntimeValue} (hlength : values.length ≤ wordMax) :
    IndexRead.lookupElement values key = listElement values key := by
  unfold IndexRead.lookupElement listElement elementOf
  by_cases hlast : key = removeLastKey
  · rw [if_pos hlast, if_neg (by rw [hlast]; decide), if_pos (Or.inr hlast)]
  by_cases hfirst : key = removeFirstKey
  · rw [if_neg hlast, if_pos hfirst, if_pos (Or.inr hfirst)]
  rw [if_neg hlast, if_neg hfirst]
  simp only [hlast, hfirst, or_false]
  split
  · rw [List.head?_eq_getElem?]
  · split
    · rw [List.getLast?_eq_getElem?]
    · cases usizeOfI64 key with
      | none => exact List.getElem?_eq_none hlength
      | some index => rfl

theorem runtimeValueEq_handle (value : RuntimeValue) (handle : UInt32) :
    runtimeValueEq value (.handle handle) = decide (value = .handle handle) := by
  cases value with
  | handle other =>
    rw [Bool.eq_iff_iff]
    simp [runtimeValueEq]
  | _ => rfl

/-- A lookup compares with a handle: it finds what is stored under one. -/
theorem lookupHandle_eq {map : MapValue}
    (hkey : keyOf kinds map.keyKind key = .handle key.toUInt32) :
    lookupHandle map key = mapElement kinds map key := by
  unfold lookupHandle mapElement findValue
  rw [hkey]
  simp only [runtimeValueEq_handle]

end Finds

/-! ## Faithful answers -/

/-- The rows of options and the display tell the element from the answer. -/
structure Faithful {κ μ : Type} (d : Dialect) (host : HostState κ μ) (answer : UInt32)
    (element : Option RuntimeValue) : Prop where
  present : optionIsPresent answer host = element.isSome
  value : ∀ v, element = some v → optionGet answer host = valueToI64 v
  not_fallback : ∀ v fallback, element = some v →
    optionGetOr answer fallback host = valueToI64 v
  absent : element = none → d.DisplaysAs host answer d.noneWord

namespace HostState

variable {κ μ : Type} (host : HostState κ μ)

/-- The payload of the option of a handle. -/
def payloadAt (handle : UInt32) : Option RuntimeValue :=
  (host.findOption handle).bind OptionValue.payload

/-- The display of an interned row. -/
def literalDisplay (handle : UInt32) : Option String :=
  (handleIndex handle).bind (fun index =>
    host.rows[index]?.bind (fun row =>
      match row.kind with
      | .text => host.textArena[row.arena.toNat]?
      | .regex => host.regexArena[row.arena.toNat]?.map RegexValue.pattern
      | .octeti => host.octetiArena[row.arena.toNat]?.map debugBytes))

/-- The handle leads to something that has a display of its own. -/
def Names (handle : UInt32) : Prop :=
  (host.resolveText handle).isSome ∨ (host.resolveRegex handle).isSome ∨
    (host.resolveOcteti handle).isSome ∨ (host.findCollection handle).isSome ∨
    (host.findMap handle).isSome ∨ (host.findOption handle).isSome

end HostState

/-- A payload as an `i32`, or 0. -/
def rawHandle : Option RuntimeValue → UInt32
  | some payload => (valueToI64 payload).toUInt32
  | none => 0

/-- The answer to a read can be told from every other: a boxed one if the row finds the
    element, and its handle is not that of a literal with another display; any other one if
    the payload, taken as a handle, is that of an option of the same value, or names nothing
    that is present or displays otherwise when there is no element. -/
def Located.Unambiguous {κ μ : Type} (d : Dialect) (host : HostState κ μ) (loc : Located) :
    Prop :=
  if loc.kind ∈ d.kinds.boxed then
    loc.found.map valueToI64 = loc.element.map valueToI64 ∧
      (loc.element = none →
        ∀ shown, host.literalDisplay host.nextDynamic = some shown → shown = d.noneWord)
  else
    match loc.element with
    | some v => (host.payloadAt (rawHandle loc.found)).map valueToI64 = some (valueToI64 v)
    | none =>
      host.payloadAt (rawHandle loc.found) = none ∧
        (host.findOption (rawHandle loc.found) = none → rawHandle loc.found = 0) ∧
        (host.Names (rawHandle loc.found) →
          d.DisplaysAs host (rawHandle loc.found) d.noneWord)

/-! ## The rows -/

namespace HostState

variable {κ μ : Type} {T : Toolchain} {kinds : ValueKinds} {host host' : HostState κ μ}
  {kind handle r : UInt32} {payload : Option RuntimeValue}

theorem optionResult_raw (hkind : kind ∉ kinds.boxed) :
    (optionResult T kinds kind payload : Call (HostState κ μ) String UInt32) host =
      some (.ok (rawHandle payload), host) := by
  unfold optionResult
  rw [if_neg hkind]
  cases payload with
  | none => rfl
  | some payload => rfl

theorem optionResult_boxed (hkind : kind ∈ kinds.boxed)
    (h : optionResult T kinds kind payload host = some (.ok r, host')) :
    r = host.nextDynamic ∧ ∃ next, host' =
      { host with
        options := host.options ++ [⟨kind, payload⟩]
        nextDynamic := next
        dynamic := host.dynamic.insert host.nextDynamic (.option host.options.length) } := by
  unfold optionResult at h
  rw [if_pos hkind] at h
  simp only [Call.infallible, allocOption, allocDynamic, Option.map_map,
    Option.map_eq_some_iff, Function.comp_apply, Prod.mk.injEq, Except.ok.injEq] at h
  obtain ⟨next, -, rfl, rfl⟩ := h
  exact ⟨rfl, next, rfl⟩

theorem modifyCollection_eq (host : HostState κ μ) (handle : UInt32)
    (f : CollectionValue → CollectionValue) :
    ∃ collections, modifyCollection handle f host = { host with collections := collections } ∧
      (∀ collection, host.findCollection handle = some collection → f collection = collection →
        collections = host.collections) := by
  unfold modifyCollection findCollection
  cases hdyn : host.dynamic[handle]? with
  | none => exact ⟨host.collections, rfl, fun _ _ _ => rfl⟩
  | some value =>
    cases value with
    | collection index =>
      refine ⟨_, rfl, ?_⟩
      intro collection hfound hsame
      apply List.ext_getElem?
      intro i
      rw [List.getElem?_modify]
      by_cases hi : index = i
      · subst hi
        simp [hfound, hsame]
      · simp [hi]
    | _ => exact ⟨host.collections, rfl, fun _ _ _ => rfl⟩

end HostState

namespace IndexRead

variable {κ μ : Type} {T : Toolchain} {kinds : ValueKinds} {host host' : HostState κ μ}
  {read : IndexRead} {loc : Located} {handle r : UInt32} {key : UInt64}

/-- A removal changes the collections unless there is no element to remove. -/
theorem array_collection (T : Toolchain) (kinds : ValueKinds) (key : UInt64)
    {collection : CollectionValue}
    (h : host.findCollection handle = some collection) :
    ∃ collections, arrayOption T kinds handle key host =
        optionResult T kinds collection.kind (lookupElement collection.values key)
          { host with collections := collections } ∧
      (listElement collection.values key = none → collections = host.collections) := by
  unfold arrayOption lookupElement listElement
  rw [Call.get_bind, h]
  dsimp only
  by_cases hlast : key = removeLastKey
  · obtain ⟨collections, heq, hsame⟩ := modifyCollection_eq host handle
      (fun c => { c with values := c.values.dropLast })
    refine ⟨collections, ?_, ?_⟩
    · rw [if_pos hlast, if_pos hlast, Call.modify_bind, heq]
    · intro hnone
      rw [if_neg (by rw [hlast]; decide), if_pos (Or.inr hlast), List.getLast?_eq_none_iff] at hnone
      exact hsame collection h (by rw [hnone]; cases collection; simp_all)
  · by_cases hfirst : key = removeFirstKey
    · obtain ⟨collections, heq, hsame⟩ := modifyCollection_eq host handle
        (fun c => { c with values := c.values.tail })
      refine ⟨collections, ?_, ?_⟩
      · rw [if_neg hlast, if_neg hlast, if_pos hfirst, if_pos hfirst, Call.modify_bind, heq]
      · intro hnone
        rw [if_pos (Or.inr hfirst), List.head?_eq_none_iff] at hnone
        exact hsame collection h (by rw [hnone]; cases collection; simp_all)
    · refine ⟨host.collections, ?_, fun _ => rfl⟩
      rw [if_neg hlast, if_neg hlast, if_neg hfirst, if_neg hfirst]

theorem array_map {map : MapValue} (hnot : host.findCollection handle = none)
    (h : host.findMap handle = some map) :
    arrayOption T kinds handle key host =
      optionResult T kinds map.valueKind (lookupHandle map key) host := by
  unfold arrayOption
  rw [Call.get_bind, hnot, h]

theorem array_octeti {bytes : List UInt8} (hnot : host.findCollection handle = none)
    (hmap : host.findMap handle = none) (h : host.resolveOcteti handle = some bytes) :
    arrayOption T kinds handle key host =
      optionResult T kinds kinds.u8 (octetiElement bytes key) host := by
  unfold arrayOption octetiElement
  rw [Call.get_bind, hnot, hmap, h]
  dsimp only
  cases usizeOfI64 key with
  | none =>
    rw [optionResult_raw kinds.u8_notMem_boxed]
    rfl
  | some index => rfl

theorem tensor_located {tensor : TensorValue} {handle index : UInt32} {dims : List UInt64}
    (h : host.findTensor handle = some tensor) (hdims : host.readIndexVector index = some dims) :
    tensorGet T kinds handle index host =
      optionResult T kinds tensor.kind
        ((tensorFlatOffset tensor.shape dims).bind (tensor.values[·]?)) host := by
  unfold tensorGet
  rw [Call.get_bind, h]
  dsimp only
  rw [hdims]

/-- A read answers the option of what it looks up, after it has removed it from a list if it
    is asked to. -/
theorem row_spec (hloc : read.located kinds host = some loc)
    (hrow : read.row T kinds host = some (.ok r, host')) :
    ∃ collections,
      optionResult T kinds loc.kind loc.found { host with collections := collections } =
        some (.ok r, host') ∧
      (loc.element = none → collections = host.collections) := by
  cases read with
  | array handle key =>
    change arrayOption T kinds handle key host = _ at hrow
    simp only [located] at hloc
    split at hloc
    next collection hcollection =>
      cases hloc
      obtain ⟨collections, heq, hsame⟩ :=
        array_collection T kinds key hcollection
      exact ⟨collections, heq ▸ hrow, hsame⟩
    next hnot =>
      split at hloc
      next map hmap =>
        cases hloc
        rw [array_map hnot hmap] at hrow
        exact ⟨host.collections, hrow, fun _ => rfl⟩
      next hmap =>
        obtain ⟨bytes, hbytes, rfl⟩ := Option.map_eq_some_iff.mp hloc
        rw [array_octeti hnot hmap hbytes] at hrow
        exact ⟨host.collections, hrow, fun _ => rfl⟩
  | tensor handle index =>
    change tensorGet T kinds handle index host = _ at hrow
    obtain ⟨tensor, htensor, hrest⟩ := Option.bind_eq_some_iff.mp hloc
    obtain ⟨dims, hdims, hlocated⟩ := Option.bind_eq_some_iff.mp hrest
    cases hlocated
    rw [tensor_located htensor hdims] at hrow
    exact ⟨host.collections, hrow, fun _ => rfl⟩

/-- Lists and tensors that fit the memory, and maps whose keys are handles. -/
def Ordinary (kinds : ValueKinds) (host : HostState κ μ) : IndexRead → Prop
  | array handle key =>
    (∀ collection, host.findCollection handle = some collection →
      collection.values.length ≤ wordMax) ∧
      ∀ map, host.findMap handle = some map → keyOf kinds map.keyKind key = .handle key.toUInt32
  | tensor handle _ =>
    ∀ tensor dims, host.findTensor handle = some tensor →
      tensor.shape.mapM usizeOfI64 = some dims → dims.prod ≤ wordMax

end IndexRead

/-! ## The answers -/

namespace HostState

variable {κ μ : Type} {d : Dialect} {host : HostState κ μ} {handle : UInt32} {index depth : Nat}
  {option : OptionValue} {shown : String}

theorem optionIsPresent_of (h : host.findOption handle = some option) :
    optionIsPresent handle host = option.payload.isSome := by
  unfold optionIsPresent
  rw [h]

theorem optionGet_of {payload : RuntimeValue} (h : host.findOption handle = some option)
    (hpayload : option.payload = some payload) :
    optionGet handle host = valueToI64 payload := by
  unfold optionGet
  rw [h]
  dsimp only
  rw [hpayload]

theorem optionGetOr_of {payload : RuntimeValue} {fallback : UInt64}
    (h : host.findOption handle = some option) (hpayload : option.payload = some payload) :
    optionGetOr handle fallback host = valueToI64 payload := by
  unfold optionGetOr
  rw [h]
  dsimp only
  rw [hpayload]

theorem optionGetOr_fallback {fallback : UInt64} (h : host.payloadAt handle = none) :
    optionGetOr handle fallback host = fallback := by
  unfold payloadAt at h
  unfold optionGetOr
  split
  next option hoption =>
    rw [hoption] at h
    change option.payload = none at h
    rw [h]
  next => rfl

/-! ## Displays of absent options -/

theorem renderHandleDisplay_literal (h : host.literalDisplay handle = some shown) :
    d.renderHandleDisplay host (depth + 1) handle = pure shown := by
  obtain ⟨index, hindex, hrest⟩ := Option.bind_eq_some_iff.mp h
  obtain ⟨row, hrow, hshown⟩ := Option.bind_eq_some_iff.mp hrest
  unfold Dialect.renderHandleDisplay resolveText resolveRegex resolveOcteti
  cases hkind : row.kind with
  | text => simp_all
  | regex =>
    rw [hkind] at hshown
    obtain ⟨regex, hregex, rfl⟩ := Option.map_eq_some_iff.mp hshown
    simp [hindex, hrow, hkind, hregex]
  | octeti =>
    rw [hkind] at hshown
    obtain ⟨bytes, hbytes, rfl⟩ := Option.map_eq_some_iff.mp hshown
    simp [hindex, hrow, hkind, hbytes]

theorem resolve_none (h : host.literalDisplay handle = none)
    (hdyn : host.dynamic[handle]? = some (.option index)) :
    host.resolveText handle = none ∧ host.resolveRegex handle = none ∧
      host.resolveOcteti handle = none := by
  unfold literalDisplay at h
  unfold resolveText resolveRegex resolveOcteti
  cases hindex : handleIndex handle with
  | none => simp
  | some place =>
    cases hrow : host.rows[place]? with
    | none => simp [hrow, hdyn]
    | some row =>
      simp only [hindex, hrow, Option.bind_some] at h
      cases hkind : row.kind with
      | text => simp_all
      | regex => simp_all
      | octeti => simp_all

/-- An absent option displays as the none word, unless its handle is that of a literal. -/
theorem displaysAs_absent (hdyn : host.dynamic[handle]? = some (.option index))
    (hoption : host.options[index]? = some option) (hpayload : option.payload = none) :
    d.DisplaysAs host handle d.noneWord ↔
      ∀ shown, host.literalDisplay handle = some shown → shown = d.noneWord := by
  constructor
  · rintro ⟨depth, hdepth⟩ shown hshown
    cases depth with
    | zero => exact nomatch hdepth
    | succ depth =>
      rw [renderHandleDisplay_literal hshown] at hdepth
      exact Option.some.inj (Option.some.inj hdepth)
  · intro h
    refine ⟨1, ?_⟩
    cases hlit : host.literalDisplay handle with
    | some shown =>
      rw [renderHandleDisplay_literal hlit, h shown hlit]
      rfl
    | none =>
      obtain ⟨htext, hregex, hocteti⟩ := resolve_none hlit hdyn
      unfold Dialect.renderHandleDisplay findCollection findMap findOption
      simp only [htext, hregex, hocteti, hdyn, hoption, hpayload]
      rfl

theorem displaysAs_unnamed (h : ¬ host.Names 0) : d.DisplaysAs host 0 d.noneWord := by
  simp only [Names, not_or, Option.not_isSome_iff_eq_none] at h
  obtain ⟨htext, hregex, hocteti, hcollection, hmap, hoption⟩ := h
  refine ⟨1, ?_⟩
  unfold Dialect.renderHandleDisplay
  simp only [htext, hregex, hocteti, hcollection, hmap, hoption]
  rfl

end HostState

/-! ## Faithfulness -/

section Faithful

variable {κ μ : Type} {T : Toolchain} {d : Dialect} {host host' : HostState κ μ}
  {loc : Located} {r : UInt32}

theorem findOption_boxed {kind : UInt32} {payload : Option RuntimeValue}
    (hkind : kind ∈ d.kinds.boxed)
    (h : optionResult T d.kinds kind payload host = some (.ok r, host')) :
    r = host.nextDynamic ∧ host'.findOption r = some ⟨kind, payload⟩ ∧
      host'.dynamic[r]? = some (.option host.options.length) ∧
      host'.options[host.options.length]? = some ⟨kind, payload⟩ ∧
      ∀ handle, host'.literalDisplay handle = host.literalDisplay handle := by
  obtain ⟨rfl, next, rfl⟩ := optionResult_boxed hkind h
  set boxed : HostState κ μ :=
    { host with
      options := host.options ++ [⟨kind, payload⟩]
      nextDynamic := next
      dynamic := host.dynamic.insert host.nextDynamic (.option host.options.length) }
  have hdyn : boxed.dynamic[host.nextDynamic]? = some (.option host.options.length) :=
    Std.ExtTreeMap.getElem?_insert_self
  have hoption : boxed.options[host.options.length]? = some ⟨kind, payload⟩ := by
    simp [boxed]
  refine ⟨rfl, ?_, hdyn, hoption, fun _ => rfl⟩
  unfold findOption
  rw [hdyn]
  exact hoption

theorem faithful_boxed_iff (hkind : loc.kind ∈ d.kinds.boxed)
    (h : optionResult T d.kinds loc.kind loc.found host = some (.ok r, host')) :
    Faithful d host' r loc.element ↔
      loc.found.map valueToI64 = loc.element.map valueToI64 ∧
        (loc.element = none →
          ∀ shown, host.literalDisplay host.nextDynamic = some shown → shown = d.noneWord) := by
  obtain ⟨rfl, hfind, hdyn, hoption, hliterals⟩ := findOption_boxed hkind h
  rw [← hliterals]
  have hpresent := optionIsPresent_of hfind
  constructor
  · intro hfaithful
    have hsome := hpresent.symm.trans hfaithful.present
    refine ⟨?_, fun hnone => ?_⟩
    · cases hfound : loc.found with
      | none =>
        rw [hfound] at hsome
        rw [Option.isNone_iff_eq_none.mp (Option.isSome_eq_false_iff.mp hsome.symm)]
      | some found =>
        rw [hfound] at hsome
        obtain ⟨v, hv⟩ := Option.isSome_iff_exists.mp hsome.symm
        rw [hv, Option.map_some, Option.map_some, ← hfaithful.value v hv,
          optionGet_of hfind hfound]
    · have hfound : loc.found = none := by
        rw [hnone] at hsome
        exact Option.not_isSome_iff_eq_none.mp (by simp [hsome])
      exact (displaysAs_absent hdyn hoption hfound).mp (hfaithful.absent hnone)
  · rintro ⟨hsame, hliteral⟩
    have hpayload : ∀ v, loc.element = some v →
        ∃ found, loc.found = some found ∧ valueToI64 found = valueToI64 v := by
      intro v hv
      rw [hv] at hsame
      exact Option.map_eq_some_iff.mp hsame
    refine ⟨?_, ?_, ?_, ?_⟩
    · rw [hpresent, ← Option.isSome_map (f := valueToI64), hsame, Option.isSome_map]
    · intro v hv
      obtain ⟨found, hfound, hvalue⟩ := hpayload v hv
      rw [optionGet_of hfind hfound, hvalue]
    · intro v fallback hv
      obtain ⟨found, hfound, hvalue⟩ := hpayload v hv
      rw [optionGetOr_of hfind hfound, hvalue]
    · intro hnone
      rw [hnone, Option.map_none, Option.map_eq_none_iff] at hsame
      exact (displaysAs_absent hdyn hoption hsame).mpr (hliteral hnone)

theorem faithful_raw_iff (hkind : loc.kind ∉ d.kinds.boxed) :
    Faithful d host (rawHandle loc.found) loc.element ↔ loc.Unambiguous d host := by
  unfold Located.Unambiguous
  rw [if_neg hkind]
  generalize rawHandle loc.found = r
  cases loc.element with
  | some v =>
    dsimp only
    constructor
    · intro hfaithful
      -- a fallback other than the value tells a missing payload
      cases hpayload : host.payloadAt r with
      | none =>
        have hfallback := hfaithful.not_fallback v (valueToI64 v + 1) rfl
        rw [optionGetOr_fallback hpayload] at hfallback
        exact absurd hfallback (by simp)
      | some payload =>
        obtain ⟨option, hoption, hinner⟩ := Option.bind_eq_some_iff.mp hpayload
        rw [Option.map_some, ← hfaithful.value v rfl, optionGet_of hoption hinner]
    · intro hsame
      obtain ⟨payload, hpayload, hvalue⟩ := Option.map_eq_some_iff.mp hsame
      obtain ⟨option, hoption, hinner⟩ := Option.bind_eq_some_iff.mp hpayload
      refine ⟨?_, ?_, ?_, ?_⟩
      · rw [optionIsPresent_of hoption, hinner]
        rfl
      · intro w hw
        rw [optionGet_of hoption hinner, hvalue, Option.some.inj hw]
      · intro w fallback hw
        rw [optionGetOr_of hoption hinner, hvalue, Option.some.inj hw]
      · exact fun hnone => nomatch hnone
  | none =>
    dsimp only
    have habsent : optionIsPresent r host = false ↔
        host.payloadAt r = none ∧ (host.findOption r = none → r = 0) := by
      unfold optionIsPresent payloadAt
      cases host.findOption r with
      | none => simp
      | some option => simp
    constructor
    · intro hfaithful
      obtain ⟨hpayload, hzero⟩ := habsent.mp hfaithful.present
      exact ⟨hpayload, hzero, fun _ => hfaithful.absent rfl⟩
    · rintro ⟨hpayload, hzero, hnamed⟩
      have hnone : ∀ v, (none : Option RuntimeValue) ≠ some v := fun v h => nomatch h
      refine ⟨habsent.mpr ⟨hpayload, hzero⟩, fun v hv => absurd hv (hnone v),
        fun v _ hv => absurd hv (hnone v), ?_⟩
      intro _
      by_cases hnames : host.Names r
      · exact hnamed hnames
      · have hoption : host.findOption r = none := by
          simp only [Names, not_or, Option.not_isSome_iff_eq_none] at hnames
          exact hnames.2.2.2.2.2
        rw [hzero hoption] at hnames ⊢
        exact displaysAs_unnamed hnames

end Faithful

namespace IndexRead

/-- The host with the lists `[0, 7]` of 32-bit and `[0]` of 64-bit integers, at the
    handles 0 and 1. -/
def listHost : HostState Unit Unit :=
  { (HostState.new : HostState Unit Unit) with
    collections := [⟨false, ValueKinds.counted.i32, [.i32 0, .i32 7]⟩,
      ⟨false, ValueKinds.counted.i64, [.i64 0]⟩]
    nextDynamic := 2
    dynamic := (∅ : BTreeMap UInt32 (DynamicValue Unit Unit)).insert 0 (.collection 0)
      |>.insert 1 (.collection 1) }

def plainDialect : Dialect := ⟨.dev, .counted, ⟨fun _ => "", fun _ => ""⟩, none⟩

end IndexRead

end FaberHosts.Wasm
