import FaberHosts.Wasm.IndexReads

/-!
# The rows of a list

`imports.rs`: the rows that make, change and read a list.  An `octeti` unifies with a list
of bytes in the rows that fall back to its payload; what each row does to an octeti is
compared with what it does to a list of the same bytes.
-/

namespace FaberHosts.Wasm
open FaberHosts.Lib

namespace HostState

variable {κ μ : Type}

/-- Change the payload of an interned octeti row through `resolve_octeti_mut`. -/
def modifyOcteti (handle : UInt32) (f : List UInt8 → List UInt8) (host : HostState κ μ) :
    HostState κ μ :=
  match (handleIndex handle).bind (host.rows[·]?) with
  | some row =>
    if row.kind = .octeti then
      { host with octetiArena := host.octetiArena.modify row.arena.toNat f }
    else host
  | none => host

def arrayNew (T : Toolchain) (kind : UInt32) : Call (HostState κ μ) String UInt32 :=
  Call.infallible (allocCollection T · false kind [])

def arrayPush (kinds : ValueKinds) (handle : UInt32) (value : UInt64) :
    Call (HostState κ μ) String UInt32 := do
  let host ← Call.get
  match host.findCollection handle with
  | some collection =>
    match valueFromI64 kinds collection.kind value with
    | none =>
      Call.throw
        s!"array_push handle {showI32 handle}: unknown element kind {collection.kind.toNat}"
    | some value => do
      Call.modify (modifyCollection handle (fun c => { c with values := c.values ++ [value] }))
      return handle
  | none =>
  match host.resolveOcteti handle with
  | some _ => do
    Call.modify (modifyOcteti handle (· ++ [value.toUInt8]))
    return handle
  | none => Call.throw s!"array_push handle {showI32 handle}: unknown collection handle"

/-- The destination is compared with its own kind, so its elements may be of any kind. -/
def arrayExtend (destination source : UInt32) : Call (HostState κ μ) String UInt32 := do
  let host ← Call.get
  match host.findCollection destination, host.findCollection source with
  | some _, some from_ => do
    Call.modify (modifyCollection destination
      (fun c => { c with values := c.values ++ from_.values }))
    return destination
  | _, _ =>
    Call.throw (s!"array_extend {showI32 destination} <- {showI32 source}: " ++
      "unknown collection handle")

/-- A direct read; what is out of range reads as 0. -/
def arrayGet (handle : UInt32) (index : UInt64) : Call (HostState κ μ) String UInt64 := do
  let host ← Call.get
  match host.findCollection handle with
  | some collection =>
    return (((usizeOfI64 index).bind (collection.values[·]?)).map valueToI64).getD 0
  | none =>
  match host.resolveOcteti handle with
  | some bytes => return (((usizeOfI64 index).bind (bytes[·]?)).map UInt8.toUInt64).getD 0
  | none => Call.throw s!"array_get handle {showI32 handle}: unknown collection handle"

def arrayIsEmpty (handle : UInt32) : Call (HostState κ μ) String Bool := do
  let host ← Call.get
  match host.findCollection handle with
  | some collection => return collection.values.isEmpty
  | none =>
  match host.findMap handle with
  | some map => return map.entries.isEmpty
  | none => Call.throw s!"array_is_empty handle {showI32 handle}: unknown collection handle"

def arrayReverse (handle : UInt32) : Call (HostState κ μ) String Unit := do
  let host ← Call.get
  match host.findCollection handle with
  | some _ =>
    Call.modify (modifyCollection handle (fun c => { c with values := c.values.reverse }))
  | none => Call.throw s!"array_reverse handle {showI32 handle}: unknown collection handle"

/-- The order of two values on their carriers. -/
def carrierLe (a b : RuntimeValue) : Bool :=
  (valueToI64 a).toBitVec.toInt ≤ (valueToI64 b).toBitVec.toInt

def arraySort (handle : UInt32) : Call (HostState κ μ) String UInt32 := do
  let host ← Call.get
  match host.findCollection handle with
  | some _ => do
    Call.modify (modifyCollection handle
      (fun c => { c with values := c.values.mergeSort carrierLe }))
    return handle
  | none => Call.throw s!"array_sort handle {showI32 handle}: unknown collection handle"

def arraySum (handle : UInt32) : Call (HostState κ μ) String UInt64 := do
  let host ← Call.get
  match host.findCollection handle with
  | some collection => return collection.values.foldl (fun sum value => sum + valueToI64 value) 0
  | none => Call.throw s!"array_sum handle {showI32 handle}: unknown collection handle"

/-! ## What a change leaves -/

section Changes

variable {host : HostState κ μ} {handle : UInt32}

theorem findCollection_modify {collection : CollectionValue}
    (h : host.findCollection handle = some collection) (f : CollectionValue → CollectionValue) :
    (modifyCollection handle f host).findCollection handle = some (f collection) := by
  unfold findCollection at h
  unfold modifyCollection
  cases hdyn : host.dynamic[handle]? with
  | none => simp [hdyn] at h
  | some value =>
    cases value with
    | collection index =>
      rw [hdyn] at h
      unfold findCollection
      dsimp only at h ⊢
      rw [hdyn]
      simp [h]
    | _ => simp [hdyn] at h

theorem resolveOcteti_modify {bytes : List UInt8} (h : host.resolveOcteti handle = some bytes)
    (f : List UInt8 → List UInt8) :
    (modifyOcteti handle f host).resolveOcteti handle = some (f bytes) := by
  unfold resolveOcteti at h
  obtain ⟨index, hindex, hrow⟩ := Option.bind_eq_some_iff.mp h
  cases hfound : host.rows[index]? with
  | none =>
    rw [hfound] at hrow
    cases hrow
  | some row =>
    rw [hfound] at hrow
    dsimp only at hrow
    split at hrow
    next hkind =>
      unfold modifyOcteti resolveOcteti
      rw [hindex]
      simp only [Option.bind_some, hfound, if_pos hkind]
      simp [hrow]
    next => cases hrow

theorem find_of_literal (h : host.dynamic[handle]? = none) :
    host.findCollection handle = none ∧ host.findMap handle = none := by
  unfold findCollection findMap
  rw [h]
  exact ⟨rfl, rfl⟩

end Changes

end HostState

/-! ## Octeti and lists of bytes -/

open HostState

/-- The rows on a list, with the arguments that follow it. -/
inductive ListRow where
  | push (value : UInt64)
  | length
  | get (index : UInt64)
  | option (key : UInt64)
  | contains (value : UInt64)
  | isEmpty
  | reverse
  | sort
  | sum
  deriving DecidableEq, Repr

/-- What a row returns. -/
inductive RowResult where
  | receiver (handle : UInt32)
  | i64 (value : UInt64)
  | i32 (value : UInt32)
  | flag (value : Bool)
  | nothing
  deriving DecidableEq, Repr

namespace ListRow

variable {κ μ : Type} (T : Toolchain) (kinds : ValueKinds)

def run (handle : UInt32) : ListRow → Call (HostState κ μ) String RowResult
  | push value => do
    let handle ← arrayPush kinds handle value
    return .receiver handle
  | length => do
    let value ← arrayLength handle
    return .i64 value
  | get index => do
    let value ← arrayGet handle index
    return .i64 value
  | option key => do
    let value ← arrayOption T kinds handle key
    return .i32 value
  | contains value => do
    let value ← arrayContains kinds handle value
    return .flag value
  | isEmpty => do
    let value ← arrayIsEmpty handle
    return .flag value
  | reverse => do
    arrayReverse handle
    return .nothing
  | sort => do
    let handle ← arraySort handle
    return .receiver handle
  | sum => do
    let value ← arraySum handle
    return .i64 value

end ListRow

/-- The elements of a list of bytes. -/
def elements (bytes : List UInt8) : List RuntimeValue := bytes.map (fun b => .i32 b.toUInt32)

/-- The octeti holds the bytes after one run, and the list after the other. -/
def SameContents {κ μ : Type} (kinds : ValueKinds) (octeti list : UInt32)
    (host host' : HostState κ μ) : Prop :=
  ∃ bytes, host.resolveOcteti octeti = some bytes ∧
    host'.findCollection list = some ⟨false, kinds.u8, elements bytes⟩

/-- An interned octeti and a list of the kind `u8` hold the same bytes.  Handles of dynamic
    values start after the last row, and a vector has at most `isize::MAX` bytes. -/
structure SameBytes {κ μ : Type} (kinds : ValueKinds) (host : HostState κ μ)
    (octeti list : UInt32) (bytes : List UInt8) : Prop where
  payload : host.resolveOcteti octeti = some bytes
  literal : host.dynamic[octeti]? = none
  values : host.findCollection list = some ⟨false, kinds.u8, elements bytes⟩
  fits : bytes.length < 2 ^ 63

/-- Results correspond when they are equal, or when each is its own receiver. -/
def RowResult.Corresponds (octeti list : UInt32) : RowResult → RowResult → Prop
  | .receiver a, .receiver b => a = octeti ∧ b = list
  | a, b => a = b

/-- The row succeeds on both or on neither, with corresponding results and contents. -/
def ListRow.Unifies {κ μ : Type} (T : Toolchain) (kinds : ValueKinds) (host : HostState κ μ)
    (octeti list : UInt32) (row : ListRow) : Prop :=
  match row.run T kinds octeti host, row.run T kinds list host with
  | some (.ok a, s), some (.ok b, t) =>
    a.Corresponds octeti list b ∧ SameContents kinds octeti list s t
  | some (.error _, s), some (.error _, t) => SameContents kinds octeti list s t
  | _, _ => False

/-- The arguments with which a row does not tell an octeti from a list: the rows without a
    fallback have none, a byte is pushed, and an element is asked for by its index. -/
def ListRow.BytesOnly (bytes : List UInt8) : ListRow → Prop
  | push value => value.toUInt32.toNat < 256
  | length => True
  | get _ => True
  | option key =>
    (key = firstKey → ∀ b ∈ bytes.head?, b = 0) ∧ (key = lastKey → ∀ b ∈ bytes.getLast?, b = 0) ∧
      (key = removeFirstKey ∨ key = removeLastKey → bytes = [])
  | contains _ => False
  | isEmpty => False
  | reverse => False
  | sort => False
  | sum => False

section Unify

variable {κ μ : Type} {T : Toolchain} {kinds : ValueKinds} {host s t : HostState κ μ}
  {octeti list : UInt32} {bytes : List UInt8}

theorem signExtend_byte (b : UInt8) : signExtend b.toUInt32 = b.toUInt64 := by
  rw [← UInt64.toBitVec_inj]
  simp only [signExtend, UInt8.toBitVec_toUInt32, UInt8.toBitVec_toUInt64]
  rw [BitVec.signExtend_eq_setWidth_of_msb_false]
  · simp
  · simp [BitVec.msb_setWidth]

theorem valueFromI64_u8 (value : UInt64) :
    valueFromI64 kinds kinds.u8 value = some (.i32 value.toUInt32) := by
  have hne : kinds.u8 ≠ kinds.i1 := kinds.ne 5 0 (by decide)
  unfold valueFromI64
  rw [if_neg hne, if_pos (by simp [ValueKinds.words])]

theorem elements_getElem? (bytes : List UInt8) (i : Nat) :
    (elements bytes)[i]? = bytes[i]?.map (fun b => .i32 b.toUInt32) := List.getElem?_map

theorem sameContents_iff (hoct : s.resolveOcteti octeti = some bytes) {values : List RuntimeValue}
    (hlist : t.findCollection list = some ⟨false, kinds.u8, values⟩) :
    SameContents kinds octeti list s t ↔ values = elements bytes := by
  unfold SameContents
  rw [hoct, hlist]
  simp

theorem SameBytes.sameContents (h : SameBytes kinds host octeti list bytes) :
    SameContents kinds octeti list host host := ⟨bytes, h.payload, h.values⟩

theorem not_unifies_of_error {row : ListRow}
    (hoct : ∃ e s, row.run T kinds octeti host = some (.error e, s))
    (hlist : ∃ a t, row.run T kinds list host = some (.ok a, t)) :
    ¬ row.Unifies T kinds host octeti list := by
  obtain ⟨e, s, hoct⟩ := hoct
  obtain ⟨a, t, hlist⟩ := hlist
  unfold ListRow.Unifies
  rw [hoct, hlist]
  exact not_false

theorem unifies_ok_iff {row : ListRow} {a b : RowResult}
    (hoct : row.run T kinds octeti host = some (.ok a, s))
    (hlist : row.run T kinds list host = some (.ok b, t)) :
    row.Unifies T kinds host octeti list ↔
      a.Corresponds octeti list b ∧ SameContents kinds octeti list s t := by
  unfold ListRow.Unifies
  rw [hoct, hlist]

/-! ## The rows, one by one -/

variable (h : SameBytes kinds host octeti list bytes)

include h in
theorem unifies_push_iff (value : UInt64) :
    (ListRow.push value).Unifies T kinds host octeti list ↔ value.toUInt32.toNat < 256 := by
  obtain ⟨hcollection, -⟩ := find_of_literal h.literal
  have hoct : (ListRow.push value).run T kinds octeti host =
      some (.ok (.receiver octeti), modifyOcteti octeti (· ++ [value.toUInt8]) host) := by
    simp only [ListRow.run, arrayPush, bind, Call.get, hcollection, h.payload, Call.modify]
    rfl
  have hlist : (ListRow.push value).run T kinds list host =
      some (.ok (.receiver list), modifyCollection list
        (fun c => { c with values := c.values ++ [.i32 value.toUInt32] }) host) := by
    simp only [ListRow.run, arrayPush, bind, Call.get, h.values, valueFromI64_u8, Call.modify]
    rfl
  rw [unifies_ok_iff hoct hlist, sameContents_iff (resolveOcteti_modify h.payload _)
    (findCollection_modify h.values _)]
  simp only [RowResult.Corresponds, and_self, true_and, elements, List.map_append, List.map_cons,
    List.map_nil, List.append_cancel_left_eq, List.cons.injEq, RuntimeValue.i32.injEq, and_true]
  rw [← UInt32.toNat_inj]
  simp
  omega

include h in
theorem unifies_length : ListRow.length.Unifies T kinds host octeti list := by
  obtain ⟨hcollection, hmap⟩ := find_of_literal h.literal
  have hoct : ListRow.length.run T kinds octeti host =
      some (.ok (.i64 (UInt64.ofNat bytes.length)), host) := by
    simp only [ListRow.run, arrayLength, bind, Call.get, hcollection, hmap, h.payload, Call.value,
      Call.lift, lengthI64, if_pos h.fits]
    rfl
  have hlist : ListRow.length.run T kinds list host =
      some (.ok (.i64 (UInt64.ofNat bytes.length)), host) := by
    have hfits : (elements bytes).length < 2 ^ 63 := by simpa [elements] using h.fits
    simp only [ListRow.run, arrayLength, bind, Call.get, h.values, Call.value, Call.lift,
      lengthI64, if_pos hfits]
    simp [elements]
    rfl
  exact (unifies_ok_iff hoct hlist).mpr ⟨rfl, h.sameContents⟩

include h in
theorem unifies_get (index : UInt64) :
    (ListRow.get index).Unifies T kinds host octeti list := by
  obtain ⟨hcollection, -⟩ := find_of_literal h.literal
  have hread : (((usizeOfI64 index).bind ((elements bytes)[·]?)).map valueToI64).getD 0 =
      (((usizeOfI64 index).bind (bytes[·]?)).map UInt8.toUInt64).getD 0 := by
    cases usizeOfI64 index with
    | none => rfl
    | some i =>
      simp only [Option.bind_some, elements_getElem?, Option.map_map]
      cases bytes[i]? with
      | none => rfl
      | some b => simp [valueToI64, signExtend_byte]
  have hoct : (ListRow.get index).run T kinds octeti host =
      some (.ok (.i64 ((((usizeOfI64 index).bind (bytes[·]?)).map UInt8.toUInt64).getD 0)),
        host) := by
    simp only [ListRow.run, arrayGet, bind, Call.get, hcollection, h.payload]
    rfl
  have hlist : (ListRow.get index).run T kinds list host =
      some (.ok (.i64 ((((usizeOfI64 index).bind (bytes[·]?)).map UInt8.toUInt64).getD 0)),
        host) := by
    simp only [ListRow.run, arrayGet, bind, Call.get, h.values, hread]
    rfl
  exact (unifies_ok_iff hoct hlist).mpr ⟨rfl, h.sameContents⟩

/-- What an option read leaves of the elements. -/
def remaining (values : List RuntimeValue) (key : UInt64) : List RuntimeValue :=
  if key = removeLastKey then values.dropLast
  else if key = removeFirstKey then values.tail
  else values

include h in
theorem option_octeti (key : UInt64) : (ListRow.option key).run T kinds octeti host =
    some (.ok (.i32 (rawHandle (octetiElement bytes key))), host) := by
  obtain ⟨hcollection, hmap⟩ := find_of_literal h.literal
  have hrow : arrayOption T kinds octeti key host =
      some (.ok (rawHandle (octetiElement bytes key)), host) := by
    rw [IndexRead.array_octeti hcollection hmap h.payload, optionResult_raw kinds.u8_notMem_boxed]
  simp only [ListRow.run, bind, hrow]
  rfl

include h in
theorem option_list (key : UInt64) : ∃ host', (ListRow.option key).run T kinds list host =
    some (.ok (.i32 (rawHandle (IndexRead.lookupElement (elements bytes) key))), host') ∧
      host'.findCollection list = some ⟨false, kinds.u8, remaining (elements bytes) key⟩ := by
  have hrow : ∃ host', arrayOption T kinds list key host =
      some (.ok (rawHandle (IndexRead.lookupElement (elements bytes) key)), host') ∧
        host'.findCollection list = some ⟨false, kinds.u8, remaining (elements bytes) key⟩ := by
    unfold arrayOption IndexRead.lookupElement remaining
    rw [Call.get_bind, h.values]
    dsimp only
    by_cases hlast : key = removeLastKey
    · simp only [if_pos hlast, Call.modify_bind, optionResult_raw kinds.u8_notMem_boxed]
      exact ⟨_, rfl, findCollection_modify h.values _⟩
    by_cases hfirst : key = removeFirstKey
    · simp only [if_neg hlast, if_pos hfirst, Call.modify_bind,
        optionResult_raw kinds.u8_notMem_boxed]
      exact ⟨_, rfl, findCollection_modify h.values _⟩
    · simp only [if_neg hlast, if_neg hfirst, optionResult_raw kinds.u8_notMem_boxed]
      exact ⟨_, rfl, h.values⟩
  obtain ⟨host', hrow, hkept⟩ := hrow
  refine ⟨host', ?_, hkept⟩
  simp only [ListRow.run, bind, hrow]
  rfl

theorem rawHandle_byte (b : Option UInt8) :
    rawHandle (b.map (fun b => .i32 b.toUInt32)) = 0 ↔ ∀ c ∈ b, c = 0 := by
  cases b with
  | none => simp [rawHandle]
  | some b =>
    simp only [Option.map_some, rawHandle, valueToI64, toUInt32_signExtend, Option.mem_some_iff,
      forall_eq']
    rw [← UInt8.toUInt32_inj]
    simp

theorem rawHandle_sentinel {key : UInt64} (hkey : usizeOfI64 key = none) :
    rawHandle (octetiElement bytes key) = 0 := by
  unfold octetiElement
  rw [hkey]
  rfl

theorem lookupElement_index {key : UInt64} (hfits : bytes.length < 2 ^ 63)
    (hfirst : key ≠ firstKey) (hlast : key ≠ lastKey) (hremoveFirst : key ≠ removeFirstKey)
    (hremoveLast : key ≠ removeLastKey) :
    IndexRead.lookupElement (elements bytes) key = octetiElement bytes key := by
  have hlength : (elements bytes).length ≤ wordMax := by
    have : wordMax = 2 ^ 64 - 1 := rfl
    simp only [elements, List.length_map]
    omega
  rw [lookupElement_eq hlength]
  unfold listElement octetiElement
  rw [if_neg (by simp [hfirst, hremoveFirst]), if_neg (by simp [hlast, hremoveLast])]
  cases usizeOfI64 key with
  | none => rfl
  | some i => simp [elements_getElem?]

theorem lookupElement_removed (bytes : List UInt8) :
    IndexRead.lookupElement (elements bytes) removeFirstKey =
        bytes.head?.map (fun b => .i32 b.toUInt32) ∧
      IndexRead.lookupElement (elements bytes) removeLastKey =
        bytes.getLast?.map (fun b => .i32 b.toUInt32) := by
  unfold IndexRead.lookupElement elements
  rw [if_neg (by decide), if_pos rfl, if_pos rfl, List.head?_map, List.getLast?_map]
  exact ⟨rfl, rfl⟩

theorem lookupElement_ends (bytes : List UInt8) :
    IndexRead.lookupElement (elements bytes) firstKey =
        bytes.head?.map (fun b => .i32 b.toUInt32) ∧
      IndexRead.lookupElement (elements bytes) lastKey =
        bytes.getLast?.map (fun b => .i32 b.toUInt32) := by
  unfold IndexRead.lookupElement elementOf
  rw [if_neg (by decide), if_neg (by decide), if_pos rfl, if_neg (by decide), if_neg (by decide),
    if_neg (by decide), if_pos rfl]
  simp only [elements, List.length_map, List.getElem?_map, List.head?_eq_getElem?,
    List.getLast?_eq_getElem?, and_self]

theorem tail_eq_self {α : Type} {xs : List α} (heq : xs.tail = xs) : xs = [] := by
  have hlength := congrArg List.length heq
  rw [List.length_tail] at hlength
  exact List.eq_nil_of_length_eq_zero (by omega)

theorem dropLast_eq_self {α : Type} {xs : List α} (heq : xs.dropLast = xs) : xs = [] := by
  have hlength := congrArg List.length heq
  rw [List.length_dropLast] at hlength
  exact List.eq_nil_of_length_eq_zero (by omega)

theorem elements_eq_nil (heq : elements bytes = []) : bytes = [] := List.map_eq_nil_iff.mp heq

include h in
theorem unifies_option_iff (key : UInt64) : (ListRow.option key).Unifies T kinds host octeti list ↔
    (ListRow.option key).BytesOnly bytes := by
  obtain ⟨host', hlist, hkept⟩ := option_list (T := T) h key
  rw [unifies_ok_iff (option_octeti h key) hlist, sameContents_iff h.payload hkept]
  simp only [RowResult.Corresponds, RowResult.i32.injEq, ListRow.BytesOnly]
  by_cases hfirst : key = firstKey
  · subst hfirst
    rw [rawHandle_sentinel rfl, (lookupElement_ends bytes).1, eq_comm, rawHandle_byte]
    simp [remaining, firstKey, lastKey, removeFirstKey, removeLastKey]
  by_cases hlast : key = lastKey
  · subst hlast
    rw [rawHandle_sentinel rfl, (lookupElement_ends bytes).2, eq_comm, rawHandle_byte]
    simp [remaining, firstKey, lastKey, removeFirstKey, removeLastKey]
  by_cases hremoveFirst : key = removeFirstKey
  · subst hremoveFirst
    rw [rawHandle_sentinel rfl, (lookupElement_removed bytes).1, eq_comm, rawHandle_byte]
    constructor
    · rintro ⟨-, heq⟩
      exact ⟨nofun, nofun, fun _ => elements_eq_nil (tail_eq_self heq)⟩
    · rintro ⟨-, -, hempty⟩
      rw [hempty (Or.inl rfl)]
      exact ⟨nofun, rfl⟩
  by_cases hremoveLast : key = removeLastKey
  · subst hremoveLast
    rw [rawHandle_sentinel rfl, (lookupElement_removed bytes).2, eq_comm, rawHandle_byte]
    constructor
    · rintro ⟨-, heq⟩
      exact ⟨nofun, nofun, fun _ => elements_eq_nil (dropLast_eq_self heq)⟩
    · rintro ⟨-, -, hempty⟩
      rw [hempty (Or.inr rfl)]
      exact ⟨nofun, rfl⟩
  · rw [lookupElement_index h.fits hfirst hlast hremoveFirst hremoveLast]
    simp [remaining, hfirst, hlast, hremoveFirst, hremoveLast]

include h in
/-- The rows that only look for a collection or a map fail on the octeti. -/
theorem not_unifies_rows (value : UInt64) :
    ¬ (ListRow.contains value).Unifies T kinds host octeti list ∧
      ¬ ListRow.isEmpty.Unifies T kinds host octeti list ∧
      ¬ ListRow.reverse.Unifies T kinds host octeti list ∧
      ¬ ListRow.sort.Unifies T kinds host octeti list ∧
      ¬ ListRow.sum.Unifies T kinds host octeti list := by
  obtain ⟨hcollection, hmap⟩ := find_of_literal h.literal
  refine ⟨?contains, ?isEmpty, ?reverse, ?sort, ?sum⟩
  case contains =>
    apply not_unifies_of_error
    · simp only [ListRow.run, arrayContains, bind, Call.get, hcollection, hmap]
      exact ⟨_, _, rfl⟩
    · simp only [ListRow.run, arrayContains, bind, Call.get, h.values, valueFromI64_u8]
      exact ⟨_, _, rfl⟩
  case isEmpty =>
    apply not_unifies_of_error
    · simp only [ListRow.run, arrayIsEmpty, bind, Call.get, hcollection, hmap]
      exact ⟨_, _, rfl⟩
    · simp only [ListRow.run, arrayIsEmpty, bind, Call.get, h.values]
      exact ⟨_, _, rfl⟩
  case reverse =>
    apply not_unifies_of_error
    · simp only [ListRow.run, arrayReverse, bind, Call.get, hcollection]
      exact ⟨_, _, rfl⟩
    · simp only [ListRow.run, arrayReverse, bind, Call.get, h.values]
      exact ⟨_, _, rfl⟩
  case sort =>
    apply not_unifies_of_error
    · simp only [ListRow.run, arraySort, bind, Call.get, hcollection]
      exact ⟨_, _, rfl⟩
    · simp only [ListRow.run, arraySort, bind, Call.get, h.values]
      exact ⟨_, _, rfl⟩
  case sum =>
    apply not_unifies_of_error
    · simp only [ListRow.run, arraySum, bind, Call.get, hcollection]
      exact ⟨_, _, rfl⟩
    · simp only [ListRow.run, arraySum, bind, Call.get, h.values]
      exact ⟨_, _, rfl⟩

end Unify

/-- A row does not tell an octeti from the list of its bytes exactly when it has a fallback
    and its arguments keep to the bytes. -/
theorem octeti_unifies_iff {κ μ : Type} (T : Toolchain) (kinds : ValueKinds)
    (host : HostState κ μ) (octeti list : UInt32) (bytes : List UInt8)
    (h : SameBytes kinds host octeti list bytes) (row : ListRow) :
    row.Unifies T kinds host octeti list ↔ row.BytesOnly bytes := by
  cases row with
  | push value => exact unifies_push_iff h value
  | length => exact iff_of_true (unifies_length h) trivial
  | get index => exact iff_of_true (unifies_get h index) trivial
  | option key => exact unifies_option_iff h key
  | contains value => exact iff_of_false (not_unifies_rows h value).1 not_false
  | isEmpty => exact iff_of_false (not_unifies_rows h 0).2.1 not_false
  | reverse => exact iff_of_false (not_unifies_rows h 0).2.2.1 not_false
  | sort => exact iff_of_false (not_unifies_rows h 0).2.2.2.1 not_false
  | sum => exact iff_of_false (not_unifies_rows h 0).2.2.2.2 not_false

/-- A host whose literal 2 is the octeti `[7]`, with a list of the same byte. -/
def byteHost : HostState Unit Unit :=
  { (HostState.new : HostState Unit Unit) with
    octetiArena := [[7]]
    rows := [⟨.octeti, 0⟩, ⟨.octeti, 0⟩, ⟨.octeti, 0⟩]
    collections := [⟨false, ValueKinds.counted.u8, [.i32 7]⟩]
    nextDynamic := 4
    dynamic := (∅ : BTreeMap UInt32 (DynamicValue Unit Unit)).insert 3 (.collection 0) }

theorem byteHost_sameBytes : SameBytes .counted byteHost 2 3 [7] where
  payload := rfl
  literal := rfl
  values := rfl
  fits := by decide

theorem byteHost_push_unifies :
    (ListRow.push 200).Unifies .dev .counted byteHost 2 3 :=
  (octeti_unifies_iff .dev .counted byteHost 2 3 [7] byteHost_sameBytes (.push 200)).mpr
    (show (200 : UInt64).toUInt32.toNat < 256 by decide)

/-- `continet` of the octeti `[7]` fails, that of the list `[7]` answers. -/
theorem byteHost_contains_differs :
    SameBytes .counted byteHost 2 3 [7] ∧
      ¬ (ListRow.contains 7).Unifies .dev .counted byteHost 2 3 :=
  ⟨byteHost_sameBytes, not_unifies_of_error ⟨_, _, rfl⟩ ⟨_, _, rfl⟩⟩

end FaberHosts.Wasm
