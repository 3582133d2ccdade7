import FaberHosts.Lib.Keyed
import FaberHosts.Lib.Words
import FaberHosts.Wasm.IndexReads

/-!
# The rows of a map

A map after a history of `map_put` and `map_delete`: what `array_contains`,
`array_option`, `array_length` and `map_keys` answer, beside the finite map that the
history records.
-/

namespace FaberHosts.Wasm
open FaberHosts.Lib

/-- A change to a map. -/
inductive MapOp where
  | put (key : UInt32) (value : UInt64)
  | delete (key : UInt64)
  deriving DecidableEq, Repr

namespace MapOp

variable {κ μ : Type} (kinds : ValueKinds)

def row (handle : UInt32) : MapOp → Call (HostState κ μ) String Unit
  | put key value => HostState.mapPut kinds handle key value
  | delete key => do
    let _ ← HostState.mapDelete kinds handle key
    return ()

/-- The host after a change; a row that traps leaves it as it is. -/
def run (handle : UInt32) (host : HostState κ μ) (op : MapOp) : HostState κ μ :=
  (op.row kinds handle host).elim host Prod.snd

/-- The host after a history. -/
def runAll (handle : UInt32) (history : List MapOp) (host : HostState κ μ) : HostState κ μ :=
  history.foldl (run kinds handle) host

/-- What a change records: a value that the value kind cannot carry is not put. -/
def record (keyKind valueKind : UInt32) (m : Finmap (fun _ : RuntimeValue => RuntimeValue)) :
    MapOp → Finmap (fun _ : RuntimeValue => RuntimeValue)
  | put key value =>
    match valueFromI64 kinds valueKind value with
    | some value => m.insert (HostState.keyOf kinds keyKind (signExtend key)) value
    | none => m
  | delete key => m.erase (HostState.keyOf kinds keyKind key)

/-- The finite map a history records. -/
def recorded (keyKind valueKind : UInt32) (history : List MapOp) :
    Finmap (fun _ : RuntimeValue => RuntimeValue) :=
  history.foldl (record kinds keyKind valueKind) ∅

/-- The entries of a map after a change. -/
def entriesAfter (keyKind valueKind : UInt32) (entries : List (RuntimeValue × RuntimeValue)) :
    MapOp → List (RuntimeValue × RuntimeValue)
  | put key value =>
    match valueFromI64 kinds valueKind value with
    | some value =>
      assign runtimeValueEq entries (HostState.keyOf kinds keyKind (signExtend key)) value
    | none => entries
  | delete key =>
    entries.filter (fun entry =>
      !runtimeValueEq entry.1 (HostState.keyOf kinds keyKind key))

end MapOp

open HostState

/-- The rows answer by a finite map: the lookups find its keys, the option of a key tells
    its value, the length is its size and the list of its keys has their kind. -/
structure MapAnswers {κ μ : Type} (d : Dialect) (host : HostState κ μ) (handle keyKind : UInt32)
    (m : Finmap (fun _ : RuntimeValue => RuntimeValue)) : Prop where
  contains : ∀ key, arrayContains d.kinds handle key host =
    some (.ok (decide (keyOf d.kinds keyKind key ∈ m)), host)
  option : ∀ key, ∃ r host', arrayOption d.toolchain d.kinds handle key host =
      some (.ok r, host') ∧
    optionIsPresent r host' = (m.lookup (keyOf d.kinds keyKind key)).isSome ∧
    ∀ v, m.lookup (keyOf d.kinds keyKind key) = some v → optionGet r host' = valueToI64 v
  length : ∃ n, arrayLength handle host = some (.ok n, host) ∧ n.toNat = m.keys.card
  keys : ∃ r host' keys, mapKeys d.toolchain d.kinds handle host = some (.ok r, host') ∧
    host'.findCollection r = some ⟨false, keyKind, keys⟩ ∧ keys.Nodup ∧ ∀ key, key ∈ keys ↔ key ∈ m

/-- The option of a value, or of none, is told from the other values of its kind: the kind
    is boxed, or the value is not 0 and not the handle of an option that holds another
    value, and no option that is present has the handle 0. -/
def OptionTold {κ μ : Type} (kinds : ValueKinds) (host : HostState κ μ) (kind : UInt32)
    (payload : Option RuntimeValue) : Prop :=
  kind ∈ kinds.boxed ∨
    match payload with
    | some v =>
      match host.findOption (rawHandle (some v)) with
      | some option => option.payload.map valueToI64 = some (valueToI64 v)
      | none => rawHandle (some v) ≠ 0
    | none => host.payloadAt 0 = none

section Steps

variable {κ μ : Type} {kinds : ValueKinds} {host : HostState κ μ} {map : MapValue}
  {handle keyKind valueKind : UInt32} {entries : List (RuntimeValue × RuntimeValue)}

theorem modifyMap_eq (h : host.findMap handle = some map) (f : MapValue → MapValue) :
    ∃ maps, modifyMap handle f host = { host with maps := maps } ∧
      (modifyMap handle f host).findMap handle = some (f map) := by
  unfold findMap at h
  unfold modifyMap
  cases hdyn : host.dynamic[handle]? with
  | none => simp [hdyn] at h
  | some value =>
    cases value with
    | map index =>
      rw [hdyn] at h
      refine ⟨host.maps.modify index f, rfl, ?_⟩
      unfold findMap
      dsimp only at h ⊢
      rw [hdyn]
      simp [h]
    | _ => simp [hdyn] at h

theorem findCollection_of_map (h : host.findMap handle = some map) :
    host.findCollection handle = none := by
  unfold findMap at h
  unfold findCollection
  cases hdyn : host.dynamic[handle]? with
  | none => rfl
  | some value =>
    rw [hdyn] at h
    cases value with
    | map index => rfl
    | _ => cases h

theorem MapOp.run_spec (kinds : ValueKinds)
    (h : host.findMap handle = some ⟨keyKind, valueKind, entries⟩)
    (op : MapOp) :
    ∃ maps, op.run kinds handle host = { host with maps := maps } ∧
      (op.run kinds handle host).findMap handle =
        some ⟨keyKind, valueKind, op.entriesAfter kinds keyKind valueKind entries⟩ := by
  suffices hrun : op.run kinds handle host = host ∧
      op.entriesAfter kinds keyKind valueKind entries = entries ∨
      op.run kinds handle host = modifyMap handle (fun map =>
        { map with entries := op.entriesAfter kinds keyKind valueKind entries }) host by
    rcases hrun with ⟨hsame, hentries⟩ | hchanged
    · rw [hsame, hentries]
      exact ⟨host.maps, rfl, h⟩
    · rw [hchanged]
      exact modifyMap_eq h _
  cases op with
  | put key value =>
    cases hvalue : valueFromI64 kinds valueKind value with
    | none =>
      refine Or.inl ⟨?_, ?_⟩
      · simp [run, row, mapPut, Call.get_bind, h, hvalue, Call.throw]
      · simp [entriesAfter, hvalue]
    | some value' =>
      right
      simp [run, row, mapPut, Call.get_bind, h, hvalue, Call.modify, entriesAfter]
  | delete key =>
    right
    let kept := (delete key).entriesAfter kinds keyKind valueKind entries
    obtain ⟨removed, hdelete⟩ : ∃ removed, mapDelete kinds handle key host =
        some (Except.ok removed,
          modifyMap handle (fun map => { map with entries := kept }) host) := by
      unfold mapDelete
      rw [Call.get_bind, h]
      exact ⟨_, rfl⟩
    simp [run, row, bind, hdelete, pure, kept]

theorem MapOp.runAll_spec (kinds : ValueKinds)
    (h : host.findMap handle = some ⟨keyKind, valueKind, entries⟩)
    (history : List MapOp) :
    ∃ maps, runAll kinds handle history host = { host with maps := maps } ∧
      (runAll kinds handle history host).findMap handle =
        some ⟨keyKind, valueKind,
          history.foldl (entriesAfter kinds keyKind valueKind) entries⟩ := by
  induction history generalizing host entries with
  | nil => exact ⟨host.maps, rfl, h⟩
  | cons op history ih =>
    obtain ⟨maps, heq, hstep⟩ := op.run_spec kinds h
    obtain ⟨maps', heq', hrun⟩ := ih hstep
    refine ⟨maps', ?_, hrun⟩
    change runAll kinds handle history (op.run kinds handle host) = _
    rw [heq', heq]

end Steps

/-! ## Keys that are handles -/

section Handles

variable {kinds : ValueKinds} {keyKind valueKind : UInt32}
  {entries : List (RuntimeValue × RuntimeValue)}

/-- The keys of a kind are read as handles. -/
def HandleKeys (kinds : ValueKinds) (keyKind : UInt32) : Prop :=
  ∀ key, keyOf kinds keyKind key = .handle key.toUInt32

def IsHandle (value : RuntimeValue) : Prop := ∃ handle, value = .handle handle

theorem handleKeys_text : HandleKeys kinds kinds.text := by
  intro key
  obtain ⟨hi1, hwords, hboxed⟩ := kinds.text_ne_numbers
  simp only [ValueKinds.boxed, List.mem_cons, List.not_mem_nil, or_false, not_or] at hboxed
  unfold keyOf valueFromI64
  rw [if_neg hi1, if_neg hwords, if_neg (by simp [hboxed]), if_neg (by simp [hboxed]),
    if_pos (by simp [ValueKinds.handles])]
  rfl

theorem compares_handles : Compares IsHandle id runtimeValueEq := by
  rintro _ _ ⟨a, rfl⟩ ⟨b, rfl⟩
  simp [runtimeValueEq]

theorem MapOp.entriesAfter_spec (valueKind : UInt32) (hkeys : HandleKeys kinds keyKind)
    (h : DistinctKeys IsHandle id entries) (op : MapOp) :
    DistinctKeys IsHandle id (op.entriesAfter kinds keyKind valueKind entries) ∧
      contents id (op.entriesAfter kinds keyKind valueKind entries) =
        op.record kinds keyKind valueKind (contents id entries) := by
  have hhandle (key) : IsHandle (keyOf kinds keyKind key) := ⟨_, hkeys key⟩
  cases op with
  | put key value =>
    dsimp only [entriesAfter, record]
    cases valueFromI64 kinds valueKind value with
    | none => exact ⟨h, rfl⟩
    | some value =>
      exact ⟨h.assign compares_handles (hhandle _), contents_assign compares_handles h (hhandle _)⟩
  | delete key =>
    exact ⟨h.filter _, contents_filter_not_same compares_handles h (hhandle key)⟩

theorem MapOp.entries_refine (valueKind : UInt32) (hkeys : HandleKeys kinds keyKind)
    (history : List MapOp)
    {m : Finmap (fun _ : RuntimeValue => RuntimeValue)} (h : DistinctKeys IsHandle id entries)
    (hm : contents id entries = m) :
    DistinctKeys IsHandle id (history.foldl (entriesAfter kinds keyKind valueKind) entries) ∧
      contents id (history.foldl (entriesAfter kinds keyKind valueKind) entries) =
        history.foldl (record kinds keyKind valueKind) m := by
  induction history generalizing entries m with
  | nil => exact ⟨h, hm⟩
  | cons op history ih =>
    obtain ⟨hdistinct, hcontents⟩ := entriesAfter_spec valueKind hkeys h op
    exact ih hdistinct (hm ▸ hcontents)

theorem MapOp.recorded_value {history : List MapOp} {key value : RuntimeValue}
    (h : (recorded kinds keyKind valueKind history).lookup key = some value) :
    ∃ bits, valueFromI64 kinds valueKind bits = some value := by
  induction history using List.reverseRecOn generalizing key value with
  | nil => simp [recorded] at h
  | append_singleton history op ih =>
    rw [recorded, List.foldl_append] at h
    change (op.record kinds keyKind valueKind (recorded kinds keyKind valueKind history)).lookup
      key = some value at h
    cases op with
    | put k bits =>
      dsimp only [record] at h
      cases hvalue : valueFromI64 kinds valueKind bits with
      | none =>
        rw [hvalue] at h
        exact ih h
      | some put =>
        rw [hvalue] at h
        dsimp only at h
        by_cases hkey : key = keyOf kinds keyKind (signExtend k)
        · rw [hkey, Finmap.lookup_insert] at h
          exact ⟨bits, hvalue.trans h⟩
        · rw [Finmap.lookup_insert_of_ne _ hkey] at h
          exact ih h
    | delete k =>
      dsimp only [record] at h
      by_cases hkey : key = keyOf kinds keyKind k
      · rw [hkey, Finmap.lookup_erase] at h
        cases h
      · rw [Finmap.lookup_erase_ne hkey] at h
        exact ih h

end Handles

/-! ## The options of values -/

section Options

variable {κ μ : Type} {T : Toolchain} {d : Dialect} {host host' : HostState κ μ}
  {kind r : UInt32} {payload : Option RuntimeValue}

/-- A value of a kind that is not boxed is the sign extension of its `i32`. -/
theorem signExtend_raw {kinds : ValueKinds} {bits : UInt64} {value : RuntimeValue}
    (hkind : kind ∉ kinds.boxed) (h : valueFromI64 kinds kind bits = some value) :
    signExtend (valueToI64 value).toUInt32 = valueToI64 value := by
  simp only [ValueKinds.boxed, List.mem_cons, List.not_mem_nil, or_false, not_or] at hkind
  unfold valueFromI64 at h
  rw [if_neg (c := kind ∈ [kinds.i64, kinds.u64]) (by simp [hkind]),
    if_neg (c := kind ∈ [kinds.f32, kinds.f64]) (by simp [hkind])] at h
  split at h
  · cases h
    cases decide (bits ≠ 0) with
    | false => rfl
    | true => rfl
  · split at h
    · cases h
      simp only [valueToI64, toUInt32_signExtend]
    · split at h
      · cases h
        simp only [valueToI64, toUInt32_signExtend]
      · cases h

theorem optionResult_returns (kinds : ValueKinds) (kind : UInt32)
    (payload : Option RuntimeValue)
    (hnext : (nextHandle T host.nextDynamic).isSome) :
    ∃ r host', optionResult T kinds kind payload host = some (.ok r, host') := by
  by_cases hkind : kind ∈ kinds.boxed
  · obtain ⟨next, hnext⟩ := Option.isSome_iff_exists.mp hnext
    unfold optionResult
    rw [if_pos hkind]
    simp [Call.infallible, allocOption, allocDynamic, hnext]
  · exact ⟨_, _, optionResult_raw hkind⟩

/-- The option of a value of its kind tells the value exactly under `OptionTold`. -/
theorem optionTold_iff
    (hvalue : ∀ v, payload = some v → ∃ bits, valueFromI64 d.kinds kind bits = some v)
    (h : optionResult T d.kinds kind payload host = some (.ok r, host')) :
    (optionIsPresent r host' = payload.isSome ∧
      ∀ v, payload = some v → optionGet r host' = valueToI64 v) ↔
      OptionTold d.kinds host kind payload := by
  unfold OptionTold
  by_cases hkind : kind ∈ d.kinds.boxed
  · obtain ⟨-, hfind, -⟩ := findOption_boxed hkind h
    refine iff_of_true ⟨optionIsPresent_of hfind, fun v hv => ?_⟩ (Or.inl hkind)
    exact optionGet_of hfind hv
  rw [optionResult_raw hkind] at h
  cases h
  simp only [hkind, false_or]
  cases payload with
  | some v =>
    obtain ⟨bits, hbits⟩ := hvalue v rfl
    have hextend := signExtend_raw hkind hbits
    change signExtend (rawHandle (some v)) = _ at hextend
    dsimp only
    generalize rawHandle (some v) = raw at hextend ⊢
    unfold optionIsPresent optionGet
    cases host.findOption raw with
    | none => simp [hextend]
    | some option =>
      cases hpayload : option.payload with
      | none => simp [hpayload]
      | some payload => simp [hpayload]
  | none =>
    change (optionIsPresent 0 host = false ∧ _) ↔ host.payloadAt 0 = none
    unfold optionIsPresent payloadAt
    cases host.findOption 0 with
    | none => simp
    | some option => simp

end Options

/-! ## The answers of a map -/

section Answers

variable {κ μ : Type} {d : Dialect} {host host' : HostState κ μ} {handle r : UInt32}
  {map : MapValue}

theorem arrayContains_of_map {kinds : ValueKinds} {key : UInt64}
    (h : host.findMap handle = some map) :
    arrayContains kinds handle key host =
      some (.ok (map.entries.any (fun entry => entry.1 = .handle key.toUInt32)), host) := by
  unfold arrayContains
  rw [Call.get_bind, findCollection_of_map h, h]
  rfl

theorem arrayLength_of_map {n : UInt64} (h : host.findMap handle = some map)
    (hn : lengthI64 map.entries.length = some n) :
    arrayLength handle host = some (.ok n, host) := by
  unfold arrayLength
  rw [Call.get_bind, findCollection_of_map h, h]
  dsimp only
  rw [hn]
  rfl

theorem mapKeys_of_map (T : Toolchain) (kinds : ValueKinds)
    (h : host.findMap handle = some map) :
    mapKeys T kinds handle host = (nextHandle T host.nextDynamic).map (fun next =>
      (.ok host.nextDynamic,
        { host with
          collections := host.collections ++ [⟨false, kinds.text, map.entries.map Prod.fst⟩]
          nextDynamic := next
          dynamic := host.dynamic.insert host.nextDynamic
            (.collection host.collections.length) })) := by
  unfold mapKeys
  rw [Call.get_bind, h]
  simp only [Call.infallible, allocCollection, allocDynamic, Option.map_map]
  rfl

theorem findCollection_keys {T : Toolchain} {kinds : ValueKinds}
    (h : host.findMap handle = some map)
    (hkeys : mapKeys T kinds handle host = some (.ok r, host')) :
    host'.findCollection r = some ⟨false, kinds.text, map.entries.map Prod.fst⟩ := by
  rw [mapKeys_of_map _ _ h] at hkeys
  obtain ⟨next, -, heq⟩ := Option.map_eq_some_iff.mp hkeys
  cases heq
  simp [findCollection]

variable {keyKind valueKind : UInt32} {entries : List (RuntimeValue × RuntimeValue)}

theorem lookupHandle_contents {kinds : ValueKinds} {key : UInt64}
    (hkeys : HandleKeys kinds keyKind) (hdistinct : DistinctKeys IsHandle id entries) :
    lookupHandle ⟨keyKind, valueKind, entries⟩ key =
      (contents id entries).lookup (.handle key.toUInt32) := by
  rw [lookupHandle_eq (hkeys key)]
  unfold mapElement
  rw [hkeys key]
  exact findValue_eq_lookup compares_handles hdistinct ⟨_, rfl⟩

theorem mem_contents {key : RuntimeValue} :
    key ∈ contents id entries ↔ key ∈ entries.map Prod.fst := by
  rw [← Finmap.mem_keys, keys_contents, mem_members, List.map_id]

theorem length_lt_of_handles (h : DistinctKeys IsHandle id entries) :
    entries.length < 2 ^ 63 := by
  have hwords : ((entries.map Prod.fst).map (fun key => (valueToI64 key).toUInt32)).Nodup := by
    refine List.Nodup.map_on ?_ (by simpa using h.nodup)
    intro a ha b hb heq
    obtain ⟨x, rfl⟩ := h.valid a ha
    obtain ⟨y, rfl⟩ := h.valid b hb
    simpa [valueToI64, toUInt32_signExtend] using heq
  have hle := length_le_of_nodup32 hwords
  simp only [List.length_map] at hle
  omega

theorem mapAnswers_of_text (h : host.findMap handle = some ⟨d.kinds.text, valueKind, entries⟩)
    (hdistinct : DistinctKeys IsHandle id entries)
    (hvalues : ∀ key v, (contents id entries).lookup key = some v →
      ∃ bits, valueFromI64 d.kinds valueKind bits = some v)
    (hnext : (nextHandle d.toolchain host.nextDynamic).isSome)
    (htold : ∀ key, OptionTold d.kinds host valueKind
      ((contents id entries).lookup (.handle key))) :
    MapAnswers d host handle d.kinds.text (contents id entries) := by
  obtain ⟨next, hnext⟩ := Option.isSome_iff_exists.mp hnext
  refine ⟨fun key => ?_, fun key => ?_, ?_, ?_⟩
  · rw [arrayContains_of_map h, handleKeys_text key]
    congr 3
    rw [Bool.eq_iff_iff, decide_eq_true_iff, mem_contents]
    simp
  · rw [handleKeys_text key, IndexRead.array_map (findCollection_of_map h) h,
      lookupHandle_contents handleKeys_text hdistinct]
    obtain ⟨r, host', hrow⟩ := optionResult_returns d.kinds valueKind
      ((contents id entries).lookup (.handle key.toUInt32)) (Option.isSome_iff_exists.mpr ⟨_, hnext⟩)
    exact ⟨r, host', hrow, (optionTold_iff (hvalues _) hrow).mpr (htold key.toUInt32)⟩
  · refine ⟨UInt64.ofNat entries.length, arrayLength_of_map h ?_, ?_⟩
    · exact if_pos (length_lt_of_handles hdistinct)
    · rw [DistinctKeys.card_keys hdistinct]
      have hlt := length_lt_of_handles hdistinct
      exact UInt64.toNat_ofNat_of_lt' (by simp [UInt64.size]; omega)
  · have hkeys := mapKeys_of_map d.toolchain d.kinds h
    rw [hnext] at hkeys
    refine ⟨_, _, entries.map Prod.fst, hkeys, findCollection_keys h hkeys, ?_, ?_⟩
    · simpa using hdistinct.nodup
    · exact fun key => mem_contents.symm

end Answers

/-- After a history the rows of a map agree with what it records exactly if its keys are
    texts, a handle is left for a list, and the option of each value can be told. -/
theorem map_rows_agree_iff {κ μ : Type} (d : Dialect) (host : HostState κ μ)
    (handle keyKind valueKind : UInt32) (history : List MapOp)
    (hmap : host.findMap handle = some ⟨keyKind, valueKind, []⟩) :
    MapAnswers d (MapOp.runAll d.kinds handle history host) handle keyKind
        (MapOp.recorded d.kinds keyKind valueKind history) ↔
      keyKind = d.kinds.text ∧ (nextHandle d.toolchain host.nextDynamic).isSome ∧
        ∀ key, OptionTold d.kinds host valueKind
          ((MapOp.recorded d.kinds keyKind valueKind history).lookup (.handle key)) := by
  obtain ⟨maps, heq, hfound⟩ := MapOp.runAll_spec d.kinds hmap history
  have hempty : DistinctKeys IsHandle id ([] : List (RuntimeValue × RuntimeValue)) := distinct_nil
  have hrefine (hkeys : HandleKeys d.kinds keyKind) :=
    MapOp.entries_refine valueKind hkeys history hempty rfl
  rw [heq] at hfound ⊢
  set entries := history.foldl (MapOp.entriesAfter d.kinds keyKind valueKind) []
  constructor
  · intro hanswers
    obtain ⟨r, host', keys, hkeys, hcollection, -⟩ := hanswers.keys
    have hkind : keyKind = d.kinds.text := by
      rw [findCollection_keys hfound hkeys] at hcollection
      exact (CollectionValue.mk.inj (Option.some.inj hcollection)).2.1.symm
    subst hkind
    obtain ⟨hdistinct, hcontents⟩ := hrefine handleKeys_text
    refine ⟨rfl, ?_, fun key => ?_⟩
    · rw [mapKeys_of_map _ _ hfound] at hkeys
      obtain ⟨next, hnext, -⟩ := Option.map_eq_some_iff.mp hkeys
      exact Option.isSome_iff_exists.mpr ⟨next, hnext⟩
    · obtain ⟨r, host', hrow, htold⟩ := hanswers.option (signExtend key)
      rw [handleKeys_text, toUInt32_signExtend] at htold
      rw [IndexRead.array_map (findCollection_of_map hfound) hfound,
        lookupHandle_contents handleKeys_text hdistinct, toUInt32_signExtend, hcontents] at hrow
      exact (optionTold_iff (fun _ => MapOp.recorded_value) hrow).mp htold
  · rintro ⟨rfl, hnext, htold⟩
    obtain ⟨hdistinct, hcontents⟩ := hrefine handleKeys_text
    change contents id entries = MapOp.recorded _ _ _ _ at hcontents
    rw [← hcontents] at htold ⊢
    exact mapAnswers_of_text hfound hdistinct
      (fun key v hv => MapOp.recorded_value (hcontents ▸ hv)) hnext htold

/-- A host with an empty map of 64-bit integers, at the handle 0. -/
def emptyMapHost (keyKind : UInt32) : HostState Unit Unit :=
  { (HostState.new : HostState Unit Unit) with
    maps := [⟨keyKind, ValueKinds.counted.i64, []⟩]
    nextDynamic := 1
    dynamic := (∅ : BTreeMap UInt32 (DynamicValue Unit Unit)).insert 0 (.map 0) }

theorem text_map_rows_agree :
    MapAnswers IndexRead.plainDialect
        (MapOp.runAll .counted 0 [.put 3 95, .delete 3, .put 3 96] (emptyMapHost 12)) 0 12
        (MapOp.recorded .counted 12 5 [.put 3 95, .delete 3, .put 3 96]) ↔
      (12 : UInt32) = ValueKinds.counted.text ∧ (nextHandle .dev 1).isSome ∧
        ∀ key, OptionTold .counted (emptyMapHost 12) 5
          ((MapOp.recorded .counted 12 5 [.put 3 95, .delete 3, .put 3 96]).lookup
            (.handle key)) :=
  map_rows_agree_iff IndexRead.plainDialect (emptyMapHost 12) 0 12 5 _ rfl

/-- A key put in a map of integer keys is not found. -/
theorem integer_key_missed :
    (MapOp.recorded .counted 4 5 [.put 3 95]).lookup (.i32 3) = some (.i64 95) ∧
      (arrayContains .counted 0 3 (MapOp.runAll .counted 0 [.put 3 95] (emptyMapHost 4))).map
        Prod.fst = some (.ok false) ∧
      (arrayLength 0 (MapOp.runAll .counted 0 [.put 3 95] (emptyMapHost 4))).map Prod.fst =
        some (.ok 1) := by
  refine ⟨rfl, rfl, rfl⟩

end FaberHosts.Wasm
