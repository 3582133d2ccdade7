import FaberHosts.Collections.Runtime

/-!
# Collections as finite maps and sets

The abstract store holds finite maps and sets of keys, where a key is the content
of a text or the value itself.  Each call of the runtime answers as the same call
of the store does, and the runtime goes on standing for the store.
-/

namespace FaberHosts.Collections
open FaberHosts.Lib

/-! ## The abstract store -/

/-- What a key is compared by. -/
inductive Content where
  | text (bytes : List UInt8)
  | scalar (value : RuntimeValue)
  deriving DecidableEq, Repr

def content (memory : Memory) (kind : ValueKind) (value : RuntimeValue) : Content :=
  if kind = .text then
    match value with
    | .ptr text => .text ((textBytes memory text).getD [])
    | value => .scalar value
  else .scalar value

structure FiniteMap where
  keyKind : ValueKind
  valueKind : ValueKind
  contents : Finmap (fun _ : Content => RuntimeValue)

structure FiniteSet where
  kind : ValueKind
  members : Finset Content

structure Store where
  maps : List FiniteMap
  sets : List FiniteSet

def Store.new : Store := ⟨[], []⟩

/-- The answer of the store.  The keys and values of a snapshot have no order. -/
inductive StoreAnswer where
  | answer (a : Answer)
  | keys (elementKind kind : ValueKind) (keys : Finset Content)
  | values (elementKind : ValueKind) (values : Multiset RuntimeValue)

namespace Store

variable (memory : Memory) (store : Store)

abbrev refuse : StoreAnswer × Store := (.answer invalid, store)

def setMap (handle : Nat) (map : FiniteMap) : Store :=
  { store with maps := store.maps.set handle map }

def setSet (handle : Nat) (set : FiniteSet) : Store :=
  { store with sets := store.sets.set handle set }

def addSet (kind : ValueKind) (members : Finset Content) : StoreAnswer × Store :=
  (.answer (.handle store.sets.length), { store with sets := store.sets ++ [⟨kind, members⟩] })

def onMap (otherwise : Answer) (handle : Nat) (act : FiniteMap → StoreAnswer × Store) :
    StoreAnswer × Store :=
  match store.maps[handle]? with
  | none => (.answer otherwise, store)
  | some map => act map

def onSet (handle : Nat) (act : FiniteSet → StoreAnswer × Store) : StoreAnswer × Store :=
  match store.sets[handle]? with
  | none => store.refuse
  | some set => act set

def onValue (kind : ValueKind) (cell : Cell) (act : RuntimeValue → StoreAnswer × Store) :
    StoreAnswer × Store :=
  match readValue kind cell with
  | none => store.refuse
  | some value => act value

/-- One call of the store. -/
def call : Call → StoreAnswer × Store
  | .mapNew keyKind valueKind =>
    if !validKind keyKind || !validKind valueKind then store.refuse
    else (.answer (.handle store.maps.length),
      { store with maps := store.maps ++ [⟨keyKind, valueKind, ∅⟩] })
  | .mapPut handle keyKind key valueKind value =>
    store.onValue keyKind key fun key => store.onValue valueKind value fun value =>
      store.onMap invalid handle fun map =>
        if map.keyKind ≠ keyKind ∨ map.valueKind ≠ valueKind then store.refuse
        else (.answer .ok, store.setMap handle
          { map with contents := map.contents.insert (content memory map.keyKind key) value })
  | .aggregateSetIndex handle key value =>
    match textValue memory key with
    | none => (.answer .ok, store)
    | some _ =>
      store.onMap .ok handle fun map =>
        if map.keyKind ≠ .text ∨ map.valueKind ≠ .i64 then (.answer .ok, store)
        else (.answer .ok, store.setMap handle { map with
          contents := map.contents.insert (content memory map.keyKind (.ptr key)) (.i64 value) })
  | .mapOption handle keyKind key valueKind =>
    store.onValue keyKind key fun key => store.onMap invalid handle fun map =>
      if map.keyKind ≠ keyKind ∨ map.valueKind ≠ valueKind then store.refuse
      else (.answer (.option (map.contents.lookup (content memory map.keyKind key))), store)
  | .mapGet handle keyKind key valueKind output =>
    store.onValue keyKind key fun key => store.onMap invalid handle fun map =>
      if map.keyKind ≠ keyKind ∨ map.valueKind ≠ valueKind ∨ output = .null then store.refuse
      else
        match map.contents.lookup (content memory map.keyKind key) with
        | none => store.refuse
        | some value =>
          if output = .misaligned then store.refuse else (.answer (.value value), store)
  | .mapContains handle keyKind key output =>
    store.onValue keyKind key fun key => store.onMap invalid handle fun map =>
      if map.keyKind ≠ keyKind ∨ output = .null then store.refuse
      else (.answer (.flag (decide (content memory map.keyKind key ∈ map.contents.keys))), store)
  | .mapDelete handle keyKind key output =>
    store.onValue keyKind key fun key => store.onMap invalid handle fun map =>
      if map.keyKind ≠ keyKind ∨ output = .null then store.refuse
      else (.answer (.flag (decide (content memory map.keyKind key ∈ map.contents.keys))),
        store.setMap handle
          { map with contents := map.contents.erase (content memory map.keyKind key) })
  | .mapLength handle output =>
    store.onMap invalid handle fun map =>
      if output = .null then store.refuse
      else (.answer (lengthAnswer map.contents.keys.card), store)
  | .mapIsEmpty handle output =>
    store.onMap invalid handle fun map =>
      if output = .null then store.refuse
      else (.answer (.flag (decide (map.contents.keys = ∅))), store)
  | .mapKeys handle =>
    store.onMap invalid handle fun map =>
      (.keys (canonicalArrayElementKind map.keyKind) map.keyKind map.contents.keys, store)
  | .mapValues handle =>
    store.onMap invalid handle fun map =>
      (.values (canonicalArrayElementKind map.valueKind) (map.contents.entries.map Sigma.snd), store)
  | .setNew kind => if !validKind kind then store.refuse else store.addSet kind ∅
  | .setAdd handle kind value =>
    store.onValue kind value fun value => store.onSet handle fun set =>
      if set.kind ≠ kind then store.refuse
      else (.answer .ok, store.setSet handle
        { set with members := insert (content memory set.kind value) set.members })
  | .setFromArray array =>
    match array with
    | none => store.refuse
    | some array => store.addSet array.kind (members (content memory array.kind) array.values)
  | .arrayFromSet handle =>
    store.onSet handle fun set => (.keys set.kind set.kind set.members, store)
  | .setContains handle kind value output =>
    store.onValue kind value fun value => store.onSet handle fun set =>
      if set.kind ≠ kind ∨ output = .null then store.refuse
      else (.answer (.flag (decide (content memory set.kind value ∈ set.members))), store)
  | .setDelete handle kind value output =>
    store.onValue kind value fun value => store.onSet handle fun set =>
      if set.kind ≠ kind ∨ output = .null then store.refuse
      else (.answer (.flag (decide (content memory set.kind value ∈ set.members))),
        store.setSet handle { set with members := set.members.erase (content memory set.kind value) })
  | .setLength handle output =>
    store.onSet handle fun set =>
      if output = .null then store.refuse
      else (.answer (lengthAnswer set.members.card), store)
  | .setIsEmpty handle output =>
    store.onSet handle fun set =>
      if output = .null then store.refuse
      else (.answer (.flag (decide (set.members = ∅))), store)
  | .setUnion left right =>
    store.onSet left fun left => store.onSet right fun right =>
      if left.kind ≠ right.kind then store.refuse
      else store.addSet left.kind (left.members ∪ right.members)
  | .setIntersection left right =>
    store.onSet left fun left => store.onSet right fun right =>
      if left.kind ≠ right.kind then store.refuse
      else store.addSet left.kind (left.members ∩ right.members)
  | .setDifference left right =>
    store.onSet left fun left => store.onSet right fun right =>
      if left.kind ≠ right.kind then store.refuse
      else store.addSet left.kind (left.members \ right.members)
  | .setSymmetricDifference left right =>
    store.onSet left fun left => store.onSet right fun right =>
      if left.kind ≠ right.kind then store.refuse
      else store.addSet left.kind (symmDiff left.members right.members)
  | .setIsSubset left right output =>
    store.onSet left fun left => store.onSet right fun right =>
      if left.kind ≠ right.kind ∨ output = .null then store.refuse
      else (.answer (.flag (decide (left.members ⊆ right.members))), store)
  | .setIsSuperset left right output =>
    store.onSet left fun left => store.onSet right fun right =>
      if left.kind ≠ right.kind ∨ output = .null then store.refuse
      else (.answer (.flag (decide (right.members ⊆ left.members))), store)

def run (memory : Memory) (store : Store) : List Call → List StoreAnswer × Store
  | [] => ([], store)
  | first :: rest =>
    let (answer, next) := store.call memory first
    let (answers, last) := run memory next rest
    (answer :: answers, last)

end Store

/-! ## Keys -/

/-- An integer of its kind, or a readable text. -/
structure IsKey (memory : Memory) (kind : ValueKind) (value : RuntimeValue) : Prop where
  cells : represents kind value = true
  notF32 : kind ≠ .f32
  notF64 : kind ≠ .f64
  text : kind = .text → ∃ text bytes, value = .ptr text ∧ textBytes memory text = some bytes

theorem eq_iff_of_represents {kind : ValueKind} {left right : RuntimeValue}
    (hleft : represents kind left = true) (hright : represents kind right = true)
    (hf32 : kind ≠ .f32) (hf64 : kind ≠ .f64) : left.eq right = true ↔ left = right := by
  have hcells : ∀ value, represents kind value = true →
      (∀ bits, value ≠ .f32 bits) ∧ ∀ bits, value ≠ .f64 bits := by
    intro value hvalue
    constructor
    · rintro bits rfl
      cases kind <;> simp [represents] at hvalue hf32
    · rintro bits rfl
      cases kind <;> simp [represents] at hvalue hf64
  obtain ⟨hl32, hl64⟩ := hcells left hleft
  unfold RuntimeValue.eq
  split
  · exact absurd rfl (hl32 _)
  · exact absurd rfl (hl64 _)
  · exact beq_iff_eq

theorem compares_valuesEqual (memory : Memory) (kind : ValueKind) :
    Compares (IsKey memory kind) (content memory kind) (valuesEqual memory kind) := by
  intro left right hleft hright
  unfold valuesEqual content
  by_cases hkind : kind = .text
  · obtain ⟨text, bytes, rfl, hbytes⟩ := hleft.text hkind
    obtain ⟨text', bytes', rfl, hbytes'⟩ := hright.text hkind
    simp [hkind, hbytes, hbytes']
  · simp only [hkind, not_false_eq_true, if_true, if_false, Content.scalar.injEq, ne_eq]
    exact eq_iff_of_represents hleft.cells hright.cells hleft.notF32 hleft.notF64

/-! ## What the runtime stands for -/

def RuntimeMap.abstract (memory : Memory) (map : RuntimeMap) : FiniteMap where
  keyKind := map.keyKind
  valueKind := map.valueKind
  contents := contents (content memory map.keyKind) map.entries

def RuntimeSet.abstract (memory : Memory) (set : RuntimeSet) : FiniteSet where
  kind := set.kind
  members := members (content memory set.kind) set.values

def Runtime.abstract (memory : Memory) (runtime : Runtime) : Store where
  maps := runtime.maps.map (·.abstract memory)
  sets := runtime.sets.map (·.abstract memory)

structure RuntimeMap.WellFormed (memory : Memory) (map : RuntimeMap) : Prop where
  keys : DistinctKeys (IsKey memory map.keyKind) (content memory map.keyKind) map.entries
  values : ∀ entry ∈ map.entries, represents map.valueKind entry.2 = true
  keyKind : validKind map.keyKind = true
  valueKind : validKind map.valueKind = true

structure RuntimeSet.WellFormed (memory : Memory) (set : RuntimeSet) : Prop where
  members : Distinct (IsKey memory set.kind) (content memory set.kind) set.values
  kind : validKind set.kind = true

/-- No collection holds a key twice. -/
structure Runtime.WellFormed (memory : Memory) (runtime : Runtime) : Prop where
  maps : ∀ map ∈ runtime.maps, map.WellFormed memory
  sets : ∀ set ∈ runtime.sets, set.WellFormed memory

/-- An answer of the runtime says what the answer of the store says. -/
def Matches (memory : Memory) (answer : Answer) : StoreAnswer → Prop
  | .answer expected => answer = expected
  | .keys elementKind kind keys => ∃ values, answer = .array ⟨elementKind, values⟩ ∧
      (values.map (content memory kind)).Nodup ∧ members (content memory kind) values = keys
  | .values elementKind values => ∃ found : List RuntimeValue,
      answer = .array ⟨elementKind, found⟩ ∧ (found : Multiset RuntimeValue) = values

/-- The keys a call hands in are integers or texts. -/
def TakesKeys (memory : Memory) : Call → Prop
  | .mapPut _ kind key _ _ | .mapOption _ kind key _ | .mapGet _ kind key _ _
  | .mapContains _ kind key _ | .mapDelete _ kind key _ | .setAdd _ kind key
  | .setContains _ kind key _ | .setDelete _ kind key _ =>
    ∀ value, readValue kind key = some value → IsKey memory kind value
  | .setFromArray (some array) =>
    validKind array.kind = true ∧ ∀ value ∈ array.values, IsKey memory array.kind value
  | _ => True

structure Simulates (memory : Memory) (result : Answer × Runtime) (expected : StoreAnswer × Store) :
    Prop where
  answer : Matches memory result.1 expected.1
  wellFormed : result.2.WellFormed memory
  state : result.2.abstract memory = expected.2

section Simulation

variable {memory : Memory} {runtime : Runtime} {handle : Nat}

theorem simulates_same (hwf : runtime.WellFormed memory) {a : Answer} {b : StoreAnswer}
    (hanswer : Matches memory a b) :
    Simulates memory (a, runtime) (b, runtime.abstract memory) := ⟨hanswer, hwf, rfl⟩

theorem simulates_invalid (hwf : runtime.WellFormed memory) :
    Simulates memory (invalid, runtime) (runtime.abstract memory).refuse :=
  simulates_same hwf rfl

theorem simulates_setMap (hwf : runtime.WellFormed memory) {map : RuntimeMap} {b : FiniteMap}
    (hmap : map.WellFormed memory) (habstract : map.abstract memory = b) {a : Answer}
    {c : StoreAnswer} (hanswer : Matches memory a c) :
    Simulates memory (a, setMap runtime handle map) (c, (runtime.abstract memory).setMap handle b) := by
  refine ⟨hanswer, ⟨?_, hwf.sets⟩, ?_⟩
  · intro other hother
    rcases List.mem_or_eq_of_mem_set hother with hother | rfl
    · exact hwf.maps other hother
    · exact hmap
  · simp [setMap, Store.setMap, Runtime.abstract, List.map_set, habstract]

theorem simulates_setSet (hwf : runtime.WellFormed memory) {set : RuntimeSet} {b : FiniteSet}
    (hset : set.WellFormed memory) (habstract : set.abstract memory = b) {a : Answer}
    {c : StoreAnswer} (hanswer : Matches memory a c) :
    Simulates memory (a, setSet runtime handle set) (c, (runtime.abstract memory).setSet handle b) := by
  refine ⟨hanswer, ⟨hwf.maps, ?_⟩, ?_⟩
  · intro other hother
    rcases List.mem_or_eq_of_mem_set hother with hother | rfl
    · exact hwf.sets other hother
    · exact hset
  · simp [setSet, Store.setSet, Runtime.abstract, List.map_set, habstract]

theorem simulates_storeSet (hwf : runtime.WellFormed memory) {kind : ValueKind}
    {values : List RuntimeValue} {keys : Finset Content}
    (hset : RuntimeSet.WellFormed memory ⟨kind, values⟩)
    (hkeys : members (content memory kind) values = keys) :
    Simulates memory (storeSet runtime kind values)
      ((runtime.abstract memory).addSet kind keys) := by
  refine ⟨?_, ⟨hwf.maps, ?_⟩, ?_⟩
  · simp [storeSet, Store.addSet, Matches, Runtime.abstract]
  · intro other hother
    rcases List.mem_append.mp hother with hother | hother
    · exact hwf.sets other hother
    · exact List.mem_singleton.mp hother ▸ hset
  · simp [storeSet, Store.addSet, Runtime.abstract, RuntimeSet.abstract, hkeys]

/-- A call of a map follows the store if it does for each map behind the handle. -/
theorem simulates_onMap (hwf : runtime.WellFormed memory) {otherwise : Answer}
    {body : RuntimeMap → Answer × Runtime} {act : FiniteMap → StoreAnswer × Store}
    (hbody : ∀ map, runtime.maps[handle]? = some map → map.WellFormed memory →
      Simulates memory (body map) (act (map.abstract memory))) :
    Simulates memory
      (match runtime.maps[handle]? with
        | none => (otherwise, runtime)
        | some map => body map)
      ((runtime.abstract memory).onMap otherwise handle act) := by
  have hlookup : (runtime.abstract memory).maps[handle]? =
      runtime.maps[handle]?.map (·.abstract memory) := List.getElem?_map
  unfold Store.onMap
  rw [hlookup]
  cases hmap : runtime.maps[handle]? with
  | none => exact simulates_same hwf rfl
  | some map => exact hbody map hmap (hwf.maps map (List.mem_of_getElem? hmap))

theorem simulates_onSet (hwf : runtime.WellFormed memory)
    {body : RuntimeSet → Answer × Runtime} {act : FiniteSet → StoreAnswer × Store}
    (hbody : ∀ set, runtime.sets[handle]? = some set → set.WellFormed memory →
      Simulates memory (body set) (act (set.abstract memory))) :
    Simulates memory
      (match runtime.sets[handle]? with
        | none => (invalid, runtime)
        | some set => body set)
      ((runtime.abstract memory).onSet handle act) := by
  have hlookup : (runtime.abstract memory).sets[handle]? =
      runtime.sets[handle]?.map (·.abstract memory) := List.getElem?_map
  unfold Store.onSet
  rw [hlookup]
  cases hset : runtime.sets[handle]? with
  | none => exact simulates_invalid hwf
  | some set => exact hbody set hset (hwf.sets set (List.mem_of_getElem? hset))

theorem simulates_onValue (hwf : runtime.WellFormed memory) {kind : ValueKind} {cell : Cell}
    {body : RuntimeValue → Answer × Runtime} {act : RuntimeValue → StoreAnswer × Store}
    (hbody : ∀ value, readValue kind cell = some value →
      Simulates memory (body value) (act value)) :
    Simulates memory
      (match readValue kind cell with
        | none => (invalid, runtime)
        | some value => body value)
      ((runtime.abstract memory).onValue kind cell act) := by
  unfold Store.onValue
  cases hvalue : readValue kind cell with
  | none => exact simulates_invalid hwf
  | some value => exact hbody value hvalue

theorem simulates_ite {c : Prop} [Decidable c] {r r' : Answer × Runtime}
    {e e' : StoreAnswer × Store} (hpos : c → Simulates memory r e)
    (hneg : ¬ c → Simulates memory r' e') :
    Simulates memory (if c then r else r') (if c then e else e') := by
  by_cases hc : c
  · rw [if_pos hc, if_pos hc]
    exact hpos hc
  · rw [if_neg hc, if_neg hc]
    exact hneg hc

end Simulation

/-! ## Operations on one collection -/

section Operations

variable {memory : Memory} {map : RuntimeMap} {set left right : RuntimeSet}
  {key value : RuntimeValue}

theorem RuntimeMap.abstract_put (hmap : map.WellFormed memory)
    (hkey : IsKey memory map.keyKind key) :
    (map.put memory key value).abstract memory =
      { map.abstract memory with
        contents := (map.abstract memory).contents.insert (content memory map.keyKind key) value } := by
  simp only [RuntimeMap.abstract, RuntimeMap.put,
    contents_assign (compares_valuesEqual memory map.keyKind) hmap.keys hkey]

theorem RuntimeMap.WellFormed.put (hmap : map.WellFormed memory)
    (hkey : IsKey memory map.keyKind key) (hvalue : represents map.valueKind value = true) :
    (map.put memory key value).WellFormed memory where
  keys := hmap.keys.assign (compares_valuesEqual memory map.keyKind) hkey
  values := by
    intro entry hentry
    rcases mem_assign hentry with hold | hnew
    · exact hmap.values entry hold
    · exact hnew ▸ hvalue
  keyKind := hmap.keyKind
  valueKind := hmap.valueKind

theorem RuntimeMap.get_eq_lookup (hmap : map.WellFormed memory)
    (hkey : IsKey memory map.keyKind key) :
    map.get memory key = (map.abstract memory).contents.lookup (content memory map.keyKind key) :=
  findValue_eq_lookup (compares_valuesEqual memory map.keyKind) hmap.keys hkey

theorem RuntimeMap.contains_eq (hmap : map.WellFormed memory)
    (hkey : IsKey memory map.keyKind key) :
    map.contains memory key =
      decide (content memory map.keyKind key ∈ (map.abstract memory).contents.keys) := by
  have hholds := holds_eq_decide (compares_valuesEqual memory map.keyKind) hmap.keys.valid hkey
  simp only [RuntimeMap.abstract, keys_contents]
  rw [← hholds]
  simp [RuntimeMap.contains, holds, List.any_map, Function.comp_def]

theorem RuntimeMap.abstract_delete (hmap : map.WellFormed memory)
    (hkey : IsKey memory map.keyKind key) :
    (map.delete memory key).abstract memory =
      { map.abstract memory with
        contents := (map.abstract memory).contents.erase (content memory map.keyKind key) } := by
  simp only [RuntimeMap.abstract, RuntimeMap.delete,
    contents_filter_not_same (compares_valuesEqual memory map.keyKind) hmap.keys hkey]

theorem RuntimeMap.WellFormed.delete (hmap : map.WellFormed memory) :
    (map.delete memory key).WellFormed memory where
  keys := hmap.keys.filter _
  values := fun entry hentry => hmap.values entry (List.mem_filter.mp hentry).1
  keyKind := hmap.keyKind
  valueKind := hmap.valueKind

theorem RuntimeMap.length_delete_bne :
    ((map.delete memory key).entries.length != map.entries.length) = map.contains memory key := by
  rw [Bool.eq_iff_iff, bne_iff_ne]
  unfold RuntimeMap.delete RuntimeMap.contains
  rw [ne_eq, List.length_filter_eq_length_iff, List.any_eq_true]
  simp

theorem RuntimeSet.WellFormed.pushUnique (hset : set.WellFormed memory)
    (hvalue : IsKey memory set.kind value) :
    RuntimeSet.WellFormed memory
      { set with values := pushUnique (valuesEqual memory set.kind) set.values value } where
  members := hset.members.pushUnique (compares_valuesEqual memory set.kind) hvalue
  kind := hset.kind

theorem RuntimeSet.WellFormed.filter (hset : set.WellFormed memory) (keep : RuntimeValue → Bool) :
    RuntimeSet.WellFormed memory { set with values := set.values.filter keep } where
  members := hset.members.sublist List.filter_sublist
  kind := hset.kind

theorem RuntimeSet.contains_eq (hset : set.WellFormed memory)
    (hvalue : IsKey memory set.kind value) :
    contains memory set.kind set.values value =
      decide (content memory set.kind value ∈ (set.abstract memory).members) :=
  holds_eq_decide (compares_valuesEqual memory set.kind) hset.members.valid hvalue

theorem RuntimeSet.WellFormed.sameKind (hright : right.WellFormed memory)
    (hkind : left.kind = right.kind) :
    Distinct (IsKey memory left.kind) (content memory left.kind) right.values :=
  hkind ▸ hright.members

end Operations

/-! ## Calls -/

section Calls

variable {memory : Memory} {runtime : Runtime}

/-- Under its own kind a value read from a cell has the cells of the kind. -/
theorem represents_of_readValue {kind : ValueKind} {cell : Cell} {value : RuntimeValue}
    (h : readValue kind cell = some value) : represents kind value = true := by
  obtain ⟨-, hkind⟩ := Option.filter_eq_some_iff.mp h
  exact hkind

theorem represents_canonical {kind : ValueKind} {value : RuntimeValue}
    (h : represents kind value = true) :
    represents (canonicalArrayElementKind kind) value = true := by
  cases kind <;> cases value <;> simp_all [represents, canonicalArrayElementKind]

theorem validKind_canonical {kind : ValueKind} (h : validKind kind = true) :
    validKind (canonicalArrayElementKind kind) = true := by
  cases kind <;> simp_all [validKind, canonicalArrayElementKind]

theorem storeArray_eq {kind : ValueKind} {values : List RuntimeValue}
    (hkind : validKind kind = true) (hvalues : ∀ value ∈ values, represents kind value = true) :
    storeArray kind values = .array ⟨kind, values⟩ := by
  unfold storeArray
  rw [if_pos]
  rw [hkind, Bool.true_and, List.all_eq_true]
  exact hvalues

theorem simulates_mapNew (hwf : runtime.WellFormed memory) (keyKind valueKind : ValueKind) :
    Simulates memory (mapNew runtime keyKind valueKind)
      ((runtime.abstract memory).call memory (.mapNew keyKind valueKind)) := by
  apply simulates_ite
  · exact fun _ => simulates_invalid hwf
  · intro hvalid
    simp only [Bool.or_eq_true, Bool.not_eq_true', not_or, Bool.not_eq_false] at hvalid
    refine ⟨?_, ⟨?_, hwf.sets⟩, ?_⟩
    · simp [storeMap, Matches, Runtime.abstract]
    · intro map hmap
      rcases List.mem_append.mp hmap with hold | hnew
      · exact hwf.maps map hold
      · rw [List.mem_singleton.mp hnew]
        exact ⟨distinct_nil, by simp, hvalid.1, hvalid.2⟩
    · simp [storeMap, Runtime.abstract, RuntimeMap.abstract]

theorem simulates_mapPut (hwf : runtime.WellFormed memory) (handle : Nat)
    (keyKind valueKind : ValueKind) (key value : Cell)
    (hkeys : TakesKeys memory (.mapPut handle keyKind key valueKind value)) :
    Simulates memory (mapPut memory runtime handle keyKind key valueKind value)
      ((runtime.abstract memory).call memory (.mapPut handle keyKind key valueKind value)) := by
  apply simulates_onValue hwf
  intro k hk
  apply simulates_onValue hwf
  intro v hv
  apply simulates_onMap hwf
  intro map _ hmap
  apply simulates_ite
  · exact fun _ => simulates_invalid hwf
  · intro hkinds
    obtain ⟨rfl, rfl⟩ : map.keyKind = keyKind ∧ map.valueKind = valueKind := by
      simpa using hkinds
    exact simulates_setMap hwf (hmap.put (hkeys k hk) (represents_of_readValue hv))
      (RuntimeMap.abstract_put hmap (hkeys k hk)) rfl

theorem simulates_aggregateSetIndex (hwf : runtime.WellFormed memory) (aggregate : Nat)
    (key : UInt64) (value : Int64) :
    Simulates memory (aggregateSetIndex memory runtime aggregate key value)
      ((runtime.abstract memory).call memory (.aggregateSetIndex aggregate key value)) := by
  unfold aggregateSetIndex
  simp only [Store.call]
  cases htext : textValue memory key with
  | none => exact simulates_same hwf rfl
  | some text =>
    dsimp only
    apply simulates_onMap hwf
    intro map _ hmap
    apply simulates_ite
    · exact fun _ => simulates_same hwf rfl
    · intro hkinds
      obtain ⟨hkey, hvalue⟩ : map.keyKind = .text ∧ map.valueKind = .i64 := by
        simpa using hkinds
      obtain ⟨bytes, hbytes, -⟩ := Option.bind_eq_some_iff.mp htext
      have hiskey : IsKey memory map.keyKind (.ptr key) := by
        rw [hkey]
        exact ⟨rfl, by simp, by simp, fun _ => ⟨key, bytes, rfl, hbytes⟩⟩
      exact simulates_setMap hwf (hmap.put hiskey (by rw [hvalue]; rfl))
        (RuntimeMap.abstract_put hmap hiskey) rfl

theorem simulates_mapOption (hwf : runtime.WellFormed memory) (handle : Nat)
    (keyKind valueKind : ValueKind) (key : Cell)
    (hkeys : TakesKeys memory (.mapOption handle keyKind key valueKind)) :
    Simulates memory (mapOption memory runtime handle keyKind key valueKind)
      ((runtime.abstract memory).call memory (.mapOption handle keyKind key valueKind)) := by
  apply simulates_onValue hwf
  intro k hk
  apply simulates_onMap hwf
  intro map _ hmap
  apply simulates_ite
  · exact fun _ => simulates_invalid hwf
  · intro hkinds
    obtain ⟨rfl, rfl⟩ : map.keyKind = keyKind ∧ map.valueKind = valueKind := by
      simpa using hkinds
    apply simulates_same hwf
    show Answer.option (map.get memory k) = _
    rw [RuntimeMap.get_eq_lookup hmap (hkeys k hk)]
    rfl

theorem simulates_mapGet (hwf : runtime.WellFormed memory) (handle : Nat)
    (keyKind valueKind : ValueKind) (key : Cell) (output : Output)
    (hkeys : TakesKeys memory (.mapGet handle keyKind key valueKind output)) :
    Simulates memory (mapGet memory runtime handle keyKind key valueKind output)
      ((runtime.abstract memory).call memory (.mapGet handle keyKind key valueKind output)) := by
  apply simulates_onValue hwf
  intro k hk
  apply simulates_onMap hwf
  intro map _ hmap
  apply simulates_ite
  · exact fun _ => simulates_invalid hwf
  · intro hkinds
    obtain ⟨hkind, -, -⟩ : map.keyKind = keyKind ∧ map.valueKind = valueKind ∧ output ≠ .null := by
      simpa using hkinds
    subst hkind
    show Simulates memory (match map.get memory k with | none => _ | some value => _) _
    rw [RuntimeMap.get_eq_lookup hmap (hkeys k hk)]
    change Simulates memory _ (match (map.abstract memory).contents.lookup
      (content memory map.keyKind k) with | none => _ | some value => _)
    cases (map.abstract memory).contents.lookup (content memory map.keyKind k) with
    | none => exact simulates_invalid hwf
    | some value =>
      exact simulates_ite (fun _ => simulates_invalid hwf) (fun _ => simulates_same hwf rfl)

/-- The queries answer membership; what they leave behind is a map of its own. -/
theorem simulates_mapQuery (hwf : runtime.WellFormed memory) {handle : Nat} {keyKind : ValueKind}
    {key : Cell} {output : Output} {predicate : RuntimeMap → RuntimeValue → Bool × RuntimeMap}
    {act : RuntimeValue → FiniteMap → StoreAnswer × Store}
    (hact : ∀ k map, runtime.maps[handle]? = some map → map.WellFormed memory →
      IsKey memory map.keyKind k →
      Simulates memory (.flag (predicate map k).1, setMap runtime handle (predicate map k).2)
        (act k (map.abstract memory)))
    (hkeys : ∀ value, readValue keyKind key = some value → IsKey memory keyKind value) :
    Simulates memory (mapQuery runtime predicate handle keyKind key output)
      ((runtime.abstract memory).onValue keyKind key fun k =>
        (runtime.abstract memory).onMap invalid handle fun map =>
          if map.keyKind ≠ keyKind ∨ output = .null then (runtime.abstract memory).refuse
          else act k map) := by
  apply simulates_onValue hwf
  intro k hk
  apply simulates_onMap hwf
  intro map hfound hmap
  apply simulates_ite
  · exact fun _ => simulates_invalid hwf
  · intro hkinds
    obtain ⟨hkind, -⟩ : map.keyKind = keyKind ∧ output ≠ .null := by simpa using hkinds
    subst hkind
    exact hact k map hfound hmap (hkeys k hk)

theorem setMap_self {handle : Nat} {map : RuntimeMap} (h : runtime.maps[handle]? = some map) :
    setMap runtime handle map = runtime := by
  unfold setMap
  obtain ⟨hlt, hget⟩ := List.getElem?_eq_some_iff.mp h
  rw [← hget, List.set_getElem_self]

theorem simulates_mapContains (hwf : runtime.WellFormed memory) (handle : Nat)
    (keyKind : ValueKind) (key : Cell) (output : Output)
    (hkeys : TakesKeys memory (.mapContains handle keyKind key output)) :
    Simulates memory (mapContains memory runtime handle keyKind key output)
      ((runtime.abstract memory).call memory (.mapContains handle keyKind key output)) := by
  apply simulates_mapQuery hwf _ hkeys
  intro k map hfound hmap hk
  rw [setMap_self hfound]
  apply simulates_same hwf
  exact congrArg Answer.flag (RuntimeMap.contains_eq hmap hk)

theorem simulates_mapDelete (hwf : runtime.WellFormed memory) (handle : Nat)
    (keyKind : ValueKind) (key : Cell) (output : Output)
    (hkeys : TakesKeys memory (.mapDelete handle keyKind key output)) :
    Simulates memory (mapDelete memory runtime handle keyKind key output)
      ((runtime.abstract memory).call memory (.mapDelete handle keyKind key output)) := by
  apply simulates_mapQuery hwf _ hkeys
  intro k map hfound hmap hk
  apply simulates_setMap hwf hmap.delete (RuntimeMap.abstract_delete hmap hk)
  exact congrArg Answer.flag
    (RuntimeMap.length_delete_bne.trans (RuntimeMap.contains_eq hmap hk))

theorem simulates_mapSizeQuery (hwf : runtime.WellFormed memory) {handle : Nat} {output : Output}
    {operation : RuntimeMap → Answer} {size : FiniteMap → Answer}
    (hsize : ∀ map, map.WellFormed memory → operation map = size (map.abstract memory)) :
    Simulates memory (mapSizeQuery runtime operation handle output)
      ((runtime.abstract memory).onMap invalid handle fun map =>
        if output = .null then (runtime.abstract memory).refuse
        else (.answer (size map), runtime.abstract memory)) := by
  apply simulates_onMap hwf
  intro map _ hmap
  apply simulates_ite
  · exact fun _ => simulates_invalid hwf
  · exact fun _ => simulates_same hwf (hsize map hmap)

theorem simulates_mapKeys (hwf : runtime.WellFormed memory) (handle : Nat) :
    Simulates memory (mapKeys runtime handle)
      ((runtime.abstract memory).call memory (.mapKeys handle)) := by
  apply simulates_onMap hwf
  intro map _ hmap
  apply simulates_same hwf
  refine ⟨map.entries.map Prod.fst, ?_, hmap.keys.nodup, keys_contents.symm⟩
  exact storeArray_eq (validKind_canonical hmap.keyKind)
    (fun value hvalue => represents_canonical (hmap.keys.valid value hvalue).cells)

theorem simulates_mapValues (hwf : runtime.WellFormed memory) (handle : Nat) :
    Simulates memory (mapValues runtime handle)
      ((runtime.abstract memory).call memory (.mapValues handle)) := by
  apply simulates_onMap hwf
  intro map _ hmap
  apply simulates_same hwf
  refine ⟨map.entries.map Prod.snd, ?_, (hmap.keys.values_contents).symm⟩
  apply storeArray_eq (validKind_canonical hmap.valueKind)
  intro value hvalue
  obtain ⟨entry, hentry, rfl⟩ := List.mem_map.mp hvalue
  exact represents_canonical (hmap.values entry hentry)

theorem simulates_setNew (hwf : runtime.WellFormed memory) (kind : ValueKind) :
    Simulates memory (setNew runtime kind)
      ((runtime.abstract memory).call memory (.setNew kind)) := by
  apply simulates_ite
  · exact fun _ => simulates_invalid hwf
  · intro hkind
    exact simulates_storeSet hwf ⟨distinct_nil, by simpa using hkind⟩ rfl

theorem simulates_setAdd (hwf : runtime.WellFormed memory) (handle : Nat) (kind : ValueKind)
    (value : Cell) (hkeys : TakesKeys memory (.setAdd handle kind value)) :
    Simulates memory (setAdd memory runtime handle kind value)
      ((runtime.abstract memory).call memory (.setAdd handle kind value)) := by
  apply simulates_onValue hwf
  intro v hv
  apply simulates_onSet hwf
  intro set _ hset
  apply simulates_ite
  · exact fun _ => simulates_invalid hwf
  · intro hkind
    obtain rfl : set.kind = kind := not_not.mp hkind
    refine simulates_setSet hwf (hset.pushUnique (hkeys v hv)) ?_
      (show Matches memory .ok (.answer .ok) from rfl)
    simp only [RuntimeSet.abstract, members_pushUnique (compares_valuesEqual memory set.kind)
      hset.members.valid (hkeys v hv)]

theorem simulates_setFromArray (hwf : runtime.WellFormed memory) (array : Option RuntimeArray)
    (hkeys : TakesKeys memory (.setFromArray array)) :
    Simulates memory (setFromArray memory runtime array)
      ((runtime.abstract memory).call memory (.setFromArray array)) := by
  cases array with
  | none => exact simulates_invalid hwf
  | some array =>
    obtain ⟨hdistinct, hmembers⟩ := distinct_foldl_pushUnique
      (compares_valuesEqual memory array.kind) (distinct_nil) hkeys.2
    exact simulates_storeSet hwf ⟨hdistinct, hkeys.1⟩ (hmembers.trans (Finset.empty_union _))

theorem simulates_arrayFromSet (hwf : runtime.WellFormed memory) (handle : Nat) :
    Simulates memory (arrayFromSet runtime handle)
      ((runtime.abstract memory).call memory (.arrayFromSet handle)) := by
  apply simulates_onSet hwf
  intro set _ hset
  apply simulates_same hwf
  refine ⟨set.values, ?_, hset.members.nodup, rfl⟩
  exact storeArray_eq hset.kind (fun value hvalue => (hset.members.valid value hvalue).cells)

theorem simulates_setContains (hwf : runtime.WellFormed memory) (handle : Nat) (kind : ValueKind)
    (value : Cell) (output : Output)
    (hkeys : TakesKeys memory (.setContains handle kind value output)) :
    Simulates memory (setContains memory runtime handle kind value output)
      ((runtime.abstract memory).call memory (.setContains handle kind value output)) := by
  apply simulates_onValue hwf
  intro v hv
  apply simulates_onSet hwf
  intro set _ hset
  apply simulates_ite
  · exact fun _ => simulates_invalid hwf
  · intro hkinds
    obtain ⟨hkind, -⟩ : set.kind = kind ∧ output ≠ .null := by simpa using hkinds
    subst hkind
    apply simulates_same hwf
    exact congrArg Answer.flag (RuntimeSet.contains_eq hset (hkeys v hv))

theorem simulates_setDelete (hwf : runtime.WellFormed memory) (handle : Nat) (kind : ValueKind)
    (value : Cell) (output : Output)
    (hkeys : TakesKeys memory (.setDelete handle kind value output)) :
    Simulates memory (setDelete memory runtime handle kind value output)
      ((runtime.abstract memory).call memory (.setDelete handle kind value output)) := by
  apply simulates_onValue hwf
  intro v hv
  apply simulates_onSet hwf
  intro set _ hset
  apply simulates_ite
  · exact fun _ => simulates_invalid hwf
  · intro hkinds
    obtain ⟨hkind, -⟩ : set.kind = kind ∧ output ≠ .null := by simpa using hkinds
    subst hkind
    refine simulates_setSet hwf (hset.filter _) ?_
      (congrArg Answer.flag (RuntimeSet.contains_eq hset (hkeys v hv)))
    simp only [RuntimeSet.abstract, members_filter_not_same
      (compares_valuesEqual memory set.kind) hset.members.valid (hkeys v hv)]

theorem simulates_setSizeQuery (hwf : runtime.WellFormed memory) {handle : Nat} {output : Output}
    {operation : RuntimeSet → Answer} {size : FiniteSet → Answer}
    (hsize : ∀ set, set.WellFormed memory → operation set = size (set.abstract memory)) :
    Simulates memory (setSizeQuery runtime operation handle output)
      ((runtime.abstract memory).onSet handle fun set =>
        if output = .null then (runtime.abstract memory).refuse
        else (.answer (size set), runtime.abstract memory)) := by
  apply simulates_onSet hwf
  intro set _ hset
  apply simulates_ite
  · exact fun _ => simulates_invalid hwf
  · exact fun _ => simulates_same hwf (hsize set hset)

/-- A set operation that keeps keys distinct and computes an operation on finite sets. -/
theorem simulates_setAlgebra (hwf : runtime.WellFormed memory) {left right : Nat}
    {operation : ValueKind → List RuntimeValue → List RuntimeValue → List RuntimeValue}
    {combine : Finset Content → Finset Content → Finset Content}
    (hoperation : ∀ kind (l r : List RuntimeValue),
      Distinct (IsKey memory kind) (content memory kind) l →
      Distinct (IsKey memory kind) (content memory kind) r →
      Distinct (IsKey memory kind) (content memory kind) (operation kind l r) ∧
        members (content memory kind) (operation kind l r) =
          combine (members (content memory kind) l) (members (content memory kind) r)) :
    Simulates memory (setAlgebra runtime operation left right)
      ((runtime.abstract memory).onSet left fun l => (runtime.abstract memory).onSet right fun r =>
        if l.kind ≠ r.kind then (runtime.abstract memory).refuse
        else (runtime.abstract memory).addSet l.kind (combine l.members r.members)) := by
  apply simulates_onSet hwf
  intro l _ hl
  apply simulates_onSet hwf
  intro r _ hr
  apply simulates_ite
  · exact fun _ => simulates_invalid hwf
  · intro hkind
    replace hkind : l.kind = r.kind := not_not.mp hkind
    obtain ⟨hdistinct, hmembers⟩ :=
      hoperation l.kind l.values r.values hl.members (hr.sameKind hkind)
    have hset : RuntimeSet.WellFormed memory ⟨l.kind, operation l.kind l.values r.values⟩ :=
      ⟨hdistinct, hl.kind⟩
    apply simulates_storeSet hwf hset
    rw [hmembers]
    simp only [RuntimeSet.abstract, hkind]

theorem simulates_setRelation (hwf : runtime.WellFormed memory) {left right : Nat}
    {output : Output} (relation : ValueKind → List RuntimeValue → List RuntimeValue → Bool)
    (holds : Finset Content → Finset Content → Bool)
    (hrelation : ∀ kind (l r : List RuntimeValue),
      Distinct (IsKey memory kind) (content memory kind) l →
      Distinct (IsKey memory kind) (content memory kind) r →
      relation kind l r =
        holds (members (content memory kind) l) (members (content memory kind) r)) :
    Simulates memory (setRelation runtime relation left right output)
      ((runtime.abstract memory).onSet left fun l => (runtime.abstract memory).onSet right fun r =>
        if l.kind ≠ r.kind ∨ output = .null then (runtime.abstract memory).refuse
        else (.answer (.flag (holds l.members r.members)), runtime.abstract memory)) := by
  apply simulates_onSet hwf
  intro l _ hl
  apply simulates_onSet hwf
  intro r _ hr
  apply simulates_ite
  · exact fun _ => simulates_invalid hwf
  · intro hkinds
    obtain ⟨hkind, -⟩ : l.kind = r.kind ∧ output ≠ .null := by simpa using hkinds
    apply simulates_same hwf
    apply congrArg Answer.flag
    rw [hrelation l.kind l.values r.values hl.members (hr.sameKind hkind)]
    simp only [RuntimeSet.abstract, hkind]

end Calls

end FaberHosts.Collections
