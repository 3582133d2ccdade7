import FaberHosts.Collections.Runs

/-!
# Snapshots of maps and sets

`collection_map.rs`: the arrays made of the keys or the values of a map and of the members of
a set, read back with `array_get`, and the set made of the array of a set.  A snapshot of a
map gets the kind that the readers of arrays pass; the array of a set keeps the set's own.
-/

namespace FaberHosts.Collections
open FaberHosts.Lib

variable {memory : Memory} {runtime : Runtime}

/-- `array_get`, of the array its handle leads to. -/
def arrayGet (array : Option RuntimeArray) (index : Int64) (kind : ValueKind) (output : Output) :
    Answer :=
  match array with
  | none => invalid
  | some array =>
    if index < 0 then invalid
    else
      match array.values[index.toInt.toNat]? with
      | none => invalid
      | some value =>
        if array.kind ≠ kind ∨ output ≠ .writable then invalid else .value value

/-- The answer is an array of the values, each of which is read with the canonical kind. -/
def Readable (answer : Answer) (kind : ValueKind) (values : List RuntimeValue) : Prop :=
  ∃ array, answer = .array array ∧ array.values = values ∧
    ∀ index : Int64, 0 ≤ index → ∀ value, values[index.toInt.toNat]? = some value →
      arrayGet (some array) index (canonicalArrayElementKind kind) .writable = .value value

/-- No two members are texts of the same content. -/
def TextsApart (memory : Memory) (isText : UInt64 → Prop) (values : List RuntimeValue) : Prop :=
  ∀ (i j : Nat) (p q : UInt64) (bytes : List UInt8),
    values[i]? = some (.ptr p) → values[j]? = some (.ptr q) → isText p → isText q →
    textBytes memory p = some bytes → textBytes memory q = some bytes → i = j

/-- The kinds under which a collection carries texts. -/
def textKinds : List ValueKind := [.text, .ascii, .ptr]

/-- The array of a set can be read, and the set made of it has the members of the set, no two
    of them with the same content. -/
structure SetRoundTrips (memory : Memory) (isText : UInt64 → Prop) (runtime : Runtime)
    (handle : Nat) (set : RuntimeSet) : Prop where
  readable : Readable (arrayFromSet runtime handle).1 set.kind set.values
  back : ∃ array handle' runtime' set', (arrayFromSet runtime handle).1 = .array array ∧
    setFromArray memory runtime (some array) = (.handle handle', runtime') ∧
    runtime'.sets[handle']? = some set' ∧ set'.kind = set.kind ∧
    (∀ value, value ∈ set'.values ↔ value ∈ set.values) ∧
    (set'.kind ∈ textKinds → TextsApart memory isText set'.values)

/-- A set whose array is as readable as a snapshot of a map: it is empty, or its elements are
    carried under their own kind, and none of its pointers leads to the text of another. -/
def SelfCarried (memory : Memory) (isText : UInt64 → Prop) (set : RuntimeSet) : Prop :=
  set.values = [] ∨
    canonicalArrayElementKind set.kind = set.kind ∧
      (set.kind = .ptr → TextsApart memory isText set.values)

/-! ## What every run keeps -/

structure RuntimeMap.Sound (map : RuntimeMap) : Prop where
  keyKind : validKind map.keyKind = true
  valueKind : validKind map.valueKind = true
  keys : ∀ entry ∈ map.entries, represents map.keyKind entry.1 = true
  values : ∀ entry ∈ map.entries, represents map.valueKind entry.2 = true

structure RuntimeSet.Sound (memory : Memory) (set : RuntimeSet) : Prop where
  kind : validKind set.kind = true
  cells : ∀ value ∈ set.values, represents set.kind value = true
  apart : Apart (valuesEqual memory set.kind) set.values

/-- Every collection has the cells of its kinds, and no set holds a value twice. -/
structure Runtime.Sound (memory : Memory) (runtime : Runtime) : Prop where
  maps : ∀ map ∈ runtime.maps, map.Sound
  sets : ∀ set ∈ runtime.sets, set.Sound memory

/-- The cells of an array are those of its kind. -/
def HasCells : Call → Prop
  | .setFromArray (some array) =>
    validKind array.kind = true ∧ ∀ value ∈ array.values, represents array.kind value = true
  | _ => True

section Steps

variable {handle : Nat} {map : RuntimeMap} {set : RuntimeSet} {kind : ValueKind}
  {values : List RuntimeValue} {key value : RuntimeValue}

theorem sound_new : Runtime.new.Sound memory := ⟨by simp [Runtime.new], by simp [Runtime.new]⟩

theorem Runtime.Sound.setMap (h : runtime.Sound memory) (hmap : map.Sound) :
    (setMap runtime handle map).Sound memory := by
  refine ⟨?_, h.sets⟩
  intro other hother
  rcases List.mem_or_eq_of_mem_set hother with hother | rfl
  · exact h.maps other hother
  · exact hmap

theorem Runtime.Sound.setSet (h : runtime.Sound memory) (hset : set.Sound memory) :
    (setSet runtime handle set).Sound memory := by
  refine ⟨h.maps, ?_⟩
  intro other hother
  rcases List.mem_or_eq_of_mem_set hother with hother | rfl
  · exact h.sets other hother
  · exact hset

theorem Runtime.Sound.storeSet (h : runtime.Sound memory)
    (hset : RuntimeSet.Sound memory ⟨kind, values⟩) :
    (storeSet runtime kind values).2.Sound memory := by
  refine ⟨h.maps, ?_⟩
  intro other hother
  rcases List.mem_append.mp hother with hother | hother
  · exact h.sets other hother
  · rw [List.mem_singleton.mp hother]
    exact hset

theorem Runtime.Sound.getMap (h : runtime.Sound memory) (hmap : runtime.maps[handle]? = some map) :
    map.Sound := h.maps map (List.mem_of_getElem? hmap)

theorem Runtime.Sound.getSet (h : runtime.Sound memory) (hset : runtime.sets[handle]? = some set) :
    set.Sound memory := h.sets set (List.mem_of_getElem? hset)

theorem RuntimeMap.Sound.put (h : map.Sound) (hkey : represents map.keyKind key = true)
    (hvalue : represents map.valueKind value = true) : (map.put memory key value).Sound where
  keyKind := h.keyKind
  valueKind := h.valueKind
  keys := by
    intro entry hentry
    rcases fst_mem_assign hentry with hnew | ⟨other, hother, hsame⟩
    · exact hnew ▸ hkey
    · exact hsame ▸ h.keys other hother
  values := by
    intro entry hentry
    rcases mem_assign hentry with hold | hnew
    · exact h.values entry hold
    · exact hnew ▸ hvalue

theorem RuntimeSet.Sound.sublist (h : set.Sound memory) (hsub : values.Sublist set.values) :
    RuntimeSet.Sound memory { set with values := values } :=
  ⟨h.kind, fun value hvalue => h.cells value (hsub.mem hvalue), h.apart.sublist hsub⟩

theorem sound_foldl (hkind : validKind kind = true) {left : List RuntimeValue}
    (hleft : ∀ value ∈ left, represents kind value = true) :
    RuntimeSet.Sound memory ⟨kind, left.foldl (pushUnique (valuesEqual memory kind)) []⟩ where
  kind := hkind
  cells := fun value hvalue => hleft value (by simpa using sublist_foldl_pushUnique.mem hvalue)
  apart := Apart.foldl_pushUnique List.Pairwise.nil

theorem sound_symmetricDifference {left right : List RuntimeValue}
    (hleft : RuntimeSet.Sound memory ⟨kind, left⟩) (hright : RuntimeSet.Sound memory ⟨kind, right⟩) :
    RuntimeSet.Sound memory ⟨kind, symmetricDifference memory kind left right⟩ where
  kind := hleft.kind
  cells := by
    intro value hvalue
    rcases List.mem_append.mp hvalue with hvalue | hvalue
    · exact hleft.cells value (List.mem_filter.mp hvalue).1
    · exact hright.cells value (List.mem_filter.mp hvalue).1
  apart := hleft.apart.append_filter hright.apart

/-! ## The calls -/

variable {cell : Cell} {otherwise : Answer}

theorem sound_onValue (h : runtime.Sound memory) {body : RuntimeValue → Answer × Runtime}
    (hbody : ∀ value, represents kind value = true → (body value).2.Sound memory) :
    (match readValue kind cell with
      | none => (invalid, runtime)
      | some value => body value).2.Sound memory := by
  cases hvalue : readValue kind cell with
  | none => exact h
  | some value => exact hbody value (Option.filter_eq_some_iff.mp hvalue).2

theorem sound_onMap (h : runtime.Sound memory) {body : RuntimeMap → Answer × Runtime}
    (hbody : ∀ map : RuntimeMap, map.Sound → (body map).2.Sound memory) :
    (match runtime.maps[handle]? with
      | none => (otherwise, runtime)
      | some map => body map).2.Sound memory := by
  cases hmap : runtime.maps[handle]? with
  | none => exact h
  | some map => exact hbody map (h.getMap hmap)

theorem sound_onSet (h : runtime.Sound memory) {body : RuntimeSet → Answer × Runtime}
    (hbody : ∀ set : RuntimeSet, set.Sound memory → (body set).2.Sound memory) :
    (match runtime.sets[handle]? with
      | none => (otherwise, runtime)
      | some set => body set).2.Sound memory := by
  cases hset : runtime.sets[handle]? with
  | none => exact h
  | some set => exact hbody set (h.getSet hset)

theorem sound_ite {c : Prop} [Decidable c] {r r' : Answer × Runtime}
    (hpos : c → r.2.Sound memory) (hneg : ¬ c → r'.2.Sound memory) :
    (if c then r else r').2.Sound memory := by
  by_cases hc : c
  · rw [if_pos hc]
    exact hpos hc
  · rw [if_neg hc]
    exact hneg hc

theorem sound_mapQuery (h : runtime.Sound memory)
    {predicate : RuntimeMap → RuntimeValue → Bool × RuntimeMap}
    (hpredicate : ∀ map key, RuntimeMap.Sound map → (predicate map key).2.Sound)
    (handle : Nat) (keyKind : ValueKind) (key : Cell) (output : Output) :
    (mapQuery runtime predicate handle keyKind key output).2.Sound memory := by
  refine sound_onValue h fun key _ => sound_onMap h fun map hmap => ?_
  exact sound_ite (fun _ => h) (fun _ => h.setMap (hpredicate map key hmap))

theorem sound_setQuery (h : runtime.Sound memory) (remove : Bool) (handle : Nat)
    (kind : ValueKind) (value : Cell) (output : Output) :
    (setQuery memory runtime remove handle kind value output).2.Sound memory := by
  refine sound_onValue h fun value _ => sound_onSet h fun set hset => ?_
  refine sound_ite (fun _ => h) (fun _ => ?_)
  cases remove with
  | false => exact h
  | true => exact h.setSet (hset.sublist List.filter_sublist)

theorem sound_setAlgebra (h : runtime.Sound memory)
    {operation : ValueKind → List RuntimeValue → List RuntimeValue → List RuntimeValue}
    (hoperation : ∀ kind left right, RuntimeSet.Sound memory ⟨kind, left⟩ →
      RuntimeSet.Sound memory ⟨kind, right⟩ →
      RuntimeSet.Sound memory ⟨kind, operation kind left right⟩) (left right : Nat) :
    (setAlgebra runtime operation left right).2.Sound memory := by
  refine sound_onSet h fun left hleft => sound_onSet h fun right hright => ?_
  refine sound_ite (fun _ => h) (fun hkind => ?_)
  have hsame : left.kind = right.kind := by simpa using hkind
  exact h.storeSet (hoperation left.kind left.values right.values hleft
    (hsame ▸ hright))

theorem sound_step (h : runtime.Sound memory) (call : Call) (hcells : HasCells call) :
    (step memory runtime call).2.Sound memory := by
  cases call with
  | mapNew keyKind valueKind =>
    refine sound_ite (fun _ => h) (fun hvalid => ⟨?_, h.sets⟩)
    simp only [Bool.or_eq_true, Bool.not_eq_true', not_or, Bool.not_eq_false] at hvalid
    intro map hmap
    rcases List.mem_append.mp hmap with hmap | hmap
    · exact h.maps map hmap
    · rw [List.mem_singleton.mp hmap]
      exact ⟨hvalid.1, hvalid.2, by simp, by simp⟩
  | mapPut handle keyKind key valueKind value =>
    refine sound_onValue h fun key hkey => sound_onValue h fun value hvalue => ?_
    refine sound_onMap h fun map hmap => sound_ite (fun _ => h) (fun hkinds => ?_)
    obtain ⟨rfl, rfl⟩ : map.keyKind = keyKind ∧ map.valueKind = valueKind := by
      simpa [not_or] using hkinds
    exact h.setMap (hmap.put hkey hvalue)
  | aggregateSetIndex aggregate key value =>
    change (aggregateSetIndex memory runtime aggregate key value).2.Sound memory
    unfold aggregateSetIndex
    cases textValue memory key with
    | none => exact h
    | some _ =>
      refine sound_onMap h fun map hmap => sound_ite (fun _ => h) (fun hkinds => ?_)
      obtain ⟨hkey, hvalue⟩ : map.keyKind = .text ∧ map.valueKind = .i64 := by
        simpa [not_or] using hkinds
      exact h.setMap (hmap.put (by rw [hkey]; rfl) (by rw [hvalue]; rfl))
  | mapOption handle keyKind key valueKind =>
    exact sound_onValue h fun key _ => sound_onMap h fun map _ =>
      sound_ite (fun _ => h) (fun _ => h)
  | mapGet handle keyKind key valueKind output =>
    refine sound_onValue h fun key _ => sound_onMap h fun map _ => sound_ite (fun _ => h) (fun _ => ?_)
    cases map.get memory key with
    | none => exact h
    | some value => exact sound_ite (fun _ => h) (fun _ => h)
  | mapContains handle keyKind key output =>
    exact sound_mapQuery h (fun _ _ hmap => hmap) handle keyKind key output
  | mapDelete handle keyKind key output =>
    refine sound_mapQuery h (fun map key hmap => ?_) handle keyKind key output
    exact ⟨hmap.keyKind, hmap.valueKind,
      fun entry hentry => hmap.keys entry (List.mem_filter.mp hentry).1,
      fun entry hentry => hmap.values entry (List.mem_filter.mp hentry).1⟩
  | mapLength handle output => exact sound_onMap h fun _ _ => sound_ite (fun _ => h) (fun _ => h)
  | mapIsEmpty handle output => exact sound_onMap h fun _ _ => sound_ite (fun _ => h) (fun _ => h)
  | mapKeys handle => exact sound_onMap h fun _ _ => h
  | mapValues handle => exact sound_onMap h fun _ _ => h
  | setNew kind =>
    refine sound_ite (fun _ => h) (fun hkind => h.storeSet ⟨?_, by simp, List.Pairwise.nil⟩)
    simpa using hkind
  | setAdd handle kind value =>
    refine sound_onValue h fun value hvalue => sound_onSet h fun set hset => ?_
    refine sound_ite (fun _ => h) (fun hkind => h.setSet ⟨hset.kind, ?_, hset.apart.pushUnique⟩)
    obtain rfl : set.kind = kind := by simpa using hkind
    intro other hother
    rcases mem_pushUnique hother with hold | rfl
    · exact hset.cells other hold
    · exact hvalue
  | setFromArray array =>
    cases array with
    | none => exact h
    | some array => exact h.storeSet (sound_foldl hcells.1 hcells.2)
  | arrayFromSet handle => exact sound_onSet h fun _ _ => h
  | setContains handle kind value output => exact sound_setQuery h false handle kind value output
  | setDelete handle kind value output => exact sound_setQuery h true handle kind value output
  | setLength handle output => exact sound_onSet h fun _ _ => sound_ite (fun _ => h) (fun _ => h)
  | setIsEmpty handle output => exact sound_onSet h fun _ _ => sound_ite (fun _ => h) (fun _ => h)
  | setUnion left right =>
    refine sound_setAlgebra h (fun kind l r hl hr => sound_foldl hl.kind ?_) left right
    intro value hvalue
    exact (List.mem_append.mp hvalue).elim (hl.cells value) (hr.cells value)
  | setIntersection left right =>
    exact sound_setAlgebra h (fun _ _ _ hl _ => hl.sublist List.filter_sublist) left right
  | setDifference left right =>
    exact sound_setAlgebra h (fun _ _ _ hl _ => hl.sublist List.filter_sublist) left right
  | setSymmetricDifference left right =>
    exact sound_setAlgebra h (fun _ _ _ hl hr => sound_symmetricDifference hl hr) left right
  | setIsSubset left right output =>
    exact sound_onSet h fun _ _ => sound_onSet h fun _ _ => sound_ite (fun _ => h) (fun _ => h)
  | setIsSuperset left right output =>
    exact sound_onSet h fun _ _ => sound_onSet h fun _ _ => sound_ite (fun _ => h) (fun _ => h)

end Steps

theorem sound_run (h : runtime.Sound memory) {calls : List Call}
    (hcells : ∀ call ∈ calls, HasCells call) :
    (run memory runtime calls).2.Sound memory := by
  induction calls generalizing runtime with
  | nil => exact h
  | cons call rest ih =>
    obtain ⟨hcall, hrest⟩ := List.forall_mem_cons.mp hcells
    exact ih (sound_step h call hcall) hrest

/-! ## Reading the snapshots -/

section Snapshots

variable {isText : UInt64 → Prop} {handle : Nat} {map : RuntimeMap} {set : RuntimeSet}
  {kind : ValueKind} {values : List RuntimeValue}

theorem readable_canonical (kind : ValueKind) (values : List RuntimeValue) :
    Readable (.array ⟨canonicalArrayElementKind kind, values⟩) kind values := by
  refine ⟨_, rfl, rfl, ?_⟩
  intro index hindex value hvalue
  unfold arrayGet
  simp only [Int64.not_lt.mpr hindex, if_false, hvalue]
  simp

theorem canonical_of_readable (h : Readable (.array ⟨kind, values⟩) kind values) :
    values = [] ∨ canonicalArrayElementKind kind = kind := by
  obtain ⟨array, harray, -, hread⟩ := h
  obtain rfl := Answer.array.inj harray
  cases values with
  | nil => exact Or.inl rfl
  | cons value rest =>
    right
    have hfirst := hread 0 (by decide) value rfl
    unfold arrayGet at hfirst
    by_contra hne
    simp [Ne.symm hne] at hfirst

theorem RuntimeMap.Sound.readable (h : map.Sound) (hmap : runtime.maps[handle]? = some map) :
    Readable (mapKeys runtime handle).1 map.keyKind (map.entries.map Prod.fst) ∧
      Readable (mapValues runtime handle).1 map.valueKind (map.entries.map Prod.snd) := by
  have hkeys : ∀ key ∈ map.entries.map Prod.fst,
      represents (canonicalArrayElementKind map.keyKind) key = true := by
    intro key hkey
    obtain ⟨entry, hentry, rfl⟩ := List.mem_map.mp hkey
    exact represents_canonical (h.keys entry hentry)
  have hvalues : ∀ value ∈ map.entries.map Prod.snd,
      represents (canonicalArrayElementKind map.valueKind) value = true := by
    intro value hvalue
    obtain ⟨entry, hentry, rfl⟩ := List.mem_map.mp hvalue
    exact represents_canonical (h.values entry hentry)
  constructor
  · unfold mapKeys
    rw [hmap]
    dsimp only
    rw [storeArray_eq (validKind_canonical h.keyKind) hkeys]
    exact readable_canonical _ _
  · unfold mapValues
    rw [hmap]
    dsimp only
    rw [storeArray_eq (validKind_canonical h.valueKind) hvalues]
    exact readable_canonical _ _

theorem arrayFromSet_of_sound (h : set.Sound memory) (hset : runtime.sets[handle]? = some set) :
    (arrayFromSet runtime handle).1 = .array ⟨set.kind, set.values⟩ := by
  unfold arrayFromSet
  rw [hset]
  exact storeArray_eq h.kind h.cells

theorem setFromArray_of_sound (h : set.Sound memory) :
    setFromArray memory runtime (some ⟨set.kind, set.values⟩) =
      (.handle runtime.sets.length, { runtime with sets := runtime.sets ++ [set] }) := by
  have hunique : set.values.foldl (Lib.pushUnique (valuesEqual memory set.kind)) [] = set.values :=
    foldl_pushUnique_of_apart h.apart
  unfold setFromArray storeSet
  dsimp only
  rw [hunique]

/-- The texts of a set of the kind of texts differ, as its equality compares them. -/
theorem textsApart_of_text (h : set.Sound memory) (hkind : set.kind = .text) :
    TextsApart memory isText set.values := by
  intro i j p q bytes hi hj _ _ hp hq
  by_contra hne
  have happart := h.apart
  rw [hkind, Apart, List.pairwise_iff_getElem] at happart
  obtain ⟨hi', hi⟩ := List.getElem?_eq_some_iff.mp hi
  obtain ⟨hj', hj⟩ := List.getElem?_eq_some_iff.mp hj
  rcases Nat.lt_or_gt_of_ne hne with hlt | hlt
  · have hdiffer := happart i j hi' hj' hlt
    simp [hi, hj, valuesEqual, hp, hq] at hdiffer
  · have hdiffer := happart j i hj' hi' hlt
    simp [hi, hj, valuesEqual, hp, hq] at hdiffer

theorem textsApart_nil : TextsApart memory isText [] := by
  intro i j p q bytes hi
  simp at hi

theorem setRoundTrips_iff (h : set.Sound memory) (hset : runtime.sets[handle]? = some set) :
    SetRoundTrips memory isText runtime handle set ↔ SelfCarried memory isText set := by
  have harray := arrayFromSet_of_sound h hset
  have hback : setFromArray memory runtime (some ⟨set.kind, set.values⟩) = _ :=
    setFromArray_of_sound h
  constructor
  · intro htrip
    rcases canonical_of_readable (harray ▸ htrip.readable) with hempty | hown
    · exact Or.inl hempty
    · refine Or.inr ⟨hown, fun hptr => ?_⟩
      obtain ⟨array, handle', runtime', set', harray', hback', hset', hkind, -, htexts⟩ := htrip.back
      rw [harray] at harray'
      obtain rfl := Answer.array.inj harray'
      rw [hback] at hback'
      obtain ⟨hhandle, rfl⟩ := Prod.mk.inj hback'
      obtain rfl := Answer.handle.inj hhandle
      obtain rfl : set = set' := by simpa using hset'
      exact htexts (by rw [hptr]; decide)
  · intro hself
    refine ⟨?_, ⟨set.kind, set.values⟩, runtime.sets.length, _, set, harray, hback, by simp, rfl,
      fun _ => Iff.rfl, ?_⟩
    · rw [harray]
      rcases hself with hempty | ⟨hown, -⟩
      · refine ⟨_, rfl, rfl, ?_⟩
        intro index hindex value hvalue
        simp [hempty] at hvalue
      · have hread := readable_canonical set.kind set.values
        rwa [hown] at hread
    · intro htext
      rcases hself with hempty | ⟨hown, hptr⟩
      · rw [hempty]
        exact textsApart_nil
      · simp only [textKinds, List.mem_cons, List.not_mem_nil, or_false] at htext
        rcases htext with htext | htext | htext
        · exact textsApart_of_text h htext
        · rw [htext] at hown
          cases hown
        · exact hptr htext

end Snapshots

/-- After any calls every snapshot of a map can be read, and a set round trips through its array
    exactly when it is empty or carries its elements under the kind that arrays are read with,
    and no two of its pointers lead to the same text. -/
theorem snapshots_round_trip_iff (memory : Memory) (isText : UInt64 → Prop) (calls : List Call)
    (hcells : ∀ call ∈ calls, HasCells call) (runtime : Runtime)
    (hrun : (run memory .new calls).2 = runtime) :
    (∀ (handle : Nat) (map : RuntimeMap), runtime.maps[handle]? = some map →
      Readable (mapKeys runtime handle).1 map.keyKind (map.entries.map Prod.fst) ∧
        Readable (mapValues runtime handle).1 map.valueKind (map.entries.map Prod.snd)) ∧
    ∀ (handle : Nat) (set : RuntimeSet), runtime.sets[handle]? = some set →
      (SetRoundTrips memory isText runtime handle set ↔ SelfCarried memory isText set) := by
  have hsound : runtime.Sound memory := hrun ▸ sound_run sound_new hcells
  exact ⟨fun _ _ hmap => (hsound.getMap hmap).readable hmap,
    fun _ _ hset => setRoundTrips_iff (hsound.getSet hset) hset⟩

/-- A set of integers, and one of texts with one text in it. -/
def numbersAndTexts : List Call :=
  [.setNew .i64, .setAdd 0 .i64 (some (.i64 7)), .setNew .text, .setAdd 1 .text (some (.ptr 16))]

theorem numbers_round_trip :
    SetRoundTrips constantText (fun _ => True) (run constantText .new numbersAndTexts).2 0
      ⟨.i64, [.i64 7]⟩ :=
  ((snapshots_round_trip_iff constantText (fun _ => True) numbersAndTexts (by
    intro call hcall
    simp only [numbersAndTexts, List.mem_cons, List.not_mem_nil, or_false] at hcall
    obtain rfl | rfl | rfl | rfl := hcall <;> trivial) _ rfl).2 0 ⟨.i64, [.i64 7]⟩ (by decide)).mpr
    (Or.inr ⟨rfl, nofun⟩)

/-- The array of a set of texts keeps the kind of texts and is not read as one of pointers. -/
theorem texts_unread :
    (run constantText .new numbersAndTexts).2.sets[1]? = some ⟨.text, [.ptr 16]⟩ ∧
      (arrayFromSet (run constantText .new numbersAndTexts).2 1).1 =
        .array ⟨.text, [.ptr 16]⟩ ∧
      arrayGet (some ⟨.text, [.ptr 16]⟩) 0 (canonicalArrayElementKind .text) .writable = invalid ∧
      ¬ SetRoundTrips constantText (fun _ => True) (run constantText .new numbersAndTexts).2 1
        ⟨.text, [.ptr 16]⟩ := by
  refine ⟨by decide, by decide, by decide, fun htrip => ?_⟩
  have harray : (arrayFromSet (run constantText .new numbersAndTexts).2 1).1 =
      .array ⟨.text, [.ptr 16]⟩ := by decide
  rcases canonical_of_readable (harray ▸ htrip.readable) with h | h <;> cases h

end FaberHosts.Collections
