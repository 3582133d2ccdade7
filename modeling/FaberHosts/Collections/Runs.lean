import FaberHosts.Collections.Refinement

/-!
# Runs of collection calls

Over any run the answers and the final collections are those of finite maps and
sets, no call panics, and the keys that stay keep their order.
-/

namespace FaberHosts.Collections
open FaberHosts.Lib

/-! ## One call -/

section Step

variable {memory : Memory} {runtime : Runtime}

theorem decide_keys_eq_empty (map : RuntimeMap) :
    Answer.flag map.entries.isEmpty =
      .flag (decide ((map.abstract memory).contents.keys = ∅)) := by
  simp only [RuntimeMap.abstract, keys_contents, members_eq_empty_iff, List.map_eq_nil_iff]
  rw [Answer.flag.injEq, Bool.eq_iff_iff, List.isEmpty_iff, decide_eq_true_iff]

theorem decide_members_eq_empty (set : RuntimeSet) :
    Answer.flag set.values.isEmpty = .flag (decide ((set.abstract memory).members = ∅)) := by
  simp only [RuntimeSet.abstract, members_eq_empty_iff]
  rw [Answer.flag.injEq, Bool.eq_iff_iff, List.isEmpty_iff, decide_eq_true_iff]

theorem union_members {kind : ValueKind} {l r : List RuntimeValue}
    (hl : Distinct (IsKey memory kind) (content memory kind) l)
    (hr : Distinct (IsKey memory kind) (content memory kind) r) :
    Distinct (IsKey memory kind) (content memory kind) (union memory kind l r) ∧
      members (content memory kind) (union memory kind l r) =
        members (content memory kind) l ∪ members (content memory kind) r := by
  have hkeys : ∀ value ∈ l ++ r, IsKey memory kind value := fun value hvalue =>
    (List.mem_append.mp hvalue).elim (hl.valid value) (hr.valid value)
  obtain ⟨hdistinct, hmembers⟩ :=
    distinct_foldl_pushUnique (compares_valuesEqual memory kind) distinct_nil hkeys
  refine ⟨hdistinct, ?_⟩
  unfold union
  rw [hmembers]
  simp [members]

theorem symmetricDifference_members {kind : ValueKind} {l r : List RuntimeValue}
    (hl : Distinct (IsKey memory kind) (content memory kind) l)
    (hr : Distinct (IsKey memory kind) (content memory kind) r) :
    Distinct (IsKey memory kind) (content memory kind) (symmetricDifference memory kind l r) ∧
      members (content memory kind) (symmetricDifference memory kind l r) =
        symmDiff (members (content memory kind) l) (members (content memory kind) r) := by
  have hsame := compares_valuesEqual memory kind
  refine ⟨hl.append_filter hsame hr, ?_⟩
  have hleft := members_filter_not_holds hsame hl.valid hr.valid
  have hright := members_filter_not_holds hsame hr.valid hl.valid
  unfold members at hleft hright ⊢
  unfold symmetricDifference contains
  rw [List.map_append, List.toFinset_append, hleft, hright]
  rfl

theorem simulates_step (hwf : runtime.WellFormed memory) (call : Call)
    (hkeys : TakesKeys memory call) :
    Simulates memory (step memory runtime call) ((runtime.abstract memory).call memory call) := by
  have hsame := compares_valuesEqual memory
  cases call with
  | mapNew keyKind valueKind => exact simulates_mapNew hwf keyKind valueKind
  | mapPut handle keyKind key valueKind value =>
    exact simulates_mapPut hwf handle keyKind valueKind key value hkeys
  | aggregateSetIndex aggregate key value =>
    exact simulates_aggregateSetIndex hwf aggregate key value
  | mapOption handle keyKind key valueKind =>
    exact simulates_mapOption hwf handle keyKind valueKind key hkeys
  | mapGet handle keyKind key valueKind output =>
    exact simulates_mapGet hwf handle keyKind valueKind key output hkeys
  | mapContains handle keyKind key output =>
    exact simulates_mapContains hwf handle keyKind key output hkeys
  | mapDelete handle keyKind key output =>
    exact simulates_mapDelete hwf handle keyKind key output hkeys
  | mapLength handle output =>
    exact simulates_mapSizeQuery hwf
      (fun map hmap => congrArg lengthAnswer hmap.keys.card_keys.symm)
  | mapIsEmpty handle output =>
    exact simulates_mapSizeQuery hwf (fun map _ => decide_keys_eq_empty map)
  | mapKeys handle => exact simulates_mapKeys hwf handle
  | mapValues handle => exact simulates_mapValues hwf handle
  | setNew kind => exact simulates_setNew hwf kind
  | setAdd handle kind value => exact simulates_setAdd hwf handle kind value hkeys
  | setFromArray array => exact simulates_setFromArray hwf array hkeys
  | arrayFromSet handle => exact simulates_arrayFromSet hwf handle
  | setContains handle kind value output =>
    exact simulates_setContains hwf handle kind value output hkeys
  | setDelete handle kind value output =>
    exact simulates_setDelete hwf handle kind value output hkeys
  | setLength handle output =>
    exact simulates_setSizeQuery hwf
      (fun set hset => congrArg lengthAnswer hset.members.card_members.symm)
  | setIsEmpty handle output =>
    exact simulates_setSizeQuery hwf (fun set _ => decide_members_eq_empty set)
  | setUnion left right =>
    exact simulates_setAlgebra hwf (fun kind l r => union_members)
  | setIntersection left right =>
    exact simulates_setAlgebra hwf (fun kind l r hl hr =>
      ⟨hl.sublist List.filter_sublist, members_filter_holds (hsame kind) hl.valid hr.valid⟩)
  | setDifference left right =>
    exact simulates_setAlgebra hwf (fun kind l r hl hr =>
      ⟨hl.sublist List.filter_sublist, members_filter_not_holds (hsame kind) hl.valid hr.valid⟩)
  | setSymmetricDifference left right =>
    exact simulates_setAlgebra hwf (fun kind l r => symmetricDifference_members)
  | setIsSubset left right output =>
    exact simulates_setRelation hwf (fun kind l r => l.all (contains memory kind r))
      (fun l r => decide (l ⊆ r))
      (fun kind l r hl hr => all_holds_eq_decide (hsame kind) hl.valid hr.valid)
  | setIsSuperset left right output =>
    exact simulates_setRelation hwf (fun kind l r => r.all (contains memory kind l))
      (fun l r => decide (r ⊆ l))
      (fun kind l r hl hr => all_holds_eq_decide (hsame kind) hr.valid hl.valid)

end Step

/-! ## Order -/

/-- The keys of a map, in order. -/
def Runtime.mapKeysAt (memory : Memory) (runtime : Runtime) (handle : Nat) : List Content :=
  match runtime.maps[handle]? with
  | none => []
  | some map => (map.entries.map Prod.fst).map (content memory map.keyKind)

/-- The members of a set, in order. -/
def Runtime.membersAt (memory : Memory) (runtime : Runtime) (handle : Nat) : List Content :=
  match runtime.sets[handle]? with
  | none => []
  | some set => set.values.map (content memory set.kind)

structure OrderKept (memory : Memory) (before after : Runtime) : Prop where
  maps : ∀ handle, KeepsOrder (before.mapKeysAt memory handle) (after.mapKeysAt memory handle)
  sets : ∀ handle, KeepsOrder (before.membersAt memory handle) (after.membersAt memory handle)

section Order

variable {memory : Memory} {runtime : Runtime} {handle : Nat}

theorem orderKept_refl : OrderKept memory runtime runtime :=
  ⟨fun _ => keepsOrder_refl _, fun _ => keepsOrder_refl _⟩

theorem orderKept_setMap {map map' : RuntimeMap} (hmap : runtime.maps[handle]? = some map)
    (hkind : map'.keyKind = map.keyKind)
    (hkeys : KeepsOrder ((map.entries.map Prod.fst).map (content memory map.keyKind))
      ((map'.entries.map Prod.fst).map (content memory map.keyKind))) :
    OrderKept memory runtime (setMap runtime handle map') := by
  refine ⟨fun other => ?_, fun _ => keepsOrder_refl _⟩
  unfold Runtime.mapKeysAt setMap
  obtain ⟨hlt, -⟩ := List.getElem?_eq_some_iff.mp hmap
  by_cases hother : handle = other
  · subst hother
    rw [hmap, List.getElem?_set_self hlt]
    show KeepsOrder _ ((map'.entries.map Prod.fst).map (content memory map'.keyKind))
    rw [hkind]
    exact hkeys
  · rw [List.getElem?_set_ne hother]
    exact keepsOrder_refl _

theorem orderKept_setSet {set set' : RuntimeSet} (hset : runtime.sets[handle]? = some set)
    (hkind : set'.kind = set.kind)
    (hkeys : KeepsOrder (set.values.map (content memory set.kind))
      (set'.values.map (content memory set.kind))) :
    OrderKept memory runtime (setSet runtime handle set') := by
  refine ⟨fun _ => keepsOrder_refl _, fun other => ?_⟩
  unfold Runtime.membersAt setSet
  obtain ⟨hlt, -⟩ := List.getElem?_eq_some_iff.mp hset
  by_cases hother : handle = other
  · subst hother
    rw [hset, List.getElem?_set_self hlt]
    show KeepsOrder _ (set'.values.map (content memory set'.kind))
    rw [hkind]
    exact hkeys
  · rw [List.getElem?_set_ne hother]
    exact keepsOrder_refl _

theorem orderKept_storeSet {kind : ValueKind} {values : List RuntimeValue} :
    OrderKept memory runtime (storeSet runtime kind values).2 := by
  refine ⟨fun _ => keepsOrder_refl _, fun other => ?_⟩
  unfold Runtime.membersAt storeSet
  cases hset : runtime.sets[other]? with
  | none => exact ⟨_, rfl⟩
  | some set =>
    obtain ⟨hlt, -⟩ := List.getElem?_eq_some_iff.mp hset
    rw [List.getElem?_append_left hlt, hset]
    exact keepsOrder_refl _

theorem orderKept_storeMap {keyKind valueKind : ValueKind}
    {entries : List (RuntimeValue × RuntimeValue)} :
    OrderKept memory runtime (storeMap runtime keyKind valueKind entries).2 := by
  refine ⟨fun other => ?_, fun _ => keepsOrder_refl _⟩
  unfold Runtime.mapKeysAt storeMap
  cases hmap : runtime.maps[other]? with
  | none => exact ⟨_, rfl⟩
  | some map =>
    obtain ⟨hlt, -⟩ := List.getElem?_eq_some_iff.mp hmap
    rw [List.getElem?_append_left hlt, hmap]
    exact keepsOrder_refl _

theorem orderKept_put {map : RuntimeMap} {key value : RuntimeValue}
    (hmap : runtime.maps[handle]? = some map) :
    OrderKept memory runtime (setMap runtime handle (map.put memory key value)) := by
  apply orderKept_setMap hmap (show (map.put memory key value).keyKind = map.keyKind from rfl)
  unfold RuntimeMap.put
  rw [keys_assign]
  exact keepsOrder_pushUnique

theorem orderKept_delete {map : RuntimeMap} {key : RuntimeValue} (hwf : map.WellFormed memory)
    (hmap : runtime.maps[handle]? = some map) :
    OrderKept memory runtime (setMap runtime handle (map.delete memory key)) := by
  apply orderKept_setMap hmap (show (map.delete memory key).keyKind = map.keyKind from rfl)
  unfold RuntimeMap.delete
  have hfilter := keepsOrder_filter
    (fun candidate => !valuesEqual memory map.keyKind candidate key) hwf.keys.nodup
  rwa [List.filter_map] at hfilter

theorem orderKept_onMap {otherwise : Answer} {body : RuntimeMap → Answer × Runtime}
    (hbody : ∀ map, runtime.maps[handle]? = some map → OrderKept memory runtime (body map).2) :
    OrderKept memory runtime
      (match runtime.maps[handle]? with
        | none => (otherwise, runtime)
        | some map => body map).2 := by
  cases hmap : runtime.maps[handle]? with
  | none => exact orderKept_refl
  | some map => exact hbody map hmap

theorem orderKept_onSet {body : RuntimeSet → Answer × Runtime}
    (hbody : ∀ set, runtime.sets[handle]? = some set → OrderKept memory runtime (body set).2) :
    OrderKept memory runtime
      (match runtime.sets[handle]? with
        | none => (invalid, runtime)
        | some set => body set).2 := by
  cases hset : runtime.sets[handle]? with
  | none => exact orderKept_refl
  | some set => exact hbody set hset

theorem orderKept_onValue {kind : ValueKind} {cell : Cell}
    {body : RuntimeValue → Answer × Runtime}
    (hbody : ∀ value, OrderKept memory runtime (body value).2) :
    OrderKept memory runtime
      (match readValue kind cell with
        | none => (invalid, runtime)
        | some value => body value).2 := by
  cases readValue kind cell with
  | none => exact orderKept_refl
  | some value => exact hbody value

theorem orderKept_ite {c : Prop} [Decidable c] {a : Answer} {r : Answer × Runtime}
    (hr : OrderKept memory runtime r.2) :
    OrderKept memory runtime (if c then (a, runtime) else r).2 := by
  by_cases hc : c
  · rw [if_pos hc]
    exact orderKept_refl
  · rw [if_neg hc]
    exact hr

theorem orderKept_setAlgebra
    {operation : ValueKind → List RuntimeValue → List RuntimeValue → List RuntimeValue}
    {left right : Nat} : OrderKept memory runtime (setAlgebra runtime operation left right).2 := by
  apply orderKept_onSet
  intro l _
  apply orderKept_onSet
  intro r _
  exact orderKept_ite orderKept_storeSet

theorem orderKept_setRelation
    {relation : ValueKind → List RuntimeValue → List RuntimeValue → Bool}
    {left right : Nat} {output : Output} :
    OrderKept memory runtime (setRelation runtime relation left right output).2 := by
  apply orderKept_onSet
  intro l _
  apply orderKept_onSet
  intro r _
  exact orderKept_ite orderKept_refl

theorem orderKept_setQuery (hwf : runtime.WellFormed memory) {remove : Bool} {kind : ValueKind}
    {value : Cell} {output : Output} :
    OrderKept memory runtime (setQuery memory runtime remove handle kind value output).2 := by
  apply orderKept_onValue
  intro v
  apply orderKept_onSet
  intro set hset
  apply orderKept_ite
  cases remove with
  | false => exact orderKept_refl
  | true =>
    exact orderKept_setSet hset rfl (keepsOrder_filter _
      (hwf.sets set (List.mem_of_getElem? hset)).members.nodup)

theorem orderKept_step (hwf : runtime.WellFormed memory) (call : Call) :
    OrderKept memory runtime (step memory runtime call).2 := by
  cases call with
  | mapNew keyKind valueKind => exact orderKept_ite orderKept_storeMap
  | mapPut handle keyKind key valueKind value =>
    apply orderKept_onValue
    intro k
    apply orderKept_onValue
    intro v
    apply orderKept_onMap
    intro map hmap
    exact orderKept_ite (orderKept_put hmap)
  | aggregateSetIndex aggregate key value =>
    show OrderKept memory runtime (aggregateSetIndex memory runtime aggregate key value).2
    unfold aggregateSetIndex
    split
    · exact orderKept_refl
    · apply orderKept_onMap
      intro map hmap
      exact orderKept_ite (orderKept_put hmap)
  | mapOption handle keyKind key valueKind =>
    apply orderKept_onValue
    intro k
    apply orderKept_onMap
    intro map _
    exact orderKept_ite orderKept_refl
  | mapGet handle keyKind key valueKind output =>
    apply orderKept_onValue
    intro k
    apply orderKept_onMap
    intro map _
    apply orderKept_ite
    split
    · exact orderKept_refl
    · exact orderKept_ite orderKept_refl
  | mapContains handle keyKind key output =>
    apply orderKept_onValue
    intro k
    apply orderKept_onMap
    intro map hmap
    apply orderKept_ite
    show OrderKept memory runtime (setMap runtime handle map)
    rw [setMap_self hmap]
    exact orderKept_refl
  | mapDelete handle keyKind key output =>
    apply orderKept_onValue
    intro k
    apply orderKept_onMap
    intro map hmap
    exact orderKept_ite (orderKept_delete (hwf.maps map (List.mem_of_getElem? hmap)) hmap)
  | mapLength handle output =>
    apply orderKept_onMap
    intro map _
    exact orderKept_ite orderKept_refl
  | mapIsEmpty handle output =>
    apply orderKept_onMap
    intro map _
    exact orderKept_ite orderKept_refl
  | mapKeys handle =>
    apply orderKept_onMap
    exact fun map _ => orderKept_refl
  | mapValues handle =>
    apply orderKept_onMap
    exact fun map _ => orderKept_refl
  | setNew kind => exact orderKept_ite orderKept_storeSet
  | setAdd handle kind value =>
    apply orderKept_onValue
    intro v
    apply orderKept_onSet
    intro set hset
    apply orderKept_ite
    exact orderKept_setSet hset rfl keepsOrder_pushUnique
  | setFromArray array =>
    cases array with
    | none => exact orderKept_refl
    | some array => exact orderKept_storeSet
  | arrayFromSet handle =>
    apply orderKept_onSet
    exact fun set _ => orderKept_refl
  | setContains handle kind value output => exact orderKept_setQuery hwf
  | setDelete handle kind value output => exact orderKept_setQuery hwf
  | setLength handle output =>
    apply orderKept_onSet
    intro set _
    exact orderKept_ite orderKept_refl
  | setIsEmpty handle output =>
    apply orderKept_onSet
    intro set _
    exact orderKept_ite orderKept_refl
  | setUnion left right => exact orderKept_setAlgebra
  | setIntersection left right => exact orderKept_setAlgebra
  | setDifference left right => exact orderKept_setAlgebra
  | setSymmetricDifference left right => exact orderKept_setAlgebra
  | setIsSubset left right output => exact orderKept_setRelation
  | setIsSuperset left right output => exact orderKept_setRelation

end Order

/-! ## New sets -/

def Runtime.valuesAt (runtime : Runtime) (handle : Nat) : List RuntimeValue :=
  match runtime.sets[handle]? with
  | none => []
  | some set => set.values

section NewSets

variable {memory : Memory} {runtime : Runtime}

theorem algebra_sublist
    {operation : ValueKind → List RuntimeValue → List RuntimeValue → List RuntimeValue}
    (hoperation : ∀ kind l r, (operation kind l r).Sublist (l ++ r)) {left right : Nat}
    {set : RuntimeSet}
    (hnew : (setAlgebra runtime operation left right).2.sets = runtime.sets ++ [set]) :
    set.values.Sublist (runtime.valuesAt left ++ runtime.valuesAt right) := by
  have hsame : runtime.sets ≠ runtime.sets ++ [set] := by simp
  unfold setAlgebra at hnew
  split at hnew
  · exact absurd hnew hsame
  next l hl =>
    split at hnew
    · exact absurd hnew hsame
    next r hr =>
      split at hnew
      · exact absurd hnew hsame
      · have hset := List.singleton_inj.mp (List.append_cancel_left hnew)
        have hleft : runtime.valuesAt left = l.values := by simp only [Runtime.valuesAt, hl]
        have hright : runtime.valuesAt right = r.values := by simp only [Runtime.valuesAt, hr]
        rw [hleft, hright, ← hset]
        exact hoperation l.kind l.values r.values

theorem union_sublist (kind : ValueKind) (l r : List RuntimeValue) :
    (union memory kind l r).Sublist (l ++ r) := sublist_foldl_pushUnique

theorem intersection_sublist (kind : ValueKind) (l r : List RuntimeValue) :
    (intersection memory kind l r).Sublist (l ++ r) :=
  List.filter_sublist.trans (List.sublist_append_left l r)

theorem difference_sublist (kind : ValueKind) (l r : List RuntimeValue) :
    (difference memory kind l r).Sublist (l ++ r) :=
  List.filter_sublist.trans (List.sublist_append_left l r)

theorem symmetricDifference_sublist (kind : ValueKind) (l r : List RuntimeValue) :
    (symmetricDifference memory kind l r).Sublist (l ++ r) :=
  List.filter_sublist.append List.filter_sublist

/-- A new set has its values in the order in which they came. -/
structure NewSetsOrdered (memory : Memory) (runtime : Runtime) : Prop where
  fromArray : ∀ array set,
    (setFromArray memory runtime (some array)).2.sets = runtime.sets ++ [set] →
    set.values.Sublist array.values
  union : ∀ left right set,
    (setUnion memory runtime left right).2.sets = runtime.sets ++ [set] →
    set.values.Sublist (runtime.valuesAt left ++ runtime.valuesAt right)
  intersection : ∀ left right set,
    (setIntersection memory runtime left right).2.sets = runtime.sets ++ [set] →
    set.values.Sublist (runtime.valuesAt left ++ runtime.valuesAt right)
  difference : ∀ left right set,
    (setDifference memory runtime left right).2.sets = runtime.sets ++ [set] →
    set.values.Sublist (runtime.valuesAt left ++ runtime.valuesAt right)
  symmetricDifference : ∀ left right set,
    (setSymmetricDifference memory runtime left right).2.sets = runtime.sets ++ [set] →
    set.values.Sublist (runtime.valuesAt left ++ runtime.valuesAt right)

theorem newSetsOrdered : NewSetsOrdered memory runtime where
  fromArray := by
    intro array set hnew
    have hset := List.singleton_inj.mp (List.append_cancel_left hnew)
    rw [← hset]
    exact sublist_foldl_pushUnique
  union := fun _ _ _ => algebra_sublist union_sublist
  intersection := fun _ _ _ => algebra_sublist intersection_sublist
  difference := fun _ _ _ => algebra_sublist difference_sublist
  symmetricDifference := fun _ _ _ => algebra_sublist symmetricDifference_sublist

end NewSets

/-! ## Runs -/

section Runs

variable {memory : Memory} {runtime : Runtime}

theorem call_ne_panic (memory : Memory) (store : Store) (call : Call) :
    (store.call memory call).1 ≠ .answer (.failure .panic) := by
  cases call <;>
    simp only [Store.call, Store.onValue, Store.onMap, Store.onSet, Store.addSet, lengthAnswer] <;>
    (repeat' split) <;> simp

theorem wellFormed_new : Runtime.new.WellFormed memory := ⟨by simp [Runtime.new], by simp [Runtime.new]⟩

theorem run_append (first rest : List Call) :
    (run memory runtime (first ++ rest)).2 = (run memory (run memory runtime first).2 rest).2 := by
  induction first generalizing runtime with
  | nil => rfl
  | cons call first ih => exact ih

theorem simulates_run (hwf : runtime.WellFormed memory) {calls : List Call}
    (hkeys : ∀ call ∈ calls, TakesKeys memory call) :
    List.Forall₂ (Matches memory) (run memory runtime calls).1
        ((runtime.abstract memory).run memory calls).1 ∧
      (run memory runtime calls).2.WellFormed memory ∧
      (run memory runtime calls).2.abstract memory =
        ((runtime.abstract memory).run memory calls).2 := by
  induction calls generalizing runtime with
  | nil => exact ⟨List.Forall₂.nil, hwf, rfl⟩
  | cons call rest ih =>
    have hstep := simulates_step hwf call (hkeys call (by simp))
    obtain ⟨hanswers, hrest, hstate⟩ :=
      ih hstep.wellFormed (fun later hlater => hkeys later (by simp [hlater]))
    rw [hstep.state] at hanswers hstate
    exact ⟨List.Forall₂.cons hstep.answer hanswers, hrest, hstate⟩

theorem run_ne_panic (hwf : runtime.WellFormed memory) {calls : List Call}
    (hkeys : ∀ call ∈ calls, TakesKeys memory call) :
    ∀ answer ∈ (run memory runtime calls).1, answer ≠ .failure .panic := by
  induction calls generalizing runtime with
  | nil => simp [run]
  | cons call rest ih =>
    have hstep := simulates_step hwf call (hkeys call (by simp))
    intro answer hanswer
    rcases List.mem_cons.mp hanswer with rfl | hlater
    · intro hpanic
      have hmatches := hstep.answer
      have hstore := call_ne_panic memory (runtime.abstract memory) call
      cases hexpected : ((runtime.abstract memory).call memory call).1 with
      | answer expected =>
        rw [hexpected] at hmatches hstore
        exact hstore (congrArg StoreAnswer.answer (hmatches.symm.trans hpanic))
      | keys elementKind kind keys =>
        rw [hexpected] at hmatches
        obtain ⟨values, heq, -⟩ := hmatches
        cases heq.symm.trans hpanic
      | values elementKind values =>
        rw [hexpected] at hmatches
        obtain ⟨values, heq, -⟩ := hmatches
        cases heq.symm.trans hpanic
    · exact ih hstep.wellFormed (fun later hmem => hkeys later (by simp [hmem])) answer hlater

/-- A key that `view` shows before and after each call of a run. -/
def Survives (memory : Memory) (runtime : Runtime) (view : Runtime → List Content)
    (calls : List Call) (k : Content) : Prop :=
  ∀ done rest, calls = done ++ rest → k ∈ view (run memory runtime done).2

theorem pair_run {view : Runtime → List Content}
    (hview : ∀ runtime' : Runtime, runtime'.WellFormed memory → ∀ call,
      KeepsOrder (view runtime') (view (step memory runtime' call).2))
    (hwf : runtime.WellFormed memory) {calls : List Call}
    (hkeys : ∀ call ∈ calls, TakesKeys memory call) {k k' : Content}
    (hpair : [k, k'].Sublist (view runtime)) (hk : Survives memory runtime view calls k)
    (hk' : Survives memory runtime view calls k') :
    [k, k'].Sublist (view (run memory runtime calls).2) := by
  induction calls generalizing runtime with
  | nil => exact hpair
  | cons call rest ih =>
    have hstep := simulates_step hwf call (hkeys call (by simp))
    have hnext : [k, k'].Sublist (view (step memory runtime call).2) :=
      (hview runtime hwf call).pair hpair (hk [call] rest rfl) (hk' [call] rest rfl)
    apply ih hstep.wellFormed (fun later hlater => hkeys later (by simp [hlater])) hnext
    · intro done later heq
      exact hk (call :: done) later (congrArg (call :: ·) heq)
    · intro done later heq
      exact hk' (call :: done) later (congrArg (call :: ·) heq)

/-- Runs of map and set calls are runs of finite maps and sets. -/
theorem collections_refine (memory : Memory) (calls : List Call)
    (hkeys : ∀ call ∈ calls, TakesKeys memory call) :
    let final := run memory .new calls
    let expected := Store.new.run memory calls
    List.Forall₂ (Matches memory) final.1 expected.1 ∧
    final.2.abstract memory = expected.2 ∧
    final.2.WellFormed memory ∧
    (∀ answer ∈ final.1, answer ≠ .failure .panic) ∧
    NewSetsOrdered memory final.2 ∧
    ∀ early late, calls = early ++ late →
      ∀ view, (∃ handle, view = (Runtime.mapKeysAt memory · handle) ∨
        view = (Runtime.membersAt memory · handle)) →
      ∀ k k', [k, k'].Sublist (view (run memory .new early).2) →
        Survives memory (run memory .new early).2 view late k →
        Survives memory (run memory .new early).2 view late k' →
        [k, k'].Sublist (view final.2) := by
  intro final expected
  have hnew : Runtime.new.WellFormed memory := wellFormed_new
  obtain ⟨hanswers, hwf, hstate⟩ := simulates_run hnew hkeys
  refine ⟨hanswers, hstate, hwf, run_ne_panic hnew hkeys, newSetsOrdered, ?_⟩
  intro early late heq view hview k k' hpair hk hk'
  subst heq
  have hearly := (simulates_run hnew
    (fun call hcall => hkeys call (List.mem_append_left late hcall))).2.1
  have hlate : ∀ call ∈ late, TakesKeys memory call :=
    fun call hcall => hkeys call (List.mem_append_right early hcall)
  show [k, k'].Sublist (view (run memory .new (early ++ late)).2)
  rw [run_append]
  refine pair_run ?_ hearly hlate hpair hk hk'
  obtain ⟨handle, rfl | rfl⟩ := hview
  · exact fun runtime' hruntime call => (orderKept_step hruntime call).maps handle
  · exact fun runtime' hruntime call => (orderKept_step hruntime call).sets handle

end Runs

/-- Every text has the one byte `a`. -/
def constantText : Memory where
  slice := fun text => ⟨text, 1⟩
  read := fun _ len => List.replicate len 97

/-- Two puts under texts of the same content at different places. -/
def sameTextTwice : List Call :=
  [.mapNew .text .i64, .mapPut 0 .text (some (.ptr 16)) .i64 (some (.i64 1)),
    .mapPut 0 .text (some (.ptr 32)) .i64 (some (.i64 2)), .mapLength 0 .writable]

theorem collections_refine_sameText :
    (run constantText .new sameTextTwice).1 = [.handle 0, .ok, .ok, .length 1] ∧
      (run constantText .new sameTextTwice).2.abstract constantText =
        (Store.new.run constantText sameTextTwice).2 := by
  refine ⟨by decide, (collections_refine constantText sameTextTwice ?_).2.1⟩
  intro call hcall
  simp only [sameTextTwice, List.mem_cons, List.not_mem_nil, or_false] at hcall
  obtain rfl | rfl | rfl | rfl := hcall
  · trivial
  · intro value hvalue
    cases hvalue
    exact ⟨rfl, by decide, by decide, fun _ => ⟨16, [97], rfl, by decide⟩⟩
  · intro value hvalue
    cases hvalue
    exact ⟨rfl, by decide, by decide, fun _ => ⟨32, [97], rfl, by decide⟩⟩
  · trivial

end FaberHosts.Collections
