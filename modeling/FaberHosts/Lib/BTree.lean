import Mathlib

/-!
# Ordered finite maps and sets

`BTreeMap` and `BTreeSet` are the extensional ordered trees of the standard
library, compared by the `Ord` instance of their keys: equal exactly when they
hold the same entries, and listed in increasing key order.  A key type gets its
order from an injective encoding into a type whose order is already lawful.
-/

namespace FaberHosts.Lib

abbrev BTreeMap (K V : Type) [Ord K] := Std.ExtTreeMap K V compare

abbrev BTreeSet (K : Type) [Ord K] := Std.ExtTreeSet K compare

/-- The order read off an encoding separates distinct values as soon as the
    encoding does. -/
theorem lawfulEq_compareOn {α β : Type} [Ord β] [Std.LawfulEqOrd β] {key : α → β}
    (hkey : Function.Injective key) : Std.LawfulEqCmp (compareOn key) where
  compare_self := by
    intro a
    exact Std.compare_self
  eq_of_compare := by
    intro a b h
    exact hkey (Std.LawfulEqOrd.eq_of_compare h)

/-- Pairs compare lexicographically. -/
instance pairOrd {α β : Type} [Ord α] [Ord β] : Ord (α × β) := lexOrd

variable {K V : Type} [Ord K] [Std.TransOrd K]

/-- The set of keys of a map. -/
def keySet (m : BTreeMap K V) : BTreeSet K := Std.ExtTreeSet.ofList m.keys compare

/-- The set holding the elements of a list. -/
def setOf (l : List K) : BTreeSet K := Std.ExtTreeSet.ofList l compare

/-- The map giving each key of a set its value. -/
def mapOver (s : BTreeSet K) (value : K → V) : BTreeMap K V :=
  Std.ExtTreeMap.ofList (s.toList.map (fun k => (k, value k))) compare

theorem nodup_toList (s : BTreeSet K) : s.toList.Nodup := by
  refine (Std.ExtTreeSet.distinct_toList (t := s)).imp ?_
  intro a b hne heq
  exact hne (by rw [heq]; exact Std.compare_self)

@[simp] theorem toList_setOf_singleton (k : K) : (setOf [k]).toList = [k] := rfl

@[simp] theorem toList_empty : (∅ : BTreeSet K).toList = [] := rfl

theorem contains_eq_false_iff (s : BTreeSet K) (a : K) : s.contains a = false ↔ a ∉ s := by
  rw [← Std.ExtTreeSet.contains_iff_mem, Bool.not_eq_true]

theorem mem_iff_getElem? (m : BTreeMap K V) (k : K) : k ∈ m ↔ ∃ v, m[k]? = some v := by
  rw [Std.ExtTreeMap.mem_iff_isSome_getElem?, Option.isSome_iff_exists]

variable [Std.LawfulEqOrd K]

@[simp] theorem empty_sdiff (s : BTreeSet K) : (∅ : BTreeSet K) \ s = ∅ := by
  refine Std.ExtTreeSet.ext_mem (fun a => ?_)
  simp

theorem mem_insert_iff (s : BTreeSet K) (k a : K) : a ∈ s.insert k ↔ a = k ∨ a ∈ s := by
  rw [Std.ExtTreeSet.mem_insert, Std.LawfulEqOrd.compare_eq_iff_eq]
  exact or_congr_left eq_comm

theorem eq_empty_of_forall_getElem? {m : BTreeMap K V} (h : ∀ k : K, m[k]? = none) :
    m = ∅ := by
  apply Std.ExtTreeMap.ext_getElem?
  intro k
  simp [h k]

theorem getElem?_foldl_insert_of_ne {entries : List (K × V)} {m : BTreeMap K V} {k : K}
    (hk : ∀ entry ∈ entries, entry.1 ≠ k) :
    (entries.foldl (fun m entry => m.insert entry.1 entry.2) m)[k]? = m[k]? := by
  induction entries generalizing m with
  | nil => rfl
  | cons entry rest ih =>
    rw [List.foldl_cons, ih (fun e he => hk e (by simp [he])), Std.ExtTreeMap.getElem?_insert,
      if_neg (by simpa using hk entry (by simp))]

theorem getElem?_foldl_insert [DecidableEq K] {entries : List (K × V)} {m : BTreeMap K V} {k : K} :
    (entries.foldl (fun m entry => m.insert entry.1 entry.2) m)[k]? =
      ((entries.filter (fun entry => entry.1 = k)).getLast?.map Prod.snd).or m[k]? := by
  induction entries using List.reverseRecOn with
  | nil => simp
  | append_singleton entries entry ih =>
    rw [List.foldl_append, List.foldl_cons, List.foldl_nil, Std.ExtTreeMap.getElem?_insert,
      List.filter_append]
    by_cases hk : entry.1 = k
    · simp [hk]
    · simpa [hk] using ih

/-- Of entries with distinct keys each one is found after their insertion. -/
theorem getElem?_foldl_insert_of_mem {entries : List (K × V)} {m : BTreeMap K V} {entry : K × V}
    (hkeys : (entries.map Prod.fst).Nodup) (hentry : entry ∈ entries) :
    (entries.foldl (fun m entry => m.insert entry.1 entry.2) m)[entry.1]? = some entry.2 := by
  induction entries generalizing m with
  | nil => cases hentry
  | cons first rest ih =>
    obtain ⟨hfirst, hrest⟩ := List.nodup_cons.mp hkeys
    rw [List.foldl_cons]
    rcases List.mem_cons.mp hentry with rfl | hentry
    · rw [getElem?_foldl_insert_of_ne]
      · simp
      · exact fun e he heq => hfirst (heq ▸ List.mem_map_of_mem he)
    · exact ih hrest hentry

theorem getElem?_foldl_insert_iff {entries : List (K × V)} {m : BTreeMap K V} {k : K} {v : V}
    (hkeys : (entries.map Prod.fst).Nodup) :
    (entries.foldl (fun m entry => m.insert entry.1 entry.2) m)[k]? = some v ↔
      (k, v) ∈ entries ∨ k ∉ entries.map Prod.fst ∧ m[k]? = some v := by
  by_cases hk : k ∈ entries.map Prod.fst
  · obtain ⟨entry, hentry, rfl⟩ := List.mem_map.mp hk
    rw [getElem?_foldl_insert_of_mem hkeys hentry, Option.some.injEq]
    constructor
    · rintro rfl
      exact Or.inl hentry
    · rintro (hmem | ⟨hnot, -⟩)
      · have hsame := List.inj_on_of_nodup_map hkeys hmem hentry rfl
        exact (congrArg Prod.snd hsame).symm
      · exact absurd hk hnot
  · have hother : ∀ entry ∈ entries, entry.1 ≠ k := by
      rintro entry hentry rfl
      exact hk (List.mem_map_of_mem hentry)
    rw [getElem?_foldl_insert_of_ne hother]
    constructor
    · exact fun h => Or.inr ⟨hk, h⟩
    · rintro (hmem | ⟨-, h⟩)
      · exact absurd rfl (hother _ hmem)
      · exact h

theorem mem_foldl_insert_iff {entries : List (K × V)} {m : BTreeMap K V} {k : K} :
    k ∈ entries.foldl (fun m entry => m.insert entry.1 entry.2) m ↔
      k ∈ entries.map Prod.fst ∨ k ∈ m := by
  induction entries generalizing m with
  | nil => simp
  | cons entry rest ih =>
    rw [List.foldl_cons, ih, Std.ExtTreeMap.mem_insert, Std.LawfulEqOrd.compare_eq_iff_eq,
      List.map_cons, List.mem_cons]
    tauto

theorem size_foldl_insert {entries : List (K × V)} {m : BTreeMap K V}
    (hkeys : (entries.map Prod.fst).Nodup) (hnew : ∀ entry ∈ entries, entry.1 ∉ m) :
    (entries.foldl (fun m entry => m.insert entry.1 entry.2) m).size = m.size + entries.length := by
  induction entries generalizing m with
  | nil => rfl
  | cons entry rest ih =>
    obtain ⟨hentry, hrest⟩ := List.nodup_cons.mp hkeys
    rw [List.foldl_cons, ih hrest, Std.ExtTreeMap.size_insert,
      if_neg (by simpa using hnew entry (by simp)), List.length_cons]
    · omega
    · intro later hlater
      rw [Std.ExtTreeMap.mem_insert, Std.LawfulEqOrd.compare_eq_iff_eq]
      rintro (heq | hmem)
      · exact hentry (heq ▸ List.mem_map_of_mem hlater)
      · exact hnew later (by simp [hlater]) hmem

/-- Entries with distinct keys inserted into the empty map are its entries. -/
theorem mem_toList_foldl_insert {entries : List (K × V)}
    (hkeys : (entries.map Prod.fst).Nodup) {entry : K × V} :
    entry ∈ (entries.foldl (fun m entry => m.insert entry.1 entry.2)
      (∅ : BTreeMap K V)).toList ↔ entry ∈ entries := by
  obtain ⟨k, v⟩ := entry
  rw [Std.ExtTreeMap.mem_toList_iff_getElem?_eq_some]
  constructor
  · intro hget
    have hmem : k ∈ entries.map Prod.fst := by
      by_contra hnone
      have hother : ∀ e ∈ entries, e.1 ≠ k := by
        rintro e he rfl
        exact hnone (List.mem_map_of_mem he)
      rw [getElem?_foldl_insert_of_ne hother] at hget
      simp at hget
    obtain ⟨entry, hentry, rfl⟩ := List.mem_map.mp hmem
    rw [getElem?_foldl_insert_of_mem hkeys hentry] at hget
    rwa [← Option.some.inj hget]
  · exact getElem?_foldl_insert_of_mem hkeys

theorem nodup_keys_toList (m : BTreeMap K V) : (m.toList.map Prod.fst).Nodup := by
  rw [List.Nodup, List.pairwise_map]
  refine Std.ExtTreeMap.distinct_keys_toList.imp ?_
  intro a b hne heq
  exact hne (by rw [heq]; exact Std.compare_self)

theorem foldl_insert_toList (m : BTreeMap K V) :
    m.toList.foldl (fun map entry => map.insert entry.1 entry.2) ∅ = m := by
  apply Std.ExtTreeMap.ext_getElem?
  intro k
  cases hk : m[k]? with
  | some v =>
    have hentry : (k, v) ∈ m.toList := Std.ExtTreeMap.mem_toList_iff_getElem?_eq_some.mpr hk
    have hget := getElem?_foldl_insert_of_mem (m := ∅) (nodup_keys_toList m) hentry
    exact hget
  | none =>
    rw [getElem?_foldl_insert_of_ne]
    · simp
    · rintro entry hentry rfl
      rw [Std.ExtTreeMap.mem_toList_iff_getElem?_eq_some.mp hentry] at hk
      cases hk

section Decidable

variable [DecidableEq K]

@[simp] theorem mem_keySet (m : BTreeMap K V) (k : K) : k ∈ keySet m ↔ k ∈ m := by
  simp [keySet, Std.ExtTreeSet.mem_ofList]

theorem getElem?_mapOver (s : BTreeSet K) (value : K → V) (k : K) :
    (mapOver s value)[k]? = if k ∈ s then some (value k) else none := by
  by_cases hk : k ∈ s
  · rw [if_pos hk]
    refine Std.ExtTreeMap.getElem?_ofList_of_mem (k := k) Std.compare_self ?_ ?_
    · simpa [List.pairwise_map, List.Nodup] using nodup_toList s
    · simpa using hk
  · rw [if_neg hk]
    apply Std.ExtTreeMap.getElem?_ofList_of_contains_eq_false
    simpa using hk

theorem mem_toList_mapOver {s : BTreeSet K} {value : K → V} {k : K} {v : V} :
    (k, v) ∈ (mapOver s value).toList ↔ k ∈ s ∧ v = value k := by
  rw [Std.ExtTreeMap.mem_toList_iff_getElem?_eq_some, getElem?_mapOver]
  by_cases hk : k ∈ s
  · simp [hk, eq_comm]
  · simp [hk]

theorem toList_mapOver (s : BTreeSet K) (value : K → V) :
    (mapOver s value).toList = s.toList.map (fun k => (k, value k)) := by
  let earlier : K × V → K × V → Prop := fun a b => compare a.1 b.1 = .lt
  have hirrefl : Std.Irrefl earlier := ⟨fun a => by simp [earlier, Std.compare_self]⟩
  have hantisymm : Std.Antisymm earlier := ⟨fun a b hab hba => by
    have hswap : compare b.1 a.1 = .gt := Std.OrientedCmp.gt_of_lt hab
    rw [hba] at hswap
    cases hswap⟩
  refine List.Pairwise.eq_of_mem_iff (r := earlier) Std.ExtTreeMap.ordered_keys_toList ?_ ?_
  · exact List.pairwise_map.mpr Std.ExtTreeSet.ordered_toList
  · rintro ⟨k, v⟩
    rw [mem_toList_mapOver, List.mem_map]
    constructor
    · rintro ⟨hk, rfl⟩
      exact ⟨k, by simpa using hk, rfl⟩
    · rintro ⟨k', hk', hentry⟩
      cases hentry
      exact ⟨by simpa using hk', rfl⟩

theorem mem_mapOver {s : BTreeSet K} {value : K → V} {k : K} : k ∈ mapOver s value ↔ k ∈ s := by
  rw [mem_iff_getElem?, getElem?_mapOver]
  by_cases hk : k ∈ s
  · simp [hk]
  · simp [hk]

@[simp] theorem mem_setOf (l : List K) (k : K) : k ∈ setOf l ↔ k ∈ l := by
  simp [setOf, Std.ExtTreeSet.mem_ofList]

/-- A set made of a list has as many elements as the list has different ones. -/
theorem size_setOf (l : List K) : (setOf l).size = l.toFinset.card := by
  rw [← Std.ExtTreeSet.length_toList, ← List.toFinset_card_of_nodup (nodup_toList (setOf l))]
  congr 1
  ext k
  simp

end Decidable

end FaberHosts.Lib
