import Mathlib

/-!
# Items dealt out in contiguous blocks

`Holds` says that an owner has a block of so many items that stand side by side.  Items
dealt out in order, `c` to each of a list of different owners, are held in blocks of `c`;
and where all items are held in equal blocks that fill the list, no item comes twice.
-/

namespace FaberHosts.Lib

variable {α β : Type}

/-- The items of an owner are `count` different ones, side by side. -/
def Holds (items : List α) (ownerOf : α → Option β) (count : Nat) (owner : β) : Prop :=
  ∃ before block after, items = before ++ block ++ after ∧ block.length = count ∧ block.Nodup ∧
    ∀ item ∈ items, ownerOf item = some owner ↔ item ∈ block

variable {items : List α} {ownerOf : α → Option β} {owners : List β} {count : Nat}

/-- Items dealt out in order, so many to each owner, are held in blocks. -/
theorem holds_of_dealt (hitems : items.Nodup) (howners : owners.Nodup)
    (hcount : 0 < count) (hlength : owners.length * count = items.length)
    (hdealt : ∀ i (h : i < items.length), ownerOf items[i] = owners[i / count]?) :
    ∀ owner ∈ owners, Holds items ownerOf count owner := by
  intro owner howner
  obtain ⟨j, hj, rfl⟩ := List.mem_iff_getElem.mp howner
  have hend : j * count + count ≤ items.length := by
    rw [← hlength, ← Nat.succ_mul]
    exact Nat.mul_le_mul_right count hj
  have hblock : ((items.drop (j * count)).take count).length = count := by
    rw [List.length_take, List.length_drop]
    omega
  refine ⟨items.take (j * count), (items.drop (j * count)).take count,
    items.drop (j * count + count), ?_, hblock, ?_, ?_⟩
  · rw [List.append_assoc, ← List.drop_drop, List.take_append_drop, List.take_append_drop]
  · exact (hitems.sublist (List.drop_sublist _ _)).sublist (List.take_sublist _ _)
  · intro item hitem
    obtain ⟨i, hi, rfl⟩ := List.mem_iff_getElem.mp hitem
    have hchunk : i / count < owners.length := by
      rw [Nat.div_lt_iff_lt_mul hcount, hlength]
      exact hi
    rw [hdealt i hi, List.getElem?_eq_getElem hchunk, Option.some.injEq, howners.getElem_inj_iff]
    have hrange : i / count = j ↔ j * count ≤ i ∧ i < j * count + count := by
      rw [Nat.div_eq_iff hcount]
      omega
    rw [hrange]
    constructor
    · rintro ⟨hlow, hhigh⟩
      rw [List.mem_iff_getElem]
      refine ⟨i - j * count, by rw [hblock]; omega, ?_⟩
      rw [List.getElem_take, List.getElem_drop]
      congr 1
      omega
    · intro hmem
      obtain ⟨m, hm, hsame⟩ := List.mem_iff_getElem.mp hmem
      rw [hblock] at hm
      rw [List.getElem_take, List.getElem_drop, hitems.getElem_inj_iff] at hsame
      omega

variable [DecidableEq α] [DecidableEq β]

theorem nodup_of_holds {owners : Finset β} (hlength : owners.card * count = items.length)
    (howned : ∀ item ∈ items, ∃ owner ∈ owners, ownerOf item = some owner)
    (hholds : ∀ owner ∈ owners, Holds items ownerOf count owner) : items.Nodup := by
  have hfiber : ∀ owner ∈ owners,
      (items.toFinset.filter (fun item => ownerOf item = some owner)).card = count := by
    intro owner howner
    obtain ⟨before, block, after, hitems, hcount, hnodup, hblock⟩ := hholds owner howner
    have hsame : items.toFinset.filter (fun item => ownerOf item = some owner) =
        block.toFinset := by
      ext item
      rw [Finset.mem_filter, List.mem_toFinset, List.mem_toFinset]
      constructor
      · rintro ⟨hitem, howned⟩
        exact (hblock item hitem).mp howned
      · intro hitem
        have hmem : item ∈ items := by simp [hitems, hitem]
        exact ⟨hmem, (hblock item hmem).mpr hitem⟩
    rw [hsame, List.toFinset_card_of_nodup hnodup, hcount]
  have hsplit : items.toFinset = owners.biUnion
      (fun owner => items.toFinset.filter (fun item => ownerOf item = some owner)) := by
    ext item
    rw [Finset.mem_biUnion, List.mem_toFinset]
    constructor
    · intro hitem
      obtain ⟨owner, howner, howned⟩ := howned item hitem
      exact ⟨owner, howner, by simp [hitem, howned]⟩
    · rintro ⟨owner, -, hitem⟩
      exact List.mem_toFinset.mp (Finset.mem_filter.mp hitem).1
  have hcard : items.toFinset.card = items.length := by
    rw [hsplit, Finset.card_biUnion, Finset.sum_congr rfl hfiber, Finset.sum_const, smul_eq_mul,
      hlength]
    intro a ha b hb hne
    refine Finset.disjoint_left.mpr ?_
    intro item hitem hother
    have hfirst := (Finset.mem_filter.mp hitem).2
    have hsecond := (Finset.mem_filter.mp hother).2
    exact hne (Option.some.inj (hfirst.symm.trans hsecond))
  exact Multiset.toFinset_card_eq_card_iff_nodup.mp hcard

end FaberHosts.Lib
