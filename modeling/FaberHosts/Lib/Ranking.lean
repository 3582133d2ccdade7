import Mathlib.Data.List.Induction
import Mathlib.Data.List.Sort

/-!
# The first of the highest

A scan that keeps a running best and replaces it only by something that scores
strictly more ends with the first element of the highest score.
-/

namespace FaberHosts.Lib

variable {α : Type} {score : α → Nat} {l : List α} {a b : α}

/-- One step of the scan: a later element replaces the best only when it scores more. -/
def keepBest (score : α → Nat) (best : Option α) (candidate : α) : Option α :=
  match best with
  | none => some candidate
  | some current => if score candidate > score current then some candidate else best

/-- The first element of the highest score: those before it score less, those after it
    no more. -/
def FirstMax (score : α → Nat) (l : List α) (a : α) : Prop :=
  ∃ before after, l = before ++ a :: after ∧
    (∀ b ∈ before, score b < score a) ∧ ∀ b ∈ after, score b ≤ score a

namespace FirstMax

theorem mem (h : FirstMax score l a) : a ∈ l := by
  obtain ⟨before, after, rfl, -, -⟩ := h
  simp

theorem le_of_mem (h : FirstMax score l a) (hb : b ∈ l) : score b ≤ score a := by
  obtain ⟨before, after, rfl, hbefore, hafter⟩ := h
  rcases List.mem_append.mp hb with hb | hb
  · exact Nat.le_of_lt (hbefore b hb)
  · rcases List.mem_cons.mp hb with rfl | hb
    · exact Nat.le_refl _
    · exact hafter b hb

theorem singleton : FirstMax score [a] a :=
  ⟨[], [], rfl, by simp, by simp⟩

theorem concat_of_lt (h : FirstMax score l a) (hlt : score a < score b) :
    FirstMax score (l ++ [b]) b := by
  refine ⟨l, [], rfl, ?_, by simp⟩
  intro c hc
  have := h.le_of_mem hc
  omega

theorem concat_of_le (h : FirstMax score l a) (hle : score b ≤ score a) :
    FirstMax score (l ++ [b]) a := by
  obtain ⟨before, after, rfl, hbefore, hafter⟩ := h
  refine ⟨before, after ++ [b], by simp, hbefore, ?_⟩
  intro c hc
  rcases List.mem_append.mp hc with hc | hc
  · exact hafter c hc
  · rw [List.mem_singleton.mp hc]
    exact hle

theorem unique (ha : FirstMax score l a) (hb : FirstMax score l b) : a = b := by
  induction l with
  | nil => simpa using ha.mem
  | cons head rest ih =>
    obtain ⟨_ | ⟨x, before⟩, after, heq, hbefore, hafter⟩ := ha
    · obtain ⟨rfl, rfl⟩ : head = a ∧ rest = after := by simpa using heq
      obtain ⟨_ | ⟨y, before'⟩, after', heq', hbefore', -⟩ := hb
      · exact (List.cons.inj heq').1
      · obtain ⟨rfl, rfl⟩ : head = y ∧ rest = before' ++ b :: after' := by simpa using heq'
        have hlow : score head < score b := hbefore' head (by simp)
        have hhigh : score b ≤ score head := hafter b (by simp)
        omega
    · obtain ⟨rfl, rfl⟩ : head = x ∧ rest = before ++ a :: after := by simpa using heq
      have hlow : score head < score a := hbefore head (by simp)
      obtain ⟨_ | ⟨y, before'⟩, after', heq', hbefore', hafter'⟩ := hb
      · obtain ⟨rfl, rfl⟩ : head = b ∧ before ++ a :: after = after' := by simpa using heq'
        have hhigh : score a ≤ score head := hafter' a (by simp)
        omega
      · obtain ⟨rfl, hrest⟩ : head = y ∧ before ++ a :: after = before' ++ b :: after' := by
          simpa using heq'
        refine ih ⟨before, after, rfl, ?_, hafter⟩ ⟨before', after', hrest, ?_, hafter'⟩
        · exact fun c hc => hbefore c (List.mem_cons_of_mem _ hc)
        · exact fun c hc => hbefore' c (List.mem_cons_of_mem _ hc)

end FirstMax

/-- The scan answers nothing only of no candidates, and else the first of the highest. -/
theorem foldl_keepBest (l : List α) :
    match l.foldl (keepBest score) none with
    | none => l = []
    | some a => FirstMax score l a := by
  induction l using List.reverseRecOn with
  | nil => rfl
  | append_singleton l b ih =>
    rw [List.foldl_append]
    cases hbest : l.foldl (keepBest score) none with
    | none =>
      rw [hbest] at ih
      rw [ih]
      exact FirstMax.singleton
    | some a =>
      rw [hbest] at ih
      simp only [List.foldl_cons, List.foldl_nil, keepBest]
      by_cases hlt : score b > score a
      · rw [if_pos hlt]
        exact ih.concat_of_lt hlt
      · rw [if_neg hlt]
        exact ih.concat_of_le (by omega)

theorem foldl_keepBest_eq_some :
    l.foldl (keepBest score) none = some a ↔ FirstMax score l a := by
  have hscan : match l.foldl (keepBest score) none with
    | none => l = []
    | some a => FirstMax score l a := foldl_keepBest l
  constructor
  · intro h
    rwa [h] at hscan
  · intro h
    cases hbest : l.foldl (keepBest score) none with
    | none =>
      rw [hbest] at hscan
      rw [hscan] at h
      simpa using h.mem
    | some b =>
      rw [hbest] at hscan
      rw [hscan.unique h]

end FaberHosts.Lib

/-!
## The first of a ranking

`FirstInOrder` are the first so many elements of a list in a strict order.  There is one
such choice, and an element is in it when fewer elements than that come before it.
-/

namespace FaberHosts.Lib

variable {α β : Type} {r : α → α → Prop} {l chosen chosen' : List α} {count : Nat} {a : α}

/-- The first `count` elements of a list in the order `r`. -/
def FirstInOrder (r : α → α → Prop) (l : List α) (count : Nat) (chosen : List α) : Prop :=
  ∃ rest, (chosen ++ rest).Perm l ∧ (chosen ++ rest).Pairwise r ∧ chosen.length = count

namespace FirstInOrder

theorem nodup (h : FirstInOrder r l count chosen) (hl : l.Nodup) : chosen.Nodup := by
  obtain ⟨rest, hperm, -, -⟩ := h
  exact (List.nodup_append.mp (hperm.nodup_iff.mpr hl)).1

theorem mem (h : FirstInOrder r l count chosen) (ha : a ∈ chosen) : a ∈ l := by
  obtain ⟨rest, hperm, -, -⟩ := h
  exact hperm.mem_iff.mp (List.mem_append_left _ ha)

/-- In an order without two elements before each other there is one choice. -/
theorem unique (hasymm : ∀ a ∈ l, ∀ b ∈ l, r a b → ¬r b a)
    (h : FirstInOrder r l count chosen) (h' : FirstInOrder r l count chosen') :
    chosen = chosen' := by
  obtain ⟨rest, hperm, hpairwise, hlength⟩ := h
  obtain ⟨rest', hperm', hpairwise', hlength'⟩ := h'
  have hsame : chosen ++ rest = chosen' ++ rest' := by
    refine List.Perm.eq_of_pairwise ?_ hpairwise hpairwise' (hperm.trans hperm'.symm)
    intro a b ha hb hab hba
    exact (hasymm a (hperm.mem_iff.mp ha) b (hperm'.mem_iff.mp hb) hab hba).elim
  exact List.append_inj_left hsame (hlength.trans hlength'.symm)

theorem mem_iff [DecidableRel r] (hasymm : ∀ a ∈ l, ∀ b ∈ l, r a b → ¬r b a) (ha : a ∈ l)
    (h : FirstInOrder r l count chosen) :
    a ∈ chosen ↔ l.countP (fun b => decide (r b a)) < count := by
  obtain ⟨rest, hperm, hpairwise, rfl⟩ := h
  have hirrefl : ∀ b ∈ l, ¬r b b := fun b hb hbb => hasymm b hb b hb hbb hbb
  -- the elements before `a` are those that stand before it in the ranking
  have hcount : ∀ before after, chosen ++ rest = before ++ a :: after →
      l.countP (fun b => decide (r b a)) = before.length := by
    intro before after hsplit
    rw [← hperm.countP_eq, hsplit, List.countP_append, List.countP_cons]
    rw [hsplit, List.pairwise_append, List.pairwise_cons] at hpairwise
    obtain ⟨-, ⟨hafter, -⟩, hbefore⟩ := hpairwise
    have hall : before.countP (fun b => decide (r b a)) = before.length :=
      List.countP_eq_length.mpr fun b hb => decide_eq_true (hbefore b hb a (by simp))
    have hnone : after.countP (fun b => decide (r b a)) = 0 := by
      refine List.countP_eq_zero.mpr ?_
      intro b hb hrb
      have hmem : b ∈ l := hperm.mem_iff.mp (by simp [hsplit, hb])
      exact hasymm b hmem a ha (of_decide_eq_true hrb) (hafter b hb)
    rw [hall, hnone, decide_eq_false (hirrefl a ha)]
    simp
  rcases List.mem_append.mp (hperm.mem_iff.mpr ha) with hmem | hmem
  · obtain ⟨before, after, hsplit⟩ := List.append_of_mem hmem
    rw [hcount before (after ++ rest) (by simp [hsplit])]
    refine iff_of_true hmem ?_
    rw [hsplit, List.length_append, List.length_cons]
    omega
  · obtain ⟨before, after, hsplit⟩ := List.append_of_mem hmem
    rw [hcount (chosen ++ before) after (by simp [hsplit]), List.length_append]
    refine iff_of_false ?_ (by omega)
    intro hchosen
    exact hirrefl a ha (List.pairwise_append.mp hpairwise |>.2.2 a hchosen a hmem)

end FirstInOrder

/-! ## Sorting by an order on the elements -/

section Sorting

variable {le : α → α → Bool}

/-- A merge sort orders its result when the relation is an order on the elements. -/
theorem pairwise_mergeSort_of_mem
    (htrans : ∀ a ∈ l, ∀ b ∈ l, ∀ c ∈ l, le a b = true → le b c = true → le a c = true)
    (htotal : ∀ a ∈ l, ∀ b ∈ l, le a b = true ∨ le b a = true) :
    (l.mergeSort le).Pairwise (fun a b => le a b = true) := by
  have hsame : (l.attach.mergeSort fun a b => le a.1 b.1).map Subtype.val = l.mergeSort le := by
    rw [List.map_mergeSort (s := le) (fun _ _ _ _ => rfl), List.attach_map_subtype_val]
  rw [← hsame, List.pairwise_map]
  refine List.pairwise_mergeSort ?_ ?_ _
  · exact fun a b c => htrans a.1 a.2 b.1 b.2 c.1 c.2
  · intro a b
    rw [Bool.or_eq_true]
    exact htotal a.1 a.2 b.1 b.2

theorem firstInOrder_take_mergeSort
    (htrans : ∀ a ∈ l, ∀ b ∈ l, ∀ c ∈ l, le a b = true → le b c = true → le a c = true)
    (htotal : ∀ a ∈ l, ∀ b ∈ l, le a b = true ∨ le b a = true) (hcount : count ≤ l.length) :
    FirstInOrder (fun a b => le a b = true) l count ((l.mergeSort le).take count) := by
  refine ⟨(l.mergeSort le).drop count, ?_, ?_, ?_⟩
  · rw [List.take_append_drop]
    exact List.mergeSort_perm l le
  · rw [List.take_append_drop]
    exact pairwise_mergeSort_of_mem htrans htotal
  · rw [List.length_take, List.length_mergeSort]
    omega

end Sorting

end FaberHosts.Lib
