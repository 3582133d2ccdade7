import Mathlib.Data.List.Basic
import Mathlib.Data.List.Destutter
import Mathlib.Data.List.Sort

/-!
# Delimited codes

A code delimits its values when a codeword can be read off the front of a list:
what follows it never decides where it ends.  Counted lists of codewords delimit
again, and so do lists without a count when what follows cannot start a codeword.
What a codeword tells of its value is an observation, not always the whole value.
-/

namespace FaberHosts.Lib

/-! ## Delimited codes -/

section Codes

variable {α β ω : Type*} {D : α → Prop} {obs : α → ω} {code : α → List β} {count : Nat → List β}
  {bound : Nat}

/-- Codewords of values in `D` at the front of two lists agree, rests included, exactly
    when the values look the same. -/
def Delimits (D : α → Prop) (obs : α → ω) (code : α → List β) : Prop :=
  ∀ a b, D a → D b → ∀ r s, code a ++ r = code b ++ s ↔ obs a = obs b ∧ r = s

theorem Delimits.mono {E : α → Prop} (h : Delimits D obs code) (hsub : ∀ a, E a → D a) :
    Delimits E obs code :=
  fun a b ha hb => h a b (hsub a ha) (hsub b hb)

theorem Delimits.code_eq_iff (h : Delimits D obs code) {a b : α} (ha : D a) (hb : D b) :
    code a = code b ↔ obs a = obs b := by
  have hiff := h a b ha hb [] []
  rw [List.append_nil, List.append_nil] at hiff
  simpa using hiff

theorem Delimits.flatMap_of_length (h : Delimits D obs code) {l l' : List α}
    (hlength : l.length = l'.length) (hl : ∀ a ∈ l, D a) (hl' : ∀ a ∈ l', D a) (r s : List β) :
    l.flatMap code ++ r = l'.flatMap code ++ s ↔ l.map obs = l'.map obs ∧ r = s := by
  induction l generalizing l' with
  | nil =>
    obtain rfl := List.length_eq_zero_iff.mp hlength.symm
    simp
  | cons a l ih =>
    cases l' with
    | nil => cases hlength
    | cons b l' =>
      obtain ⟨ha, hl⟩ := List.forall_mem_cons.mp hl
      obtain ⟨hb, hl'⟩ := List.forall_mem_cons.mp hl'
      have hrest := ih (Nat.succ.inj hlength) hl hl'
      rw [List.flatMap_cons, List.flatMap_cons, List.append_assoc, List.append_assoc,
        h a b ha hb, hrest, List.map_cons, List.map_cons, List.cons.injEq, and_assoc]

/-- A list of codewords behind its length. -/
def counted (count : Nat → List β) (code : α → List β) (l : List α) : List β :=
  count l.length ++ l.flatMap code

theorem Delimits.counted (h : Delimits D obs code)
    (hcount : Delimits (· < bound) id count) :
    Delimits (fun l : List α => l.length < bound ∧ ∀ a ∈ l, D a) (List.map obs)
      (counted count code) := by
  rintro l l' ⟨hbound, hl⟩ ⟨hbound', hl'⟩ r s
  unfold Lib.counted
  rw [List.append_assoc, List.append_assoc, hcount _ _ hbound hbound']
  constructor
  · rintro ⟨hlength, hrest⟩
    exact (h.flatMap_of_length hlength hl hl' r s).mp hrest
  · intro hmap
    have hlength : l.length = l'.length := by simpa using congrArg List.length hmap.1
    exact ⟨hlength, (h.flatMap_of_length hlength hl hl' r s).mpr hmap⟩

theorem Delimits.optional {tag : Bool → List β} (h : Delimits D obs code)
    (htag : Delimits (fun _ => True) id tag) :
    Delimits (fun o : Option α => ∀ a ∈ o, D a) (Option.map obs)
      (fun o => tag o.isSome ++ o.elim [] code) := by
  intro o o' ho ho' r s
  rw [List.append_assoc, List.append_assoc, htag _ _ trivial trivial]
  cases o with
  | none => cases o' <;> simp
  | some a =>
    cases o' with
    | none => simp
    | some b => simp [h a b (ho a rfl) (ho' b rfl)]

/-- No codeword of a value in `D` starts the list. -/
def StopsAt (D : α → Prop) (code : α → List β) (r : List β) : Prop :=
  ∀ a, D a → ∀ x, r ≠ code a ++ x

/-- A list of codewords needs no length when what follows cannot start a codeword. -/
theorem Delimits.flatMap_of_stopsAt (h : Delimits D obs code) {l l' : List α}
    (hl : ∀ a ∈ l, D a) (hl' : ∀ a ∈ l', D a) {r s : List β} (hr : StopsAt D code r)
    (hs : StopsAt D code s) :
    l.flatMap code ++ r = l'.flatMap code ++ s ↔ l.map obs = l'.map obs ∧ r = s := by
  induction l generalizing l' with
  | nil =>
    cases l' with
    | nil => simp
    | cons b l' =>
      refine iff_of_false (fun heq => ?_) (fun hmap => nomatch hmap.1)
      rw [List.flatMap_cons, List.append_assoc] at heq
      exact hr b (hl' b List.mem_cons_self) _ heq
  | cons a l ih =>
    cases l' with
    | nil =>
      refine iff_of_false (fun heq => ?_) (fun hmap => nomatch hmap.1)
      rw [List.flatMap_cons, List.append_assoc] at heq
      exact hs a (hl a List.mem_cons_self) _ heq.symm
    | cons b l' =>
      obtain ⟨ha, hl⟩ := List.forall_mem_cons.mp hl
      obtain ⟨hb, hl'⟩ := List.forall_mem_cons.mp hl'
      have hrest := ih hl hl'
      rw [List.flatMap_cons, List.flatMap_cons, List.append_assoc, List.append_assoc,
        h a b ha hb, hrest, List.map_cons, List.map_cons, List.cons.injEq, and_assoc]

end Codes

/-! ## Lists in the order of a key -/

section Keyed

variable {α κ ω : Type*} [LinearOrder κ] {key : α → κ} {obs : α → ω}

/-- A stable sort by the key. -/
def sortByKey (key : α → κ) (l : List α) : List α := l.mergeSort (fun a b => key a ≤ key b)

theorem sortByKey_perm (key : α → κ) (l : List α) : (sortByKey key l).Perm l :=
  List.mergeSort_perm _ _

theorem keyLe_trans (key : α → κ) (a b c : α) (hab : decide (key a ≤ key b) = true)
    (hbc : decide (key b ≤ key c) = true) : decide (key a ≤ key c) = true := by
  simp only [decide_eq_true_eq] at hab hbc ⊢
  exact hab.trans hbc

theorem keyLe_total (key : α → κ) (a b : α) :
    (decide (key a ≤ key b) || decide (key b ≤ key a)) = true := by
  simp only [Bool.or_eq_true, decide_eq_true_eq]
  exact le_total (key a) (key b)

theorem sortByKey_sorted (key : α → κ) (l : List α) :
    (sortByKey key l).Pairwise (fun a b => key a ≤ key b) :=
  (List.pairwise_mergeSort (keyLe_trans key) (keyLe_total key) l).imp (fun h => by simpa using h)

theorem sortByKey_strict {l : List α} (hdistinct : (l.map key).Nodup) :
    (sortByKey key l).Pairwise (fun a b => key a < key b) := by
  have hnodup : ((sortByKey key l).map key).Nodup :=
    ((sortByKey_perm key l).map key).nodup_iff.mpr hdistinct
  have hne : (sortByKey key l).Pairwise (fun a b => key a ≠ key b) := List.pairwise_map.mp hnodup
  exact (sortByKey_sorted key l).imp₂ (fun a b hle hne => lt_of_le_of_ne hle hne) hne

theorem sortByKey_filter (key : α → κ) {p : α → Bool}
    (hp : ∀ a b, p a = true → p b = true → key a = key b) (l : List α) :
    (sortByKey key l).filter p = l.filter p := by
  have hclass : (l.filter p).Pairwise (fun a b => decide (key a ≤ key b) = true) := by
    refine List.pairwise_of_forall_mem_list (fun a ha b hb => ?_)
    have hsame := hp a b (List.mem_filter.mp ha).2 (List.mem_filter.mp hb).2
    simp [hsame]
  have hsub : (l.filter p).Sublist (sortByKey key l) :=
    List.sublist_mergeSort (keyLe_trans key) (keyLe_total key) hclass List.filter_sublist
  have hfiltered := hsub.filter p
  rw [List.filter_filter] at hfiltered
  simp only [Bool.and_self] at hfiltered
  exact (hfiltered.eq_of_length ((sortByKey_perm key l).filter p).length_eq.symm).symm

theorem eq_of_sorted_of_filter {l l' : List α} (hl : l.Pairwise (fun a b => key a ≤ key b))
    (hl' : l'.Pairwise (fun a b => key a ≤ key b))
    (h : ∀ k, l.filter (key · = k) = l'.filter (key · = k)) : l = l' := by
  induction l generalizing l' with
  | nil =>
    cases l' with
    | nil => rfl
    | cons b l' =>
      have hb := h (key b)
      simp at hb
  | cons a l ih =>
    cases l' with
    | nil =>
      have ha := h (key a)
      simp at ha
    | cons b l' =>
      obtain ⟨hfirst, htail⟩ := List.pairwise_cons.mp hl
      obtain ⟨hfirst', htail'⟩ := List.pairwise_cons.mp hl'
      have hkeys : ∀ {k} {x : α}, x ∈ (a :: l).filter (key · = k) ↔ x ∈ (b :: l').filter (key · = k) :=
        fun {k x} => by rw [h k]
      -- each head is among the other's elements, so neither key is smaller
      have hle : key b ≤ key a := by
        have hmem := (List.mem_filter.mp (hkeys.mp (List.mem_filter.mpr
          ⟨List.mem_cons_self, by simp⟩ : a ∈ (a :: l).filter (key · = key a)))).1
        rcases List.mem_cons.mp hmem with rfl | hmem
        · exact le_rfl
        · exact hfirst' a hmem
      have hge : key a ≤ key b := by
        have hmem := (List.mem_filter.mp (hkeys.mpr (List.mem_filter.mpr
          ⟨List.mem_cons_self, by simp⟩ : b ∈ (b :: l').filter (key · = key b)))).1
        rcases List.mem_cons.mp hmem with rfl | hmem
        · exact le_rfl
        · exact hfirst b hmem
      have hsame : key a = key b := le_antisymm hge hle
      have hhead := h (key a)
      rw [List.filter_cons_of_pos (by simp), List.filter_cons_of_pos (by simp [hsame])] at hhead
      obtain ⟨rfl, -⟩ := List.cons.inj hhead
      refine congrArg _ (ih htail htail' (fun k => ?_))
      have hk := h k
      by_cases hak : key a = k
      · rw [List.filter_cons_of_pos (by simpa using hak),
          List.filter_cons_of_pos (by simpa using hak)] at hk
        exact (List.cons.inj hk).2
      · rwa [List.filter_cons_of_neg (by simpa using hak),
          List.filter_cons_of_neg (by simpa using hak)] at hk

theorem sortByKey_congr {l l' : List α}
    (h : ∀ k, l.filter (key · = k) = l'.filter (key · = k)) : sortByKey key l = sortByKey key l' := by
  refine eq_of_sorted_of_filter (sortByKey_sorted key l) (sortByKey_sorted key l') (fun k => ?_)
  have hclass : ∀ a b : α, decide (key a = k) = true → decide (key b = k) = true → key a = key b :=
    fun a b ha hb => (of_decide_eq_true ha).trans (of_decide_eq_true hb).symm
  rw [sortByKey_filter key hclass, sortByKey_filter key hclass, h k]

/-- Lists with the same elements sort alike where the key tells the elements apart. -/
theorem sortByKey_eq_of_perm {l l' : List α} (hperm : l.Perm l')
    (hkey : ∀ a ∈ l, ∀ b ∈ l, key a = key b → a = b) : sortByKey key l = sortByKey key l' := by
  have hsorted : (sortByKey key l).Perm (sortByKey key l') :=
    (sortByKey_perm key l).trans (hperm.trans (sortByKey_perm key l').symm)
  refine List.Perm.eq_of_pairwise ?_ (sortByKey_sorted key l) (sortByKey_sorted key l') hsorted
  intro a b ha hb hab hba
  have ha' := (sortByKey_perm key l).mem_iff.mp ha
  have hb' := hperm.mem_iff.mpr ((sortByKey_perm key l').mem_iff.mp hb)
  exact hkey a ha' b hb' (le_antisymm hab hba)

theorem sortByKey_of_sorted {l : List α} (h : l.Pairwise (fun a b => key a ≤ key b)) :
    sortByKey key l = l :=
  List.mergeSort_of_pairwise (h.imp (fun hle => decide_eq_true hle))

/-- The first of each run of elements of one key. -/
def dedupByKey (key : α → κ) (l : List α) : List α := l.destutter (fun a b => key a ≠ key b)

theorem exists_mem_destutter' (key : α → κ) (l : List α) (first : α) :
    ∀ a ∈ first :: l, ∃ b ∈ l.destutter' (fun a b => key a ≠ key b) first, key b = key a := by
  induction l generalizing first with
  | nil => simp
  | cons next l ih =>
    intro a ha
    by_cases hsame : key first = key next
    · rw [List.destutter'_cons_neg _ (not_not.mpr hsame)]
      rcases List.mem_cons.mp ha with rfl | ha
      · exact ih a a List.mem_cons_self
      · rcases List.mem_cons.mp ha with rfl | ha
        · obtain ⟨b, hb, hkey⟩ := ih first first List.mem_cons_self
          exact ⟨b, hb, hkey.trans hsame⟩
        · exact ih first a (List.mem_cons_of_mem _ ha)
    · rw [List.destutter'_cons_pos _ hsame]
      rcases List.mem_cons.mp ha with rfl | ha
      · exact ⟨a, List.mem_cons_self, rfl⟩
      · obtain ⟨b, hb, hkey⟩ := ih next a ha
        exact ⟨b, List.mem_cons_of_mem _ hb, hkey⟩

theorem exists_mem_dedupByKey (key : α → κ) {l : List α} {a : α} (ha : a ∈ l) :
    ∃ b ∈ dedupByKey key l, key b = key a := by
  cases l with
  | nil => cases ha
  | cons first l => exact exists_mem_destutter' key l first a ha

/-- Sorted by the key, one element for each key. -/
def canonical (key : α → κ) (l : List α) : List α := dedupByKey key (sortByKey key l)

theorem mem_of_mem_canonical {l : List α} {a : α} (ha : a ∈ canonical key l) : a ∈ l :=
  (sortByKey_perm key l).mem_iff.mp ((List.destutter_sublist _ _).mem ha)

theorem exists_mem_canonical (key : α → κ) {l : List α} {a : α} (ha : a ∈ l) :
    ∃ b ∈ canonical key l, key b = key a :=
  exists_mem_dedupByKey key ((sortByKey_perm key l).mem_iff.mpr ha)

theorem canonical_strict (key : α → κ) (l : List α) :
    (canonical key l).Pairwise (fun a b => key a < key b) := by
  have hsorted : (canonical key l).Pairwise (fun a b => key a ≤ key b) :=
    (sortByKey_sorted key l).sublist (List.destutter_sublist _ _)
  have hchain : (canonical key l).IsChain (fun a b => key a ≠ key b) := List.isChain_destutter _ _
  have : IsTrans α (fun a b => key a < key b) := ⟨fun a b c hab hbc => hab.trans hbc⟩
  apply List.IsChain.pairwise
  rw [List.isChain_iff_getElem] at hchain ⊢
  intro i hi
  exact lt_of_le_of_ne (List.pairwise_iff_getElem.mp hsorted i (i + 1) _ _ i.lt_succ_self)
    (hchain i hi)

/-- Where the key decides the observation, canonical lists show what the lists show. -/
theorem mem_map_canonical {l : List α}
    (hkey : ∀ a ∈ l, ∀ b ∈ l, key a = key b → obs a = obs b) {x : ω} :
    x ∈ (canonical key l).map obs ↔ x ∈ l.map obs := by
  simp only [List.mem_map]
  constructor
  · rintro ⟨a, ha, rfl⟩
    exact ⟨a, mem_of_mem_canonical ha, rfl⟩
  · rintro ⟨a, ha, rfl⟩
    obtain ⟨b, hb, hsame⟩ := exists_mem_canonical key ha
    exact ⟨b, hb, hkey b (mem_of_mem_canonical hb) a ha hsame⟩

/-- Lists in strict order of what they show are told apart by their members alone. -/
theorem map_eq_map_iff_of_strict (okey : ω → κ) (hokey : ∀ a, okey (obs a) = key a) {l l' : List α}
    (hl : l.Pairwise (fun a b => key a < key b)) (hl' : l'.Pairwise (fun a b => key a < key b)) :
    l.map obs = l'.map obs ↔ ∀ x, x ∈ l.map obs ↔ x ∈ l'.map obs := by
  constructor
  · exact fun h x => by rw [h]
  · intro h
    have hstrict : ∀ {l : List α}, l.Pairwise (fun a b => key a < key b) →
        (l.map obs).Pairwise (fun x y => okey x < okey y) := fun hl =>
      List.pairwise_map.mpr (hl.imp (fun hlt => by rwa [hokey, hokey]))
    have : Std.Irrefl (fun x y : ω => okey x < okey y) := ⟨fun x => lt_irrefl (okey x)⟩
    have : Std.Antisymm (fun x y : ω => okey x < okey y) :=
      ⟨fun x y hxy hyx => absurd hxy hyx.asymm⟩
    exact List.Pairwise.eq_of_mem_iff (hstrict hl) (hstrict hl') h

end Keyed

end FaberHosts.Lib
