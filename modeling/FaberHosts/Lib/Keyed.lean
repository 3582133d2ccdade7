import Mathlib

/-!
# Lists as finite maps and sets

A list of values that is searched with an equality test `same` stands for the set
of its keys, and a list of entries for a finite map, as long as the test compares
the keys of the values it is asked about.  No key occurs twice in such a list, and
each operation keeps that.
-/

namespace FaberHosts.Lib

variable {α β κ : Type}

/-- `same` compares the keys of the values in `P`. -/
def Compares (P : α → Prop) (key : α → κ) (same : α → α → Bool) : Prop :=
  ∀ a b, P a → P b → (same a b = true ↔ key a = key b)

/-- Values in `P`, no two with the same key. -/
structure Distinct (P : α → Prop) (key : α → κ) (values : List α) : Prop where
  valid : ∀ a ∈ values, P a
  nodup : (values.map key).Nodup

/-- Some value of the list is the same as `a`. -/
def holds (same : α → α → Bool) (values : List α) (a : α) : Bool := values.any (same · a)

/-- Add a value at the end, unless the list holds it. -/
def pushUnique (same : α → α → Bool) (values : List α) (a : α) : List α :=
  if holds same values a then values else values ++ [a]

/-- The order of `before` is kept by what survives of it, and the rest comes after. -/
def KeepsOrder [DecidableEq κ] (before after : List κ) : Prop :=
  ∃ fresh, after = before.filter (· ∈ after) ++ fresh

section Sets

variable {P : α → Prop} {key : α → κ} {same : α → α → Bool} {values left right : List α} {a : α}

theorem distinct_nil : Distinct P key [] := ⟨by simp, List.nodup_nil⟩

theorem Distinct.sublist (h : Distinct P key values) (hsub : left.Sublist values) :
    Distinct P key left :=
  ⟨fun a ha => h.valid a (hsub.mem ha), h.nodup.sublist (hsub.map key)⟩

theorem sublist_foldl_pushUnique :
    (left.foldl (pushUnique same) values).Sublist (values ++ left) := by
  induction left generalizing values with
  | nil => simp
  | cons a rest ih =>
    rw [List.foldl_cons]
    refine ih.trans ?_
    unfold pushUnique
    split
    · exact List.Sublist.append_left (List.sublist_cons_self a rest) values
    · rw [List.append_assoc]
      exact List.Sublist.refl _

theorem holds_append : holds same (left ++ right) a = (holds same left a || holds same right a) :=
  List.any_append

/-- A value is dropped for one that is the same as it, and so as all it is the same as. -/
theorem holds_foldl_pushUnique
    (htrans : ∀ a b c, same a b = true → same b c = true → same a c = true) :
    holds same (left.foldl (pushUnique same) values) a =
      (holds same values a || holds same left a) := by
  induction left generalizing values with
  | nil => simp [holds]
  | cons b rest ih =>
    rw [List.foldl_cons, ih, ← List.singleton_append, holds_append, ← Bool.or_assoc]
    congr 1
    unfold pushUnique
    by_cases hheld : holds same values b = true
    · rw [if_pos hheld]
      obtain ⟨c, hc, hcb⟩ := List.any_eq_true.mp hheld
      by_cases hba : same b a = true
      · have hca : holds same values a = true := List.any_eq_true.mpr ⟨c, hc, htrans c b a hcb hba⟩
        rw [hca, Bool.true_or]
      · simp [holds, hba]
    · rw [if_neg hheld, holds_append]

theorem mem_pushUnique {b : α} (h : b ∈ pushUnique same values a) : b ∈ values ∨ b = a := by
  unfold pushUnique at h
  split at h
  · exact .inl h
  · simpa using h

/-- No value of the list is the same as a later one. -/
abbrev Apart (same : α → α → Bool) (values : List α) : Prop :=
  values.Pairwise (fun a b => same a b = false)

theorem holds_eq_false_iff : holds same values a = false ↔ ∀ b ∈ values, same b a = false := by
  simp [holds]

theorem Apart.pushUnique (h : Apart same values) : Apart same (pushUnique same values a) := by
  unfold Lib.pushUnique
  split
  · exact h
  next hnot =>
    refine List.pairwise_append.mpr ⟨h, List.pairwise_singleton _ _, ?_⟩
    intro b hb c hc
    rw [List.mem_singleton.mp hc]
    exact holds_eq_false_iff.mp (by simpa using hnot) b hb

theorem Apart.foldl_pushUnique (h : Apart same values) :
    Apart same (left.foldl (Lib.pushUnique same) values) := by
  induction left generalizing values with
  | nil => exact h
  | cons a rest ih => exact ih h.pushUnique

theorem foldl_pushUnique_of_apart (h : Apart same (values ++ left)) :
    left.foldl (Lib.pushUnique same) values = values ++ left := by
  induction left generalizing values with
  | nil => simp
  | cons a rest ih =>
    have hpush : Lib.pushUnique same values a = values ++ [a] := by
      unfold Lib.pushUnique
      rw [if_neg]
      rw [Bool.not_eq_true, holds_eq_false_iff]
      intro b hb
      exact (List.pairwise_append.mp h).2.2 b hb a (by simp)
    rw [List.foldl_cons, hpush, ih (by simpa using h)]
    simp

theorem Apart.append_filter (hleft : Apart same left) (hright : Apart same right) :
    Apart same
      (left.filter (fun a => !holds same right a) ++
        right.filter (fun a => !holds same left a)) := by
  refine List.pairwise_append.mpr ⟨hleft.filter _, hright.filter _, ?_⟩
  intro a ha b hb
  have hout : holds same left b = false := by simpa using (List.mem_filter.mp hb).2
  exact holds_eq_false_iff.mp hout a (List.mem_filter.mp ha).1

variable (hsame : Compares P key same)

include hsame in
theorem holds_iff (hvalues : ∀ b ∈ values, P b) (ha : P a) :
    holds same values a = true ↔ key a ∈ values.map key := by
  simp only [holds, List.any_eq_true, List.mem_map]
  constructor
  · rintro ⟨b, hb, hba⟩
    exact ⟨b, hb, (hsame b a (hvalues b hb) ha).mp hba⟩
  · rintro ⟨b, hb, hkey⟩
    exact ⟨b, hb, (hsame b a (hvalues b hb) ha).mpr hkey⟩

include hsame in
theorem Distinct.pushUnique (h : Distinct P key values) (ha : P a) :
    Distinct P key (pushUnique same values a) := by
  unfold Lib.pushUnique
  split
  · exact h
  next hnot =>
    rw [holds_iff hsame h.valid ha] at hnot
    constructor
    · intro b hb
      rcases List.mem_append.mp hb with hb | hb
      · exact h.valid b hb
      · exact List.mem_singleton.mp hb ▸ ha
    · rw [List.map_append, List.map_singleton, List.nodup_append]
      refine ⟨h.nodup, by simp, ?_⟩
      rintro k hk _ hlast rfl
      exact hnot (List.mem_singleton.mp hlast ▸ hk)

include hsame in
theorem Distinct.append_filter (hleft : Distinct P key left) (hright : Distinct P key right) :
    Distinct P key
      (left.filter (fun a => !holds same right a) ++
        right.filter (fun a => !holds same left a)) := by
  have hleft' := hleft.sublist (List.filter_sublist (p := fun a => !holds same right a))
  have hright' := hright.sublist (List.filter_sublist (p := fun a => !holds same left a))
  constructor
  · intro a ha
    exact (List.mem_append.mp ha).elim (hleft'.valid a) (hright'.valid a)
  · rw [List.map_append, List.nodup_append]
    refine ⟨hleft'.nodup, hright'.nodup, ?_⟩
    rintro k hk _ hk' rfl
    obtain ⟨a, ha, rfl⟩ := List.mem_map.mp hk
    obtain ⟨hmem, hout⟩ := List.mem_filter.mp ha
    obtain ⟨b, hb, hkey⟩ := List.mem_map.mp hk'
    have hin := (holds_iff hsame hright.valid (hleft.valid a hmem)).mpr
      (hkey ▸ List.mem_map_of_mem (List.mem_filter.mp hb).1)
    rw [hin] at hout
    cases hout

variable [DecidableEq κ]

/-- The set a list of values stands for. -/
def members (key : α → κ) (values : List α) : Finset κ := (values.map key).toFinset

theorem mem_members {k : κ} : k ∈ members key values ↔ k ∈ values.map key := List.mem_toFinset

theorem Distinct.card_members (h : Distinct P key values) :
    (members key values).card = values.length := by
  rw [members, List.toFinset_card_of_nodup h.nodup, List.length_map]

theorem members_eq_empty_iff : members key values = ∅ ↔ values = [] := by
  simp [members]

include hsame in
theorem members_pushUnique (hvalues : ∀ b ∈ values, P b) (ha : P a) :
    members key (pushUnique same values a) = insert (key a) (members key values) := by
  unfold pushUnique
  split
  next hin =>
    rw [holds_iff hsame hvalues ha, ← mem_members] at hin
    exact (Finset.insert_eq_of_mem hin).symm
  next hnot =>
    ext k
    simp [members, eq_comm]

include hsame in
theorem distinct_foldl_pushUnique (h : Distinct P key values) (hleft : ∀ a ∈ left, P a) :
    Distinct P key (left.foldl (pushUnique same) values) ∧
      members key (left.foldl (pushUnique same) values) =
        members key values ∪ members key left := by
  induction left generalizing values with
  | nil => exact ⟨h, by simp [members]⟩
  | cons a rest ih =>
    have ha : P a := hleft a (by simp)
    obtain ⟨hdistinct, hmembers⟩ :=
      ih (h.pushUnique hsame ha) (fun b hb => hleft b (by simp [hb]))
    refine ⟨hdistinct, ?_⟩
    rw [List.foldl_cons, hmembers, members_pushUnique hsame h.valid ha]
    ext k
    simp only [Finset.mem_union, Finset.mem_insert, mem_members, List.map_cons, List.mem_cons]
    tauto

include hsame in
theorem holds_eq_decide (hvalues : ∀ b ∈ values, P b) (ha : P a) :
    holds same values a = decide (key a ∈ members key values) := by
  rw [Bool.eq_iff_iff, decide_eq_true_iff, mem_members]
  exact holds_iff hsame hvalues ha

include hsame in
theorem mem_members_filter (hleft : ∀ a ∈ left, P a) (hright : ∀ a ∈ right, P a)
    (keep : Bool → Bool) {k : κ} :
    k ∈ members key (left.filter (fun a => keep (holds same right a))) ↔
      k ∈ members key left ∧ keep (decide (k ∈ members key right)) = true := by
  rw [mem_members, List.mem_map, mem_members, List.mem_map]
  constructor
  · rintro ⟨a, hkept, rfl⟩
    obtain ⟨ha, hkeep⟩ := List.mem_filter.mp hkept
    rw [holds_eq_decide hsame hright (hleft a ha)] at hkeep
    exact ⟨⟨a, ha, rfl⟩, hkeep⟩
  · rintro ⟨⟨a, ha, rfl⟩, hkeep⟩
    rw [← holds_eq_decide hsame hright (hleft a ha)] at hkeep
    exact ⟨a, List.mem_filter.mpr ⟨ha, hkeep⟩, rfl⟩

include hsame in
theorem members_filter_holds (hleft : ∀ a ∈ left, P a) (hright : ∀ a ∈ right, P a) :
    members key (left.filter (holds same right)) = members key left ∩ members key right := by
  ext k
  rw [Finset.mem_inter]
  simpa using mem_members_filter hsame hleft hright id (k := k)

include hsame in
theorem members_filter_not_holds (hleft : ∀ a ∈ left, P a) (hright : ∀ a ∈ right, P a) :
    members key (left.filter (fun a => !holds same right a)) =
      members key left \ members key right := by
  ext k
  rw [Finset.mem_sdiff]
  simpa using mem_members_filter hsame hleft hright (!·) (k := k)

include hsame in
theorem all_holds_eq_decide (hleft : ∀ a ∈ left, P a) (hright : ∀ a ∈ right, P a) :
    left.all (holds same right) = decide (members key left ⊆ members key right) := by
  rw [Bool.eq_iff_iff, decide_eq_true_iff, List.all_eq_true]
  constructor
  · intro h k hk
    obtain ⟨a, ha, rfl⟩ := List.mem_map.mp (mem_members.mp hk)
    exact mem_members.mpr ((holds_iff hsame hright (hleft a ha)).mp (h a ha))
  · intro h a ha
    exact (holds_iff hsame hright (hleft a ha)).mpr
      (mem_members.mp (h (mem_members.mpr (List.mem_map_of_mem ha))))

include hsame in
theorem members_filter_not_same (hvalues : ∀ b ∈ values, P b) (ha : P a) :
    members key (values.filter (fun b => !same b a)) = (members key values).erase (key a) := by
  ext k
  simp only [mem_members, Finset.mem_erase, List.mem_map, List.mem_filter, Bool.not_eq_true']
  constructor
  · rintro ⟨b, ⟨hb, hnot⟩, rfl⟩
    refine ⟨fun hkey => ?_, b, hb, rfl⟩
    rw [(hsame b a (hvalues b hb) ha).mpr hkey] at hnot
    cases hnot
  · rintro ⟨hne, b, hb, rfl⟩
    refine ⟨b, ⟨hb, ?_⟩, rfl⟩
    rw [← Bool.not_eq_true, hsame b a (hvalues b hb) ha]
    exact hne

end Sets

/-! ## Entries -/

/-- Replace the value of the first entry of a key, or add an entry at the end. -/
def assign (same : α → α → Bool) (entries : List (α × β)) (a : α) (v : β) : List (α × β) :=
  match entries with
  | [] => [(a, v)]
  | (candidate, old) :: rest =>
    if same candidate a then (candidate, v) :: rest else (candidate, old) :: assign same rest a v

/-- The value of the first entry of a key. -/
def findValue (same : α → α → Bool) (entries : List (α × β)) (a : α) : Option β :=
  (entries.find? (fun entry => same entry.1 a)).map Prod.snd

section Maps

variable [DecidableEq κ] {P : α → Prop} {key : α → κ} {same : α → α → Bool}
  {entries : List (α × β)} {a : α} {v : β}

/-- The finite map a list of entries stands for. -/
def contents (key : α → κ) (entries : List (α × β)) : Finmap (fun _ : κ => β) :=
  (entries.map (fun entry => (⟨key entry.1, entry.2⟩ : Sigma fun _ : κ => β))).toFinmap

@[simp] theorem contents_nil : contents key ([] : List (α × β)) = ∅ := rfl

theorem contents_cons (entry : α × β) :
    contents key (entry :: entries) = (contents key entries).insert (key entry.1) entry.2 := by
  rw [contents, List.map_cons, Finmap.toFinmap_cons]
  rfl

theorem keys_contents : (contents key entries).keys = members key (entries.map Prod.fst) := by
  ext k
  induction entries with
  | nil => simp [members]
  | cons entry rest ih =>
    rw [contents_cons, Finmap.mem_keys, Finmap.mem_insert, ← Finmap.mem_keys, ih]
    simp [members]

/-- The keys of the entries are distinct, and in `P`. -/
abbrev DistinctKeys (P : α → Prop) (key : α → κ) (entries : List (α × β)) : Prop :=
  Distinct P key (entries.map Prod.fst)

theorem DistinctKeys.card_keys (h : DistinctKeys P key entries) :
    (contents key entries).keys.card = entries.length := by
  rw [keys_contents, Distinct.card_members h, List.length_map]

omit [DecidableEq κ] in
theorem DistinctKeys.tail {entry : α × β} (h : DistinctKeys P key (entry :: entries)) :
    P entry.1 ∧ (∀ other ∈ entries, key other.1 ≠ key entry.1) ∧ DistinctKeys P key entries := by
  obtain ⟨hvalid, hnodup⟩ := h
  rw [List.map_cons, List.map_cons, List.nodup_cons] at hnodup
  refine ⟨hvalid _ (by simp), ?_, fun b hb => hvalid b (by simp at hb ⊢; tauto), hnodup.2⟩
  intro other hother heq
  exact hnodup.1 (heq ▸ List.mem_map_of_mem (List.mem_map_of_mem hother))

theorem DistinctKeys.values_contents (h : DistinctKeys P key entries) :
    (contents key entries).entries.map Sigma.snd = ((entries.map Prod.snd : List β) : Multiset β) := by
  induction entries with
  | nil => rfl
  | cons entry rest ih =>
    obtain ⟨-, hother, hrest⟩ := h.tail
    have hnot : key entry.1 ∉ contents key rest := by
      rw [← Finmap.mem_keys, keys_contents, mem_members, List.mem_map]
      rintro ⟨b, hb, hkey⟩
      obtain ⟨other, hmem, rfl⟩ := List.mem_map.mp hb
      exact hother other hmem hkey
    rw [contents_cons, Finmap.entries_insert_of_notMem hnot, Multiset.map_cons, ih hrest]
    rfl

theorem findValue_eq_lookup (hsame : Compares P key same) (h : DistinctKeys P key entries)
    (ha : P a) : findValue same entries a = (contents key entries).lookup (key a) := by
  induction entries with
  | nil => rfl
  | cons entry rest ih =>
    obtain ⟨hentry, -, hrest⟩ := h.tail
    rw [contents_cons]
    by_cases hkey : key entry.1 = key a
    · have hhit := (hsame _ _ hentry ha).mpr hkey
      rw [← hkey, Finmap.lookup_insert]
      simp [findValue, hhit]
    · have hmiss : same entry.1 a = false := by
        rw [← Bool.not_eq_true, hsame _ _ hentry ha]
        exact hkey
      rw [Finmap.lookup_insert_of_ne _ (Ne.symm hkey), ← ih hrest]
      simp [findValue, hmiss]

theorem contents_assign (hsame : Compares P key same) (h : DistinctKeys P key entries) (ha : P a) :
    contents key (assign same entries a v) = (contents key entries).insert (key a) v := by
  induction entries with
  | nil => rfl
  | cons entry rest ih =>
    obtain ⟨hentry, -, hrest⟩ := h.tail
    unfold assign
    by_cases hkey : key entry.1 = key a
    · rw [if_pos ((hsame _ _ hentry ha).mpr hkey), contents_cons, contents_cons, ← hkey,
        Finmap.insert_insert]
    · have hmiss : ¬ same entry.1 a = true := by
        rw [hsame _ _ hentry ha]
        exact hkey
      rw [if_neg hmiss, contents_cons, contents_cons, ih hrest, Finmap.insert_insert_of_ne _ hkey]

omit [DecidableEq κ] in
theorem keys_assign : (assign same entries a v).map Prod.fst =
    pushUnique same (entries.map Prod.fst) a := by
  induction entries with
  | nil => rfl
  | cons entry rest ih =>
    unfold assign
    by_cases hhit : same entry.1 a = true
    · simp [hhit, pushUnique, holds]
    · rw [if_neg hhit, List.map_cons, ih]
      unfold pushUnique holds
      rw [List.map_cons, List.any_cons, Bool.eq_false_of_not_eq_true hhit, Bool.false_or]
      split
      · rfl
      · rfl

omit [DecidableEq κ] in
theorem fst_mem_assign {entry : α × β} (h : entry ∈ assign same entries a v) :
    entry.1 = a ∨ ∃ other ∈ entries, other.1 = entry.1 := by
  induction entries with
  | nil =>
    cases List.mem_singleton.mp h
    exact Or.inl rfl
  | cons first rest ih =>
    unfold assign at h
    split at h
    · rcases List.mem_cons.mp h with rfl | hrest
      · exact Or.inr ⟨first, List.mem_cons_self, rfl⟩
      · exact Or.inr ⟨entry, List.mem_cons_of_mem _ hrest, rfl⟩
    · rcases List.mem_cons.mp h with rfl | hrest
      · exact Or.inr ⟨_, List.mem_cons_self, rfl⟩
      · rcases ih hrest with hnew | ⟨other, hother, hkey⟩
        · exact Or.inl hnew
        · exact Or.inr ⟨other, List.mem_cons_of_mem _ hother, hkey⟩

omit [DecidableEq κ] in
theorem mem_assign {entry : α × β} (h : entry ∈ assign same entries a v) :
    entry ∈ entries ∨ entry.2 = v := by
  induction entries with
  | nil =>
    cases List.mem_singleton.mp h
    exact Or.inr rfl
  | cons first rest ih =>
    unfold assign at h
    split at h
    · rcases List.mem_cons.mp h with rfl | hrest
      · exact Or.inr rfl
      · exact Or.inl (List.mem_cons_of_mem _ hrest)
    · rcases List.mem_cons.mp h with rfl | hrest
      · exact Or.inl List.mem_cons_self
      · rcases ih hrest with hrest | hnew
        · exact Or.inl (List.mem_cons_of_mem _ hrest)
        · exact Or.inr hnew

omit [DecidableEq κ] in
theorem DistinctKeys.assign (hsame : Compares P key same) (h : DistinctKeys P key entries)
    (ha : P a) : DistinctKeys P key (assign same entries a v) := by
  unfold DistinctKeys
  rw [keys_assign]
  exact Distinct.pushUnique hsame h ha

theorem erase_insert_same (m : Finmap (fun _ : κ => β)) (k : κ) (v : β) :
    (m.insert k v).erase k = m.erase k := by
  apply Finmap.ext_lookup
  intro x
  by_cases hx : x = k
  · subst hx
    rw [Finmap.lookup_erase, Finmap.lookup_erase]
  · rw [Finmap.lookup_erase_ne hx, Finmap.lookup_erase_ne hx, Finmap.lookup_insert_of_ne _ hx]

theorem erase_insert_of_ne (m : Finmap (fun _ : κ => β)) {k k' : κ} (v : β) (hne : k ≠ k') :
    (m.insert k v).erase k' = (m.erase k').insert k v := by
  apply Finmap.ext_lookup
  intro x
  by_cases hx : x = k
  · subst hx
    rw [Finmap.lookup_erase_ne hne, Finmap.lookup_insert, Finmap.lookup_insert]
  · rw [Finmap.lookup_insert_of_ne _ hx]
    by_cases hx' : x = k'
    · subst hx'
      rw [Finmap.lookup_erase, Finmap.lookup_erase]
    · rw [Finmap.lookup_erase_ne hx', Finmap.lookup_erase_ne hx', Finmap.lookup_insert_of_ne _ hx]

theorem contents_filter_not_same (hsame : Compares P key same) (h : DistinctKeys P key entries)
    (ha : P a) :
    contents key (entries.filter (fun entry => !same entry.1 a)) =
      (contents key entries).erase (key a) := by
  induction entries with
  | nil => rfl
  | cons entry rest ih =>
    obtain ⟨hentry, -, hrest⟩ := h.tail
    by_cases hkey : key entry.1 = key a
    · have hhit := (hsame _ _ hentry ha).mpr hkey
      rw [List.filter_cons_of_neg (by simp [hhit]), ih hrest, contents_cons, hkey,
        erase_insert_same]
    · have hmiss : same entry.1 a = false := by
        rw [← Bool.not_eq_true, hsame _ _ hentry ha]
        exact hkey
      rw [List.filter_cons_of_pos (by simp [hmiss]), contents_cons, ih hrest, contents_cons,
        erase_insert_of_ne _ _ hkey]

omit [DecidableEq κ] in
theorem DistinctKeys.filter (h : DistinctKeys P key entries) (keep : α × β → Bool) :
    DistinctKeys P key (entries.filter keep) :=
  Distinct.sublist h (List.filter_sublist.map Prod.fst)

end Maps

/-! ## The order of keys -/

section Order

variable [DecidableEq κ] {key : α → κ} {same : α → α → Bool} {values : List α} {a : α}
  {before after : List κ}

theorem keepsOrder_refl (l : List κ) : KeepsOrder l l := by
  refine ⟨[], ?_⟩
  rw [List.append_nil, List.filter_eq_self.mpr]
  intro k hk
  simpa using hk

theorem keepsOrder_append (l fresh : List κ) : KeepsOrder l (l ++ fresh) := by
  refine ⟨fresh, ?_⟩
  rw [List.filter_eq_self.mpr]
  intro k hk
  simp [hk]

theorem keepsOrder_pushUnique : KeepsOrder (values.map key) ((pushUnique same values a).map key) := by
  unfold pushUnique
  split
  · exact keepsOrder_refl _
  · rw [List.map_append]
    exact keepsOrder_append _ _

/-- Removing values whose keys are all gone afterwards keeps the order of the others. -/
theorem keepsOrder_filter (keep : α → Bool) (hnodup : (values.map key).Nodup) :
    KeepsOrder (values.map key) ((values.filter keep).map key) := by
  refine ⟨[], ?_⟩
  rw [List.append_nil, List.filter_map]
  congr 1
  apply List.filter_congr
  intro a ha
  rw [Bool.eq_iff_iff]
  simp only [Function.comp_apply, decide_eq_true_iff, List.mem_map, List.mem_filter]
  constructor
  · exact fun hkeep => ⟨a, ⟨ha, hkeep⟩, rfl⟩
  · rintro ⟨b, ⟨hb, hkeep⟩, hkey⟩
    exact List.inj_on_of_nodup_map hnodup hb ha hkey ▸ hkeep

theorem KeepsOrder.pair (h : KeepsOrder before after) {k k' : κ} (hpair : [k, k'].Sublist before)
    (hk : k ∈ after) (hk' : k' ∈ after) : [k, k'].Sublist after := by
  obtain ⟨fresh, heq⟩ := h
  have hsub : ([k, k'].filter (· ∈ after)).Sublist (before.filter (· ∈ after)) :=
    hpair.filter _
  rw [List.filter_eq_self.mpr (by simp [hk, hk'])] at hsub
  rw [heq]
  exact hsub.trans (List.sublist_append_left _ _)

end Order

end FaberHosts.Lib
