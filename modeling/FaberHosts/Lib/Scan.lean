import FaberHosts.Lib.Checks

/-!
# Loops that check each element against those before it

A validator that walks a list with an early return and remembers what it saw is
a fold in `Except`.  `EachAfter` states such a loop without its accumulator: each
element passes a check that may look at the elements before it.  The checks met
in practice (unique keys, agreement with the first element of the same key) have
order-free forms.
-/

namespace FaberHosts.Lib

variable {ε α β κ σ : Type}

/-- Every element passes its check against the elements before it. -/
def EachAfter (P : List α → α → Prop) : List α → List α → Prop
  | _, [] => True
  | before, a :: rest => P before a ∧ EachAfter P (before ++ [a]) rest

instance decidableEachAfter {P : List α → α → Prop} [∀ before a, Decidable (P before a)] :
    (before l : List α) → Decidable (EachAfter P before l)
  | _, [] => isTrue trivial
  | before, a :: rest =>
    have := decidableEachAfter (P := P) (before ++ [a]) rest
    inferInstanceAs (Decidable (P before a ∧ EachAfter P (before ++ [a]) rest))

section EachAfter

variable {P Q : List α → α → Prop} {before l : List α}

theorem eachAfter_append {l' : List α} :
    EachAfter P before (l ++ l') ↔ EachAfter P before l ∧ EachAfter P (before ++ l) l' := by
  induction l generalizing before with
  | nil => simp [EachAfter]
  | cons a rest ih => simp [EachAfter, ih, and_assoc]

theorem eachAfter_iff :
    EachAfter P before l ↔ ∀ l₁ a l₂, l = l₁ ++ a :: l₂ → P (before ++ l₁) a := by
  constructor
  · rintro h l₁ a l₂ rfl
    exact (eachAfter_append.mp h).2.1
  · intro h
    induction l generalizing before with
    | nil => trivial
    | cons a rest ih =>
      refine ⟨by simpa using h [] a rest rfl, ih ?_⟩
      rintro l₁ b l₂ rfl
      simpa using h (a :: l₁) b l₂ rfl

theorem eachAfter_and :
    EachAfter (fun before a => P before a ∧ Q before a) before l ↔
      EachAfter P before l ∧ EachAfter Q before l := by
  simp only [eachAfter_iff]
  exact ⟨fun h => ⟨fun l₁ a l₂ hl => (h l₁ a l₂ hl).1, fun l₁ a l₂ hl => (h l₁ a l₂ hl).2⟩,
    fun h l₁ a l₂ hl => ⟨h.1 l₁ a l₂ hl, h.2 l₁ a l₂ hl⟩⟩

theorem eachAfter_mono (himp : ∀ before a, P before a → Q before a)
    (h : EachAfter P before l) : EachAfter Q before l := by
  rw [eachAfter_iff] at h ⊢
  exact fun l₁ a l₂ hl => himp _ a (h l₁ a l₂ hl)

theorem eachAfter_const {check : α → Prop} :
    EachAfter (fun _ a => check a) before l ↔ ∀ a ∈ l, check a := by
  induction l generalizing before with
  | nil => simp [EachAfter]
  | cons a rest ih => simp [EachAfter, ih]

theorem eachAfter_shift {first : List α} :
    EachAfter (fun seen a => P (first ++ seen) a) before l ↔ EachAfter P (first ++ before) l := by
  induction l generalizing before with
  | nil => simp [EachAfter]
  | cons a rest ih => simp [EachAfter, ih]

theorem eachAfter_flatMap {f : β → List α} {groups seen : List β} :
    EachAfter (fun seen g => EachAfter P (seen.flatMap f) (f g)) seen groups ↔
      EachAfter P (seen.flatMap f) (groups.flatMap f) := by
  induction groups generalizing seen with
  | nil => simp [EachAfter]
  | cons g rest ih => simp [EachAfter, ih, eachAfter_append]

theorem eachAfter_pairwise {R : α → α → Prop} :
    EachAfter (fun before a => ∀ b ∈ before, R b a) [] l ↔ l.Pairwise R := by
  suffices h : ∀ before : List α, EachAfter (fun before a => ∀ b ∈ before, R b a) before l ↔
      (∀ b ∈ before, ∀ a ∈ l, R b a) ∧ l.Pairwise R by simpa using h []
  induction l with
  | nil => simp [EachAfter]
  | cons a rest ih =>
    intro before
    simp only [EachAfter, ih, List.mem_append, List.mem_singleton, List.pairwise_cons,
      List.forall_mem_cons]
    constructor
    · rintro ⟨ha, hrest, hpair⟩
      exact ⟨fun b hb => ⟨ha b hb, hrest b (Or.inl hb)⟩, hrest a (Or.inr rfl), hpair⟩
    · rintro ⟨hall, hhead, hpair⟩
      refine ⟨fun b hb => (hall b hb).1, ?_, hpair⟩
      rintro b (hb | rfl)
      · exact (hall b hb).2
      · exact hhead

/-- A symmetric law checked against the elements before, and met by each element
    with itself, holds of any two elements. -/
theorem eachAfter_symm {R : α → α → Prop} (hrefl : ∀ a, R a a) (hsymm : ∀ a b, R a b → R b a) :
    EachAfter (fun before a => ∀ b ∈ before, R b a) [] l ↔ ∀ a ∈ l, ∀ b ∈ l, R a b := by
  rw [eachAfter_pairwise]
  have : Std.Symm R := ⟨hsymm⟩
  exact ⟨fun h a ha b hb => h.forall_of_forall (fun x _ => hrefl x) ha hb,
    List.pairwise_of_forall_mem_list⟩

variable {key : α → κ}

theorem eachAfter_notMem_map :
    EachAfter (fun before a => key a ∉ before.map key) [] l ↔ (l.map key).Nodup := by
  rw [List.Nodup, List.pairwise_map, ← eachAfter_pairwise]
  simp only [List.mem_map, not_exists, not_and, ne_eq]

variable [BEq κ] [LawfulBEq κ] {fits : α → α → Prop}

variable (l key fits) in
/-- Each element fits the first one of its key, where the first fits itself. -/
theorem eachAfter_first (hrefl : ∀ a, fits a a) :
    EachAfter (fun before a => ∀ first, before.find? (key · == key a) = some first →
        fits first a) [] l ↔
      ∀ a ∈ l, ∀ first, l.find? (key · == key a) = some first → fits first a := by
  rw [eachAfter_iff]
  constructor
  · intro h a ha first hfirst
    obtain ⟨l₁, l₂, rfl⟩ := List.append_of_mem ha
    rw [List.find?_append] at hfirst
    cases hbefore : l₁.find? (key · == key a) with
    | some b =>
      rw [hbefore] at hfirst
      cases hfirst
      exact h l₁ a l₂ rfl _ (by simpa using hbefore)
    | none =>
      rw [hbefore] at hfirst
      simp only [Option.none_or, List.find?_cons, beq_self_eq_true, Option.some.injEq] at hfirst
      exact hfirst ▸ hrefl _
  · rintro h l₁ a l₂ rfl first hfirst
    rw [List.nil_append] at hfirst
    exact h a (by simp) first (by rw [List.find?_append, hfirst]; rfl)

/-- Agreeing with the first element of its key is agreeing with every element of it. -/
theorem first_eq_iff {value : α → β} :
    (∀ a ∈ l, ∀ first, l.find? (key · == key a) = some first → value first = value a) ↔
      ∀ a ∈ l, ∀ b ∈ l, key a = key b → value a = value b := by
  constructor
  · intro h a ha b hb hkey
    cases hfind : l.find? (key · == key a) with
    | none => simpa using List.find?_eq_none.mp hfind a ha
    | some first =>
      have hb' := h b hb first (by rw [← hkey, hfind])
      rw [← h a ha first hfind, hb']
  · intro h a ha first hfirst
    exact h first (List.mem_of_find?_eq_some hfirst) a ha (by simpa using List.find?_some hfirst)

end EachAfter

/-- What the loop remembers is a function `seen` of the elements it walked, and
    it returns exactly when each element passes its check. -/
theorem foldlM_ok_iff (step : σ → α → Except ε σ) (seen : List α → σ) (P : List α → α → Prop)
    (before l : List α) (t : σ)
    (hstep : ∀ before a t, EachAfter P [] before →
      (step (seen before) a = .ok t ↔ P before a ∧ seen (before ++ [a]) = t))
    (hbefore : EachAfter P [] before) :
    l.foldlM step (seen before) = .ok t ↔ EachAfter P before l ∧ seen (before ++ l) = t := by
  induction l generalizing before with
  | nil => simp [EachAfter, pure, Except.pure]
  | cons a rest ih =>
    simp only [List.foldlM_cons, EachAfter]
    cases hcheck : step (seen before) a with
    | error e =>
      have hnot : ¬ P before a := fun hP => by
        rw [(hstep before a _ hbefore).mpr ⟨hP, rfl⟩] at hcheck
        cases hcheck
      simp [bind, Except.bind, hnot]
    | ok s =>
      obtain ⟨hP, rfl⟩ := (hstep before a s hbefore).mp hcheck
      have hnext : EachAfter P [] (before ++ [a]) := by
        rw [eachAfter_append]
        exact ⟨hbefore, by simpa [EachAfter] using hP⟩
      simpa [bind, Except.bind, hP] using ih _ hnext

theorem foldlM_returns {step : σ → α → Except ε σ} {l : List α}
    (hstep : ∀ s, ∀ a ∈ l, ∃ t, step s a = .ok t) (s : σ) : ∃ t, l.foldlM step s = .ok t := by
  induction l generalizing s with
  | nil => exact ⟨s, rfl⟩
  | cons a rest ih =>
    obtain ⟨next, hnext⟩ := hstep s a List.mem_cons_self
    obtain ⟨t, ht⟩ := ih (fun s b hb => hstep s b (List.mem_cons_of_mem _ hb)) next
    refine ⟨t, ?_⟩
    rw [List.foldlM_cons, hnext]
    exact ht

/-- What each turn keeps of the elements walked so far, the loop keeps of all of them. -/
theorem foldlM_preserves {step : σ → α → Except ε σ} {P : List α → σ → Prop} {before l : List α}
    {s t : σ} (hstep : ∀ before s, ∀ a ∈ l, ∀ t, P before s → step s a = .ok t →
      P (before ++ [a]) t) (hs : P before s) (hrun : l.foldlM step s = .ok t) :
    P (before ++ l) t := by
  induction l generalizing before s with
  | nil =>
    cases hrun
    simpa using hs
  | cons a rest ih =>
    rw [List.foldlM_cons] at hrun
    cases hturn : step s a with
    | error e =>
      rw [hturn] at hrun
      cases hrun
    | ok next =>
      rw [hturn] at hrun
      have hnext := hstep before s a List.mem_cons_self next hs hturn
      simpa using ih (fun before s b hb => hstep before s b (List.mem_cons_of_mem _ hb)) hnext hrun

/-! ## The first element that passes a test -/

section Find

variable {p : α → Bool} {l : List α}

/-- The first match in a list of groups lies in the first group with a match. -/
theorem exists_group_of_find? {f : β → List α} {groups : List β} {a : α}
    (h : (groups.flatMap f).find? p = some a) :
    ∃ before g after, groups = before ++ g :: after ∧ (∀ x ∈ before.flatMap f, p x = false) ∧
      (f g).find? p = some a := by
  induction groups with
  | nil => cases h
  | cons g rest ih =>
    rw [List.flatMap_cons, List.find?_append] at h
    cases hg : (f g).find? p with
    | some b =>
      rw [hg] at h
      exact ⟨[], g, rest, rfl, by simp, h ▸ hg⟩
    | none =>
      rw [hg] at h
      obtain ⟨before, g', after, rfl, hbefore, hfind⟩ := ih h
      refine ⟨g :: before, g', after, rfl, fun x hx => ?_, hfind⟩
      rcases List.mem_append.mp hx with hx | hx
      · simpa using List.find?_eq_none.mp hg x hx
      · exact hbefore x hx

variable (p l) in
/-- A list whose first part has no match and whose second part has one. -/
theorem find?_append_of_mem (first rest : List α) (hfirst : ∀ x ∈ first, p x = false) {a : α}
    (ha : a ∈ l) (hp : p a = true) :
    ∃ b ∈ l, p b = true ∧ (first ++ (l ++ rest)).find? p = some b := by
  obtain ⟨b, hb⟩ := Option.isSome_iff_exists.mp (List.find?_isSome.mpr ⟨a, ha, hp⟩)
  have hnone : first.find? p = none := List.find?_eq_none.mpr (fun x hx => by simp [hfirst x hx])
  refine ⟨b, List.mem_of_find?_eq_some hb, List.find?_some hb, ?_⟩
  rw [List.find?_append, List.find?_append, hnone, hb]
  rfl

/-- The first match of a list sorted by rank has the least rank of all matches. -/
theorem rank_find?_le {rank : α → Nat} (hsorted : l.Pairwise (fun a b => rank a ≤ rank b)) {a : α}
    (h : l.find? p = some a) {b : α} (hb : b ∈ l) (hp : p b = true) : rank a ≤ rank b := by
  obtain ⟨-, before, after, rfl, hbefore⟩ := List.find?_eq_some_iff_append.mp h
  rcases List.mem_append.mp hb with hb | hb
  · have hnot := hbefore b hb
    rw [hp] at hnot
    cases hnot
  · rcases List.mem_cons.mp hb with rfl | hb
    · exact le_rfl
    · exact (List.pairwise_cons.mp (List.pairwise_append.mp hsorted).2.1).1 b hb

/-- Where all answers agree, the first answer does not depend on the order. -/
theorem findSome?_perm {f : α → Option β} {permuted : List α} (hperm : permuted.Perm l)
    (hagree : ∀ a ∈ l, ∀ b ∈ l, ∀ x y, f a = some x → f b = some y → x = y) :
    permuted.findSome? f = l.findSome? f := by
  cases hfirst : l.findSome? f with
  | none =>
    rw [List.findSome?_eq_none_iff] at hfirst ⊢
    exact fun a ha => hfirst a (hperm.mem_iff.mp ha)
  | some y =>
    obtain ⟨b, hb, hy⟩ := List.exists_of_findSome?_eq_some hfirst
    cases hother : permuted.findSome? f with
    | none =>
      have hnone := List.findSome?_eq_none_iff.mp hother b (hperm.mem_iff.mpr hb)
      rw [hy] at hnone
      cases hnone
    | some x =>
      obtain ⟨a, ha, hx⟩ := List.exists_of_findSome?_eq_some hother
      rw [hagree a (hperm.mem_iff.mp ha) b hb x y hx hy]

end Find

/-! ## The first fact of each key -/

section FirstFacts

variable [BEq κ] {key : α → κ} {value : α → β} {l : List α}

/-- A list of facts with one more, unless its key is recorded. -/
def recordFirst (facts : List (κ × β)) (k : κ) (v : β) : List (κ × β) :=
  if (facts.find? (·.1 == k)).isSome then facts else facts ++ [(k, v)]

/-- The value of the first element of each key. -/
def firstFacts (key : α → κ) (value : α → β) (l : List α) : List (κ × β) :=
  l.foldl (fun facts a => recordFirst facts (key a) (value a)) []

@[simp] theorem firstFacts_nil : firstFacts key value [] = [] := rfl

theorem firstFacts_append_singleton (a : α) :
    firstFacts key value (l ++ [a]) = recordFirst (firstFacts key value l) (key a) (value a) := by
  simp [firstFacts]

section Lookup

variable [LawfulBEq κ]

theorem find?_key {k : κ} {first : α} (h : l.find? (key · == k) = some first) :
    first ∈ l ∧ key first = k :=
  ⟨List.mem_of_find?_eq_some h, by simpa using List.find?_some h⟩

variable (key) in
theorem exists_find?_key {a : α} (ha : a ∈ l) :
    ∃ first, l.find? (key · == key a) = some first ∧ first ∈ l ∧ key first = key a := by
  have hsome : (l.find? (key · == key a)).isSome :=
    List.find?_isSome.mpr ⟨a, ha, by simp⟩
  obtain ⟨first, hfirst⟩ := Option.isSome_iff_exists.mp hsome
  exact ⟨first, hfirst, find?_key hfirst⟩

theorem find?_key_eq_none_iff {k : κ} :
    l.find? (key · == k) = none ↔ ∀ a ∈ l, key a ≠ k := by
  simp [List.find?_eq_none]

/-- Looking a key up among the facts finds the first element of that key. -/
theorem find?_firstFacts (k : κ) :
    (firstFacts key value l).find? (·.1 == k) =
      (l.find? (key · == k)).map (fun a => (key a, value a)) := by
  induction l using List.reverseRecOn with
  | nil => rfl
  | append_singleton l a ih =>
    rw [firstFacts_append_singleton, recordFirst, List.find?_append]
    by_cases hk : key a = k
    · subst hk
      rw [ih]
      cases hl : l.find? (key · == key a) with
      | some b => simp [ih, hl]
      | none => simp [ih, hl]
    · split
      · simp [ih, hk]
      · simp [ih, hk]

theorem firstFacts_append_of_find? {a first : α} (h : l.find? (key · == key a) = some first) :
    firstFacts key value (l ++ [a]) = firstFacts key value l := by
  rw [firstFacts_append_singleton, recordFirst, find?_firstFacts, h]
  rfl

theorem firstFacts_append_of_new {a : α} (h : l.find? (key · == key a) = none) :
    firstFacts key value (l ++ [a]) = firstFacts key value l ++ [(key a, value a)] := by
  rw [firstFacts_append_singleton, recordFirst, find?_firstFacts, h]
  rfl

theorem mem_firstFacts {k : κ} {v : β} :
    (k, v) ∈ firstFacts key value l ↔ ∃ a, l.find? (key · == k) = some a ∧ value a = v := by
  induction l using List.reverseRecOn with
  | nil => simp
  | append_singleton l a ih =>
    rw [List.find?_append]
    cases hl : l.find? (key · == key a) with
    | some first =>
      rw [firstFacts_append_of_find? hl, ih]
      by_cases hk : key a = k
      · subst hk
        simp [hl]
      · simp [hk]
    | none =>
      rw [firstFacts_append_of_new hl, List.mem_append, ih]
      by_cases hk : key a = k
      · subst hk
        simp [hl, eq_comm]
      · simp [hk, Ne.symm hk]

end Lookup

end FirstFacts

section FirstKeys

variable [DecidableEq κ] {key : α → κ} {l : List α}

/-- The distinct keys of a list, in order of first appearance. -/
def firstKeys (key : α → κ) (l : List α) : List κ :=
  l.foldl (fun keys a => if key a ∈ keys then keys else keys ++ [key a]) []

theorem firstKeys_append_singleton (a : α) :
    firstKeys key (l ++ [a]) =
      if key a ∈ firstKeys key l then firstKeys key l else firstKeys key l ++ [key a] := by
  rw [firstKeys, List.foldl_append]
  rfl

theorem mem_firstKeys {k : κ} : k ∈ firstKeys key l ↔ ∃ a ∈ l, key a = k := by
  induction l using List.reverseRecOn generalizing k with
  | nil => simp [firstKeys]
  | append_singleton l a ih =>
    have hsplit : (∃ b ∈ l ++ [a], key b = k) ↔ k ∈ firstKeys key l ∨ key a = k := by
      simp [ih, or_and_right, exists_or]
    rw [firstKeys_append_singleton, hsplit]
    by_cases hmem : key a ∈ firstKeys key l
    · rw [if_pos hmem]
      exact ⟨Or.inl, fun h => h.elim id (fun heq => heq ▸ hmem)⟩
    · rw [if_neg hmem, List.mem_append, List.mem_singleton, eq_comm (a := k)]

end FirstKeys

theorem bind_ok_iff {x : Except ε α} {f : α → Except ε β} {b : β} :
    (x >>= f) = .ok b ↔ ∃ a, x = .ok a ∧ f a = .ok b := by
  cases x with
  | error e => simp [bind, Except.bind]
  | ok a => simp [bind, Except.bind]

/-- The same where it is known when the first step returns, and with what. -/
theorem bind_ok_iff_of {x : Except ε α} {f : α → Except ε β} {b : β} {P : Prop} {v : α}
    (hx : ∀ a, x = .ok a ↔ P ∧ v = a) : (x >>= f) = .ok b ↔ P ∧ f v = .ok b := by
  rw [bind_ok_iff]
  constructor
  · rintro ⟨a, ha, hf⟩
    obtain ⟨hP, rfl⟩ := (hx a).mp ha
    exact ⟨hP, hf⟩
  · rintro ⟨hP, hf⟩
    exact ⟨v, (hx v).mpr ⟨hP, rfl⟩, hf⟩

theorem bind_error_iff {x : Except ε α} {f : α → Except ε β} {e : ε} :
    (x >>= f) = .error e ↔ x = .error e ∨ ∃ a, x = .ok a ∧ f a = .error e := by
  cases x with
  | error e' => simp [bind, Except.bind]
  | ok a => simp [bind, Except.bind]

theorem forM_ok {check : α → Except ε Unit} {l : List α} (h : l.forM check = .ok ()) :
    ∀ a ∈ l, check a = .ok () := by
  induction l with
  | nil => nofun
  | cons a rest ih =>
    obtain ⟨_, ha, hrest⟩ := bind_ok_iff.mp h
    exact List.forall_mem_cons.mpr ⟨ha, ih hrest⟩

/-! ## A check on each element that keeps its answers -/

section MapM

variable {f g : α → Except ε β} {l : List α}

theorem exists_of_mapM_ok {bs : List β} (h : l.mapM f = .ok bs) : ∀ a ∈ l, ∃ b, f a = .ok b := by
  induction l generalizing bs with
  | nil => nofun
  | cons a rest ih =>
    rw [List.mapM_cons, bind_ok_iff] at h
    obtain ⟨b, hb, hrest⟩ := h
    obtain ⟨bs, hbs, -⟩ := bind_ok_iff.mp hrest
    exact List.forall_mem_cons.mpr ⟨⟨b, hb⟩, ih hbs⟩

theorem mapM_returns (h : ∀ a ∈ l, ∃ b, f a = .ok b) : ∃ bs, l.mapM f = .ok bs := by
  induction l with
  | nil => exact ⟨[], rfl⟩
  | cons a rest ih =>
    obtain ⟨⟨b, hb⟩, hrest⟩ := List.forall_mem_cons.mp h
    obtain ⟨bs, hbs⟩ := ih hrest
    refine ⟨b :: bs, ?_⟩
    rw [List.mapM_cons, hb, bind_ok_iff]
    exact ⟨b, rfl, bind_ok_iff.mpr ⟨bs, hbs, rfl⟩⟩

theorem exists_right_of_forall₂ {R : α → β → Prop} {bs : List β} (h : List.Forall₂ R l bs) :
    ∀ a ∈ l, ∃ b ∈ bs, R a b := by
  induction h with
  | nil => nofun
  | cons hhead _ ih =>
    refine List.forall_mem_cons.mpr ⟨⟨_, List.mem_cons_self, hhead⟩, fun a ha => ?_⟩
    obtain ⟨b, hb, hR⟩ := ih a ha
    exact ⟨b, List.mem_cons_of_mem _ hb, hR⟩

theorem exists_left_of_forall₂ {R : α → β → Prop} {bs : List β} (h : List.Forall₂ R l bs) :
    ∀ b ∈ bs, ∃ a ∈ l, R a b := exists_right_of_forall₂ h.flip

theorem getElem?_of_forall₂ {R : α → β → Prop} {bs : List β} (h : List.Forall₂ R l bs) (n : Nat) :
    (l[n]? = none ∧ bs[n]? = none) ∨ ∃ a b, l[n]? = some a ∧ bs[n]? = some b ∧ R a b := by
  induction h generalizing n with
  | nil => exact .inl ⟨rfl, rfl⟩
  | cons hhead _ ih =>
    cases n with
    | zero => exact .inr ⟨_, _, rfl, rfl, hhead⟩
    | succ n => exact ih n

theorem forall₂_of_mapM_ok {bs : List β} (h : l.mapM f = .ok bs) :
    List.Forall₂ (fun a b => f a = .ok b) l bs := by
  induction l generalizing bs with
  | nil =>
    cases h
    exact .nil
  | cons a rest ih =>
    rw [List.mapM_cons, bind_ok_iff] at h
    obtain ⟨b, hb, hrest⟩ := h
    obtain ⟨tail, htail, hbs⟩ := bind_ok_iff.mp hrest
    cases hbs
    exact .cons hb (ih htail)

theorem mapM_ok_mono {bs : List β} (h : l.mapM f = .ok bs)
    (hfg : ∀ a ∈ l, ∀ b, f a = .ok b → g a = .ok b) : l.mapM g = .ok bs := by
  induction l generalizing bs with
  | nil => exact h
  | cons a rest ih =>
    rw [List.mapM_cons, bind_ok_iff] at h ⊢
    obtain ⟨b, hb, hrest⟩ := h
    obtain ⟨tail, htail, hbs⟩ := bind_ok_iff.mp hrest
    refine ⟨b, hfg a List.mem_cons_self b hb, bind_ok_iff.mpr ⟨tail, ?_, hbs⟩⟩
    exact ih htail (fun a ha => hfg a (List.mem_cons_of_mem _ ha))

end MapM

/-! ## Answers that may also panic -/

/-- Go on with the value of an answer, if there is one. -/
def andThen (answer : MayPanic (Except ε α)) (next : α → MayPanic (Except ε β)) :
    MayPanic (Except ε β) :=
  match answer with
  | none => none
  | some (.error e) => some (.error e)
  | some (.ok a) => next a

theorem andThen_ok_iff {answer : MayPanic (Except ε α)} {next : α → MayPanic (Except ε β)} {b : β} :
    andThen answer next = some (.ok b) ↔ ∃ a, answer = some (.ok a) ∧ next a = some (.ok b) := by
  match answer with
  | none => simp [andThen]
  | some (.error e) => simp [andThen]
  | some (.ok a) => simp [andThen]

/-- A sequel returns when its first part does, and its second part after every
    value of the first. -/
theorem andThen_returns {answer : MayPanic (Except ε α)} {next : α → MayPanic (Except ε β)}
    (hanswer : ∃ r, answer = some r)
    (hnext : ∀ a, answer = some (.ok a) → ∃ r, next a = some r) :
    ∃ r, andThen answer next = some r := by
  obtain ⟨r, rfl⟩ := hanswer
  cases r with
  | error e => exact ⟨_, rfl⟩
  | ok a => exact hnext a rfl

end FaberHosts.Lib

/-!
## Guards in front of a body

A function that answers `Err` early is a sequence of guards in `Except`.  The sequence
answers `Ok` exactly when every guard lets it through (`bind_ok_iff`), so that `simp`
reads the conditions off the guards.
-/

namespace FaberHosts.Lib

variable {ε α : Type}

/-- `if bad { return Err(e) }`. -/
def refuseIf (bad : Prop) [Decidable bad] (e : ε) : Except ε Unit :=
  if bad then .error e else .ok ()

/-- `Option::ok_or`. -/
def okOr (answer : Option α) (e : ε) : Except ε α :=
  match answer with
  | none => .error e
  | some a => .ok a

@[simp] theorem refuseIf_eq_ok_iff {bad : Prop} [Decidable bad] {e : ε} {u : Unit} :
    refuseIf bad e = .ok u ↔ ¬bad := by
  by_cases h : bad
  · simp [refuseIf, h]
  · simp [refuseIf, h]

theorem refuseIf_of_not {bad : Prop} [Decidable bad] {e : ε} (h : ¬bad) :
    refuseIf bad e = .ok () := if_neg h

theorem of_refuseIf_eq_error {bad : Prop} [Decidable bad] {e e' : ε}
    (h : refuseIf bad e = .error e') : bad := by
  by_contra hgood
  simp [refuseIf, hgood] at h

@[simp] theorem okOr_eq_ok_iff {answer : Option α} {e : ε} {a : α} :
    okOr answer e = .ok a ↔ answer = some a := by
  cases answer with
  | none => simp [okOr]
  | some b => simp [okOr]

end FaberHosts.Lib
