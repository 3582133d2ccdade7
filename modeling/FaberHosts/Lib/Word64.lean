import FaberHosts.Lib.BTree
import FaberHosts.Lib.Checks

/-!
# Unsigned 64-bit arithmetic

Addition and multiplication of `u64` values as a compiled program does them:
with overflow checks a result that does not fit panics (`none`), without them
it wraps.  `accumulate` adds a list of keyed amounts into a map with such an
addition, and `amountAt` is the exact sum it stands for.
-/

namespace FaberHosts.Lib

/-- `a + b` on `u64`. -/
def addU64 (overflowChecks : Bool) (a b : UInt64) : MayPanic UInt64 :=
  if overflowChecks ∧ 2 ^ 64 ≤ a.toNat + b.toNat then none else some (a + b)

/-- `a * b` on `u64`. -/
def mulU64 (overflowChecks : Bool) (a b : UInt64) : MayPanic UInt64 :=
  if overflowChecks ∧ 2 ^ 64 ≤ a.toNat * b.toNat then none else some (a * b)

/-- `Iterator::sum` over `u64` values. -/
def sumU64 (overflowChecks : Bool) (values : List UInt64) : MayPanic UInt64 :=
  values.foldlM (addU64 overflowChecks) 0

/-- `u64::checked_add`. -/
def checkedAdd (a b : UInt64) : Option UInt64 := addU64 true a b

/-- `u64::checked_mul`. -/
def checkedMul (a b : UInt64) : Option UInt64 := mulU64 true a b

/-- `u64::saturating_add`. -/
def saturatingAdd (a b : UInt64) : UInt64 := (checkedAdd a b).getD (UInt64.ofNat (2 ^ 64 - 1))

/-- `u64::saturating_sub`. -/
def saturatingSub (a b : UInt64) : UInt64 := if b ≤ a then a - b else 0

theorem toNat_add_of_fits {a b : UInt64} (h : a.toNat + b.toNat < 2 ^ 64) :
    (a + b).toNat = a.toNat + b.toNat := by
  rw [UInt64.toNat_add, Nat.mod_eq_of_lt h]

theorem addU64_of_fits (checks : Bool) {a b : UInt64} (h : a.toNat + b.toNat < 2 ^ 64) :
    addU64 checks a b = some (a + b) := by
  rw [addU64, if_neg (by omega)]

theorem addU64_of_overflow {a b : UInt64} (h : 2 ^ 64 ≤ a.toNat + b.toNat) :
    addU64 true a b = none := by
  rw [addU64, if_pos ⟨rfl, h⟩]

@[simp] theorem addU64_unchecked (a b : UInt64) : addU64 false a b = some (a + b) := by
  simp [addU64]

theorem addU64_some {checks : Bool} {a b c : UInt64} (h : addU64 checks a b = some c) :
    c = a + b := by
  unfold addU64 at h
  split at h
  · cases h
  · cases h
    rfl

theorem addU64_returns_iff {checks : Bool} {a b : UInt64} :
    (∃ c, addU64 checks a b = some c) ↔ (checks = true → a.toNat + b.toNat < 2 ^ 64) := by
  cases checks with
  | false => simp
  | true =>
    by_cases h : a.toNat + b.toNat < 2 ^ 64
    · rw [addU64_of_fits true h]
      exact ⟨fun _ _ => h, fun _ => ⟨_, rfl⟩⟩
    · rw [addU64_of_overflow (Nat.le_of_not_lt h)]
      constructor
      · rintro ⟨_, hsum⟩
        cases hsum
      · exact fun hfit => (h (hfit rfl)).elim

theorem addU64_checked_some {a b c : UInt64} (h : addU64 true a b = some c) :
    a.toNat + b.toNat < 2 ^ 64 ∧ c.toNat = a.toNat + b.toNat := by
  by_cases hfit : a.toNat + b.toNat < 2 ^ 64
  · rw [addU64_of_fits true hfit] at h
    cases h
    exact ⟨hfit, toNat_add_of_fits hfit⟩
  · rw [addU64_of_overflow (by omega)] at h
    cases h

theorem mulU64_of_fits (checks : Bool) {a b : UInt64} (h : a.toNat * b.toNat < 2 ^ 64) :
    mulU64 checks a b = some (a * b) := by
  rw [mulU64, if_neg (by omega)]

theorem mulU64_of_overflow {a b : UInt64} (h : 2 ^ 64 ≤ a.toNat * b.toNat) :
    mulU64 true a b = none := by
  rw [mulU64, if_pos ⟨rfl, h⟩]

@[simp] theorem mulU64_unchecked (a b : UInt64) : mulU64 false a b = some (a * b) := by
  simp [mulU64]

theorem checkedAdd_eq_some_iff {a b c : UInt64} :
    checkedAdd a b = some c ↔ c.toNat = a.toNat + b.toNat := by
  by_cases hfit : a.toNat + b.toNat < 2 ^ 64
  · rw [checkedAdd, addU64_of_fits true hfit, Option.some.injEq, ← UInt64.toNat_inj,
      toNat_add_of_fits hfit]
    exact eq_comm
  · rw [checkedAdd, addU64_of_overflow (Nat.le_of_not_lt hfit)]
    have hlt := c.toNat_lt
    exact iff_of_false nofun (by omega)

theorem checkedMul_eq_some_iff {a b c : UInt64} :
    checkedMul a b = some c ↔ c.toNat = a.toNat * b.toNat := by
  by_cases hfit : a.toNat * b.toNat < 2 ^ 64
  · rw [checkedMul, mulU64_of_fits true hfit, Option.some.injEq, ← UInt64.toNat_inj,
      UInt64.toNat_mul, Nat.mod_eq_of_lt hfit]
    exact eq_comm
  · rw [checkedMul, mulU64_of_overflow (Nat.le_of_not_lt hfit)]
    have hlt := c.toNat_lt
    exact iff_of_false nofun (by omega)

theorem toNat_saturatingAdd (a b : UInt64) :
    (saturatingAdd a b).toNat = min (a.toNat + b.toNat) (2 ^ 64 - 1) := by
  unfold saturatingAdd checkedAdd
  by_cases hfit : a.toNat + b.toNat < 2 ^ 64
  · rw [addU64_of_fits true hfit, Option.getD_some, toNat_add_of_fits hfit]
    omega
  · rw [addU64_of_overflow (Nat.le_of_not_lt hfit), Option.getD_none,
      UInt64.toNat_ofNat_of_lt' (by decide)]
    omega

/-! ## Keyed accumulation -/

section AmountAt

variable {K : Type} [DecidableEq K]

/-- The exact sum of the amounts a list gives a key. -/
def amountAt (key : K) (entries : List (K × UInt64)) : Nat :=
  (entries.map (fun entry => if entry.1 = key then entry.2.toNat else 0)).sum

@[simp] theorem amountAt_nil (key : K) : amountAt key [] = 0 := rfl

@[simp] theorem amountAt_cons (key : K) (entry : K × UInt64) (rest : List (K × UInt64)) :
    amountAt key (entry :: rest) =
      (if entry.1 = key then entry.2.toNat else 0) + amountAt key rest := by
  simp [amountAt]

theorem amountAt_append (key : K) (first rest : List (K × UInt64)) :
    amountAt key (first ++ rest) = amountAt key first + amountAt key rest := by
  simp [amountAt]

theorem le_amountAt_of_mem {key : K} {amount : UInt64} {entries : List (K × UInt64)}
    (h : (key, amount) ∈ entries) : amount.toNat ≤ amountAt key entries := by
  induction entries with
  | nil => cases h
  | cons entry rest ih =>
    rw [amountAt_cons]
    rcases List.mem_cons.mp h with rfl | h
    · simp
    · exact (ih h).trans (Nat.le_add_left _ _)

end AmountAt

/-! ## Sums over distinct keys -/

section SumMap

variable {K : Type} {keys : List K} {value : K → Nat} {p q : K}

theorem sum_map_le_of_others_zero (hnodup : keys.Nodup)
    (h : ∀ key ∈ keys, key ≠ p → value key = 0) : (keys.map value).sum ≤ value p := by
  induction keys with
  | nil => simp
  | cons key rest ih =>
    obtain ⟨hkey, hrest⟩ := List.nodup_cons.mp hnodup
    rw [List.map_cons, List.sum_cons]
    by_cases heq : key = p
    · subst heq
      have hzero : (rest.map value).sum = 0 := by
        rw [List.sum_eq_zero]
        rintro _ hv
        obtain ⟨other, hother, rfl⟩ := List.mem_map.mp hv
        exact h other (by simp [hother]) (fun he => hkey (he ▸ hother))
      omega
    · have := h key (by simp) heq
      have := ih hrest (fun other hother => h other (by simp [hother]))
      omega

theorem add_le_sum_map (hne : p ≠ q) (hp : p ∈ keys) (hq : q ∈ keys) :
    value p + value q ≤ (keys.map value).sum := by
  induction keys with
  | nil => cases hp
  | cons key rest ih =>
    rw [List.map_cons, List.sum_cons]
    have hle : ∀ key ∈ rest, value key ≤ (rest.map value).sum := fun key hkey =>
      List.single_le_sum (fun _ _ => Nat.zero_le _) _ (List.mem_map_of_mem hkey)
    rcases List.mem_cons.mp hp with rfl | hpRest
    · rcases List.mem_cons.mp hq with rfl | hqRest
      · exact (hne rfl).elim
      · have := hle q hqRest
        omega
    · rcases List.mem_cons.mp hq with rfl | hqRest
      · have := hle p hpRest
        omega
      · have := ih hpRest hqRest
        omega

end SumMap

section Accumulate

variable {K : Type} [Ord K] [Std.TransOrd K]

/-- `*map.entry(key).or_insert(0) += amount`. -/
def addAt (overflowChecks : Bool) (m : BTreeMap K UInt64) (entry : K × UInt64) :
    MayPanic (BTreeMap K UInt64) :=
  (addU64 overflowChecks (m.getD entry.1 0) entry.2).map (fun total => m.insert entry.1 total)

/-- Add the entries of a list into a map, in order. -/
def accumulate (overflowChecks : Bool) (m : BTreeMap K UInt64) (entries : List (K × UInt64)) :
    MayPanic (BTreeMap K UInt64) :=
  entries.foldlM (addAt overflowChecks) m

variable [DecidableEq K] [Std.LawfulEqOrd K]

theorem addAt_of_fits (checks : Bool) {m : BTreeMap K UInt64} {entry : K × UInt64}
    (h : (m.getD entry.1 0).toNat + entry.2.toNat < 2 ^ 64) :
    ∃ m', addAt checks m entry = some m' ∧ ∀ key, (m'.getD key 0).toNat =
      (m.getD key 0).toNat + if entry.1 = key then entry.2.toNat else 0 := by
  refine ⟨_, by rw [addAt, addU64_of_fits checks h]; rfl, ?_⟩
  intro key
  by_cases hkey : entry.1 = key
  · subst hkey
    simp [toNat_add_of_fits h]
  · simp [Std.ExtTreeMap.getD_insert, hkey]

/-- When every key's exact sum fits, accumulation returns, checked or not. -/
theorem accumulate_of_fits (checks : Bool) (entries : List (K × UInt64)) (m : BTreeMap K UInt64)
    (h : ∀ key, (m.getD key 0).toNat + amountAt key entries < 2 ^ 64) :
    ∃ m', accumulate checks m entries = some m' := by
  induction entries generalizing m with
  | nil => exact ⟨m, rfl⟩
  | cons entry rest ih =>
    have hentry : (m.getD entry.1 0).toNat + entry.2.toNat < 2 ^ 64 := by
      have := h entry.1
      simp only [amountAt_cons, if_true] at this
      omega
    obtain ⟨m₁, hm₁, hget⟩ := addAt_of_fits checks hentry
    obtain ⟨m₂, hm₂⟩ := ih m₁ (by
      intro key
      have := h key
      rw [amountAt_cons] at this
      rw [hget key]
      omega)
    exact ⟨m₂, by rw [accumulate, List.foldlM_cons, hm₁]; exact hm₂⟩

theorem accumulate_checked_some {entries : List (K × UInt64)} {m m' : BTreeMap K UInt64}
    (h : accumulate true m entries = some m') :
    ∀ key, (m.getD key 0).toNat + amountAt key entries < 2 ^ 64 := by
  induction entries generalizing m with
  | nil => simpa using fun key => UInt64.toNat_lt (m.getD key 0)
  | cons entry rest ih =>
    rw [accumulate, List.foldlM_cons] at h
    obtain ⟨m₁, hm₁, hrest⟩ := Option.bind_eq_some_iff.mp h
    have hadd : (m.getD entry.1 0).toNat + entry.2.toNat < 2 ^ 64 := by
      by_contra hover
      rw [addAt, addU64_of_overflow (by omega)] at hm₁
      cases hm₁
    obtain ⟨m₂, hm₂, hget⟩ := addAt_of_fits true hadd
    rw [hm₁] at hm₂
    cases hm₂
    intro key
    have := ih hrest key
    rw [hget key] at this
    rw [amountAt_cons]
    omega

omit [DecidableEq K] [Std.LawfulEqOrd K] in
theorem accumulate_unchecked (entries : List (K × UInt64)) (m : BTreeMap K UInt64) :
    ∃ m', accumulate false m entries = some m' := by
  induction entries generalizing m with
  | nil => exact ⟨m, rfl⟩
  | cons entry rest ih =>
    rw [accumulate, List.foldlM_cons, addAt, addU64_unchecked]
    exact ih _

theorem accumulate_returns_iff {checks : Bool} {entries : List (K × UInt64)}
    {m : BTreeMap K UInt64} : (∃ m', accumulate checks m entries = some m') ↔
      (checks = true → ∀ key, (m.getD key 0).toNat + amountAt key entries < 2 ^ 64) := by
  cases checks with
  | false => simp [accumulate_unchecked]
  | true =>
    constructor
    · rintro ⟨m', h⟩ -
      exact accumulate_checked_some h
    · exact fun h => accumulate_of_fits true entries m (h rfl)

theorem accumulate_empty_returns_iff {checks : Bool} {entries : List (K × UInt64)} :
    (∃ sums : BTreeMap K UInt64, accumulate checks ∅ entries = some sums) ↔
      (checks = true → ∀ key, amountAt key entries < 2 ^ 64) := by
  rw [accumulate_returns_iff]
  simp

theorem accumulate_some {checks : Bool} {entries : List (K × UInt64)}
    {m m' : BTreeMap K UInt64} (h : accumulate checks m entries = some m') (key : K) :
    (m'.getD key 0).toNat = ((m.getD key 0).toNat + amountAt key entries) % 2 ^ 64 := by
  induction entries generalizing m with
  | nil =>
    cases h
    simp
  | cons entry rest ih =>
    rw [accumulate, List.foldlM_cons] at h
    obtain ⟨m₁, hm₁, hrest⟩ := Option.bind_eq_some_iff.mp h
    obtain ⟨total, htotal, rfl⟩ := Option.map_eq_some_iff.mp hm₁
    rw [ih hrest, amountAt_cons, Std.ExtTreeMap.getD_insert, addU64_some htotal]
    by_cases hkey : entry.1 = key
    · subst hkey
      simp [Nat.add_assoc]
    · simp [hkey]

end Accumulate

end FaberHosts.Lib
