import Mathlib.Logic.Basic
import Mathlib.Data.List.Forall2

/-!
# Computations with a record

A computation that may give no result and that leaves a record of what it
consulted, whether it gives one or not.  `Only P` says that everything on the
record satisfies `P`; its rules follow the operations.
-/

namespace FaberHosts.Lib

/-- A result, if there is one, and everything consulted on the way. -/
structure Traced (τ α : Type) where
  result : Option α
  record : List τ
  deriving DecidableEq

namespace Traced

variable {τ α β : Type}

instance : Monad (Traced τ) where
  pure a := ⟨some a, []⟩
  bind x f :=
    match x.result with
    | some a => ⟨(f a).result, x.record ++ (f a).record⟩
    | none => ⟨none, x.record⟩

/-- No result. -/
def fail : Traced τ α := ⟨none, []⟩

/-- What a lookup that leaves no record found. -/
def found (answer : Option α) : Traced τ α := ⟨answer, []⟩

/-- Consult `t`, which may give an answer. -/
def consult (t : τ) (answer : Option α) : Traced τ α := ⟨answer, [t]⟩

/-- The second computation is made when the first gave nothing. -/
def orElse (x y : Traced τ α) : Traced τ α :=
  match x.result with
  | some _ => x
  | none => ⟨y.result, x.record ++ y.record⟩

/-- Everything on the record satisfies `P`. -/
def Only (P : τ → Prop) (x : Traced τ α) : Prop := ∀ t ∈ x.record, P t

variable {P : τ → Prop} {x y : Traced τ α} {f : α → Traced τ β}

@[simp] theorem only_pure {a : α} : Only P (pure a : Traced τ α) := by
  intro t ht
  cases ht

@[simp] theorem only_fail : Only P (fail : Traced τ α) := by
  intro t ht
  cases ht

@[simp] theorem only_found {answer : Option α} : Only P (found answer : Traced τ α) := by
  intro t ht
  cases ht

@[simp] theorem only_consult {t : τ} {answer : Option α} : Only P (consult t answer) ↔ P t := by
  simp [Only, consult]

theorem only_bind :
    Only P (x >>= f) ↔ Only P x ∧ ∀ a, x.result = some a → Only P (f a) := by
  rcases hx : x.result with _ | a
  · have hbind : x >>= f = ⟨none, x.record⟩ := by
      show (match x.result with | some a => _ | none => _) = _
      rw [hx]
    rw [hbind]
    simp [Only]
  · have hbind : x >>= f = ⟨(f a).result, x.record ++ (f a).record⟩ := by
      show (match x.result with | some a => _ | none => _) = _
      rw [hx]
    rw [hbind]
    simp [Only, or_imp, forall_and]

theorem Only.bind (hx : Only P x) (hf : ∀ a, Only P (f a)) : Only P (x >>= f) :=
  only_bind.mpr ⟨hx, fun a _ => hf a⟩

theorem only_orElse :
    Only P (x.orElse y) ↔ Only P x ∧ (x.result = none → Only P y) := by
  unfold orElse
  rcases hx : x.result with _ | a
  · simp [Only, or_imp, forall_and]
  · simp [Only]

@[simp] theorem only_map {g : α → β} : Only P (g <$> x) ↔ Only P x := by
  show Only P (x >>= fun a => pure (g a)) ↔ _
  rw [only_bind]
  simp

/-- The elements in turn, up to the first that gives nothing. -/
def each (g : α → Traced τ β) : List α → Traced τ (List β)
  | [] => pure []
  | a :: rest => do
    let b ← g a
    let bs ← each g rest
    pure (b :: bs)

@[simp] theorem result_pure {a : α} : (pure a : Traced τ α).result = some a := rfl

theorem result_bind : (x >>= f).result = x.result.bind fun a => (f a).result := by
  show (match x.result with | some a => _ | none => _ : Traced τ β).result = _
  cases x.result with
  | none => rfl
  | some a => rfl

@[simp] theorem result_map {g : α → β} : (g <$> x).result = x.result.map g := by
  show (x >>= fun a => pure (g a)).result = _
  rw [result_bind]
  cases x.result <;> rfl

theorem result_each_iff {g : α → Traced τ β} {l : List α} {bs : List β} :
    (each g l).result = some bs ↔ List.Forall₂ (fun a b => (g a).result = some b) l bs := by
  induction l generalizing bs with
  | nil => simp [each, eq_comm]
  | cons a rest ih =>
    rw [each, result_bind]
    cases hfirst : (g a).result with
    | none => simp [List.forall₂_cons_left_iff, hfirst]
    | some b =>
      rw [Option.bind_some, result_bind, List.forall₂_cons_left_iff]
      cases hrest : (each g rest).result with
      | none =>
        have hnone : ∀ bs, ¬ List.Forall₂ (fun a b => (g a).result = some b) rest bs := by
          intro bs hbs
          rw [← ih, hrest] at hbs
          cases hbs
        simp [hnone]
      | some found =>
        rw [Option.bind_some, result_pure, Option.some.injEq]
        constructor
        · intro h
          subst h
          exact ⟨b, found, hfirst, ih.mp hrest, rfl⟩
        · intro h
          obtain ⟨b', bs', hb', hbs', rfl⟩ := h
          rw [hfirst, Option.some.injEq] at hb'
          rw [← ih, hrest, Option.some.injEq] at hbs'
          rw [hb', hbs']

theorem Only.each {g : α → Traced τ β} {l : List α} (h : ∀ a ∈ l, Only P (g a)) :
    Only P (each g l) := by
  induction l with
  | nil => exact only_pure
  | cons a rest ih =>
    have hrest : Only P (Traced.each g rest) := ih fun b hb => h b (List.mem_cons_of_mem a hb)
    exact (h a List.mem_cons_self).bind fun b => hrest.bind fun bs => only_pure

end Traced

end FaberHosts.Lib
