import FaberHosts.Lib.Calls
import FaberHosts.Lib.Words

/-!
# Loops over a range

`for i in 0..n` in a `Call`: with an accumulator (`foldRange`) or on the state alone
(`forRange`).  `Gives` is about the parts of a body that only compute: they answer `Ok`
with a value and leave the state as it is, whatever it is.
-/

namespace FaberHosts.Lib.Call

variable {σ τ ε α β γ : Type}

theorem map_id_call (c : Call σ ε α) : id <$> c = c := by
  funext s
  simp only [Functor.map]
  split
  · exact Eq.symm ‹_›
  · exact Eq.symm ‹_›
  · exact Eq.symm ‹_›

theorem bind_assoc_call (c : Call σ ε α) (f : α → Call σ ε β) (g : β → Call σ ε γ) :
    c >>= f >>= g = c >>= fun a => f a >>= g := by
  funext s
  simp only [Bind.bind]
  match c s with
  | none => rfl
  | some (.error e, t) => rfl
  | some (.ok a, t) => rfl

theorem lawfulMonad : LawfulMonad (Call σ ε) :=
  LawfulMonad.mk' _ map_id_call (fun _ _ => rfl) bind_assoc_call

attribute [local instance] lawfulMonad

theorem pure_inj [Inhabited σ] {a b : α} (h : (pure a : Call σ ε α) = pure b) : a = b := by
  have hrun := congrFun h default
  simpa [pure] using hrun

/-- `for i in 0..n` with an accumulator. -/
def foldRange (n : Nat) (b : β) (body : β → Nat → Call σ ε β) : Call σ ε β :=
  match n with
  | 0 => pure b
  | n + 1 => do
    let b ← foldRange n b body
    body b n

theorem foldRange_congr {n : Nat} {b : β} {body body' : β → Nat → Call σ ε β}
    (h : ∀ i < n, ∀ b, body b i = body' b i) : foldRange n b body = foldRange n b body' := by
  induction n with
  | zero => rfl
  | succ n ih =>
    rw [foldRange, foldRange, ih fun i hi => h i (by omega)]
    congr 1
    funext b
    exact h n (by omega) b

/-- `for i in 0..n`. -/
def forRange (n : Nat) (body : Nat → Call σ ε Unit) : Call σ ε Unit :=
  foldRange n () fun _ i => body i

theorem forRange_congr {n : Nat} {body body' : Nat → Call σ ε Unit}
    (h : ∀ i < n, body i = body' i) : forRange n body = forRange n body' :=
  foldRange_congr fun i hi _ => h i hi

/-- Run a call on a value of its own and answer what it leaves there. -/
def onLocal (t : τ) (c : Call τ ε Unit) : Call σ ε τ :=
  fun s => (c t).map fun answered => (answered.1.map fun _ => answered.2, s)

section Rules

variable {panics : Prop} {E : ε → σ → Prop} {s : σ}

theorem wp_foldRange {n : Nat} {b : β} {body : β → Nat → Call σ ε β} (I : Nat → β → σ → Prop)
    (hbody : ∀ i < n, ∀ b t, I i b t → wp panics (body b i) (I (i + 1)) E t) (h : I 0 b s) :
    wp panics (foldRange n b body) (I n) E s := by
  induction n with
  | zero => exact h
  | succ n ih =>
    rw [foldRange, wp_bind]
    exact wp_mono (ih fun i hi => hbody i (by omega)) (fun b t ht => hbody n (by omega) b t ht)
      fun _ _ he => he

theorem wp_forRange {n : Nat} {body : Nat → Call σ ε Unit} (I : Nat → σ → Prop)
    (hbody : ∀ i < n, ∀ t, I i t → wp panics (body i) (fun _ => I (i + 1)) E t) (h : I 0 s) :
    wp panics (forRange n body) (fun _ => I n) E s :=
  wp_foldRange (fun i _ => I i) (fun i hi _ => hbody i hi) h

theorem wp_of_value {answer : MayPanic α} {a : α} {rest : α → Call σ ε β} {Q : β → σ → Prop}
    (hanswer : answer = some a) (h : wp panics (rest a) Q E s) :
    wp panics (value answer >>= rest) Q E s := by
  rw [hanswer]
  exact h

theorem wp_onLocal {t : τ} {c : Call τ ε Unit} {Q : τ → σ → Prop} :
    wp panics (onLocal t c : Call σ ε τ) Q E s ↔
      wp panics c (fun _ after => Q after s) (fun e _ => E e s) t := by
  unfold wp onLocal
  match c t with
  | none => simp
  | some (.ok _, after) => simp [Except.map]
  | some (.error e, after) => simp [Except.map]

theorem wp_of_none {c : Call σ ε α} {Q : α → σ → Prop} (h : c s = none) :
    wp panics c Q E s ↔ panics := by
  rw [wp, h]

theorem wp_panics_iff {c : Call σ ε α} :
    wp True c (fun _ _ => False) (fun _ _ => False) s ↔ c s = none := by
  unfold wp
  match c s with
  | none => simp
  | some (.ok a, t) => simp
  | some (.error e, t) => simp

end Rules

/-! ## Parts that only compute -/

/-- The call only computes: it answers a value of `P` in every state. -/
def Gives (c : Call σ ε α) (P : α → Prop) : Prop := ∃ a, c = pure a ∧ P a

namespace Gives

variable {c : Call σ ε α} {f : α → Call σ ε β} {P P' : α → Prop} {Q : β → Prop} {a : α}

theorem pure (h : P a) : Gives (pure a : Call σ ε α) P := ⟨a, rfl, h⟩

theorem value {answer : MayPanic α} (hanswer : answer = some a) (h : P a) :
    Gives (value answer : Call σ ε α) P := ⟨a, by rw [hanswer]; rfl, h⟩

theorem mono (h : Gives c P) (hP : ∀ a, P a → P' a) : Gives c P' := by
  obtain ⟨a, hc, ha⟩ := h
  exact ⟨a, hc, hP a ha⟩

theorem bind (h : Gives c P) (hf : ∀ a, P a → Gives (f a) Q) : Gives (c >>= f) Q := by
  obtain ⟨a, rfl, ha⟩ := h
  rw [pure_bind]
  exact hf a ha

theorem foldRange {n : Nat} {b : β} {body : β → Nat → Call σ ε β} (I : Nat → β → Prop)
    (hbody : ∀ i < n, ∀ b, I i b → Gives (body b i) (I (i + 1))) (h : I 0 b) :
    Gives (foldRange n b body) (I n) := by
  induction n with
  | zero => exact pure h
  | succ n ih => exact (ih fun i hi => hbody i (by omega)).bind (hbody n (by omega))

theorem mapM {l : List α} {R : α → β → Prop} (h : ∀ a ∈ l, Gives (f a) (R a)) :
    Gives (l.mapM f) (List.Forall₂ R l) := by
  induction l with
  | nil => exact pure .nil
  | cons a l ih =>
    rw [List.mapM_cons]
    refine (h a (by simp)).bind fun b hb => ?_
    refine (ih fun c hc => h c (by simp [hc])).bind fun bs hbs => ?_
    exact pure (.cons hb hbs)

theorem mapM_eq {l : List α} {g : α → β} (h : ∀ a ∈ l, Gives (f a) (· = g a)) :
    Gives (l.mapM f) (· = l.map g) := by
  induction l with
  | nil => exact pure rfl
  | cons a l ih =>
    rw [List.mapM_cons]
    refine (h a (by simp)).bind fun b hb => ?_
    refine (ih fun c hc => h c (by simp [hc])).bind fun bs hbs => ?_
    exact pure (by rw [hb, hbs, List.map_cons])

/-- What a computation gives is what the rest of the call goes on with. -/
theorem wp_bind {panics : Prop} {E : ε → σ → Prop} {Q : β → σ → Prop} {s : σ} (h : Gives c P)
    (hf : ∀ a, P a → wp panics (f a) Q E s) : wp panics (c >>= f) Q E s := by
  obtain ⟨a, rfl, ha⟩ := h
  rw [pure_bind]
  exact hf a ha

theorem wp {panics : Prop} {E : ε → σ → Prop} {s : σ} (h : Gives c P) :
    wp panics c (fun a t => t = s ∧ P a) E s := by
  obtain ⟨a, rfl, ha⟩ := h
  exact ⟨rfl, ha⟩

theorem eq (h : Gives c (· = a)) : c = Pure.pure a := by
  obtain ⟨_, hc, rfl⟩ := h
  exact hc

end Gives

end FaberHosts.Lib.Call
