import Mathlib.Data.List.Basic

/-!
# Outcomes of stateful computations

A computation that may fail keeps the state it reached (`EStateM`).  `Ends`
bounds both outcomes at once: the state of a success by one condition and the
state of a failure by another, so that clean-up after a failure can be reasoned
about like any other step.
-/

namespace FaberHosts.Lib

variable {ε σ α β : Type}

/-- From a state of `P` the computation succeeds into `Q` or fails into `E`. -/
def Ends (P : σ → Prop) (x : EStateM ε σ α) (Q : α → σ → Prop) (E : ε → σ → Prop) : Prop :=
  ∀ s, P s → match x s with
    | .ok a t => Q a t
    | .error e t => E e t

section Rules

variable {P P' : σ → Prop} {x : EStateM ε σ α} {f : α → EStateM ε σ β} {Q Q' : α → σ → Prop}
  {R : β → σ → Prop} {E E' : ε → σ → Prop}

theorem Ends.of_ok (h : Ends P x Q E) {s t : σ} {a : α} (hs : P s) (hx : x s = .ok a t) : Q a t := by
  have hend := h s hs
  rwa [hx] at hend

theorem Ends.of_error (h : Ends P x Q E) {s t : σ} {e : ε} (hs : P s) (hx : x s = .error e t) :
    E e t := by
  have hend := h s hs
  rwa [hx] at hend

theorem Ends.weaken (h : Ends P x Q E) (hP : ∀ s, P' s → P s) (hQ : ∀ a s, Q a s → Q' a s)
    (hE : ∀ e s, E e s → E' e s) : Ends P' x Q' E' := by
  intro s hs
  have hend := h s (hP s hs)
  split at hend
  · exact hQ _ _ hend
  · exact hE _ _ hend

theorem Ends.pure {a : α} (h : ∀ s, P s → Q a s) : Ends P (pure a : EStateM ε σ α) Q E := h

theorem Ends.throw {e : ε} (h : ∀ s, P s → E e s) : Ends P (throw e : EStateM ε σ α) Q E := h

theorem Ends.modify {g : σ → σ} {Q : PUnit → σ → Prop} (h : ∀ s, P s → Q ⟨⟩ (g s)) :
    Ends P (modify g : EStateM ε σ PUnit) Q E := h

theorem Ends.get {Q : σ → σ → Prop} (h : ∀ s, P s → Q s s) :
    Ends P (get : EStateM ε σ σ) Q E := h

theorem Ends.bind (hx : Ends P x Q E) (hf : ∀ a, Ends (Q a) (f a) R E) :
    Ends P (x >>= f) R E := by
  intro s hs
  show match EStateM.bind x f s with
    | .ok b t => R b t
    | .error e t => E e t
  unfold EStateM.bind
  cases hrun : x s with
  | ok a t => exact hf a t (hx.of_ok hs hrun)
  | error e t => exact hx.of_error hs hrun

theorem Ends.forM {γ : Type} {l : List γ} {g : γ → EStateM ε σ PUnit}
    (h : ∀ a ∈ l, Ends P (g a) (fun _ => P) E) : Ends P (l.forM g) (fun _ => P) E := by
  induction l with
  | nil => exact Ends.pure (fun s hs => hs)
  | cons a l ih =>
    obtain ⟨ha, hl⟩ := List.forall_mem_cons.mp h
    exact Ends.bind ha (fun _ => ih hl)

/-- A loop whose rounds are numbered: what holds before each round, and what a failed one
    leaves. -/
theorem Ends.forM_indexed {γ : Type} {l : List γ} {g : γ → EStateM ε σ PUnit} {I : Nat → σ → Prop}
    {F : Nat → ε → σ → Prop}
    (h : ∀ i a, l[i]? = some a → Ends (I i) (g a) (fun _ => I (i + 1)) (F i)) :
    Ends (I 0) (l.forM g) (fun _ => I l.length) (fun e s => ∃ i < l.length, F i e s) := by
  induction l generalizing I F with
  | nil => exact Ends.pure (fun s hs => hs)
  | cons a l ih =>
    refine Ends.bind (Q := fun _ => I 1)
      ((h 0 a rfl).weaken (fun _ hs => hs) (fun _ _ hs => hs) fun _ _ hs => ⟨0, by simp, hs⟩)
      fun _ => ?_
    refine (ih (I := fun i => I (i + 1)) (F := fun i => F (i + 1))
      fun i b hb => h (i + 1) b hb).weaken (fun _ hs => hs) (fun _ _ hs => hs) ?_
    intro e s hs
    obtain ⟨i, hi, hfail⟩ := hs
    exact ⟨i + 1, by simpa using hi, hfail⟩

/-- A loop that answers for each element what a function says, while the condition follows
    the elements done. -/
theorem Ends.mapM_after {γ : Type} {l : List γ} {f : γ → EStateM ε σ β} {g : γ → β}
    {I : List γ → σ → Prop} (before : List γ)
    (h : ∀ before, ∀ a ∈ l, Ends (I before) (f a) (fun b s => b = g a ∧ I (before ++ [a]) s) E) :
    Ends (I before) (l.mapM f) (fun bs s => bs = l.map g ∧ I (before ++ l) s) E := by
  induction l generalizing before with
  | nil => exact Ends.pure (fun s hs => ⟨rfl, by rwa [List.append_nil]⟩)
  | cons a l ih =>
    rw [List.mapM_cons]
    refine Ends.bind (h before a (by simp)) fun b => ?_
    by_cases hb : b = g a
    · subst hb
      have hrest := ih (before ++ [a]) fun before' c hc => h before' c (List.mem_cons_of_mem _ hc)
      refine Ends.bind (hrest.weaken (fun _ hs => hs.2) (fun _ _ hs => hs) fun _ _ hs => hs)
        fun bs => Ends.pure ?_
      intro s hs
      refine ⟨by rw [hs.1, List.map_cons], ?_⟩
      have happend : before ++ a :: l = before ++ [a] ++ l := by simp
      rw [happend]
      exact hs.2
    · exact fun s hs => absurd hs.1 hb

end Rules

/-! ## Computations on a part of the state -/

section Zoom

variable {τ : Type}

/-- Run on a part of the state. -/
def zoom (part : τ → σ) (replace : σ → τ → τ) (x : EStateM ε σ α) : EStateM ε τ α := fun t =>
  match x (part t) with
  | .ok a s => .ok a (replace s t)
  | .error e s => .error e (replace s t)

end Zoom

/-! ## What a computation leaves -/

/-- The state left, whatever the answer. -/
def after (x : EStateM ε σ α) (s : σ) : σ :=
  match x s with
  | .ok _ t => t
  | .error _ t => t

/-- A sequence runs its first part, and the second one after a success. -/
theorem bind_run (x : EStateM ε σ α) (f : α → EStateM ε σ β) (s : σ) :
    (x >>= f) s =
      match x s with
      | .ok a t => f a t
      | .error e t => .error e t := by
  show EStateM.bind x f s = _
  unfold EStateM.bind
  cases x s <;> rfl

theorem after_bind (x : EStateM ε σ α) (f : α → EStateM ε σ β) (s : σ) :
    after (x >>= f) s =
      match x s with
      | .ok a t => after (f a) t
      | .error _ t => t := by
  rw [after, bind_run]
  cases x s <;> rfl

/-- Every run takes a state to a related one. -/
def Steps (R : σ → σ → Prop) (x : EStateM ε σ α) : Prop := ∀ s, R s (after x s)

namespace Steps

variable {R R' : σ → σ → Prop} {x : EStateM ε σ α} {f : α → EStateM ε σ β}

theorem of_ok (h : Steps R x) {s t : σ} {a : α} (hx : x s = .ok a t) : R s t := by
  have hs := h s
  rwa [after, hx] at hs

theorem of_error (h : Steps R x) {s t : σ} {e : ε} (hx : x s = .error e t) : R s t := by
  have hs := h s
  rwa [after, hx] at hs

theorem imp (h : Steps R x) (himp : ∀ s t, R s t → R' s t) : Steps R' x :=
  fun s => himp s _ (h s)

theorem same (hrefl : ∀ s, R s s) (h : ∀ s, after x s = s) : Steps R x := by
  intro s
  rw [h s]
  exact hrefl s

theorem pure (hrefl : ∀ s, R s s) (a : α) : Steps R (pure a : EStateM ε σ α) := hrefl

theorem throw (hrefl : ∀ s, R s s) (e : ε) : Steps R (throw e : EStateM ε σ α) := hrefl

theorem bind (htrans : ∀ s t u, R s t → R t u → R s u) (hx : Steps R x)
    (hf : ∀ a, Steps R (f a)) : Steps R (x >>= f) := by
  intro s
  rw [after_bind]
  cases hrun : x s with
  | ok a t => exact htrans s t _ (hx.of_ok hrun) (hf a t)
  | error e t => exact hx.of_error hrun

end Steps

end FaberHosts.Lib
