import FaberHosts.Lib.Checks

/-!
# Calls on a state

A `Call` is a method with a mutable receiver: it panics, or answers `Ok` or
`Err` and leaves a state behind in either case.  `Call.wp` is its weakest
precondition, with the fate of a panic as a parameter: with `True` it is partial
correctness and with `False` it also says that the call returns.
-/

namespace FaberHosts.Lib

/-- A method on a state of type `σ` that answers `Except ε α`. -/
def Call (σ ε α : Type) : Type := σ → MayPanic (Except ε α × σ)

namespace Call

variable {σ τ ε ε' α β : Type}

instance : Monad (Call σ ε) where
  pure a := fun s => some (.ok a, s)
  bind c f := fun s =>
    match c s with
    | none => none
    | some (.error e, t) => some (.error e, t)
    | some (.ok a, t) => f a t

/-- An early `return Err(e)`: the state stays as it is. -/
def throw (e : ε) : Call σ ε α := fun s => some (.error e, s)

def get : Call σ ε σ := fun s => some (.ok s, s)

def modify (f : σ → σ) : Call σ ε Unit := fun s => some (.ok (), f s)

/-- The answer of code that does not touch the state. -/
def lift (answer : MayPanic (Except ε α)) : Call σ ε α := fun s => answer.map (fun r => (r, s))

/-- A value whose computation may panic. -/
def value (answer : MayPanic α) : Call σ ε α := lift (answer.map .ok)

/-- A method that may panic and cannot answer `Err`. -/
def infallible (method : σ → MayPanic (α × σ)) : Call σ ε α :=
  fun s => (method s).map (fun answered => (.ok answered.1, answered.2))

/-- Run a loop body on each element, leaving the loop at the first `Err`. -/
def forEach (l : List α) (body : α → Call σ ε Unit) : Call σ ε Unit :=
  match l with
  | [] => pure ()
  | a :: rest => do
    body a
    forEach rest body

/-- The value of an `Ok` answer and the state after it. -/
def okEnd (c : Call σ ε α) (s : σ) : Option (α × σ) :=
  (c s).bind (fun answered => answered.1.toOption.map (fun a => (a, answered.2)))

/-- The error of an `Err` answer and the state after it. -/
def errorEnd (c : Call σ ε α) (s : σ) : Option (ε × σ) :=
  (c s).bind (fun answered => match answered with
    | (.ok _, _) => none
    | (.error e, t) => some (e, t))

theorem okEnd_eq_some_iff {c : Call σ ε α} {s : σ} {ended : α × σ} :
    okEnd c s = some ended ↔ c s = some (.ok ended.1, ended.2) := by
  unfold okEnd
  match c s with
  | none => simp
  | some (.error e, t) => simp [Except.toOption]
  | some (.ok a, t) => simp [Except.toOption, Prod.ext_iff]

theorem errorEnd_eq_some_iff {c : Call σ ε α} {s : σ} {ended : ε × σ} :
    errorEnd c s = some ended ↔ c s = some (.error ended.1, ended.2) := by
  unfold errorEnd
  match c s with
  | none => simp
  | some (.ok a, t) => simp
  | some (.error e, t) => simp [Prod.ext_iff]

/-- A sequence that answers `Ok` went through an `Ok` of its first call. -/
theorem bind_ok {c : Call σ ε α} {f : α → Call σ ε β} {s u : σ} {b : β}
    (h : (c >>= f) s = some (.ok b, u)) :
    ∃ a t, c s = some (.ok a, t) ∧ f a t = some (.ok b, u) := by
  simp only [bind] at h
  split at h
  · cases h
  · cases h
  · exact ⟨_, _, ‹_›, h⟩

theorem get_bind (f : σ → Call σ ε β) (s : σ) : (get >>= f) s = f s s := rfl

theorem modify_bind (g : σ → σ) (f : Unit → Call σ ε β) (s : σ) :
    (modify g >>= f) s = f () (g s) := rfl

/-! ## Weakest preconditions -/

/-- From `s` the call ends in `Q` when it answers `Ok` and in `E` when it answers
    `Err`; `panics` is what a panic has to meet. -/
def wp (panics : Prop) (c : Call σ ε α) (Q : α → σ → Prop) (E : ε → σ → Prop) (s : σ) : Prop :=
  match c s with
  | none => panics
  | some (.ok a, t) => Q a t
  | some (.error e, t) => E e t

variable {panics : Prop} {Q Q' : α → σ → Prop} {E E' : ε → σ → Prop} {s t : σ}

theorem wp_mono {c : Call σ ε α} (h : wp panics c Q E s) (hok : ∀ a t, Q a t → Q' a t)
    (herr : ∀ e t, E e t → E' e t) : wp panics c Q' E' s := by
  unfold wp at h ⊢
  split
  · simp_all
  · simp_all
  · simp_all

theorem wp_of_forall {c : Call σ ε α} (hok : ∀ a t, Q a t) (herr : ∀ e t, E e t) :
    wp True c Q E s := by
  unfold wp
  split
  · trivial
  · exact hok _ _
  · exact herr _ _

theorem wp_of_total {c : Call σ ε α} (h : wp False c Q E s) : wp panics c Q E s := by
  unfold wp at h ⊢
  split at h
  · exact h.elim
  · exact h
  · exact h

theorem wp_of_ok {c : Call σ ε α} {a : α} (h : wp panics c Q E s) (hc : c s = some (.ok a, t)) :
    Q a t := by
  simpa [wp, hc] using h

theorem wp_of_error {c : Call σ ε α} {e : ε} (h : wp panics c Q E s)
    (hc : c s = some (.error e, t)) : E e t := by
  simpa [wp, hc] using h

theorem wp_and {c : Call σ ε α} (h : wp False c Q E s) (h' : wp True c Q' E' s) :
    wp False c (fun a t => Q a t ∧ Q' a t) (fun e t => E e t ∧ E' e t) s := by
  unfold wp at h h' ⊢
  split at h
  · exact h
  · exact ⟨h, by simpa [*] using h'⟩
  · exact ⟨h, by simpa [*] using h'⟩

theorem wp_of_some {P : σ → Prop} {c : Call σ ε α} {r : Except ε α}
    (h : wp panics c (fun _ => P) (fun _ => P) s) (hc : c s = some (r, t)) : P t := by
  cases r with
  | ok a => exact wp_of_ok h hc
  | error e => exact wp_of_error h hc

theorem wp_returns {c : Call σ ε α} (h : wp False c Q E s) : ∃ r t, c s = some (r, t) := by
  unfold wp at h
  split at h
  · exact h.elim
  · exact ⟨_, _, ‹_›⟩
  · exact ⟨_, _, ‹_›⟩

theorem wp_ok {c : Call σ ε α} (h : wp False c Q (fun _ _ => False) s) :
    ∃ a t, c s = some (.ok a, t) ∧ Q a t := by
  unfold wp at h
  split at h
  · exact h.elim
  · exact ⟨_, _, ‹_›, h⟩
  · exact h.elim

theorem wp_error {c : Call σ ε α} (h : wp False c (fun _ _ => False) E s) :
    ∃ e t, c s = some (.error e, t) ∧ E e t := by
  unfold wp at h
  split at h
  · exact h.elim
  · exact h.elim
  · exact ⟨_, _, ‹_›, h⟩

@[simp] theorem wp_pure (a : α) : wp panics (pure a : Call σ ε α) Q E s ↔ Q a s := Iff.rfl

@[simp] theorem wp_throw (e : ε) : wp panics (throw e : Call σ ε α) Q E s ↔ E e s := Iff.rfl

@[simp] theorem wp_get {Q : σ → σ → Prop} : wp panics (get : Call σ ε σ) Q E s ↔ Q s s := Iff.rfl

@[simp] theorem wp_modify {Q : Unit → σ → Prop} (f : σ → σ) :
    wp panics (modify f : Call σ ε Unit) Q E s ↔ Q () (f s) := Iff.rfl

@[simp] theorem wp_bind {Q : β → σ → Prop} (c : Call σ ε α) (f : α → Call σ ε β) :
    wp panics (c >>= f) Q E s ↔ wp panics c (fun a t => wp panics (f a) Q E t) E s := by
  simp only [wp, bind]
  match c s with
  | none => rfl
  | some (.ok a, t) => rfl
  | some (.error e, t) => rfl

@[simp] theorem wp_map {Q : β → σ → Prop} (c : Call σ ε α) (f : α → β) :
    wp panics (f <$> c) Q E s ↔ wp panics c (fun a t => Q (f a) t) E s :=
  wp_bind c (fun a => pure (f a))

@[simp] theorem wp_lift_ok (a : α) :
    wp panics (lift (some (.ok a)) : Call σ ε α) Q E s ↔ Q a s := Iff.rfl

@[simp] theorem wp_lift_error (e : ε) :
    wp panics (lift (some (.error e)) : Call σ ε α) Q E s ↔ E e s := Iff.rfl

theorem wp_lift {answer : MayPanic (Except ε α)} :
    wp panics (lift answer : Call σ ε α) Q E s ↔
      (answer = none → panics) ∧ (∀ a, answer = some (.ok a) → Q a s) ∧
        ∀ e, answer = some (.error e) → E e s := by
  match answer with
  | none => simp [wp, lift]
  | some (.ok a) => simp [wp, lift]
  | some (.error e) => simp [wp, lift]

/-- A check before the rest of a call: an `Err` leaves the state as it is. -/
theorem wp_of_check {Q : β → σ → Prop} {check : Except ε α} {rest : α → Call σ ε β}
    (hok : ∀ a, check = .ok a → wp panics (rest a) Q E s)
    (herr : ∀ e, check = .error e → E e s) : wp panics (lift (some check) >>= rest) Q E s := by
  rw [wp_bind]
  cases hcheck : check with
  | ok a => exact hok a hcheck
  | error e => exact herr e hcheck

theorem wp_value {answer : MayPanic α} :
    wp panics (value answer : Call σ ε α) Q E s ↔
      (answer = none → panics) ∧ ∀ a, answer = some a → Q a s := by
  cases answer with
  | none => simp [wp, value, lift]
  | some a => simp [wp, value, lift]

theorem wp_infallible {method : σ → MayPanic (α × σ)} :
    wp panics (infallible method : Call σ ε α) Q E s ↔
      (method s = none → panics) ∧ ∀ a t, method s = some (a, t) → Q a t := by
  cases h : method s with
  | none => simp [wp, infallible, h]
  | some answered => simp [wp, infallible, h, Prod.ext_iff]

/-- The loop rule: an invariant of the elements already handled, which each run
    of the body extends by one. -/
theorem wp_forEach {l : List α} {body : α → Call σ ε Unit} (I : List α → σ → Prop)
    (hbody : ∀ done a rest t, l = done ++ a :: rest → I done t →
      wp panics (body a) (fun _ => I (done ++ [a])) E t)
    (h : I [] s) : wp panics (forEach l body) (fun _ => I l) E s := by
  suffices hgen : ∀ rest done t, l = done ++ rest → I done t →
      wp panics (forEach rest body) (fun _ => I l) E t from hgen l [] s rfl h
  intro rest
  induction rest with
  | nil =>
    intro done t hl ht
    simpa [forEach, hl] using ht
  | cons a rest ih =>
    intro done t hl ht
    rw [forEach, wp_bind]
    refine wp_mono (hbody done a rest t hl ht) ?_ (fun _ _ he => he)
    intro _ u hu
    exact ih (done ++ [a]) u (by simp [hl]) hu

/-! ## A component of the state -/

/-- Run a call on one component of the state. -/
def within (read : σ → τ) (write : σ → τ → σ) (c : Call τ ε α) : Call σ ε α :=
  fun s => (c (read s)).map (fun answered => (answered.1, write s answered.2))

theorem wp_within {read : σ → τ} {write : σ → τ → σ} {c : Call τ ε α} :
    wp panics (within read write c) Q E s ↔
      wp panics c (fun a t => Q a (write s t)) (fun e t => E e (write s t)) (read s) := by
  unfold wp within
  match c (read s) with
  | none => simp
  | some (.ok a, t) => simp
  | some (.error e, t) => simp

/-- Run a call on one component of the state and answer its `Result`, whatever
    it is. -/
def ask (read : σ → τ) (write : σ → τ → σ) (c : Call τ ε α) : Call σ ε' (Except ε α) :=
  fun s => (c (read s)).map (fun answered => (.ok answered.1, write s answered.2))

theorem wp_ask {read : σ → τ} {write : σ → τ → σ} {c : Call τ ε α}
    {Q : Except ε α → σ → Prop} {E : ε' → σ → Prop} :
    wp panics (ask read write c : Call σ ε' (Except ε α)) Q E s ↔
      wp panics c (fun a t => Q (.ok a) (write s t)) (fun e t => Q (.error e) (write s t))
        (read s) := by
  unfold wp ask
  match c (read s) with
  | none => simp
  | some (.ok a, t) => simp
  | some (.error e, t) => simp

/-- Run a call and answer its `Result`, whatever it is. -/
def attempt (c : Call σ ε α) : Call σ ε' (Except ε α) := ask id (fun _ t => t) c

theorem wp_attempt {c : Call σ ε α} {Q : Except ε α → σ → Prop} {E : ε' → σ → Prop} :
    wp panics (attempt c : Call σ ε' (Except ε α)) Q E s ↔
      wp panics c (fun a t => Q (.ok a) t) (fun e t => Q (.error e) t) s :=
  wp_ask

/-- Run a call that cannot answer `Err` on one component of the state. -/
def use (read : σ → τ) (write : σ → τ → σ) (c : Call τ Empty α) : Call σ ε α :=
  fun s => (c (read s)).map (fun answered =>
    (answered.1.mapError Empty.elim, write s answered.2))

theorem wp_use {read : σ → τ} {write : σ → τ → σ} {c : Call τ Empty α} :
    wp panics (use read write c : Call σ ε α) Q E s ↔
      wp panics c (fun a t => Q a (write s t)) (fun e _ => e.elim) (read s) := by
  unfold wp use
  match c (read s) with
  | none => simp
  | some (.ok a, t) => simp [Except.mapError]
  | some (.error e, t) => exact e.elim

end Call

end FaberHosts.Lib

/-!
## What a call can do to the state

`Moves R c` says that the call `c` takes every state to one it is related to by `R`, however it
answers.  With a reflexive and transitive relation it goes through sequences and loops, so that
a frame or an invariant is stated once for the primitive calls.
-/

namespace FaberHosts.Lib

variable {σ ε α β : Type}

/-- However the call answers, it leaves a state that `R` relates to the one before. -/
def Moves (R : σ → σ → Prop) (c : Call σ ε α) : Prop :=
  ∀ s answer t, c s = some (answer, t) → R s t

/-- A sequence answers the error of its first part or what its second part answers. -/
theorem bind_answer {c : Call σ ε α} {f : α → Call σ ε β} {s t : σ} {answer : Except ε β}
    (h : (c >>= f) s = some (answer, t)) :
    (∃ e, c s = some (.error e, t) ∧ answer = .error e) ∨
      ∃ a u, c s = some (.ok a, u) ∧ f a u = some (answer, t) := by
  simp only [bind] at h
  cases hfirst : c s with
  | none => simp [hfirst] at h
  | some first =>
    obtain ⟨r, u⟩ := first
    cases r with
    | error e =>
      simp only [hfirst, Option.some.injEq, Prod.mk.injEq] at h
      obtain ⟨rfl, rfl⟩ := h
      exact .inl ⟨e, rfl, rfl⟩
    | ok a =>
      simp only [hfirst] at h
      exact .inr ⟨a, u, rfl, h⟩

section Rules

variable {R : σ → σ → Prop}

theorem moves_pure (hrefl : ∀ s, R s s) (a : α) : Moves R (pure a : Call σ ε α) := by
  intro s answer t h
  cases h
  exact hrefl s

theorem moves_throw (hrefl : ∀ s, R s s) (e : ε) : Moves R (Call.throw e : Call σ ε α) := by
  intro s answer t h
  cases h
  exact hrefl s

theorem moves_get (hrefl : ∀ s, R s s) : Moves R (Call.get : Call σ ε σ) := by
  intro s answer t h
  cases h
  exact hrefl s

theorem moves_lift (hrefl : ∀ s, R s s) (answer : MayPanic (Except ε α)) :
    Moves R (Call.lift answer : Call σ ε α) := by
  intro s r t h
  obtain ⟨_, -, hsame⟩ := Option.map_eq_some_iff.mp h
  cases hsame
  exact hrefl s

theorem moves_modify {f : σ → σ} (h : ∀ s, R s (f s)) : Moves R (Call.modify f : Call σ ε Unit) := by
  intro s answer t ht
  cases ht
  exact h s

theorem moves_bind (htrans : ∀ s t u, R s t → R t u → R s u) {c : Call σ ε α}
    {f : α → Call σ ε β} (hc : Moves R c) (hf : ∀ a, Moves R (f a)) : Moves R (c >>= f) := by
  intro s answer t h
  rcases bind_answer h with ⟨e, hfirst, -⟩ | ⟨a, u, hfirst, hrest⟩
  · exact hc s _ t hfirst
  · exact htrans s u t (hc s _ u hfirst) (hf a u answer t hrest)

theorem moves_forEach (hrefl : ∀ s, R s s) (htrans : ∀ s t u, R s t → R t u → R s u)
    {l : List α} {body : α → Call σ ε Unit} (h : ∀ a ∈ l, Moves R (body a)) :
    Moves R (Call.forEach l body) := by
  induction l with
  | nil => exact moves_pure hrefl ()
  | cons a rest ih =>
    obtain ⟨hfirst, hrest⟩ := List.forall_mem_cons.mp h
    exact moves_bind htrans hfirst (fun _ => ih hrest)

theorem wp_of_moves {c : Call σ ε α} {P : σ → Prop} {s : σ} (h : Moves R c)
    (hP : ∀ t, R s t → P t) : c.wp True (fun _ => P) (fun _ => P) s := by
  unfold Call.wp
  split
  · trivial
  · next ht => exact hP _ (h s _ _ ht)
  · next ht => exact hP _ (h s _ _ ht)

end Rules

theorem wp_and {panics : Prop} {c : Call σ ε α} {Q Q' : α → σ → Prop} {E E' : ε → σ → Prop} {s : σ}
    (h : c.wp panics Q E s) (h' : c.wp True Q' E' s) :
    c.wp panics (fun a t => Q a t ∧ Q' a t) (fun e t => E e t ∧ E' e t) s := by
  unfold Call.wp at h h' ⊢
  match hc : c s with
  | none => simpa [hc] using h
  | some (.ok a, t) => exact ⟨by simpa [hc] using h, by simpa [hc] using h'⟩
  | some (.error e, t) => exact ⟨by simpa [hc] using h, by simpa [hc] using h'⟩

end FaberHosts.Lib
