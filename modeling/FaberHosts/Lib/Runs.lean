import Mathlib

/-!
# Runs of a partial step function

A step function `σ → α → Option σ` answers `none` when a step does not return.
`runSteps` folds it over a list of inputs, and `StepsMeet` says that every step
of the run is taken from a state that meets a condition on the input.
-/

namespace FaberHosts.Lib

variable {σ α : Type}

/-- Take the steps of a list in order, stopping at the first that does not return. -/
def runSteps (step : σ → α → Option σ) : σ → List α → Option σ
  | s, [] => some s
  | s, a :: rest => (step s a).bind (fun t => runSteps step t rest)

/-- Every step of the run is taken from a state where `guard` holds of its input. -/
def StepsMeet (step : σ → α → Option σ) (guard : σ → α → Prop) : σ → List α → Prop
  | _, [] => True
  | s, a :: rest => guard s a ∧ ∀ t, step s a = some t → StepsMeet step guard t rest

variable {step : σ → α → Option σ} {guard : σ → α → Prop}

@[simp] theorem runSteps_nil (s : σ) : runSteps step s [] = some s := rfl

theorem runSteps_cons {s u : σ} {a : α} {rest : List α}
    (h : runSteps step s (a :: rest) = some u) :
    ∃ t, step s a = some t ∧ runSteps step t rest = some u :=
  Option.bind_eq_some_iff.mp h

theorem runSteps_concat {s u : σ} {a : α} {inputs : List α}
    (h : runSteps step s (inputs ++ [a]) = some u) :
    ∃ t, runSteps step s inputs = some t ∧ step t a = some u := by
  induction inputs generalizing s with
  | nil =>
    obtain ⟨t, ht, hend⟩ := runSteps_cons h
    cases hend
    exact ⟨s, rfl, ht⟩
  | cons b rest ih =>
    obtain ⟨t, ht, hrest⟩ := runSteps_cons h
    obtain ⟨v, hv, hlast⟩ := ih hrest
    exact ⟨v, by simp [runSteps, ht, hv], hlast⟩

theorem runSteps_append (s : σ) (first rest : List α) :
    runSteps step s (first ++ rest) =
      (runSteps step s first).bind (fun t => runSteps step t rest) := by
  induction first generalizing s with
  | nil => rfl
  | cons a first ih =>
    rw [List.cons_append, runSteps, runSteps, Option.bind_assoc]
    exact congrArg _ (funext ih)

theorem StepsMeet.rest {s t : σ} {first rest : List α}
    (h : StepsMeet step guard s (first ++ rest)) (hrun : runSteps step s first = some t) :
    StepsMeet step guard t rest := by
  induction first generalizing s with
  | nil =>
    cases hrun
    exact h
  | cons a first ih =>
    obtain ⟨v, hv, hrest⟩ := runSteps_cons hrun
    exact ih (h.2 v hv) hrest

/-- What a step keeps from a state meeting the guard, a run whose steps all meet
    it keeps. -/
theorem runSteps_preserves_of_meets {P : σ → Prop}
    (hstep : ∀ s a t, P s → guard s a → step s a = some t → P t)
    {s u : σ} {inputs : List α} (hmeet : StepsMeet step guard s inputs) (hs : P s)
    (h : runSteps step s inputs = some u) : P u := by
  induction inputs generalizing s with
  | nil => cases h; exact hs
  | cons a rest ih =>
    obtain ⟨t, ht, hrest⟩ := runSteps_cons h
    exact ih (hmeet.2 t ht) (hstep s a t hs hmeet.1 ht) hrest

theorem StepsMeet.mono {guard' : σ → α → Prop} (hguard : ∀ s a, guard s a → guard' s a) {s : σ}
    {inputs : List α} (h : StepsMeet step guard s inputs) : StepsMeet step guard' s inputs := by
  induction inputs generalizing s with
  | nil => trivial
  | cons a rest ih => exact ⟨hguard s a h.1, fun t ht => ih (h.2 t ht)⟩

theorem stepsMeet_true (s : σ) (inputs : List α) :
    StepsMeet step (fun _ _ => True) s inputs := by
  induction inputs generalizing s with
  | nil => trivial
  | cons a rest ih => exact ⟨trivial, fun t _ => ih t⟩

theorem runSteps_preserves {P : σ → Prop}
    (hstep : ∀ s a t, P s → step s a = some t → P t)
    {s u : σ} {inputs : List α} (hs : P s) (h : runSteps step s inputs = some u) : P u :=
  runSteps_preserves_of_meets (fun s a t hs _ ht => hstep s a t hs ht)
    (stepsMeet_true s inputs) hs h

/-- Where the guard says of each step whether the property holds behind it, the steps of a
    run meet the guard if and only if the property holds in every state reached. -/
theorem stepsMeet_iff_reached {P : σ → Prop}
    (hexact : ∀ s a t, P s → step s a = some t → (guard s a ↔ P t))
    {s u : σ} {inputs : List α} (hs : P s) (h : runSteps step s inputs = some u) :
    StepsMeet step guard s inputs ↔
      ∀ first rest t, inputs = first ++ rest → runSteps step s first = some t → P t := by
  induction inputs generalizing s with
  | nil =>
    refine iff_of_true trivial fun first rest t hsplit ht => ?_
    obtain ⟨rfl, -⟩ := List.append_eq_nil_iff.mp hsplit.symm
    cases ht
    exact hs
  | cons a inputs ih =>
    obtain ⟨v, hv, hrest⟩ := runSteps_cons h
    constructor
    · rintro ⟨hguard, hmeet⟩ first rest t hsplit ht
      have hP := (hexact s a v hs hv).mp hguard
      cases first with
      | nil =>
        cases ht
        exact hs
      | cons b first =>
        obtain ⟨rfl, rfl⟩ := List.cons.inj hsplit
        obtain ⟨v', hv', ht⟩ := runSteps_cons ht
        obtain rfl : v = v' := Option.some.inj (hv.symm.trans hv')
        exact (ih hP hrest).mp (hmeet v hv) first rest t rfl ht
    · intro hreached
      have hP : P v := hreached [a] inputs v rfl (by simp [runSteps, hv])
      refine ⟨(hexact s a v hs hv).mpr hP, fun t ht => ?_⟩
      obtain rfl : v = t := Option.some.inj (hv.symm.trans ht)
      refine (ih hP hrest).mpr fun first rest t hsplit ht => ?_
      exact hreached (a :: first) rest t (by rw [hsplit]; rfl) (by simp [runSteps, hv, ht])

/-- A property of the outcome of a step, if it has one. -/
instance decidableOutcome (outcome : Option σ) (P : σ → Prop) [DecidablePred P] :
    Decidable (∀ t, outcome = some t → P t) :=
  match outcome with
  | none => isTrue (fun _ h => nomatch h)
  | some t => decidable_of_iff (P t) (by simp)

instance decidableStepsMeet [∀ s a, Decidable (guard s a)] :
    (s : σ) → (inputs : List α) → Decidable (StepsMeet step guard s inputs)
  | _, [] => isTrue trivial
  | s, a :: rest =>
    have : DecidablePred (fun t => StepsMeet step guard t rest) :=
      fun t => decidableStepsMeet t rest
    inferInstanceAs (Decidable (guard s a ∧ ∀ t, step s a = some t → StepsMeet step guard t rest))

/-- A state that every input leaves alone is where every run from it ends. -/
theorem runSteps_fixed {s : σ} (hfix : ∀ a, step s a = some s) (inputs : List α) :
    runSteps step s inputs = some s := by
  induction inputs with
  | nil => rfl
  | cons a rest ih => simp [runSteps, hfix a, ih]

end FaberHosts.Lib
