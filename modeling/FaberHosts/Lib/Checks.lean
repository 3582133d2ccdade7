import Mathlib

/-!
# Panics and sequences of checks

`MayPanic` is the answer of code that may panic.  `tryEach` runs a fallible
check over a list and stops at the first failure, as a loop with an early return
does, and `tryEachM` is the same loop for a check that may itself panic.
-/

namespace FaberHosts.Lib

/-- The answer of code that may panic: `none` is the panic. -/
abbrev MayPanic (α : Type) := Option α

variable {ε α : Type}

/-- The value of an answer that neither panics nor fails. -/
def okValue (answer : MayPanic (Except ε α)) : Option α := answer.bind Except.toOption

theorem toOption_eq_some_iff {answer : Except ε α} {a : α} :
    answer.toOption = some a ↔ answer = .ok a := by
  cases answer with
  | error e => simp [Except.toOption]
  | ok b => simp [Except.toOption]

/-- Run a check on each element in order, stopping at the first failure. -/
def tryEach (check : α → Except ε Unit) : List α → Except ε Unit
  | [] => .ok ()
  | a :: rest =>
    match check a with
    | .error e => .error e
    | .ok () => tryEach check rest

theorem tryEach_ok_iff {check : α → Except ε Unit} {l : List α} :
    tryEach check l = .ok () ↔ ∀ a ∈ l, check a = .ok () := by
  induction l with
  | nil => simp [tryEach]
  | cons a rest ih =>
    cases h : check a with
    | error e => simp [tryEach, h]
    | ok u => simp [tryEach, h, ih]

/-- `tryEach` for a check that may panic. -/
def tryEachM (check : α → MayPanic (Except ε Unit)) : List α → MayPanic (Except ε Unit)
  | [] => some (.ok ())
  | a :: rest =>
    match check a with
    | none => none
    | some (.error e) => some (.error e)
    | some (.ok ()) => tryEachM check rest

theorem tryEachM_ok_iff {check : α → MayPanic (Except ε Unit)} {l : List α} :
    tryEachM check l = some (.ok ()) ↔ ∀ a ∈ l, check a = some (.ok ()) := by
  induction l with
  | nil => simp [tryEachM]
  | cons a rest ih =>
    match h : check a with
    | none => simp [tryEachM, h]
    | some (.error e) => simp [tryEachM, h]
    | some (.ok ()) => simp [tryEachM, h, ih]

theorem tryEachM_cons_returns_iff {check : α → MayPanic (Except ε Unit)} {a : α} {rest : List α} :
    (∃ r, tryEachM check (a :: rest) = some r) ↔
      (∃ r, check a = some r) ∧ (check a = some (.ok ()) → ∃ r, tryEachM check rest = some r) := by
  match h : check a with
  | none => simp [tryEachM, h]
  | some (.error e) => simp [tryEachM, h]
  | some (.ok ()) => simp [tryEachM, h]

theorem tryEachM_isSome {check : α → MayPanic (Except ε Unit)} {l : List α}
    (h : ∀ a ∈ l, ∃ r, check a = some r) : ∃ r, tryEachM check l = some r := by
  induction l with
  | nil => exact ⟨_, rfl⟩
  | cons a rest ih =>
    obtain ⟨r, hr⟩ := h a (by simp)
    cases r with
    | error e => exact ⟨.error e, by simp [tryEachM, hr]⟩
    | ok u =>
      obtain ⟨r', hr'⟩ := ih (fun b hb => h b (by simp [hb]))
      exact ⟨r', by simp [tryEachM, hr, hr']⟩

end FaberHosts.Lib
