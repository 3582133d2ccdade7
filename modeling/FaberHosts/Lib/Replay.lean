import FaberHosts.Lib.Calls

/-!
# Replays

A call over one state notes what its environment did in a log; a call over another state takes
such notes from a script.  `Replays` says that the second, given the notes the first makes, ends
as the first does, with whatever is left of the script.
-/

namespace FaberHosts.Lib

variable {σ τ ι ε α α' β β' : Type}

/-- Both answer `Ok` with related values, or the same `Err`. -/
def Agrees (A : α → α' → Prop) : Except ε α → Except ε α' → Prop
  | .ok a, .ok a' => A a a'
  | .error e, .error e' => e = e'
  | _, _ => False

/-- From related states the second call, given the notes the first makes, ends as it does. -/
def Replays (log : σ → List ι) (Rel : σ → List ι → τ → Prop) (A : α → α' → Prop)
    (c : Call σ ε α) (c' : Call τ ε α') : Prop :=
  ∀ s answer s', (∃ script t, Rel s script t) → c s = some (answer, s') →
    ∃ made, log s' = log s ++ made ∧
      ∀ rest t, Rel s (made ++ rest) t → ∃ answer' t', c' t = some (answer', t') ∧
        Agrees A answer answer' ∧ Rel s' rest t'

/-- A state related under one script is related to some state under any. -/
def Reloadable (Rel : σ → List ι → τ → Prop) : Prop :=
  ∀ s script t script', Rel s script t → ∃ t', Rel s script' t'

theorem agrees_eq {answer answer' : Except ε α} : Agrees Eq answer answer' ↔ answer = answer' := by
  cases answer with
  | ok a =>
    cases answer' with
    | ok a' => simp [Agrees]
    | error e' => simp [Agrees]
  | error e =>
    cases answer' with
    | ok a' => simp [Agrees]
    | error e' => simp [Agrees]

section Rules

variable {log : σ → List ι} {Rel : σ → List ι → τ → Prop} {A : α → α' → Prop} {B : β → β' → Prop}

theorem replays_of_unchanged {c : Call σ ε α} {c' : Call τ ε α'}
    (h : ∀ s answer s', c s = some (answer, s') → log s' = log s ∧
      ∀ rest t, Rel s rest t → ∃ answer' t', c' t = some (answer', t') ∧
        Agrees A answer answer' ∧ Rel s' rest t') : Replays log Rel A c c' := by
  intro s answer s' _ hc
  obtain ⟨hlog, hrest⟩ := h s answer s' hc
  exact ⟨[], by rw [hlog, List.append_nil], hrest⟩

theorem replays_pure {a : α} {a' : α'} (h : A a a') :
    Replays log Rel A (pure a : Call σ ε α) (pure a' : Call τ ε α') := by
  apply replays_of_unchanged
  intro s answer s' hc
  cases hc
  exact ⟨rfl, fun rest t ht => ⟨.ok a', t, rfl, h, ht⟩⟩

theorem replays_throw (e : ε) :
    Replays log Rel A (Call.throw e : Call σ ε α) (Call.throw e : Call τ ε α') := by
  apply replays_of_unchanged
  intro s answer s' hc
  cases hc
  exact ⟨rfl, fun rest t ht => ⟨.error e, t, rfl, rfl, ht⟩⟩

theorem replays_get {A : σ → τ → Prop} (h : ∀ s rest t, Rel s rest t → A s t) :
    Replays log Rel A (Call.get : Call σ ε σ) (Call.get : Call τ ε τ) := by
  apply replays_of_unchanged
  intro s answer s' hc
  cases hc
  exact ⟨rfl, fun rest t ht => ⟨.ok t, t, rfl, h _ rest t ht, ht⟩⟩

theorem replays_modify {f : σ → σ} {g : τ → τ} (hlog : ∀ s, log (f s) = log s)
    (h : ∀ s rest t, Rel s rest t → Rel (f s) rest (g t)) :
    Replays log Rel Eq (Call.modify f : Call σ ε Unit) (Call.modify g : Call τ ε Unit) := by
  apply replays_of_unchanged
  intro s answer s' hc
  cases hc
  exact ⟨hlog _, fun rest t ht => ⟨.ok (), g t, rfl, rfl, h _ rest t ht⟩⟩

theorem replays_lift {answer : MayPanic (Except ε α)} {answer' : MayPanic (Except ε α')}
    (h : ∀ r, answer = some r → ∃ r', answer' = some r' ∧ Agrees A r r') :
    Replays log Rel A (Call.lift answer : Call σ ε α) (Call.lift answer' : Call τ ε α') := by
  apply replays_of_unchanged
  intro s r s' hc
  obtain ⟨found, hfound, hsame⟩ := Option.map_eq_some_iff.mp hc
  cases hsame
  obtain ⟨r', hr', hagrees⟩ := h r hfound
  exact ⟨rfl, fun rest t ht => ⟨r', t, by simp [Call.lift, hr'], hagrees, ht⟩⟩

theorem replays_value {value : MayPanic α} {value' : MayPanic α'}
    (h : ∀ a, value = some a → ∃ a', value' = some a' ∧ A a a') :
    Replays log Rel A (Call.value value : Call σ ε α) (Call.value value' : Call τ ε α') := by
  apply replays_lift
  intro r hr
  obtain ⟨a, ha, rfl⟩ := Option.map_eq_some_iff.mp hr
  obtain ⟨a', ha', hA⟩ := h a ha
  exact ⟨.ok a', by rw [ha', Option.map_some], hA⟩

theorem replays_bind (hload : Reloadable Rel) {c : Call σ ε α} {c' : Call τ ε α'}
    {f : α → Call σ ε β} {f' : α' → Call τ ε β'} (hc : Replays log Rel A c c')
    (hf : ∀ a a', A a a' → Replays log Rel B (f a) (f' a')) :
    Replays log Rel B (c >>= f) (c' >>= f') := by
  intro s answer s' hrelated hrun
  simp only [bind] at hrun
  cases hfirst : c s with
  | none => simp [hfirst] at hrun
  | some first =>
    obtain ⟨r, u⟩ := first
    obtain ⟨made, hmade, hreplay⟩ := hc s r u hrelated hfirst
    cases r with
    | error e =>
      simp only [hfirst, Option.some.injEq, Prod.mk.injEq] at hrun
      obtain ⟨rfl, rfl⟩ := hrun
      refine ⟨made, hmade, ?_⟩
      intro rest t ht
      obtain ⟨r', t', hc', hagrees, ht'⟩ := hreplay rest t ht
      cases r' with
      | ok a' => exact hagrees.elim
      | error e' =>
        obtain rfl : e = e' := hagrees
        exact ⟨.error e, t', by simp [bind, hc'], rfl, ht'⟩
    | ok a =>
      simp only [hfirst] at hrun
      -- the notes of the continuation are the same whatever answer of the second call it is for
      obtain ⟨script, t₀, ht₀⟩ := hrelated
      obtain ⟨t₁, ht₁⟩ := hload s script t₀ (made ++ []) ht₀
      obtain ⟨r₁, u₁, -, hagrees₁, hu₁⟩ := hreplay [] t₁ ht₁
      obtain ⟨more, hmore⟩ : ∃ more, log s' = log u ++ more := by
        cases r₁ with
        | error e' => exact hagrees₁.elim
        | ok a₁ =>
          obtain ⟨more, hmore, -⟩ := hf a a₁ hagrees₁ u answer s' ⟨[], u₁, hu₁⟩ hrun
          exact ⟨more, hmore⟩
      refine ⟨made ++ more, by rw [hmore, hmade, List.append_assoc], ?_⟩
      intro rest t ht
      rw [List.append_assoc] at ht
      obtain ⟨r', t', hc', hagrees, ht'⟩ := hreplay _ t ht
      cases r' with
      | error e' => exact hagrees.elim
      | ok a' =>
        obtain ⟨more', hmore', hreplay'⟩ := hf a a' hagrees u answer s' ⟨_, t', ht'⟩ hrun
        obtain rfl : more = more' := List.append_cancel_left (hmore.symm.trans hmore')
        obtain ⟨r'', t'', hf', hagrees', ht''⟩ := hreplay' rest t' ht'
        exact ⟨r'', t'', by simp [bind, hc', hf'], hagrees', ht''⟩

theorem replays_forEach (hload : Reloadable Rel) {l : List β} {body : β → Call σ ε Unit}
    {body' : β → Call τ ε Unit} (h : ∀ b ∈ l, Replays log Rel Eq (body b) (body' b)) :
    Replays log Rel Eq (Call.forEach l body) (Call.forEach l body') := by
  induction l with
  | nil => exact replays_pure rfl
  | cons b rest ih =>
    obtain ⟨hfirst, hrest⟩ := List.forall_mem_cons.mp h
    exact replays_bind hload hfirst (fun _ _ _ => ih hrest)

end Rules

/-! ## A component of the state -/

section Component

variable {υ ω : Type} {log : σ → List ι} {logIn : υ → List ι} {Rel : σ → List ι → τ → Prop}
  {RelIn : υ → List ι → ω → Prop} {A : α → α' → Prop} {read : σ → υ} {write : σ → υ → σ}
  {read' : τ → ω} {write' : τ → ω → τ}

/-- The component carries the notes, and the rest of the state is related apart from it. -/
structure Carries (log : σ → List ι) (logIn : υ → List ι) (Rel : σ → List ι → τ → Prop)
    (RelIn : υ → List ι → ω → Prop) (read : σ → υ) (write : σ → υ → σ) (read' : τ → ω)
    (write' : τ → ω → τ) : Prop where
  log_read : ∀ s, log s = logIn (read s)
  log_write : ∀ s u, log (write s u) = logIn u
  related : ∀ s rest t, Rel s rest t → RelIn (read s) rest (read' t)
  rewritten : ∀ s script t u rest v, Rel s script t → RelIn u rest v →
    Rel (write s u) rest (write' t v)

variable (h : Carries log logIn Rel RelIn read write read' write')
include h

theorem replays_ask {ε' : Type} {c : Call υ ε' α} {c' : Call ω ε' α'}
    (hc : Replays logIn RelIn A c c') :
    Replays log Rel (Agrees A) (Call.ask read write c : Call σ ε (Except ε' α))
      (Call.ask read' write' c') := by
  intro s answer s' hrelated hrun
  obtain ⟨answered, hanswered, hsame⟩ := Option.map_eq_some_iff.mp hrun
  cases hsame
  obtain ⟨script, t₀, ht₀⟩ := hrelated
  obtain ⟨made, hmade, hreplay⟩ := hc _ _ _ ⟨_, _, h.related s script t₀ ht₀⟩ hanswered
  refine ⟨made, by rw [h.log_write, h.log_read, hmade], ?_⟩
  intro rest t ht
  obtain ⟨answer', v, hc', hagrees, hv⟩ := hreplay rest _ (h.related s _ t ht)
  exact ⟨.ok answer', write' t v, by simp [Call.ask, hc'], hagrees, h.rewritten s _ t _ rest v ht hv⟩

theorem replays_use {c : Call υ Empty α} {c' : Call ω Empty α'}
    (hc : Replays logIn RelIn A c c') :
    Replays log Rel A (Call.use read write c : Call σ ε α) (Call.use read' write' c') := by
  intro s answer s' hrelated hrun
  obtain ⟨⟨found, u⟩, hanswered, hsame⟩ := Option.map_eq_some_iff.mp hrun
  cases hsame
  obtain ⟨script, t₀, ht₀⟩ := hrelated
  obtain ⟨made, hmade, hreplay⟩ := hc _ _ _ ⟨_, _, h.related s script t₀ ht₀⟩ hanswered
  refine ⟨made, by rw [h.log_write, h.log_read, hmade], ?_⟩
  intro rest t ht
  obtain ⟨answer', v, hc', hagrees, hv⟩ := hreplay rest _ (h.related s _ t ht)
  cases found with
  | error e => exact e.elim
  | ok a =>
    cases answer' with
    | error e => exact e.elim
    | ok a' =>
      exact ⟨.ok a', write' t v, by simp [Call.use, hc', Except.mapError], hagrees,
        h.rewritten s _ t _ rest v ht hv⟩

end Component

theorem replays_attempt {ε' : Type} {log : σ → List ι} {Rel : σ → List ι → τ → Prop}
    {A : α → α' → Prop} {c : Call σ ε' α} {c' : Call τ ε' α'} (hc : Replays log Rel A c c') :
    Replays log Rel (Agrees A) (Call.attempt c : Call σ ε (Except ε' α)) (Call.attempt c') :=
  replays_ask ⟨fun _ => rfl, fun _ _ => rfl, fun _ _ _ h => h, fun _ _ _ _ _ _ _ h => h⟩ hc

end FaberHosts.Lib
