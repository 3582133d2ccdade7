import FaberHosts.Inference.Cursor

/-!
# Reuse after a possible mutation

A transaction that recorded a possible device mutation and fails poisons its
sequence, unless its plan has gone stale: then the failure is rejected like any
other stale plan, and the sequence stays in use.
-/

namespace FaberHosts.Inference
open FaberHosts.Lib

/-- Begin, commit, verification commit or reset. -/
def SequenceOp.isUse : SequenceOp → Bool
  | .begin _ _ | .commit _ | .commitVerification _ _ | .logicalReset | .reset => true
  | _ => false

/-- What a use that answered `Ok` did. -/
def SequenceEvent.isUse : SequenceEvent → Bool
  | .began _ | .committed _ _ | .abortedZero _ | .reset _ => true
  | _ => false

namespace SequenceWorld

/-- No use succeeds any more, whatever is called. -/
def NeverReused (T : Toolchain) (w : SequenceWorld) : Prop :=
  ∀ later t, runSteps (step T) w later = some t → ∀ op, op.isUse = true → ¬ Succeeds T t op

/-- The last epoch, with every row committed: nothing is left to begin or to reset. -/
def Exhausted (s : InferenceSessionState) : Prop :=
  s.sequenceEpoch.toNat + 1 = 2 ^ 32 ∧ s.validLen = s.capacity

theorem event_of_use {T : Toolchain} {w t : SequenceWorld} {op : SequenceOp}
    {event : SequenceEvent} (huse : op.isUse = true) (h : call T op w = some (.ok event, t)) :
    event.isUse = true := by
  have hspec : Call.wp True (call T op) (fun event _ => event.isUse = true)
      (fun _ _ => True) w := by
    cases op with
    | begin mode queryRows =>
      rw [call, Call.wp_bind, Call.wp_get, Call.wp_bind]
      exact Call.wp_of_forall (fun _ _ => rfl) (fun _ _ => trivial)
    | commit i =>
      rw [call, Call.wp_bind]
      refine Call.wp_of_forall (fun tx w => ?_) (fun _ _ => trivial)
      rw [Call.wp_bind]
      exact Call.wp_of_forall (fun _ _ => rfl) (fun _ _ => trivial)
    | commitVerification i acceptedRows =>
      rw [call, Call.wp_bind]
      refine Call.wp_of_forall (fun tx w => ?_) (fun _ _ => trivial)
      rw [Call.wp_bind]
      refine Call.wp_of_forall (fun result _ => ?_) (fun _ _ => trivial)
      cases result with
      | abortedZero => rfl
      | committed accepted rows => rfl
    | logicalReset =>
      rw [call, Call.wp_bind]
      exact Call.wp_of_forall (fun _ _ => rfl) (fun _ _ => trivial)
    | reset =>
      rw [call, Call.wp_bind]
      exact Call.wp_of_forall (fun _ _ => rfl) (fun _ _ => trivial)
    | _ => cases huse
  have hevent := Call.wp_of_ok hspec h
  exact hevent

/-- Uses have their effects only on a usable sequence that is not exhausted. -/
theorem alive_of_effect {w t : SequenceWorld} {event : SequenceEvent} (hw : w.CursorInvariant)
    (h : Effect w event t) (huse : event.isUse = true) :
    w.state.Usable ∧ ¬ Exhausted w.state := by
  cases h with
  | began plan husable hmatches hadmitted =>
    refine ⟨husable, fun hexhausted => ?_⟩
    have hend := hadmitted.rows_end
    have hpos := hadmitted.rows_pos
    have hwithin := hadmitted.within
    rw [hmatches.2.1, hexhausted.2] at hend
    omega
  | committed i tx rows phase htx husable hmatches hbefore hadvance hwithin hphase =>
    refine ⟨husable, fun hexhausted => ?_⟩
    rw [hexhausted.2] at hadvance
    omega
  | abortedZero i tx htx husable hmatches =>
    refine ⟨husable, fun hexhausted => ?_⟩
    have hplan := hw.plans tx (List.mem_of_getElem? htx)
    have hend := hplan.rows_end
    have hpos := hplan.rows_pos
    have hwithin := hplan.within
    rw [hmatches.2.1, hexhausted.2] at hend
    omega
  | reset epoch husable hepoch =>
    refine ⟨husable, fun hexhausted => ?_⟩
    have hbound := epoch.toNat_lt
    have hlast := hexhausted.1
    omega
  | recorded => cases huse
  | unchanged => cases huse
  | poisoned => cases huse
  | released => cases huse

/-- Unusable, or with nothing left to begin or to reset. -/
def Dead (w : SequenceWorld) : Prop := ¬ w.state.Usable ∨ Exhausted w.state

theorem not_dead_of_effect {w t : SequenceWorld} {event : SequenceEvent}
    (hw : w.CursorInvariant) (h : Effect w event t) (huse : event.isUse = true) : ¬ w.Dead := by
  obtain ⟨husable, hleft⟩ := alive_of_effect hw h huse
  rintro (hnot | hexhausted)
  · exact hnot husable
  · exact hleft hexhausted

theorem dead_step {T : Toolchain} {w t : SequenceWorld} {op : SequenceOp}
    (hw : w.CursorInvariant) (hdead : w.Dead) (h : step T w op = some t) : t.Dead := by
  rcases step_cases hw.plans h with rfl | ⟨event, u, hcall, heffect, rfl⟩
  · exact hdead
  have halive := not_dead_of_effect hw heffect
  cases heffect with
  | began => exact absurd hdead (halive rfl)
  | recorded => exact hdead
  | committed => exact absurd hdead (halive rfl)
  | abortedZero => exact hdead
  | unchanged => exact hdead
  | poisoned => exact .inl (fun husable => nomatch husable.2)
  | reset => exact absurd hdead (halive rfl)
  | released => exact .inl (fun husable => nomatch husable.1)

theorem neverReused_of_dead {T : Toolchain} {w : SequenceWorld} (hw : w.CursorInvariant)
    (hdead : w.Dead) : NeverReused T w := by
  intro later t hrun op huse hsucceeds
  have hkept : t.CursorInvariant ∧ t.Dead :=
    runSteps_preserves (P := fun w : SequenceWorld => w.CursorInvariant ∧ w.Dead)
      (fun w op t hw h => ⟨cursorInvariant_step hw.1 h, dead_step hw.1 hw.2 h⟩) ⟨hw, hdead⟩ hrun
  obtain ⟨event, u, hcall⟩ := hsucceeds
  have heffect := Call.wp_of_ok (call_effect T t hkept.1.plans op) hcall
  exact not_dead_of_effect hkept.1 heffect (event_of_use huse hcall) hkept.2

/-! ## A sequence that is not dead can be used -/

theorem succeeds_reset {T : Toolchain} {w : SequenceWorld} (husable : w.state.Usable)
    (hepoch : w.state.sequenceEpoch.toNat + 1 < 2 ^ 32) : Succeeds T w .logicalReset := by
  have hmutable := InferenceSessionState.ensureMutable_ok_iff.mpr husable
  have hnext := checkedAdd32_of_fits (a := w.state.sequenceEpoch) (b := 1) hepoch
  have hspec : Call.wp False (call T .logicalReset) (fun _ _ => True) (fun _ _ => False) w := by
    rw [call, Call.wp_bind, onState, Call.wp_within, InferenceSessionState.logicalReset,
      Call.wp_bind, Call.wp_get, hmutable, Call.wp_bind, Call.wp_lift_ok, hnext]
    trivial
  obtain ⟨event, t, hcall, -⟩ := Call.wp_ok hspec
  exact ⟨event, t, hcall⟩

/-- A usable sequence with a free row admits a prefill or a decode of one row. -/
theorem succeeds_begin {T : Toolchain} {w : SequenceWorld} (hw : w.CursorInvariant)
    (husable : w.state.Usable) (hfree : w.state.validLen.toNat < w.state.capacity.toNat) :
    ∃ mode, Succeeds T w (.begin mode 1) := by
  have hmutable := InferenceSessionState.ensureMutable_ok_iff.mpr husable
  have hone : (1 : UInt32).toNat = 1 := rfl
  have hbound := w.state.capacity.toNat_lt
  have hfits : w.state.validLen.toNat + (1 : UInt32).toNat < 2 ^ 32 := by omega
  have hadd := checkedAdd32_of_fits hfits
  have hle : w.state.validLen + 1 ≤ w.state.capacity := by
    rw [UInt32.le_iff_toNat_le, toNat_add32_of_fits hfits]
    omega
  have haccepts : ∃ mode, w.state.admitMode 1 mode = .ok () := by
    have hphase := hw.phase
    have hpoison := husable.2
    cases hcase : w.state.phase with
    | fresh =>
      refine ⟨.prefill, ?_⟩
      simp only [PhaseFits, hcase] at hphase
      simp [InferenceSessionState.admitMode, hcase, hphase]
    | prefill =>
      exact ⟨.scalarDecode, by
        simp [InferenceSessionState.admitMode, InferenceSessionState.ensureCommittedPrefill, hcase]⟩
    | decode =>
      exact ⟨.scalarDecode, by
        simp [InferenceSessionState.admitMode, InferenceSessionState.ensureCommittedPrefill, hcase]⟩
    | poisoned epoch stage => simp [hcase, SequencePhase.isPoisoned] at hpoison
  obtain ⟨mode, hmode⟩ := haccepts
  have hbegin : ∃ tx, w.state.beginTransaction mode 1 = .ok tx := by
    simp [InferenceSessionState.beginTransaction, InferenceSessionState.beginInvocation, hmutable,
      hmode, hadd, hle, bind, Except.bind, pure, Except.pure]
  obtain ⟨tx, htx⟩ := hbegin
  have hspec : Call.wp False (call T (.begin mode 1)) (fun _ _ => True) (fun _ _ => False) w := by
    rw [call, Call.wp_bind, Call.wp_get, Call.wp_bind, htx]
    trivial
  obtain ⟨event, t, hcall, -⟩ := Call.wp_ok hspec
  exact ⟨mode, event, t, hcall⟩

theorem neverReused_iff_dead {T : Toolchain} {w : SequenceWorld} (hw : w.CursorInvariant) :
    NeverReused T w ↔ w.Dead := by
  refine ⟨fun hnever => ?_, neverReused_of_dead hw⟩
  by_contra halive
  obtain ⟨husable, hleft⟩ := not_or.mp halive
  rw [not_not] at husable
  have hnow := hnever [] w rfl
  by_cases hepoch : w.state.sequenceEpoch.toNat + 1 < 2 ^ 32
  · exact hnow .logicalReset rfl (succeeds_reset husable hepoch)
  · have hbound := w.state.sequenceEpoch.toNat_lt
    have hne : w.state.validLen.toNat ≠ w.state.capacity.toNat :=
      fun heq => hleft ⟨by omega, UInt32.toNat_inj.mp heq⟩
    have hwithin := hw.within
    obtain ⟨mode, hbegin⟩ := succeeds_begin (T := T) hw husable (by omega)
    exact hnow _ rfl hbegin

/-- A mutated transaction that fails leaves its sequence poisoned, or as it was when the
    plan does not match or the sequence is not usable. -/
theorem failed_dead_iff {T : Toolchain} {w t : SequenceWorld} {i : Nat}
    {tx : InvocationTransaction} (htx : w.transactions[i]? = some tx)
    (hmutated : tx.possibleMutation.isSome = true) (hfail : step T w (.fail i) = some t) :
    t.Dead ↔ w.state.Matches tx.plan ∨ ¬ w.state.Usable ∨ Exhausted w.state := by
  have hspec : Call.wp True (call T (.fail i)) (fun _ t => ¬ t.state.Usable ∧
      w.state.Matches tx.plan) (fun _ t => t = w ∧ ¬ (w.state.Usable ∧ w.state.Matches tx.plan))
      w := by
    rw [call, Call.wp_bind]
    refine wp_transaction (fun _ => trivial) (fun tx' htx' => ?_)
    rw [htx] at htx'
    cases htx'
    rw [Call.wp_bind]
    refine wp_onState (InferenceSessionState.fail_spec tx w.state) ?_ ?_
    · rintro outcome u (⟨-, hnone, -⟩ | ⟨-, hmatches, stage, -, rfl, rfl⟩)
      · rw [hnone] at hmutated
        cases hmutated
      · exact ⟨fun husable => (by cases husable.2), hmatches⟩
    · rintro e u ⟨rfl, hnot⟩
      exact ⟨rfl, hnot hmutated⟩
  obtain ⟨⟨answer, u⟩, hcall, ht⟩ := Option.map_eq_some_iff.mp hfail
  cases answer with
  | ok event =>
    obtain ⟨hunusable, hmatches⟩ := Call.wp_of_ok hspec hcall
    exact iff_of_true (.inl (ht ▸ hunusable)) (.inl hmatches)
  | error e =>
    obtain ⟨rfl, hnot⟩ := Call.wp_of_error hspec hcall
    obtain rfl : t = u := ht.symm
    constructor
    · exact .inr
    · rintro (hmatches | hdead)
      · exact .inl (fun husable => hnot ⟨husable, hmatches⟩)
      · exact hdead

/-- In every run, a transaction that recorded a possible mutation and fails ends every
    use of its sequence exactly when its plan still matches the live epoch and cursor, or
    nothing was left to use. -/
theorem failed_neverReused_iff (T : Toolchain) (capacity : UInt32) (s : InferenceSessionState)
    (hnew : InferenceSessionState.new capacity = .ok s) (ops : List SequenceOp)
    (w : SequenceWorld) (hrun : runSteps (step T) (start s) ops = some w) (i : Nat)
    (tx : InvocationTransaction) (htx : w.transactions[i]? = some tx)
    (hmutated : tx.possibleMutation.isSome = true) (t : SequenceWorld)
    (hfail : step T w (.fail i) = some t) :
    NeverReused T t ↔ w.state.Matches tx.plan ∨ ¬ w.state.Usable ∨ Exhausted w.state := by
  obtain ⟨hw, -⟩ := cursorInvariant_run hnew hrun
  rw [neverReused_iff_dead (cursorInvariant_step hw hfail)]
  exact failed_dead_iff htx hmutated hfail

/-! ## A stale failure -/

/-- Two decodes are begun at one cursor; the first reaches the device, the second
    commits. -/
def staleOps : List SequenceOp :=
  [.begin .prefill 2, .commit 0, .begin .scalarDecode 1, .begin .scalarDecode 1,
    .recordPossibleMutation 1 .dispatch, .commit 2]

/-- The mutated transaction fails after the other one committed: the failure is rejected
    as stale and the next decode is admitted. -/
theorem stale_failure_reused :
    ∃ w tx t, runSteps (step .dev) (start sampleState) staleOps = some w ∧
      w.transactions[1]? = some tx ∧ tx.possibleMutation.isSome = true ∧
      step .dev w (.fail 1) = some t ∧ Succeeds .dev t (.begin .scalarDecode 1) := by
  have hreturns : ((runSteps (step .dev) (start sampleState) staleOps).any (fun w =>
      (w.transactions[1]?).any (fun tx => tx.possibleMutation.isSome &&
        (step .dev w (.fail 1)).any (fun t =>
          (Call.okEnd (call .dev (.begin .scalarDecode 1)) t).isSome)))) = true := by
    decide +kernel
  obtain ⟨w, hw, htxs⟩ := Option.any_eq_true _ _ |>.mp hreturns
  obtain ⟨tx, htx, hall⟩ := Option.any_eq_true _ _ |>.mp htxs
  obtain ⟨hmutated, hfail⟩ := Bool.and_eq_true _ _ |>.mp hall
  obtain ⟨t, ht, hbegin⟩ := Option.any_eq_true _ _ |>.mp hfail
  obtain ⟨ended, hended⟩ := Option.isSome_iff_exists.mp hbegin
  exact ⟨w, tx, t, hw, htx, hmutated, ht, ended.1, ended.2, Call.okEnd_eq_some_iff.mp hended⟩

/-- The same transactions, with the failure reported before the other commits. -/
theorem live_failure_neverReused :
    ∃ w tx t, runSteps (step .dev) (start sampleState) staleOps.dropLast = some w ∧
      w.transactions[1]? = some tx ∧ step .dev w (.fail 1) = some t ∧ NeverReused .dev t := by
  have hreturns : ((runSteps (step .dev) (start sampleState) staleOps.dropLast).any (fun w =>
      (w.transactions[1]?).any (fun tx => tx.possibleMutation.isSome &&
        decide (w.state.Matches tx.plan) && (step .dev w (.fail 1)).isSome))) = true := by
    decide +kernel
  obtain ⟨w, hw, htxs⟩ := Option.any_eq_true _ _ |>.mp hreturns
  obtain ⟨tx, htx, hall⟩ := Option.any_eq_true _ _ |>.mp htxs
  simp only [Bool.and_eq_true, decide_eq_true_eq] at hall
  obtain ⟨⟨hmutated, hmatches⟩, hstep⟩ := hall
  obtain ⟨t, ht⟩ := Option.isSome_iff_exists.mp hstep
  exact ⟨w, tx, t, hw, htx, ht,
    (failed_neverReused_iff .dev 8 sampleState rfl _ w hw 1 tx htx hmutated t ht).mpr
      (.inl hmatches)⟩

end SequenceWorld

end FaberHosts.Inference
