import FaberHosts.Lib.Runs
import FaberHosts.Inference.State

/-!
# Runs of a sequence with open transactions

What each method of the sequence state does, the calls a program makes on a
sequence and its open transactions, and what one call can change.
-/

namespace FaberHosts.Inference
open FaberHosts.Lib

namespace InferenceSessionState

/-! ## What each method does -/

/-- Neither released nor poisoned. -/
def Usable (s : InferenceSessionState) : Prop := s.released = false ∧ s.phase.isPoisoned = false

/-- The plan was admitted at the live epoch, cursor and capacity. -/
def Matches (s : InferenceSessionState) (plan : PlannedInvocation) : Prop :=
  plan.sequenceEpoch = s.sequenceEpoch ∧ plan.coordinates.prefixBefore = s.validLen ∧
    plan.coordinates.capacity = s.capacity

instance (s : InferenceSessionState) : Decidable s.Usable := inferInstanceAs (Decidable (_ ∧ _))

instance (s : InferenceSessionState) (plan : PlannedInvocation) : Decidable (s.Matches plan) :=
  inferInstanceAs (Decidable (_ ∧ _ ∧ _))

theorem ensureMutable_ok_iff {s : InferenceSessionState} : s.ensureMutable = .ok () ↔ s.Usable := by
  unfold ensureMutable Usable
  cases hreleased : s.released with
  | true => simp
  | false => cases hphase : s.phase <;> simp [SequencePhase.isPoisoned]

theorem ensurePlanMatches_ok_iff {s : InferenceSessionState} {plan : PlannedInvocation} :
    s.ensurePlanMatches plan = .ok () ↔ s.Matches plan := by
  unfold ensurePlanMatches Matches
  split
  · simp_all
  · split
    · simp_all
    · split
      · simp_all
      · simp_all

/-- A check of the state either lets the rest of a method run or leaves the state. -/
theorem wp_check {α : Type} {panics : Prop} {check : Except SessionError Unit}
    {rest : Call InferenceSessionState SessionError α}
    {Q : α → InferenceSessionState → Prop} {E : SessionError → InferenceSessionState → Prop}
    {s : InferenceSessionState} (hok : check = .ok () → Call.wp panics rest Q E s)
    (herr : ∀ e, check = .error e → E e s) :
    Call.wp panics (Call.lift (some check) >>= fun _ => rest) Q E s :=
  Call.wp_of_check (fun _ hcheck => hok hcheck) herr

theorem wp_guarded {α : Type} {panics : Prop} {plan : PlannedInvocation}
    {rest : Call InferenceSessionState SessionError α}
    {Q : α → InferenceSessionState → Prop} {E : SessionError → InferenceSessionState → Prop}
    {s : InferenceSessionState}
    (hok : s.Usable → s.Matches plan → Call.wp panics rest Q E s)
    (herr : ∀ e, ¬ (s.Usable ∧ s.Matches plan) → E e s) :
    Call.wp panics (Call.lift (some s.ensureMutable) >>= fun _ =>
      Call.lift (some (s.ensurePlanMatches plan)) >>= fun _ => rest) Q E s := by
  refine wp_check (fun hmutable => wp_check (fun hmatches => ?_) ?_) ?_
  · exact hok (ensureMutable_ok_iff.mp hmutable) (ensurePlanMatches_ok_iff.mp hmatches)
  · intro e he
    refine herr e (fun hboth => ?_)
    rw [ensurePlanMatches_ok_iff.mpr hboth.2] at he
    cases he
  · intro e he
    refine herr e (fun hboth => ?_)
    rw [ensureMutable_ok_iff.mpr hboth.1] at he
    cases he

theorem commit_spec (plan : PlannedInvocation) (s : InferenceSessionState) :
    Call.wp False (commit plan)
      (fun rows t => s.Usable ∧ s.Matches plan ∧ rows = plan.coordinates ∧
        ∃ phase, (phase = .prefill ∨ phase = .decode) ∧ t = s.advance rows phase)
      (fun _ t => t = s) s := by
  rw [commit, Call.wp_bind, Call.wp_get]
  refine wp_guarded (fun husable hmatches => ?_) (fun _ _ => rfl)
  split
  · simp
  · rw [Call.wp_bind, Call.wp_modify, Call.wp_pure]
    refine ⟨husable, hmatches, rfl, _, ?_, rfl⟩
    cases plan.mode <;> simp

/-- What a verification commit leaves behind. -/
def Verified (s : InferenceSessionState) (plan : PlannedInvocation) :
    VerificationCommit → InferenceSessionState → Prop
  | .abortedZero, t => t = s
  | .committed accepted rows, t =>
    accepted ≠ 0 ∧ accepted ≤ plan.coordinates.queryRows ∧
      rows.prefixBefore = plan.coordinates.prefixBefore ∧
      rows.validLenAfter = plan.coordinates.prefixBefore + accepted ∧
      t = s.advance rows .decode

theorem commitVerification_spec (T : Toolchain) (tx : InvocationTransaction)
    (acceptedRows : UInt32) (s : InferenceSessionState)
    (hfits : tx.plan.coordinates.prefixBefore.toNat + tx.plan.coordinates.queryRows.toNat
      < 2 ^ 32) :
    Call.wp False (commitVerification T tx acceptedRows)
      (fun result t => s.Usable ∧ s.Matches tx.plan ∧ s.Verified tx.plan result t)
      (fun _ t => t = s) s := by
  rw [commitVerification, Call.wp_bind, Call.wp_get]
  refine wp_check (fun hmutable => ?_) (fun _ _ => rfl)
  split
  · simp
  refine wp_check (fun hmatches => ?_) (fun _ _ => rfl)
  have husable := ensureMutable_ok_iff.mp hmutable
  have hplan := ensurePlanMatches_ok_iff.mp hmatches
  dsimp only
  by_cases hrows : tx.plan.coordinates.queryRows < acceptedRows
  · rw [if_pos hrows]
    rfl
  rw [if_neg hrows]
  by_cases hzero : acceptedRows = 0
  · rw [if_pos hzero]
    exact ⟨husable, hplan, rfl⟩
  rw [if_neg hzero]
  have hle : acceptedRows ≤ tx.plan.coordinates.queryRows := by
    simpa using hrows
  rw [Call.wp_bind, addU32_of_fits T.overflowChecks
    (by rw [UInt32.le_iff_toNat_le] at hle; omega), Call.wp_value]
  refine ⟨by simp, fun validLenAfter hsum => ?_⟩
  cases hsum
  exact ⟨husable, hplan, hzero, hle, rfl, rfl, rfl⟩

theorem poison_spec (plan : PlannedInvocation) (stage : FailureStage)
    (s : InferenceSessionState) :
    Call.wp False (poison plan stage)
      (fun phase t => s.Usable ∧ s.Matches plan ∧
        phase = .poisoned s.sequenceEpoch stage ∧
        t = { s with phase := phase, poisonedInvocation := some plan })
      (fun _ t => t = s ∧ ¬ (s.Usable ∧ s.Matches plan)) s := by
  rw [poison, Call.wp_bind, Call.wp_get]
  refine wp_guarded (fun husable hmatches => ?_) (fun _ h => ⟨rfl, h⟩)
  exact ⟨husable, hmatches, rfl, rfl⟩

theorem failUnproven_spec (tx : InvocationTransaction) (s : InferenceSessionState) :
    Call.wp False (failUnproven tx)
      (fun phase t => s.Usable ∧ s.Matches tx.plan ∧ ∃ stage,
        tx.possibleMutation = some stage ∧ phase = .poisoned s.sequenceEpoch stage ∧
        t = { s with phase := phase, poisonedInvocation := some tx.plan })
      (fun _ t => t = s ∧ (tx.possibleMutation.isSome → ¬ (s.Usable ∧ s.Matches tx.plan))) s := by
  unfold failUnproven
  cases hstage : tx.possibleMutation with
  | none => simp
  | some stage =>
    refine Call.wp_mono (poison_spec tx.plan stage s) ?_ ?_
    · rintro phase t ⟨husable, hmatches, hphase, ht⟩
      exact ⟨husable, hmatches, stage, rfl, hphase, ht⟩
    · rintro e t ⟨ht, hnot⟩
      exact ⟨ht, fun _ => hnot⟩

/-- A failed transaction either stayed before dispatch or poisons the sequence. -/
theorem fail_spec (tx : InvocationTransaction) (s : InferenceSessionState) :
    Call.wp False (fail tx)
      (fun outcome t => (outcome = .unchanged ∧ tx.possibleMutation = none ∧ t = s) ∨
        (s.Usable ∧ s.Matches tx.plan ∧ ∃ stage, tx.possibleMutation = some stage ∧
          outcome = .poisoned s.sequenceEpoch stage ∧
          t = { s with
            phase := .poisoned s.sequenceEpoch stage
            poisonedInvocation := some tx.plan }))
      (fun _ t => t = s ∧ (tx.possibleMutation.isSome → ¬ (s.Usable ∧ s.Matches tx.plan))) s := by
  unfold fail
  cases hstage : tx.possibleMutation with
  | none =>
    rw [Option.isNone_none, if_pos rfl, Call.wp_bind, Call.wp_get]
    refine wp_check (fun _ => ?_) (fun e _ => ⟨rfl, fun h => nomatch h⟩)
    exact .inl ⟨rfl, rfl, rfl⟩
  | some stage =>
    rw [Option.isNone_some, if_neg Bool.false_ne_true, Call.wp_bind]
    refine Call.wp_mono (failUnproven_spec tx s) ?_ ?_
    · rintro phase t ⟨husable, hmatches, stage', hstage', rfl, ht⟩
      rw [hstage] at hstage'
      cases hstage'
      exact .inr ⟨husable, hmatches, stage, rfl, rfl, ht⟩
    · rintro e t ⟨ht, hnot⟩
      exact ⟨ht, fun _ => hnot (by rw [hstage]; rfl)⟩

theorem logicalReset_spec (s : InferenceSessionState) :
    Call.wp False logicalReset
      (fun receipt t => s.Usable ∧
        receipt.sequenceEpoch.toNat = s.sequenceEpoch.toNat + 1 ∧
        t = { s with
          validLen := 0
          sequenceEpoch := receipt.sequenceEpoch
          phase := .fresh
          lastCommit := none
          poisonedInvocation := none })
      (fun _ t => t = s) s := by
  rw [logicalReset, Call.wp_bind, Call.wp_get]
  refine wp_check (fun hmutable => ?_) (fun _ _ => rfl)
  cases hepoch : checkedAdd32 s.sequenceEpoch 1 with
  | none => rfl
  | some nextEpoch =>
    refine ⟨ensureMutable_ok_iff.mp hmutable, ?_, rfl⟩
    exact checkedAdd32_some hepoch

theorem reset_spec (s : InferenceSessionState) :
    Call.wp False reset
      (fun epoch t => s.Usable ∧ epoch.toNat = s.sequenceEpoch.toNat + 1 ∧
        t = { s with
          validLen := 0
          sequenceEpoch := epoch
          phase := .fresh
          lastCommit := none
          poisonedInvocation := none })
      (fun _ t => t = s) s := by
  rw [reset, Call.wp_bind]
  exact Call.wp_mono (logicalReset_spec s) (fun _ _ h => h) (fun _ _ h => h)

theorem release_spec (s : InferenceSessionState) :
    Call.wp False release (fun _ t => t = { s with released := true }) (fun _ t => t = s) s := by
  rw [release, Call.wp_bind, Call.wp_get]
  split
  · rfl
  · rfl

/-! ## Plans -/

/-- The coordinates of an admitted plan: contiguous rows within the capacity. -/
structure Admitted (capacity : UInt32) (plan : PlannedInvocation) : Prop where
  rows_pos : 0 < plan.coordinates.queryRows.toNat
  rows_end : plan.coordinates.validLenAfter.toNat =
    plan.coordinates.prefixBefore.toNat + plan.coordinates.queryRows.toNat
  within : plan.coordinates.validLenAfter.toNat ≤ capacity.toNat
  capacity_eq : plan.coordinates.capacity = capacity
  start_eq : plan.coordinates.queryStart = plan.coordinates.prefixBefore

theorem beginInvocation_ok {s : InferenceSessionState} {mode : InvocationMode}
    {queryRows : UInt32} {plan : PlannedInvocation}
    (h : s.beginInvocation mode queryRows = .ok plan) :
    s.Usable ∧ s.Matches plan ∧ Admitted s.capacity plan := by
  unfold beginInvocation at h
  cases hmutable : s.ensureMutable with
  | error e => simp [hmutable, bind, Except.bind] at h
  | ok u =>
    simp only [hmutable, bind, Except.bind] at h
    split at h
    · cases h
    rename_i hrows
    cases hmode : s.admitMode queryRows mode with
    | error e => simp [hmode] at h
    | ok u =>
      simp only [hmode] at h
      cases hafter : checkedAdd32 s.validLen queryRows with
      | none => simp [hafter] at h
      | some validLenAfter =>
        simp only [hafter] at h
        split at h
        · rename_i hle
          cases h
          refine ⟨ensureMutable_ok_iff.mp hmutable, ⟨rfl, rfl, rfl⟩, ?_⟩
          refine ⟨?_, checkedAdd32_some hafter, UInt32.le_iff_toNat_le.mp hle, rfl, rfl⟩
          rw [← UInt32.toNat_inj] at hrows
          exact Nat.pos_of_ne_zero hrows
        · cases h

end InferenceSessionState

end FaberHosts.Inference
