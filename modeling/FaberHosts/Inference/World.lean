import FaberHosts.Inference.Sequence

/-!
# A sequence and its open transactions

The calls a program makes on one sequence while it holds any number of begun
transactions, in any order, and what one call can change.
-/

namespace FaberHosts.Inference
open FaberHosts.Lib

/-! ## Calls -/

/-- What a call that answered `Ok` did.  Transactions are named by the order in which
    they were begun. -/
inductive SequenceEvent where
  | began (transaction : Nat)
  | recorded (transaction : Nat) (stage : FailureStage)
  | committed (transaction : Nat) (rows : CursorFacts)
  | abortedZero (transaction : Nat)
  | unchanged (transaction : Nat)
  | poisoned (transaction : Nat)
  | reset (sequenceEpoch : UInt32)
  | released
  deriving DecidableEq, Repr

/-- A sequence, every transaction begun on it, and what happened so far, newest
    first. -/
structure SequenceWorld where
  state : InferenceSessionState
  transactions : List InvocationTransaction
  history : List SequenceEvent
  deriving DecidableEq, Repr

def SequenceWorld.start (s : InferenceSessionState) : SequenceWorld := ⟨s, [], []⟩

inductive SequenceOp where
  | begin (mode : InvocationMode) (queryRows : UInt32)
  | recordPossibleMutation (transaction : Nat) (stage : FailureStage)
  | commit (transaction : Nat)
  | commitVerification (transaction : Nat) (acceptedRows : UInt32)
  | fail (transaction : Nat)
  | failUnproven (transaction : Nat)
  | abortPreDispatch (transaction : Nat)
  | poison (transaction : Nat) (stage : FailureStage)
  | logicalReset
  | reset
  | release
  deriving DecidableEq, Repr

/-- The transaction a call names. -/
def SequenceOp.transaction? : SequenceOp → Option Nat
  | .recordPossibleMutation i _ | .commit i | .commitVerification i _ | .fail i
  | .failUnproven i | .abortPreDispatch i | .poison i _ => some i
  | .begin _ _ | .logicalReset | .reset | .release => none

namespace SequenceWorld

/-- The begun transaction of this number; a call that names none is no call. -/
def transaction (i : Nat) : Call SequenceWorld SessionError InvocationTransaction := do
  let w ← Call.get
  Call.value w.transactions[i]?

def onState {α : Type} (c : Call InferenceSessionState SessionError α) :
    Call SequenceWorld SessionError α :=
  Call.within SequenceWorld.state (fun w s => { w with state := s }) c

/-- One call of the program. -/
def call (T : Toolchain) : SequenceOp → Call SequenceWorld SessionError SequenceEvent
  | .begin mode queryRows => do
    let w ← Call.get
    let tx ← Call.lift (some (w.state.beginTransaction mode queryRows))
    Call.modify (fun w => { w with transactions := w.transactions ++ [tx] })
    return .began w.transactions.length
  | .recordPossibleMutation i stage => do
    let tx ← transaction i
    Call.modify (fun w =>
      { w with transactions := w.transactions.set i (tx.recordPossibleMutation stage) })
    return .recorded i stage
  | .commit i => do
    let tx ← transaction i
    let rows ← onState (InferenceSessionState.commitTransaction tx)
    return .committed i rows
  | .commitVerification i acceptedRows => do
    let tx ← transaction i
    let result ← onState (InferenceSessionState.commitVerification T tx acceptedRows)
    match result with
    | .abortedZero => return .abortedZero i
    | .committed _ rows => return .committed i rows
  | .fail i => do
    let tx ← transaction i
    let outcome ← onState (InferenceSessionState.fail tx)
    match outcome with
    | .unchanged => return .unchanged i
    | .poisoned _ _ => return .poisoned i
  | .failUnproven i => do
    let tx ← transaction i
    let _ ← onState (InferenceSessionState.failUnproven tx)
    return .poisoned i
  | .abortPreDispatch i => do
    let tx ← transaction i
    let w ← Call.get
    Call.lift (some (w.state.abortPreDispatch tx))
    return .unchanged i
  | .poison i stage => do
    let tx ← transaction i
    let _ ← onState (InferenceSessionState.poison tx.plan stage)
    return .poisoned i
  | .logicalReset => do
    let receipt ← onState InferenceSessionState.logicalReset
    return .reset receipt.sequenceEpoch
  | .reset => do
    let epoch ← onState InferenceSessionState.reset
    return .reset epoch
  | .release => do
    onState InferenceSessionState.release
    return .released

/-- One call, with what it did added to the history. -/
def step (T : Toolchain) (w : SequenceWorld) (op : SequenceOp) : Option SequenceWorld :=
  (call T op w).map (fun answered =>
    match answered with
    | (.ok event, t) => { t with history := event :: t.history }
    | (.error _, t) => t)

/-- The call answers `Ok`. -/
def Succeeds (T : Toolchain) (w : SequenceWorld) (op : SequenceOp) : Prop :=
  ∃ event t, call T op w = some (.ok event, t)

/-! ## What one call can change -/

/-- The state a call leaves, by what it did. -/
inductive Effect (w : SequenceWorld) : SequenceEvent → SequenceWorld → Prop
  | began (plan : PlannedInvocation) (husable : w.state.Usable)
      (hmatches : w.state.Matches plan)
      (hadmitted : InferenceSessionState.Admitted w.state.capacity plan) :
      Effect w (.began w.transactions.length)
        { w with transactions := w.transactions ++ [⟨plan, none⟩] }
  | recorded (i : Nat) (tx : InvocationTransaction) (stage : FailureStage)
      (htx : w.transactions[i]? = some tx) :
      Effect w (.recorded i stage)
        { w with transactions := w.transactions.set i (tx.recordPossibleMutation stage) }
  | committed (i : Nat) (tx : InvocationTransaction) (rows : CursorFacts) (phase : SequencePhase)
      (htx : w.transactions[i]? = some tx) (husable : w.state.Usable)
      (hmatches : w.state.Matches tx.plan) (hbefore : rows.prefixBefore = w.state.validLen)
      (hadvance : w.state.validLen.toNat < rows.validLenAfter.toNat)
      (hwithin : rows.validLenAfter.toNat ≤ w.state.capacity.toNat)
      (hphase : phase = .prefill ∨ phase = .decode) :
      Effect w (.committed i rows) { w with state := w.state.advance rows phase }
  | abortedZero (i : Nat) (tx : InvocationTransaction) (htx : w.transactions[i]? = some tx)
      (husable : w.state.Usable) (hmatches : w.state.Matches tx.plan) :
      Effect w (.abortedZero i) w
  | unchanged (i : Nat) : Effect w (.unchanged i) w
  | poisoned (i : Nat) (plan : PlannedInvocation) (stage : FailureStage)
      (husable : w.state.Usable) :
      Effect w (.poisoned i)
        { w with state :=
          { w.state with
            phase := .poisoned w.state.sequenceEpoch stage
            poisonedInvocation := some plan } }
  | reset (epoch : UInt32) (husable : w.state.Usable)
      (hepoch : epoch.toNat = w.state.sequenceEpoch.toNat + 1) :
      Effect w (.reset epoch)
        { w with state :=
          { w.state with
            validLen := 0
            sequenceEpoch := epoch
            phase := .fresh
            lastCommit := none
            poisonedInvocation := none } }
  | released : Effect w .released { w with state := { w.state with released := true } }

/-- Every begun transaction has admitted coordinates. -/
def PlansAdmitted (w : SequenceWorld) : Prop :=
  ∀ tx ∈ w.transactions, InferenceSessionState.Admitted w.state.capacity tx.plan

theorem wp_transaction {i : Nat} {panics : Prop} {Q : InvocationTransaction → SequenceWorld → Prop}
    {E : SessionError → SequenceWorld → Prop} {w : SequenceWorld}
    (hnone : w.transactions[i]? = none → panics)
    (hsome : ∀ tx, w.transactions[i]? = some tx → Q tx w) :
    Call.wp panics (transaction i) Q E w := by
  rw [transaction, Call.wp_bind, Call.wp_get, Call.wp_value]
  exact ⟨hnone, hsome⟩

theorem wp_onState {α : Type} {panics : Prop} {c : Call InferenceSessionState SessionError α}
    {P : α → InferenceSessionState → Prop} {R : SessionError → InferenceSessionState → Prop}
    {Q : α → SequenceWorld → Prop} {E : SessionError → SequenceWorld → Prop} {w : SequenceWorld}
    (hspec : Call.wp False c P R w.state) (hok : ∀ a t, P a t → Q a { w with state := t })
    (herr : ∀ e t, R e t → E e { w with state := t }) : Call.wp panics (onState c) Q E w := by
  rw [onState, Call.wp_within]
  exact Call.wp_mono (Call.wp_of_total hspec) hok herr

/-- Every call that names a begun transaction, or none, returns: an `Ok` answer is one
    of the effects, an `Err` answer leaves everything unchanged. -/
theorem call_effect (T : Toolchain) (w : SequenceWorld) (hplans : w.PlansAdmitted)
    (op : SequenceOp) :
    Call.wp (∃ i, op.transaction? = some i ∧ w.transactions[i]? = none) (call T op)
      (fun event t => Effect w event t) (fun _ t => t = w) w := by
  cases op with
  | begin mode queryRows =>
    rw [call, Call.wp_bind, Call.wp_get, Call.wp_bind]
    cases hbegin : w.state.beginInvocation mode queryRows with
    | error e =>
      have : w.state.beginTransaction mode queryRows = .error e := by
        simp [InferenceSessionState.beginTransaction, hbegin, bind, Except.bind]
      rw [this]
      rfl
    | ok plan =>
      have : w.state.beginTransaction mode queryRows = .ok ⟨plan, none⟩ := by
        simp [InferenceSessionState.beginTransaction, hbegin, bind, Except.bind, pure, Except.pure]
      rw [this]
      obtain ⟨husable, hmatches, hadmitted⟩ := InferenceSessionState.beginInvocation_ok hbegin
      exact .began plan husable hmatches hadmitted
  | recordPossibleMutation i stage =>
    rw [call, Call.wp_bind]
    refine wp_transaction (fun h => ⟨i, rfl, h⟩) (fun tx htx => ?_)
    exact .recorded i tx stage htx
  | commit i =>
    rw [call, Call.wp_bind]
    refine wp_transaction (fun h => ⟨i, rfl, h⟩) (fun tx htx => ?_)
    have hplan := hplans tx (List.mem_of_getElem? htx)
    rw [Call.wp_bind]
    refine wp_onState (InferenceSessionState.commit_spec tx.plan w.state) ?_ ?_
    · rintro rows t ⟨husable, hmatches, rfl, phase, hphase, rfl⟩
      refine .committed i tx tx.plan.coordinates phase htx husable hmatches hmatches.2.1 ?_
        hplan.within hphase
      have := hplan.rows_end
      have := hplan.rows_pos
      rw [hmatches.2.1] at *
      omega
    · rintro e t rfl
      rfl
  | commitVerification i acceptedRows =>
    rw [call, Call.wp_bind]
    refine wp_transaction (fun h => ⟨i, rfl, h⟩) (fun tx htx => ?_)
    have hplan := hplans tx (List.mem_of_getElem? htx)
    have hend := hplan.rows_end
    have hbound := tx.plan.coordinates.validLenAfter.toNat_lt
    rw [Call.wp_bind]
    refine wp_onState (InferenceSessionState.commitVerification_spec T tx acceptedRows w.state
      (by omega)) ?_ ?_
    · rintro result t ⟨husable, hmatches, hresult⟩
      cases result with
      | abortedZero =>
        cases hresult
        exact .abortedZero i tx htx husable hmatches
      | committed accepted rows =>
        obtain ⟨hnonzero, hle, hbefore, hafter, rfl⟩ := hresult
        have hpos : 0 < accepted.toNat := by
          rw [Ne, ← UInt32.toNat_inj] at hnonzero
          exact Nat.pos_of_ne_zero hnonzero
        rw [UInt32.le_iff_toNat_le] at hle
        have hsum : rows.validLenAfter.toNat =
            tx.plan.coordinates.prefixBefore.toNat + accepted.toNat := by
          rw [hafter, toNat_add32_of_fits (by omega)]
        have hwithin := hplan.within
        refine .committed i tx rows .decode htx husable hmatches (hbefore.trans hmatches.2.1) ?_
          (by omega) (.inr rfl)
        rw [← hmatches.2.1]
        omega
    · rintro e t rfl
      rfl
  | fail i =>
    rw [call, Call.wp_bind]
    refine wp_transaction (fun h => ⟨i, rfl, h⟩) (fun tx htx => ?_)
    rw [Call.wp_bind]
    refine wp_onState (InferenceSessionState.fail_spec tx w.state) ?_ ?_
    · rintro outcome t (⟨rfl, -, rfl⟩ | ⟨husable, -, stage, -, rfl, rfl⟩)
      · exact .unchanged i
      · exact .poisoned i tx.plan stage husable
    · rintro e t ⟨rfl, -⟩
      rfl
  | failUnproven i =>
    rw [call, Call.wp_bind]
    refine wp_transaction (fun h => ⟨i, rfl, h⟩) (fun tx htx => ?_)
    rw [Call.wp_bind]
    refine wp_onState (InferenceSessionState.failUnproven_spec tx w.state) ?_ ?_
    · rintro phase t ⟨husable, -, stage, -, rfl, rfl⟩
      exact .poisoned i tx.plan stage husable
    · rintro e t ⟨rfl, -⟩
      rfl
  | abortPreDispatch i =>
    rw [call, Call.wp_bind]
    refine wp_transaction (fun h => ⟨i, rfl, h⟩) (fun tx htx => ?_)
    rw [Call.wp_bind, Call.wp_get, Call.wp_bind]
    cases w.state.abortPreDispatch tx with
    | error e => rfl
    | ok u => exact .unchanged i
  | poison i stage =>
    rw [call, Call.wp_bind]
    refine wp_transaction (fun h => ⟨i, rfl, h⟩) (fun tx htx => ?_)
    rw [Call.wp_bind]
    refine wp_onState (InferenceSessionState.poison_spec tx.plan stage w.state) ?_ ?_
    · rintro phase t ⟨husable, -, rfl, rfl⟩
      exact .poisoned i tx.plan stage husable
    · rintro e t ⟨rfl, -⟩
      rfl
  | logicalReset =>
    rw [call, Call.wp_bind]
    refine wp_onState (InferenceSessionState.logicalReset_spec w.state) ?_ ?_
    · rintro receipt t ⟨husable, hepoch, rfl⟩
      exact .reset receipt.sequenceEpoch husable hepoch
    · rintro e t rfl
      rfl
  | reset =>
    rw [call, Call.wp_bind]
    refine wp_onState (InferenceSessionState.reset_spec w.state) ?_ ?_
    · rintro epoch t ⟨husable, hepoch, rfl⟩
      exact .reset epoch husable hepoch
    · rintro e t rfl
      rfl
  | release =>
    rw [call, Call.wp_bind]
    refine wp_onState (InferenceSessionState.release_spec w.state) ?_ ?_
    · rintro u t rfl
      exact .released
    · rintro e t rfl
      rfl

/-- A call either is rejected, and changes nothing, or has one of the effects. -/
theorem step_cases {T : Toolchain} {w t : SequenceWorld} {op : SequenceOp}
    (hplans : w.PlansAdmitted) (h : step T w op = some t) :
    t = w ∨ ∃ event u, call T op w = some (.ok event, u) ∧ Effect w event u ∧
      t = { u with history := event :: u.history } := by
  obtain ⟨⟨answer, u⟩, hcall, ht⟩ := Option.map_eq_some_iff.mp h
  have heffect := call_effect T w hplans op
  cases answer with
  | error e =>
    have hu := Call.wp_of_error heffect hcall
    exact .inl (ht.symm.trans hu)
  | ok event => exact .inr ⟨event, u, hcall, Call.wp_of_ok heffect hcall, ht.symm⟩

/-- Calls keep the capacity, and the plans they admit have admitted coordinates. -/
theorem effect_plansAdmitted {w t : SequenceWorld} {event : SequenceEvent}
    (h : Effect w event t) (hplans : w.PlansAdmitted) :
    t.state.capacity = w.state.capacity ∧ t.PlansAdmitted := by
  cases h with
  | began plan _ _ hadmitted =>
    refine ⟨rfl, fun tx htx => ?_⟩
    rcases List.mem_append.mp htx with htx | htx
    · exact hplans tx htx
    · cases List.mem_singleton.mp htx
      exact hadmitted
  | recorded i tx stage htx =>
    refine ⟨rfl, fun tx' htx' => ?_⟩
    rcases List.mem_or_eq_of_mem_set htx' with htx' | rfl
    · exact hplans tx' htx'
    · exact hplans tx (List.mem_of_getElem? htx)
  | committed => exact ⟨rfl, hplans⟩
  | abortedZero => exact ⟨rfl, hplans⟩
  | unchanged => exact ⟨rfl, hplans⟩
  | poisoned => exact ⟨rfl, hplans⟩
  | reset => exact ⟨rfl, hplans⟩
  | released => exact ⟨rfl, hplans⟩

end SequenceWorld

end FaberHosts.Inference
