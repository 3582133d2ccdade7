import FaberHosts.Inference.World

/-!
# Cursor safety

Over any run of calls the committed rows since the last reset tile the valid
prefix, and a transaction commits only while nothing else moved the cursor since
it was begun.
-/

namespace FaberHosts.Inference
open FaberHosts.Lib

/-! ## What a history says -/

/-- The row ranges committed since the last reset, oldest first. -/
def committedRanges : List SequenceEvent → List (Nat × Nat)
  | [] => []
  | .committed _ rows :: older =>
    committedRanges older ++ [(rows.prefixBefore.toNat, rows.validLenAfter.toNat)]
  | .reset _ :: _ => []
  | _ :: older => committedRanges older

/-- Nonempty ranges, each starting where the one before it ends. -/
def Tiles : Nat → List (Nat × Nat) → Nat → Prop
  | first, [], last => first = last
  | first, range :: rest, last => range.1 = first ∧ first < range.2 ∧ Tiles range.2 rest last

/-- The transaction was begun, and nothing was committed and no reset done since. -/
def LiveSince (i : Nat) : List SequenceEvent → Prop
  | [] => False
  | .began j :: older => j = i ∨ LiveSince i older
  | .committed _ _ :: _ => False
  | .reset _ :: _ => False
  | _ :: older => LiveSince i older

/-- The transactions that committed rows, newest first. -/
def committedTransactions (history : List SequenceEvent) : List Nat :=
  history.filterMap (fun event => match event with
    | .committed i _ => some i
    | _ => none)

/-- Every commit of the history was of a live transaction. -/
def LiveCommits (history : List SequenceEvent) : Prop :=
  ∀ newer i rows older, history = newer ++ .committed i rows :: older → LiveSince i older

theorem tiles_snoc {ranges : List (Nat × Nat)} {first last next : Nat}
    (h : Tiles first ranges last) (hlt : last < next) :
    Tiles first (ranges ++ [(last, next)]) next := by
  induction ranges generalizing first with
  | nil =>
    cases h
    exact ⟨rfl, hlt, rfl⟩
  | cons range rest ih => exact ⟨h.1, h.2.1, ih h.2.2⟩

theorem liveCommits_cons {history : List SequenceEvent} {event : SequenceEvent}
    (h : LiveCommits history)
    (hevent : ∀ i rows, event = .committed i rows → LiveSince i history) :
    LiveCommits (event :: history) := by
  intro newer i rows older hsplit
  cases newer with
  | nil =>
    cases hsplit
    exact hevent i rows rfl
  | cons head tail =>
    cases hsplit
    exact h tail i rows older rfl

/-! ## The invariant -/

/-- Outside poison the phase is fresh exactly at length zero. -/
def PhaseFits (s : InferenceSessionState) : Prop :=
  match s.phase with
  | .fresh => s.validLen = 0
  | .prefill | .decode => s.validLen ≠ 0
  | .poisoned _ _ => True

/-- The plan is of an earlier epoch, or of this one at an earlier cursor. -/
def Behind (s : InferenceSessionState) (plan : PlannedInvocation) : Prop :=
  plan.sequenceEpoch.toNat < s.sequenceEpoch.toNat ∨
    plan.sequenceEpoch = s.sequenceEpoch ∧
      plan.coordinates.prefixBefore.toNat < s.validLen.toNat

/-- The plan is at the live epoch and cursor. -/
def AtCursor (s : InferenceSessionState) (plan : PlannedInvocation) : Prop :=
  plan.sequenceEpoch = s.sequenceEpoch ∧ plan.coordinates.prefixBefore = s.validLen

theorem not_atCursor_of_behind {s : InferenceSessionState} {plan : PlannedInvocation}
    (h : Behind s plan) : ¬ AtCursor s plan := by
  rintro ⟨hepoch, hbefore⟩
  rcases h with h | ⟨-, h⟩
  · rw [hepoch] at h
    exact Nat.lt_irrefl _ h
  · rw [hbefore] at h
    exact Nat.lt_irrefl _ h

namespace SequenceWorld

structure CursorInvariant (w : SequenceWorld) : Prop where
  plans : w.PlansAdmitted
  within : w.state.validLen.toNat ≤ w.state.capacity.toNat
  phase : PhaseFits w.state
  tiles : Tiles 0 (committedRanges w.history) w.state.validLen.toNat
  notAhead : ∀ tx ∈ w.transactions, Behind w.state tx.plan ∨ AtCursor w.state tx.plan
  live : ∀ i tx, w.transactions[i]? = some tx → AtCursor w.state tx.plan → LiveSince i w.history
  done : ∀ i ∈ committedTransactions w.history,
    ∃ tx, w.transactions[i]? = some tx ∧ Behind w.state tx.plan
  once : (committedTransactions w.history).Nodup
  liveCommits : LiveCommits w.history

theorem cursorInvariant_start {capacity : UInt32} {s : InferenceSessionState}
    (h : InferenceSessionState.new capacity = .ok s) :
    (start s).CursorInvariant ∧ s.capacity = capacity := by
  unfold InferenceSessionState.new at h
  split at h
  · cases h
  · cases h
    constructor
    · constructor
      · simp [PlansAdmitted, start]
      · simp [start]
      · rfl
      · rfl
      · simp [start]
      · simp [start]
      · simp [start, committedTransactions]
      · simp [start, committedTransactions]
      · intro newer i rows older hsplit
        simp [start] at hsplit
    · rfl

/-- An effect that neither commits, resets nor begins, and leaves the cursor alone. -/
theorem cursorInvariant_quiet {w t : SequenceWorld} {event : SequenceEvent}
    (h : w.CursorInvariant) (hplans : t.PlansAdmitted)
    (hcapacity : t.state.capacity = w.state.capacity)
    (hlen : t.state.validLen = w.state.validLen)
    (hepoch : t.state.sequenceEpoch = w.state.sequenceEpoch) (hphase : PhaseFits t.state)
    (hhistory : t.history = w.history)
    (htransactions : ∀ i : Nat, (t.transactions[i]?).map InvocationTransaction.plan =
      (w.transactions[i]?).map InvocationTransaction.plan)
    (hranges : committedRanges (event :: w.history) = committedRanges w.history)
    (hlive : ∀ i, LiveSince i w.history → LiveSince i (event :: w.history))
    (hnone : ∀ i rows, event ≠ .committed i rows) :
    CursorInvariant { t with history := event :: t.history } := by
  have hbehind : ∀ plan, Behind t.state plan ↔ Behind w.state plan := by
    intro plan
    simp only [Behind, hlen, hepoch]
  have hat : ∀ plan, AtCursor t.state plan ↔ AtCursor w.state plan := by
    intro plan
    simp only [AtCursor, hlen, hepoch]
  have hplan : ∀ (i : Nat) (tx : InvocationTransaction), t.transactions[i]? = some tx →
      ∃ tx', w.transactions[i]? = some tx' ∧ tx'.plan = tx.plan := by
    intro i tx htx
    have := htransactions i
    rw [htx, Option.map_some] at this
    exact Option.map_eq_some_iff.mp this.symm
  have hcommitted : committedTransactions (event :: w.history) =
      committedTransactions w.history := by
    cases event with
    | committed i rows => exact absurd rfl (hnone i rows)
    | _ => rfl
  constructor
  · exact hplans
  · rw [hcapacity, hlen]
    exact h.within
  · exact hphase
  · rw [hhistory, hranges, hlen]
    exact h.tiles
  · intro tx htx
    obtain ⟨i, hi⟩ := List.mem_iff_getElem?.mp htx
    obtain ⟨tx', htx', heq⟩ := hplan i tx hi
    rw [hbehind, hat, ← heq]
    exact h.notAhead tx' (List.mem_of_getElem? htx')
  · intro i tx htx hcursor
    obtain ⟨tx', htx', heq⟩ := hplan i tx htx
    rw [hhistory]
    exact hlive i (h.live i tx' htx' (by rw [heq]; exact (hat _).mp hcursor))
  · intro i hi
    rw [hhistory, hcommitted] at hi
    obtain ⟨tx, htx, hdone⟩ := h.done i hi
    have := htransactions i
    rw [htx, Option.map_some] at this
    obtain ⟨tx', htx', heq⟩ := Option.map_eq_some_iff.mp this
    exact ⟨tx', htx', by rw [hbehind, heq]; exact hdone⟩
  · rw [hhistory, hcommitted]
    exact h.once
  · rw [hhistory]
    exact liveCommits_cons h.liveCommits (fun i rows heq => absurd heq (hnone i rows))

theorem cursorInvariant_began {w : SequenceWorld} (h : w.CursorInvariant)
    {plan : PlannedInvocation} (hmatches : w.state.Matches plan)
    (hadmitted : InferenceSessionState.Admitted w.state.capacity plan) :
    CursorInvariant
      { w with
        transactions := w.transactions ++ [⟨plan, none⟩]
        history := .began w.transactions.length :: w.history } := by
  constructor
  · intro tx htx
    rcases List.mem_append.mp htx with htx | htx
    · exact h.plans tx htx
    · cases List.mem_singleton.mp htx
      exact hadmitted
  · exact h.within
  · exact h.phase
  · exact h.tiles
  · intro tx htx
    rcases List.mem_append.mp htx with htx | htx
    · exact h.notAhead tx htx
    · cases List.mem_singleton.mp htx
      exact .inr ⟨hmatches.1, hmatches.2.1⟩
  · intro i tx htx hcursor
    rcases Nat.lt_trichotomy i w.transactions.length with hlt | heq | hgt
    · rw [List.getElem?_append_left hlt] at htx
      exact .inr (h.live i tx htx hcursor)
    · exact .inl heq.symm
    · rw [List.getElem?_append_right hgt.le, List.getElem?_eq_none (by
        simp only [List.length_singleton]; omega)] at htx
      cases htx
  · intro i hi
    obtain ⟨tx, htx, hdone⟩ := h.done i hi
    exact ⟨tx, by rw [List.getElem?_append_left (List.getElem?_eq_some_iff.mp htx).1]; exact htx,
      hdone⟩
  · exact h.once
  · exact liveCommits_cons h.liveCommits (fun i rows heq => by cases heq)

theorem cursorInvariant_committed {w : SequenceWorld} (h : w.CursorInvariant) {i : Nat}
    {tx : InvocationTransaction} {rows : CursorFacts} {phase : SequencePhase}
    (htx : w.transactions[i]? = some tx) (hmatches : w.state.Matches tx.plan)
    (hbefore : rows.prefixBefore = w.state.validLen)
    (hadvance : w.state.validLen.toNat < rows.validLenAfter.toNat)
    (hwithin : rows.validLenAfter.toNat ≤ w.state.capacity.toNat)
    (hphase : phase = .prefill ∨ phase = .decode) :
    CursorInvariant
      { w with
        state := w.state.advance rows phase
        history := .committed i rows :: w.history } := by
  have hbehind : ∀ plan, Behind w.state plan ∨ AtCursor w.state plan →
      Behind (w.state.advance rows phase) plan := by
    rintro plan ((hepoch | ⟨hepoch, hlt⟩) | ⟨hepoch, heq⟩)
    · exact .inl hepoch
    · exact .inr ⟨hepoch, hlt.trans hadvance⟩
    · exact .inr ⟨hepoch, by rw [heq]; exact hadvance⟩
  have hfresh : i ∉ committedTransactions w.history := by
    intro hi
    obtain ⟨tx', htx', hdone⟩ := h.done i hi
    rw [htx] at htx'
    cases htx'
    exact not_atCursor_of_behind hdone ⟨hmatches.1, hmatches.2.1⟩
  constructor
  · exact h.plans
  · exact hwithin
  · have hpos : rows.validLenAfter ≠ 0 := by
      rw [Ne, ← UInt32.toNat_inj, UInt32.toNat_zero]
      omega
    rcases hphase with rfl | rfl
    · exact hpos
    · exact hpos
  · have := tiles_snoc h.tiles hadvance
    rw [← hbefore] at this
    exact this
  · intro tx' htx'
    exact .inl (hbehind _ (h.notAhead tx' htx'))
  · intro j tx' htx' hcursor
    exact absurd hcursor (not_atCursor_of_behind
      (hbehind _ (h.notAhead tx' (List.mem_of_getElem? htx'))))
  · intro j hj
    rcases List.mem_cons.mp hj with rfl | hj
    · exact ⟨tx, htx, hbehind _ (.inr ⟨hmatches.1, hmatches.2.1⟩)⟩
    · obtain ⟨tx', htx', hdone⟩ := h.done j hj
      exact ⟨tx', htx', hbehind _ (.inl hdone)⟩
  · exact List.nodup_cons.mpr ⟨hfresh, h.once⟩
  · refine liveCommits_cons h.liveCommits ?_
    intro j rows' heq
    cases heq
    exact h.live i tx htx ⟨hmatches.1, hmatches.2.1⟩

theorem cursorInvariant_reset {w : SequenceWorld} (h : w.CursorInvariant) {epoch : UInt32}
    (hepoch : epoch.toNat = w.state.sequenceEpoch.toNat + 1) :
    CursorInvariant
      { w with
        state :=
          { w.state with
            validLen := 0
            sequenceEpoch := epoch
            phase := .fresh
            lastCommit := none
            poisonedInvocation := none }
        history := .reset epoch :: w.history } := by
  have hbehind : ∀ plan, Behind w.state plan ∨ AtCursor w.state plan →
      plan.sequenceEpoch.toNat < epoch.toNat := by
    rintro plan ((hlt | ⟨heq, -⟩) | ⟨heq, -⟩)
    · omega
    · rw [heq]
      omega
    · rw [heq]
      omega
  constructor
  · exact h.plans
  · simp
  · rfl
  · rfl
  · exact fun tx htx => .inl (.inl (hbehind _ (h.notAhead tx htx)))
  · intro i tx htx hcursor
    exact absurd hcursor (not_atCursor_of_behind
      (.inl (hbehind _ (h.notAhead tx (List.mem_of_getElem? htx)))))
  · intro i hi
    obtain ⟨tx, htx, hdone⟩ := h.done i hi
    exact ⟨tx, htx, .inl (hbehind _ (.inl hdone))⟩
  · exact h.once
  · exact liveCommits_cons h.liveCommits (fun i rows heq => by cases heq)

theorem cursorInvariant_step {T : Toolchain} {w t : SequenceWorld} {op : SequenceOp}
    (h : w.CursorInvariant) (hstep : step T w op = some t) : t.CursorInvariant := by
  rcases step_cases h.plans hstep with rfl | ⟨event, u, -, heffect, rfl⟩
  · exact h
  have hplans := effect_plansAdmitted heffect h.plans
  cases heffect with
  | began plan husable hmatches hadmitted => exact cursorInvariant_began h hmatches hadmitted
  | recorded i tx stage htx =>
    refine cursorInvariant_quiet h hplans.2 rfl rfl rfl h.phase rfl ?_ rfl (fun _ hl => hl)
      (by simp)
    intro j
    by_cases hij : i = j
    · subst hij
      rw [List.getElem?_set_self (List.getElem?_eq_some_iff.mp htx).1, htx]
      rfl
    · rw [List.getElem?_set_ne hij]
  | committed i tx rows phase htx husable hmatches hbefore hadvance hwithin hphase =>
    exact cursorInvariant_committed h htx hmatches hbefore hadvance hwithin hphase
  | abortedZero i tx htx husable hmatches =>
    exact cursorInvariant_quiet h hplans.2 rfl rfl rfl h.phase rfl (fun _ => rfl) rfl
      (fun _ hl => hl) (by simp)
  | unchanged i =>
    exact cursorInvariant_quiet h hplans.2 rfl rfl rfl h.phase rfl (fun _ => rfl) rfl
      (fun _ hl => hl) (by simp)
  | poisoned i plan stage husable =>
    exact cursorInvariant_quiet h hplans.2 rfl rfl rfl trivial rfl (fun _ => rfl) rfl
      (fun _ hl => hl) (by simp)
  | reset epoch husable hepoch => exact cursorInvariant_reset h hepoch
  | released =>
    exact cursorInvariant_quiet h hplans.2 rfl rfl rfl h.phase rfl (fun _ => rfl) rfl
      (fun _ hl => hl) (by simp)

/-! ## Safety of every run -/

/-- The rows of an open transaction: the position and the causal end of each are the
    exact sums. -/
def ExactRows (T : Toolchain) (tx : InvocationTransaction) : Prop :=
  ∀ row, row < tx.plan.coordinates.queryRows →
    (∃ position, tx.candidateRows.position T row = some (.ok position) ∧
      position.toNat = tx.plan.coordinates.prefixBefore.toNat + row.toNat) ∧
    ∃ causalEnd, tx.plan.coordinates.causalEndExclusive row = .ok causalEnd ∧
      causalEnd.toNat = tx.plan.coordinates.prefixBefore.toNat + row.toNat + 1

theorem exactRows_of_admitted (T : Toolchain) {capacity : UInt32} {tx : InvocationTransaction}
    (h : InferenceSessionState.Admitted capacity tx.plan) : ExactRows T tx := by
  intro row hrow
  have hend := h.rows_end
  have hbound := tx.plan.coordinates.validLenAfter.toNat_lt
  have hlt := UInt32.lt_iff_toNat_lt.mp hrow
  have hsum : tx.plan.coordinates.prefixBefore.toNat + row.toNat < 2 ^ 32 := by omega
  have hsumNext : (tx.plan.coordinates.prefixBefore + row).toNat + (1 : UInt32).toNat
      < 2 ^ 32 := by
    rw [toNat_add32_of_fits hsum]
    have : (1 : UInt32).toNat = 1 := rfl
    omega
  have hinside : ¬ tx.plan.coordinates.queryRows ≤ row := by
    rw [UInt32.le_iff_toNat_le]
    omega
  constructor
  · refine ⟨tx.plan.coordinates.prefixBefore + row, ?_, toNat_add32_of_fits hsum⟩
    rw [CandidateRows.position, InvocationTransaction.candidateRows, if_neg hinside, h.start_eq,
      addU32_of_fits T.overflowChecks hsum]
    rfl
  · refine ⟨tx.plan.coordinates.prefixBefore + row + 1, ?_, ?_⟩
    · rw [CursorFacts.causalEndExclusive, if_neg hinside, checkedAdd32_of_fits hsum,
        Option.bind_some, checkedAdd32_of_fits hsumNext]
    · rw [toNat_add32_of_fits hsumNext, toNat_add32_of_fits hsum]
      rfl

/-- The safety of the cursor in one state of a run. -/
structure CursorSafe (T : Toolchain) (capacity : UInt32) (w : SequenceWorld) : Prop where
  capacity_kept : w.state.capacity = capacity
  within_capacity : w.state.validLen ≤ w.state.capacity
  fresh_iff : w.state.Usable → (w.state.phase = .fresh ↔ w.state.validLen = 0)
  ranges_tile : Tiles 0 (committedRanges w.history) w.state.validLen.toNat
  commits_once : (committedTransactions w.history).Nodup
  commits_live : LiveCommits w.history
  errors_unchanged : ∀ op e t, call T op w = some (.error e, t) → t = w
  returns : ∀ op, (∀ i, op.transaction? = some i → i < w.transactions.length) →
    ∃ answer t, call T op w = some (answer, t)
  rows_exact : ∀ tx ∈ w.transactions, ExactRows T tx
  commits_exact : ∀ op i rows t, call T op w = some (.ok (.committed i rows), t) →
    rows.prefixBefore = w.state.validLen ∧ t.state.validLen = rows.validLenAfter ∧
      w.state.validLen.toNat < rows.validLenAfter.toNat
  epochs_exact : ∀ op epoch t, call T op w = some (.ok (.reset epoch), t) →
    epoch.toNat = w.state.sequenceEpoch.toNat + 1

theorem cursorSafe_of_invariant {T : Toolchain} {w : SequenceWorld} (h : w.CursorInvariant) :
    CursorSafe T w.state.capacity w := by
  have heffect : ∀ {op event t}, call T op w = some (.ok event, t) → Effect w event t :=
    fun {op _ _} hcall => Call.wp_of_ok (call_effect T w h.plans op) hcall
  constructor
  · rfl
  · exact UInt32.le_iff_toNat_le.mpr h.within
  · intro husable
    have hphase := h.phase
    have hpoison := husable.2
    cases hcase : w.state.phase with
    | fresh => simpa [PhaseFits, hcase] using hphase
    | prefill => simpa [PhaseFits, hcase] using hphase
    | decode => simpa [PhaseFits, hcase] using hphase
    | poisoned epoch stage => simp [hcase, SequencePhase.isPoisoned] at hpoison
  · exact h.tiles
  · exact h.once
  · exact h.liveCommits
  · intro op e t hcall
    have hunchanged := Call.wp_of_error (call_effect T w h.plans op) hcall
    exact hunchanged
  · intro op hbegun
    have hcall := call_effect T w h.plans op
    cases hanswer : call T op w with
    | none =>
      rw [Call.wp, hanswer] at hcall
      obtain ⟨i, hi, hnone⟩ := hcall
      exact absurd (hbegun i hi) (by simpa using hnone)
    | some answered => exact ⟨answered.1, answered.2, rfl⟩
  · exact fun tx htx => exactRows_of_admitted T (h.plans tx htx)
  · intro op i rows t hcall
    cases heffect hcall with
    | committed _ _ _ _ _ _ _ hbefore hadvance _ _ => exact ⟨hbefore, rfl, hadvance⟩
  · intro op epoch t hcall
    cases heffect hcall with
    | reset _ _ hepoch => exact hepoch

theorem cursorInvariant_run {T : Toolchain} {capacity : UInt32} {s : InferenceSessionState}
    {ops : List SequenceOp} {w : SequenceWorld} (hnew : InferenceSessionState.new capacity = .ok s)
    (hrun : runSteps (step T) (start s) ops = some w) :
    w.CursorInvariant ∧ w.state.capacity = capacity := by
  refine runSteps_preserves
    (P := fun w : SequenceWorld => w.CursorInvariant ∧ w.state.capacity = capacity) ?_
    (cursorInvariant_start hnew) hrun
  rintro w op t ⟨hw, hcapacity⟩ hstep
  refine ⟨cursorInvariant_step hw hstep, ?_⟩
  rcases step_cases hw.plans hstep with rfl | ⟨event, u, -, heffect, rfl⟩
  · exact hcapacity
  · exact (effect_plansAdmitted heffect hw.plans).1.trans hcapacity

/-- Over every run of calls on a new sequence, with any number of open transactions:
    the committed rows since the last reset tile the valid prefix, transactions commit
    at most once and only while live, errors change nothing and no addition overflows. -/
theorem cursor_safe (T : Toolchain) (capacity : UInt32) (s : InferenceSessionState)
    (hnew : InferenceSessionState.new capacity = .ok s) (ops : List SequenceOp)
    (w : SequenceWorld) (hrun : runSteps (step T) (start s) ops = some w) :
    CursorSafe T capacity w := by
  obtain ⟨hinvariant, hcapacity⟩ := cursorInvariant_run hnew hrun
  rw [← hcapacity]
  exact cursorSafe_of_invariant hinvariant

/-- A prefill of four rows, then a verification of three that commits two, while a
    decode begun at the same cursor is left behind. -/
def sampleOps : List SequenceOp :=
  [.begin .prefill 4, .commit 0, .begin .scalarDecode 1, .begin .verification 3,
    .commitVerification 2 2, .commit 1, .logicalReset, .commitVerification 2 1]

def sampleState : InferenceSessionState := ⟨8, 0, 1, .fresh, false, none, none⟩

theorem sample_cursor_safe :
    ∃ w, runSteps (step .dev) (start sampleState) sampleOps = some w ∧
      CursorSafe .dev 8 w := by
  have hreturns : (runSteps (step .dev) (start sampleState) sampleOps).isSome = true := by
    decide +kernel
  obtain ⟨w, hw⟩ := Option.isSome_iff_exists.mp hreturns
  exact ⟨w, hw, cursor_safe .dev 8 sampleState rfl sampleOps w hw⟩

end SequenceWorld

end FaberHosts.Inference
